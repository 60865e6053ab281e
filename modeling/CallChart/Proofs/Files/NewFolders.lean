import CallChart.Proofs.Files.Writing
import CallChart.Proofs.Paths
import Mathlib.Data.List.Basic

/-!
# What stands in folders that are made

Folders are made along a path, from the first that is missing on. A path that
does not go back then ends in a new folder, with nothing in it
(`Disk.unchanged_or_empty`). A path that does go back may not: once the
folders before the two dots are made, the path leads out of them again, to
what was there before.
-/

namespace CallChart.Files

namespace Disk

variable {disk disk' : Disk} {path base : Path} {root : Entry} {n : Nat}
  {place found middle : Place} {front back : List String}

/-! ## Following in parts -/

namespace Leads

theorem passes (piece : String) (rest : List String) : ¬ Refuses false piece rest :=
  fun refused => nomatch refused.1

/-- **Pieces are followed in parts**, with fewer links left for the second. -/
theorem split (leads : Leads root false n place (front ++ back) found) :
    ∃ m middle, Leads root false n place front middle ∧ Leads root false m middle back found := by
  generalize whole : front ++ back = pieces at leads
  induction leads generalizing front with
  | here n place =>
    obtain ⟨rfl, rfl⟩ := List.append_eq_nil_iff.mp whole
    exact ⟨n, place, .here n place, .here n place⟩
  | stay folder _ stays further ih =>
    cases front with
    | nil =>
      obtain rfl : back = _ := whole
      exact ⟨_, _, .here _ _, .stay folder (passes _ _) stays further⟩
    | cons first front =>
      obtain ⟨rfl, same⟩ := List.cons.inj whole
      obtain ⟨m, middle, before, after⟩ := ih same
      exact ⟨m, middle, .stay folder (passes _ _) stays before, after⟩
  | back folder _ further ih =>
    cases front with
    | nil =>
      obtain rfl : back = _ := whole
      exact ⟨_, _, .here _ _, .back folder (passes _ _) further⟩
    | cons first front =>
      obtain ⟨rfl, same⟩ := List.cons.inj whole
      obtain ⟨m, middle, before, after⟩ := ih same
      exact ⟨m, middle, .back folder (passes _ _) before, after⟩
  | free folder name inner =>
    cases front with
    | nil =>
      obtain rfl : back = _ := whole
      exact ⟨0, _, .here _ _, .free folder name inner⟩
    | cons first front =>
      obtain ⟨rfl, same⟩ := List.cons.inj whole
      obtain ⟨rfl, rfl⟩ := List.append_eq_nil_iff.mp same
      exact ⟨_, _, .free folder name inner, .here 0 _⟩
  | link folder _ name inner further ih =>
    cases front with
    | nil =>
      obtain rfl : back = _ := whole
      exact ⟨_, _, .here _ _, .link folder (passes _ _) name inner further⟩
    | cons first front =>
      obtain ⟨rfl, same⟩ := List.cons.inj whole
      obtain ⟨m, middle, before, after⟩ := ih (by rw [← same]; exact List.append_assoc _ _ _)
      exact ⟨m, middle, .link folder (passes _ _) name inner before, after⟩
  | down folder _ name inner no_link further ih =>
    cases front with
    | nil =>
      obtain rfl : back = _ := whole
      exact ⟨_, _, .here _ _, .down folder (passes _ _) name inner no_link further⟩
    | cons first front =>
      obtain ⟨rfl, same⟩ := List.cons.inj whole
      obtain ⟨m, middle, before, after⟩ := ih same
      exact ⟨m, middle, .down folder (passes _ _) name inner no_link before, after⟩

/-- Pieces that need no link go on from a folder that others lead to. -/
theorem append (leads : Leads root false n place front middle)
    (folder : root.kindAt? middle = some .folder)
    (goes : ∀ m, Leads root false m middle back found) :
    Leads root false n place (front ++ back) found := by
  induction leads with
  | here n place => exact goes n
  | stay outer _ stays _ ih => exact .stay outer (passes _ _) stays (ih folder goes)
  | back outer _ _ ih => exact .back outer (passes _ _) (ih folder goes)
  | free _ _ inner =>
    rw [folder] at inner
    cases inner
  | link outer _ name inner _ ih =>
    refine .link outer (passes _ _) name inner ?_
    exact List.append_assoc _ _ _ ▸ ih folder goes
  | down outer _ name inner no_link _ ih =>
    exact .down outer (passes _ _) name inner no_link (ih folder goes)

/-- Pieces that stay lead to where they start. -/
theorem eq_of_stays (leads : Leads root false n place front found)
    (stays : ∀ piece ∈ front, piece = "" ∨ piece = ".") : found = place := by
  induction leads with
  | here => rfl
  | stay _ _ _ _ ih => exact ih fun piece mem => stays piece (List.mem_cons_of_mem _ mem)
  | back => exact absurd (stays _ List.mem_cons_self) (by decide)
  | free _ name _ | link _ _ name _ _ _ | down _ _ name _ _ _ _ =>
    exact absurd (stays _ List.mem_cons_self) name.stays

/-- A name that is not there leads to nothing, after pieces that stay. -/
theorem kindAt?_of_missing {name : String} {rest : List String}
    (leads : Leads root false n place (front ++ name :: rest) found)
    (stays : ∀ piece ∈ front, piece = "" ∨ piece = ".")
    (named : ¬(name = "" ∨ name = ".")) (forth : name ≠ "..")
    (missing : root.kindAt? (place ++ [name]) = none) : root.kindAt? found = none := by
  obtain ⟨m, middle, before, after⟩ := leads.split
  obtain rfl := before.eq_of_stays stays
  cases after with
  | stay _ _ stays => exact absurd stays named
  | back => exact absurd rfl forth
  | free => exact missing
  | link _ _ _ inner | down _ _ _ inner =>
    rw [missing] at inner
    cases inner

end Leads

/-! ## Below an empty folder -/

/-- A text piece that stays, as a piece of a path. -/
theorem stays_of_mem_map {pieces : List (List Char)} (stays : ∀ piece ∈ pieces, Path.Stays piece) :
    ∀ piece ∈ pieces.map String.ofList, piece = "" ∨ piece = "." := by
  intro piece mem
  obtain ⟨chars, inside, rfl⟩ := List.mem_map.mp mem
  rcases stays chars inside with rfl | rfl
  · exact .inl rfl
  · exact .inr rfl

/-- **Nothing stands below an empty folder.** A path that goes on from it by a name leads
nowhere. -/
theorem holds_eq_false_of_goesOn {name : List Char} (goes : Path.GoesOn base path name)
    (named : ¬ Path.Stays name) (forth : name ≠ ['.', '.'])
    (empty : disk.entry base = .ok (.folder [])) : disk.holds path = false := by
  obtain ⟨absolute, front, stay, stay', rest, hbase, hpath, stays, stays'⟩ := goes
  obtain ⟨place, hplace, folder⟩ := entry_eq_ok_iff.mp empty
  have to_base := (find_eq_ok_iff.mp hplace).2
  rw [← Bool.not_eq_true, holds_iff]
  rintro ⟨entry, hentry⟩
  obtain ⟨found, hfound, stands⟩ := entry_eq_ok_iff.mp hentry
  have to_path := (find_eq_ok_iff.mp hfound).2
  -- Both paths lead to the folder first; the second then goes on from it.
  rw [piecesOf, hbase, List.map_append] at to_base
  rw [piecesOf, hpath, List.map_append, List.map_append, List.map_cons, startOf, absolute] at to_path
  obtain ⟨_, middle, before, after⟩ := to_base.split
  obtain ⟨_, middle', before', after'⟩ := to_path.split
  obtain rfl := before.unique before'
  obtain rfl := after.eq_of_stays (stays_of_mem_map stays)
  have missing : disk.root.kindAt? (place ++ [String.ofList name]) = none := by
    rw [Entry.kindAt?, Entry.at?_concat_of_folder folder]
    rfl
  have nothing : disk.root.kindAt? found = none := by
    refine after'.kindAt?_of_missing (stays_of_mem_map stays') ?_ ?_ missing
    · rintro (same | same)
      · exact named (.inl (by simpa using congrArg String.toList same))
      · exact named (.inr (by simpa using congrArg String.toList same))
    · exact fun same => forth (by simpa using congrArg String.toList same)
  rw [Entry.kindAt?_eq_none_iff.mp nothing] at stands
  cases stands

/-! ## Making folders -/

/-- What is left of pieces without the slashes at the end, and those. -/
theorem trimSlashes_spec (pieces : List String) :
    ∃ slashes, pieces = (trimSlashes pieces).1 ++ slashes ∧ ∀ piece ∈ slashes, piece = "" := by
  refine ⟨(pieces.reverse.takeWhile (·.isEmpty)).reverse, ?_, fun piece mem => ?_⟩
  · rw [trimSlashes, ← List.reverse_append, List.takeWhile_append_dropWhile, List.reverse_reverse]
  · simpa using List.mem_takeWhile_imp (List.mem_reverse.mp mem)

/-- **A folder that is made is empty**, and its path leads to it. -/
theorem entry_createFolder (done : disk.createFolder path = .ok disk') :
    disk'.entry path = .ok (.folder []) := by
  have grows := (onlyFolders_createFolder done).grows
  obtain ⟨place, hplace, same⟩ := bind_eq_ok_iff.mp done
  obtain rfl := Except.ok.inj same
  obtain ⟨outer, name, rfl, checked, named, last, leads, folder, _⟩ := newPlace_spec hplace
  have now : (Entry.put (.folder []) (outer ++ [name]) disk.root).at? (outer ++ [name]) =
      some (.folder []) := Entry.at?_put_concat folder name
  have inner := Entry.kindAt?_eq_folder_iff.mpr ⟨[], now⟩
  refine entry_eq_ok_iff.mpr ⟨outer ++ [name], find_eq_ok_iff.mpr ⟨checked, ?_⟩, now⟩
  obtain ⟨slashes, hpieces, empty⟩ := trimSlashes_spec (piecesOf path.text)
  have hkept := List.dropLast_append_getLast? _ (Option.mem_def.mpr last)
  rw [hpieces, ← hkept, List.append_assoc, List.singleton_append]
  refine (leads.mono grows).append (grows.kept folder (.inl nofun)) fun m => ?_
  refine .down (grows.kept folder (.inl nofun)) (Leads.passes _ _) named inner nofun ?_
  clear hpieces
  induction slashes with
  | nil => exact .here m _
  | cons slash slashes ih =>
    refine .stay inner (Leads.passes _ _) (.inl (empty slash List.mem_cons_self)) ?_
    exact ih fun piece mem => empty piece (List.mem_cons_of_mem _ mem)

theorem holds_of_isFolder (folder : disk.isFolder path = true) : disk.holds path = true := by
  unfold isFolder at folder
  split at folder
  · next found hfound => exact holds_iff.mpr ⟨found, hfound⟩
  · cases folder

/-- A folder that may be there is made empty, or stands there already. -/
theorem ensureFolder_cases (done : disk.ensureFolder path = (.ok (), disk')) :
    disk' = disk ∧ disk.holds path = true ∨ disk'.entry path = .ok (.folder []) := by
  unfold ensureFolder at done
  split at done
  · next made hmade =>
    obtain ⟨-, rfl⟩ := Prod.mk.inj done
    exact .inr (entry_createFolder hmade)
  · split at done
    · next folder => exact .inl ⟨(Prod.mk.inj done).2.symm, holds_of_isFolder folder⟩
    · cases (Prod.mk.inj done).1

/-- What a path goes on from does not go back, if the path does not. -/
theorem forth_of_goesOn {name : List Char} (goes : Path.GoesOn base path name)
    (forth : ".." ∉ piecesOf path.text) : ".." ∉ piecesOf base.text ∧ name ≠ ['.', '.'] := by
  obtain ⟨_, front, stay, stay', rest, hbase, hpath, stays, _⟩ := goes
  rw [piecesOf, hpath, List.map_append, List.map_append, List.map_cons] at forth
  refine ⟨fun back => ?_, ?_⟩
  · rw [piecesOf, hbase, List.map_append, List.mem_append] at back
    rcases back with back | back
    · exact forth (List.mem_append_left _ back)
    · exact absurd (stays_of_mem_map stays _ back) (by decide)
  · rintro rfl
    exact forth (List.mem_append_right _ (List.mem_append_right _ List.mem_cons_self))

/-- **Folders along a path that does not go back end in an empty one**, or nothing is made. -/
theorem unchanged_or_empty_within (forth : ".." ∉ piecesOf path.text)
    (done : createFoldersWithin n path disk = (.ok (), disk')) :
    disk' = disk ∨ disk'.entry path = .ok (.folder []) := by
  induction n generalizing path disk' with
  | zero => cases (Prod.mk.inj done).1
  | succ n ih =>
    rw [createFoldersWithin] at done
    split at done
    case isTrue => exact .inl (Prod.mk.inj done).2.symm
    case isFalse =>
    split at done
    case h_2 => exact (ensureFolder_cases done).imp_left And.left
    case h_1 missing =>
    split at done
    case h_1 => cases (Prod.mk.inj done).1
    case h_2 parent hparent =>
    split at done
    case h_2 failed => exact absurd done (failed _)
    case h_1 disk₁ outer =>
    -- What is missing is made only in a folder that was missing too.
    by_cases made : disk₁ = disk
    · rw [made, missing] at done
      cases (Prod.mk.inj done).1
    have named : parent.text ≠ "" := by
      intro empty
      cases n with
      | zero => cases (Prod.mk.inj outer).1
      | succ n =>
        rw [createFoldersWithin, if_pos (String.isEmpty_iff.mpr empty)] at outer
        exact made (Prod.mk.inj outer).2.symm
    obtain ⟨name, counts, goes⟩ := Path.goesOn_parent hparent named
    obtain ⟨forth', hname⟩ := forth_of_goesOn goes forth
    have empty := (ih forth' outer).resolve_left made
    rcases ensureFolder_cases done with ⟨_, stands⟩ | empty'
    · rw [holds_eq_false_of_goesOn goes counts hname empty] at stands
      cases stands
    · exact .inr empty'

/-- **Making folders along a path that does not go back** changes nothing, or the path leads to an
empty folder afterwards. -/
theorem unchanged_or_empty (forth : ".." ∉ piecesOf path.text)
    (done : disk.createFolders path = (.ok (), disk')) :
    disk' = disk ∨ disk'.entry path = .ok (.folder []) :=
  unchanged_or_empty_within forth done

end Disk

end CallChart.Files
