import CallChart.Proofs.Basic
import CallChart.Proofs.Files.Following

/-!
# What writing leaves as it was

A file is written where its path leads, and nowhere else (`Disk.write_spec`):
every other place stays as it was, and afterwards the path leads to the new
bytes. Making folders adds folders and nothing else
(`Disk.onlyFolders_createFolders`), also where it fails halfway.
-/

namespace CallChart.Files

namespace Disk

variable {disk disk' : Disk} {path : Path} {place : Place} {content : ByteArray}

/-! ## Where paths lead -/

/-- Where a path leads. -/
theorem find_eq_ok_iff :
    disk.find path = .ok place ↔ checkPath path = .ok () ∧
      Leads disk.root false maxLinks (disk.startOf path) (piecesOf path.text) place := by
  rw [find, bind_eq_ok_iff]
  simp only [followLinks_eq_ok_iff]
  exact ⟨fun ⟨_, checked, leads⟩ => ⟨checked, leads⟩, fun ⟨checked, leads⟩ => ⟨(), checked, leads⟩⟩

/-- Where the file of a path is written. -/
theorem filePlace_eq_ok_iff :
    disk.filePlace path = .ok place ↔ checkPath path = .ok () ∧
      Leads disk.root true maxLinks (disk.startOf path) (piecesOf path.text) place ∧
      disk.root.kindAt? place ≠ some .folder := by
  rw [filePlace, bind_eq_ok_iff]
  simp only [bind_eq_ok_iff, followLinks_eq_ok_iff]
  constructor
  · rintro ⟨_, checked, found, leads, done⟩
    split at done
    · cases done
    · next no_folder =>
      obtain rfl := Except.ok.inj done
      refine ⟨checked, leads, fun folder => ?_⟩
      obtain ⟨entries, found⟩ := Entry.kindAt?_eq_folder_iff.mp folder
      exact no_folder entries found
  · rintro ⟨checked, leads, no_folder⟩
    refine ⟨(), checked, place, leads, ?_⟩
    split
    · next entries found => exact absurd (Entry.kindAt?_eq_folder_iff.mpr ⟨entries, found⟩) no_folder
    · rfl

/-- The entry that a path leads to. -/
theorem entry_eq_ok_iff {found : Entry} :
    disk.entry path = .ok found ↔
      ∃ place, disk.find path = .ok place ∧ disk.root.at? place = some found := by
  rw [entry, bind_eq_ok_iff]
  refine exists_congr fun place => and_congr_right fun _ => ?_
  cases disk.root.at? place with
  | none => exact ⟨nofun, nofun⟩
  | some other => exact ⟨fun same => congrArg some (Except.ok.inj same), fun same =>
      congrArg Except.ok (Option.some.inj same)⟩

/-- A path leads to something. -/
theorem holds_iff : disk.holds path = true ↔ ∃ found, disk.entry path = .ok found := by
  rw [holds]
  cases disk.entry path with
  | error => exact ⟨nofun, nofun⟩
  | ok found => exact ⟨fun _ => ⟨found, rfl⟩, fun _ => rfl⟩

/-- A path leads to the same place after the disk has grown. -/
theorem find_mono {written : Place → Prop} (grows : Grows written disk.root disk'.root)
    (here : disk'.here = disk.here) (found : disk.find path = .ok place) :
    disk'.find path = .ok place := by
  obtain ⟨checked, leads⟩ := find_eq_ok_iff.mp found
  have start : disk'.startOf path = disk.startOf path := by rw [startOf, startOf, here]
  exact find_eq_ok_iff.mpr ⟨checked, start ▸ leads.mono grows⟩

/-! ## Writing a file -/

/-- The place of a file that is written holds a file, or nothing in a folder that is there. -/
theorem file_or_free_of_filePlace (found : disk.filePlace path = .ok place) :
    (∃ old, disk.root.kindAt? place = some (.file old)) ∨ disk.root.kindAt? place = none ∧
      ∃ outer name, place = outer ++ [name] ∧ disk.root.kindAt? outer = some .folder := by
  obtain ⟨_, leads, no_folder⟩ := filePlace_eq_ok_iff.mp found
  rcases leads.stands_or_free (.inr (piecesOf_ne_nil _)) with ⟨kind, stands, no_link⟩ | free
  · cases kind with
    | file old => exact .inl ⟨old, stands⟩
    | link target => exact absurd rfl (no_link target)
    | folder => exact absurd stands no_folder
  · exact .inr free

/-- What is written stands at its place. -/
theorem at?_put_of_filePlace (found : disk.filePlace path = .ok place) (content : ByteArray) :
    (Entry.put (.file content) place disk.root).at? place = some (.file content) := by
  rcases file_or_free_of_filePlace found with ⟨old, stands⟩ | ⟨_, outer, name, rfl, folder⟩
  · rcases List.eq_nil_or_concat place with rfl | ⟨outer, name, rfl⟩
    · rfl
    · rw [List.concat_eq_append] at stands ⊢
      refine Entry.at?_put_concat ?_ name
      exact Entry.kindAt?_of_append (List.cons_ne_nil _ _) (Option.isSome_of_eq_some stands)
  · exact Entry.at?_put_concat folder name

/-- **What writing does.** The file is written at its place and at no other, and the path leads
there afterwards. -/
theorem write_spec (done : disk.write path content = .ok disk') :
    ∃ place, disk.filePlace path = .ok place ∧ disk'.here = disk.here ∧
      Grows (· = place) disk.root disk'.root ∧
      disk'.root.at? place = some (.file content) ∧ disk'.find path = .ok place := by
  obtain ⟨place, found, same⟩ := bind_eq_ok_iff.mp done
  obtain rfl := Except.ok.inj same
  have now := at?_put_of_filePlace found content
  have grows : Grows (· = place) disk.root (disk.put place (.file content)).root :=
    Grows.put_file now ((file_or_free_of_filePlace found).symm.imp And.left id)
  obtain ⟨checked, leads, _⟩ := filePlace_eq_ok_iff.mp found
  have before : disk.find path = .ok place := find_eq_ok_iff.mpr ⟨checked, leads.asAny⟩
  exact ⟨place, found, rfl, grows, now, find_mono grows rfl before⟩

/-- Where a path leads to a file, that file is written. -/
theorem filePlace_of_find (found : disk.find path = .ok place)
    (no_folder : disk.root.kindAt? place ≠ some .folder) : disk.filePlace path = .ok place := by
  obtain ⟨checked, leads⟩ := find_eq_ok_iff.mp found
  exact filePlace_eq_ok_iff.mpr ⟨checked, leads.asFile no_folder, no_folder⟩

/-! ## Making folders -/

/-- The folder that `folderAt` answers stands there. -/
theorem at?_of_folderAt {root : Entry} {entries : List (String × Entry)}
    (found : folderAt root place = .ok entries) : root.at? place = some (.folder entries) := by
  unfold folderAt at found
  split at found
  · next hplace => rw [hplace, Except.ok.inj found]
  · cases found
  · cases found

/-- No empty piece is left at the end. -/
theorem getLast?_trimSlashes_ne {pieces : List String} {name : String}
    (last : (trimSlashes pieces).1.getLast? = some name) : name ≠ "" := by
  rintro rfl
  have head := List.head?_dropWhile_not (·.isEmpty) pieces.reverse
  rw [trimSlashes, List.getLast?_reverse] at last
  rw [last] at head
  exact absurd head (by decide)

/-- **What stands where a folder is made**: nothing, in a folder that the pieces before the last one
lead to. -/
theorem newPlace_spec (done : disk.newPlace path = .ok place) :
    ∃ outer name, place = outer ++ [name] ∧ checkPath path = .ok () ∧ IsName name ∧
      (trimSlashes (piecesOf path.text)).1.getLast? = some name ∧
      Leads disk.root false maxLinks (disk.startOf path)
        (trimSlashes (piecesOf path.text)).1.dropLast outer ∧
      disk.root.kindAt? outer = some .folder ∧ disk.root.kindAt? place = none := by
  rw [newPlace, bind_eq_ok_iff] at done
  obtain ⟨_, checked, done⟩ := done
  cases last : (trimSlashes (piecesOf path.text)).1.getLast? with
  | none => simp only [last] at done; cases done
  | some name =>
    simp only [last, bind_eq_ok_iff] at done
    obtain ⟨outer, leads, entries, inside, done⟩ := done
    have hplace := at?_of_folderAt inside
    split at done
    case isTrue => cases done
    case isFalse dots =>
    split at done
    case isTrue => cases done
    case isFalse short =>
    split at done
    case isTrue => cases done
    case isFalse free =>
    obtain rfl := Except.ok.inj done
    have nothing : disk.root.at? (outer ++ [name]) = none := by
      rw [Entry.at?_concat_of_folder hplace]
      simpa using free
    refine ⟨outer, name, rfl, checked, ⟨?_, ?_, short⟩, rfl, leads_of_followLinks leads,
      Entry.kindAt?_eq_folder_iff.mpr ⟨entries, hplace⟩, Entry.kindAt?_eq_none_iff.mpr nothing⟩
    · rintro (rfl | rfl)
      · exact getLast?_trimSlashes_ne last rfl
      · exact dots (.inl rfl)
    · rintro rfl
      exact dots (.inr rfl)

/-- Folders are made on a disk: it grows, and no file is written. -/
structure OnlyFolders (disk disk' : Disk) : Prop where
  here : disk'.here = disk.here
  grows : Grows (fun _ => False) disk.root disk'.root

theorem OnlyFolders.refl (disk : Disk) : OnlyFolders disk disk := ⟨rfl, .refl _ _⟩

theorem OnlyFolders.trans {disk'' : Disk} (first : OnlyFolders disk disk')
    (second : OnlyFolders disk' disk'') : OnlyFolders disk disk'' :=
  ⟨second.here.trans first.here, first.grows.trans second.grows⟩

/-- Making a folder adds a folder. -/
theorem onlyFolders_createFolder (done : disk.createFolder path = .ok disk') :
    OnlyFolders disk disk' := by
  obtain ⟨place, found, same⟩ := bind_eq_ok_iff.mp done
  obtain rfl := Except.ok.inj same
  obtain ⟨outer, name, rfl, _, _, _, _, folder, free⟩ := newPlace_spec found
  exact ⟨rfl, Grows.put_folder folder free⟩

/-- Making a folder that may be there adds at most a folder. -/
theorem onlyFolders_ensureFolder (disk : Disk) (path : Path) :
    OnlyFolders disk (disk.ensureFolder path).2 := by
  unfold ensureFolder
  split
  · next done => exact onlyFolders_createFolder done
  · split <;> exact .refl disk

/-- Making folders adds folders, also where it fails halfway. -/
theorem onlyFolders_createFoldersWithin (n : Nat) (path : Path) (disk : Disk) :
    OnlyFolders disk (createFoldersWithin n path disk).2 := by
  induction n generalizing path disk with
  | zero => exact .refl disk
  | succ n ih =>
    unfold createFoldersWithin
    split
    · exact .refl disk
    · split
      · split
        · exact .refl disk
        · next parent _ =>
          have first := ih parent disk
          split
          · next made hmade =>
            rw [hmade] at first
            exact first.trans (onlyFolders_ensureFolder made path)
          · exact first
      · exact onlyFolders_ensureFolder disk path

/-- **Making folders adds folders and nothing else.** -/
theorem onlyFolders_createFolders {result : Except SystemError Unit}
    (done : disk.createFolders path = (result, disk')) : OnlyFolders disk disk' := by
  have folders := onlyFolders_createFoldersWithin (path.text.length + 1) path disk
  rwa [← createFolders, done] at folders

end Disk

end CallChart.Files
