import CallChart.Proofs.Files.Growth

/-!
# Where paths lead

`Disk.followLinks` follows the pieces of a path. `Leads` says the same as a
relation, with one rule for each thing that a piece can do: it stays, goes
back, goes down, goes through a link, or names what is not there yet. The laws
of paths are proved by induction on it.

A path that leads somewhere leads to the same place after the tree has grown
(`Leads.mono`). Folders that are made and files that are written never come in
the way of a path, since nothing else can stand where they come to stand.
-/

namespace CallChart.Files

/-- A file or a folder stands at a place. -/
def Entry.Stands (root : Entry) (place : Place) : Prop :=
  ∃ kind, root.kindAt? place = some kind ∧ ∀ target, kind ≠ .link target

theorem Entry.Stands.folder {root : Entry} {place : Place}
    (folder : root.kindAt? place = some .folder) : root.Stands place :=
  ⟨.folder, folder, nofun⟩

namespace Disk

/-- A text has a piece, if only an empty one. -/
theorem piecesOf_ne_nil (text : String) : piecesOf text ≠ [] := by
  rw [piecesOf, Ne, List.map_eq_nil_iff]
  generalize text.toList = chars
  cases chars with
  | nil => nofun
  | cons c chars =>
    unfold Path.pieces
    split
    · nofun
    · split <;> nofun

/-- Where a file is looked for, no slash may follow the last name. -/
abbrev Refuses (toFile : Bool) (piece : String) (rest : List String) : Prop :=
  toFile = true ∧ piece ≠ "" ∧ rest ≠ [] ∧ rest.all (·.isEmpty) = true

structure IsName (piece : String) : Prop where
  stays : ¬(piece = "" ∨ piece = ".")
  back : piece ≠ ".."
  short : ¬ maxName < piece.utf8ByteSize

/-- Where pieces lead from a place, through at most so many links. All that is asked of the tree is
what stands at single places, so a tree that only grows leads where it led before. The last piece
may name what is not there. -/
inductive Leads (root : Entry) (toFile : Bool) : Nat → Place → List String → Place → Prop
  | here (n : Nat) (place : Place) : Leads root toFile n place [] place
  | stay {n : Nat} {place found : Place} {piece : String} {rest : List String} :
    root.kindAt? place = some .folder → ¬ Refuses toFile piece rest → piece = "" ∨ piece = "." →
      Leads root toFile n place rest found → Leads root toFile n place (piece :: rest) found
  | back {n : Nat} {place found : Place} {rest : List String} :
    root.kindAt? place = some .folder → ¬ Refuses toFile ".." rest →
      Leads root toFile n place.dropLast rest found →
      Leads root toFile n place (".." :: rest) found
  | free {n : Nat} {place : Place} {piece : String} :
    root.kindAt? place = some .folder → IsName piece → root.kindAt? (place ++ [piece]) = none →
      Leads root toFile n place [piece] (place ++ [piece])
  | link {n : Nat} {place found : Place} {piece target : String} {rest : List String} :
    root.kindAt? place = some .folder → ¬ Refuses toFile piece rest → IsName piece →
      root.kindAt? (place ++ [piece]) = some (.link target) →
      Leads root toFile n (if (Path.mk target).isAbsolute then [] else place)
        (piecesOf target ++ rest) found →
      Leads root toFile (n + 1) place (piece :: rest) found
  | down {n : Nat} {place found : Place} {piece : String} {rest : List String} {kind : Kind} :
    root.kindAt? place = some .folder → ¬ Refuses toFile piece rest → IsName piece →
      root.kindAt? (place ++ [piece]) = some kind → (∀ target, kind ≠ .link target) →
      Leads root toFile n (place ++ [piece]) rest found →
      Leads root toFile n place (piece :: rest) found

variable {root root' : Entry} {toFile : Bool} {n : Nat} {place found : Place}
  {pieces : List String}

/-! ## The relation and the function -/

section Follow

variable {onLink : Place → List String → Except SystemError Place} {piece : String}
  {rest : List String}

/-- Pieces are followed from a folder only. -/
theorem folder_of_follow_eq_ok (hfollow : follow root toFile onLink place (piece :: rest) = .ok found) :
    root.kindAt? place = some .folder := by
  rw [follow] at hfollow
  split at hfollow
  · cases hfollow
  · next entries hplace => exact Entry.kindAt?_eq_folder_iff.mpr ⟨entries, hplace⟩
  · cases hfollow

/-- What a piece does, in a folder. -/
theorem follow_cons (folder : root.kindAt? place = some .folder) :
    follow root toFile onLink place (piece :: rest) =
      if toFile ∧ piece ≠ "" ∧ rest ≠ [] ∧ rest.all (·.isEmpty) then .error .isFolder
      else if piece = "" ∨ piece = "." then follow root toFile onLink place rest
      else if piece = ".." then follow root toFile onLink place.dropLast rest
      else if maxName < piece.utf8ByteSize then .error .nameTooLong
      else
        match root.kindAt? (place ++ [piece]) with
        | none => if rest.isEmpty then .ok (place ++ [piece]) else .error .notFound
        | some (.link target) =>
          onLink (if (Path.mk target).isAbsolute then [] else place) (piecesOf target ++ rest)
        | some _ => follow root toFile onLink (place ++ [piece]) rest := by
  obtain ⟨entries, hplace⟩ := Entry.kindAt?_eq_folder_iff.mp folder
  rw [follow, hplace]
  dsimp only
  rw [Entry.kindAt?, Entry.at?_concat_of_folder hplace]
  cases Entry.child? entries piece with
  | none => rfl
  | some entry => cases entry <;> rfl

/-- What is followed is related, if it is so behind links. -/
theorem leads_of_follow
    (links : ∀ place pieces, onLink place pieces = .ok found →
      ∃ m, n = m + 1 ∧ Leads root toFile m place pieces found)
    (hfollow : follow root toFile onLink place pieces = .ok found) :
    Leads root toFile n place pieces found := by
  induction pieces generalizing place with
  | nil =>
    obtain rfl := Except.ok.inj hfollow
    exact .here n _
  | cons piece rest ih =>
    have folder := folder_of_follow_eq_ok hfollow
    rw [follow_cons folder] at hfollow
    split at hfollow
    case isTrue => cases hfollow
    case isFalse passes =>
    split at hfollow
    case isTrue stays => exact .stay folder passes stays (ih hfollow)
    case isFalse stays =>
    split at hfollow
    case isTrue back =>
      subst back
      exact .back folder passes (ih hfollow)
    case isFalse back =>
    split at hfollow
    case isTrue => cases hfollow
    case isFalse short =>
    have name : IsName piece := ⟨stays, back, short⟩
    cases inner : root.kindAt? (place ++ [piece]) with
    | none =>
      simp only [inner, List.isEmpty_iff] at hfollow
      split at hfollow
      case isTrue last =>
        subst last
        cases hfollow
        exact .free folder name inner
      case isFalse => cases hfollow
    | some kind =>
      cases kind with
      | link target =>
        simp only [inner] at hfollow
        obtain ⟨m, rfl, leads⟩ := links _ _ hfollow
        exact .link folder passes name inner leads
      | file content =>
        simp only [inner] at hfollow
        exact .down folder passes name inner nofun (ih hfollow)
      | folder =>
        simp only [inner] at hfollow
        exact .down folder passes name inner nofun (ih hfollow)

end Follow

/-- What `followLinks` answers is related. -/
theorem leads_of_followLinks (hfollow : followLinks root toFile n place pieces = .ok found) :
    Leads root toFile n place pieces found := by
  induction n generalizing place pieces with
  | zero =>
    rw [followLinks] at hfollow
    refine leads_of_follow ?_ hfollow
    exact fun _ _ refused => nomatch refused
  | succ n ih => exact leads_of_follow (fun _ _ further => ⟨n, rfl, ih further⟩) hfollow

/-- One step of `followLinks`, whatever number of links is left. -/
theorem followLinks_eq (root : Entry) (toFile : Bool) (n : Nat) :
    ∃ onLink, followLinks root toFile n = follow root toFile onLink ∧
      ∀ m, n = m + 1 → onLink = followLinks root toFile m := by
  cases n with
  | zero => exact ⟨_, rfl, nofun⟩
  | succ n =>
    refine ⟨_, rfl, ?_⟩
    rintro m ⟨⟩
    rfl

/-- **Following is the relation.** -/
theorem followLinks_eq_ok_iff :
    followLinks root toFile n place pieces = .ok found ↔
      Leads root toFile n place pieces found := by
  refine ⟨leads_of_followLinks, fun leads => ?_⟩
  induction leads with
  | here n place =>
    cases n <;> rfl
  | @stay n place found piece rest folder passes stays _ ih =>
    obtain ⟨onLink, same, _⟩ := followLinks_eq root toFile n
    rw [same] at ih ⊢
    rw [follow_cons folder, if_neg passes, if_pos stays]
    exact ih
  | @back n place found rest folder passes _ ih =>
    obtain ⟨onLink, same, _⟩ := followLinks_eq root toFile n
    rw [same] at ih ⊢
    rw [follow_cons folder, if_neg passes, if_neg (by decide), if_pos rfl]
    exact ih
  | @free n place piece folder name inner =>
    obtain ⟨onLink, same, _⟩ := followLinks_eq root toFile n
    rw [same, follow_cons folder, if_neg (fun refused => refused.2.2.1 rfl), if_neg name.stays,
      if_neg name.back, if_neg name.short, inner]
    rfl
  | @link n place found piece target rest folder passes name inner _ ih =>
    obtain ⟨onLink, same, further⟩ := followLinks_eq root toFile (n + 1)
    rw [same, follow_cons folder, if_neg passes, if_neg name.stays, if_neg name.back,
      if_neg name.short, inner, further n rfl]
    exact ih
  | @down n place found piece rest kind folder passes name inner no_link _ ih =>
    obtain ⟨onLink, same, _⟩ := followLinks_eq root toFile n
    rw [same] at ih ⊢
    rw [follow_cons folder, if_neg passes, if_neg name.stays, if_neg name.back,
      if_neg name.short, inner]
    cases kind with
    | link target => exact absurd rfl (no_link target)
    | file | folder => exact ih

namespace Leads

/-- Pieces lead to one place. -/
theorem unique {found' : Place} (leads : Leads root toFile n place pieces found)
    (leads' : Leads root toFile n place pieces found') : found = found' :=
  Except.ok.inj ((followLinks_eq_ok_iff.mpr leads).symm.trans (followLinks_eq_ok_iff.mpr leads'))

/-- **Pieces lead to the same place after the tree has grown.** Where they name what was not there,
a folder or a file may stand now, but no link. -/
theorem mono {written : Place → Prop} (grows : Grows written root root')
    (leads : Leads root toFile n place pieces found) :
    Leads root' toFile n place pieces found := by
  induction leads with
  | here n place => exact .here n place
  | stay folder passes stays _ ih => exact .stay (grows.kept folder (.inl nofun)) passes stays ih
  | back folder passes _ ih => exact .back (grows.kept folder (.inl nofun)) passes ih
  | @free n place piece folder name inner =>
    have folder' := grows.kept folder (.inl nofun)
    cases inner' : root'.kindAt? (place ++ [piece]) with
    | none => exact .free folder' name inner'
    | some kind =>
      refine .down folder' (fun refused => refused.2.2.1 rfl) name inner' ?_ (.here n _)
      rintro target rfl
      rw [grows.link_iff, inner] at inner'
      cases inner'
  | link folder passes name inner _ ih =>
    exact .link (grows.kept folder (.inl nofun)) passes name (grows.link_iff.mpr inner) ih
  | @down n place found piece rest kind folder passes name inner no_link _ ih =>
    have folder' := grows.kept folder (.inl nofun)
    have becomes := grows (place ++ [piece])
    rw [inner] at becomes
    generalize inner' : root'.kindAt? (place ++ [piece]) = kind' at becomes
    cases becomes with
    | same => exact .down folder' passes name inner' no_link ih
    | rewritten => exact .down folder' passes name inner' nofun ih

/-- What leads to a file leads there whether a file is looked for or anything. -/
theorem asAny (leads : Leads root toFile n place pieces found) :
    Leads root false n place pieces found := by
  have passes : ∀ piece rest, ¬ Refuses false piece rest := fun _ _ refused => nomatch refused.1
  induction leads with
  | here n place => exact .here n place
  | stay folder _ stays _ ih => exact .stay folder (passes _ _) stays ih
  | back folder _ _ ih => exact .back folder (passes _ _) ih
  | free folder name inner => exact .free folder name inner
  | link folder _ name inner _ ih => exact .link folder (passes _ _) name inner ih
  | down folder _ name inner no_link _ ih => exact .down folder (passes _ _) name inner no_link ih

/-- **Where pieces lead** stands a file or a folder, or nothing in a folder that is there. A link is
gone through and never found. -/
theorem stands_or_free (leads : Leads root toFile n place pieces found)
    (start : root.Stands place ∨ pieces ≠ []) :
    root.Stands found ∨ root.kindAt? found = none ∧
      ∃ outer name, found = outer ++ [name] ∧ root.kindAt? outer = some .folder := by
  induction leads with
  | here n place => exact .inl (start.resolve_right (absurd rfl))
  | stay folder _ _ _ ih => exact ih (.inl (.folder folder))
  | @back n place found rest folder _ _ ih =>
    refine ih (.inl ?_)
    by_cases top : place = []
    · subst top
      exact .folder folder
    · have around : root.kindAt? (place.dropLast ++ [place.getLast top]) = some .folder := by
        rw [List.dropLast_concat_getLast, folder]
      exact .folder (Entry.kindAt?_of_append (List.cons_ne_nil _ _) (Option.isSome_of_eq_some around))
  | @free n place piece folder _ inner => exact .inr ⟨inner, place, piece, rfl, folder⟩
  | link _ _ _ _ _ ih =>
    refine ih (.inr (List.append_ne_nil_of_left_ne_nil ?_ _))
    exact piecesOf_ne_nil _
  | down _ _ _ inner no_link _ ih => exact ih (.inl ⟨_, inner, no_link⟩)

/-- A slash at the end leads to a folder only. -/
theorem folder_of_slash (leads : Leads root toFile n place pieces found)
    (slash : pieces.getLast? = some "") : root.kindAt? found = some .folder := by
  induction leads with
  | here => cases slash
  | @stay n place found piece rest folder _ _ further ih =>
    cases rest with
    | nil =>
      cases further
      exact folder
    | cons next rest => exact ih (by rwa [List.getLast?_cons_cons] at slash)
  | @back n place found rest _ _ _ ih =>
    cases rest with
    | nil => exact absurd (Option.some.inj slash) (by decide)
    | cons next rest => exact ih (by rwa [List.getLast?_cons_cons] at slash)
  | @free n place piece _ name _ =>
    cases slash
    exact absurd (.inl rfl) name.stays
  | @link n place found piece target rest _ _ name _ _ ih =>
    cases rest with
    | nil =>
      cases slash
      exact absurd (.inl rfl) name.stays
    | cons next rest =>
      rw [List.getLast?_cons_cons] at slash
      exact ih (by rw [List.getLast?_append, slash, Option.some_or])
  | @down n place found piece rest kind _ _ name _ _ _ ih =>
    cases rest with
    | nil =>
      cases slash
      exact absurd (.inl rfl) name.stays
    | cons next rest => exact ih (by rwa [List.getLast?_cons_cons] at slash)

/-- What leads to no folder may be followed by no slash. -/
theorem not_refuses (front : List String) {piece : String} {rest : List String}
    (leads : Leads root toFile n place (front ++ rest) found)
    (no_folder : root.kindAt? found ≠ some .folder) : ¬ Refuses true piece rest := by
  rintro ⟨-, -, more, empty⟩
  refine no_folder (leads.folder_of_slash ?_)
  have last : rest.getLast more = "" := by
    simpa using List.all_eq_true.mp empty _ (List.getLast_mem more)
  rw [List.getLast?_append, List.getLast?_eq_some_getLast more, last, Option.some_or]

/-- What leads to no folder leads there when a file is looked for. -/
theorem asFile (leads : Leads root false n place pieces found)
    (no_folder : root.kindAt? found ≠ some .folder) : Leads root true n place pieces found := by
  induction leads with
  | here n place => exact .here n place
  | stay folder _ stays further ih =>
    exact .stay folder (not_refuses [] further no_folder) stays (ih no_folder)
  | back folder _ further ih =>
    exact .back folder (not_refuses [] further no_folder) (ih no_folder)
  | free folder name inner => exact .free folder name inner
  | link folder _ name inner further ih =>
    exact .link folder (not_refuses _ further no_folder) name inner (ih no_folder)
  | down folder _ name inner no_link further ih =>
    exact .down folder (not_refuses [] further no_folder) name inner no_link
      (ih no_folder)

end Leads

end Disk

end CallChart.Files
