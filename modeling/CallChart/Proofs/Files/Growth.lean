import CallChart.Files.Disk
import Mathlib

/-!
# How file trees change

What stands at a place of a file tree is seen through `Entry.kindAt?`: a file
with its bytes, a link with the path it leads to, or a folder, without what
stands in it. Writing an entry changes what is seen at its place and at no
other (`Entry.kindAt?_put_of_ne`).

The program changes a tree in two ways only. It makes a folder where nothing
stands, and it writes a file where a file or nothing stands. `Grows` says that
a tree comes of another by such steps, and at which places files may have been
written. Links are neither made nor removed, and nothing is taken away.
-/

namespace CallChart.Files

/-- What stands at a place, without what stands below it. Trees are compared place by place, and a
folder stays the same when something in it changes. -/
inductive Kind where
  | file (content : ByteArray)
  | link (target : String)
  | folder
  deriving DecidableEq

namespace Entry

def kind : Entry → Kind
  | .file content => .file content
  | .link target => .link target
  | .folder _ => .folder

def kindAt? (root : Entry) (place : Place) : Option Kind := (root.at? place).map kind

variable {root entry : Entry} {entries : List (String × Entry)} {place other : Place}
  {name : String}

/-! ## Reading -/

@[simp] theorem at?_nil : root.at? [] = some root := by
  cases root <;> rfl

@[simp] theorem at?_folder_cons :
    (Entry.folder entries).at? (name :: place) = (child? entries name).bind (·.at? place) := rfl

/-- Below a place stands what stands below the entry there. -/
theorem at?_append (root : Entry) (place below : Place) :
    root.at? (place ++ below) = (root.at? place).bind (·.at? below) := by
  induction place generalizing root with
  | nil => rw [List.nil_append, at?_nil, Option.bind_some]
  | cons name place ih =>
    cases root with
    | file | link => rfl
    | folder entries =>
      rw [List.cons_append, at?_folder_cons, at?_folder_cons, Option.bind_assoc]
      exact congrArg _ (funext fun inner => ih inner)

/-- What stands in a folder under a name. -/
theorem at?_concat_of_folder (found : root.at? place = some (.folder entries)) (name : String) :
    root.at? (place ++ [name]) = child? entries name := by
  rw [at?_append, found, Option.bind_some, at?_folder_cons]
  cases child? entries name with
  | none => rfl
  | some inner => exact at?_nil

/-- A place where a folder is seen has a folder. -/
theorem kindAt?_eq_folder_iff :
    root.kindAt? place = some .folder ↔ ∃ entries, root.at? place = some (.folder entries) := by
  constructor
  · intro seen
    obtain ⟨entry, found, same⟩ := Option.map_eq_some_iff.mp seen
    cases entry with
    | folder entries => exact ⟨entries, found⟩
    | file | link => cases same
  · rintro ⟨entries, found⟩
    rw [kindAt?, found]
    rfl

/-- What is seen of a file or a link is all of it. -/
theorem kindAt?_eq_kind_iff (entry : Entry) (other : entry.kind ≠ .folder) :
    root.kindAt? place = some entry.kind ↔ root.at? place = some entry := by
  constructor
  · intro seen
    obtain ⟨found, hfound, same⟩ := Option.map_eq_some_iff.mp seen
    rw [hfound]
    cases entry <;> cases found <;> cases same
    · rfl
    · rfl
    · exact absurd rfl other
  · intro found
    rw [kindAt?, found, Option.map_some]

/-- A place where a file is seen has that file. -/
theorem kindAt?_eq_file_iff {content : ByteArray} :
    root.kindAt? place = some (.file content) ↔ root.at? place = some (.file content) :=
  kindAt?_eq_kind_iff (.file content) nofun

/-- A place where nothing is seen has nothing. -/
theorem kindAt?_eq_none_iff : root.kindAt? place = none ↔ root.at? place = none :=
  Option.map_eq_none_iff

/-- The folders around a place where something stands are there. -/
theorem kindAt?_of_append {below : Place} (more : below ≠ [])
    (stands : (root.kindAt? (place ++ below)).isSome) : root.kindAt? place = some .folder := by
  rw [kindAt?, Option.isSome_map, at?_append] at stands
  obtain ⟨inner, found⟩ := Option.isSome_iff_exists.mp stands
  obtain ⟨outer, houter, hinner⟩ := Option.bind_eq_some_iff.mp found
  cases below with
  | nil => exact absurd rfl more
  | cons name below =>
    cases outer with
    | folder entries => exact kindAt?_eq_folder_iff.mpr ⟨entries, houter⟩
    | file | link => cases hinner

/-! ## Writing -/

/-- Under the name that is written stands the new entry, and under other names what was there. -/
theorem child?_setChild (name name' : String) (entry : Entry) (entries : List (String × Entry)) :
    child? (setChild name entry entries) name' =
      if name = name' then some entry else child? entries name' := by
  induction entries with
  | nil => by_cases same : name = name' <;> simp [child?, setChild, same]
  | cons first entries ih =>
    unfold setChild
    by_cases replaced : first.1 = name
    · rw [if_pos replaced]
      by_cases same : name = name'
      · simp [child?, same]
      · simp [child?, same, replaced]
    · rw [if_neg replaced]
      by_cases found : first.1 = name'
      · have differ : name ≠ name' := fun same => replaced (found.trans same.symm)
        simp [child?, found, differ]
      · simp only [child?, List.find?_cons, beq_eq_false_iff_ne.mpr found] at ih ⊢
        exact ih

def IsBare (entry : Entry) : Prop := ∀ name place, entry.at? (name :: place) = none

theorem isBare_file (content : ByteArray) : (Entry.file content).IsBare := fun _ _ => rfl

theorem isBare_emptyFolder : (Entry.folder []).IsBare := fun _ _ => rfl

/-- What is no folder has nothing below it. -/
theorem isBare_of_kind_ne (other : entry.kind ≠ .folder) : entry.IsBare := by
  cases entry with
  | folder => exact absurd rfl other
  | file | link => exact fun _ _ => rfl

/-- An entry is written where its outer folder is there. -/
theorem at?_put_concat (outer : root.kindAt? place = some .folder) (name : String) :
    (put entry (place ++ [name]) root).at? (place ++ [name]) = some entry := by
  obtain ⟨entries, found⟩ := kindAt?_eq_folder_iff.mp outer
  clear outer
  induction place generalizing root with
  | nil =>
    obtain rfl := Option.some.inj (at?_nil.symm.trans found)
    cases inner : child? entries name with
    | none => simp only [List.nil_append, put, inner, at?_folder_cons, child?_setChild,
        if_true, Option.bind_some, at?_nil]
    | some => simp only [List.nil_append, put, inner, at?_folder_cons, child?_setChild,
        if_true, Option.bind_some, at?_nil]
  | cons first place ih =>
    cases root with
    | file | link => cases found
    | folder siblings =>
      obtain ⟨inner, hinner, found⟩ := Option.bind_eq_some_iff.mp found
      simp only [List.cons_append, put, hinner, at?_folder_cons, child?_setChild, if_true,
        Option.bind_some]
      exact ih found

/-- **Writing an entry is seen at its place only**, if nothing stands below it, neither before nor
after. By induction on the place, along the folders that lead to it. -/
theorem kindAt?_put_of_ne (bare : entry.IsBare) (free : root.kindAt? place ≠ some .folder)
    (apart : other ≠ place) : (put entry place root).kindAt? other = root.kindAt? other := by
  induction place generalizing root other with
  | nil =>
    cases other with
    | nil => exact absurd rfl apart
    | cons name other =>
      have bare' : root.IsBare := isBare_of_kind_ne fun folder => free (by
        rw [kindAt?, at?_nil, Option.map_some, folder])
      rw [put, kindAt?, kindAt?, bare, bare']
  | cons name place ih =>
    cases root with
    | file | link => rfl
    | folder entries =>
      cases other with
      | nil =>
        unfold put
        split <;> simp only [kindAt?, at?_nil, Option.map_some, kind]
      | cons name' other =>
        by_cases same : name = name'
        · subst same
          have apart' : other ≠ place := fun same => apart (congrArg _ same)
          cases found : child? entries name with
          | some inner =>
            have free' : inner.kindAt? place ≠ some .folder := by
              simpa only [kindAt?, at?_folder_cons, found, Option.bind_some] using free
            simp only [put, found, kindAt?, at?_folder_cons, child?_setChild, if_true,
              Option.bind_some]
            exact ih free' apart'
          | none =>
            cases place with
            | cons => simp only [put, found]
            | nil =>
              cases other with
              | nil => exact absurd rfl apart'
              | cons next other =>
                simp only [put, found, kindAt?, at?_folder_cons, child?_setChild, if_true,
                  Option.bind_some, Option.bind_none, bare next other]
        · unfold put
          split <;> simp only [kindAt?, at?_folder_cons, child?_setChild, if_neg same]

end Entry

/-! ## Growing -/

/-- What may become of a place. It stays as it was; or a folder is made where nothing stood; or, if
the place may be written, a file is written where a file or nothing stood. -/
inductive Becomes (written : Prop) : Option Kind → Option Kind → Prop
  | same (kind : Option Kind) : Becomes written kind kind
  | made : Becomes written none (some .folder)
  | created (content : ByteArray) : written → Becomes written none (some (.file content))
  | rewritten (content content' : ByteArray) :
    written → Becomes written (some (.file content)) (some (.file content'))

namespace Becomes

variable {written written' : Prop} {kind kind' kind'' : Option Kind} {old : Kind}
  {content : ByteArray} {target : String}

/-- One change after another. -/
theorem trans (first : Becomes written kind kind') (second : Becomes written kind' kind'') :
    Becomes written kind kind'' := by
  cases first with
  | same => exact second
  | made =>
    cases second with
    | same => exact .made
  | created content allowed =>
    cases second with
    | same => exact .created content allowed
    | rewritten _ content' => exact .created content' allowed
  | rewritten content _ allowed =>
    cases second with
    | same => exact .rewritten content _ allowed
    | rewritten _ content' => exact .rewritten content content' allowed

theorem mono (becomes : Becomes written kind kind') (more : written → written') :
    Becomes written' kind kind' := by
  cases becomes with
  | same => exact .same _
  | made => exact .made
  | created content allowed => exact .created content (more allowed)
  | rewritten content content' allowed => exact .rewritten content content' (more allowed)

/-- What is no file, or is not written, stays. -/
theorem kept (becomes : Becomes written (some old) kind')
    (spared : (∀ content, old ≠ .file content) ∨ ¬ written) : kind' = some old := by
  cases becomes with
  | same => rfl
  | rewritten content _ allowed =>
    exact (spared.elim (fun other => other content rfl) fun unwritten => unwritten allowed).elim

/-- A link was there before. -/
theorem link (becomes : Becomes written kind (some (.link target))) :
    kind = some (.link target) := by
  cases becomes
  rfl

/-- A file was there before, if it is not written. -/
theorem file (becomes : Becomes written kind (some (.file content))) (unwritten : ¬ written) :
    kind = some (.file content) := by
  cases becomes with
  | same => rfl
  | created _ allowed | rewritten _ _ allowed => exact absurd allowed unwritten

end Becomes

/-- One tree comes of another: folders are made, and files are written at the places `written`.
Nothing is ever removed, and no link is made or changed. -/
def Grows (written : Place → Prop) (before after : Entry) : Prop :=
  ∀ place, Becomes (written place) (before.kindAt? place) (after.kindAt? place)

namespace Grows

variable {written written' : Place → Prop} {before middle after : Entry} {place : Place}

theorem refl (written : Place → Prop) (root : Entry) : Grows written root root :=
  fun _ => .same _

theorem trans (first : Grows written before middle) (second : Grows written middle after) :
    Grows written before after :=
  fun place => (first place).trans (second place)

/-- More places may be written than were. -/
theorem mono (grows : Grows written before after) (more : ∀ place, written place → written' place) :
    Grows written' before after :=
  fun place => (grows place).mono (more place)

/-- What is no file, or is not written, stays. -/
theorem kept (grows : Grows written before after) {kind : Kind}
    (found : before.kindAt? place = some kind)
    (spared : (∀ content, kind ≠ .file content) ∨ ¬ written place) :
    after.kindAt? place = some kind :=
  (found ▸ grows place).kept spared

/-- Links are as they were. -/
theorem link_iff (grows : Grows written before after) {target : String} :
    after.kindAt? place = some (.link target) ↔ before.kindAt? place = some (.link target) :=
  ⟨fun found => (found ▸ grows place).link, fun found => grows.kept found (.inl nofun)⟩

/-- A file was there before, if its place is not written. -/
theorem file_of_unwritten (grows : Grows written before after) {content : ByteArray}
    (found : after.kindAt? place = some (.file content)) (unwritten : ¬ written place) :
    before.kindAt? place = some (.file content) :=
  (found ▸ grows place).file unwritten

/-- Making a folder where nothing stands, in a folder that is there. -/
theorem put_folder (outer : before.kindAt? place = some .folder) {name : String}
    (free : before.kindAt? (place ++ [name]) = none) :
    Grows (fun _ => False) before (Entry.put (.folder []) (place ++ [name]) before) := by
  intro other
  by_cases same : other = place ++ [name]
  · subst same
    rw [free, Entry.kindAt?, Entry.at?_put_concat outer]
    exact .made
  · rw [Entry.kindAt?_put_of_ne Entry.isBare_emptyFolder (by rw [free]; nofun) same]
    exact .same _

/-- Writing a file where a file or nothing stands. -/
theorem put_file {content : ByteArray}
    (now : (Entry.put (.file content) place before).at? place = some (.file content))
    (free : before.kindAt? place = none ∨ ∃ old, before.kindAt? place = some (.file old)) :
    Grows (· = place) before (Entry.put (.file content) place before) := by
  intro other
  by_cases same : other = place
  · subst same
    rw [Entry.kindAt?_eq_file_iff.mpr now]
    rcases free with free | ⟨old, free⟩
    · rw [free]
      exact .created content rfl
    · rw [free]
      exact .rewritten old content rfl
  · have no_folder : before.kindAt? place ≠ some .folder := by
      rcases free with free | ⟨old, free⟩ <;> rw [free] <;> nofun
    rw [Entry.kindAt?_put_of_ne (Entry.isBare_file content) no_folder same]
    exact .same _

end Grows

end CallChart.Files
