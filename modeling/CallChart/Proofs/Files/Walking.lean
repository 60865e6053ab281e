import CallChart.Proofs.Files.NewFolders

/-!
# What a walk of a file tree lists

In a well-named tree no two entries of a folder have the same name, and every
name is one that a path can spell. There the files that a walk lists are those
that names lead to (`Entry.mem_files_iff`), and following the names as pieces of
a path leads to the same places (`Disk.Leads.downNames`).
-/

namespace CallChart.Files

/-- A name that an entry of a folder can have. -/
structure IsProper (name : String) : Prop extends Disk.IsName name where
  noSlash : '/' ∉ name.toList
  noZero : '\x00' ∉ name.toList

namespace Entry

mutual

/-- The names in a folder differ, and are proper ones, here and in all folders below. Every tree of
a real disk is such; in others a path need not lead back to the entry that it was made for. -/
def WellNamed : Entry → Prop
  | .file _ | .link _ => True
  | .folder entries => (entries.map Prod.fst).Nodup ∧ WellNamedAmong entries

def WellNamedAmong : List (String × Entry) → Prop
  | [] => True
  | (name, entry) :: entries => IsProper name ∧ entry.WellNamed ∧ WellNamedAmong entries

end

variable {entry inner : Entry} {entries : List (String × Entry)} {place : Place} {name : String}
  {content : ByteArray}

theorem wellNamed_of_mem (named : WellNamedAmong entries) (mem : (name, inner) ∈ entries) :
    IsProper name ∧ inner.WellNamed := by
  induction entries with
  | nil => cases mem
  | cons first entries ih =>
    obtain ⟨proper, hfirst, rest⟩ := named
    rcases List.mem_cons.mp mem with rfl | mem
    · exact ⟨proper, hfirst⟩
    · exact ih rest mem

/-- Where names differ, every entry is found under its name. -/
theorem child?_eq_some_iff (differ : (entries.map Prod.fst).Nodup) :
    child? entries name = some inner ↔ (name, inner) ∈ entries := by
  induction entries with
  | nil => exact ⟨nofun, nofun⟩
  | cons first entries ih =>
    obtain ⟨other, found⟩ := first
    obtain ⟨fresh, differ⟩ := List.nodup_cons.mp differ
    rw [child?, List.find?_cons, List.mem_cons, Prod.mk.injEq]
    by_cases same : other = name
    · subst same
      rw [beq_self_eq_true]
      have absent : (other, inner) ∉ entries := fun mem =>
        fresh (List.mem_map.mpr ⟨(other, inner), mem, rfl⟩)
      simp [absent, eq_comm]
    · rw [beq_false_of_ne same]
      refine (ih differ).trans ⟨.inr, ?_⟩
      rintro (⟨rfl, -⟩ | mem)
      · exact absurd rfl same
      · exact mem

/-- **What stands in a well-named tree is well-named**, and has proper names on the way. -/
theorem WellNamed.at? (named : entry.WellNamed) (found : entry.at? place = some inner) :
    inner.WellNamed ∧ ∀ name ∈ place, IsProper name := by
  induction place generalizing entry with
  | nil =>
    rw [at?_nil] at found
    obtain rfl := Option.some.inj found
    exact ⟨named, nofun⟩
  | cons name place ih =>
    cases entry with
    | file | link => cases found
    | folder entries =>
      obtain ⟨next, hnext, below⟩ := Option.bind_eq_some_iff.mp found
      obtain ⟨proper, hnamed⟩ := wellNamed_of_mem named.2 ((child?_eq_some_iff named.1).mp hnext)
      obtain ⟨hinner, rest⟩ := ih hnamed below
      exact ⟨hinner, List.forall_mem_cons.mpr ⟨proper, rest⟩⟩

/-- The files among entries are those at and below each of them. -/
theorem mem_filesAmong_iff {file : Place × ByteArray} :
    file ∈ filesAmong entries ↔
      ∃ name inner below, (name, inner) ∈ entries ∧ below ∈ inner.files ∧
        file = (name :: below.1, below.2) := by
  induction entries with
  | nil => exact ⟨nofun, nofun⟩
  | cons first entries ih =>
    rw [filesAmong, List.mem_append, List.mem_map, ih]
    constructor
    · rintro (⟨below, mem, rfl⟩ | ⟨name, inner, below, mem, hbelow, same⟩)
      · exact ⟨first.1, first.2, below, List.mem_cons_self, mem, rfl⟩
      · exact ⟨name, inner, below, List.mem_cons_of_mem _ mem, hbelow, same⟩
    · rintro ⟨name, inner, below, mem, hbelow, same⟩
      rcases List.mem_cons.mp mem with rfl | mem
      · exact .inl ⟨below, hbelow, same.symm⟩
      · exact .inr ⟨name, inner, below, mem, hbelow, same⟩

/-- **A walk lists the files that names lead to.** -/
theorem mem_files_iff (named : entry.WellNamed) :
    (place, content) ∈ entry.files ↔ entry.at? place = some (.file content) := by
  induction place generalizing entry with
  | nil =>
    rw [at?_nil, Option.some.injEq]
    cases entry with
    | file other => simp [files, eq_comm]
    | link => simp [files]
    | folder entries => simp [files, mem_filesAmong_iff]
  | cons name place ih =>
    cases entry with
    | file => simp [files, Entry.at?]
    | link => simp [files, Entry.at?]
    | folder entries =>
      rw [files, mem_filesAmong_iff, at?_folder_cons, Option.bind_eq_some_iff]
      constructor
      · rintro ⟨name', inner, below, mem, hbelow, same⟩
        obtain ⟨⟨rfl, rfl⟩, rfl⟩ := by simpa using same
        have hinner := (wellNamed_of_mem named.2 mem).2
        exact ⟨inner, (child?_eq_some_iff named.1).mpr mem, (ih hinner).mp hbelow⟩
      · rintro ⟨inner, found, below⟩
        have mem := (child?_eq_some_iff named.1).mp found
        have hinner := (wellNamed_of_mem named.2 mem).2
        exact ⟨name, inner, (place, content), mem, (ih hinner).mpr below, rfl⟩

end Entry

namespace Disk

variable {root : Entry} {place names : Place} {kind : Kind}

/-- **Names lead down to what stands below a place**, through no link. -/
theorem Leads.downNames (proper : ∀ name ∈ names, IsName name)
    (stands : root.kindAt? (place ++ names) = some kind) (no_link : ∀ target, kind ≠ .link target)
    (n : Nat) : Leads root false n place names (place ++ names) := by
  induction names generalizing place with
  | nil =>
    rw [List.append_nil]
    exact .here n place
  | cons name names ih =>
    obtain ⟨named, proper⟩ := List.forall_mem_cons.mp proper
    have outer : root.kindAt? place = some .folder :=
      Entry.kindAt?_of_append (List.cons_ne_nil _ _) (Option.isSome_of_eq_some stands)
    have again : place ++ name :: names = (place ++ [name]) ++ names :=
      List.append_cons place name names
    rw [again] at stands ⊢
    have further := ih proper stands
    cases names with
    | nil =>
      rw [List.append_nil] at stands
      exact .down outer (passes _ _) named stands no_link further
    | cons =>
      have inner : root.kindAt? (place ++ [name]) = some .folder :=
        Entry.kindAt?_of_append (List.cons_ne_nil _ _) (Option.isSome_of_eq_some stands)
      exact .down outer (passes _ _) named inner nofun further

end Disk

end CallChart.Files
