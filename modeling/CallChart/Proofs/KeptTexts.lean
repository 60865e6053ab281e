import CallChart.Source.Texts
import CallChart.Proofs.Location.Located
import CallChart.Proofs.SamePaths

/-!
# Texts in memory after a history of writes

A store in memory is said here by the history of writes that made it. What is
read under a path is the last text written to the place that it names, however
the path was spelled then, and the paths of the store are the first spellings of
the places, in the order of paths (`KeptTexts.history_kept_by_place`). Writing
again to a place changes the text and leaves the spelling alone, so the two are
looked for from different ends of the history.
-/

namespace CallChart

namespace KeptTexts

/-! ## Writing -/

variable {path other : Path} {text : String}

/-- **What is read after a write**: the new text at its place, and what was there elsewhere. -/
theorem read?_insert (store : KeptTexts) (path other : Path) (text : String) :
    (store.insert path text).read? other =
      if path.same other then some text else store.read? other := by
  obtain ⟨files⟩ := store
  simp only [insert, read?]
  induction files with
  | nil => by_cases same : path.same other = true <;> simp [insertFile, same]
  | cons file files ih =>
    unfold insertFile
    by_cases there : file.1.same path = true
    · -- the place is taken, and its spelling is compared as the new one would be
      have alike : file.1.same other = path.same other := by
        rw [Path.same_comm file.1, Path.same_comm path, Path.same_congr there]
      by_cases same : path.same other = true <;> simp [there, alike, same]
    · have skipped : path.same other = true → ¬ file.1.same other = true := by
        intro same found
        exact there (Path.same_congr same file.1 ▸ found)
      rw [if_neg there, List.find?_cons, List.find?_cons]
      by_cases found : file.1.same other = true
      · have differs : ¬ path.same other = true := fun same => skipped same found
        simp [found, differs]
      · simp only [found]
        exact ih

/-- A write keeps the spellings, and adds its own where no other names the place. -/
theorem map_fst_insertFile (path : Path) (text : String) (files : List (Path × String)) :
    (insertFile path text files).map Prod.fst = Located.addPaths (files.map Prod.fst) [path] := by
  show _ = if (files.map Prod.fst).any (·.same path) then files.map Prod.fst
    else files.map Prod.fst ++ [path]
  induction files with
  | nil => rfl
  | cons file files ih =>
    unfold insertFile
    by_cases there : file.1.same path = true
    · simp [there]
    · rw [if_neg there, List.map_cons, ih, List.map_cons, List.any_cons, Bool.eq_false_iff.mpr there,
        Bool.false_or]
      split <;> rfl

/-! ## A history of writes -/

def ofWrites (writes : List (Path × String)) : KeptTexts :=
  writes.foldl (fun store write => store.insert write.1 write.2) {}

theorem ofWrites_concat (writes : List (Path × String)) (write : Path × String) :
    ofWrites (writes ++ [write]) = (ofWrites writes).insert write.1 write.2 :=
  List.foldl_concat ..

/-- **A run of writes leaves the last text of each place.** -/
theorem read?_ofWrites (writes : List (Path × String)) (path : Path) :
    (ofWrites writes).read? path =
      ((writes.filter (·.1.same path)).getLast?).map Prod.snd := by
  induction writes using List.reverseRecOn with
  | nil => rfl
  | append_singleton writes write ih =>
    rw [ofWrites_concat, read?_insert, ih, List.filter_append]
    by_cases same : write.1.same path = true <;> simp [same]

/-- **A run of writes keeps the first spelling of each place.** -/
theorem map_fst_ofWrites (writes : List (Path × String)) :
    (ofWrites writes).files.map Prod.fst = (writes.map Prod.fst).eraseDupsBy Path.same := by
  have added : (ofWrites writes).files.map Prod.fst =
      Located.addPaths [] (writes.map Prod.fst) := by
    induction writes using List.reverseRecOn with
    | nil => rfl
    | append_singleton writes write ih =>
      rw [ofWrites_concat, insert, map_fst_insertFile, ih, List.map_append, Located.addPaths,
        Located.addPaths, Located.addPaths, List.foldl_append]
      rfl
  rw [added, Located.addPaths_eq]
  simp

/-- The paths increase. -/
theorem pairwise_paths_ofWrites (writes : List (Path × String)) :
    (ofWrites writes).paths.Pairwise fun a b => a.lt b = true := by
  have sorted := Path.pairwise_sort ((ofWrites writes).files.map Prod.fst)
  have distinct : (ofWrites writes).paths.Pairwise fun a b => a.key ≠ b.key := by
    refine (List.mergeSort_perm _ _).symm.pairwise ?_ fun differ => differ.symm
    rw [map_fst_ofWrites]
    refine (pairwise_eraseDupsBy _).imp fun {a b} differ same => ?_
    rw [Path.same_iff.mpr same.symm] at differ
    cases differ
  exact (sorted.and distinct).imp fun {a b} both => Path.lt_iff.mpr (lt_of_le_of_ne both.1 both.2)

/-- The paths are the first spellings of their places. -/
theorem mem_paths_ofWrites {writes : List (Path × String)} :
    path ∈ (ofWrites writes).paths ↔
      (writes.find? (·.1.same path)).map Prod.fst = some path := by
  rw [paths, Path.sort, List.mem_mergeSort, map_fst_ofWrites,
    mem_eraseDupsBy_iff Path.same_refl (fun _ _ => Path.same_congr), List.find?_map]
  rfl

/-- **A history of writes is kept by place.** What is read under a path is the last text written to
its place, and nothing where none was. The paths of the store increase; every place that was written
to has exactly one of them, in the spelling of the first write. Two paths name one place if both
start at the root or neither does, and the same pieces of theirs count. -/
theorem history_kept_by_place (writes : List (Path × String)) :
    (∀ path, (ofWrites writes).read? path =
      ((writes.filter (·.1.same path)).getLast?).map Prod.snd) ∧
    (ofWrites writes).paths.Pairwise (fun a b => a.lt b = true) ∧
    (∀ write ∈ writes, ∃! path, path ∈ (ofWrites writes).paths ∧ path.same write.1 = true) ∧
    (∀ path, path ∈ (ofWrites writes).paths ↔
      (writes.find? (·.1.same path)).map Prod.fst = some path) ∧
    ∀ a b : Path, a.same b = true ↔
      a.isAbsolute = b.isAbsolute ∧ a.countedPieces = b.countedPieces := by
  refine ⟨read?_ofWrites writes, pairwise_paths_ofWrites writes, fun write mem => ?_,
    fun path => mem_paths_ofWrites, fun a b => Path.same_iff_countedPieces⟩
  -- the first write to the place gives the spelling
  obtain ⟨first, found⟩ : ∃ first, writes.find? (·.1.same write.1) = some first :=
    Option.isSome_iff_exists.mp (List.find?_isSome.mpr ⟨write, mem, Path.same_refl _⟩)
  have same : first.1.same write.1 = true :=
    List.find?_some (p := fun w : Path × String => w.1.same write.1) found
  have alike : ∀ path : Path, path.same first.1 = path.same write.1 := Path.same_congr same
  refine ⟨first.1, ⟨mem_paths_ofWrites.mpr ?_, same⟩, fun path there => ?_⟩
  · simp only [alike, found, Option.map_some]
  · have spelled := mem_paths_ofWrites.mp there.1
    simp only [Path.same_congr there.2, found, Option.map_some, Option.some.injEq] at spelled
    exact spelled.symm

/-- Four spellings of three places. -/
def respelledWrites : List (Path × String) :=
  [(⟨"x//a"⟩, "first"), (⟨"./x/a"⟩, "here"), (⟨"x/./a/"⟩, "last"), (⟨"/x/a"⟩, "root")]

/-- A text is written over under another spelling of its place, and the first spelling stays. A dot
or a slash at the start makes another place. -/
theorem history_kept_by_place_respelled :
    (⟨"x/./a/"⟩, "last") ∈ respelledWrites ∧
      (ofWrites respelledWrites).read? ⟨"x/a//"⟩ = some "last" ∧
      (ofWrites respelledWrites).read? ⟨"x"⟩ = none ∧
      ⟨"x//a"⟩ ∈ (ofWrites respelledWrites).paths ∧
      ∃! path, path ∈ (ofWrites respelledWrites).paths ∧ path.same ⟨"x/./a/"⟩ = true := by
  have mem : (⟨"x/./a/"⟩, "last") ∈ respelledWrites := by decide
  obtain ⟨read, -, one, spelled, -⟩ := history_kept_by_place respelledWrites
  refine ⟨mem, ?_, ?_, ?_, one _ mem⟩
  · rw [read]
    decide
  · rw [read]
    decide
  · rw [spelled]
    decide

end KeptTexts

end CallChart
