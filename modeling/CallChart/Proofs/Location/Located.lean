import CallChart.Location.Locate
import CallChart.Proofs.Basic
import CallChart.Proofs.Merging
import CallChart.Proofs.PathOrder

/-!
# The files of several locations

The files of locations are gathered one location after another. What is gathered
is said here of all of them at once: the files of the locations that can be
located are put one after another, and each file is kept where it comes first,
in the spelling that it has there (`Located.paths_ofLocations`). A location that
cannot be located leaves a diagnostic and no file.

So the files of two lists of locations are those of the first and then those of
the second that are not among them, and within a location they come in the order
of paths, since its files are sorted before they are gathered.
-/

namespace CallChart

open Files (Disk)

namespace Located

variable (disk : Disk) (extensions : List String)

/-! ## Gathering -/

/-- **Adding paths keeps those that are new, each where it comes first.** -/
theorem addPaths_eq (paths found : List Path) :
    addPaths paths found =
      paths ++ (found.filter fun path => !paths.any (·.same path)).eraseDupsBy Path.same := by
  induction found generalizing paths with
  | nil => exact (List.append_nil paths).symm
  | cons path found ih =>
    show addPaths (if paths.any (·.same path) then paths else paths ++ [path]) found = _
    rw [ih, List.filter_cons]
    by_cases seen : paths.any (·.same path) = true
    · rw [if_pos seen, if_neg (by simp [seen])]
    · rw [if_neg seen, if_pos (by simp [seen]), List.eraseDupsBy_cons, List.filter_filter,
        List.append_assoc, List.singleton_append]
      congr 3
      refine List.filter_congr fun other _ => ?_
      simp [Path.same_comm path other, Bool.and_comm]

/-- The files of a location in order, none if it cannot be located; then `failure?` says why. -/
def filesOf (disk : Disk) (extensions : List String) (location : String) : List Path :=
  (Location.sources disk extensions location).toOption.getD []

def failure? (disk : Disk) (extensions : List String) (location : String) : Option Diagnostic :=
  match Location.sources disk extensions location with
  | .ok _ => none
  | .error e => some ⟨⟨location⟩, .badLocation e⟩

/-- One location adds its files, or what is said of it. -/
theorem add_sources (located : Located) (location : String) :
    located.add location (Location.sources disk extensions location) =
      { paths := addPaths located.paths (filesOf disk extensions location)
        diagnostics := located.diagnostics ++ (failure? disk extensions location).toList } := by
  unfold filesOf failure?
  cases Location.sources disk extensions location with
  | ok found => simp [add, Except.toOption]
  | error e => simp [add, Except.toOption, addPaths]

/-- **A run over locations** adds the files of all of them, and what is said of those that
failed. -/
theorem foldl_add_sources (located : Located) (locations : List String) :
    locations.foldl (fun located location =>
        located.add location (Location.sources disk extensions location)) located =
      { paths := addPaths located.paths (locations.flatMap (filesOf disk extensions))
        diagnostics := located.diagnostics ++ locations.filterMap (failure? disk extensions) } := by
  induction locations generalizing located with
  | nil => simp [addPaths]
  | cons location locations ih =>
    rw [List.foldl_cons, ih, add_sources, List.flatMap_cons, List.filterMap_eq_flatMap_toList,
      List.filterMap_eq_flatMap_toList, List.flatMap_cons, List.append_assoc]
    simp only [addPaths, List.foldl_append]

/-- The paths of several locations are their files, each where it comes first. -/
theorem paths_ofLocations (locations : List String) :
    (ofLocations disk extensions locations).paths =
      (locations.flatMap (filesOf disk extensions)).eraseDupsBy Path.same := by
  rw [ofLocations, foldl_add_sources, addPaths_eq]
  simp

theorem diagnostics_ofLocations (locations : List String) :
    (ofLocations disk extensions locations).diagnostics =
      locations.filterMap (failure? disk extensions) := by
  rw [ofLocations, foldl_add_sources]
  rfl

/-- **More locations add the files that are not there yet.** -/
theorem paths_ofLocations_append (before after : List String) :
    (ofLocations disk extensions (before ++ after)).paths =
      (ofLocations disk extensions before).paths ++
        (ofLocations disk extensions after).paths.filter fun path =>
          !(ofLocations disk extensions before).paths.any (·.same path) := by
  rw [paths_ofLocations disk extensions after, ← eraseDupsBy_filter]
  · rw [ofLocations, List.foldl_append, foldl_add_sources, addPaths_eq]
    rfl
  · intro a b same
    simp only [Path.same_congr same]

/-! ## One location -/

/-- The files of a location do not decrease. -/
theorem pairwise_filesOf (location : String) :
    (filesOf disk extensions location).Pairwise fun a b => a.key ≤ b.key := by
  unfold filesOf Location.sources
  dsimp only
  split
  · exact List.pairwise_singleton _ _
  · split
    · exact Path.pairwise_sort _
    · split
      · cases Location.matchingFiles disk location with
        | ok found => exact Path.pairwise_sort found
        | error e => exact .nil
      · exact .nil

/-- **The files that a location adds increase.** -/
theorem pairwise_new (location : String) (test : Path → Bool) :
    ((ofLocations disk extensions [location]).paths.filter test).Pairwise
      fun a b => a.lt b = true := by
  apply List.Pairwise.sublist List.filter_sublist
  rw [paths_ofLocations, List.flatMap_singleton]
  have sorted := (pairwise_filesOf disk extensions location).sublist
    (eraseDupsBy_sublist (r := Path.same) _)
  have distinct := pairwise_eraseDupsBy (r := Path.same) (filesOf disk extensions location)
  apply (sorted.and distinct).imp
  rintro a b ⟨le, differ⟩
  refine Path.lt_iff.mpr (lt_of_le_of_ne le fun same => ?_)
  rw [Path.same_iff.mpr same.symm] at differ
  cases differ

end Located

/-- The paths that are reported are those that do not load. -/
theorem SourceReader.map_path_skipped? (reader : SourceReader) (store : TextStore)
    (paths : List Path) :
    (paths.filterMap (reader.skipped? store)).map Diagnostic.path =
      paths.filter fun path => (reader.unit? store path).isNone := by
  rw [List.map_filterMap, ← List.filterMap_eq_filter]
  refine List.filterMap_congr fun path _ => ?_
  unfold SourceReader.skipped? SourceReader.unit?
  cases found : store.read? path with
  | none => simp [found, Option.guard]
  | some text =>
    cases read : reader.readUnit path text <;>
      simp [found, read, Except.toOption, Option.guard]

/-- **Every file is located once, and every failure is reported.** The paths of locations are their
files in order, each where it comes first, so that no two are the same; a location adds its files in
increasing order, and the locations that fail are the diagnostics. More locations add the files that
are not there yet. The index of the locations reports them first, and then each path that does not
load, in the order of the paths. -/
theorem locating_lists_each_file_once (disk : Disk) (extensions : List String)
    (locations more : List String) :
    let located := Located.ofLocations disk extensions
    (located locations).paths.Pairwise (fun a b => a.components ≠ b.components) ∧
    (located locations).paths =
      (locations.flatMap (Located.filesOf disk extensions)).eraseDupsBy Path.same ∧
    (located locations).diagnostics = locations.filterMap (Located.failure? disk extensions) ∧
    (∀ location, ∃ new,
      (located (locations ++ [location])).paths = (located locations).paths ++ new ∧
      new.Sublist (Located.filesOf disk extensions location) ∧
      new.Pairwise (fun a b => a.lt b = true)) ∧
    (located (locations ++ more)).paths =
      (located locations).paths ++ (located more).paths.filter (fun path =>
        !(located locations).paths.any (·.same path)) ∧
    (located (locations ++ more)).diagnostics =
      (located locations).diagnostics ++ (located more).diagnostics ∧
    ∀ (reader : SourceReader) (store : TextStore),
      let found := Located.ofLocations disk reader.extensions locations
      let skipped := found.paths.filterMap (reader.skipped? store)
      (Index.ofLocations reader store disk locations).diagnostics = found.diagnostics ++ skipped ∧
        skipped.map Diagnostic.path =
          found.paths.filter fun path => (reader.unit? store path).isNone := by
  intro located
  refine ⟨?_, ?_, ?_, fun location => ?_, ?_, ?_, fun reader store => ⟨?_, ?_⟩⟩
  · rw [Located.paths_ofLocations]
    apply (pairwise_eraseDupsBy _).imp
    intro a b differ same
    rw [Path.same, same, beq_self_eq_true] at differ
    cases differ
  · exact Located.paths_ofLocations disk extensions locations
  · exact Located.diagnostics_ofLocations disk extensions locations
  · refine ⟨_, Located.paths_ofLocations_append disk extensions locations [location], ?_,
      Located.pairwise_new disk extensions location _⟩
    apply List.filter_sublist.trans
    rw [Located.paths_ofLocations, List.flatMap_singleton]
    exact eraseDupsBy_sublist _
  · exact Located.paths_ofLocations_append disk extensions locations more
  · simp only [located, Located.diagnostics_ofLocations, List.filterMap_append]
  · rw [← Index.diagnostics_ofPaths]
    rfl
  · exact reader.map_path_skipped? store _

/-- A folder with a file that its rules leave out, and another that is no source. -/
def overlappingTree : Disk where
  root := .folder [("w", .folder [("lib", .folder
    [("b.ex", .file ⟨#[]⟩), ("a.ex", .file ⟨#[]⟩), ("c.ex", .file ⟨#[]⟩), ("notes", .file ⟨#[]⟩),
      (".ignore", .file "c.ex".toUTF8)])])]
  here := ["w"]

/-- The files of the folder are sorted and leave out `c.ex`. -/
theorem sources_overlappingTree_folder :
    Location.sources overlappingTree ["ex"] "lib" = .ok [⟨"lib/a.ex"⟩, ⟨"lib/b.ex"⟩] := by
  have listed : Location.sourcesBelow overlappingTree ["ex"] ⟨"lib"⟩ =
      [⟨"lib/b.ex"⟩, ⟨"lib/a.ex"⟩] := by decide +kernel
  have order : Path.lt ⟨"lib/a.ex"⟩ ⟨"lib/b.ex"⟩ = true := by decide +kernel
  have is_folder : overlappingTree.isFolder ⟨"lib"⟩ = true := by decide +kernel
  rw [Location.sources, if_neg (by decide +kernel), if_pos is_folder, listed]
  simp [Path.sort, List.mergeSort, order]

/-- A pattern asks no rules. -/
theorem sources_overlappingTree_pattern :
    Location.sources overlappingTree ["ex"] "lib/*.ex" =
      .ok [⟨"lib/a.ex"⟩, ⟨"lib/b.ex"⟩, ⟨"lib/c.ex"⟩] := by
  have found : Location.matchingFiles overlappingTree "lib/*.ex" =
      .ok [⟨"lib/b.ex"⟩, ⟨"lib/a.ex"⟩, ⟨"lib/c.ex"⟩] := by decide +kernel
  have order : Path.lt ⟨"lib/a.ex"⟩ ⟨"lib/b.ex"⟩ = true ∧
      Path.lt ⟨"lib/c.ex"⟩ ⟨"lib/b.ex"⟩ = false ∧
      Path.lt ⟨"lib/c.ex"⟩ ⟨"lib/a.ex"⟩ = false := by decide +kernel
  have wild : Location.isPattern "lib/*.ex" = true := by decide
  rw [Location.sources, if_neg (by decide +kernel), if_neg (by decide +kernel), if_pos wild, found]
  simp [Except.map, Path.sort, List.mergeSort, order]

/-- A file is located before its folder, the pattern finds what the folder leaves out, and the last
location spells a file in another way. The two locations that fail leave their diagnostics. -/
theorem locating_lists_each_file_once_overlapping :
    let locations := ["lib/b.ex", "lib", "gone", "lib/*.ex", "lib/[", "lib//a.ex"]
    let located := Located.ofLocations overlappingTree ["ex"] locations
    located.paths = [⟨"lib/b.ex"⟩, ⟨"lib/a.ex"⟩, ⟨"lib/c.ex"⟩] ∧
    located.diagnostics =
      [⟨⟨"gone"⟩, .badLocation (.missing "gone")⟩,
        ⟨⟨"lib/["⟩, .badLocation (.badPattern "lib/[" .unclosedClass)⟩] ∧
    located.paths.Pairwise (fun a b => a.components ≠ b.components) := by
  intro locations located
  obtain ⟨distinct, paths, failures, -⟩ :=
    locating_lists_each_file_once overlappingTree ["ex"] locations []
  refine ⟨paths.trans ?_, failures.trans (by decide +kernel), distinct⟩
  have folder : Located.filesOf overlappingTree ["ex"] "lib" = [⟨"lib/a.ex"⟩, ⟨"lib/b.ex"⟩] := by
    rw [Located.filesOf, sources_overlappingTree_folder]
    rfl
  have pattern : Located.filesOf overlappingTree ["ex"] "lib/*.ex" =
      [⟨"lib/a.ex"⟩, ⟨"lib/b.ex"⟩, ⟨"lib/c.ex"⟩] := by
    rw [Located.filesOf, sources_overlappingTree_pattern]
    rfl
  simp only [locations, List.flatMap_cons, List.flatMap_nil, folder, pattern]
  decide +kernel

end CallChart
