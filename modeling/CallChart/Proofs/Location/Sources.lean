import CallChart.Proofs.Location.Located
import CallChart.Proofs.Location.Patterns

/-!
# Which files a location has

A walk goes down from a folder and lists the files and links that it comes to. At
every name on the way it asks the folders around, those above its start among
them, whether the name is left out, and goes no further if it is. So a place is
listed exactly if a file or a link stands there and nothing on the way to it is
left out (`mem_walkEntry_iff`). The start itself is never asked about, and what
stands in a folder that is left out is not listed even if a rule keeps it.

**The laws** say which files a location has (`Located.mem_filesOf_iff`) and when
it fails (`Located.failure?_eq_some_iff`): it fails if it is no file and no folder
and cannot be read as a pattern, and a folder or a pattern that has no files does
not fail.
-/

namespace CallChart

open Files (Disk Entry Place)

namespace Location

variable {root entry : Entry} {entries : List (String × Entry)} {scopes : List Scope}
  {place names : Place} {name : String}

/-! ## What is left out -/

/-- The folders around an entry of a folder are the folder and those around it. -/
theorem scopesAround_concat (root : Entry) (outer inner : Place) (name : String) :
    scopesAround root outer (inner ++ [name]) =
      descend (⟨FolderRules.at root (outer ++ inner), []⟩ :: scopesAround root outer inner)
        name := by
  induction inner generalizing outer with
  | nil => simp [scopesAround, descend]
  | cons first inner ih =>
    rw [List.cons_append, scopesAround, ih, scopesAround]
    simp [descend]

/-- The folders around a place leave out what stands there. All of them up to the root are asked,
wherever a walk started. -/
def LeftOut (root : Entry) (place : Place) : Prop :=
  isIgnored (scopesAround root [] place) ((root.at? place).any Entry.isFolder) = true

/-- A walk that starts at a place comes by the names below it: they lead to a file or a link, and
nothing on the way is left out. Only names below the start count, so a walk may start in a folder
that another walk would leave out. -/
structure ComesBy (root : Entry) (place names : Place) : Prop where
  stands : ∃ entry, root.at? (place ++ names) = some entry ∧ entry.isFolder = false
  kept : ∀ front, front ≠ [] → front <+: names → ¬ LeftOut root (place ++ front)

/-- A walk comes by names if it passes the first one and comes by the others from there. -/
theorem comesBy_cons_iff :
    ComesBy root place (name :: names) ↔
      ¬ LeftOut root (place ++ [name]) ∧ ComesBy root (place ++ [name]) names := by
  constructor
  · intro goes
    refine ⟨goes.kept [name] (List.cons_ne_nil _ _) (List.prefix_append [name] names), ?_, ?_⟩
    · rw [← List.append_cons]
      exact goes.stands
    · intro front _ begins
      rw [← List.append_cons]
      exact goes.kept (name :: front) (List.cons_ne_nil _ _)
        (List.cons_prefix_cons.mpr ⟨rfl, begins⟩)
  · rintro ⟨first, goes⟩
    refine ⟨?_, fun front some_front begins => ?_⟩
    · rw [List.append_cons]
      exact goes.stands
    · obtain ⟨other, front, rfl⟩ := List.exists_cons_of_ne_nil some_front
      obtain ⟨rfl, rest_begins⟩ := List.cons_prefix_cons.mp begins
      rw [List.append_cons]
      by_cases alone : front = []
      · rw [alone, List.append_nil]
        exact first
      · exact goes.kept front alone rest_begins

/-! ## What a walk lists -/

mutual

/-- The names that a walk has gone down are put in front of what it lists. -/
theorem walkEntry_eq_map (root : Entry) (scopes : List Scope) (place below : Place) :
    (entry : Entry) → walkEntry root scopes place below entry =
      (walkEntry root scopes place [] entry).map (below ++ ·)
  | .folder entries => walkEntries_eq_map root _ place below entries
  | .file _ => by simp [walkEntry]
  | .link _ => by simp [walkEntry]

theorem walkEntries_eq_map (root : Entry) (scopes : List Scope) (place below : Place) :
    (entries : List (String × Entry)) → walkEntries root scopes place below entries =
      (walkEntries root scopes place [] entries).map (below ++ ·)
  | [] => rfl
  | (name, entry) :: entries => by
    rw [walkEntries, walkEntries, List.map_append,
      walkEntries_eq_map root scopes place below entries,
      walkEntry_eq_map root _ _ (below ++ [name]) entry,
      walkEntry_eq_map root _ _ ([] ++ [name]) entry]
    split <;> simp

end

/-- Among entries, what is listed is listed below one of them that is not left out. -/
theorem mem_walkEntries_iff :
    names ∈ walkEntries root scopes place [] entries ↔
      ∃ name entry rest, (name, entry) ∈ entries ∧
        isIgnored (descend scopes name) entry.isFolder = false ∧
        rest ∈ walkEntry root (descend scopes name) (place ++ [name]) [] entry ∧
        names = name :: rest := by
  induction entries with
  | nil => simp [walkEntries]
  | cons first entries ih =>
    obtain ⟨name, entry⟩ := first
    rw [walkEntries, List.mem_append, ih, walkEntry_eq_map]
    constructor
    · rintro (listed | ⟨other, inner, rest, mem, passes, listed, same⟩)
      · split at listed
        · cases listed
        · next passes =>
          obtain ⟨rest, below, rfl⟩ := List.mem_map.mp listed
          exact ⟨name, entry, rest, List.mem_cons_self, Bool.eq_false_iff.mpr passes, below, rfl⟩
      · exact ⟨other, inner, rest, List.mem_cons_of_mem _ mem, passes, listed, same⟩
    · rintro ⟨other, inner, rest, mem, passes, listed, rfl⟩
      rcases List.mem_cons.mp mem with same | mem
      · obtain ⟨rfl, rfl⟩ := Prod.mk.inj same
        rw [if_neg (Bool.eq_false_iff.mp passes)]
        exact .inl (List.mem_map.mpr ⟨rest, listed, rfl⟩)
      · exact .inr ⟨other, inner, rest, mem, passes, listed, rfl⟩

/-- What stands in a folder is left out if the rules on the way down say so. -/
theorem leftOut_concat_iff (found : root.at? (place ++ [name]) = some entry) :
    LeftOut root (place ++ [name]) ↔
      isIgnored (descend (⟨FolderRules.at root place, []⟩ :: scopesAround root [] place) name)
        entry.isFolder = true := by
  rw [LeftOut, scopesAround_concat, found, List.nil_append, Option.any_some]

/-- **A walk lists what it comes by.** -/
theorem mem_walkEntry_iff (named : entry.WellNamed) (found : root.at? place = some entry) :
    names ∈ walkEntry root (scopesAround root [] place) place [] entry ↔
      ComesBy root place names := by
  induction names generalizing place entry with
  | nil =>
    have kept : ∀ front, front ≠ [] → front <+: [] → ¬ LeftOut root (place ++ front) :=
      fun front some_front begins => absurd (List.prefix_nil.mp begins) some_front
    have here : root.at? (place ++ []) = some entry := by rw [List.append_nil, found]
    cases entry with
    | file | link => exact iff_of_true List.mem_cons_self ⟨⟨_, here, rfl⟩, kept⟩
    | folder entries =>
      refine iff_of_false ?_ ?_
      · rw [walkEntry, mem_walkEntries_iff]
        rintro ⟨_, _, _, _, _, _, ⟨⟩⟩
      · rintro ⟨⟨other, stands, no_folder⟩, -⟩
        obtain rfl := Option.some.inj (here.symm.trans stands)
        cases no_folder
  | cons name names ih =>
    cases entry with
    | file | link =>
      refine iff_of_false (by simp [walkEntry]) ?_
      rintro ⟨⟨other, stands, -⟩, -⟩
      rw [Entry.at?_append, found] at stands
      cases stands
    | folder entries =>
      have below := Entry.at?_concat_of_folder found name
      rw [walkEntry, mem_walkEntries_iff, comesBy_cons_iff]
      constructor
      · rintro ⟨_, inner, _, mem, passes, listed, ⟨⟩⟩
        have stands := below.trans ((Entry.child?_eq_some_iff named.1).mpr mem)
        rw [leftOut_concat_iff stands, passes]
        refine ⟨Bool.false_ne_true, (ih (Entry.wellNamed_of_mem named.2 mem).2 stands).mp ?_⟩
        rw [scopesAround_concat]
        exact listed
      · rintro ⟨passes, goes⟩
        obtain ⟨other, stands, -⟩ := goes.stands
        rw [Entry.at?_append] at stands
        obtain ⟨inner, stands, -⟩ := Option.bind_eq_some_iff.mp stands
        have mem := (Entry.child?_eq_some_iff named.1).mp (below.symm.trans stands)
        rw [leftOut_concat_iff stands, Bool.not_eq_true] at passes
        have listed := (ih (Entry.wellNamed_of_mem named.2 mem).2 stands).mpr goes
        rw [scopesAround_concat] at listed
        exact ⟨name, inner, names, mem, passes, listed, rfl⟩

/-! ## The files of a location -/

variable {disk : Disk} {extensions : List String} {folder path : Path} {location : String}

/-- A path leads to a source file below a folder: a walk from the folder comes by it, it is a file
or a link to one, and it has one of the extensions. -/
def IsSource (disk : Disk) (extensions : List String) (folder path : Path) : Prop :=
  ∃ place names, disk.find folder = .ok place ∧ ComesBy disk.root place names ∧ names ≠ [] ∧
    path = pathBelow folder names ∧ disk.isFile path = true ∧
    path.extension?.any extensions.contains = true

/-- **The sources below a folder** are those that a walk comes by. -/
theorem mem_sourcesBelow_iff (named : disk.root.WellNamed) :
    path ∈ sourcesBelow disk extensions folder ↔ IsSource disk extensions folder path := by
  unfold sourcesBelow IsSource
  cases found : disk.find folder with
  | error e =>
    refine iff_of_false List.not_mem_nil ?_
    rintro ⟨_, _, ⟨⟩, _⟩
  | ok place =>
    dsimp only
    split
    · next entries stands =>
      rw [List.mem_filter, List.mem_map, Bool.and_eq_true]
      simp only [mem_walkEntry_iff (named.at? stands).1 stands]
      constructor
      · rintro ⟨⟨names, goes, rfl⟩, is_file, extended⟩
        refine ⟨place, names, rfl, goes, ?_, rfl, is_file, extended⟩
        rintro rfl
        obtain ⟨other, here, no_folder⟩ := goes.stands
        rw [List.append_nil, stands] at here
        obtain rfl := Option.some.inj here
        cases no_folder
      · rintro ⟨_, names, ⟨⟩, goes, -, rfl, is_file, extended⟩
        exact ⟨⟨names, goes, rfl⟩, is_file, extended⟩
    · next no_folder =>
      refine iff_of_false List.not_mem_nil ?_
      rintro ⟨_, names, ⟨⟩, goes, some_name, _⟩
      obtain ⟨other, there, -⟩ := goes.stands
      obtain ⟨entries, stands⟩ := Entry.kindAt?_eq_folder_iff.mp
        (Entry.kindAt?_of_append some_name (by rw [Entry.kindAt?, there]; rfl))
      exact no_folder entries stands

/-- A path is a file of a location: the location itself if that is a file, a source below it if it
is a folder, and otherwise what it matches as a pattern, among the files below the folder that it
names before its first wildcard. -/
def HasFile (disk : Disk) (extensions : List String) (location : String) (path : Path) : Prop :=
  if disk.isFile ⟨location⟩ then path = ⟨location⟩
  else if disk.isFolder ⟨location⟩ then IsSource disk extensions ⟨location⟩ path
  else isPattern location = true ∧ ∃ tokens, Glob.tokens (withoutDot location) = .ok tokens ∧
    Listed disk (patternFolder (withoutDot location)) path ∧ Glob.isMatch tokens path.text = true

end Location

namespace Located

open Location

variable {disk : Disk} {extensions : List String} {location : String} {path : Path}

/-- **The files of a location**, in a well-named tree. -/
theorem mem_filesOf_iff (named : disk.root.WellNamed) :
    path ∈ filesOf disk extensions location ↔ HasFile disk extensions location path := by
  unfold filesOf sources HasFile
  dsimp only
  split
  · exact List.mem_singleton
  split
  · exact List.mem_mergeSort.trans (mem_sourcesBelow_iff named)
  split
  · next wild =>
    cases compiles : Glob.tokens (withoutDot location) with
    | error cause =>
      rw [matchingFiles_of_error compiles]
      refine iff_of_false List.not_mem_nil ?_
      rintro ⟨-, _, ⟨⟩, -⟩
    | ok tokens =>
      rw [matchingFiles_of_tokens compiles]
      refine List.mem_mergeSort.trans ((mem_foundBy_iff named).trans ⟨?_, ?_⟩)
      · exact fun found => ⟨wild, tokens, rfl, found⟩
      · rintro ⟨-, _, ⟨⟩, found⟩
        exact found
  · next plain => exact iff_of_false List.not_mem_nil fun found => plain found.1

/-- **When a location fails**: it leads nowhere and is no pattern, or is one that cannot be read. A
location without files does not fail. -/
theorem failure?_eq_some_iff {diagnostic : Diagnostic} :
    failure? disk extensions location = some diagnostic ↔
      disk.isFile ⟨location⟩ = false ∧ disk.isFolder ⟨location⟩ = false ∧
        ∃ error, diagnostic = ⟨⟨location⟩, .badLocation error⟩ ∧
          (isPattern location = false ∧ error = .missing location ∨
            isPattern location = true ∧ ∃ cause, Glob.tokens (withoutDot location) = .error cause ∧
              error = .badPattern (withoutDot location) cause) := by
  unfold failure? sources
  dsimp only
  by_cases is_file : disk.isFile ⟨location⟩ = true
  · simp [is_file]
  by_cases is_folder : disk.isFolder ⟨location⟩ = true
  · simp [is_file, is_folder]
  by_cases wild : isPattern location = true
  · cases compiles : Glob.tokens (withoutDot location) with
    | error cause =>
      rw [matchingFiles_of_error compiles]
      simp [is_file, is_folder, wild, Except.map, eq_comm]
    | ok tokens =>
      rw [matchingFiles_of_tokens compiles]
      simp [is_file, is_folder, wild, Except.map]
  · simp [is_file, is_folder, wild, eq_comm]

end Located

end CallChart
