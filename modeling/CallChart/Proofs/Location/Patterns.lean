import CallChart.Location.Locate
import CallChart.Proofs.Files.Walking
import CallChart.Proofs.Glob.Front
import CallChart.Proofs.TidyPaths

/-!
# Where the files of a pattern are

The files that a pattern matches are looked for below the folder that it names
before its first wildcard, and not in the whole tree. Nothing is missed by that
(`pattern_folder_holds_all`): whatever the wildcards are, what the pattern
matches begins with the pieces of that folder (`pieces_of_isMatch`), and a file
that a walk of the whole tree comes by under such a path is one that the walk of
the folder comes by (`Listed.below`).
-/

namespace CallChart.Location

open Files (Disk Entry Place Kind IsProper piecesOf maxLinks)
open Files.Disk (Leads checkPath find_eq_ok_iff entry_eq_ok_iff)
open CallChart.Path (Tidy Stays spell componentOf pieces)

/-! ## The folder of a pattern -/

/-- The pieces before the first one that is a pattern, without the last one: the folder below which
a pattern is looked for. -/
def fixedPieces (parts : List (List Char)) : List (List Char) :=
  parts.dropLast.takeWhile fun part => !isPattern (String.ofList part)

variable {parts : List (List Char)} {pattern text : String} {tokens : List Glob.Token}

/-- Some pieces are left for the files. -/
theorem fixedPieces_append (some_part : parts ≠ []) :
    ∃ left, left ≠ [] ∧ fixedPieces parts ++ left = parts := by
  have front : fixedPieces parts <+: parts.dropLast := List.takeWhile_prefix _
  obtain ⟨left, whole⟩ := front.trans (List.dropLast_prefix parts)
  refine ⟨left, ?_, whole⟩
  rintro rfl
  rw [List.append_nil] at whole
  have long := front.length_le
  have some_length := List.length_pos_iff.mpr some_part
  rw [whole, List.length_dropLast] at long
  omega

/-- A piece that is no name is the root or goes back, and no pattern. -/
theorem componentOf_cases {part : List Char} (noDot : part ≠ ['.']) :
    componentOf part = .normal (String.ofList part) ∨
      isPattern (String.ofList part) = false ∧
        (componentOf part = .root ∨ componentOf part = .parent) := by
  by_cases empty : part = []
  · subst empty
    exact .inr ⟨rfl, .inl rfl⟩
  by_cases back : part = ['.', '.']
  · subst back
    exact .inr ⟨rfl, .inr rfl⟩
  exact .inl (Path.componentOf_of_name (not_or.mpr ⟨empty, noDot⟩) back)

/-- **Cutting components off a pattern cuts pieces off it.** -/
theorem fixedComponents_map (noDot : ['.'] ∉ parts) :
    fixedComponents (parts.map componentOf) = (fixedPieces parts).map componentOf := by
  induction parts with
  | nil => rfl
  | cons part parts ih =>
    cases parts with
    | nil => simp [fixedComponents, fixedPieces]
    | cons next parts =>
      have step : fixedPieces (part :: next :: parts) =
          if isPattern (String.ofList part) then [] else part :: fixedPieces (next :: parts) := by
        rw [fixedPieces, List.dropLast_cons_cons, List.takeWhile_cons]
        cases isPattern (String.ofList part) <;> rfl
      obtain ⟨first, noDot⟩ := List.ne_and_not_mem_of_not_mem_cons noDot
      have ih := ih noDot
      rw [List.map_cons] at ih
      rw [step, List.map_cons, List.map_cons]
      rcases componentOf_cases first.symm with name | ⟨plain, root | back⟩
      · rw [name, fixedComponents, ih]
        split
        · rfl
        · rw [List.map_cons, name]
        · nofun
      · rw [plain, if_neg Bool.false_ne_true, List.map_cons, root, ← ih]
        rfl
      · rw [plain, if_neg Bool.false_ne_true, List.map_cons, back, ← ih]
        rfl

/-- What tidy pieces begin with is tidy. -/
theorem tidy_fixedPieces (tidy : Tidy parts) : Tidy (fixedPieces parts) := by
  by_cases some_part : parts = []
  · subst some_part
    exact tidy
  obtain ⟨left, -, whole⟩ := fixedPieces_append some_part
  rw [← whole] at tidy
  exact tidy.left

/-- **The folder of a tidy pattern is spelled by its fixed pieces.** -/
theorem patternFolder_eq (tidy : Path.IsTidy ⟨pattern⟩) :
    patternFolder pattern = spell (fixedPieces (pieces pattern.toList)) := by
  rw [patternFolder, ← tidy.spell_pieces, Path.components_spell tidy.tidy_pieces,
    fixedComponents_map tidy.tidy_pieces.noDot, ofComponents, List.foldl_map]
  exact Path.foldl_join_spell [] (tidy_fixedPieces tidy.tidy_pieces)

/-- A tidy pattern does not start with a dot. -/
theorem withoutDot_eq (tidy : Path.IsTidy ⟨pattern⟩) : withoutDot pattern = pattern := by
  unfold withoutDot
  split
  · next rest dot =>
    have first : ['.'] ∈ pieces pattern.toList := by
      rw [dot]
      exact List.mem_cons_self
    exact absurd first tidy.tidy_pieces.noDot
  · rfl

/-- **What a pattern matches begins with its fixed pieces**, and goes on. -/
theorem pieces_of_isMatch (unescaped : '\\' ∉ pattern.toList)
    (compiles : Glob.tokens pattern = .ok tokens) (hit : Glob.isMatch tokens text = true) :
    ∃ below, below ≠ [] ∧ pieces text.toList = fixedPieces (pieces pattern.toList) ++ below := by
  obtain ⟨left, some_left, whole⟩ := fixedPieces_append (Path.pieces_ne_nil pattern.toList)
  by_cases none_fixed : fixedPieces (pieces pattern.toList) = []
  · exact ⟨pieces text.toList, Path.pieces_ne_nil _, by rw [none_fixed, List.nil_append]⟩
  have cut : pattern.toList = List.intercalate ['/'] (fixedPieces (pieces pattern.toList)) ++
      '/' :: List.intercalate ['/'] left := by
    rw [← Path.intercalate_append none_fixed some_left, whole, Path.intercalate_pieces]
  have plain : ∀ c ∈ List.intercalate ['/'] (fixedPieces (pieces pattern.toList)),
      Glob.IsPlain c := by
    intro c mem
    by_cases slash : c = '/'
    · subst slash
      unfold Glob.IsPlain
      decide
    obtain ⟨part, fixed, inside⟩ := (Path.mem_intercalate_iff slash).mp mem
    have no_escape : c ≠ '\\' := by
      rintro rfl
      exact unescaped (cut ▸ List.mem_append_left _ mem)
    have no_pattern := List.mem_takeWhile_imp fixed
    rw [Bool.not_eq_true', isPattern, String.toList_ofList, List.any_eq_false] at no_pattern
    have no_wildcard := no_pattern c inside
    simp only [Bool.or_eq_true, beq_iff_eq, not_or] at no_wildcard
    obtain ⟨⟨⟨star, question⟩, bracket⟩, brace⟩ := no_wildcard
    exact ⟨question, star, bracket, brace, no_escape⟩
  obtain ⟨more, found⟩ := Glob.front_of_isMatch cut plain compiles hit
  refine ⟨pieces more, Path.pieces_ne_nil more, ?_⟩
  rw [found, Path.pieces_append_slash, Path.pieces_intercalate none_fixed]
  intro part mem
  exact Path.not_mem_of_mem_pieces (whole ▸ List.mem_append_left left mem)

/-! ## Where spelled paths lead -/

variable {disk : Disk} {place names : Place} {path : Path}

def startOf (disk : Disk) (parts : List (List Char)) : Place :=
  if parts.head? = some [] then [] else disk.here

def LeadsTo (disk : Disk) (parts : List (List Char)) (place : Place) : Prop :=
  (∀ part ∈ parts, '\x00' ∉ part) ∧
    Leads disk.root false maxLinks (startOf disk parts) (parts.map String.ofList) place

theorem isAbsolute_spell (tidy : Tidy parts) (some_part : parts ≠ []) (more : parts ≠ [[]]) :
    (spell parts).isAbsolute = true ↔ parts.head? = some [] := by
  rw [Path.isAbsolute_iff, Path.pieces_spell tidy some_part more]
  obtain ⟨part, _ | ⟨next, parts⟩, rfl⟩ := List.exists_cons_of_ne_nil some_part
  · simpa using more
  · simp

theorem checkPath_spell (tidy : Tidy parts) (some_part : parts ≠ []) (more : parts ≠ [[]]) :
    checkPath (spell parts) = .ok () ↔ ∀ part ∈ parts, '\x00' ∉ part := by
  have cut := Path.pieces_spell tidy some_part more
  have zero : (spell parts).text.toList.contains '\x00' = true ↔ ∃ part ∈ parts, '\x00' ∈ part := by
    rw [List.contains_iff_mem, ← Path.intercalate_pieces (spell parts).text.toList, cut]
    exact Path.mem_intercalate_iff (by decide)
  rw [checkPath, Path.isEmpty_spell tidy some_part more, if_neg Bool.false_ne_true]
  split
  · next found =>
    obtain ⟨part, mem, inside⟩ := zero.mp found
    exact ⟨nofun, fun free => absurd inside (free part mem)⟩
  · next absent =>
    refine ⟨fun _ part mem inside => absent (zero.mpr ⟨part, mem, inside⟩), fun _ => rfl⟩

/-- **A spelled path leads to where its pieces lead.** -/
theorem find_spell (tidy : Tidy parts) (some_part : parts ≠ []) (more : parts ≠ [[]]) :
    disk.find (spell parts) = .ok place ↔ LeadsTo disk parts place := by
  have start : disk.startOf (spell parts) = startOf disk parts :=
    if_congr (isAbsolute_spell tidy some_part more) rfl rfl
  rw [find_eq_ok_iff, checkPath_spell tidy some_part more, start, piecesOf,
    Path.pieces_spell tidy some_part more]
  rfl

/-- Pieces that stay lead to the folder they start from. -/
theorem leads_iff_of_stays {root : Entry} {n : Nat} {found : Place} {front : List String}
    (folder : root.kindAt? found = some .folder)
    (stays : ∀ piece ∈ front, piece = "" ∨ piece = ".") :
    Leads root false n place front found ↔ found = place := by
  refine ⟨fun leads => leads.eq_of_stays stays, ?_⟩
  rintro rfl
  induction front with
  | nil => exact .here n found
  | cons piece front ih =>
    obtain ⟨first, rest⟩ := List.forall_mem_cons.mp stays
    exact .stay folder (Leads.passes _ _) first (ih rest)

/-- **A walk starts where the pieces of its folder lead.** No pieces are the current folder. -/
theorem entry_walk (tidy : Tidy parts) {entries : List (String × Entry)} :
    disk.entry (if (spell parts).text.isEmpty then ⟨"."⟩ else spell parts) = .ok (.folder entries) ↔
      ∃ place, LeadsTo disk parts place ∧ disk.root.at? place = some (.folder entries) := by
  rw [entry_eq_ok_iff]
  refine exists_congr fun place => and_congr_left fun found => ?_
  have folder := Entry.kindAt?_eq_folder_iff.mpr ⟨entries, found⟩
  by_cases none_there : parts = []
  · subst none_there
    show disk.find ⟨"."⟩ = .ok place ↔ _
    rw [find_eq_ok_iff, LeadsTo, leads_iff_of_stays folder (by decide),
      leads_iff_of_stays folder (by decide)]
    exact ⟨fun here => ⟨nofun, here.2⟩, fun here => ⟨rfl, here.2⟩⟩
  by_cases root : parts = [[]]
  · subst root
    show disk.find ⟨"/"⟩ = .ok place ↔ _
    rw [find_eq_ok_iff, LeadsTo, leads_iff_of_stays folder (by decide),
      leads_iff_of_stays folder (by decide)]
    exact ⟨fun here => ⟨by simp, here.2⟩, fun here => ⟨rfl, here.2⟩⟩
  rw [Path.isEmpty_spell tidy none_there root, if_neg Bool.false_ne_true]
  exact find_spell tidy none_there root

/-! ## Names as pieces -/

theorem not_stays_of_isProper {name : String} (proper : IsProper name) : ¬ Stays name.toList := by
  rintro (empty | dot)
  · exact proper.stays (.inl (String.toList_eq_nil_iff.mp empty))
  · exact proper.stays (.inr (String.toList_inj.mp dot))

/-- Names are tidy pieces. -/
theorem tidy_append_names (tidy : Tidy parts) (proper : ∀ name ∈ names, IsProper name) :
    Tidy (parts ++ names.map String.toList) := by
  have goes : ∀ part ∈ names.map String.toList, '/' ∉ part ∧ ¬ Stays part := by
    intro part mem
    obtain ⟨name, inside, rfl⟩ := List.mem_map.mp mem
    exact ⟨(proper name inside).noSlash, not_stays_of_isProper (proper name inside)⟩
  refine ⟨?_, ?_, ?_⟩
  · intro part mem
    rcases List.mem_append.mp mem with mem | mem
    · exact tidy.noSlash part mem
    · exact (goes part mem).1
  · intro mem
    rcases List.mem_append.mp mem with mem | mem
    · exact tidy.noDot mem
    · exact (goes _ mem).2 (.inr rfl)
  · intro mem
    cases parts with
    | nil => exact (goes _ (List.mem_of_mem_tail mem)).2 (.inl rfl)
    | cons part parts =>
      rcases List.mem_append.mp mem with mem | mem
      · exact tidy.full mem
      · exact (goes _ mem).2 (.inl rfl)

/-- Names do not make the root. -/
theorem append_names_ne_root (proper : ∀ name ∈ names, IsProper name) (some_name : names ≠ []) :
    parts ++ names.map String.toList ≠ [[]] := by
  intro root
  obtain ⟨name, mem⟩ := List.exists_mem_of_ne_nil names some_name
  have piece : name.toList ∈ parts ++ names.map String.toList :=
    List.mem_append_right _ (List.mem_map_of_mem mem)
  rw [root, List.mem_singleton] at piece
  exact not_stays_of_isProper (proper name mem) (.inl piece)

/-- **A path below a spelled one has the names as further pieces.** -/
theorem pathBelow_spell (tidy : Tidy parts) (proper : ∀ name ∈ names, IsProper name) :
    pathBelow (spell parts) names = spell (parts ++ names.map String.toList) := by
  rw [← Path.foldl_join_spell parts (tidy_append_names tidy proper), List.foldl_map, pathBelow]
  refine List.foldl_ext _ _ _ fun path name mem => ?_
  have goes := not_stays_of_isProper (proper name mem)
  rw [Path.text_componentOf fun empty => goes (.inl empty), String.ofList_toList]

/-- **Names lead on from the folder that pieces lead to.** -/
theorem LeadsTo.goOn {kind : Kind} (leads : LeadsTo disk parts place)
    (folder : disk.root.kindAt? place = some .folder) (proper : ∀ name ∈ names, IsProper name)
    (stands : disk.root.kindAt? (place ++ names) = some kind)
    (no_link : ∀ target, kind ≠ .link target) :
    LeadsTo disk (parts ++ names.map String.toList) (place ++ names) := by
  have start : startOf disk (parts ++ names.map String.toList) = startOf disk parts := by
    refine if_congr ?_ rfl rfl
    cases parts with
    | cons => rfl
    | nil =>
      cases names with
      | nil => rfl
      | cons name names =>
        have named := not_stays_of_isProper (proper name List.mem_cons_self)
        exact ⟨fun first => absurd (.inl (Option.some.inj first)) named, nofun⟩
  refine ⟨fun part mem => ?_, ?_⟩
  · rcases List.mem_append.mp mem with mem | mem
    · exact leads.1 part mem
    · obtain ⟨name, inside, rfl⟩ := List.mem_map.mp mem
      exact (proper name inside).noZero
  · have same : (names.map String.toList).map String.ofList = names := by simp
    have down := Leads.downNames (fun name mem => (proper name mem).toIsName) stands no_link
    rw [start, List.map_append, same]
    exact leads.2.append folder down

/-! ## What a walk comes by -/

/-- A walk that follows no links, from the folder of a path, comes by a file. No text is the
current folder. -/
def Listed (disk : Disk) (base path : Path) : Prop :=
  ∃ entries names content,
    disk.entry (if base.text.isEmpty then ⟨"."⟩ else base) = .ok (.folder entries) ∧
      (Entry.folder entries).at? names = some (.file content) ∧ path = pathBelow base names

/-- **The files below a folder are those that a walk comes by.** -/
theorem mem_filesBelow_iff (named : disk.root.WellNamed) {base : Path} :
    path ∈ filesBelow disk base (if base.text.isEmpty then ⟨"."⟩ else base) ↔
      Listed disk base path := by
  unfold filesBelow Listed
  split
  · next entries found =>
    obtain ⟨place, -, stands⟩ := entry_eq_ok_iff.mp found
    have inner := (named.at? stands).1
    rw [List.mem_map, found]
    constructor
    · rintro ⟨⟨names, content⟩, mem, rfl⟩
      exact ⟨entries, names, content, rfl, (Entry.mem_files_iff inner).mp mem, rfl⟩
    · rintro ⟨_, names, content, ⟨⟩, file, rfl⟩
      exact ⟨(names, content), (Entry.mem_files_iff inner).mpr file, rfl⟩
  · next other =>
    refine ⟨nofun, ?_⟩
    rintro ⟨entries, _, _, found, _⟩
    exact absurd found (other entries)

/-- From the folder at a place, names lead to a file. -/
structure Holds (disk : Disk) (place names : Place) : Prop where
  folder : disk.root.kindAt? place = some .folder
  file : ∃ content, disk.root.at? (place ++ names) = some (.file content)

namespace Holds

variable (holds : Holds disk place names)
include holds

theorem ne_nil : names ≠ [] := by
  rintro rfl
  obtain ⟨content, file⟩ := holds.file
  obtain ⟨entries, folder⟩ := Entry.kindAt?_eq_folder_iff.mp holds.folder
  rw [List.append_nil, folder] at file
  cases file

theorem proper (named : disk.root.WellNamed) : ∀ name ∈ names, IsProper name := by
  obtain ⟨content, file⟩ := holds.file
  exact fun name mem => (named.at? file).2 name (List.mem_append_right _ mem)

theorem pieces_spell (named : disk.root.WellNamed) (tidy : Tidy parts) :
    pieces (spell (parts ++ names.map String.toList)).text.toList =
      parts ++ names.map String.toList := by
  have proper := holds.proper named
  refine Path.pieces_spell (tidy_append_names tidy proper) ?_
    (append_names_ne_root proper holds.ne_nil)
  simp [holds.ne_nil]

end Holds

/-- **What a walk comes by**, as pieces: they lead to a folder, and names lead on to a file. -/
theorem listed_spell_iff (named : disk.root.WellNamed) (tidy : Tidy parts) :
    Listed disk (spell parts) path ↔ ∃ place names, LeadsTo disk parts place ∧
      Holds disk place names ∧ path = spell (parts ++ names.map String.toList) := by
  constructor
  · rintro ⟨entries, names, content, start, file, rfl⟩
    obtain ⟨place, leads, folder⟩ := (entry_walk tidy).mp start
    have holds : Holds disk place names := by
      refine ⟨Entry.kindAt?_eq_folder_iff.mpr ⟨entries, folder⟩, content, ?_⟩
      rw [Entry.at?_append, folder, Option.bind_some, file]
    exact ⟨place, names, leads, holds, pathBelow_spell tidy (holds.proper named)⟩
  · rintro ⟨place, names, leads, holds, rfl⟩
    obtain ⟨entries, folder⟩ := Entry.kindAt?_eq_folder_iff.mp holds.folder
    obtain ⟨content, file⟩ := holds.file
    rw [Entry.at?_append, folder, Option.bind_some] at file
    exact ⟨entries, names, content, (entry_walk tidy).mpr ⟨place, leads, folder⟩, file,
      (pathBelow_spell tidy (holds.proper named)).symm⟩

/-- **A walk of a folder further down comes by the files whose paths begin with it.** -/
theorem Listed.below (parts : List (List Char)) {more below : List (List Char)}
    (named : disk.root.WellNamed) (tidy : Tidy (parts ++ more))
    (listed : Listed disk (spell parts) path)
    (goes : pieces path.text.toList = parts ++ more ++ below) (some_below : below ≠ []) :
    Listed disk (spell (parts ++ more)) path := by
  obtain ⟨place, names, leads, holds, rfl⟩ := (listed_spell_iff named tidy.left).mp listed
  rw [holds.pieces_spell named tidy.left, List.append_assoc] at goes
  obtain ⟨front, back, rfl, rfl, rfl⟩ := List.map_eq_append_iff.mp (List.append_cancel_left goes)
  have proper := holds.proper named
  have some_back : back ≠ [] := fun none_there => some_below (by rw [none_there]; rfl)
  obtain ⟨content, file⟩ := holds.file
  rw [← List.append_assoc] at file
  have folder : disk.root.kindAt? (place ++ front) = some .folder :=
    Entry.kindAt?_of_append some_back
      (Option.isSome_of_eq_some (Entry.kindAt?_eq_file_iff.mpr file))
  refine (listed_spell_iff named tidy).mpr ⟨place ++ front, back, ?_, ⟨folder, content, file⟩, ?_⟩
  · have front_proper : ∀ name ∈ front, IsProper name :=
      fun name mem => proper name (List.mem_append_left _ mem)
    exact leads.goOn holds.folder front_proper folder nofun
  · rw [List.map_append, List.append_assoc]

/-- **A path that a walk comes by leads to a file**, and goes on from the folder. -/
theorem Listed.isFile (named : disk.root.WellNamed) (tidy : Tidy parts)
    (listed : Listed disk (spell parts) path) :
    disk.isFile path = true ∧
      ∃ below, below ≠ [] ∧ path.components = (spell parts).components ++ below := by
  obtain ⟨place, names, leads, holds, rfl⟩ := (listed_spell_iff named tidy).mp listed
  have proper := holds.proper named
  have whole := tidy_append_names tidy proper
  obtain ⟨content, file⟩ := holds.file
  constructor
  · have to_file : LeadsTo disk (parts ++ names.map String.toList) (place ++ names) :=
      leads.goOn holds.folder proper (Entry.kindAt?_eq_file_iff.mpr file) nofun
    have found : disk.entry (spell (parts ++ names.map String.toList)) = .ok (.file content) := by
      refine entry_eq_ok_iff.mpr ⟨place ++ names, ?_, file⟩
      refine (find_spell whole ?_ (append_names_ne_root proper holds.ne_nil)).mpr to_file
      simp [holds.ne_nil]
    rw [Disk.isFile, found]
    rfl
  · refine ⟨(names.map String.toList).map componentOf, by simp [holds.ne_nil], ?_⟩
    rw [Path.components_spell whole, Path.components_spell tidy, List.map_append]

/-! ## The files of a pattern -/

/-- The fixed pieces of a pattern from the root begin at the root. -/
theorem fixedPieces_of_isAbsolute (absolute : Path.isAbsolute ⟨pattern⟩ = true) :
    ∃ more, fixedPieces (pieces pattern.toList) = [] :: more := by
  obtain ⟨piece, rest, found⟩ := Path.isAbsolute_iff.mp absolute
  rw [found, fixedPieces, List.dropLast_cons_cons]
  exact ⟨_, List.takeWhile_cons_of_pos rfl⟩

theorem matchingFiles_of_error {cause : GlobError}
    (failed : Glob.tokens (withoutDot pattern) = .error cause) :
    matchingFiles disk pattern = .error (.badPattern (withoutDot pattern) cause) := by
  rw [matchingFiles]
  dsimp only
  rw [failed]

/-- What is found for a pattern that has been read: the files below a folder whose whole path it
matches. -/
def foundBy (disk : Disk) (folder : Path) (tokens : List Glob.Token) : List Path :=
  (filesBelow disk folder (if folder.text.isEmpty then ⟨"."⟩ else folder)).filter
    fun path => Glob.isMatch tokens path.text

theorem matchingFiles_of_tokens {tokens : List Glob.Token}
    (compiles : Glob.tokens (withoutDot pattern) = .ok tokens) :
    matchingFiles disk pattern = .ok (foundBy disk (patternFolder (withoutDot pattern)) tokens) := by
  rw [matchingFiles]
  dsimp only
  rw [compiles]
  rfl

theorem mem_foundBy_iff (named : disk.root.WellNamed) {folder : Path} :
    path ∈ foundBy disk folder tokens ↔
      Listed disk folder path ∧ Glob.isMatch tokens path.text = true := by
  rw [foundBy, List.mem_filter, mem_filesBelow_iff named]

/-- What is found for a tidy pattern: what a walk of its folder comes by and the pattern matches. -/
theorem exists_matchingFiles (named : disk.root.WellNamed) (tidy : Path.IsTidy ⟨pattern⟩)
    (compiles : Glob.tokens pattern = .ok tokens) :
    ∃ found, matchingFiles disk pattern = .ok found ∧ ∀ path, path ∈ found ↔
      Listed disk (patternFolder pattern) path ∧ Glob.isMatch tokens path.text = true := by
  have read : Glob.tokens (withoutDot pattern) = .ok tokens := by
    rw [withoutDot_eq tidy, compiles]
  refine ⟨_, matchingFiles_of_tokens read, fun path => ?_⟩
  rw [mem_foundBy_iff named, withoutDot_eq tidy]

/-- **Walking the folder of a pattern misses nothing.** A tidy text that the pattern matches goes on
from the folder. Of the files that a walk of the whole tree comes by, those that match are all
found, and what is found are files below the folder that match. -/
theorem pattern_folder_holds_all (disk : Disk) (named : disk.root.WellNamed) (pattern : String)
    (unescaped : '\\' ∉ pattern.toList) (tidy : Path.IsTidy ⟨pattern⟩) (tokens : List Glob.Token)
    (compiles : Glob.tokens pattern = .ok tokens) :
    (∀ text, Path.IsTidy ⟨text⟩ → Glob.isMatch tokens text = true →
      ∃ below, below ≠ [] ∧
        Path.components ⟨text⟩ = (patternFolder pattern).components ++ below) ∧
    ∃ found, matchingFiles disk pattern = .ok found ∧
      (∀ path, Listed disk (if Path.isAbsolute ⟨pattern⟩ then ⟨"/"⟩ else ⟨""⟩) path →
        Glob.isMatch tokens path.text = true → path ∈ found) ∧
      ∀ path ∈ found, Listed disk (patternFolder pattern) path ∧ disk.isFile path = true ∧
        (∃ below, below ≠ [] ∧ path.components = (patternFolder pattern).components ++ below) ∧
        Glob.isMatch tokens path.text = true := by
  have fixed := tidy_fixedPieces tidy.tidy_pieces
  have folder := patternFolder_eq tidy
  refine ⟨fun text tidy_text hit => ?_, ?_⟩
  · obtain ⟨below, some_below, goes⟩ := pieces_of_isMatch unescaped compiles hit
    refine ⟨below.map componentOf, by simpa using some_below, ?_⟩
    rw [← tidy_text.spell_pieces, Path.components_spell tidy_text.tidy_pieces, folder,
      Path.components_spell fixed, goes, List.map_append]
  · obtain ⟨found, searched, mem_found⟩ := exists_matchingFiles named tidy compiles
    refine ⟨found, searched, fun path listed hit => ?_, fun path mem => ?_⟩
    · rw [mem_found, folder]
      refine ⟨?_, hit⟩
      obtain ⟨below, some_below, goes⟩ := pieces_of_isMatch unescaped compiles hit
      split at listed
      · next absolute =>
        obtain ⟨more, from_root⟩ := fixedPieces_of_isAbsolute absolute
        rw [from_root] at fixed goes ⊢
        exact Listed.below [[]] named fixed listed goes some_below
      · exact Listed.below [] named fixed listed goes some_below
    · obtain ⟨listed, hit⟩ := (mem_found path).mp mem
      obtain ⟨is_file, goes⟩ := Listed.isFile named fixed (folder ▸ listed)
      exact ⟨listed, is_file, folder ▸ goes, hit⟩

/-- A tree with a file three folders below the current one. -/
def nestedTree : Disk where
  root := .folder [("w", .folder [("lib", .folder [("b", .folder [("c", .folder
    [("x.ex", .file ⟨#[]⟩)])])])])]
  here := ["w"]

theorem wellNamed_nestedTree : nestedTree.root.WellNamed := by
  have proper (name : String) (stays : ¬(name = "" ∨ name = ".")) (back : name ≠ "..")
      (short : ¬ Files.maxName < name.utf8ByteSize) (noSlash : '/' ∉ name.toList)
      (noZero : '\x00' ∉ name.toList) : IsProper name := ⟨⟨stays, back, short⟩, noSlash, noZero⟩
  refine ⟨by decide, ?_, ⟨by decide, ?_, ⟨by decide, ?_, ⟨by decide, ?_, ⟨by decide, ?_, trivial,
    trivial⟩, trivial⟩, trivial⟩, trivial⟩, trivial⟩
  all_goals apply proper <;> decide

/-- A group that reaches over two folders, and two stars, leave the folder before them as it is. -/
theorem pattern_folder_holds_all_nested :
    nestedTree.root.WellNamed ∧ Path.IsTidy ⟨"lib/\x7ba,b/c\x7d/**/*.ex"⟩ ∧
      patternFolder "lib/\x7ba,b/c\x7d/**/*.ex" = ⟨"lib"⟩ ∧
      Listed nestedTree ⟨""⟩ ⟨"lib/b/c/x.ex"⟩ ∧
      ∃ found, matchingFiles nestedTree "lib/\x7ba,b/c\x7d/**/*.ex" = .ok found ∧
        ⟨"lib/b/c/x.ex"⟩ ∈ found := by
  have named := wellNamed_nestedTree
  have compiles : Glob.tokens "lib/\x7ba,b/c\x7d/**/*.ex" = .ok
      [.literal 'l', .literal 'i', .literal 'b', .literal '/',
        .alternates [[.literal 'a'], [.literal 'b', .literal '/', .literal 'c']],
        .recursiveMiddle, .star, .literal '.', .literal 'e', .literal 'x'] := by rfl
  have tidy : Path.IsTidy ⟨"lib/\x7ba,b/c\x7d/**/*.ex"⟩ := by
    unfold Path.IsTidy Stays
    decide
  have listed : Listed nestedTree ⟨""⟩ ⟨"lib/b/c/x.ex"⟩ :=
    ⟨_, ["lib", "b", "c", "x.ex"], _, rfl, rfl, rfl⟩
  obtain ⟨-, found, searched, complete, -⟩ := pattern_folder_holds_all nestedTree named
    "lib/\x7ba,b/c\x7d/**/*.ex" (by decide) tidy _ compiles
  exact ⟨named, tidy, by decide +kernel, listed, found, searched,
    complete _ listed (by decide +kernel)⟩

end CallChart.Location
