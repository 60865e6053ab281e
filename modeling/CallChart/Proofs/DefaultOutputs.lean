import CallChart.Proofs.Commands
import CallChart.Proofs.Elixir.ModuleNames
import CallChart.Proofs.SamePaths
import CallChart.Proofs.TidyPaths
import CallChart.Workbench

/-!
# Where drawings go

A drawing without a word on where it goes is a file below the output folder,
named for the entry module, the function and the format. The module is an alias,
so the name does not start at a root and adds all its components to those of the
folder (`Path.components_join`). It is one component, and the file stands right
in the folder, exactly if the function has no slash (`drawingName.isIn_iff`).

Without slashes, the name tells the format, but not where the module ends and the
function begins: both may have dots. So two drawings go to one place exactly if
their formats and the texts of module and function are the same
(`Workbench.default_outputs_by_text`).
-/

namespace CallChart

/-! ## Names below a folder -/

namespace Path

variable {path longer : Path} {pieces' : List (List Char)}

/-- The path is right in the folder: one more name, and nothing that goes elsewhere. -/
def IsIn (path folder : Path) : Prop :=
  ∃ name, path.components = folder.components ++ [.normal name]

/-- The first piece of the path is more than a dot. -/
def StartsInName (path : Path) : Prop :=
  ∃ first more, pieces path.text.toList = first :: more ∧ counts false first = true

theorem counts_of_counts {piece : List Char} (counted : counts false piece = true) (first : Bool) :
    counts first piece = true := by
  cases first with
  | false => exact counted
  | true =>
    rw [counts, Bool.and_eq_true] at counted ⊢
    exact ⟨counted.1, rfl⟩

/-- A piece counts if it has more than dots. -/
theorem counts_of_mem {piece : List Char} {c : Char} (mem : c ∈ piece) (other : c ≠ '.') :
    counts false piece = true := by
  have full : piece ≠ [] := List.ne_nil_of_mem mem
  have noDot : piece ≠ ['.'] := by
    rintro rfl
    exact other (List.mem_singleton.mp mem)
  simp [counts, full, noDot]

theorem StartsInName.countedPieces (starts : path.StartsInName) :
    path.countedPieces = (pieces path.text.toList).filter (counts false) := by
  obtain ⟨first, more, found, counted⟩ := starts
  rw [Path.countedPieces, found]
  dsimp only
  rw [List.filter_cons_of_pos (counts_of_counts counted true), List.filter_cons_of_pos counted]
  rfl

theorem StartsInName.isAbsolute (starts : path.StartsInName) : path.isAbsolute = false := by
  obtain ⟨first, more, found, counted⟩ := starts
  rw [← Bool.not_eq_true, isAbsolute_iff, found]
  rintro ⟨_, _, same⟩
  obtain rfl : first = [] := (List.cons.inj same).1
  cases counted

/-- Pieces that are added are counted if they are more than dots. -/
theorem countedPieces_append
    (cut : pieces longer.text.toList = pieces path.text.toList ++ pieces') :
    longer.countedPieces = path.countedPieces ++ pieces'.filter (counts false) := by
  obtain ⟨first, more, found⟩ := List.exists_cons_of_ne_nil (pieces_ne_nil path.text.toList)
  rw [Path.countedPieces, Path.countedPieces, cut, found, List.cons_append]
  dsimp only
  rw [List.filter_append, List.append_assoc]

/-- What is joined to a path starts where the path does. -/
theorem isAbsolute_of_append {start : String} (some_text : start.isEmpty = false) (rest : String) :
    isAbsolute ⟨start ++ rest⟩ = isAbsolute ⟨start⟩ := by
  obtain ⟨c, chars, found⟩ := List.exists_cons_of_ne_nil
    (show start.toList ≠ [] by simpa [String.isEmpty_iff] using some_text)
  simp [isAbsolute, found]

/-- **A path that is joined to a folder adds its components**, if it starts in a name. -/
theorem components_join (folder : Path) (starts : path.StartsInName) :
    (folder.join path).components = folder.components ++ path.components := by
  have relative := starts.isAbsolute
  suffices joined : (folder.join path).isAbsolute = folder.isAbsolute ∧
      (folder.join path).countedPieces = folder.countedPieces ++ path.countedPieces by
    rw [components_eq, components_eq, components_eq, joined.1, joined.2, List.map_append,
      List.append_assoc, relative]
    rfl
  rw [join, relative, Bool.false_or]
  split
  · next empty =>
    obtain ⟨text⟩ := folder
    obtain rfl : text = "" := String.isEmpty_iff.mp empty
    exact ⟨relative, rfl⟩
  · next some_text =>
    rw [Bool.not_eq_true] at some_text
    rw [starts.countedPieces]
    split
    · next ends =>
      -- The slash at the end of the folder leaves an empty piece, which does not count.
      obtain ⟨front, found⟩ := List.getLast?_eq_some_iff.mp (eq_of_beq ends)
      have before : pieces folder.text.toList =
          pieces (Path.mk (String.ofList front)).text.toList ++ [[]] := by
        rw [found, String.toList_ofList, pieces_append_slash]
        rfl
      have after : pieces (Path.mk (folder.text ++ path.text)).text.toList =
          pieces (Path.mk (String.ofList front)).text.toList ++ pieces path.text.toList := by
        rw [String.toList_append, found, List.append_assoc, List.singleton_append,
          pieces_append_slash, String.toList_ofList]
      refine ⟨isAbsolute_of_append some_text path.text, ?_⟩
      rw [countedPieces_append after, countedPieces_append before]
      simp [counts]
    · have after : pieces (Path.mk (folder.text ++ "/" ++ path.text)).text.toList =
          pieces folder.text.toList ++ pieces path.text.toList := by
        rw [← pieces_append_slash]
        simp
      refine ⟨?_, countedPieces_append after⟩
      rw [String.append_assoc]
      exact isAbsolute_of_append some_text _

/-- A text without slashes is the start of the first piece. -/
theorem pieces_append_of_not_mem {text : List Char} (plain : '/' ∉ text) (rest : List Char) :
    ∃ first more, pieces (text ++ rest) = (text ++ first) :: more := by
  induction text with
  | nil => exact List.exists_cons_of_ne_nil (pieces_ne_nil rest)
  | cons c text ih =>
    obtain ⟨other, plain⟩ := List.ne_and_not_mem_of_not_mem_cons plain
    obtain ⟨first, more, found⟩ := ih plain
    exact ⟨first, more, pieces_cons_of_ne other.symm found⟩

end Path

/-! ## Names of drawings -/

def drawingName (owner function : String) (format : ChartFormat) : String :=
  owner ++ "." ++ function ++ "." ++ format.extension

namespace drawingName

variable {owner owner' function function' : String} {format format' : ChartFormat}

/-- The name of a drawing starts with its module. -/
theorem startsInName (isOwner : Elixir.IsModuleName owner) (function : String)
    (format : ChartFormat) : Path.StartsInName ⟨drawingName owner function format⟩ := by
  obtain ⟨first, more, found⟩ := Path.pieces_append_of_not_mem isOwner.noSlash
    ("." ++ function ++ "." ++ format.extension).toList
  obtain ⟨c, mem, upper⟩ := isOwner.capital
  refine ⟨_, more, ?_, Path.counts_of_mem (List.mem_append_left first mem) ?_⟩
  · rw [← found]
    simp [drawingName]
  · rintro rfl
    cases upper

/-- An extension has more than slashes and dots. -/
theorem exists_mem_extension (format : ChartFormat) :
    ∃ c ∈ format.extension.toList, c ≠ '/' ∧ c ≠ '.' := by
  cases format with
  | mermaid => exact ⟨'m', by decide⟩
  | json => exact ⟨'j', by decide⟩

/-- The components of a name are its pieces that count. -/
theorem components_eq (isOwner : Elixir.IsModuleName owner) (function : String)
    (format : ChartFormat) :
    (Path.mk (drawingName owner function format)).components =
      ((Path.pieces (drawingName owner function format).toList).filter (Path.counts false)).map
        Path.componentOf := by
  have starts := startsInName isOwner function format
  rw [Path.components_eq, starts.isAbsolute, starts.countedPieces]
  rfl

/-- The name of a drawing is one component if the function has no slash. -/
theorem components_of_noSlash (isOwner : Elixir.IsModuleName owner) (format : ChartFormat)
    (flat : '/' ∉ function.toList) :
    (Path.mk (drawingName owner function format)).components =
      [.normal (drawingName owner function format)] := by
  have noSlash : '/' ∉ (drawingName owner function format).toList := by
    have extension : '/' ∉ format.extension.toList := by cases format <;> decide
    simp [drawingName, isOwner.noSlash, flat, extension]
  obtain ⟨c, mem, -, other⟩ := exists_mem_extension format
  have inside : c ∈ (drawingName owner function format).toList := by simp [drawingName, mem]
  have noDots : ∀ dots : List Char, (∀ d ∈ dots, d = '.') →
      (drawingName owner function format).toList ≠ dots := by
    rintro dots all rfl
    exact other (all c inside)
  have goes : ¬ Path.Stays (drawingName owner function format).toList :=
    not_or.mpr ⟨noDots _ (by simp), noDots _ (by simp)⟩
  rw [components_eq isOwner, Path.pieces_of_not_mem noSlash,
    List.filter_cons_of_pos (Path.counts_of_mem inside other), List.filter_nil, List.map_singleton,
    Path.componentOf_of_name goes (noDots _ (by simp)), String.ofList_toList]

/-- The name of a drawing is more than one component if the function has a slash. -/
theorem two_le_length_components (isOwner : Elixir.IsModuleName owner) (format : ChartFormat)
    (slash : '/' ∈ function.toList) :
    2 ≤ (Path.mk (drawingName owner function format)).components.length := by
  obtain ⟨front, back, cut⟩ := List.append_of_mem slash
  -- The module is in a piece in front of the slash, the extension in one behind it.
  have pieces : Path.pieces (drawingName owner function format).toList =
      Path.pieces (owner.toList ++ '.' :: front) ++
        Path.pieces (back ++ '.' :: format.extension.toList) := by
    rw [← Path.pieces_append_slash]
    simp [drawingName, cut]
  have one : ∀ {text : List Char} {c : Char}, c ∈ text → c ≠ '/' → c ≠ '.' →
      1 ≤ ((Path.pieces text).filter (Path.counts false)).length := by
    intro text c mem noSlash noDot
    obtain ⟨piece, inside, isIn⟩ := (Path.exists_mem_pieces_iff noSlash).mpr mem
    exact List.length_pos_of_mem (List.mem_filter.mpr ⟨inside, Path.counts_of_mem isIn noDot⟩)
  obtain ⟨c, mem, upper⟩ := isOwner.capital
  obtain ⟨d, mem', noSlash, noDot⟩ := exists_mem_extension format
  have before := one (List.mem_append_left ('.' :: front) mem) (by rintro rfl; cases upper)
    (by rintro rfl; cases upper)
  have behind := one (List.mem_append_right back (List.mem_cons_of_mem '.' mem')) noSlash noDot
  rw [components_eq isOwner, pieces, List.filter_append, List.length_map, List.length_append]
  exact Nat.add_le_add before behind

/-- **A drawing stands right in its folder exactly if its function has no slash.** -/
theorem isIn_iff (isOwner : Elixir.IsModuleName owner) (folder : Path) :
    (folder.join ⟨drawingName owner function format⟩).IsIn folder ↔ '/' ∉ function.toList := by
  rw [Path.IsIn, Path.components_join folder (startsInName isOwner function format)]
  constructor
  · rintro ⟨name, same⟩ slash
    have one := congrArg List.length (List.append_cancel_left same)
    have two := two_le_length_components isOwner format slash
    rw [one, List.length_singleton] at two
    exact absurd two (by decide)
  · intro flat
    exact ⟨_, congrArg _ (components_of_noSlash isOwner format flat)⟩

/-- A name ends as its extension does. -/
theorem getLast?_eq (owner function : String) (format : ChartFormat) :
    (drawingName owner function format).toList.getLast? = format.extension.toList.getLast? := by
  rw [drawingName, String.toList_append, List.getLast?_append_of_ne_nil]
  cases format <;> decide

/-- **The name of a drawing tells the format and the text of module and function.** -/
theorem eq_iff :
    drawingName owner function format = drawingName owner' function' format' ↔
      format = format' ∧ owner ++ "." ++ function = owner' ++ "." ++ function' := by
  constructor
  · intro same
    have last : format.extension.toList.getLast? = format'.extension.toList.getLast? := by
      rw [← getLast?_eq owner function, same, getLast?_eq]
    obtain rfl : format = format' := by
      cases format <;> cases format' <;> first | rfl | exact absurd last (by decide)
    refine ⟨rfl, ?_⟩
    have chars := congrArg String.toList same
    simp only [drawingName, String.toList_append, List.append_cancel_right_eq] at chars
    rw [← String.toList_inj, String.toList_append, String.toList_append, String.toList_append,
      String.toList_append]
    exact chars
  · rintro ⟨rfl, same⟩
    rw [drawingName, drawingName, same]

/-- **Without slashes, drawings go to one place exactly if format and text are the same.** -/
theorem same_join_iff (folder : Path) (isOwner : Elixir.IsModuleName owner)
    (isOwner' : Elixir.IsModuleName owner') (flat : '/' ∉ function.toList)
    (flat' : '/' ∉ function'.toList) :
    (folder.join ⟨drawingName owner function format⟩).same
        (folder.join ⟨drawingName owner' function' format'⟩) = true ↔
      format = format' ∧ owner ++ "." ++ function = owner' ++ "." ++ function' := by
  rw [Path.same, beq_iff_eq, Path.components_join folder (startsInName isOwner function format),
    Path.components_join folder (startsInName isOwner' function' format'),
    List.append_cancel_left_eq, components_of_noSlash isOwner format flat,
    components_of_noSlash isOwner' format' flat', List.singleton_inj, Component.normal.injEq,
    eq_iff]

/-- What stands behind the last dot of a text can be told from it. -/
theorem append_dot_inj {front front' back back' : List Char} (undotted : '.' ∉ back)
    (undotted' : '.' ∉ back') (same : front ++ '.' :: back = front' ++ '.' :: back') :
    front = front' ∧ back = back' := by
  rcases List.append_eq_append_iff.mp same with ⟨more, rfl, rest⟩ | ⟨more, rfl, rest⟩
  · cases more with
    | nil => exact ⟨(List.append_nil _).symm, (List.cons.inj rest).2⟩
    | cons c more =>
      obtain ⟨-, rfl⟩ := List.cons.inj rest
      exact absurd (List.mem_append_right _ List.mem_cons_self) undotted
  · cases more with
    | nil => exact ⟨List.append_nil _, (List.cons.inj rest).2.symm⟩
    | cons c more =>
      obtain ⟨-, rfl⟩ := List.cons.inj rest
      exact absurd (List.mem_append_right _ List.mem_cons_self) undotted'

/-- **Where the function has no dot, the text of module and function tells both.** -/
theorem text_eq_iff (undotted : '.' ∉ function.toList) (undotted' : '.' ∉ function'.toList) :
    owner ++ "." ++ function = owner' ++ "." ++ function' ↔
      owner = owner' ∧ function = function' := by
  constructor
  · intro same
    have chars : owner.toList ++ '.' :: function.toList =
        owner'.toList ++ '.' :: function'.toList := by
      simpa using congrArg String.toList same
    obtain ⟨owners, functions⟩ := append_dot_inj undotted undotted' chars
    exact ⟨String.toList_inj.mp owners, String.toList_inj.mp functions⟩
  · rintro ⟨rfl, rfl⟩
    rfl

end drawingName

/-! ## Requests -/

open Files (Disk)

structure Request where
  disk : Disk
  source : Path
  function : String
  format : Option ChartFormat := none

namespace Request

variable (workbench : Workbench) (request : Request)

def trace : Except Failure Trace :=
  workbench.trace request.disk (workbench.index request.disk) request.source request.function

def chosenFormat : ChartFormat := request.format.getD workbench.config.format

def output : Except Failure Path :=
  (workbench.drawing request.disk request.source request.function none request.format).map Prod.fst

end Request

namespace Workbench

variable {workbench : Workbench} {request : Request} {trace : Trace}

theorem output_of_trace (traced : request.trace workbench = .ok trace) :
    request.output workbench = .ok (workbench.config.project.outputFolder.join
      ⟨drawingName trace.entryOwner request.function (request.chosenFormat workbench)⟩) := by
  unfold Request.trace at traced
  unfold Request.output drawing
  rw [traced]
  rfl

theorem isModuleName_entryOwner (traced : request.trace workbench = .ok trace) :
    Elixir.IsModuleName trace.entryOwner := by
  unfold Request.trace Workbench.trace at traced
  exact Trace.isModuleName_entryOwner (mapError_eq_ok_iff.mp traced)

/-- Whether there is a drawing does not depend on the function. -/
theorem exists_trace (traced : request.trace workbench = .ok trace) (function : String) :
    ∃ other, ({ request with function } : Request).trace workbench = .ok other := by
  unfold Request.trace Workbench.trace Trace.ofPath at traced ⊢
  cases found : workbench.reader.fetch (workbench.texts request.disk) request.source with
  | notFound => exact ⟨_, rfl⟩
  | failed error =>
    rw [found] at traced
    cases traced
  | unit unit => exact ⟨_, rfl⟩

/-- **Where drawings go is told by their formats and by the texts of module and function.** Where
the calls of one function can be drawn, those of any other can, whether it is there or not. A
drawing goes below the output folder, and right into it exactly if its function has no slash. Of
those, two go to one place exactly if their formats and the texts of module and function are the
same, so not if they differ in module, function or format and no function has a dot. -/
theorem default_outputs_by_text (workbench : Workbench) (a b : Request) (s t : Trace)
    (traced : a.trace workbench = .ok s) (traced' : b.trace workbench = .ok t) :
    (∀ function, ∃ r, ({ a with function } : Request).trace workbench = .ok r) ∧
    ∃ path path', a.output workbench = .ok path ∧ b.output workbench = .ok path' ∧
      path.components = workbench.config.project.outputFolder.components ++
        (Path.mk (drawingName s.entryOwner a.function (a.chosenFormat workbench))).components ∧
      path'.components = workbench.config.project.outputFolder.components ++
        (Path.mk (drawingName t.entryOwner b.function (b.chosenFormat workbench))).components ∧
      (path.IsIn workbench.config.project.outputFolder ↔ '/' ∉ a.function.toList) ∧
      (path'.IsIn workbench.config.project.outputFolder ↔ '/' ∉ b.function.toList) ∧
      ('/' ∉ a.function.toList → '/' ∉ b.function.toList →
        (path.same path' = true ↔ a.chosenFormat workbench = b.chosenFormat workbench ∧
          s.entryOwner ++ "." ++ a.function = t.entryOwner ++ "." ++ b.function)) ∧
      ('/' ∉ a.function.toList → '/' ∉ b.function.toList →
        '.' ∉ a.function.toList → '.' ∉ b.function.toList →
        (s.entryOwner, a.function, a.chosenFormat workbench) ≠
          (t.entryOwner, b.function, b.chosenFormat workbench) → path.same path' = false) := by
  have isOwner := isModuleName_entryOwner traced
  have isOwner' := isModuleName_entryOwner traced'
  refine ⟨exists_trace traced, _, _, output_of_trace traced, output_of_trace traced',
    Path.components_join _ (drawingName.startsInName isOwner _ _),
    Path.components_join _ (drawingName.startsInName isOwner' _ _),
    drawingName.isIn_iff isOwner _, drawingName.isIn_iff isOwner' _, ?_, ?_⟩
  · exact drawingName.same_join_iff _ isOwner isOwner'
  · intro flat flat' undotted undotted' differ
    rw [← Bool.not_eq_true, drawingName.same_join_iff _ isOwner isOwner' flat flat',
      drawingName.text_eq_iff undotted undotted']
    rintro ⟨format, owner, function⟩
    exact differ (by rw [format, owner, function])

/-- A workbench with a module and a module that is named as if it stood in it. -/
def dottedWorkbench : Workbench where
  config := { project := { locations := [] } }
  reader := ⟨{}, by decide⟩
  memory := some ⟨[(⟨"a.ex"⟩, "defmodule A do end"), (⟨"ab.ex"⟩, "defmodule A.B do end")]⟩

/-- A request for one of the two modules. -/
def dottedRequest (source : Path) (function : String) : Request where
  disk := { root := .folder [] }
  source
  function

/-- What stands behind a dot may be of the module or of the function, and both drawings go to one
place. -/
theorem default_outputs_by_text_dotted :
    ((dottedRequest ⟨"a.ex"⟩ "B.c").trace dottedWorkbench).map Trace.entryOwner = .ok "A" ∧
    ((dottedRequest ⟨"ab.ex"⟩ "c").trace dottedWorkbench).map Trace.entryOwner = .ok "A.B" ∧
    (dottedRequest ⟨"a.ex"⟩ "B.c").output dottedWorkbench = .ok ⟨"diagrams/A.B.c.md"⟩ ∧
    (dottedRequest ⟨"ab.ex"⟩ "c").output dottedWorkbench = .ok ⟨"diagrams/A.B.c.md"⟩ := by
  decide +kernel

/-- A function that neither module has is drawn for both, in two places. -/
theorem default_outputs_by_text_apart :
    ∃ s t, (dottedRequest ⟨"a.ex"⟩ "c").trace dottedWorkbench = .ok s ∧
      (dottedRequest ⟨"ab.ex"⟩ "c").trace dottedWorkbench = .ok t ∧
      ∃ path path', (dottedRequest ⟨"a.ex"⟩ "c").output dottedWorkbench = .ok path ∧
        (dottedRequest ⟨"ab.ex"⟩ "c").output dottedWorkbench = .ok path' ∧
        path.IsIn ⟨"diagrams"⟩ ∧ path'.IsIn ⟨"diagrams"⟩ ∧ path.same path' = false := by
  have traced : (dottedRequest ⟨"a.ex"⟩ "c").trace dottedWorkbench = .ok ⟨"A", []⟩ := by
    decide +kernel
  have traced' : (dottedRequest ⟨"ab.ex"⟩ "c").trace dottedWorkbench = .ok ⟨"A.B", []⟩ := by
    decide +kernel
  obtain ⟨-, path, path', goes, goes', -, -, isIn, isIn', -, apart⟩ :=
    default_outputs_by_text _ _ _ _ _ traced traced'
  exact ⟨_, _, traced, traced', path, path', goes, goes', isIn.mpr (by decide),
    isIn'.mpr (by decide), apart (by decide) (by decide) (by decide) (by decide) (by decide)⟩

end Workbench

end CallChart
