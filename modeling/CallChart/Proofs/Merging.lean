import CallChart.Proofs.ByteOrder
import CallChart.Proofs.Keys

/-!
# The last definition of a function wins

Units are merged into an index one after another, and the modules of a unit
one after another. What the index then holds of a module is what all its
outlines define, written in order (`Index.functionsOf_foldl_addModule`), and
so the body of a function is that of its last definition.

**The law** (`ofPaths_last_definition_wins`) says this of a whole run over a list
of paths, together with what the run reports: each path whose unit cannot be
loaded leaves one diagnostic, in its place, and nothing else.

Which units load is said by the store and the reader alone
(`SourceReader.unit?`, `SourceReader.skipped?`).
-/

namespace CallChart

/-! ## What a table lists -/

namespace Table

variable {α : Type}

/-- The names listed are those that have a value. -/
theorem mem_keys {table : Table α} {name : String} :
    name ∈ table.keys ↔ (table.get? name).isSome := by
  rw [Option.isSome_iff_exists]
  constructor
  · intro mem
    obtain ⟨⟨name, value⟩, hentry, rfl⟩ := List.mem_map.mp mem
    exact ⟨value, get?_eq_some_iff.mpr hentry⟩
  · rintro ⟨value, found⟩
    exact List.mem_map.mpr ⟨_, get?_eq_some_iff.mp found, rfl⟩

/-- The names are listed in the order of their bytes. -/
theorem pairwise_bytes_keys (table : Table α) :
    table.keys.Pairwise (Text.bytes · < Text.bytes ·) :=
  List.pairwise_map.mpr (table.increasing.imp Text.bytes_lt_of_lt)

end Table

namespace Index

/-! ## The functions of one module -/

/-- The body of the last definition of a function. -/
def lastDefined (definitions : List Definition) (function : String) : Option Expr :=
  ((definitions.filter (·.name = function)).getLast?).map Definition.body

def definitionsOf (modules : List ModuleOutline) (owner : String) : List Definition :=
  (modules.filter (·.name = owner)).flatMap ModuleOutline.definitions

/-- A function is defined last by a later definition, if there is one. -/
theorem lastDefined_cons (f : Definition) (definitions : List Definition) (function : String) :
    lastDefined (f :: definitions) function =
      (lastDefined definitions function).or (if f.name = function then some f.body else none) := by
  unfold lastDefined
  by_cases same : f.name = function
  · rw [List.filter_cons_of_pos (by simpa using same), if_pos same, List.getLast?_cons]
    cases (definitions.filter (·.name = function)).getLast? <;> rfl
  · rw [List.filter_cons_of_neg (by simpa using same), if_neg same, Option.or_none]

/-- **Functions written over others**: the last one written is found, or what was there. -/
theorem get?_addFunctions (functions : Table Expr) (definitions : List Definition)
    (function : String) :
    (addFunctions functions definitions).get? function =
      (lastDefined definitions function).or (functions.get? function) := by
  induction definitions generalizing functions with
  | nil => rfl
  | cons f definitions ih =>
    show (addFunctions (functions.insert f.name f.body) definitions).get? function = _
    rw [ih, Table.get?_insert, lastDefined_cons, Option.or_assoc]
    split <;> rfl

/-- A function is defined when a definition has its name. -/
theorem isSome_lastDefined {definitions : List Definition} {function : String} :
    (lastDefined definitions function).isSome ↔ ∃ f ∈ definitions, f.name = function := by
  rw [lastDefined, Option.isSome_map, List.getLast?_isSome, Ne, List.filter_eq_nil_iff]
  simp only [decide_eq_true_eq, not_forall, not_not, exists_prop]

/-! ## The modules of an index -/

/-- Adding an outline adds to the functions of its module and leaves those of others. -/
theorem functionsOf_addModule (modules : Table (Table Expr)) (m : ModuleOutline) (owner : String) :
    functionsOf (addModule modules m) owner =
      if m.name = owner then addFunctions (functionsOf modules owner) m.definitions
      else functionsOf modules owner := by
  rw [addModule, functionsOf, Table.get?_insert]
  by_cases same : m.name = owner
  · rw [if_pos same, if_pos same, same]
    rfl
  · rw [if_neg same, if_neg same]
    rfl

/-- **The functions of a module are those of all its outlines, written in order.** -/
theorem functionsOf_foldl_addModule (modules : Table (Table Expr)) (added : List ModuleOutline)
    (owner : String) :
    functionsOf (added.foldl addModule modules) owner =
      addFunctions (functionsOf modules owner) (definitionsOf added owner) := by
  induction added generalizing modules with
  | nil => rfl
  | cons m added ih =>
    rw [List.foldl_cons, ih, functionsOf_addModule]
    by_cases same : m.name = owner
    · rw [if_pos same, definitionsOf, definitionsOf, List.filter_cons_of_pos (by simpa using same),
        List.flatMap_cons, addFunctions, addFunctions, addFunctions, List.foldl_append]
    · rw [if_neg same, definitionsOf, definitionsOf, List.filter_cons_of_neg (by simpa using same)]

/-- A module is there when it was before or one of its outlines is added, be it without
functions. -/
theorem contains_foldl_addModule (modules : Table (Table Expr)) (added : List ModuleOutline)
    (owner : String) :
    (added.foldl addModule modules).contains owner = true ↔
      (∃ m ∈ added, m.name = owner) ∨ modules.contains owner = true := by
  induction added generalizing modules with
  | nil => simp
  | cons m added ih =>
    have first : (addModule modules m).contains owner = true ↔
        m.name = owner ∨ modules.contains owner = true := by
      rw [addModule, Table.contains, Table.contains, Table.get?_insert]
      by_cases same : m.name = owner <;> simp [same]
    rw [List.foldl_cons, ih, first, List.exists_mem_cons_iff, or_left_comm, or_assoc]

/-- The body of a function is looked up among the functions of its module. -/
theorem body?_eq (index : Index) (owner function : String) :
    index.body? owner function = (functionsOf index.modules owner).get? function := by
  rw [body?, functionsOf]
  cases index.modules.get? owner <;> rfl

/-- The body of a function after a unit is merged is the last one that the unit has for it, or the
one that was there. -/
theorem body?_addUnit (index : Index) (unit : SourceUnit) (owner function : String) :
    (index.addUnit unit).body? owner function =
      (lastDefined (definitionsOf unit.modules owner) function).or
        (index.body? owner function) := by
  rw [body?_eq, body?_eq, addUnit, functionsOf_foldl_addModule, get?_addFunctions]

end Index

/-! ## Which units load -/

namespace SourceReader

variable (reader : SourceReader) (store : TextStore)

def unit? (path : Path) : Option SourceUnit :=
  (store.read? path).bind fun text => (reader.readUnit path text).toOption

/-- What is reported of a path: that there is no text, or what is wrong with it. -/
def skipped? (path : Path) : Option Diagnostic :=
  match store.read? path with
  | none => some ⟨path, .sourceNotFound⟩
  | some text =>
    match reader.readUnit path text with
    | .ok _ => none
    | .error error => some ⟨path, .unreadable error⟩

variable {reader store}

/-- A path either loads or is reported, never both. -/
theorem skipped?_isSome_iff {path : Path} :
    (reader.skipped? store path).isSome ↔ reader.unit? store path = none := by
  unfold skipped? unit?
  cases store.read? path with
  | none => simp
  | some text => cases hread : reader.readUnit path text <;> simp [hread, Except.toOption]

end SourceReader

namespace Index

variable {reader : SourceReader} {store : TextStore}

/-- What comes of loading a path is added: its modules if it loads, its diagnostic if not. -/
theorem add_fetch (index : Index) (path : Path) :
    index.add path (reader.fetch store path) =
      { modules := ((reader.unit? store path).toList.flatMap SourceUnit.modules).foldl addModule
          index.modules
        diagnostics := index.diagnostics ++ (reader.skipped? store path).toList } := by
  unfold SourceReader.fetch SourceReader.unit? SourceReader.skipped?
  cases store.read? path with
  | none => rfl
  | some text =>
    cases hread : reader.readUnit path text <;> simp [add, note, addUnit, hread, Except.toOption]

/-- **A run over paths adds the modules of those that load and the diagnostics of those that do
not**, each in order. -/
theorem foldl_add_fetch (index : Index) (paths : List Path) :
    paths.foldl (fun index path => index.add path (reader.fetch store path)) index =
      { modules := ((paths.filterMap (reader.unit? store)).flatMap SourceUnit.modules).foldl
          addModule index.modules
        diagnostics := index.diagnostics ++ paths.filterMap (reader.skipped? store) } := by
  induction paths generalizing index with
  | nil => simp
  | cons path paths ih =>
    rw [List.foldl_cons, ih, add_fetch]
    simp only [List.filterMap_eq_flatMap_toList, List.flatMap_cons, List.flatMap_append,
      List.foldl_append, List.append_assoc]

/-- The modules of the index of some paths. -/
theorem modules_ofPaths (paths : List Path) :
    (ofPaths reader store paths).modules =
      ((paths.filterMap (reader.unit? store)).flatMap SourceUnit.modules).foldl addModule
        Table.empty := by
  rw [ofPaths, foldl_add_fetch]
  rfl

/-- The diagnostics of the index of some paths. -/
theorem diagnostics_ofPaths (paths : List Path) :
    (ofPaths reader store paths).diagnostics = paths.filterMap (reader.skipped? store) := by
  rw [ofPaths, foldl_add_fetch]
  rfl

end Index

/-- **The last definition wins, and every path is accounted for.** Of the units that load, in the
order of their paths, the last definition of a function is the one that the index has; a module is
in the index if one of the units declares it, be it without functions; modules and functions are
listed in the order of their bytes, each once; and each path whose unit does not load leaves one
diagnostic in its place, with the reason. A path that does not load may be left out without a
change to the modules, wherever it stands. -/
theorem ofPaths_last_definition_wins (reader : SourceReader) (store : TextStore)
    (paths : List Path) :
    let index := Index.ofPaths reader store paths
    let modules := (paths.filterMap (reader.unit? store)).flatMap SourceUnit.modules
    (∀ owner function, index.body? owner function =
      Index.lastDefined (Index.definitionsOf modules owner) function) ∧
    (∀ owner, index.hasModule owner = true ↔ ∃ m ∈ modules, m.name = owner) ∧
    (index.owners.Pairwise (Text.bytes · < Text.bytes ·) ∧
      ∀ owner, owner ∈ index.owners ↔ ∃ m ∈ modules, m.name = owner) ∧
    (∀ owner, (index.functionNames owner).Pairwise (Text.bytes · < Text.bytes ·) ∧
      ∀ function, function ∈ index.functionNames owner ↔
        ∃ m ∈ modules, m.name = owner ∧ ∃ f ∈ m.definitions, f.name = function) ∧
    (index.diagnostics.map fun d => (d.path, d.reason.message)) =
      (paths.filterMap fun path =>
        match store.read? path with
        | none => some (path, "source not found")
        | some text =>
          match reader.readUnit path text with
          | .ok _ => none
          | .error error => some (path, error.message)) ∧
    ∀ before path after, paths = before ++ path :: after → reader.unit? store path = none →
      index.modules = (Index.ofPaths reader store (before ++ after)).modules ∧
      ∃ d, reader.skipped? store path = some d ∧ index.diagnostics =
        (Index.ofPaths reader store before).diagnostics ++ d ::
          (Index.ofPaths reader store after).diagnostics := by
  intro index modules
  have functions : ∀ owner, Index.functionsOf index.modules owner =
      Index.addFunctions .empty (Index.definitionsOf modules owner) := by
    intro owner
    rw [Index.modules_ofPaths, Index.functionsOf_foldl_addModule]
    rfl
  have bodies : ∀ owner function, index.body? owner function =
      Index.lastDefined (Index.definitionsOf modules owner) function := by
    intro owner function
    rw [Index.body?_eq, functions, Index.get?_addFunctions, Table.get?_empty, Option.or_none]
  have declared : ∀ owner, index.hasModule owner = true ↔ ∃ m ∈ modules, m.name = owner := by
    intro owner
    rw [Index.hasModule, Index.modules_ofPaths, Index.contains_foldl_addModule]
    exact or_iff_left (by simp [Table.contains])
  refine ⟨bodies, declared, ⟨index.modules.pairwise_bytes_keys, fun owner => ?_⟩,
    fun owner => ⟨Table.pairwise_bytes_keys _, fun function => ?_⟩, ?_, ?_⟩
  · rw [← declared, Index.owners, Table.mem_keys]
    rfl
  · rw [Index.functionNames, Table.mem_keys, ← Index.body?_eq, bodies, Index.isSome_lastDefined]
    simp only [Index.definitionsOf, List.mem_flatMap, List.mem_filter, decide_eq_true_eq]
    constructor
    · rintro ⟨f, ⟨m, ⟨hm, howner⟩, hf⟩, hname⟩
      exact ⟨m, hm, howner, f, hf, hname⟩
    · rintro ⟨m, hm, howner, f, hf, hname⟩
      exact ⟨f, ⟨m, ⟨hm, howner⟩, hf⟩, hname⟩
  · rw [Index.diagnostics_ofPaths, List.map_filterMap]
    refine List.filterMap_congr fun path _ => ?_
    unfold SourceReader.skipped?
    cases store.read? path with
    | none => rfl
    | some text => cases hread : reader.readUnit path text <;> simp [hread, SkipReason.message]
  · intro before path after split fails
    obtain ⟨d, hd⟩ := Option.isSome_iff_exists.mp (SourceReader.skipped?_isSome_iff.mpr fails)
    refine ⟨?_, d, hd, ?_⟩
    · rw [Index.modules_ofPaths, Index.modules_ofPaths, split, List.filterMap_append,
        List.filterMap_append, List.filterMap_cons_none fails]
    · rw [Index.diagnostics_ofPaths, Index.diagnostics_ofPaths, Index.diagnostics_ofPaths, split,
        List.filterMap_append, List.filterMap_cons_some hd]

/-- Two units define the same function, and between them stand a path without a text and one whose
text is in no known language. The body of the second unit is kept, and the two others leave their
diagnostics. -/
theorem ofPaths_last_definition_wins_interleaved :
    let reader : SourceReader := ⟨{}, by decide⟩
    let store : TextStore := KeptTexts.toTextStore
      ⟨[(⟨"a.ex"⟩, "defmodule A do def f,do: B.x end"),
        (⟨"b.ex"⟩, "defmodule A do def f,do: B.y end"), (⟨"c.md"⟩, "# A")]⟩
    let index := Index.ofPaths reader store [⟨"a.ex"⟩, ⟨"none.ex"⟩, ⟨"c.md"⟩, ⟨"b.ex"⟩]
    reader.unit? store ⟨"c.md"⟩ = none ∧
    index.modules = (Index.ofPaths reader store [⟨"a.ex"⟩, ⟨"none.ex"⟩, ⟨"b.ex"⟩]).modules ∧
    Trace.callsOf index {} ⟨"M", "g"⟩ (.remoteCall "A" "f" []) =
      [⟨"M", "A", "f"⟩, ⟨"A", "B", "y"⟩] ∧
    (index.diagnostics.map fun d => (d.path, d.reason.message)) =
      [(⟨"none.ex"⟩, "source not found"),
        (⟨"c.md"⟩, "Parser error: Could not detect language for file: c.md")] := by
  intro reader store index
  have fails : reader.unit? store ⟨"c.md"⟩ = none := by decide +kernel
  obtain ⟨_, _, _, _, _, leaves⟩ := ofPaths_last_definition_wins reader store
    [⟨"a.ex"⟩, ⟨"none.ex"⟩, ⟨"c.md"⟩, ⟨"b.ex"⟩]
  refine ⟨fails, ?_, ?_⟩
  · exact (leaves [⟨"a.ex"⟩, ⟨"none.ex"⟩] ⟨"c.md"⟩ [⟨"b.ex"⟩] rfl fails).1
  · decide +kernel

end CallChart
