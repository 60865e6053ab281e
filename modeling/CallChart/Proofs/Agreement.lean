import CallChart.Proofs.Merging
import CallChart.Proofs.Reach
import CallChart.Proofs.Truncation

/-!
# The index and a trace agree on every unit

The index of some paths and the trace of a function load units on their own,
and meet the same three outcomes: there is no text, the text cannot be read, or
there is a unit (`SourceReader.fetch_cases`). The index notes the first two as
diagnostics and merges the third; a trace is empty, an error, or the calls of
the function.

**The law** (`ofPath_agrees_with_index`): for a path that was indexed, what the
index says of it tells which of these the trace is, with the same reason. And
if there is a unit, every module that the trace calls from is in the index.

That a trace calls only from such modules is read off its chains
(`CallGraph.caller_of_mem_listing`): a call is made from the entry function's
module, or from the module of a function that was expanded.
-/

namespace CallChart

/-! ## What comes of a path -/

/-- An unreadable unit is not reported as a missing one. -/
theorem SourceError.message_ne (error : SourceError) :
    error.message ≠ SkipReason.sourceNotFound.message := by
  intro same
  -- the two texts differ in their first letter
  have first := congrArg (·.toList.head?) same
  simp [SourceError.message, SkipReason.message] at first

namespace SourceReader

variable (reader : SourceReader) (store : TextStore)

/-- **Loading a path has one of three outcomes**, and each of them is seen in the same way by what
reports a path and by what takes its unit. -/
theorem fetch_cases (path : Path) :
    (reader.fetch store path = .notFound ∧
      reader.skipped? store path = some ⟨path, .sourceNotFound⟩) ∨
    (∃ error, reader.fetch store path = .failed error ∧
      reader.skipped? store path = some ⟨path, .unreadable error⟩) ∨
    ∃ unit, reader.fetch store path = .unit unit ∧ reader.skipped? store path = none ∧
      reader.unit? store path = some unit := by
  unfold fetch skipped? unit?
  cases store.read? path with
  | none => exact .inl ⟨rfl, rfl⟩
  | some text =>
    cases hread : reader.readUnit path text with
    | error error => exact .inr (.inl ⟨error, by simp [hread], by simp [hread]⟩)
    | ok unit =>
      refine .inr (.inr ⟨unit, by simp [hread], by simp [hread], ?_⟩)
      rw [Option.bind_some, hread]
      rfl

variable {reader store} {path : Path} {d : Diagnostic}

/-- What is reported of a path is that it has no text or that its text cannot be read, under the
spelling of the path. -/
theorem skipped?_cases (reported : reader.skipped? store path = some d) :
    d = ⟨path, .sourceNotFound⟩ ∨ ∃ error, d = ⟨path, .unreadable error⟩ := by
  rcases reader.fetch_cases store path with ⟨_, same⟩ | ⟨error, _, same⟩ | ⟨_, _, same, _⟩
  · exact .inl (Option.some.inj (reported.symm.trans same))
  · exact .inr ⟨error, Option.some.inj (reported.symm.trans same)⟩
  · rw [reported] at same
    cases same

/-- A path is reported under its own spelling. -/
theorem path_of_skipped? (reported : reader.skipped? store path = some d) : d.path = path := by
  obtain rfl | ⟨error, rfl⟩ := skipped?_cases reported <;> rfl

end SourceReader

namespace Index

variable {reader : SourceReader} {store : TextStore} {paths : List Path}

/-- The diagnostics of an index are what is reported of its paths. -/
theorem mem_diagnostics_ofPaths {path : Path} (mem : path ∈ paths) {d : Diagnostic} :
    (d ∈ (ofPaths reader store paths).diagnostics ∧ d.path = path) ↔
      reader.skipped? store path = some d := by
  rw [diagnostics_ofPaths, List.mem_filterMap]
  constructor
  · rintro ⟨⟨path', _, reported⟩, rfl⟩
    rw [SourceReader.path_of_skipped? reported]
    exact reported
  · intro reported
    exact ⟨⟨path, mem, reported⟩, SourceReader.path_of_skipped? reported⟩

/-- The modules of a unit that was indexed are in the index. -/
theorem hasModule_ofPaths {path : Path} (mem : path ∈ paths) {unit : SourceUnit}
    (loads : reader.unit? store path = some unit) :
    ∀ m ∈ unit.modules, (ofPaths reader store paths).hasModule m.name = true := by
  intro m hm
  rw [hasModule, modules_ofPaths, contains_foldl_addModule]
  refine .inl ⟨m, List.mem_flatMap.mpr ⟨unit, ?_, hm⟩, rfl⟩
  exact List.mem_filterMap.mpr ⟨path, mem, loads⟩

/-- A function that has a body is one of a module in the index. -/
theorem hasModule_of_mem_keys {index : Index} {withArguments : Bool} {key : FunctionKey}
    (mem : key ∈ (index.callGraph withArguments).keys) : index.hasModule key.owner = true := by
  have there := mem_functionKeys.mp (List.mem_toFinset.mp mem)
  obtain ⟨body, found⟩ := Option.isSome_iff_exists.mp there
  obtain ⟨functions, hfunctions, _⟩ := Option.bind_eq_some_iff.mp found
  rw [hasModule, Table.contains, hfunctions]
  rfl

end Index

/-! ## What comes of a trace -/

namespace Trace

variable {index : Index} {options : TraceOptions} {reader : SourceReader} {store : TextStore}
  {path : Path} {function : String}

/-- A trace fails where the text of the path cannot be read. -/
theorem ofPath_eq_error_iff {error : SourceError} :
    ofPath index options reader store path function = .error error ↔
      reader.skipped? store path = some ⟨path, .unreadable error⟩ := by
  unfold ofPath
  rcases reader.fetch_cases store path with
    ⟨fetched, skipped⟩ | ⟨error', fetched, skipped⟩ | ⟨unit, fetched, skipped, _⟩
  all_goals simp [fetched, skipped]

/-- A trace is that of a missing unit where there is no text. -/
theorem ofPath_of_sourceNotFound
    (reported : reader.skipped? store path = some ⟨path, .sourceNotFound⟩) :
    ofPath index options reader store path function = .ok missing := by
  unfold ofPath
  rcases reader.fetch_cases store path with
    ⟨fetched, _⟩ | ⟨error, _, skipped⟩ | ⟨unit, _, skipped, _⟩
  · rw [fetched]
  all_goals
    rw [reported] at skipped
    cases skipped

/-- A trace is that of the unit where nothing is reported. -/
theorem ofPath_of_unreported (unreported : reader.skipped? store path = none) :
    ∃ unit, reader.unit? store path = some unit ∧
      ofPath index options reader store path function =
        .ok (ofUnit index options unit function) := by
  unfold ofPath
  rcases reader.fetch_cases store path with
    ⟨_, skipped⟩ | ⟨error, _, skipped⟩ | ⟨unit, fetched, _, loads⟩
  · rw [unreported] at skipped
    cases skipped
  · rw [unreported] at skipped
    cases skipped
  · exact ⟨unit, loads, by rw [fetched]⟩

end Trace

/-! ## Where the calls of a trace come from -/

/-- **A call is made from the module that the listing starts in, or from that of a function with a
body.** It is the last call of a chain, and what the chain goes through has a body. -/
theorem CallGraph.caller_of_mem_listing {g : CallGraph} {limit : Option Nat} {entry : FunctionKey}
    {caller : String} {callees : List FunctionKey} {call : Call}
    (mem : call ∈ g.listing limit {entry} 0 caller callees) :
    call.caller = caller ∨ ∃ key ∈ g.keys, key.owner = call.caller := by
  obtain ⟨ps, chain, found, _, rfl⟩ := mem_listing_iff.mp mem
  show (chain.above.map FunctionKey.owner).getLast?.getD caller = caller ∨
    ∃ key ∈ g.keys, key.owner = (chain.above.map FunctionKey.owner).getLast?.getD caller
  cases last : (chain.above.map FunctionKey.owner).getLast? with
  | none => exact .inl rfl
  | some owner =>
    obtain ⟨key, hkey, same⟩ := List.mem_map.mp (List.mem_of_getLast? last)
    exact .inr ⟨key, mem_keys_of_chainAt? found key hkey, same⟩

/-- The module that has the entry function is one of the unit's. -/
theorem SourceUnit.mem_modules_of_definition? {unit : SourceUnit} {function : String}
    {owner : ModuleOutline} {definition : Definition}
    (found : unit.definition? function = some (owner, definition)) : owner ∈ unit.modules := by
  obtain ⟨m, hm, there⟩ := List.exists_of_findSome?_eq_some found
  obtain ⟨_, _, same⟩ := Option.map_eq_some_iff.mp there
  cases same
  exact hm

namespace Trace

variable {index : Index} {options : TraceOptions} {unit : SourceUnit} {function : String}

/-- A trace is of a module that its unit declares, if there is one. -/
theorem entryOwner_mem_modules (declares : unit.modules ≠ []) :
    ∃ m ∈ unit.modules, m.name = (ofUnit index options unit function).entryOwner := by
  unfold ofUnit
  cases found : unit.definition? function with
  | none =>
    obtain ⟨first, rest, split⟩ := List.exists_cons_of_ne_nil declares
    refine ⟨first, by rw [split]; exact List.mem_cons_self, ?_⟩
    rw [SourceUnit.name?, split]
    rfl
  | some entry => exact ⟨entry.1, SourceUnit.mem_modules_of_definition? found, rfl⟩

/-- A unit without a module has no calls to list, and no name. -/
theorem ofUnit_of_no_module (empty : unit.modules = []) :
    ofUnit index options unit function = missing := by
  simp [ofUnit, SourceUnit.definition?, SourceUnit.name?, empty, missing]

/-- **A trace calls only from modules that are in the index**, if those of its unit are. -/
theorem hasModule_of_mem_calls (declared : ∀ m ∈ unit.modules, index.hasModule m.name = true)
    {call : Call} (mem : call ∈ (ofUnit index options unit function).calls) :
    index.hasModule call.caller = true := by
  cases found : unit.definition? function with
  | none =>
    rw [ofUnit, found] at mem
    cases mem
  | some entry =>
    obtain ⟨owner, definition⟩ := entry
    rw [calls_ofUnit_of_some index options found] at mem
    rcases CallGraph.caller_of_mem_listing mem with same | ⟨key, hkey, same⟩
    · rw [same]
      exact declared owner (SourceUnit.mem_modules_of_definition? found)
    · rw [← same]
      exact Index.hasModule_of_mem_keys hkey

end Trace

/-! ## The law -/

/-- **The index and a trace agree on every path that was indexed.** The trace of a function of the
path's unit fails with a reason if the index has a diagnostic for that spelling of the path, with
that reason and not for want of a text, and only then. If there is no text, the trace is that of a
missing unit. And if there is no diagnostic, the trace is of a module that the unit declares and
the index has, or that of a missing unit if none is declared; and the modules that it calls from
are all in the index. -/
theorem ofPath_agrees_with_index (reader : SourceReader) (store : TextStore)
    (options : TraceOptions) {paths : List Path} {path : Path} (mem : path ∈ paths)
    (function : String) :
    let index := Index.ofPaths reader store paths
    let outcome := Trace.ofPath index options reader store path function
    (∀ reason : String, (∃ error, outcome = .error error ∧ error.message = reason) ↔
      ∃ d ∈ index.diagnostics, d.path = path ∧ d.reason.message = reason ∧
        reason ≠ "source not found") ∧
    ((∃ d ∈ index.diagnostics, d.path = path ∧ d.reason.message = "source not found") →
      outcome = .ok ⟨"UnknownModule", []⟩) ∧
    ((∀ d ∈ index.diagnostics, d.path ≠ path) →
      ∃ unit trace, reader.unit? store path = some unit ∧ outcome = .ok trace ∧
        (unit.modules ≠ [] → (∃ m ∈ unit.modules, m.name = trace.entryOwner) ∧
          index.hasModule trace.entryOwner = true) ∧
        (unit.modules = [] → trace = ⟨"UnknownModule", []⟩) ∧
        ∀ call ∈ trace.calls, index.hasModule call.caller = true) := by
  intro index outcome
  have reported : ∀ {d}, (d ∈ index.diagnostics ∧ d.path = path) ↔
      reader.skipped? store path = some d := Index.mem_diagnostics_ofPaths mem
  refine ⟨fun reason => ⟨?_, ?_⟩, ?_, fun unreported => ?_⟩
  · rintro ⟨error, failed, rfl⟩
    obtain ⟨hd, hpath⟩ := reported.mpr (Trace.ofPath_eq_error_iff.mp failed)
    exact ⟨_, hd, hpath, rfl, error.message_ne⟩
  · rintro ⟨d, hd, hpath, rfl, other⟩
    have skipped := reported.mp ⟨hd, hpath⟩
    obtain rfl | ⟨error, rfl⟩ := SourceReader.skipped?_cases skipped
    · exact absurd rfl other
    · exact ⟨error, Trace.ofPath_eq_error_iff.mpr skipped, rfl⟩
  · rintro ⟨d, hd, hpath, reason⟩
    have skipped := reported.mp ⟨hd, hpath⟩
    obtain rfl | ⟨error, rfl⟩ := SourceReader.skipped?_cases skipped
    · exact Trace.ofPath_of_sourceNotFound skipped
    · exact absurd reason error.message_ne
  · have skipped : reader.skipped? store path = none := by
      refine Option.eq_none_iff_forall_ne_some.mpr fun d skipped => ?_
      obtain ⟨hd, hpath⟩ := reported.mpr skipped
      exact unreported d hd hpath
    obtain ⟨unit, loads, traced⟩ := Trace.ofPath_of_unreported skipped
    have declared := Index.hasModule_ofPaths mem loads
    refine ⟨unit, _, loads, traced, fun declares => ?_, Trace.ofUnit_of_no_module,
      fun call => Trace.hasModule_of_mem_calls declared⟩
    obtain ⟨m, hm, same⟩ := Trace.entryOwner_mem_modules declares
    exact ⟨⟨m, hm, same⟩, same ▸ declared m hm⟩

/-- Of four paths one has no text and one is in no known language. The index says so of both, and
their traces are that of a missing unit and an error with the same reason. A third path has a unit,
and the modules that its trace calls from are in the index. -/
theorem ofPath_agrees_with_index_interleaved :
    let reader : SourceReader := ⟨{}, by decide⟩
    let store : TextStore := KeptTexts.toTextStore
      ⟨[(⟨"a.ex"⟩, "defmodule A do def f,do: B.x end"), (⟨"c.md"⟩, "# A"),
        (⟨"b.ex"⟩, "defmodule B do def x,do: C.y end")]⟩
    let index := Index.ofPaths reader store [⟨"a.ex"⟩, ⟨"none.ex"⟩, ⟨"c.md"⟩, ⟨"b.ex"⟩]
    let outcome (path : Path) := Trace.ofPath index {} reader store path "f"
    (∃ error, outcome ⟨"c.md"⟩ = .error error ∧
      error.message = "Parser error: Could not detect language for file: c.md") ∧
    outcome ⟨"none.ex"⟩ = .ok ⟨"UnknownModule", []⟩ ∧
    outcome ⟨"a.ex"⟩ = .ok ⟨"A", [⟨"A", "B", "x"⟩, ⟨"B", "C", "y"⟩]⟩ ∧
    ∃ unit trace, reader.unit? store ⟨"a.ex"⟩ = some unit ∧ outcome ⟨"a.ex"⟩ = .ok trace ∧
      (unit.modules ≠ [] → (∃ m ∈ unit.modules, m.name = trace.entryOwner) ∧
        index.hasModule trace.entryOwner = true) ∧
      (unit.modules = [] → trace = ⟨"UnknownModule", []⟩) ∧
      ∀ call ∈ trace.calls, index.hasModule call.caller = true := by
  intro reader store index outcome
  have listed : ∀ path ∈ ([⟨"a.ex"⟩, ⟨"none.ex"⟩, ⟨"c.md"⟩] : List Path),
      path ∈ ([⟨"a.ex"⟩, ⟨"none.ex"⟩, ⟨"c.md"⟩, ⟨"b.ex"⟩] : List Path) := by decide
  have agrees := fun path mem => ofPath_agrees_with_index reader store {} (listed path mem) "f"
  let missing : Diagnostic := ⟨⟨"none.ex"⟩, .sourceNotFound⟩
  let unknown : Diagnostic := ⟨⟨"c.md"⟩, .unreadable (.unknownLanguage ⟨"c.md"⟩)⟩
  have diagnostics : index.diagnostics = [missing, unknown] := by decide +kernel
  refine ⟨((agrees ⟨"c.md"⟩ (by decide)).1 _).mpr ⟨unknown, ?_, rfl, rfl, by decide⟩,
    (agrees ⟨"none.ex"⟩ (by decide)).2.1 ⟨missing, ?_, rfl, rfl⟩, by decide +kernel,
    (agrees ⟨"a.ex"⟩ (by decide)).2.2 ?_⟩
  all_goals rw [diagnostics]
  · exact List.mem_cons_of_mem _ List.mem_cons_self
  · exact List.mem_cons_self
  · decide

end CallChart
