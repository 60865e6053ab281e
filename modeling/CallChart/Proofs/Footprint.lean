import CallChart.Proofs.Expansion
import CallChart.Proofs.Merging

/-!
# What a trace reads of the index

A listing asks the index for the bodies of the functions that it lists as
called, and for no others. So two indexes that have the same bodies for these
give the same trace, and they need not even agree on the entry function, since
that one is never expanded.

Which functions are called is not known before the listing is made. The two
listings are compared side by side (`CallGraph.expansion_congr`): as long as
they have been the same, the next function asked for stands in the first one.
-/

namespace CallChart

def Call.target (call : Call) : FunctionKey := ⟨call.callee, call.function⟩

namespace CallGraph

variable {g g' : CallGraph} {limit : Option Nat} {ancestors : Finset FunctionKey} {depth : Nat}
  {caller : String} {callees : List FunctionKey} {key : FunctionKey}

/-- Two graphs have the same list for each function that is called, other than the ancestors. Also a
function without a body has to be without one in both. -/
def AgreeOn (g g' : CallGraph) (ancestors : Finset FunctionKey) (calls : List Call) : Prop :=
  ∀ call ∈ calls, call.target ∉ ancestors → g.callees? call.target = g'.callees? call.target

/-- Graphs agree on fewer calls below more ancestors. -/
theorem AgreeOn.mono {ancestors' : Finset FunctionKey} {calls calls' : List Call}
    (agree : g.AgreeOn g' ancestors calls) (more : ancestors ⊆ ancestors') (fewer : calls' ⊆ calls) :
    g.AgreeOn g' ancestors' calls' :=
  fun call mem fresh => agree call (fewer mem) fun mem' => fresh (more mem')

/-- A function that may not be entered has no expansion. -/
theorem expansion_of_not_admitted
    (refused : ¬(key ∉ ancestors ∧ limit.all (depth < ·) = true)) :
    g.expansion limit ancestors depth key = [] := by
  cases found : g.callees? key with
  | none => exact expansion_of_none found
  | some callees => rw [expansion_of_some found, if_neg refused]

/-- A call of a body is listed with its expansion. -/
theorem cons_expansion_subset_listing (mem : key ∈ callees) :
    key.calledBy caller :: g.expansion limit ancestors depth key ⊆
      g.listing limit ancestors depth caller callees :=
  fun _ listed => List.mem_flatMap.mpr ⟨key, mem, listed⟩

/-- Bodies have the same listing in graphs that agree on it, if calls have the same expansion. -/
theorem listing_congr_of
    (below : ∀ key, g.AgreeOn g' ancestors
        (key.calledBy caller :: g.expansion limit ancestors depth key) →
      g.expansion limit ancestors depth key = g'.expansion limit ancestors depth key)
    (agree : g.AgreeOn g' ancestors (g.listing limit ancestors depth caller callees)) :
    g.listing limit ancestors depth caller callees =
      g'.listing limit ancestors depth caller callees := by
  refine List.flatMap_congr fun key mem => ?_
  rw [below key (agree.mono subset_rfl (cons_expansion_subset_listing mem))]

/-- **A call has the same expansion in graphs that agree on it**: on the function called, and on
those called in the expansion that the first graph gives. By induction on the functions that are
left. -/
theorem expansion_congr (key : FunctionKey)
    (agree : g.AgreeOn g' ancestors
      (key.calledBy caller :: g.expansion limit ancestors depth key)) :
    g.expansion limit ancestors depth key = g'.expansion limit ancestors depth key := by
  induction ancestors using g.ancestors_induction generalizing depth caller key with
  | inside ancestors ih =>
    by_cases admitted : key ∉ ancestors ∧ limit.all (depth < ·) = true
    · have same : g.callees? key = g'.callees? key :=
        agree _ List.mem_cons_self admitted.1
      cases found : g.callees? key with
      | none => rw [expansion_of_none found, expansion_of_none (same ▸ found)]
      | some callees =>
        have expanded : g.expansion limit ancestors depth key =
            g.listing limit (insert key ancestors) (depth + 1) key.owner callees := by
          rw [expansion_of_some found, if_pos admitted]
        rw [expanded] at agree ⊢
        rw [expansion_of_some (same ▸ found), if_pos admitted]
        refine listing_congr_of (ih key (mem_keys_of_callees? found) admitted.1) ?_
        exact agree.mono (Finset.subset_insert _ _) (List.subset_cons_self _ _)
    · rw [expansion_of_not_admitted admitted, expansion_of_not_admitted admitted]

/-- Bodies have the same listing in graphs that agree on the listing of the first. -/
theorem listing_congr
    (agree : g.AgreeOn g' ancestors (g.listing limit ancestors depth caller callees)) :
    g.listing limit ancestors depth caller callees =
      g'.listing limit ancestors depth caller callees :=
  listing_congr_of expansion_congr agree

end CallGraph

/-! ## The law -/

/-- Graphs of indexes agree where the indexes have the same body. -/
theorem Index.callees?_congr {index index' : Index} {withArguments : Bool} {key : FunctionKey}
    (same : index.body? key.owner key.function = index'.body? key.owner key.function) :
    (index.callGraph withArguments).callees? key = (index'.callGraph withArguments).callees? key := by
  simp only [Index.callGraph, same]

/-- A unit that does not define a function leaves its body as it was. -/
theorem Index.body?_addUnit_of_undefined {index : Index} {merged : SourceUnit}
    {owner function : String}
    (undefined : ∀ m ∈ merged.modules, ∀ f ∈ m.definitions,
      (⟨owner, function⟩ : FunctionKey) ≠ ⟨m.name, f.name⟩) :
    (index.addUnit merged).body? owner function = index.body? owner function := by
  rw [Index.body?_addUnit]
  cases found : Index.lastDefined (Index.definitionsOf merged.modules owner) function with
  | none => rfl
  | some body =>
    obtain ⟨f, hf, rfl⟩ := Index.isSome_lastDefined.mp (Option.isSome_of_eq_some found)
    obtain ⟨m, kept, hf⟩ := List.mem_flatMap.mp hf
    obtain ⟨hm, howner⟩ := List.mem_filter.mp kept
    refine absurd ?_ (undefined m hm f hf)
    rw [of_decide_eq_true howner]

/-- **A trace reads of the index the bodies of the functions that it lists as called**, and not that
of the entry function. An index that has the same bodies for these gives the same trace. So does an
index into which a unit is merged, if each function that the unit defines is the entry function or
one that is not called. -/
theorem ofUnit_reads_called_bodies (options : TraceOptions) (unit : SourceUnit)
    (function : String) (index : Index) :
    let trace (index : Index) := Trace.ofUnit index options unit function
    (∀ index' : Index,
      (∀ call ∈ (trace index).calls, unit.entryKey? function ≠ some call.target →
        index.body? call.callee call.function = index'.body? call.callee call.function) →
      trace index = trace index') ∧
    ∀ merged : SourceUnit,
      (∀ m ∈ merged.modules, ∀ f ∈ m.definitions,
        unit.entryKey? function = some ⟨m.name, f.name⟩ ∨
          ∀ call ∈ (trace index).calls, call.target ≠ ⟨m.name, f.name⟩) →
      trace (index.addUnit merged) = trace index := by
  intro trace
  have reads : ∀ index' : Index,
      (∀ call ∈ (trace index).calls, unit.entryKey? function ≠ some call.target →
        index.body? call.callee call.function = index'.body? call.callee call.function) →
      trace index = trace index' := by
    intro index' same
    cases found : unit.definition? function with
    | none => simp only [trace, Trace.ofUnit, found]
    | some entry =>
      obtain ⟨owner, definition⟩ := entry
      have start : unit.entryKey? function = some ⟨owner.name, function⟩ := by
        rw [SourceUnit.entryKey?, found]
        rfl
      have listed := Trace.calls_ofUnit_of_some index options found
      simp only [trace, Trace.ofUnit, found, Trace.callsOf_eq]
      congr 1
      refine CallGraph.listing_congr fun call mem fresh => Index.callees?_congr (same call ?_ ?_)
      · rw [listed]
        exact mem
      · rw [start, Ne, Option.some.injEq]
        exact fun same => fresh (Finset.mem_singleton.mpr same.symm)
  refine ⟨reads, fun merged apart => (reads _ fun call mem other => ?_).symm⟩
  refine (Index.body?_addUnit_of_undefined fun m hm f hf same => ?_).symm
  rcases apart m hm f hf with entry | uncalled
  · exact other (entry.trans (congrArg some same.symm))
  · exact uncalled call mem same

/-- The entry function is defined anew, with another body, and a function that nothing calls is
added: the trace stays as it was, although the entry function calls itself. -/
theorem ofUnit_reads_called_bodies_redefined :
    let a : ModuleOutline :=
      ⟨"A", [⟨"go", .both (.remoteCall "B" "x" []) (.remoteCall "A" "go" [])⟩]⟩
    let unit : SourceUnit := ⟨⟨"a.ex"⟩, [a]⟩
    let index := (Index.empty.addUnit unit).addUnit
      ⟨⟨"b.ex"⟩, [⟨"B", [⟨"x", .remoteCall "C" "y" []⟩]⟩]⟩
    let merged : SourceUnit := ⟨⟨"d.ex"⟩,
      [⟨"A", [⟨"go", .inert⟩]⟩, ⟨"B", [⟨"z", .remoteCall "D" "w" []⟩]⟩]⟩
    (∀ m ∈ merged.modules, ∀ f ∈ m.definitions,
      unit.entryKey? "go" = some ⟨m.name, f.name⟩ ∨
        ∀ call ∈ (Trace.ofUnit index {} unit "go").calls, call.target ≠ ⟨m.name, f.name⟩) ∧
    (Trace.ofUnit index {} unit "go").calls =
      [⟨"A", "B", "x"⟩, ⟨"B", "C", "y"⟩, ⟨"A", "A", "go"⟩] ∧
    Trace.ofUnit (index.addUnit merged) {} unit "go" = Trace.ofUnit index {} unit "go" := by
  intro a unit index merged
  have apart : ∀ m ∈ merged.modules, ∀ f ∈ m.definitions,
      unit.entryKey? "go" = some ⟨m.name, f.name⟩ ∨
        ∀ call ∈ (Trace.ofUnit index {} unit "go").calls, call.target ≠ ⟨m.name, f.name⟩ := by
    decide
  exact ⟨apart, by decide, (ofUnit_reads_called_bodies {} unit "go" index).2 merged apart⟩

end CallChart
