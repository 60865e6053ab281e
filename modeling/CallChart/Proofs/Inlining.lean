import CallChart.Proofs.Reach

/-!
# Without circles the guard does nothing

The simplest way to list calls has no guard: after each call of a function
with a body comes all of that body, as often as the function is called
(`CallGraph.Inlines`). It ends only where functions do not call each other in
a circle.

**The law** (`inlining_without_circles`): where it ends, it lists what the
listing with the guard does. The guard refuses a function that is among its
own ancestors, and an ancestor is a function that leads to the call. So the
guard can only refuse a function that leads to itself
(`CallGraph.not_mem_of_noCircle`), and never one that was expanded before,
beside the call.
-/

namespace CallChart

open Relation (TransGen ReflTransGen)

namespace CallGraph

variable (g : CallGraph) (entry : FunctionKey) (callees : List FunctionKey)

/-! ## Inlining -/

/-- The calls made from a module, each followed by those of the body of the function that is called,
whatever is being expanded. A function without a body adds nothing. A function that leads to itself
has no such list, as it would not end. -/
inductive Inlines : String → List FunctionKey → List Call → Prop
  | nil (caller : String) : Inlines caller [] []
  | call {caller : String} {key : FunctionKey} {callees : List FunctionKey}
      {inner calls : List Call} :
    Inlines key.owner ((g.callees? key).getD []) inner → Inlines caller callees calls →
      Inlines caller (key :: callees) (key.calledBy caller :: inner ++ calls)

/-- No function that the entry function leads to leads to itself. -/
def NoCircle : Prop :=
  ∀ key, ReflTransGen (g.VisiblyCalls entry callees) entry key →
    ¬ TransGen (g.VisiblyCalls entry callees) key key

variable {g entry callees} {caller : String} {key : FunctionKey} {calls calls' : List Call}
  {ancestors ancestors' : Finset FunctionKey} {depth depth' : Nat}

/-- **Inlining has one result at most.** -/
theorem Inlines.unique {body : List FunctionKey} (inlined : g.Inlines caller body calls)
    (inlined' : g.Inlines caller body calls') : calls = calls' := by
  induction inlined generalizing calls' with
  | nil caller =>
    cases inlined' with
    | nil => rfl
  | call _ _ ihInner ih =>
    cases inlined' with
    | call inner' rest' => rw [ihInner inner', ih rest']

/-- Calls are inlined one after another. -/
theorem inlines_flatMap {body : List FunctionKey} {listed : FunctionKey → List Call}
    (each : ∀ key ∈ body, g.Inlines key.owner ((g.callees? key).getD []) (listed key)) :
    g.Inlines caller body (body.flatMap fun key => key.calledBy caller :: listed key) := by
  induction body with
  | nil => exact .nil caller
  | cons key body ih =>
    rw [List.flatMap_cons]
    refine .call (each key List.mem_cons_self) (ih fun callee mem => ?_)
    exact each callee (List.mem_cons_of_mem key mem)

/-! ## What the guard refuses -/

/-- Where calls only go from functions of a higher rank to those of a lower one, there is no
circle. -/
theorem noCircle_of_rank (rank : FunctionKey → Nat)
    (lower : ∀ caller callee, g.VisiblyCalls entry callees caller callee →
      rank callee < rank caller) : g.NoCircle entry callees := by
  have descends : ∀ caller callee, TransGen (g.VisiblyCalls entry callees) caller callee →
      rank callee < rank caller := by
    intro caller callee leads
    induction leads with
    | single calls => exact lower _ _ calls
    | tail _ calls ih => exact (lower _ _ calls).trans ih
  exact fun key _ circle => Nat.lt_irrefl _ (descends key key circle)

/-- The body that the graph has of a function makes its calls, if the function is not the entry
function. -/
theorem visiblyCalls_of_mem {callee : FunctionKey} (other : key ≠ entry)
    (mem : callee ∈ (g.callees? key).getD []) : g.VisiblyCalls entry callees key callee := by
  cases found : g.callees? key with
  | none =>
    rw [found] at mem
    cases mem
  | some body =>
    rw [found] at mem
    exact ⟨body, (bodyCalls_of_ne other).trans found, mem⟩

/-- A function that the entry function leads to is not the entry function. -/
theorem ne_entry_of_noCircle (noCircle : g.NoCircle entry callees)
    (reached : TransGen (g.VisiblyCalls entry callees) entry key) : key ≠ entry := by
  rintro rfl
  exact noCircle key .refl reached

/-- **The guard refuses no function where each ancestor leads to it.** -/
theorem not_mem_of_noCircle (noCircle : g.NoCircle entry callees)
    (reached : TransGen (g.VisiblyCalls entry callees) entry key)
    (above : ∀ ancestor ∈ ancestors, TransGen (g.VisiblyCalls entry callees) ancestor key) :
    key ∉ ancestors :=
  fun mem => noCircle key reached.to_reflTransGen (above key mem)

/-- **A call is followed by the inlined body of its function**, below ancestors that lead to it. By
induction on the functions that are left. -/
theorem inlines_expansion (noCircle : g.NoCircle entry callees)
    (reached : TransGen (g.VisiblyCalls entry callees) entry key)
    (above : ∀ ancestor ∈ ancestors, TransGen (g.VisiblyCalls entry callees) ancestor key) :
    g.Inlines key.owner ((g.callees? key).getD []) (g.expansion none ancestors depth key) := by
  induction ancestors using g.ancestors_induction generalizing depth key with
  | inside ancestors ih =>
    have other := ne_entry_of_noCircle noCircle reached
    have fresh := not_mem_of_noCircle noCircle reached above
    cases found : g.callees? key with
    | none =>
      rw [expansion_of_none found]
      exact .nil key.owner
    | some body =>
      rw [expansion_of_some found, if_pos ⟨fresh, rfl⟩]
      refine inlines_flatMap fun callee mem => ?_
      have calls : g.VisiblyCalls entry callees key callee :=
        visiblyCalls_of_mem other (by rwa [found])
      refine ih key (mem_keys_of_callees? found) fresh (reached.tail calls) fun ancestor mem => ?_
      rcases Finset.mem_insert.mp mem with rfl | mem
      · exact .single calls
      · exact (above ancestor mem).tail calls

/-- **The expansion of a call does not hang on the ancestors** that lead to it, nor on its depth. -/
theorem expansion_eq_of_noCircle (noCircle : g.NoCircle entry callees)
    (reached : TransGen (g.VisiblyCalls entry callees) entry key)
    (above : ∀ ancestor ∈ ancestors, TransGen (g.VisiblyCalls entry callees) ancestor key)
    (above' : ∀ ancestor ∈ ancestors', TransGen (g.VisiblyCalls entry callees) ancestor key) :
    g.expansion none ancestors depth key = g.expansion none ancestors' depth' key :=
  (inlines_expansion noCircle reached above).unique (inlines_expansion noCircle reached above')

/-- The entry function leads to the calls in its body. -/
theorem visiblyCalls_entry (mem : key ∈ callees) : g.VisiblyCalls entry callees entry key :=
  ⟨callees, bodyCalls_entry, mem⟩

/-- The entry function alone leads to the calls in its body. -/
theorem transGen_of_mem_singleton (mem : key ∈ callees) :
    ∀ ancestor ∈ ({entry} : Finset FunctionKey),
      TransGen (g.VisiblyCalls entry callees) ancestor key := by
  intro ancestor above
  rw [Finset.mem_singleton.mp above]
  exact .single (visiblyCalls_entry mem)

/-- The listing of the entry function is its body, inlined. -/
theorem inlines_listing (noCircle : g.NoCircle entry callees) :
    g.Inlines caller callees (g.listing none {entry} 0 caller callees) :=
  inlines_flatMap fun _ mem =>
    inlines_expansion noCircle (.single (visiblyCalls_entry mem)) (transGen_of_mem_singleton mem)

end CallGraph

/-- **Without circles the guard does nothing.** If no function that the entry function leads to
leads to itself, the calls of the entry function without a limit are those of its inlined body, and
inlining has no other result. So each function has one expansion, which comes after every call of
it, however often it is called. -/
theorem inlining_without_circles (index : Index) (withArguments : Bool) {unit : SourceUnit}
    {function : String} {owner : ModuleOutline} {definition : Definition}
    (found : unit.definition? function = some (owner, definition))
    (noCircle : (index.callGraph withArguments).NoCircle ⟨owner.name, function⟩
      (definition.body.visibleCalls withArguments)) :
    let g := index.callGraph withArguments
    let entry : FunctionKey := ⟨owner.name, function⟩
    let callees := definition.body.visibleCalls withArguments
    let trace := Trace.ofUnit index ⟨none, withArguments⟩ unit function
    (∀ calls, g.Inlines owner.name callees calls ↔ calls = trace.calls) ∧
    ∃ full : FunctionKey → List Call,
      trace.calls = (callees.flatMap fun key => key.calledBy owner.name :: full key) ∧
      ∀ key, TransGen (g.VisiblyCalls entry callees) entry key →
        full key = ((g.callees? key).getD []).flatMap fun callee =>
          callee.calledBy key.owner :: full callee := by
  intro g entry callees trace
  have listed : trace.calls = g.listing none {entry} 0 owner.name callees :=
    Trace.calls_ofUnit_of_some index ⟨none, withArguments⟩ found
  rw [listed]
  refine ⟨fun calls => ⟨fun inlined => ?_, ?_⟩, g.expansion none ∅ 0, ?_, fun key reached => ?_⟩
  · exact inlined.unique (CallGraph.inlines_listing noCircle)
  · rintro rfl
    exact CallGraph.inlines_listing noCircle
  · refine List.flatMap_congr fun key mem => congrArg _ ?_
    exact CallGraph.expansion_eq_of_noCircle noCircle (.single (CallGraph.visiblyCalls_entry mem))
      (CallGraph.transGen_of_mem_singleton mem) (fun _ none_above => (nomatch none_above))
  · -- both sides inline the body of the function, and inlining has one result
    have none_above : ∀ callee, ∀ ancestor ∈ (∅ : Finset FunctionKey),
        TransGen (g.VisiblyCalls entry callees) ancestor callee :=
      fun _ _ mem => absurd mem (Finset.notMem_empty _)
    refine (CallGraph.inlines_expansion noCircle reached (none_above key)).unique ?_
    refine CallGraph.inlines_flatMap fun callee mem => ?_
    have calls : g.VisiblyCalls entry callees key callee :=
      CallGraph.visiblyCalls_of_mem (CallGraph.ne_entry_of_noCircle noCircle reached) mem
    exact CallGraph.inlines_expansion noCircle (reached.tail calls) (none_above callee)

/-- A function is called twice and calls a third. Its calls are listed after both, and inlining
lists the same. -/
theorem inlining_without_circles_repeated :
    let go : Definition :=
      ⟨"go", .both (.remoteCall "B" "once" []) (.remoteCall "B" "once" [])⟩
    let a : ModuleOutline := ⟨"A", [go]⟩
    let unit : SourceUnit := ⟨⟨"a.ex"⟩, [a]⟩
    let index := (Index.empty.addUnit unit).addUnit
      ⟨⟨"b.ex"⟩, [⟨"B", [⟨"once", .remoteCall "C" "leaf" []⟩]⟩]⟩
    let g := index.callGraph false
    let callees : List FunctionKey := [⟨"B", "once"⟩, ⟨"B", "once"⟩]
    unit.definition? "go" = some (a, go) ∧ g.NoCircle ⟨"A", "go"⟩ callees ∧
    g.Inlines "A" callees
      [⟨"A", "B", "once"⟩, ⟨"B", "C", "leaf"⟩, ⟨"A", "B", "once"⟩, ⟨"B", "C", "leaf"⟩] := by
  intro go a unit index g callees
  have found : unit.definition? "go" = some (a, go) := rfl
  have noCircle : g.NoCircle ⟨"A", "go"⟩ callees := by
    -- the modules stand in the order in which they call each other
    refine CallGraph.noCircle_of_rank (fun key => ["C", "B", "A"].idxOf key.owner) ?_
    rintro caller callee ⟨body, hbody, mem⟩
    by_cases first : caller = ⟨"A", "go"⟩
    · subst first
      cases hbody
      revert callee
      decide
    · rw [CallGraph.bodyCalls_of_ne first] at hbody
      have mem_keys : caller ∈ index.functionKeys :=
        List.mem_toFinset.mp (CallGraph.mem_keys_of_callees? hbody)
      have keys : index.functionKeys = [⟨"A", "go"⟩, ⟨"B", "once"⟩] := by decide
      rw [keys, List.mem_cons, List.mem_singleton] at mem_keys
      obtain rfl := mem_keys.resolve_left first
      have calls : g.callees? ⟨"B", "once"⟩ = some [⟨"C", "leaf"⟩] := by decide
      obtain rfl := Option.some.inj (calls.symm.trans hbody)
      obtain rfl := List.mem_singleton.mp mem
      decide
  exact ⟨found, noCircle, ((inlining_without_circles index false found noCircle).1 _).mpr (by decide)⟩

end CallChart
