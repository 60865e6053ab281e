import CallChart.Proofs.Truncation
import Mathlib.Data.List.Flatten

/-!
# Listing arguments only adds calls

With `TraceOptions.withArguments` the arguments of a call are listed before
the call. A call in an argument is expanded like any other, inside every body
that is expanded, so the two listings differ at every level. Here the one
without arguments is found again in the one with them.

**The law** (`withArguments_adds_calls`): the calls without arguments are a
sublist of the calls with arguments. What is added neither uses up the limit
for a later call nor keeps a function from being expanded where it was
expanded before, since an expansion hangs on what stands above it and not on
what stands beside it.

The law is proved of any two graphs of calls of which one has fewer calls in
its bodies (`CallGraph.expansion_sublist`).
-/

namespace CallChart

/-! ## Bodies -/

mutual

/-- The calls that are seen without arguments are seen with them too, in the same order. -/
theorem Expr.visibleCalls_sublist :
    ∀ expr : Expr, (expr.visibleCalls false).Sublist (expr.visibleCalls true)
  | .pipe left right | .both left right => by
    rw [Expr.visibleCalls, Expr.visibleCalls]
    exact (Expr.visibleCalls_sublist left).append (Expr.visibleCalls_sublist right)
  | .remoteCall owner function arguments => by
    rw [Expr.visibleCalls, Expr.visibleCalls]
    exact (List.nil_sublist _).append (List.Sublist.refl _)
  | .localCall _ items | .block items => by
    rw [Expr.visibleCalls, Expr.visibleCalls]
    exact Expr.visibleCallsAll_sublist items
  | .variable _ | .inert => List.Sublist.refl _

/-- The same of expressions in order. -/
theorem Expr.visibleCallsAll_sublist :
    ∀ items : List Expr,
      (Expr.visibleCallsAll false items).Sublist (Expr.visibleCallsAll true items)
  | [] => List.Sublist.refl _
  | item :: items => by
    rw [Expr.visibleCallsAll, Expr.visibleCallsAll]
    exact (Expr.visibleCalls_sublist item).append (Expr.visibleCallsAll_sublist items)

end

/-! ## Graphs -/

namespace CallGraph

variable {g g' : CallGraph} {limit : Option Nat} {ancestors : Finset FunctionKey} {depth : Nat}
  {caller : String} {callees callees' : List FunctionKey}

/-- The same functions have bodies, and the bodies of one graph have fewer calls. -/
def Sparser (g g' : CallGraph) : Prop :=
  ∀ key, Option.Rel List.Sublist (g.callees? key) (g'.callees? key)

/-- A body with fewer calls lists fewer calls, if each call has fewer calls after it. -/
theorem listing_sublist_of
    (below : ∀ key, (g.expansion limit ancestors depth key).Sublist
      (g'.expansion limit ancestors depth key)) (fewer : callees.Sublist callees') :
    (g.listing limit ancestors depth caller callees).Sublist
      (g'.listing limit ancestors depth caller callees') := by
  have each : (g.listing limit ancestors depth caller callees).Sublist
      (g'.listing limit ancestors depth caller callees) :=
    List.Sublist.flatMap_right callees fun key _ => (below key).cons_cons (key.calledBy caller)
  exact each.trans (fewer.flatMap _)

/-- **A call has fewer calls after it in a sparser graph.** Both graphs enter the same functions:
whether one may be entered is decided by its ancestors and its depth, and these are the same in
both. -/
theorem expansion_sublist (sparser : g.Sparser g') (key : FunctionKey) :
    (g.expansion limit ancestors depth key).Sublist (g'.expansion limit ancestors depth key) := by
  induction ancestors using g.ancestors_induction generalizing depth key with
  | inside ancestors ih =>
    have bodies := sparser key
    cases found : g.callees? key with
    | none =>
      rw [expansion_of_none found]
      exact List.nil_sublist _
    | some callees =>
      cases found' : g'.callees? key with
      | none =>
        rw [found, found'] at bodies
        cases bodies
      | some callees' =>
        rw [found, found'] at bodies
        cases bodies with
        | some fewer =>
          rw [expansion_of_some found, expansion_of_some found']
          by_cases admitted : key ∉ ancestors ∧ limit.all (depth < ·) = true
          · rw [if_pos admitted, if_pos admitted]
            exact listing_sublist_of (ih key (mem_keys_of_callees? found) admitted.1) fewer
          · rw [if_neg admitted]
            exact List.nil_sublist _

end CallGraph

/-- An index without the arguments is sparser than with them. -/
theorem Index.callGraph_sparser (index : Index) :
    (index.callGraph false).Sparser (index.callGraph true) := by
  intro key
  cases body : index.body? key.owner key.function with
  | none =>
    rw [Index.callees?_of_none body, Index.callees?_of_none body]
    exact .none
  | some expr =>
    rw [Index.callees?_of_some false body, Index.callees?_of_some true body]
    exact .some (Expr.visibleCalls_sublist expr)

/-- **Listing arguments only adds calls.** Whatever the limit, the calls of a function without those
in arguments stand among the calls with them, in the same order and each as often, and the module
that the trace starts from is the same. -/
theorem withArguments_adds_calls (index : Index) (limit : Option Nat) (unit : SourceUnit)
    (function : String) :
    let trace (withArguments : Bool) := Trace.ofUnit index ⟨limit, withArguments⟩ unit function
    (trace false).calls.Sublist (trace true).calls ∧
      (trace false).entryOwner = (trace true).entryOwner := by
  intro trace
  refine ⟨?_, Trace.entryOwner_ofUnit _ _⟩
  cases found : unit.definition? function with
  | none =>
    have empty : (trace false).calls = [] := by simp only [trace, Trace.ofUnit, found]
    rw [empty]
    exact List.nil_sublist _
  | some entry =>
    obtain ⟨owner, definition⟩ := entry
    simp only [trace, Trace.calls_ofUnit_of_some index _ found]
    exact CallGraph.listing_sublist_of (CallGraph.expansion_sublist index.callGraph_sparser)
      (Expr.visibleCalls_sublist definition.body)

/-- The call in an argument is expanded before the call that it is an argument of, and both
expansions of the function that is called twice stay. -/
example :
    let a : ModuleOutline :=
      ⟨"A", [⟨"go", .remoteCall "B" "one" [.remoteCall "C" "two" []]⟩]⟩
    let b : ModuleOutline := ⟨"B", [⟨"one", .remoteCall "C" "two" []⟩]⟩
    let c : ModuleOutline := ⟨"C", [⟨"two", .remoteCall "D" "three" []⟩]⟩
    let index := Index.empty.addUnit ⟨⟨"b.ex"⟩, [b, c]⟩
    (Trace.ofUnit index ⟨none, true⟩ ⟨⟨"a.ex"⟩, [a]⟩ "go").calls =
      [⟨"A", "C", "two"⟩, ⟨"C", "D", "three"⟩, ⟨"A", "B", "one"⟩, ⟨"B", "C", "two"⟩,
        ⟨"C", "D", "three"⟩] := by
  decide

end CallChart
