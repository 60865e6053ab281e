import CallChart.Diagram
import CallChart.Proofs.Footprint

/-!
# Participants come in through calls

A diagram declares the callers and the callees of a trace as they are met,
after the entry module. In a list of calls that is made up, a caller may be met
that nothing called before. In the trace of a function it cannot be.

**The law** (`participants_are_called`): each call of a trace is made from the
entry module, or from a module that an earlier call, of a function with a body
in the index, leads to. So every caller has been declared when it is met, and
the participants are the entry module and then the other callees, each where
it is called first.

The first half is proved of the listing (`CallGraph.introduced_listing`). What
is listed inside a function is made from its module, and the call that leads
into the function stands before it. Coming back to an outer body changes
nothing, since what was introduced there stands further in front.
-/

namespace CallChart

namespace CallGraph

variable {g : CallGraph} {limit : Option Nat} {ancestors : Finset FunctionKey} {depth : Nat}
  {caller : String} {callees : List FunctionKey} {key : FunctionKey}

/-- Each call is made from the module given, or from one that an earlier call, of a function with a
body, leads to. -/
def Introduced (g : CallGraph) (caller : String) (calls : List Call) : Prop :=
  ∀ before call after, calls = before ++ call :: after →
    call.caller = caller ∨
      ∃ earlier ∈ before, earlier.callee = call.caller ∧ (g.callees? earlier.target).isSome

/-- No call needs no introduction. -/
theorem introduced_nil : g.Introduced caller [] := by
  intro before call after split
  cases before <;> cases split

/-- What is introduced stays so after other calls. -/
theorem introduced_append {first rest : List Call} (introduced : g.Introduced caller first)
    (introduced' : g.Introduced caller rest) : g.Introduced caller (first ++ rest) := by
  intro before call after split
  rcases List.append_eq_append_iff.mp split with ⟨between, rfl, hrest⟩ | ⟨tail, hfirst, hcall⟩
  · rcases introduced' between call after hrest with entry | ⟨earlier, mem, leads⟩
    · exact .inl entry
    · exact .inr ⟨earlier, List.mem_append_right first mem, leads⟩
  · cases tail with
    | nil =>
      rw [List.append_nil] at hfirst
      rcases introduced' [] call after hcall.symm with entry | ⟨earlier, mem, _⟩
      · exact .inl entry
      · cases mem
    | cons head tail =>
      obtain ⟨rfl, rfl⟩ := List.cons.inj hcall
      exact introduced before call tail hfirst

/-- A call introduces the calls that are made from the module of its function, if the function has
a body wherever there are such calls. -/
theorem introduced_call {inner : List Call} (introduced : g.Introduced key.owner inner)
    (body : inner ≠ [] → (g.callees? key).isSome) :
    g.Introduced caller (key.calledBy caller :: inner) := by
  intro before call after split
  cases before with
  | nil =>
    obtain ⟨rfl, _⟩ := List.cons.inj split
    exact .inl rfl
  | cons first before =>
    obtain ⟨rfl, rfl⟩ := List.cons.inj split
    rcases introduced before call after rfl with inside | ⟨earlier, mem, leads⟩
    · have found := body (List.append_ne_nil_of_right_ne_nil _ (List.cons_ne_nil _ _))
      exact .inr ⟨key.calledBy caller, List.mem_cons_self, inside.symm, found⟩
    · exact .inr ⟨earlier, List.mem_cons_of_mem _ mem, leads⟩

/-- Calls are introduced in a body, if those after each call are. -/
theorem introduced_listing_of
    (below : ∀ key, g.Introduced caller
      (key.calledBy caller :: g.expansion limit ancestors depth key)) :
    g.Introduced caller (g.listing limit ancestors depth caller callees) := by
  unfold listing
  induction callees with
  | nil => exact introduced_nil
  | cons key callees ih =>
    rw [List.flatMap_cons]
    exact introduced_append (below key) ih

/-- **What is listed after a call is introduced by it.** By induction on the functions that are
left. -/
theorem introduced_expansion (key : FunctionKey) :
    g.Introduced caller (key.calledBy caller :: g.expansion limit ancestors depth key) := by
  induction ancestors using g.ancestors_induction generalizing depth caller key with
  | inside ancestors ih =>
    cases found : g.callees? key with
    | none =>
      rw [expansion_of_none found]
      exact introduced_call introduced_nil (absurd rfl)
    | some callees =>
      rw [expansion_of_some found]
      refine introduced_call ?_ fun _ => Option.isSome_of_eq_some found
      by_cases admitted : key ∉ ancestors ∧ limit.all (depth < ·) = true
      · rw [if_pos admitted]
        exact introduced_listing_of (ih key (mem_keys_of_callees? found) admitted.1)
      · rw [if_neg admitted]
        exact introduced_nil

/-- **The calls of a listing are introduced**, starting from the module that it is made from. -/
theorem introduced_listing :
    g.Introduced caller (g.listing limit ancestors depth caller callees) :=
  introduced_listing_of introduced_expansion

end CallGraph

/-- The calls of a trace are introduced, starting from its entry module. -/
theorem Trace.introduced_ofUnit (index : Index) (options : TraceOptions) (unit : SourceUnit)
    (function : String) :
    (index.callGraph options.withArguments).Introduced
      (Trace.ofUnit index options unit function).entryOwner
      (Trace.ofUnit index options unit function).calls := by
  rw [Trace.calls_ofUnit, Trace.entryOwner_ofUnit_eq]
  cases unit.entryCalls? options.withArguments function with
  | none => exact CallGraph.introduced_nil
  | some entry => exact CallGraph.introduced_listing

/-! ## Declaring what is met first -/

namespace Diagram

/-- Names are declared where they come first, unless they have been seen before. -/
theorem firstSeen_eq_eraseDups (seen names : List String) :
    firstSeen seen names = (names.filter (· ∉ seen)).eraseDups := by
  induction names generalizing seen with
  | nil => rfl
  | cons name names ih =>
    simp only [firstSeen, List.contains_iff_mem, ih]
    by_cases known : name ∈ seen
    · rw [if_pos known, List.filter_cons_of_neg (by simpa using known)]
    · rw [if_neg known, List.filter_cons_of_pos (by simpa using known), List.eraseDups_cons,
        List.filter_filter]
      refine congrArg (name :: List.eraseDups ·) (List.filter_congr fun other _ => ?_)
      simp [Bool.beq_eq_decide_eq]

/-- Callers that were seen, or called, before declare nothing. -/
theorem firstSeen_callers (seen : List String) (calls : List Call)
    (introduced : ∀ before call after, calls = before ++ call :: after →
      call.caller ∈ seen ∨ ∃ earlier ∈ before, earlier.callee = call.caller) :
    firstSeen seen (calls.flatMap fun call => [call.caller, call.callee]) =
      firstSeen seen (calls.map Call.callee) := by
  induction calls generalizing seen with
  | nil => rfl
  | cons first calls ih =>
    have seen_first : first.caller ∈ seen := by
      rcases introduced [] first calls rfl with known | ⟨_, mem, _⟩
      · exact known
      · cases mem
    -- one call on, its callee has been seen too
    have after_first : ∀ seen', seen ⊆ seen' → first.callee ∈ seen' →
        ∀ before call after, calls = before ++ call :: after →
          call.caller ∈ seen' ∨ ∃ earlier ∈ before, earlier.callee = call.caller := by
      intro seen' more mem before call after split
      rcases introduced (first :: before) call after (split ▸ rfl) with known | ⟨earlier, at_, same⟩
      · exact .inl (more known)
      · rcases List.mem_cons.mp at_ with rfl | at_
        · exact .inl (same ▸ mem)
        · exact .inr ⟨earlier, at_, same⟩
    show firstSeen seen (first.caller :: first.callee :: _) = _
    rw [List.map_cons, firstSeen, if_pos (List.contains_iff_mem.mpr seen_first), firstSeen,
      firstSeen]
    by_cases known : seen.contains first.callee = true
    · rw [if_pos known, if_pos known]
      exact ih seen (after_first seen (List.Subset.refl _) (List.contains_iff_mem.mp known))
    · rw [if_neg known, if_neg known]
      exact congrArg _ (ih _ (after_first _ (List.subset_cons_self _ _) List.mem_cons_self))

/-- If callers are introduced by calls, the participants are the entry module and the other
callees. -/
theorem participantsOf_eq {trace : Trace}
    (introduced : ∀ before call after, trace.calls = before ++ call :: after →
      call.caller = trace.entryOwner ∨ ∃ earlier ∈ before, earlier.callee = call.caller) :
    participantsOf trace = trace.entryOwner ::
      ((trace.calls.map Call.callee).filter (· ≠ trace.entryOwner)).eraseDups := by
  have callers := firstSeen_callers [trace.entryOwner] trace.calls fun before call after split =>
    (introduced before call after split).imp_left List.mem_singleton.mpr
  rw [participantsOf, firstSeen, if_neg (by simp), callers, firstSeen_eq_eraseDups]
  simp only [List.mem_singleton, ne_eq]

end Diagram

/-- **Participants come in through calls.** Each call of a trace is made from the entry module, or
from the callee of a call before it whose function has a body in the index. So the diagram declares
the entry module and then the callees other than it, each once, in the order of their first calls,
and goes on with the requests and responses. -/
theorem participants_are_called (index : Index) (options : TraceOptions) (unit : SourceUnit)
    (function : String) :
    let trace := Trace.ofUnit index options unit function
    let callees := (trace.calls.map Call.callee).filter (· ≠ trace.entryOwner)
    (∀ before call after, trace.calls = before ++ call :: after →
      call.caller = trace.entryOwner ∨
        ∃ earlier ∈ before, earlier.callee = call.caller ∧
          (index.body? earlier.callee earlier.function).isSome) ∧
    Diagram.participantsOf trace = trace.entryOwner :: callees.eraseDups ∧
    (Diagram.ofTrace trace).lines =
      ["```mermaid", "sequenceDiagram"]
        ++ (trace.entryOwner :: callees.eraseDups).map ("participant " ++ ·)
        ++ trace.calls.flatMap Diagram.messagesOf ++ ["```", ""] := by
  intro trace callees
  have introduced := Trace.introduced_ofUnit index options unit function
  have called : ∀ before call after, trace.calls = before ++ call :: after →
      call.caller = trace.entryOwner ∨
        ∃ earlier ∈ before, earlier.callee = call.caller ∧
          (index.body? earlier.callee earlier.function).isSome := by
    intro before call after split
    rcases introduced before call after split with entry | ⟨earlier, mem, same, body⟩
    · exact .inl entry
    · exact .inr ⟨earlier, mem, same, (Option.isSome_map).symm.trans body⟩
  have participants : Diagram.participantsOf trace = trace.entryOwner :: callees.eraseDups := by
    refine Diagram.participantsOf_eq fun before call after split => ?_
    refine (called before call after split).imp_right ?_
    rintro ⟨earlier, mem, same, _⟩
    exact ⟨earlier, mem, same⟩
  refine ⟨called, participants, ?_⟩
  rw [Diagram.ofTrace, participants]
  rfl

/-- A module is called twice, and only the second call is of a function with a body. The call that
is made from there is introduced by that one, and the module is declared where it is called first.
-/
theorem participants_are_called_twice :
    let go : Expr := .both (.remoteCall "B" "x" []) (.remoteCall "C" "y" [])
    let b : ModuleOutline := ⟨"B", [⟨"x", .remoteCall "C" "z" []⟩]⟩
    let c : ModuleOutline := ⟨"C", [⟨"y", .remoteCall "A" "w" []⟩]⟩
    let index := Index.empty.addUnit ⟨⟨"b.ex"⟩, [b, c]⟩
    let trace := Trace.ofUnit index {} ⟨⟨"a.ex"⟩, [⟨"A", [⟨"go", go⟩]⟩]⟩ "go"
    let before : List Call := [⟨"A", "B", "x"⟩, ⟨"B", "C", "z"⟩, ⟨"A", "C", "y"⟩]
    trace.calls = before ++ [⟨"C", "A", "w"⟩] ∧
    (∃ earlier ∈ before, earlier.callee = "C" ∧
      (index.body? earlier.callee earlier.function).isSome) ∧
    Diagram.participantsOf trace = ["A", "B", "C"] := by
  intro go b c index trace before
  have calls : trace.calls = before ++ [⟨"C", "A", "w"⟩] := by decide
  obtain ⟨called, participants, _⟩ := participants_are_called index {}
    ⟨⟨"a.ex"⟩, [⟨"A", [⟨"go", go⟩]⟩]⟩ "go"
  refine ⟨calls, (called before ⟨"C", "A", "w"⟩ [] calls).resolve_left (by decide), ?_⟩
  rw [participants]
  decide

end CallChart
