import CallChart.Proofs.Participants
import Mathlib.Data.List.Infix

/-!
# What a diagram declares and shows

A diagram keeps no record of which of its lines are declarations and which are
messages. `Diagram.participants` and `Diagram.messages` find them again by the
marks that stand in them, and names are free to hold these marks too.

**The law** (`diagram_read_by_marks`): a diagram declares every module that it
meets once, where it is met first, and then shows the request and the response
of each call. The declarations are read back as they are if and only if no
caller and no callee starts like a declaration, and the messages if and only if
no declared name holds the arrow.

Both conditions are exact because a mark cannot begin in one part of a line and
end in the next: no dash stands in the mark of declarations, and the arrow
starts with one.
-/

namespace CallChart

/-! ## Marks and what stands around them -/

/-- A list without `c` is a prefix up to the first `c`, or not at all. -/
theorem prefix_append_cons_iff {α : Type} {mark before after : List α} {c : α} (fresh : c ∉ mark) :
    mark <+: before ++ c :: after ↔ mark <+: before := by
  constructor
  · intro starts
    rcases List.prefix_or_prefix_of_prefix starts (List.prefix_append before (c :: after)) with
      inside | ⟨rest, rfl⟩
    · exact inside
    · -- what the mark has beyond `before` would start with `c`
      cases rest with
      | nil => simp
      | cons d rest =>
        have same : d = c := by
          have tail := (List.prefix_append_right_inj before).mp starts
          exact (List.cons_prefix_cons.mp tail).1
        simp [same] at fresh
  · intro inside
    exact inside.trans (List.prefix_append before (c :: after))

/-- A list that starts with `c` stands nowhere across the end of a list without `c`. -/
theorem cons_infix_append_iff {α : Type} {c : α} {mark before after : List α}
    (fresh : c ∉ before) : c :: mark <:+: before ++ after ↔ c :: mark <:+: after := by
  induction before with
  | nil => rfl
  | cons d before ih =>
    rw [List.mem_cons, not_or] at fresh
    rw [List.cons_append, List.infix_cons_iff, ih fresh.2]
    simp [List.cons_prefix_cons, fresh.1]

namespace Diagram

/-- A mark is held where it is a part of the text. -/
theorem holds_iff (mark text : List Char) : holds mark text = true ↔ mark <:+: text := by
  induction text with
  | nil => simp [holds]
  | cons c text ih =>
    rw [holds, Bool.or_eq_true, List.isPrefixOf_iff_prefix, ih, List.infix_cons_iff]

theorem afterMark?_append (mark : List Char) (rest : String) {line : String}
    (starts : line.toList = mark ++ rest.toList) : afterMark? mark line = some rest := by
  have cut : mark.isPrefixOf? line.toList = some rest.toList :=
    List.isPrefixOf?_eq_some_iff_append_eq.mpr starts.symm
  rw [afterMark?, cut, Option.map_some, String.ofList_toList]

theorem afterMark?_eq_none_iff {mark : List Char} {line : String} :
    afterMark? mark line = none ↔ ¬mark <+: line.toList := by
  rw [afterMark?, Option.map_eq_none_iff, Option.eq_none_iff_forall_ne_some]
  simp only [ne_eq, List.isPrefixOf?_eq_some_iff_append_eq, List.IsPrefix, not_exists]

/-! ## The lines of a call -/

variable (call : Call)

def request : String := call.caller ++ messageMark ++ call.callee ++ ": " ++ call.function

def response : String :=
  call.callee ++ "-" ++ messageMark ++ call.caller ++ ": " ++ call.function ++ " response"

theorem messagesOf_eq : messagesOf call = [request call, response call] := rfl

theorem toList_request : (request call).toList =
    call.caller.toList ++ (messageMark.toList ++
      (call.callee.toList ++ (": ".toList ++ call.function.toList))) := by
  simp only [request, String.toList_append, List.append_assoc]

theorem toList_response : (response call).toList =
    call.callee.toList ++ ('-' :: (messageMark.toList ++
      (call.caller.toList ++ (": ".toList ++ (call.function.toList ++ " response".toList))))) := by
  simp only [response, String.toList_append, List.append_assoc]
  rfl

/-- The request starts like a declaration if and only if the caller does. -/
theorem mark_prefix_request :
    participantMark.toList <+: (request call).toList ↔
      participantMark.toList <+: call.caller.toList := by
  rw [toList_request]
  exact prefix_append_cons_iff (c := '-') (by decide)

/-- The response starts like a declaration if and only if the callee does. -/
theorem mark_prefix_response :
    participantMark.toList <+: (response call).toList ↔
      participantMark.toList <+: call.callee.toList := by
  rw [toList_response]
  exact prefix_append_cons_iff (by decide)

/-- An arrow stands in both lines. -/
theorem holds_messagesOf {line : String} (mem : line ∈ messagesOf call) :
    holds messageMark.toList line.toList = true := by
  rw [holds_iff]
  rw [messagesOf_eq, List.mem_pair] at mem
  rcases mem with rfl | rfl
  · rw [toList_request]
    exact List.infix_append' _ _ _
  · rw [toList_response, List.append_cons]
    exact List.infix_append' _ _ _

/-! ## First occurrences -/

/-- What is declared has been met, and not been seen before. -/
theorem mem_firstSeen {seen names : List String} {name : String} :
    name ∈ firstSeen seen names ↔ name ∈ names ∧ name ∉ seen := by
  simp [firstSeen_eq_eraseDups, List.mem_eraseDups]

/-- **Names are declared in the order in which they are met first.** -/
theorem pairwise_idxOf_firstSeen (seen names : List String) :
    (firstSeen seen names).Pairwise (names.idxOf · < names.idxOf ·) := by
  induction names generalizing seen with
  | nil => exact .nil
  | cons name names ih =>
    -- no name but the first one is met at the start
    have later : ∀ seen', name ∈ seen' →
        (firstSeen seen' names).Pairwise ((name :: names).idxOf · < (name :: names).idxOf ·) := by
      intro seen' known
      refine (ih seen').imp_of_mem fun {a b} memA memB before => ?_
      have neA : name ≠ a := fun same => (mem_firstSeen.mp memA).2 (same ▸ known)
      have neB : name ≠ b := fun same => (mem_firstSeen.mp memB).2 (same ▸ known)
      rw [List.idxOf_cons_ne _ neA, List.idxOf_cons_ne _ neB]
      exact Nat.succ_lt_succ before
    rw [firstSeen]
    by_cases known : seen.contains name = true
    · rw [if_pos known]
      exact later seen (List.contains_iff_mem.mp known)
    · rw [if_neg known]
      refine List.pairwise_cons.mpr ⟨fun other mem => ?_, later _ List.mem_cons_self⟩
      have ne : name ≠ other := fun same =>
        (mem_firstSeen.mp mem).2 (same ▸ List.mem_cons_self)
      rw [List.idxOf_cons_self, List.idxOf_cons_ne _ ne]
      exact Nat.succ_pos _

/-! ## Reading the lines -/

variable (trace : Trace)

/-- The declarations are read first, and after them what the messages seem to declare. -/
theorem participants_ofTrace :
    (ofTrace trace).participants = participantsOf trace ++
      (trace.calls.flatMap messagesOf).filterMap (afterMark? participantMark.toList) := by
  have declared : ((participantsOf trace).map (participantMark ++ ·)).filterMap
      (afterMark? participantMark.toList) = participantsOf trace := by
    rw [List.filterMap_map]
    have read : afterMark? participantMark.toList ∘ (participantMark ++ ·) = some :=
      funext fun name => afterMark?_append _ name String.toList_append
    rw [read, List.filterMap_some]
  have header : ["```mermaid", "sequenceDiagram"].filterMap (afterMark? participantMark.toList) = [] := by
    decide
  have footer : ["```", ""].filterMap (afterMark? participantMark.toList) = [] := by
    decide
  simp only [participants, ofTrace, List.filterMap_append, declared, header, footer,
    List.nil_append, List.append_nil]

/-- The declarations with an arrow are read first, and then all the messages. -/
theorem messages_ofTrace :
    (ofTrace trace).messages =
      ((participantsOf trace).filter (holds messageMark.toList ·.toList)).map
          (participantMark ++ ·) ++ trace.calls.flatMap messagesOf := by
  -- the mark of a declaration has no dash, so an arrow in the line is one in the name
  have named : ∀ name : String, holds messageMark.toList (participantMark ++ name).toList =
      holds messageMark.toList name.toList := by
    intro name
    rw [Bool.eq_iff_iff, holds_iff, holds_iff, String.toList_append]
    exact cons_infix_append_iff (by decide)
  have shown : (trace.calls.flatMap messagesOf).filter (holds messageMark.toList ·.toList) =
      trace.calls.flatMap messagesOf := by
    refine List.filter_eq_self.mpr fun line mem => ?_
    obtain ⟨call, _, mem⟩ := List.mem_flatMap.mp mem
    exact holds_messagesOf call mem
  have header : ["```mermaid", "sequenceDiagram"].filter (holds messageMark.toList ·.toList) = [] := by
    decide
  have footer : ["```", ""].filter (holds messageMark.toList ·.toList) = [] := by
    decide
  simp only [messages, ofTrace, List.filter_append, List.filter_map, Function.comp_def, named,
    shown, header, footer, List.nil_append, List.append_nil]

/-- Nothing but the declarations is read as one exactly where no caller or callee starts so. -/
theorem participants_eq_iff :
    (ofTrace trace).participants = participantsOf trace ↔
      ∀ call ∈ trace.calls, ¬participantMark.toList <+: call.caller.toList ∧
        ¬participantMark.toList <+: call.callee.toList := by
  rw [participants_ofTrace, List.append_right_eq_self, List.filterMap_eq_nil_iff,
    List.forall_mem_flatMap]
  simp only [messagesOf_eq, List.forall_mem_cons, afterMark?_eq_none_iff, mark_prefix_request,
    mark_prefix_response, List.not_mem_nil, false_implies, implies_true, and_true]

/-- Nothing but the messages is read as one exactly where no declared name has an arrow. -/
theorem messages_eq_iff :
    (ofTrace trace).messages = trace.calls.flatMap messagesOf ↔
      ∀ name ∈ participantsOf trace, ¬messageMark.toList <:+: name.toList := by
  rw [messages_ofTrace, List.append_left_eq_self, List.map_eq_nil_iff, List.filter_eq_nil_iff]
  simp only [holds_iff]

end Diagram

/-- **A diagram declares each module where it is met first, and is read back by its marks unless
names hold them.** The entry module is met first, and then the caller and the callee of each call.
After the declarations come two lines for each call. The declarations read back are those made
exactly where no caller or callee starts like one, and the messages those shown exactly where no
declared name holds an arrow. -/
theorem diagram_read_by_marks (trace : Trace) :
    let met := trace.entryOwner :: trace.calls.flatMap fun call => [call.caller, call.callee]
    let declared := Diagram.participantsOf trace
    let shown := trace.calls.flatMap fun call =>
      [call.caller ++ "->>" ++ call.callee ++ ": " ++ call.function,
       call.callee ++ "-->>" ++ call.caller ++ ": " ++ call.function ++ " response"]
    (Diagram.ofTrace trace).lines =
      ["```mermaid", "sequenceDiagram"] ++ declared.map ("participant " ++ ·) ++ shown
        ++ ["```", ""] ∧
    declared.head? = some trace.entryOwner ∧
    (∀ name, name ∈ declared ↔ name ∈ met) ∧
    declared.Nodup ∧
    declared.Pairwise (met.idxOf · < met.idxOf ·) ∧
    shown.length = 2 * trace.calls.length ∧
    ((Diagram.ofTrace trace).participants = declared ↔
      ∀ call ∈ trace.calls, ¬"participant ".toList <+: call.caller.toList ∧
        ¬"participant ".toList <+: call.callee.toList) ∧
    ((Diagram.ofTrace trace).messages = shown ↔
      ∀ name ∈ declared, ¬"->>".toList <:+: name.toList) := by
  intro met declared shown
  have lines : shown = trace.calls.flatMap Diagram.messagesOf := by
    refine List.flatMap_congr fun call _ => ?_
    have arrow : call.callee ++ "-" ++ Diagram.messageMark = call.callee ++ "-->>" :=
      String.append_assoc
    rw [Diagram.messagesOf_eq, Diagram.response, arrow]
    rfl
  have ordered : declared.Pairwise (met.idxOf · < met.idxOf ·) :=
    Diagram.pairwise_idxOf_firstSeen [] met
  refine ⟨?_, rfl, fun name => ?_, ?_, ordered, ?_, Diagram.participants_eq_iff trace, ?_⟩
  · rw [lines]
    rfl
  · exact Diagram.mem_firstSeen.trans (and_iff_left List.not_mem_nil)
  · exact ordered.imp fun before same => absurd (same ▸ before) (Nat.lt_irrefl _)
  · simp [shown, Nat.mul_comm]
  · rw [lines]
    exact Diagram.messages_eq_iff trace

/-- A caller that starts like a declaration and a callee with an arrow are declared like any other
name. But a message is read as a declaration, and a declaration as a message. -/
theorem diagram_read_by_marks_misread :
    let trace : Trace := ⟨"A", [⟨"participant x", "y->>z", "f"⟩, ⟨"y->>z", "A", "g"⟩]⟩
    Diagram.participantsOf trace = ["A", "participant x", "y->>z"] ∧
    (Diagram.ofTrace trace).participants ≠ Diagram.participantsOf trace ∧
    (Diagram.ofTrace trace).messages ≠
      ["participant x->>y->>z: f", "y->>z-->>participant x: f response",
        "y->>z->>A: g", "A-->>y->>z: g response"] := by
  intro trace
  obtain ⟨_, _, _, _, _, _, declarations, messages⟩ := diagram_read_by_marks trace
  refine ⟨by decide, fun same => ?_, fun same => ?_⟩
  · exact (declarations.mp same _ List.mem_cons_self).1 (by decide)
  · exact messages.mp same "y->>z" (by decide) (by decide)

end CallChart
