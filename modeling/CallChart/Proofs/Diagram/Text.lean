import CallChart.Proofs.Diagram.Lines

/-!
# Diagrams that can be told apart

The text of a diagram is its lines with their ends, and nothing in it says
where the declarations stop, how many calls there are, or where a name stops
and the next one starts.

**The law** (`text_determines_trace`): on names that are safe in a diagram the
text still determines the trace. Names without line ends leave the lines as they
were. The declarations go as far as lines look like one, since the first request
does not. In a request the caller ends at the first arrow, and the callee at
the first colon with a blank behind it.

The last step needs that a mark can be found even if the name before it ends
in a piece of the mark, as in `a-->>b` or `b:: f`. It can, because no end of the
arrow is a start of it, nor is one of the other mark (`Unbordered`). With such a
mark between them, a part without it and any other part can be taken apart again
(`append_mark_inj`).

The entry module and the functions need no condition beyond the line ends. The
entry module stands alone on its line, and what follows the callee is the
function.
-/

namespace CallChart

/-! ## Taking apart at a mark -/

section Mark

variable {α : Type} {mark : List α}

/-- No proper end of the mark is a start of it. So where the mark follows a text that does not hold
it, its first occurrence is there and does not begin in the text. -/
def Unbordered (mark : List α) : Prop :=
  ∀ part, part <+: mark → part <:+ mark → part = [] ∨ part = mark

instance [DecidableEq α] : Decidable (Unbordered mark) :=
  decidable_of_iff (∀ part ∈ mark.inits, part <:+ mark → part = [] ∨ part = mark)
    (forall_congr' fun _ => imp_congr_left (List.mem_inits _ _))

/-- The mark after a part does not reach back into another part without the mark. -/
theorem eq_nil_of_append_mark (unbordered : Unbordered mark) {before extra after after' : List α}
    (absent : ¬mark <:+: before ++ extra) (same : mark ++ after = extra ++ (mark ++ after')) :
    extra = [] := by
  rcases List.prefix_or_prefix_of_prefix (List.prefix_append mark after)
    (same ▸ List.prefix_append extra (mark ++ after')) with ⟨rest, inside⟩ | ⟨rest, across⟩
  · -- the whole mark stands in `extra`
    exact absurd ⟨before, rest, by rw [← inside, List.append_assoc]⟩ absent
  · -- `extra` starts the mark, so what is left of the mark is a start of it too
    have tail : rest ++ after = mark ++ after' := by
      rw [← across, List.append_assoc] at same
      rw [← across]
      exact List.append_cancel_left same
    have shorter : rest <+: mark := by
      refine List.prefix_of_prefix_length_le (tail ▸ List.prefix_append rest after)
        (List.prefix_append mark after') ?_
      rw [← across, List.length_append]
      exact Nat.le_add_left _ _
    rcases unbordered rest shorter ⟨extra, across⟩ with rfl | rfl
    · rw [List.append_nil] at across
      exact absurd ⟨before, [], by rw [across, List.append_nil]⟩ absent
    · exact List.append_left_eq_self.mp across

/-- **Two parts are taken apart at the first mark between them.** -/
theorem append_mark_inj (unbordered : Unbordered mark) {before before' after after' : List α}
    (absent : ¬mark <:+: before) (absent' : ¬mark <:+: before')
    (same : before ++ (mark ++ after) = before' ++ (mark ++ after')) :
    before = before' ∧ after = after' := by
  rcases List.append_eq_append_iff.mp same with ⟨extra, rfl, rest⟩ | ⟨extra, rfl, rest⟩
  · obtain rfl := eq_nil_of_append_mark unbordered absent' rest
    exact ⟨(List.append_nil before).symm, List.append_cancel_left rest⟩
  · obtain rfl := eq_nil_of_append_mark unbordered absent rest
    exact ⟨List.append_nil before', (List.append_cancel_left rest).symm⟩

end Mark

/-! ## Safe names -/

/-- The names of a call cannot be mistaken for marks of a diagram, nor run on into another line. The
arrow and the colon are excluded only from the name right before them, since a line is cut at the
first one that comes. -/
@[mk_iff]
structure Call.DiagramSafe (call : Call) : Prop where
  callerLine : '\n' ∉ call.caller.toList
  calleeLine : '\n' ∉ call.callee.toList
  functionLine : '\n' ∉ call.function.toList
  callerStart : ¬"participant ".toList <+: call.caller.toList
  callerArrow : ¬"->>".toList <:+: call.caller.toList
  calleeColon : ¬": ".toList <:+: call.callee.toList

@[mk_iff]
structure Trace.DiagramSafe (trace : Trace) : Prop where
  entryLine : '\n' ∉ trace.entryOwner.toList
  calls : ∀ call ∈ trace.calls, call.DiagramSafe

instance (call : Call) : Decidable call.DiagramSafe := decidable_of_iff _ call.diagramSafe_iff.symm

instance (trace : Trace) : Decidable trace.DiagramSafe :=
  decidable_of_iff _ trace.diagramSafe_iff.symm

namespace Diagram

/-! ## From the text to the lines -/

theorem toList_text (diagram : Diagram) :
    diagram.text.toList = diagram.lines.flatMap (·.toList ++ ['\n']) := by
  simp [text, String.toList_join, List.flatMap_map]

/-- Lines without line ends in them can be read off their text. -/
theorem lines_eq_of_flatMap {lines lines' : List String}
    (plain : ∀ line ∈ lines, '\n' ∉ line.toList) (plain' : ∀ line ∈ lines', '\n' ∉ line.toList)
    (same : lines.flatMap (·.toList ++ ['\n']) = lines'.flatMap (·.toList ++ ['\n'])) :
    lines = lines' := by
  induction lines generalizing lines' with
  | nil =>
    cases lines' with
    | nil => rfl
    | cons line' lines' => simp at same
  | cons line lines ih =>
    cases lines' with
    | nil => simp at same
    | cons line' lines' =>
      rw [List.forall_mem_cons] at plain plain'
      rw [List.flatMap_cons, List.flatMap_cons, List.append_assoc, List.append_assoc] at same
      have lineEnd : Unbordered ['\n'] := by decide
      have ⟨first, rest⟩ := append_mark_inj lineEnd
        (mt (List.singleton_infix_iff _ _).mp plain.1)
        (mt (List.singleton_infix_iff _ _).mp plain'.1) same
      rw [String.toList_inj.mp first, ih plain.2 plain'.2 rest]

variable {trace trace' : Trace}

/-- Names without line ends make lines without line ends. -/
theorem plain_of_mem_lines (safe : trace.DiagramSafe) :
    ∀ line ∈ (ofTrace trace).lines, '\n' ∉ line.toList := by
  have names : ∀ name ∈ participantsOf trace, '\n' ∉ name.toList := by
    intro name mem
    have met := (mem_firstSeen.mp mem).1
    rw [List.mem_cons, List.mem_flatMap] at met
    rcases met with rfl | ⟨call, isCall, met⟩
    · exact safe.entryLine
    · rcases List.mem_pair.mp met with rfl | rfl
      · exact (safe.calls call isCall).callerLine
      · exact (safe.calls call isCall).calleeLine
  have messages : ∀ call ∈ trace.calls, ∀ line ∈ messagesOf call, '\n' ∉ line.toList := by
    intro call isCall line mem
    have ⟨caller, callee, function, _, _, _⟩ := safe.calls call isCall
    rw [messagesOf_eq, List.mem_pair] at mem
    rcases mem with rfl | rfl
    · rw [toList_request]
      simp [messageMark, caller, callee, function]
    · rw [toList_response]
      simp [messageMark, caller, callee, function]
  intro line mem
  simp only [ofTrace, List.mem_append, List.mem_map, List.mem_flatMap] at mem
  rcases mem with ((header | ⟨name, isName, rfl⟩) | ⟨call, isCall, mem⟩) | footer
  · rcases List.mem_pair.mp header with rfl | rfl <;> decide
  · rw [String.toList_append, List.mem_append, not_or]
    exact ⟨by decide, names name isName⟩
  · exact messages call isCall line mem
  · rcases List.mem_pair.mp footer with rfl | rfl <;> decide

/-! ## From the lines to the trace -/

def declares (line : String) : Bool := participantMark.toList.isPrefixOf line.toList

/-- After the declarations the first line looks like none. -/
theorem takeWhile_declares_messages (safe : trace.DiagramSafe) :
    (trace.calls.flatMap messagesOf ++ ["```", ""]).takeWhile declares = [] := by
  cases hcalls : trace.calls with
  | nil => decide
  | cons call calls =>
    have start := (safe.calls call (hcalls ▸ List.mem_cons_self)).callerStart
    have refused : declares (request call) = false := by
      rw [Bool.eq_false_iff, ne_eq, declares, List.isPrefixOf_iff_prefix, mark_prefix_request]
      exact start
    rw [List.flatMap_cons, messagesOf_eq]
    exact List.takeWhile_cons_of_neg (by simp [refused])

/-- **After the header the declarations go as far as lines look like one**, and what is left are the
messages. -/
theorem lines_ofTrace (safe : trace.DiagramSafe) :
    ((ofTrace trace).lines.drop 2).takeWhile declares =
        (participantsOf trace).map (participantMark ++ ·) ∧
      ((ofTrace trace).lines.drop 2).dropWhile declares =
        trace.calls.flatMap messagesOf ++ ["```", ""] := by
  have declared : ∀ line ∈ (participantsOf trace).map (participantMark ++ ·),
      declares line = true := by
    intro line mem
    obtain ⟨name, _, rfl⟩ := List.mem_map.mp mem
    rw [declares, List.isPrefixOf_iff_prefix, String.toList_append]
    exact List.prefix_append _ _
  have body : (ofTrace trace).lines.drop 2 = (participantsOf trace).map (participantMark ++ ·) ++
      (trace.calls.flatMap messagesOf ++ ["```", ""]) := by
    rw [ofTrace, List.append_assoc, List.append_assoc]
    rfl
  have stops := takeWhile_declares_messages safe
  rw [body, List.takeWhile_append_of_pos declared, List.dropWhile_append_of_pos declared, stops]
  refine ⟨List.append_nil _, ?_⟩
  have whole : _ ++ _ = trace.calls.flatMap messagesOf ++ ["```", ""] :=
    List.takeWhile_append_dropWhile (p := declares)
  rwa [stops, List.nil_append] at whole

/-- A call can be read off its request. -/
theorem eq_of_request {call call' : Call} (safe : call.DiagramSafe) (safe' : call'.DiagramSafe)
    (same : request call = request call') : call = call' := by
  have chars := congrArg String.toList same
  rw [toList_request, toList_request] at chars
  have arrow : Unbordered messageMark.toList := by decide
  have colon : Unbordered ": ".toList := by decide
  have ⟨caller, chars⟩ := append_mark_inj arrow safe.callerArrow safe'.callerArrow chars
  have ⟨callee, function⟩ := append_mark_inj colon safe.calleeColon safe'.calleeColon chars
  obtain ⟨_, _, _⟩ := call
  obtain ⟨_, _, _⟩ := call'
  rw [Call.mk.injEq]
  exact ⟨String.toList_inj.mp caller, String.toList_inj.mp callee, String.toList_inj.mp function⟩

/-- Calls can be read off their lines. -/
theorem calls_eq_of_messages {calls calls' : List Call}
    (safe : ∀ call ∈ calls, call.DiagramSafe) (safe' : ∀ call ∈ calls', call.DiagramSafe)
    (same : calls.flatMap messagesOf = calls'.flatMap messagesOf) : calls = calls' := by
  induction calls generalizing calls' with
  | nil =>
    cases calls' with
    | nil => rfl
    | cons call' calls' => simp [messagesOf_eq] at same
  | cons call calls ih =>
    cases calls' with
    | nil => simp [messagesOf_eq] at same
    | cons call' calls' =>
      rw [List.forall_mem_cons] at safe safe'
      simp only [List.flatMap_cons, messagesOf_eq, List.cons_append, List.nil_append,
        List.cons.injEq] at same
      obtain ⟨first, _, rest⟩ := same
      rw [eq_of_request safe.1 safe'.1 first, ih safe.2 safe'.2 rest]

end Diagram

/-- **The text of a diagram determines the trace, if the names are safe in it.** No name may have a
line end. No caller may start like a declaration or hold an arrow, and no callee may hold a colon
with a blank behind it. The entry module and the functions are free. -/
theorem text_determines_trace {trace trace' : Trace} (safe : trace.DiagramSafe)
    (safe' : trace'.DiagramSafe)
    (same : (Diagram.ofTrace trace).text = (Diagram.ofTrace trace').text) : trace = trace' := by
  have lines : (Diagram.ofTrace trace).lines = (Diagram.ofTrace trace').lines := by
    refine Diagram.lines_eq_of_flatMap (Diagram.plain_of_mem_lines safe)
      (Diagram.plain_of_mem_lines safe') ?_
    rw [← Diagram.toList_text, ← Diagram.toList_text, same]
  have ⟨declared, shown⟩ := Diagram.lines_ofTrace safe
  have ⟨declared', shown'⟩ := Diagram.lines_ofTrace safe'
  rw [lines] at declared shown
  have entry : trace.entryOwner = trace'.entryOwner := by
    -- the first declaration is that of the entry module
    have heads := congrArg List.head? (declared.symm.trans declared')
    rw [List.head?_map, List.head?_map] at heads
    exact (String.append_right_inj _).mp (Option.some.inj heads)
  have calls : trace.calls = trace'.calls :=
    Diagram.calls_eq_of_messages safe.calls safe'.calls
      (List.append_cancel_right (shown.symm.trans shown'))
  obtain ⟨_, _⟩ := trace
  obtain ⟨_, _⟩ := trace'
  rw [Trace.mk.injEq]
  exact ⟨entry, calls⟩

/-- The caller ends in a dash and the callees in a colon or nothing but a dash, and functions hold
the marks. What is listed of such a function is known from its diagram. -/
theorem text_determines_trace_pieces :
    let body : Expr := .both (.remoteCall "b:" "participant : ->> f" []) (.remoteCall "-" ": " [])
    let listed := Trace.ofUnit Index.empty {} ⟨⟨"a.ex"⟩, [⟨"a-", [⟨"go", body⟩]⟩]⟩ "go"
    let trace : Trace := ⟨"a-", [⟨"a-", "b:", "participant : ->> f"⟩, ⟨"a-", "-", ": "⟩]⟩
    listed.DiagramSafe ∧ trace.DiagramSafe ∧
      (Diagram.ofTrace listed).text = (Diagram.ofTrace trace).text ∧ listed = trace := by
  intro body listed trace
  have safe : listed.DiagramSafe := by decide
  have safe' : trace.DiagramSafe := by decide
  have same : (Diagram.ofTrace listed).text = (Diagram.ofTrace trace).text := rfl
  exact ⟨safe, safe', same, text_determines_trace safe safe' same⟩

end CallChart
