import CallChart.Proofs.Elixir.Lowering
import CallChart.Proofs.Elixir.Modules
import Mathlib.Data.List.Infix

/-!
# Calls in interpolations

Quoted text of every form may hold interpolations, and they hold expressions with
calls of their own, interpolations in turn included. Lowering goes into strings,
heredocs, charlists and sigils, where they are values. It takes a quoted atom for
a word, and asks neither for the key of a pair nor for a quoted name behind the
dot of a call: what is interpolated there is swallowed (`Node.swallows`).

**The law** (`interpolated_calls_listed`): the calls of an interpolation are
listed side by side and in order, less those that are swallowed. So they are all
listed exactly if no quoted atom, key or quoted name swallows one of them, and
none is if it stands in such a form itself. A capture is no call, and what stands
in one is left out on both sides.
-/

namespace CallChart.Elixir

/-! ## What is swallowed -/

namespace Node

def isCapture (node : Node) : Bool := node.kind == .unaryOperator && node.text == "&"

/-- Does a node swallow what is below this child of it? A quoted atom swallows all that it holds, a
pair its key, and the dot of a call a quoted name behind it. -/
def swallows (node : Node) (above : List Node) (child : Node) : Bool :=
  node.kind == .quotedAtom || node.kind == .pair && child.role == .key
    || node.isCalledDot above && child.role == .right && child.kind.isQuotedName

def isSwallowed (node : Node) : List Node → Bool
  | [] => false
  | parent :: above => parent.swallows above node || parent.isSwallowed above

/-- A node is hidden in a capture, or where it is swallowed. -/
theorem isHidden_eq (node : Node) (above : List Node) :
    node.isHidden above = (above.any isCapture || node.isSwallowed above) := by
  induction above generalizing node with
  | nil => rfl
  | cons parent above ih =>
    have hides : parent.hides above node = (parent.isCapture || parent.swallows above node) := by
      simp only [hides, swallows, isCapture, Bool.or_assoc]
    rw [isHidden, hides, ih, List.any_cons, isSwallowed]
    ac_rfl

end Node

namespace Place

def isCaptured (place : Place) : Bool := place.above.any Node.isCapture

def isSwallowed (place : Place) : Bool := place.node.isSwallowed place.above

/-- The calls that are written at and below a place, outside of captures. -/
def writtenCalls (owner : String) (place : Place) : List FunctionKey :=
  (place.node.places place.above).filterMap fun inner =>
    if inner.isCaptured then none else inner.node.staticCall? owner

variable {owner : String} {place : Place}

/-- The call of a place is listed unless the place is captured or swallowed. -/
theorem call?_eq (owner : String) (place : Place) :
    place.call? owner =
      if place.isSwallowed then none
      else if place.isCaptured then none else place.node.staticCall? owner := by
  rw [call?, Node.isHidden_eq, isSwallowed, isCaptured]
  cases place.above.any Node.isCapture <;> cases place.node.isSwallowed place.above <;> rfl

/-- **All calls that are written from a place on are kept** exactly if none of them is swallowed. -/
theorem callsFrom_eq_writtenCalls_iff :
    place.node.callsFrom owner place.above = place.writtenCalls owner ↔
      ∀ inner ∈ place.node.places place.above, inner.isCaptured = false →
        (inner.node.staticCall? owner).isSome → inner.isSwallowed = false := by
  rw [Node.callsFrom, writtenCalls, filterMap_eq_filterMap_iff]
  · refine forall₂_congr fun inner _ => ?_
    rw [call?_eq]
    cases inner.isSwallowed <;> cases inner.isCaptured <;>
      cases inner.node.staticCall? owner <;> simp
  · intro inner _ kept
    rw [call?_eq] at kept
    split at kept
    · cases kept
    · exact kept

/-- What stands in a quoted atom is swallowed. -/
theorem isSwallowed_of_quotedAtom {carrier : Node} {above : List Node}
    (carried : place.above = carrier :: above) (atom : carrier.kind = .quotedAtom) :
    place.isSwallowed = true := by
  simp [isSwallowed, carried, Node.isSwallowed, Node.swallows, atom]

/-- What stands in any other quoted text is swallowed where the text is. -/
theorem isSwallowed_of_text {carrier : Node} {above : List Node}
    (carried : place.above = carrier :: above)
    (text : carrier.kind ∈ [.string, .charlist, .sigil, .quotedKeyword]) :
    place.isSwallowed = carrier.isSwallowed above := by
  have silent : carrier.swallows above place.node = false := by
    simp only [List.mem_cons, List.not_mem_nil, or_false] at text
    rcases text with kind | kind | kind | kind <;> simp [Node.swallows, Node.isCalledDot, kind]
  rw [isSwallowed, carried, Node.isSwallowed, silent, Bool.false_or]

/-- Nothing is kept from a place that is swallowed. -/
theorem callsFrom_of_isSwallowed (grammatical : place.node.Grammatical)
    (swallowed : place.isSwallowed = true) : place.node.callsFrom owner place.above = [] := by
  apply grammatical.callsFrom_of_isHidden
  rw [Node.isHidden_eq, show place.node.isSwallowed place.above = true from swallowed, Bool.or_true]

end Place

/-! ## Places in places -/

/-- What stands below a place stands side by side in the tree. -/
theorem Node.Grammatical.places_infix {root : Node} (grammatical : root.Grammatical)
    {up : List Node} {place : Place} (mem : place ∈ root.places up) :
    place.node.places place.above <:+: root.places up := by
  induction grammatical generalizing up with
  | intro root _ _ ih =>
    obtain ⟨kind, role, text, children⟩ := root
    rw [places, placesAll_eq] at mem ⊢
    rcases List.mem_cons.mp mem with rfl | mem
    · rw [places, placesAll_eq]
    · obtain ⟨child, isChild, mem⟩ := List.mem_flatMap.mp mem
      obtain ⟨before, after, split⟩ := List.append_of_mem isChild
      have inner := ih child isChild mem
      refine inner.trans (.trans ?_ (List.infix_cons List.infix_rfl))
      rw [split, List.flatMap_append, List.flatMap_cons]
      exact ⟨_, _, List.append_assoc _ _ _⟩

/-! ## Bodies -/

/-- The node that is the body of a clause: its do block, or the value of its keyword `do`. -/
def Node.body? (item : Node) : Option Node :=
  match item.childOf? .doBlock with
  | some block => some block
  | none => keywordBody? item

/-- A child that is found is a child. -/
theorem Node.Grammatical.of_find? {node child : Node} {test : Node → Bool}
    (grammatical : node.Grammatical) (found : node.children.find? test = some child) :
    child.Grammatical :=
  grammatical.child (List.mem_of_find?_eq_some found)

theorem Node.Grammatical.keywordBody? {item value : Node} (grammatical : item.Grammatical)
    (isBody : keywordBody? item = some value) : value.Grammatical := by
  obtain ⟨arguments, isArguments, isBody⟩ := Option.bind_eq_some_iff.mp isBody
  obtain ⟨keywords, isKeywords, isBody⟩ := Option.bind_eq_some_iff.mp isBody
  obtain ⟨pair, isPair, isValue⟩ := Option.bind_eq_some_iff.mp isBody
  exact (((grammatical.of_find? isArguments).of_find? isKeywords).of_find? isPair).of_find? isValue

/-- **The calls of a lowered clause are those of its body**, whichever form it has. -/
theorem Node.Grammatical.calls_clauseBody? {owner : String} {item : Node} {expr : Expr}
    (grammatical : item.Grammatical) (lowered : clauseBody? owner item = some expr) :
    ∃ body, item.body? = some body ∧ body.Grammatical ∧
      expr.remoteCalls = body.callsFrom owner [] := by
  unfold clauseBody? at lowered
  unfold Node.body?
  cases found : item.childOf? .doBlock with
  | some block =>
    rw [found] at lowered
    obtain rfl := Option.some.inj lowered
    have isBlock : block.kind = .doBlock := by simpa using List.find?_some found
    have grammatical := grammatical.of_find? found
    refine ⟨block, rfl, grammatical, ?_⟩
    show _ = block.staticCalls owner
    rw [← grammatical.remoteCalls_exprOf, remoteCalls_of_isGroup (by rw [isBlock]; rfl),
      Expr.remoteCalls, Expr.remoteCallsAll_eq, itemExprs_eq, List.flatMap_map]
    rfl
  | none =>
    rw [found] at lowered
    obtain ⟨value, isBody, rfl⟩ := Option.map_eq_some_iff.mp lowered
    have grammatical := grammatical.keywordBody? isBody
    exact ⟨value, isBody, grammatical, grammatical.remoteCalls_exprOf⟩

/-- **Interpolated calls are listed, unless a quoted form swallows them.** The calls of a lowered
clause are those that its body keeps, and those of an interpolation are listed side by side and in
order. They are all the calls that are written there, outside of captures, exactly if none is
swallowed. An interpolation in a quoted atom is swallowed; one in other quoted text is swallowed
where the text is, as the key of a pair, as a name behind the dot of a call, or further out. Then
none of its calls is listed. -/
theorem interpolated_calls_listed (owner : String) (item : Node) (grammatical : item.Grammatical)
    (expr : Expr) (lowered : clauseBody? owner item = some expr) :
    ∃ body, item.body? = some body ∧ expr.remoteCalls = body.callsFrom owner [] ∧
      ∀ place ∈ body.places [], place.node.kind = .interpolation →
        let kept := place.node.callsFrom owner place.above
        kept <:+: expr.remoteCalls ∧
        (kept = place.writtenCalls owner ↔
          ∀ inner ∈ place.node.places place.above, inner.isCaptured = false →
            (inner.node.staticCall? owner).isSome → inner.isSwallowed = false) ∧
        (place.isSwallowed = true → kept = []) ∧
        ∀ carrier above, place.above = carrier :: above →
          (carrier.kind = .quotedAtom → place.isSwallowed = true) ∧
          (carrier.kind ∈ [.string, .charlist, .sigil, .quotedKeyword] →
            place.isSwallowed = carrier.isSwallowed above) := by
  obtain ⟨body, found, isBody, calls⟩ := grammatical.calls_clauseBody? lowered
  refine ⟨body, found, calls, fun place mem _ => ⟨?_, ?_, ?_, fun carrier above carried => ⟨?_, ?_⟩⟩⟩
  · rw [calls]
    exact (isBody.places_infix mem).filterMap _
  · exact Place.callsFrom_eq_writtenCalls_iff
  · exact Place.callsFrom_of_isSwallowed (isBody.of_mem_places mem)
  · exact Place.isSwallowed_of_quotedAtom carried
  · exact Place.isSwallowed_of_text carried

/-- In a string and in a sigil all calls are listed, those of an interpolation in an interpolation
included. In a quoted atom, a key and a quoted name none is. -/
theorem interpolated_calls_listed_nested :
    let text := "def f,do: x(\"#\x7bA.a(\"#\x7bB.b\x7d\")\x7d\",:\"#\x7bC.c\x7d\",\"#\x7bD.d\x7d\": ~s(#\x7bE.e\x7d)).\"#\x7bF.f\x7d\"()"
    ∃ source item expr body, parse text.toList = .ok source ∧ source.children.head? = some item ∧
      clauseBody? "M" item = some expr ∧ item.body? = some body ∧
      expr.remoteCalls = [⟨"A", "a"⟩, ⟨"B", "b"⟩, ⟨"E", "e"⟩] ∧
      (∃ place ∈ body.places [], place.node.kind = .interpolation ∧
        place.writtenCalls "M" = [⟨"A", "a"⟩, ⟨"B", "b"⟩] ∧
        place.writtenCalls "M" <:+: expr.remoteCalls) ∧
      ∃ place ∈ body.places [], place.node.kind = .interpolation ∧
        place.writtenCalls "M" = [⟨"C", "c"⟩] ∧ place.node.callsFrom "M" place.above = [] := by
  intro text
  -- for each interpolation, what is kept of it and what is written in it
  let interpolations (body : Node) : List (List FunctionKey × List FunctionKey) :=
    ((body.places []).filter (·.node.kind = .interpolation)).map fun place =>
      (place.node.callsFrom "M" place.above, place.writtenCalls "M")
  let a : FunctionKey := ⟨"A", "a"⟩
  let b : FunctionKey := ⟨"B", "b"⟩
  let e : FunctionKey := ⟨"E", "e"⟩
  have read : ((parse text.toList).toOption.bind (·.children.head?)).map (fun item =>
      ((clauseBody? "M" item).map Expr.remoteCalls, item.body?.map interpolations)) =
      some (some [a, b, e], some [([a, b], [a, b]), ([b], [b]), ([], [⟨"C", "c"⟩]),
        ([], [⟨"D", "d"⟩]), ([e], [e]), ([], [⟨"F", "f"⟩])]) := by
    decide +kernel
  obtain ⟨item, found, same⟩ := Option.map_eq_some_iff.mp read
  obtain ⟨source, parsed, first⟩ := Option.bind_eq_some_iff.mp found
  obtain ⟨calls, inside⟩ := Prod.mk.inj same
  obtain ⟨expr, lowered, calls⟩ := Option.map_eq_some_iff.mp calls
  obtain ⟨body, isBody, inside⟩ := Option.map_eq_some_iff.mp inside
  have parsed : parse text.toList = .ok source := by
    cases result : parse text.toList with
    | error fault => rw [result] at parsed; cases parsed
    | ok read => rw [result] at parsed; exact congrArg _ (Option.some.inj parsed)
  have grammatical := (grammatical_of_parse parsed).child (List.mem_of_mem_head? first)
  obtain ⟨body', isBody', -, law⟩ := interpolated_calls_listed "M" item grammatical expr lowered
  obtain rfl : body = body' := Option.some.inj (isBody.symm.trans isBody')
  have interpolation : ∀ kept written, (kept, written) ∈ interpolations body →
      ∃ place ∈ body.places [], place.node.kind = .interpolation ∧
        place.writtenCalls "M" = written ∧ place.node.callsFrom "M" place.above = kept := by
    intro kept written mem
    obtain ⟨place, isPlace, same⟩ := List.mem_map.mp mem
    obtain ⟨isPlace, kind⟩ := List.mem_filter.mp isPlace
    obtain ⟨rfl, rfl⟩ := Prod.mk.inj same
    exact ⟨place, isPlace, of_decide_eq_true kind, rfl, rfl⟩
  rw [inside] at interpolation
  refine ⟨source, item, expr, body, parsed, first, lowered, isBody, calls, ?_, ?_⟩
  · obtain ⟨place, mem, kind, written, kept⟩ := interpolation [a, b] [a, b] (by decide)
    have listed := (law place mem kind).1
    rw [kept, ← written] at listed
    exact ⟨place, mem, kind, written, listed⟩
  · exact interpolation [] [⟨"C", "c"⟩] (by decide)

end CallChart.Elixir
