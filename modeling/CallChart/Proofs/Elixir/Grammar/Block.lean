import CallChart.Elixir.Grammar.Block
import CallChart.Proofs.Elixir.Grammar.Rules

/-!
# Blocks and clauses are well read

What stands at the start of a line shows only later whether it is an
expression or the head of a clause. `Item.Sound` covers both: an expression
is proper, a head is a list of well-read nodes. From the items follow the
clauses, the bodies, the do block of a call and what parentheses hold.
-/

namespace CallChart.Elixir.Grammar

open Node
open Std.Do

set_option mvcgen.warning false

attribute [local grind =] Kind.isLoose Kind.isWord

def Item.Sound : Item → Prop
  | .expression node => node.Proper
  | .head nodes | .arguments nodes => AllWellRead nodes

@[spec]
theorem acceptArrow_answers (ctx : Context) : ⦃⌜True⌝⦄ acceptArrow ctx ⦃⇓? _ => ⌜True⌝⦄ :=
  Reader.answers (acceptArrow ctx)

@[grind ←]
theorem clauseArguments_wellRead {nodes : List Node} (below : AllWellRead nodes) :
    (clauseArguments nodes).WellRead :=
  ((proper_group rfl below).as .left).wellRead

@[grind ←]
theorem guarded_wellRead {nodes : List Node} {condition : Node} (below : AllWellRead nodes)
    (isCondition : condition.Proper) : (guarded nodes condition).WellRead :=
  ((proper_binary (proper_group rfl below) isCondition "when").as .left).wellRead

/-- A clause of well-read parts is proper. -/
@[grind ←]
theorem clause_proper {left comments : List Node} {body : Option (List Node)}
    (isLeft : AllWellRead left) (areComments : AllWellRead comments)
    (isBody : ∀ nodes, body = some nodes → AllWellRead nodes) :
    (clause left comments body).Proper := by
  refine proper_group rfl ?_
  rw [allWellRead_append, allWellRead_append]
  refine ⟨⟨isLeft, areComments⟩, ?_⟩
  cases body with
  | none => exact allWellRead_nil
  | some nodes =>
    have isNode : (Node.group .body nodes).Proper := proper_group rfl (isBody nodes rfl)
    exact (allWellRead_cons _ _).mpr ⟨(isNode.as .right).wellRead, allWellRead_nil⟩

/-- Each section of a do block may hold anything. -/
theorem isLoose_of_sectionWords {text rest : List Char} {kind : Kind}
    (found : (sectionWords.findSome? fun (word, kind) => (after? word text).map (kind, ·)) =
      some (kind, rest)) : kind.isLoose = true := by
  have allLoose : ∀ entry ∈ sectionWords, entry.2.isLoose = true := by decide
  obtain ⟨entry, mem, isFound⟩ := List.exists_of_findSome?_eq_some found
  obtain ⟨_, -, same⟩ := Option.map_eq_some_iff.mp isFound
  obtain rfl : entry.2 = kind := congrArg Prod.fst same
  exact allLoose entry mem

section Rules

variable {r : Rules} (sound : r.Sound) (ctx : Context)
include sound

/-! ## Heads of clauses -/

@[spec]
theorem headEnd_sound {nodes : List Node} (below : AllWellRead nodes) :
    ⦃⌜True⌝⦄ headEnd r ctx nodes ⦃⇓? item => ⌜item.Sound⌝⦄ := by
  mvcgen [headEnd] with grind -ring -linarith [Item.Sound]

/-- The guard and the expression grow side by side, and both stay proper. -/
@[spec]
theorem guardOrPlain_proper (n : Nat) {condition plain : Node} (isCondition : condition.Proper)
    (isPlain : plain.Proper) :
    ⦃⌜True⌝⦄ guardOrPlain r ctx n condition plain ⦃⇓? node => ⌜(node.elim id id).Proper⌝⦄ := by
  induction n generalizing condition plain with
  | zero => mvcgen [guardOrPlain]
  | succ n ih => mvcgen [guardOrPlain, ih] with grind -ring -linarith

@[spec]
theorem itemTail_sound (n : Nat) {before : List Node} {node : Node} (below : AllWellRead before)
    (isNode : node.Proper) :
    ⦃⌜True⌝⦄ itemTail r ctx n before node ⦃⇓? item => ⌜item.Sound⌝⦄ := by
  -- after a comma the rest is read in another context
  induction n generalizing before node ctx with
  | zero => mvcgen [itemTail]
  | succ n ih => mvcgen [itemTail, ih] with grind -ring -linarith [Item.Sound, Element.node]

@[spec]
theorem item_sound (n : Nat) : ⦃⌜True⌝⦄ item r ctx n ⦃⇓? item => ⌜item.Sound⌝⦄ := by
  mvcgen [item] with grind -ring -linarith [Item.Sound, Element.node, Group.children]

/-! ## Bodies -/

@[spec]
theorem moreExpressions_wellRead (n : Nat) :
    ⦃⌜True⌝⦄ moreExpressions r ctx n ⦃⇓? nodes => ⌜AllWellRead nodes⌝⦄ := by
  induction n with
  | zero => mvcgen [moreExpressions]
  | succ n ih => mvcgen [moreExpressions, ih] with grind -ring -linarith

/-- The rest of a body is well read, and so is the head that ends it. -/
@[spec]
theorem moreBody_wellRead (n : Nat) :
    ⦃⌜True⌝⦄ moreBody r ctx n
      ⦃⇓? answer => ⌜AllWellRead answer.1 ∧ ∀ left, answer.2 = some left → AllWellRead left⌝⦄ := by
  induction n with
  | zero => mvcgen [moreBody]
  | succ n ih => mvcgen [moreBody, ih] with grind -ring -linarith [Item.Sound]

@[spec]
theorem clauses_wellRead (n : Nat) {left : List Node} (isLeft : AllWellRead left) :
    ⦃⌜True⌝⦄ clauses r ctx n left ⦃⇓? nodes => ⌜AllWellRead nodes⌝⦄ := by
  induction n generalizing left with
  | zero => mvcgen [clauses]
  | succ n ih => mvcgen [clauses, ih] with grind -ring -linarith [Item.Sound]

@[spec]
theorem bodyItems_wellRead (n : Nat) :
    ⦃⌜True⌝⦄ bodyItems r ctx n ⦃⇓? nodes => ⌜AllWellRead nodes⌝⦄ := by
  mvcgen [bodyItems] with grind -ring -linarith [Item.Sound]

@[spec]
theorem body_wellRead (n : Nat) :
    ⦃⌜True⌝⦄ body r ctx n ⦃⇓? nodes => ⌜AllWellRead nodes⌝⦄ := by
  mvcgen [body] with grind -ring -linarith

@[spec]
theorem sections_wellRead (n : Nat) :
    ⦃⌜True⌝⦄ sections r ctx n ⦃⇓? nodes => ⌜AllWellRead nodes⌝⦄ := by
  induction n with
  | zero => mvcgen [sections]
  | succ n ih =>
    mvcgen [sections, ih]
    have loose := isLoose_of_sectionWords ‹_›
    grind -ring -linarith

@[spec]
theorem doBlock_proper (n : Nat) :
    ⦃⌜True⌝⦄ doBlock r ctx n ⦃⇓? node => ⌜node.ProperOf .doBlock⌝⦄ := by
  mvcgen [doBlock] with grind -ring -linarith

/-- A call has one do block or none. -/
@[spec]
theorem doBlock?_proper (n : Nat) (newline : Bool) :
    ⦃⌜True⌝⦄ doBlock? r ctx n newline ⦃⇓? nodes => ⌜OptionalOf .doBlock nodes⌝⦄ := by
  mvcgen [doBlock?] with grind -ring -linarith [OptionalOf]

@[spec]
theorem group_wellRead (n : Nat) :
    ⦃⌜True⌝⦄ group r ctx n ⦃⇓? group => ⌜AllWellRead group.children⌝⦄ := by
  mvcgen [group] with grind -ring -linarith [Item.Sound, Group.children]

@[spec]
theorem anonymousFunction_proper (n : Nat) :
    ⦃⌜True⌝⦄ anonymousFunction r ctx n ⦃⇓? node => ⌜node.Proper⌝⦄ := by
  mvcgen [anonymousFunction] with grind -ring -linarith [Item.Sound]

end Rules

end CallChart.Elixir.Grammar
