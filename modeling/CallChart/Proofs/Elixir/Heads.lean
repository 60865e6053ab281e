import CallChart.Proofs.Clauses
import CallChart.Proofs.Elixir.Modules

/-!
# The heads of clauses and the names they define

A head defines the name that is left when its guards are taken away: the name
itself, or that of the call it is (`Node.ownName?`). A clause is recorded
under another name, that of what stands left of all operators of its head
(`headName?_eq`). A guard is an operator like the others, so the two agree for a
head that is guarded and nothing else; the head of an operator such as `a + b`
defines no name, and its clause is recorded under that of its first operand.

**The law** (`clauses_kept_apart`): what a module stores under a name are the
clauses recorded under it, in order, and none of another name. They are those
that define the name exactly where no clause of an operator has the name for its
first operand.
-/

namespace CallChart.Elixir

/-! ## Heads -/

namespace Node

mutual

/-- What stands left of the operators that pass the test, from the outermost one in. -/
def leftOf (test : String → Bool) : Node → Node
  | .mk kind role text children =>
    if kind == .binaryOperator && test text then
      (leftAmong? test children).getD (.mk kind role text children)
    else .mk kind role text children

def leftAmong? (test : String → Bool) : List Node → Option Node
  | [] => none
  | node :: nodes =>
    if node.role == .left then some (node.leftOf test) else leftAmong? test nodes

end

def unguarded (head : Node) : Node := head.leftOf (· == "when")

/-- The first operand of a head, whatever its operators. -/
def leftmost (head : Node) : Node := head.leftOf fun _ => true

/-- The name that a node is, or calls. -/
def plainName? (node : Node) : Option String :=
  if node.kind = .identifier then some node.text else calledName? node

/-- The name that a head defines: only guards are taken off it, so the head of an operator defines
none. -/
def ownName? (head : Node) : Option String := head.unguarded.plainName?

/-- A node that is no operator has nothing to its left. -/
theorem leftOf_of_kind {node : Node} (other : node.kind ≠ .binaryOperator) (test : String → Bool) :
    node.leftOf test = node := by
  obtain ⟨kind, role, text, children⟩ := node
  have other : (kind == .binaryOperator) = false := beq_eq_false_iff_ne.mpr other
  rw [leftOf, other, Bool.false_and]
  rfl

/-- An operator is no name. -/
theorem plainName?_of_operator {node : Node} (operator : node.kind = .binaryOperator) :
    node.plainName? = none := by
  simp [plainName?, calledName?, operator]

mutual

/-- The first operand is the same from wherever on the way to it. -/
theorem leftmost_leftOf (test : String → Bool) :
    ∀ head : Node, (head.leftOf test).leftmost = head.leftmost
  | .mk kind role text children => by
    rw [leftOf]
    split
    · next passes =>
      have operator : (kind == .binaryOperator) = true := (Bool.and_eq_true_iff.mp passes).1
      have further := leftmost_leftAmong? test children
      show _ = leftOf _ _
      rw [leftOf, operator]
      cases found : leftAmong? test children with
      | none =>
        rw [Option.getD_none, leftmost, leftOf, operator]
      | some left =>
        rw [found, Option.map_some] at further
        rw [Option.getD_some, Bool.true_and, if_pos rfl, ← further, Option.getD_some]
    · rfl

theorem leftmost_leftAmong? (test : String → Bool) :
    ∀ nodes : List Node, (leftAmong? test nodes).map leftmost = leftAmong? (fun _ => true) nodes
  | [] => rfl
  | node :: nodes => by
    rw [leftAmong?, leftAmong?]
    split
    · rw [Option.map_some, leftmost_leftOf test node]
      rfl
    · exact leftmost_leftAmong? test nodes

end

/-- A head that is guarded and nothing else has what is left of it for its first operand. -/
theorem leftmost_eq_unguarded {head : Node} (plain : head.unguarded.kind ≠ .binaryOperator) :
    head.leftmost = head.unguarded := by
  rw [← leftmost_leftOf (· == "when")]
  exact leftOf_of_kind plain _

end Node

open Node

mutual

/-- **A clause is recorded under the name of the first operand of its head.** -/
theorem headName?_eq : ∀ head : Node, headName? head = head.leftmost.plainName?
  | .mk kind role text children => by
    by_cases operator : kind = .binaryOperator
    · subst operator
      have inner := leftName?_eq children
      show leftName? children = ((leftAmong? (fun _ => true) children).getD _).plainName?
      rw [inner]
      cases leftAmong? (fun _ => true) children with
      | none => exact (plainName?_of_operator rfl).symm
      | some left => rfl
    · have other : (Node.mk kind role text children).kind ≠ .binaryOperator := operator
      rw [leftmost, leftOf_of_kind other]
      cases kind <;> first | rfl | exact absurd rfl operator

theorem leftName?_eq : ∀ nodes : List Node,
    leftName? nodes = (leftAmong? (fun _ => true) nodes).bind plainName?
  | [] => rfl
  | node :: nodes => by
    rw [leftName?, leftAmong?]
    split
    · rw [headName?_eq node, Option.bind_some]
      rfl
    · exact leftName?_eq nodes

end

/-- The recorded name is the one that the head defines, unless the head is one of an operator, which
defines none. -/
theorem headName?_eq_or (head : Node) :
    head.unguarded.kind ≠ .binaryOperator ∧ headName? head = head.ownName? ∨
      head.unguarded.kind = .binaryOperator ∧ head.ownName? = none := by
  by_cases operator : head.unguarded.kind = .binaryOperator
  · exact .inr ⟨operator, plainName?_of_operator operator⟩
  · refine .inl ⟨operator, ?_⟩
    rw [headName?_eq, leftmost_eq_unguarded operator]
    rfl

/-! ## Clauses -/

namespace Node

/-- The body of a clause, if its head is read as this name. -/
def bodyUnder? (naming : Node → Option String) (owner name : String) (item : Node) :
    Option Expr := do
  guard item.IsClause
  let found ← naming (← firstArgument? item)
  guard (found = name)
  clauseBody? owner item

/-- A clause with a body whose head is one of an operator, with this name for its first operand. It
defines the operator, and is recorded under the name. -/
structure IsOperatorClause (owner name : String) (item : Node) : Prop where
  clause : item.IsClause
  body : (clauseBody? owner item).isSome
  head : ∃ head, firstArgument? item = some head ∧ head.unguarded.kind = .binaryOperator ∧
    head.leftmost.plainName? = some name

end Node

variable {owner name : String} {item : Node}

theorem isSome_bodyUnder?_iff {naming : Node → Option String} :
    (item.bodyUnder? naming owner name).isSome ↔ item.IsClause ∧ (clauseBody? owner item).isSome ∧
      ∃ head, firstArgument? item = some head ∧ naming head = some name := by
  unfold bodyUnder?
  by_cases clause : item.IsClause
  · cases firstArgument? item with
    | none => simp [clause, guard]
    | some head =>
      simp only [Option.bind_eq_bind, Option.bind_some]
      cases named : naming head with
      | none => simp [named]
      | some found => by_cases same : found = name <;> simp [clause, guard, named, same]
  · simp [clause, guard]

/-- Two ways to name heads find the same body where they agree on the head. -/
theorem bodyUnder?_congr {naming naming' : Node → Option String} {head : Node}
    (first : firstArgument? item = some head) (same : naming head = naming' head) :
    item.bodyUnder? naming owner name = item.bodyUnder? naming' owner name := by
  simp only [bodyUnder?, first, Option.bind_eq_bind, Option.bind_some, same]

/-- **A clause is recorded under a name that it does not define** exactly if it is one of an
operator. -/
theorem bodyUnder?_ownName?_eq_iff :
    item.bodyUnder? ownName? owner name = item.bodyUnder? headName? owner name ↔
      ¬ item.IsOperatorClause owner name := by
  constructor
  · rintro same ⟨clause, body, head, first, operator, named⟩
    have recorded : (item.bodyUnder? headName? owner name).isSome :=
      isSome_bodyUnder?_iff.mpr ⟨clause, body, head, first, (headName?_eq head).trans named⟩
    rw [← same] at recorded
    obtain ⟨-, -, other, found, defined⟩ := isSome_bodyUnder?_iff.mp recorded
    obtain rfl : head = other := Option.some.inj (first.symm.trans found)
    rw [ownName?, plainName?_of_operator operator] at defined
    cases defined
  · intro plain
    cases first : firstArgument? item with
    | none => simp only [bodyUnder?, first, Option.bind_eq_bind, Option.bind_none]
    | some head =>
      rcases headName?_eq_or head with ⟨_, same⟩ | ⟨operator, none_defined⟩
      · exact bodyUnder?_congr first same.symm
      · -- the head defines nothing, so it is to be shown that nothing is recorded
        have undefined : item.bodyUnder? ownName? owner name = none := by
          rw [← Option.not_isSome_iff_eq_none, isSome_bodyUnder?_iff]
          rintro ⟨-, -, other, found, defined⟩
          obtain rfl : head = other := Option.some.inj (first.symm.trans found)
          rw [none_defined] at defined
          cases defined
        rw [undefined, eq_comm, ← Option.not_isSome_iff_eq_none, isSome_bodyUnder?_iff]
        rintro ⟨clause, body, other, found, named⟩
        obtain rfl : head = other := Option.some.inj (first.symm.trans found)
        exact plain ⟨clause, body, head, first, operator, (headName?_eq head).symm.trans named⟩

/-- A clause that defines a name is recorded under it. -/
theorem isSome_bodyUnder?_headName? (defined : (item.bodyUnder? ownName? owner name).isSome) :
    (item.bodyUnder? headName? owner name).isSome := by
  obtain ⟨clause, body, head, first, named⟩ := isSome_bodyUnder?_iff.mp defined
  refine isSome_bodyUnder?_iff.mpr ⟨clause, body, head, first, ?_⟩
  rcases headName?_eq_or head with ⟨_, same⟩ | ⟨_, none_defined⟩
  · exact same.trans named
  · rw [none_defined] at named
    cases named

/-- The bodies of the clauses of a module that are recorded under a name. -/
theorem clauseBodies_eq (owner name : String) (items : List Node) :
    clauseBodies (items.filterMap (Node.functionClause? firstArgument? owner)) name =
      items.filterMap (Node.bodyUnder? headName? owner name) := by
  rw [clauseBodies, List.filter_filterMap, List.map_filterMap]
  refine List.filterMap_congr fun item _ => ?_
  unfold functionClause? bodyUnder?
  by_cases clause : item.IsClause
  · cases firstArgument? item with
    | none => simp [clause, guard]
    | some head =>
      simp only [Option.bind_eq_bind, Option.bind_some]
      cases headName? head with
      | none => simp
      | some found =>
        cases clauseBody? owner item with
        | none => simp
        | some body => by_cases same : found = name <;> simp [clause, guard, same]
  · simp [clause, guard]

/-! ## Modules -/

/-- **Clauses of different functions are kept apart**, but for those of operators. A module that is
declared stands at a place of its source. What it stores under a name is merged from the clauses in
its do block that are recorded under the name, in order. These are the clauses that define the name
exactly if none of them is the clause of an operator that has the name for its first operand. -/
theorem clauses_kept_apart (source : Node) (grammatical : source.Grammatical) (m : ModuleOutline)
    (declared : m ∈ outlines source) :
    ∃ place ∈ source.places [], ∃ declaration,
      place.declaration? firstArgument? = some declaration ∧ declaration.outline = m ∧
      ∀ name,
        let items := doItems place.node
        (m.definition? name).map Definition.body =
          Expr.merged? (items.filterMap (Node.bodyUnder? headName? m.name name)) ∧
        (items.filterMap (Node.bodyUnder? ownName? m.name name) =
            items.filterMap (Node.bodyUnder? headName? m.name name) ↔
          ∀ item ∈ items, ¬ item.IsOperatorClause m.name name) := by
  rw [grammatical.outlines_eq] at declared
  obtain ⟨declaration, found, rfl⟩ := List.mem_map.mp declared
  obtain ⟨place, mem, declares⟩ := List.mem_filterMap.mp found
  obtain ⟨_, _, _, _, _, clauses⟩ := declaration?_eq_some_iff.mp declares
  have named : declaration.outline.name = declaration.name := ModuleOutline.name_ofClauses _ _
  refine ⟨place, mem, declaration, declares, rfl, fun name => ⟨?_, ?_⟩⟩
  · rw [named, ← clauseBodies_eq, ← clauses, Declaration.outline,
      ModuleOutline.definition?_ofClauses, Option.map_map]
    exact Option.map_id' ..
  · rw [filterMap_eq_filterMap_iff fun _ _ => isSome_bodyUnder?_headName?]
    exact forall₂_congr fun item _ => bodyUnder?_ownName?_eq_iff

/-- The clause of an operator is stored before the one clause that defines the name of its first
operand; guards make no difference. -/
theorem clauses_kept_apart_plus :
    let text := "defmodule A do\ndef a + b when c,do: X.f\ndef a when c,do: Y.g\ndef d,do: Z.h\nend"
    ∃ source m, parse text.toList = .ok source ∧ source.Grammatical ∧ m ∈ outlines source ∧
      (m.definition? "a").map (·.body.remoteCalls) = some [⟨"X", "f"⟩, ⟨"Y", "g"⟩] ∧
      ∃ place ∈ source.places [],
        ((doItems place.node).filterMap (Node.bodyUnder? ownName? m.name "a")).map
          Expr.remoteCalls = [[⟨"Y", "g"⟩]] ∧
        ∃ item ∈ doItems place.node, item.IsOperatorClause m.name "a" := by
  intro text
  -- the calls of the clauses that define the name, for each module of the source
  let defining (source : Node) : List (List (List FunctionKey)) :=
    (source.places []).filterMap fun place => (place.declaration? firstArgument?).map fun d =>
      ((doItems place.node).filterMap (Node.bodyUnder? ownName? d.name "a")).map
        Expr.remoteCalls
  have read : (parse text.toList).toOption.map (fun source =>
      ((outlines source).map fun m => (m.definition? "a").map (·.body.remoteCalls),
        defining source)) =
      some ([some [⟨"X", "f"⟩, ⟨"Y", "g"⟩]], [[[⟨"Y", "g"⟩]]]) := by
    decide +kernel
  cases parsed : parse text.toList with
  | error fault =>
    rw [parsed] at read
    cases read
  | ok source =>
    rw [parsed] at read
    obtain ⟨stored, defined⟩ := Prod.mk.inj (Option.some.inj read)
    obtain ⟨m, only, calls⟩ := List.map_eq_singleton_iff.mp stored
    have declared : m ∈ outlines source := only ▸ List.mem_singleton_self m
    have grammatical := grammatical_of_parse parsed
    obtain ⟨place, mem, declaration, declares, rfl, law⟩ :=
      clauses_kept_apart source grammatical m declared
    have named : declaration.outline.name = declaration.name := ModuleOutline.name_ofClauses _ _
    obtain ⟨merged, same_iff⟩ := law "a"
    have here : ((doItems place.node).filterMap
        (Node.bodyUnder? ownName? declaration.outline.name "a")).map Expr.remoteCalls =
          [[⟨"Y", "g"⟩]] := by
      rw [named]
      refine List.mem_singleton.mp (defined ▸ List.mem_filterMap.mpr ⟨place, mem, ?_⟩)
      rw [declares]
      rfl
    refine ⟨source, _, rfl, grammatical, declared, calls, place, mem, here, ?_⟩
    by_contra none_operator
    push Not at none_operator
    -- without the clause of the operator, only one clause would be stored
    have same := same_iff.mpr none_operator
    obtain ⟨body, single, bodyCalls⟩ := List.map_eq_singleton_iff.mp here
    rw [← same, single] at merged
    have alone := congrArg (Option.map Expr.remoteCalls) merged
    rw [Option.map_map, Expr.merged?, List.foldl_nil, Option.map_some, bodyCalls] at alone
    exact absurd (calls.symm.trans alone) (by decide)

end CallChart.Elixir
