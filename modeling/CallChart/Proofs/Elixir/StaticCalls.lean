import CallChart.Elixir.Outline
import CallChart.Proofs.CallGraph
import CallChart.Proofs.Elixir.Shape
import Mathlib.Data.List.Find

/-!
# The static calls of a tree

A static call names its module and its function: its target is a dot with an
alias or `__MODULE__` before it and a name behind. `Node.staticCalls` lists
them in pre-order over all places of a tree. Places below a capture, in a
quoted atom, in the key of a pair or in a quoted name behind the dot of a
call are hidden, and their calls are left out.

`Expr.remoteCalls` is the same view of an expression. The lemmas here read
the calls of a tree node by node, so that the two can be compared.
-/

namespace CallChart

mutual

/-- The calls of named functions in an expression, each before those in its arguments: the order of
the source and not, as in `visibleCalls`, the order in which they are made. -/
def Expr.remoteCalls : Expr → List FunctionKey
  | .pipe left right | .both left right => left.remoteCalls ++ right.remoteCalls
  | .remoteCall owner function arguments => ⟨owner, function⟩ :: remoteCallsAll arguments
  | .localCall _ items | .block items => remoteCallsAll items
  | .variable _ | .inert => []

def Expr.remoteCallsAll : List Expr → List FunctionKey
  | [] => []
  | item :: items => item.remoteCalls ++ remoteCallsAll items

end

/-- The calls in expressions are those in each of them. -/
theorem Expr.remoteCallsAll_eq (items : List Expr) :
    Expr.remoteCallsAll items = items.flatMap Expr.remoteCalls := by
  induction items with
  | nil => rfl
  | cons item items ih => rw [remoteCallsAll, ih, List.flatMap_cons]

namespace Elixir

/-! ## The static calls of a tree -/

/-- A node of a tree and the nodes above it, the nearest one first. What a node means to the outline
depends on what stands above it, so the laws speak of places. -/
structure Place where
  node : Node
  above : List Node

mutual

/-- The nodes of a tree, each before those below it, in source order. -/
def Node.places (above : List Node) : Node → List Place
  | .mk kind role text children =>
    ⟨.mk kind role text children, above⟩ ::
      placesAll (.mk kind role text children :: above) children

def Node.placesAll (above : List Node) : List Node → List Place
  | [] => []
  | node :: nodes => node.places above ++ placesAll above nodes

end

/-- The module that a node before a dot names: an alias without its blanks, or `__MODULE__`. -/
def Node.module? (owner : String) (node : Node) : Option String :=
  if node.kind = .aliasName then some (String.ofList (node.text.toList.filter (!·.isWhitespace)))
  else if node.kind = .identifier ∧ node.text = "__MODULE__" then some owner
  else none

/-- The call that a node makes, if its target is a dot with a module before it and a name behind. -/
def Node.staticCall? (owner : String) (node : Node) : Option FunctionKey := do
  guard (node.kind = .call)
  let target ← node.child? .target
  guard (target.kind = .dot)
  let named ← (← target.child? .left).module? owner
  let name ← target.child? .right
  if name.kind = .identifier then some ⟨named, name.text⟩ else none

def Node.isCalledDot (node : Node) (above : List Node) : Bool :=
  node.kind == .dot && node.role == .target && above.head?.any (·.kind == .call)

/-- Does a node hide what is below this child of it? A capture and a quoted atom hide all their
children, a pair its key, and the dot of a call a quoted name behind it. -/
def Node.hides (node : Node) (above : List Node) (child : Node) : Bool :=
  node.kind == .unaryOperator && node.text == "&" || node.kind == .quotedAtom
    || node.kind == .pair && child.role == .key
    || node.isCalledDot above && child.role == .right && child.kind.isQuotedName

def Node.isHidden (node : Node) : List Node → Bool
  | [] => false
  | parent :: above => parent.hides above node || parent.isHidden above

/-- The static call that a place makes, unless it is hidden. -/
def Place.call? (owner : String) (place : Place) : Option FunctionKey :=
  if place.node.isHidden place.above then none else place.node.staticCall? owner

/-- The static calls at and below a node in pre-order, less those that are hidden. -/
def Node.callsFrom (owner : String) (above : List Node) (node : Node) : List FunctionKey :=
  (node.places above).filterMap (Place.call? owner)

def Node.staticCalls (owner : String) (node : Node) : List FunctionKey := node.callsFrom owner []

/-! ## Reading a tree -/

/-- The nodes of trees side by side are those of each of them. -/
theorem Node.placesAll_eq (above : List Node) (nodes : List Node) :
    Node.placesAll above nodes = nodes.flatMap (Node.places above) := by
  induction nodes with
  | nil => rfl
  | cons node nodes ih => rw [placesAll, ih, List.flatMap_cons]

/-- A node is the first of its tree. -/
theorem Node.mem_places_self (above : List Node) (node : Node) : ⟨node, above⟩ ∈ node.places above := by
  cases node
  exact List.mem_cons_self

/-- The calls from a node are its own call and those from its children. -/
theorem Node.callsFrom_eq (owner : String) (above : List Node) (node : Node) :
    node.callsFrom owner above =
      (Place.call? owner ⟨node, above⟩).toList ++
        node.children.flatMap (Node.callsFrom owner (node :: above)) := by
  obtain ⟨kind, role, text, children⟩ := node
  rw [callsFrom, places, List.filterMap_cons, placesAll_eq, List.filterMap_flatMap]
  cases Place.call? owner ⟨.mk kind role text children, above⟩ <;> rfl

/-- A comment is of the kind of comments. -/
theorem Node.kind_of_isComment {node : Node} (comment : node.isComment = true) :
    node.kind = .comment := by
  simpa [isComment] using comment

/-- Comments that give nothing may be left out. -/
theorem Node.flatMap_items {node : Node} {f : Node → List FunctionKey}
    (silent : ∀ child ∈ node.children, child.isComment = true → f child = []) :
    node.items.flatMap f = node.children.flatMap f := by
  rw [items]
  generalize node.children = children at silent ⊢
  induction children with
  | nil => rfl
  | cons child children ih =>
    rw [List.forall_mem_cons] at silent
    rw [List.filter_cons, List.flatMap_cons, ← ih silent.2]
    cases comment : child.isComment with
    | false => rfl
    | true => rw [silent.1 comment]; rfl

namespace Node.Grammatical

variable {owner : String} {node : Node} {above : List Node}

/-- The node itself is shaped. -/
theorem shaped (grammatical : node.Grammatical) : node.Shaped := by
  cases grammatical with
  | intro _ shaped _ => exact shaped

/-- The children of a grammatical node are grammatical. -/
theorem child (grammatical : node.Grammatical) {child : Node} (mem : child ∈ node.children) :
    child.Grammatical := by
  cases grammatical with
  | intro _ _ below => exact below child mem

/-- All nodes of a grammatical tree are grammatical. -/
theorem of_mem_places (grammatical : node.Grammatical) {place : Place}
    (mem : place ∈ node.places above) : place.node.Grammatical := by
  induction grammatical generalizing above with
  | intro node shaped children ih =>
    obtain ⟨kind, role, text, children⟩ := node
    rw [places, placesAll_eq, List.mem_cons, List.mem_flatMap] at mem
    rcases mem with rfl | ⟨child, isChild, mem⟩
    · exact .intro _ shaped ‹_›
    · exact ih child isChild mem

/-- A word has nothing below it. -/
theorem children_of_isWord (grammatical : node.Grammatical) (word : node.kind.isWord = true) :
    node.children = [] := by
  have shaped := grammatical.shaped
  rw [Shaped] at shaped
  split at shaped
  case h_6 => exact shaped.2
  case h_7 => exact shaped word
  all_goals rename_i same; rw [same] at word; exact absurd word Bool.false_ne_true

/-- Nothing is called from below a node that hides it. -/
theorem callsFrom_of_isHidden (grammatical : node.Grammatical) (hidden : node.isHidden above = true) :
    node.callsFrom owner above = [] := by
  induction grammatical generalizing above with
  | intro node _ _ ih =>
    rw [callsFrom_eq, Place.call?, if_pos hidden]
    refine List.flatMap_eq_nil_iff.mpr fun child mem => ih child mem ?_
    rw [isHidden, hidden, Bool.or_true]

/-- A word calls nothing. -/
theorem callsFrom_of_isWord (grammatical : node.Grammatical) (word : node.kind.isWord = true) :
    node.callsFrom owner above = [] := by
  have noCall : node.staticCall? owner = none := by
    have other : node.kind ≠ .call := fun same => by rw [same] at word; cases word
    simp [staticCall?, guard, other]
  rw [callsFrom_eq, grammatical.children_of_isWord word, Place.call?, noCall, ite_self]
  rfl

/-- The calls from a node in sight are its own and those from its children, comments apart. -/
theorem callsFrom_of_seen (grammatical : node.Grammatical) (seen : node.isHidden above = false) :
    node.callsFrom owner above =
      (node.staticCall? owner).toList ++
        node.items.flatMap (Node.callsFrom owner (node :: above)) := by
  rw [callsFrom_eq, Place.call?, if_neg (Bool.eq_false_iff.mp seen), flatMap_items]
  intro child mem comment
  have word : child.kind.isWord = true := by
    rw [kind_of_isComment comment]
    rfl
  exact (grammatical.child mem).callsFrom_of_isWord word

/-- A comment plays no part, so a part is looked up among the items. -/
theorem child?_eq (grammatical : node.Grammatical) {role : Role} (part : role ≠ .item) :
    node.child? role = node.items.find? (·.role == role) := by
  rw [child?, items, List.find?_filter]
  refine List.find?_congr fun child mem => ?_
  cases comment : child.isComment with
  | false => simp [beq_eq_decide]
  | true =>
    have shaped := (grammatical.child mem).shaped
    rw [Shaped, kind_of_isComment comment] at shaped
    simp [shaped.1, part.symm]

end Node.Grammatical

end Elixir

end CallChart
