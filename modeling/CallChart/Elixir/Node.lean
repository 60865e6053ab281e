/-!
# The concrete tree of an Elixir source

A source is read into a tree of nodes. A node has a kind, the part it plays
in its parent, a spelling and its children in source order. Brackets, commas
and other marks leave no node of their own. The spelling is kept where the
source decides something: for names, for literals that are one word of the
source, and for operators.

Comments are nodes too, because a bracket that holds only a comment is not
the same as an empty one.
-/

namespace CallChart.Elixir

/-- What a node of the tree stands for. There is one kind for each form that the outline or an
expression tells apart, and for each part of such a form that may hold comments of its own. -/
inductive Kind where
  | source | comment
  | block | body | stabClause | anonymousFunction
  | doBlock | afterBlock | rescueBlock | catchBlock | elseBlock
  | identifier | aliasName | operatorIdentifier
  | integer | float | char | boolean | nil | atom | quotedAtom
  | string | charlist | sigil | sigilName | sigilModifiers
  | quotedContent | escapeSequence | interpolation
  | keyword | quotedKeyword | pair | keywords
  | list | tuple | bitstring | map | structName | mapContent
  | unaryOperator | binaryOperator
  | dot | call | arguments | accessCall
  deriving DecidableEq, Repr

inductive Role where
  | item | left | right | operand | target | key | value
  deriving DecidableEq, Repr

/-- A node of the concrete tree. The role is kept in the child and not in the parent, so that
comments may stand among the children without a part of their own. -/
inductive Node where
  | mk (kind : Kind) (role : Role) (text : String) (children : List Node)
  deriving Repr

namespace Node

def kind : Node → Kind
  | mk kind _ _ _ => kind

def role : Node → Role
  | mk _ role _ _ => role

/-- The spelling of a name, a literal or an operator. -/
def text : Node → String
  | mk _ _ text _ => text

/-- The children, comments included, in source order. -/
def children : Node → List Node
  | mk _ _ _ children => children

def as (role : Role) : Node → Node
  | mk kind _ text children => mk kind role text children

def leaf (kind : Kind) (text : String) : Node := mk kind .item text []

def group (kind : Kind) (children : List Node) : Node := mk kind .item "" children

/-- One node per comment: what a comment says is never asked for. -/
def comments (count : Nat) : List Node := List.replicate count (leaf .comment "")

def child? (role : Role) (node : Node) : Option Node :=
  node.children.find? (·.role == role)

def childOf? (kind : Kind) (node : Node) : Option Node :=
  node.children.find? (·.kind == kind)

def isComment (node : Node) : Bool := node.kind == .comment

def binary (left : Node) (operator : String) (right : Node) : Node :=
  mk .binaryOperator .item operator [left.as .left, right.as .right]

def unary (operator : String) (operand : Node) : Node :=
  mk .unaryOperator .item operator [operand.as .operand]

def keyed (key value : Node) : Node := group .pair [key.as .key, value.as .value]

end Node

end CallChart.Elixir
