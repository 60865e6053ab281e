import CallChart.Elixir.Lexeme
import CallChart.Elixir.Node

/-!
# The shapes of concrete nodes

A `Node` can put any children below any kind. The grammar puts only some: a
binary operator has a left and a right operand, a pair has a key and a value,
a call has a target and then perhaps arguments and a do block. Comments may
stand between the children of any node and play no part.

`Node.Shaped` says this of one node and `Node.Grammatical` of all nodes of a
tree. Kinds that only group their children, such as lists and blocks, are not
restricted. The constructors of nodes keep the shape if their operands are
`Node.Proper`: well read, and no comments, which cannot play a part.

A tree that is well read is grammatical, and besides each of its aliases is
spelled with the characters of aliases alone (`Node.WellRead`).
-/

namespace CallChart.Elixir

namespace Kind

/-- The kinds of nodes that are one word of the source. -/
def isWord : Kind → Bool
  | comment | identifier | aliasName | operatorIdentifier | integer | float | char | boolean | nil
  | atom | sigilName | sigilModifiers | quotedContent | escapeSequence | keyword => true
  | _ => false

/-- The kinds whose nodes may have any children. -/
def isLoose : Kind → Bool
  | binaryOperator | unaryOperator | pair | dot | call => false
  | kind => !kind.isWord

/-- The kinds of text in quotes that may be a name. -/
def isQuotedName : Kind → Bool
  | string | charlist => true
  | _ => false

/-- The kinds of names that may stand after the dot of a call. -/
def isCalledName : Kind → Bool
  | identifier | operatorIdentifier => true
  | kind => kind.isQuotedName

end Kind

namespace Node

def items (node : Node) : List Node := node.children.filter (!·.isComment)

/-- A node that a call may have as its target: a name, another call, or a dot with a name after it
or none. -/
structure Callable (target : Node) : Prop where
  kind : target.kind = .identifier ∨ target.kind = .call ∨ target.kind = .dot
  name : target.kind = .dot → ∀ name, target.child? .right = some name →
    name.kind.isCalledName = true

/-- The children of a node are those that its kind asks for, by number, role and order. Comments are
not counted, as they may stand anywhere among them. -/
def Shaped (node : Node) : Prop :=
  match node.kind with
  | .binaryOperator => node.items.map Node.role = [.left, .right]
  | .unaryOperator => node.items.map Node.role = [.operand]
  | .pair => node.items.map Node.role = [.key, .value]
  | .dot => node.items.map Node.role = [.left] ∨ node.items.map Node.role = [.left, .right]
  | .call => ∃ target rest, node.items = target :: rest ∧ target.role = .target ∧
      target.Callable ∧ rest.map Node.kind ∈ [[], [.arguments], [.doBlock], [.arguments, .doBlock]]
  | .comment => node.role = .item ∧ node.children = []
  | kind => kind.isWord = true → node.children = []

/-- Every node of the tree is shaped. Most laws ask no more of a tree, and every tree that is read
has it. -/
inductive Grammatical : Node → Prop
  | intro (node : Node) : node.Shaped → (∀ child ∈ node.children, Grammatical child) →
      Grammatical node

def IsAliasChar (c : Char) : Prop :=
  c.isUpper = true ∨ Letter.followsCapital c = true ∨ isSpace c = true ∨ c = '.'

/-- Characters of aliases, a capital among them. -/
structure IsAlias (chars : List Char) : Prop where
  capital : ∃ c ∈ chars, c.isUpper = true
  chars : ∀ c ∈ chars, IsAliasChar c

theorem IsAlias.cons {c : Char} {chars : List Char} (isAlias : IsAlias chars)
    (isChar : IsAliasChar c) : IsAlias (c :: chars) where
  capital := isAlias.capital.imp fun _ => And.imp_left (List.mem_cons_of_mem c)
  chars := List.forall_mem_cons.mpr ⟨isChar, isAlias.chars⟩

def Spelled (node : Node) : Prop := node.kind = .aliasName → IsAlias node.text.toList

/-- Every node of the tree is shaped and spelled. The readers keep this rather than `Grammatical`,
so that one induction gives both. -/
inductive WellRead : Node → Prop
  | intro (node : Node) : node.Shaped → node.Spelled → (∀ child ∈ node.children, WellRead child) →
      WellRead node

theorem WellRead.grammatical {node : Node} (read : node.WellRead) : node.Grammatical := by
  induction read with
  | intro node shaped _ _ ih => exact .intro node shaped ih

theorem WellRead.spelled {node : Node} (read : node.WellRead) : node.Spelled := by
  cases read with
  | intro _ _ spelled _ => exact spelled

theorem WellRead.child {node child : Node} (read : node.WellRead) (mem : child ∈ node.children) :
    child.WellRead := by
  cases read with
  | intro _ _ _ below => exact below child mem

/-- A well-read node that is no comment. -/
structure Proper (node : Node) : Prop where
  wellRead : node.WellRead
  noComment : node.isComment = false

def AllWellRead (nodes : List Node) : Prop := ∀ node ∈ nodes, node.WellRead

structure ProperOf (kind : Kind) (node : Node) : Prop where
  proper : node.Proper
  kind : node.kind = kind

/-- A proper node of a given kind, or nothing. -/
def OptionalOf (kind : Kind) (nodes : List Node) : Prop :=
  nodes = [] ∨ ∃ node, nodes = [node] ∧ node.ProperOf kind

attribute [grind →] Proper.wellRead Proper.noComment ProperOf.proper ProperOf.kind
attribute [grind ←] Proper.wellRead

@[grind .]
theorem allWellRead_nil : AllWellRead [] := fun _ mem => absurd mem List.not_mem_nil

@[grind =]
theorem allWellRead_cons (node : Node) (nodes : List Node) :
    AllWellRead (node :: nodes) ↔ node.WellRead ∧ AllWellRead nodes :=
  List.forall_mem_cons

@[grind =]
theorem allWellRead_append (nodes more : List Node) :
    AllWellRead (nodes ++ more) ↔ AllWellRead nodes ∧ AllWellRead more :=
  List.forall_mem_append

/-! ## Building well-read nodes -/

/-- Comments are well read. -/
theorem allWellRead_comments (count : Nat) : AllWellRead (comments count) := by
  intro node mem
  obtain rfl := List.eq_of_mem_replicate mem
  exact .intro _ ⟨rfl, rfl⟩ nofun allWellRead_nil

/-- A proper node is built from well-read children in the shape of its kind. -/
theorem Proper.intro {node : Node} (noComment : node.kind ≠ .comment) (shaped : node.Shaped)
    (spelled : node.Spelled) (below : AllWellRead node.children) : node.Proper :=
  ⟨.intro node shaped spelled below, by simpa [isComment] using noComment⟩

/-- A node in another part is as proper as before. -/
@[grind ←]
theorem Proper.as {node : Node} (proper : node.Proper) (role : Role) : (node.as role).Proper := by
  have noComment := proper.noComment
  cases proper.wellRead with
  | intro _ shaped spelled below =>
    obtain ⟨kind, _, text, children⟩ := node
    cases kind with
    | comment => cases noComment
    | _ => exact .intro nofun shaped spelled below

/-- A word that is no alias is proper. -/
@[grind ←]
theorem proper_leaf {kind : Kind} (word : kind.isWord = true) (noComment : kind ≠ .comment)
    (noAlias : kind ≠ .aliasName) (text : String) : (leaf kind text).Proper := by
  refine .intro noComment ?_ (fun isAlias => absurd isAlias noAlias) allWellRead_nil
  cases kind <;> first | exact fun _ => rfl | exact absurd rfl noComment | cases word

/-- A node of a loose kind is proper whatever its children. -/
@[grind ←]
theorem proper_group {kind : Kind} (loose : kind.isLoose = true) {children : List Node}
    (below : AllWellRead children) : (group kind children).Proper := by
  refine .intro ?_ ?_ ?_ below
  · rintro rfl
    cases loose
  · cases kind <;> first | exact fun word => absurd word Bool.false_ne_true | cases loose
  · rintro rfl
    cases loose

@[simp, grind =]
theorem kind_leaf (kind : Kind) (text : String) : (leaf kind text).kind = kind := rfl

@[simp, grind =]
theorem kind_group (kind : Kind) (children : List Node) : (group kind children).kind = kind := rfl

@[simp]
theorem role_as (role : Role) (node : Node) : (node.as role).role = role := by
  cases node
  rfl

@[simp]
theorem kind_as (role : Role) (node : Node) : (node.as role).kind = node.kind := by
  cases node
  rfl

@[simp]
theorem child?_as (part role : Role) (node : Node) :
    (node.as role).child? part = node.child? part := by
  cases node
  rfl

/-- A node may be called whatever part it plays. -/
theorem Callable.as {target : Node} (callable : target.Callable) (role : Role) :
    (target.as role).Callable := by
  refine ⟨?_, ?_⟩
  · rw [kind_as]
    exact callable.kind
  · rw [kind_as, child?_as]
    exact callable.name

/-- A node is proper if its children are and stand in the shape of its kind. -/
theorem Proper.of_children {node : Node} (noComment : node.kind ≠ .comment)
    (noAlias : node.kind ≠ .aliasName) (below : ∀ child ∈ node.children, child.Proper)
    (shaped : node.items = node.children → node.Shaped) : node.Proper := by
  refine .intro noComment (shaped ?_) (fun isAlias => absurd isAlias noAlias)
    fun child mem => (below child mem).wellRead
  exact List.filter_eq_self.mpr fun child mem => by simp [(below child mem).noComment]

/-- A node of a loose kind is proper and of that kind. -/
@[grind ←]
theorem properOf_group {kind : Kind} (loose : kind.isLoose = true) {children : List Node}
    (below : AllWellRead children) : (group kind children).ProperOf kind :=
  ⟨proper_group loose below, rfl⟩

/-- An operator between proper operands is proper. -/
@[grind ←]
theorem proper_binary {left right : Node} (isLeft : left.Proper) (isRight : right.Proper)
    (operator : String) : (binary left operator right).Proper := by
  refine .of_children nofun nofun ?_ fun items => ?_
  · simp [binary, children, isLeft.as, isRight.as]
  · show (binary left operator right).items.map Node.role = _
    rw [items]
    simp [binary, children]

/-- An operator before a proper operand is proper. -/
@[grind ←]
theorem proper_unary {operand : Node} (isOperand : operand.Proper) (operator : String) :
    (unary operator operand).Proper := by
  refine .of_children nofun nofun ?_ fun items => ?_
  · simp [unary, children, isOperand.as]
  · show (unary operator operand).items.map Node.role = _
    rw [items]
    simp [unary, children]

/-- A proper key with a proper value is proper. -/
@[grind ←]
theorem proper_keyed {key value : Node} (isKey : key.Proper) (isValue : value.Proper) :
    (keyed key value).Proper := by
  refine .of_children nofun nofun ?_ fun items => ?_
  · simp [keyed, group, children, isKey.as, isValue.as]
  · show (keyed key value).items.map Node.role = _
    rw [items]
    simp [keyed, group, children]

/-- A dot behind a proper receiver is proper. -/
@[grind ←]
theorem proper_dot {receiver : Node} (isReceiver : receiver.Proper) :
    (group .dot [receiver.as .left]).Proper := by
  refine .of_children nofun nofun ?_ fun items => ?_
  · simp [group, children, isReceiver.as]
  · refine .inl ?_
    rw [items]
    simp [group, children]

/-- A dot between a proper receiver and a proper name is proper. -/
@[grind ←]
theorem proper_dotted {receiver name : Node} (isReceiver : receiver.Proper) (isName : name.Proper) :
    (group .dot [receiver.as .left, name.as .right]).Proper := by
  refine .of_children nofun nofun ?_ fun items => ?_
  · simp [group, children, isReceiver.as, isName.as]
  · refine .inr ?_
    rw [items]
    simp [group, children]

/-- A call of a proper target is proper. -/
theorem proper_call {target : Node} {rest : List Node} (isTarget : target.Proper)
    (callable : target.Callable) (below : ∀ node ∈ rest, node.Proper)
    (kinds : rest.map Node.kind ∈ [[], [.arguments], [.doBlock], [.arguments, .doBlock]]) :
    (group .call (target.as .target :: rest)).Proper := by
  refine .of_children nofun nofun ?_ fun items => ?_
  · exact List.forall_mem_cons.mpr ⟨isTarget.as .target, below⟩
  · exact ⟨target.as .target, rest, items, role_as .target target, callable.as .target, kinds⟩

/-- A call with arguments and perhaps a do block is proper. -/
@[grind ←]
theorem proper_call_arguments {target arguments : Node} {block : List Node}
    (isTarget : target.Proper) (callable : target.Callable)
    (isArguments : arguments.ProperOf .arguments) (isBlock : OptionalOf .doBlock block) :
    (group .call (target.as .target :: arguments :: block)).Proper := by
  refine proper_call isTarget callable ?_ ?_
  · rcases isBlock with rfl | ⟨node, rfl, isNode⟩
    · simpa using isArguments.proper
    · simpa using ⟨isArguments.proper, isNode.proper⟩
  · rcases isBlock with rfl | ⟨node, rfl, isNode⟩
    · simp [isArguments.kind]
    · simp [isArguments.kind, isNode.kind]

/-- A call without arguments is proper. -/
@[grind ←]
theorem proper_call_block {target : Node} {block : List Node} (isTarget : target.Proper)
    (callable : target.Callable) (isBlock : OptionalOf .doBlock block) :
    (group .call (target.as .target :: block)).Proper := by
  refine proper_call isTarget callable ?_ ?_
  · rcases isBlock with rfl | ⟨node, rfl, isNode⟩
    · simp
    · simpa using isNode.proper
  · rcases isBlock with rfl | ⟨node, rfl, isNode⟩
    · simp
    · simp [isNode.kind]

/-- A name may be called. -/
@[grind ←]
theorem callable_identifier (text : String) : (leaf .identifier text).Callable := by
  refine ⟨.inl rfl, nofun⟩

/-- What a call answers may be called. -/
@[grind ←]
theorem callable_call (children : List Node) : (group .call children).Callable :=
  ⟨.inr (.inl rfl), nofun⟩

/-- The receiver itself may be called. -/
@[grind ←]
theorem callable_dot (receiver : Node) : (group .dot [receiver.as .left]).Callable := by
  refine ⟨.inr (.inr rfl), fun _ name found => ?_⟩
  simp [child?, group, children] at found

/-- A name behind a dot may be called. -/
@[grind ←]
theorem callable_dotted {receiver name : Node} (named : name.kind.isCalledName = true) :
    (group .dot [receiver.as .left, name.as .right]).Callable := by
  refine ⟨.inr (.inr rfl), fun _ callee found => ?_⟩
  obtain rfl : name.as .right = callee := by simpa [child?, group, children] using found
  rw [kind_as]
  exact named

end Node

end CallChart.Elixir
