import CallChart.Proofs.Elixir.Grammar.Expression
import CallChart.Proofs.Elixir.StaticCalls

/-!
# Lowering keeps the static calls

A node is lowered by its kind: a part is looked up by its role, the items of
a group go one by one, and a call takes its target, its arguments and its do
block by different ways. The law says that none of them is lost and that
their order stays.

A called dot is the one node whose expression is not asked for: only what
stands before the dot is. `Node.keptCalls` says what lowering keeps of a node
in its place. `Node.openCalls` takes the items that a node does not hide.
The two agree for every kind but calls, a call adds its own, and induction
over the tree does the rest.
-/

namespace CallChart.Elixir

/-! ## Reading an expression -/

/-- A part is lowered where it stands first. -/
theorem partExpr?_eq (owner : String) (role : Role) (nodes : List Node) :
    partExpr? owner role nodes = (nodes.find? (·.role == role)).map (exprOf owner) := by
  induction nodes with
  | nil => rfl
  | cons node nodes ih =>
    rw [partExpr?, List.find?_cons, ih]
    cases node.role == role <;> rfl

/-- All nodes but the comments are lowered one by one. -/
theorem itemExprs_eq (owner : String) (nodes : List Node) :
    itemExprs owner nodes = (nodes.filter (!·.isComment)).map (exprOf owner) := by
  induction nodes with
  | nil => rfl
  | cons node nodes ih =>
    rw [itemExprs, List.filter_cons, ih]
    cases node.isComment <;> rfl

/-- The receiver is what stands before the dot of the target. -/
theorem receiverExpr?_eq (owner : String) (nodes : List Node) :
    receiverExpr? owner nodes =
      (nodes.find? (·.role == .target)).bind fun target =>
        (target.child? .left).map (exprOf owner) := by
  induction nodes with
  | nil => rfl
  | cons node nodes ih =>
    obtain ⟨kind, role, text, children⟩ := node
    rw [receiverExpr?, List.find?_cons, ih, partExpr?_eq]
    show _ = Option.bind (match role == .target with | true => _ | false => _) _
    cases role == .target <;> rfl

/-- The calls in the arguments and the do block of a call are those in their items. -/
theorem remoteCalls_argumentExprs (owner : String) (nodes : List Node) :
    (argumentExprs owner nodes).flatMap Expr.remoteCalls =
      (nodes.filter fun node => node.kind == .arguments || node.kind == .doBlock).flatMap fun node =>
        node.items.flatMap fun item => (exprOf owner item).remoteCalls := by
  induction nodes with
  | nil => rfl
  | cons node nodes ih =>
    obtain ⟨kind, role, text, children⟩ := node
    rw [argumentExprs.eq_def]
    dsimp only
    split
    · rw [List.filter_cons_of_pos rfl, List.flatMap_cons, List.flatMap_append, ih, itemExprs_eq,
        List.flatMap_map]
      rfl
    · rw [List.filter_cons_of_pos rfl, List.flatMap_cons, List.flatMap_cons, ih, Expr.remoteCalls,
        Expr.remoteCallsAll_eq, itemExprs_eq, List.flatMap_map]
      rfl
    · rename_i notArguments notDoBlock
      rw [List.filter_cons_of_neg, ih]
      simpa [Node.kind] using ⟨notArguments, notDoBlock⟩

/-- The kinds whose nodes only group their children. -/
def Kind.isGroup : Kind → Bool
  | .binaryOperator | .unaryOperator | .pair | .call | .quotedAtom => false
  | kind => !kind.isWord

/-- A kind is a word, a group or one of five others. -/
theorem Kind.isWord_or_isGroup_or (kind : Kind) :
    kind.isWord = true ∨ kind.isGroup = true ∨ kind = .binaryOperator ∨ kind = .unaryOperator ∨
      kind = .pair ∨ kind = .quotedAtom ∨ kind = .call := by
  cases kind <;> decide

/-- A name that may be called is a word or stands in quotes. -/
theorem Kind.isQuotedName_or_isWord {kind : Kind} (called : kind.isCalledName = true) :
    kind.isQuotedName = true ∨ kind.isWord = true := by
  cases kind <;> first | decide | cases called

/-- The calls in a group are those in its items. -/
theorem remoteCalls_of_isGroup {owner : String} {node : Node} (group : node.kind.isGroup = true) :
    (exprOf owner node).remoteCalls =
      node.items.flatMap fun item => (exprOf owner item).remoteCalls := by
  have lowered : exprOf owner node =
      if node.children.isEmpty then .inert else .block (itemExprs owner node.children) := by
    obtain ⟨kind, role, text, children⟩ := node
    rw [exprOf.eq_def]
    dsimp only
    split
    case h_16 => rfl
    all_goals exact absurd group Bool.false_ne_true
  rw [lowered, Node.items]
  cases node.children with
  | nil => rfl
  | cons child children =>
    rw [List.isEmpty_cons, if_neg Bool.false_ne_true, Expr.remoteCalls, Expr.remoteCallsAll_eq,
      itemExprs_eq, List.flatMap_map]

/-- A word is an expression without calls. -/
theorem remoteCalls_of_isWord {owner : String} {node : Node} (grammatical : node.Grammatical)
    (word : node.kind.isWord = true) : (exprOf owner node).remoteCalls = [] := by
  have bare := grammatical.children_of_isWord word
  obtain ⟨kind, role, text, children⟩ := node
  obtain rfl : children = [] := bare
  rw [exprOf.eq_def]
  dsimp only
  split
  case h_16 => rfl
  all_goals first | rfl | exact absurd word Bool.false_ne_true

/-- A call through a dot is static if a module stands before the dot and a name behind. -/
theorem Node.staticCall?_of_dot {owner : String} {node target : Node} (call : node.kind = .call)
    (found : node.child? .target = some target) (dot : target.kind = .dot) :
    node.staticCall? owner = (target.child? .left).bind fun left =>
      (left.module? owner).bind fun named => (target.child? .right).bind fun name =>
        if name.kind = .identifier then some ⟨named, name.text⟩ else none := by
  simp [staticCall?, guard, call, found, dot]

/-- A call through a dot that is no static call is what stands before the dot and the arguments. -/
theorem exprOf_of_dot {owner : String} {node target : Node} (call : node.kind = .call)
    (found : node.child? .target = some target) (dot : target.kind = .dot) :
    exprOf owner node =
      match node.staticCall? owner with
      | some key => .remoteCall key.owner key.function (argumentExprs owner node.children)
      | none => .block (((target.child? .left).map (exprOf owner)).toList ++
          argumentExprs owner node.children) := by
  rw [Node.staticCall?_of_dot call found dot]
  obtain ⟨kind, role, text, children⟩ := node
  obtain rfl : kind = .call := call
  have receiver : receiverExpr? owner children = (target.child? .left).map (exprOf owner) := by
    rw [receiverExpr?_eq, show children.find? (·.role == .target) = some target from found]
    rfl
  rw [Node.child?, Node.children] at found
  rw [exprOf.eq_def]
  simp only [found, receiver, dot, Node.children]
  cases target.child? .left with
  | none => rfl
  | some left =>
    cases target.child? .right with
    | none => simp
    | some right =>
      by_cases name : right.kind = .identifier
      · by_cases isAlias : left.kind = .aliasName
        · simp [name, isAlias, plainName, Node.module?]
        · by_cases self : left.kind = .identifier ∧ left.text = "__MODULE__"
          · simp [name, self, Node.module?]
          · simp [name, isAlias, self, Node.module?]
      · simp [name]

/-- What stands before the dot of a static call calls nothing. -/
theorem remoteCalls_of_module? {owner named : String} {left : Node}
    (isModule : left.module? owner = some named) : (exprOf owner left).remoteCalls = [] := by
  have word : left.kind = .aliasName ∨ left.kind = .identifier := by
    grind [Node.module?]
  obtain ⟨kind, role, text, children⟩ := left
  rcases word with isAlias | isName
  · obtain rfl : kind = .aliasName := isAlias
    rfl
  · obtain rfl : kind = .identifier := isName
    rfl

/-! ## Lowering -/

namespace Node

/-- The calls that lowering keeps of a node: those of its expression, or only those before the dot
if the node is the dot of a call. -/
def keptCalls (owner : String) (above : List Node) (node : Node) : List FunctionKey :=
  if node.isCalledDot above then
    (node.child? .left).elim [] fun left => (exprOf owner left).remoteCalls
  else (exprOf owner node).remoteCalls

/-- A call keeps its own static call, then what its target keeps, then its arguments. -/
theorem remoteCalls_of_call {owner : String} {node target : Node} (call : node.kind = .call)
    (found : node.child? .target = some target) (above : List Node) :
    (exprOf owner node).remoteCalls =
      (node.staticCall? owner).toList ++ target.keptCalls owner (node :: above) ++
        (argumentExprs owner node.children).flatMap Expr.remoteCalls := by
  have isTarget : target.role = .target := by simpa using List.find?_some found
  by_cases dot : target.kind = .dot
  · have called : target.isCalledDot (node :: above) = true := by
      simp [isCalledDot, dot, isTarget, call]
    rw [exprOf_of_dot call found dot, keptCalls, if_pos called]
    cases static : node.staticCall? owner with
    | some key =>
      rw [staticCall?_of_dot call found dot] at static
      obtain ⟨left, before, static⟩ := Option.bind_eq_some_iff.mp static
      obtain ⟨named, isModule, -⟩ := Option.bind_eq_some_iff.mp static
      rw [before, Option.elim_some, remoteCalls_of_module? isModule, Expr.remoteCalls,
        Expr.remoteCallsAll_eq]
      rfl
    | none =>
      rw [Expr.remoteCalls, Expr.remoteCallsAll_eq, List.flatMap_append]
      cases target.child? .left with
      | none => rfl
      | some left => rw [Option.map_some, Option.toList_some, List.flatMap_singleton]; rfl
  · have notCalled : ¬target.isCalledDot (node :: above) = true := by simp [isCalledDot, dot]
    have noStatic : node.staticCall? owner = none := by simp [staticCall?, guard, found, dot]
    rw [keptCalls, if_neg notCalled, noStatic]
    obtain ⟨kind, role, text, children⟩ := node
    obtain rfl : kind = .call := call
    rw [child?, Node.children] at found
    rw [exprOf.eq_def]
    simp only [partExpr?_eq, found, Node.children]
    split
    · rename_i h
      obtain ⟨kind, role, text, children⟩ := target
      obtain rfl : kind = .identifier := h
      simp [exprOf, Expr.remoteCalls, Expr.remoteCallsAll_eq]
    · exact absurd ‹_› dot
    · simp [Expr.remoteCalls, Expr.remoteCallsAll_eq]

/-! ## One node -/

/-- The calls in the items that a node does not hide. -/
def openCalls (owner : String) (above : List Node) (node : Node) : List FunctionKey :=
  node.items.flatMap fun item =>
    if node.hides above item then [] else (exprOf owner item).remoteCalls

/-- A node other than a dot keeps the calls of its expression. -/
theorem keptCalls_of_kind {owner : String} {node : Node} {above : List Node}
    (other : node.kind ≠ .dot) :
    node.keptCalls owner above = (exprOf owner node).remoteCalls := by
  rw [keptCalls, if_neg (by simp [isCalledDot, other])]

/-- A called dot is a dot. -/
theorem kind_of_isCalledDot {node : Node} {above : List Node}
    (called : node.isCalledDot above = true) : node.kind = .dot := by
  simp only [isCalledDot, Bool.and_eq_true, beq_iff_eq] at called
  exact called.1.1

def NamesCallee (above : List Node) (node : Node) : Prop :=
  node.isCalledDot above = true → ∀ name, node.child? .right = some name →
    name.kind.isCalledName = true

/-- A node other than a dot is not asked for a name. -/
theorem NamesCallee.of_kind {node : Node} {above : List Node} (other : node.kind ≠ .dot) :
    node.NamesCallee above :=
  fun called => absurd (kind_of_isCalledDot called) other

namespace Grammatical

variable {owner : String} {node : Node} {above : List Node}

/-- A node with one part has it as its only item. -/
theorem one_part (grammatical : node.Grammatical) {part : Role}
    (roles : node.items.map Node.role = [part]) (proper : part ≠ .item) :
    ∃ item, node.items = [item] ∧ item.role = part ∧ node.child? part = some item := by
  obtain ⟨item, items, role⟩ := List.map_eq_singleton_iff.mp roles
  refine ⟨item, items, role, ?_⟩
  rw [grammatical.child?_eq proper, items, List.find?_cons_of_pos (by simp [role])]

/-- A node with two parts has them as its only items. -/
theorem two_parts (grammatical : node.Grammatical) {first second : Role}
    (roles : node.items.map Node.role = [first, second]) (proper : first ≠ .item ∧ second ≠ .item)
    (distinct : first ≠ second) :
    ∃ left right, node.items = [left, right] ∧ left.role = first ∧ right.role = second ∧
      node.child? first = some left ∧ node.child? second = some right := by
  obtain ⟨left, rest, items, isFirst, roles⟩ := List.map_eq_cons_iff.mp roles
  obtain ⟨right, rfl, isSecond⟩ := List.map_eq_singleton_iff.mp roles
  refine ⟨left, right, items, isFirst, isSecond, ?_, ?_⟩
  · rw [grammatical.child?_eq proper.1, items, List.find?_cons_of_pos (by simp [isFirst])]
  · rw [grammatical.child?_eq proper.2, items, List.find?_cons_of_neg (by simp [isFirst, distinct]),
      List.find?_cons_of_pos (by simp [isSecond])]

/-- An operator keeps the calls of both operands. -/
theorem openCalls_of_binaryOperator (grammatical : node.Grammatical)
    (kind : node.kind = .binaryOperator) :
    node.openCalls owner above = (exprOf owner node).remoteCalls := by
  have shaped := grammatical.shaped
  rw [Shaped, kind] at shaped
  obtain ⟨left, right, items, -, -, isLeft, isRight⟩ :=
    grammatical.two_parts shaped (by decide) (by decide)
  have lowered : (exprOf owner node).remoteCalls =
      (exprOf owner left).remoteCalls ++ (exprOf owner right).remoteCalls := by
    obtain ⟨_, role, text, children⟩ := node
    obtain rfl := kind
    rw [child?, Node.children] at isLeft isRight
    rw [exprOf.eq_def]
    simp only [partExpr?_eq, isLeft, isRight, Option.map_some]
    split <;> rfl
  simp [openCalls, items, hides, isCalledDot, kind, lowered]

/-- A capture keeps nothing, any other operator the calls of its operand. -/
theorem openCalls_of_unaryOperator (grammatical : node.Grammatical)
    (kind : node.kind = .unaryOperator) :
    node.openCalls owner above = (exprOf owner node).remoteCalls := by
  have shaped := grammatical.shaped
  rw [Shaped, kind] at shaped
  obtain ⟨operand, items, -, isOperand⟩ := grammatical.one_part shaped (by decide)
  have lowered : (exprOf owner node).remoteCalls =
      if node.text = "&" then [] else (exprOf owner operand).remoteCalls := by
    obtain ⟨_, role, text, children⟩ := node
    obtain rfl := kind
    rw [child?, Node.children] at isOperand
    rw [exprOf.eq_def]
    simp only [partExpr?_eq, isOperand, Option.map_some, Option.getD_some, beq_iff_eq]
    exact apply_ite Expr.remoteCalls _ _ _
  simp [openCalls, items, hides, isCalledDot, kind, lowered]

/-- A pair keeps the calls of its value. -/
theorem openCalls_of_pair (grammatical : node.Grammatical) (kind : node.kind = .pair) :
    node.openCalls owner above = (exprOf owner node).remoteCalls := by
  have shaped := grammatical.shaped
  rw [Shaped, kind] at shaped
  obtain ⟨key, value, items, keyRole, valueRole, -, isValue⟩ :=
    grammatical.two_parts shaped (by decide) (by decide)
  have lowered : (exprOf owner node).remoteCalls = (exprOf owner value).remoteCalls := by
    obtain ⟨_, role, text, children⟩ := node
    obtain rfl := kind
    rw [child?, Node.children] at isValue
    rw [exprOf.eq_def]
    simp only [partExpr?_eq, isValue, Option.map_some]
    rfl
  simp [openCalls, items, hides, isCalledDot, kind, keyRole, valueRole, lowered]

/-- A quoted atom keeps nothing. -/
theorem openCalls_of_quotedAtom (kind : node.kind = .quotedAtom) :
    node.openCalls owner above = (exprOf owner node).remoteCalls := by
  have lowered : (exprOf owner node).remoteCalls = [] := by
    obtain ⟨_, role, text, children⟩ := node
    obtain rfl := kind
    rfl
  simp [openCalls, hides, kind, lowered]

/-- A word keeps nothing. -/
theorem openCalls_of_isWord (grammatical : node.Grammatical) (word : node.kind.isWord = true) :
    node.openCalls owner above = (exprOf owner node).remoteCalls := by
  rw [remoteCalls_of_isWord grammatical word, openCalls, items,
    grammatical.children_of_isWord word]
  rfl

/-- A group keeps the calls of all its items. -/
theorem openCalls_of_isGroup (group : node.kind.isGroup = true)
    (notCalled : node.isCalledDot above = false) :
    node.openCalls owner above = (exprOf owner node).remoteCalls := by
  have shown : ∀ item, node.hides above item = false := fun item => by
    have notUnary : node.kind ≠ .unaryOperator := fun kind => by rw [kind] at group; cases group
    have notQuoted : node.kind ≠ .quotedAtom := fun kind => by rw [kind] at group; cases group
    have notPair : node.kind ≠ .pair := fun kind => by rw [kind] at group; cases group
    simp [hides, notCalled, notUnary, notQuoted, notPair]
  rw [remoteCalls_of_isGroup group, openCalls]
  simp only [shown, if_neg Bool.false_ne_true]

/-- The dot of a call keeps what stands before it. -/
theorem openCalls_of_isCalledDot (grammatical : node.Grammatical)
    (called : node.isCalledDot above = true)
    (named : ∀ name, node.child? .right = some name → name.kind.isCalledName = true) :
    node.openCalls owner above =
      (node.child? .left).elim [] fun left => (exprOf owner left).remoteCalls := by
  have kind := kind_of_isCalledDot called
  have shaped := grammatical.shaped
  rw [Shaped, kind] at shaped
  rcases shaped with shaped | shaped
  · obtain ⟨left, items, leftRole, isLeft⟩ := grammatical.one_part shaped (by decide)
    simp [openCalls, items, isLeft, hides, kind, leftRole]
  · obtain ⟨left, right, items, leftRole, rightRole, isLeft, isRight⟩ :=
      grammatical.two_parts shaped (by decide) (by decide)
    have silent : (if node.hides above right then [] else (exprOf owner right).remoteCalls) = [] := by
      rcases Kind.isQuotedName_or_isWord (named right isRight) with quoted | word
      · rw [if_pos (by simp [hides, called, rightRole, quoted])]
      · have mem : right ∈ node.children := List.mem_of_find?_eq_some isRight
        rw [remoteCalls_of_isWord (grammatical.child mem) word, ite_self]
    have shown : node.hides above left = false := by simp [hides, kind, leftRole]
    rw [openCalls, items, List.flatMap_cons, List.flatMap_singleton, silent, shown, isLeft]
    exact List.append_nil _

/-- Every node but a call keeps the calls that it does not hide. -/
theorem openCalls_eq_keptCalls (grammatical : node.Grammatical) (noCall : node.kind ≠ .call)
    (named : node.NamesCallee above) :
    node.openCalls owner above = node.keptCalls owner above := by
  rw [keptCalls]
  split
  case isTrue called => exact grammatical.openCalls_of_isCalledDot called (named called)
  case isFalse notCalled =>
    rcases node.kind.isWord_or_isGroup_or with word | group | kind | kind | kind | kind | kind
    · exact grammatical.openCalls_of_isWord word
    · exact openCalls_of_isGroup group (Bool.eq_false_iff.mpr notCalled)
    · exact grammatical.openCalls_of_binaryOperator kind
    · exact grammatical.openCalls_of_unaryOperator kind
    · exact grammatical.openCalls_of_pair kind
    · exact openCalls_of_quotedAtom kind
    · exact absurd kind noCall

/-- The calls from a node that is no call are those that it does not hide, if lowering keeps them in
its children. -/
theorem callsFrom_of_noCall (grammatical : node.Grammatical) (noCall : node.kind ≠ .call)
    (seen : node.isHidden above = false)
    (below : ∀ child ∈ node.children, child.isHidden (node :: above) = false →
      child.callsFrom owner (node :: above) = (exprOf owner child).remoteCalls) :
    node.callsFrom owner above = node.openCalls owner above := by
  have noStatic : node.staticCall? owner = none := by simp [staticCall?, guard, noCall]
  rw [grammatical.callsFrom_of_seen seen, noStatic]
  refine List.flatMap_congr fun item mem => ?_
  have mem := List.mem_of_mem_filter mem
  have hidden : item.isHidden (node :: above) = node.hides above item := by
    rw [isHidden, seen, Bool.or_false]
  cases hides : node.hides above item with
  | true => exact (grammatical.child mem).callsFrom_of_isHidden (hidden.trans hides)
  | false => exact below item mem (hidden.trans hides)

/-- The arguments and the do block of a call are what follows its target. -/
theorem arguments_eq {target : Node} {rest : List Node} (items : node.items = target :: rest)
    (callable : target.Callable)
    (kinds : rest.map Node.kind ∈ [[], [.arguments], [.doBlock], [.arguments, .doBlock]]) :
    (node.children.filter fun child => child.kind == .arguments || child.kind == .doBlock) =
      rest := by
  have ofItems : (node.children.filter fun child => child.kind == .arguments || child.kind == .doBlock) =
      node.items.filter fun child => child.kind == .arguments || child.kind == .doBlock := by
    rw [Node.items, List.filter_filter]
    refine List.filter_congr fun child _ => ?_
    grind [isComment]
  rw [ofItems, items, List.filter_cons_of_neg (by grind [callable.kind])]
  refine List.filter_eq_self.mpr fun child mem => ?_
  have mem : child.kind ∈ rest.map Node.kind := List.mem_map_of_mem mem
  grind

/-- A call keeps the static calls below it, if its children do. -/
theorem callsFrom_of_call (grammatical : node.Grammatical) (call : node.kind = .call)
    (seen : node.isHidden above = false)
    (below : ∀ child ∈ node.children, child.NamesCallee (node :: above) →
      child.isHidden (node :: above) = false →
      child.callsFrom owner (node :: above) = child.keptCalls owner (node :: above)) :
    node.callsFrom owner above = (exprOf owner node).remoteCalls := by
  have shaped := grammatical.shaped
  rw [Shaped, call] at shaped
  obtain ⟨target, rest, items, isTarget, callable, kinds⟩ := shaped
  have found : node.child? .target = some target := by
    rw [grammatical.child?_eq (by decide), items,
      List.find?_cons_of_pos (by simp [isTarget])]
  have shown : ∀ child : Node, child.isHidden (node :: above) = false := fun child => by
    simp [isHidden, seen, hides, isCalledDot, call]
  have isChild : ∀ child ∈ target :: rest, child ∈ node.children := fun child mem =>
    List.mem_of_mem_filter (items ▸ mem : child ∈ node.items)
  rw [grammatical.callsFrom_of_seen seen, remoteCalls_of_call call found above,
    remoteCalls_argumentExprs, arguments_eq items callable kinds, items, List.flatMap_cons,
    List.append_assoc]
  congr 2
  · refine below target (isChild target List.mem_cons_self) (fun called => ?_) (shown target)
    exact callable.name (kind_of_isCalledDot called)
  · refine List.flatMap_congr fun child mem => ?_
    have kind : child.kind = .arguments ∨ child.kind = .doBlock := by
      have mem : child.kind ∈ rest.map Node.kind := List.mem_map_of_mem mem
      grind
    have other : child.kind ≠ .dot := by grind
    have group : child.kind.isGroup = true := by grind [Kind.isGroup, Kind.isWord]
    rw [below child (isChild child (List.mem_cons_of_mem target mem)) (.of_kind other) (shown child),
      keptCalls_of_kind other, remoteCalls_of_isGroup group]

/-! ## The whole tree -/

/-- **Lowering keeps the static calls of a tree**, wherever it stands in sight. -/
theorem callsFrom_eq_keptCalls (grammatical : node.Grammatical) (named : node.NamesCallee above)
    (seen : node.isHidden above = false) :
    node.callsFrom owner above = node.keptCalls owner above := by
  -- the nodes above change on the way down, so the claim is for all of them
  induction grammatical generalizing above with
  | intro node shaped children ih =>
    have grammatical := Grammatical.intro node shaped children
    by_cases call : node.kind = .call
    · rw [keptCalls_of_kind (by rw [call]; decide)]
      exact grammatical.callsFrom_of_call call seen fun child mem => ih child mem
    · rw [← grammatical.openCalls_eq_keptCalls call named]
      refine grammatical.callsFrom_of_noCall call seen fun child mem seen => ?_
      have notCalled : ¬child.isCalledDot (node :: above) = true := by simp [isCalledDot, call]
      rw [ih child mem (absurd · notCalled) seen, keptCalls, if_neg notCalled]

/-- The calls of the expression of a tree are its static calls. -/
theorem remoteCalls_exprOf (grammatical : node.Grammatical) :
    (exprOf owner node).remoteCalls = node.staticCalls owner := by
  have notCalled : ¬node.isCalledDot [] = true := by simp [isCalledDot]
  rw [staticCalls, grammatical.callsFrom_eq_keptCalls (absurd · notCalled) rfl, keptCalls,
    if_neg notCalled]

end Grammatical

end Node

/-- **Lowering keeps every static call, in source order.** The calls in the expression of a
grammatical node are the static calls of its tree, and every node of a source that can be read is
grammatical. -/
theorem lowering_keeps_static_calls (owner : String) :
    (∀ node : Node, node.Grammatical → (exprOf owner node).remoteCalls = node.staticCalls owner) ∧
      ∀ text source, parse text = .ok source → ∀ place ∈ source.places [],
        place.node.Grammatical := by
  constructor
  · intro node grammatical
    exact grammatical.remoteCalls_exprOf
  · intro text source read place mem
    exact (grammatical_of_parse read).of_mem_places mem

/-- A call in a capture and one in a quoted name are hidden, the others are kept in order. -/
theorem lowering_keeps_static_calls_nested :
    let text := "A . B.f(g.h(C.i()), k: &D.j/1) |> E.\"#\x7bF.l()\x7d\"(__MODULE__.m())".toList
    let calls : List FunctionKey := [⟨"A.B", "f"⟩, ⟨"C", "i"⟩, ⟨"M", "m"⟩]
    ∃ source, parse text = .ok source ∧ source.Grammatical ∧ source.staticCalls "M" = calls ∧
      (exprOf "M" source).remoteCalls = calls := by
  intro text calls
  have static : (parse text).toOption.map (Node.staticCalls "M") = some calls := by decide +kernel
  cases read : parse text with
  | error fault =>
    rw [read] at static
    cases static
  | ok source =>
    rw [read] at static
    have static : source.staticCalls "M" = calls := Option.some.inj static
    have law := lowering_keeps_static_calls "M"
    have grammatical := law.2 text source read ⟨source, []⟩ (source.mem_places_self [])
    exact ⟨source, rfl, grammatical, static, (law.1 source grammatical).trans static⟩

end CallChart.Elixir
