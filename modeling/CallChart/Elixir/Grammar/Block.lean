import CallChart.Elixir.Grammar.Rules

/-!
# Blocks and clauses

A body holds expressions or clauses with an arrow. Which of the two stands
there shows only after the first expression: its arrow, a comma or a guard
make it the head of a clause. In the body of a clause every expression on a
line of its own may turn out to be the head of the next clause.
-/

namespace CallChart.Elixir.Grammar

open Reader

/-- What stands at the start of a line of a body. Which of the three it is shows only at its end, so
it is read as a whole before the tree is built. -/
inductive Item where
  | expression (node : Node)
  /-- The left side of a clause, with its arrow. -/
  | head (left : List Node)
  /-- Several values that no arrow follows. -/
  | arguments (nodes : List Node)

/-- The arrow of a clause, when it comes next; an arrow with an arity names the operator. -/
def acceptArrow (ctx : Context) : Reader Bool := do
  match (← next? ctx).bind fun gap => after? "->" gap.rest with
  | some rest =>
    if (Lexeme.arity? rest).isSome then return false
    set rest
    return true
  | none => return false

def clauseArguments (nodes : List Node) : Node := (Node.group .arguments nodes).as .left

def guarded (nodes : List Node) (condition : Node) : Node :=
  (Node.binary (.group .arguments nodes) "when" condition).as .left

/-- After the arguments of a clause, where nothing but a guard and the arrow can come. Values in
parentheses may also end there. -/
def headEnd (r : Rules) (ctx : Context) (nodes : List Node) : Reader Item := do
  let ctx := ctx.beforeArrow
  if ← acceptArrow ctx then return .head [clauseArguments nodes]
  if ← acceptNext ctx "when" then
    let condition ← r.expression ctx 0
    if ← acceptArrow ctx then return .head [guarded nodes condition]
  let _ ← skip
  if startsWith ")" (← get) then return .arguments nodes
  refuse ctx

/-- The weakest operators, which a guard takes in. -/
def matchOperator? (text : List Char) : Option (Operator × List Char) :=
  (Operator.binary? text).filter fun found => found.1.power == 10

/-- A guard that may also be the right side of a plain operator: an arrow decides. `condition` is
the guard so far and `plain` the expression so far. Answers the guard, if it is one, or the
expression. -/
def guardOrPlain (r : Rules) (ctx : Context) : Nat → Node → Node → Reader (Node ⊕ Node)
  | 0, _, _ => refuse ctx
  | n + 1, condition, plain => do
    if ← acceptArrow ctx then return .inl condition
    match (← next? ctx).bind fun gap => matchOperator? gap.rest with
    | some (operator, rest) =>
      set rest
      let right ← r.expression ctx (operator.power + 1)
      guardOrPlain r ctx n (.binary condition operator.text right)
        (.binary plain operator.text right)
    | none => return .inr plain

/-- After a first operand without the weakest operators: the rest of the expression, or of the
head of a clause. `before` holds the arguments before it. -/
def itemTail (r : Rules) (ctx : Context) : Nat → List Node → Node → Reader Item
  | 0, _, _ => refuse ctx
  | n + 1, before, node => do
    if ← acceptArrow ctx then return .head [clauseArguments (before ++ [node])]
    match (← next? ctx).bind fun gap => matchOperator? gap.rest with
    | some (operator, rest) =>
      set rest
      let right ← r.expression ctx (operator.power + 1)
      itemTail r ctx n before (.binary node operator.text right)
    | none =>
      if ← acceptNext ctx "when" then
        match ← element r ctx n 20 with
        | .keyed first =>
          itemTail r ctx n before (.binary node "when" (← keywords r ctx n first))
        | .value right =>
          match ← guardOrPlain r ctx n right (.binary node "when" right) with
          | .inl condition => return .head [guarded (before ++ [node]) condition]
          | .inr plain => itemTail r ctx n before plain
      else if ← acceptNext ctx "," then
        let ctx := ctx.beforeArrow
        match ← element r ctx n 21 with
        | .keyed first => headEnd r ctx (before ++ [node, ← keywords r ctx n first])
        | .value next => itemTail r ctx n (before ++ [node]) next
      else if before.isEmpty then return .expression node
      else
        let _ ← skip
        if startsWith ")" (← get) then return .arguments (before ++ [node]) else refuse ctx

/-- What stands at the start of a line of a body where a clause may start. -/
def item (r : Rules) (ctx : Context) (n : Nat) : Reader Item := do
  let _ ← skip
  if ← acceptArrow ctx then return .head []
  if ← accept "(" then
    let onward (children : List Node) : Reader Item := do
      itemTail r ctx n [] (← r.climb ctx 21 (.group .block children))
    match ← r.group ctx with
    | .block children => onward children
    | .arguments children => headEnd r ctx children
    | .either children =>
      let text := ((← next? ctx).map Gap.rest).getD []
      if startsWith "when" text || startsWith "->" text then headEnd r ctx children
      else onward children
  else
    match ← element r ctx n 21 with
    | .value node => itemTail r ctx n [] node
    | .keyed first => headEnd r ctx [← keywords r ctx n first]

def moreExpressions (r : Rules) (ctx : Context) : Nat → Reader (List Node)
  | 0 => refuse ctx
  | n + 1 => do
    let (ended, comments) ← terminator
    if !ended then return []
    if ← atCloser ctx then return comments
    let node ← r.expression ctx 0
    return comments ++ node :: (← moreExpressions r ctx n)

/-- The rest of the body of a clause, and the left side of the clause that follows, if one does. -/
def moreBody (r : Rules) (ctx : Context) : Nat → Reader (List Node × Option (List Node))
  | 0 => refuse ctx
  | n + 1 => do
    let (ended, comments) ← terminator
    if !ended then return ([], none)
    if ← atCloser ctx then return (comments, none)
    match ← item r ctx n with
    | .expression node =>
      let (more, left) ← moreBody r ctx n
      return (comments ++ node :: more, left)
    | .head left => return ([], some left)
    | .arguments _ => refuse ctx

def clause (left comments : List Node) (body : Option (List Node)) : Node :=
  let body := match body with
    | some nodes => [(Node.group .body nodes).as .right]
    | none => []
  .group .stabClause (left ++ comments ++ body)

/-- Clauses from the arrow of the first one on. A terminator alone is an empty body, unless the
next clause follows it. -/
def clauses (r : Rules) (ctx : Context) : Nat → List Node → Reader (List Node)
  | 0, _ => refuse ctx
  | n + 1, left => do
    let (ended, comments) ← terminator
    if ← atCloser ctx then
      return [clause left comments (if ended then some [] else none)]
    let first ← if ended then item r ctx n else .expression <$> r.expression ctx 0
    match first with
    | .head next => return clause left [] none :: (← clauses r ctx n next)
    | .arguments _ => refuse ctx
    | .expression node =>
      let (more, next) ← moreBody r ctx n
      let this := clause left comments (some (node :: more))
      match next with
      | none => return [this]
      | some next => return this :: (← clauses r ctx n next)

/-- Expressions or clauses up to what closes the body. -/
def bodyItems (r : Rules) (ctx : Context) (n : Nat) : Reader (List Node) := do
  if ← atCloser ctx then return []
  match ← item r ctx n with
  | .expression node => return node :: (← moreExpressions r ctx n)
  | .head left => clauses r ctx n left
  | .arguments _ => refuse ctx

def body (r : Rules) (ctx : Context) (n : Nat) : Reader (List Node) := do
  let (_, comments) ← terminator
  return comments ++ (← bodyItems r ctx n)

def sectionWords : List (String × Kind) :=
  [("after", .afterBlock), ("rescue", .rescueBlock), ("catch", .catchBlock), ("else", .elseBlock)]

/-- The sections of a do block after the first one, and its `end`. -/
def sections (r : Rules) (ctx : Context) : Nat → Reader (List Node)
  | 0 => refuse ctx
  | n + 1 => do
    let comments ← skip
    if ← accept "end" then return comments
    let text ← get
    match sectionWords.findSome? fun (word, kind) => (after? word text).map (kind, ·) with
    | some (kind, rest) =>
      set rest
      let node := Node.group kind (← body r ctx n)
      return comments ++ node :: (← sections r ctx n)
    | none => refuse ctx

def doBlock (r : Rules) (ctx : Context) (n : Nat) : Reader Node := do
  let ctx := ctx.doBody
  let first ← body r ctx n
  return .group .doBlock (first ++ (← sections r ctx n))

/-- The do block of a call, unless a call further out takes it. `newline` says that its `do` may
stand on a line of its own. -/
def doBlock? (r : Rules) (ctx : Context) (n : Nat) (newline : Bool) : Reader (List Node) := do
  if ctx.doTaken then return []
  let gap := Gap.of (← get)
  match after? "do" gap.rest with
  | some rest =>
    if ctx.newlineEnds && gap.newline && !(newline && endsWord rest) then return []
    set rest
    return [← doBlock r ctx n]
  | none => return []

/-- What parentheses hold, after the opening one and with the closing one. A terminator right after
the opening one makes them a block. One expression alone may still be the argument of a clause,
which only what follows the parentheses can tell. -/
def group (r : Rules) (ctx : Context) (n : Nat) : Reader Group := do
  let ctx := ctx.paren
  let (ended, comments) ← terminator
  if ended then
    let children ← bodyItems r ctx n
    return .block (comments ++ children ++ (← expect ctx ")"))
  let comments ← skip
  if ← accept ")" then return .either comments
  match ← item r ctx n with
  | .head left =>
    let children ← clauses r ctx n left
    return .block (comments ++ children ++ (← expect ctx ")"))
  | .arguments children => return .arguments (comments ++ children ++ (← expect ctx ")"))
  | .expression node =>
    if (← next? ctx).any fun gap => startsWith ")" gap.rest then
      return .either (comments ++ node :: (← expect ctx ")"))
    let more ← moreExpressions r ctx n
    return .block (comments ++ node :: more ++ (← expect ctx ")"))

def anonymousFunction (r : Rules) (ctx : Context) (n : Nat) : Reader Node := do
  let (_, comments) ← terminator
  match ← item r ctx.functionHead n with
  | .head left =>
    let children ← clauses r ctx.functionBody n left
    return .group .anonymousFunction (comments ++ children ++ (← expect ctx.functionBody "end"))
  | _ => refuse ctx.functionHead

end CallChart.Elixir.Grammar
