import CallChart.Elixir.Grammar.Block

/-!
# Expressions

An expression is an operand and what follows it: an index, a name after a
dot, or an operator and its other operand. An operator is taken if it has
at least the power asked for, so that the stronger one of two neighbours
gets the operand between them.

A name may start a call without parentheses. Whether it does shows in what
comes next: an operand makes it a call, an operator does not. A sign may be
either, and is the start of an argument when a blank stands before it and
none behind.
-/

namespace CallChart.Elixir.Grammar

open Reader

/-! ## Where an argument starts -/

def unaryPower : String → Option Nat
  | "&" => some 60
  | "+" | "-" | "!" | "^" | "~~~" | "not" => some 200
  | "@" => some 220
  | _ => none

def operatorWords : List String := ["and", "or", "in", "when"]

def opensBitstring (text : List Char) : Bool :=
  startsWith "<<" text && !startsWith "<<<" text && !startsWith "<<~" text

/-- Is there no doubt that a sign followed by this text is a unary one? -/
def looksUnary (text : List Char) : Bool :=
  !(text.head?.any fun c => isSpace c || c == ':' || c == '/')

/-- Does an argument start after this gap, so that the name before it starts a call? A sign does if
a blank stands before it and none behind, since otherwise it is an operator between two operands.
`alone` says that no dot stands before the name; then the name of an operator, as in `f + / 2`, is
an argument too. -/
def startsArgument (ctx : Context) (alone : Bool) (gap : Gap) : Bool :=
  let text := gap.rest
  let named (rest : List Char) : Bool := alone && (Lexeme.arity? rest).isSome
  if (Lexeme.key? text).isSome then true
  else match Operator.afterNotIn? text with
  | some rest => named rest
  | none =>
    match Lexeme.name? text with
    | some (word, rest) =>
      if operatorWords.contains word then named rest
      else !(word == "do" || ctx.closers.contains word)
    | none =>
      match text with
      | [] => false
      | c :: cs =>
        if c.isDigit || c.isUpper || ['(', '[', '"', '\x27', '?', '%'].contains c then true
        else if c == '\x7b' then !ctx.braceTaken
        else if c == ':' && (cs.head?.any fun q => q == '"' || q == '\x27') then true
        else if (Lexeme.atom? text).isSome || opensBitstring text then true
        else if c == '~' && cs.head?.any Char.isAlpha then true
        else match Operator.spelling? Operator.nameable text with
          | none => false
          | some (operator, rest) =>
            if ["!", "^", "&", "@", "~~~"].contains operator then true
            else if operator == "+" || operator == "-" then
              gap.blank && looksUnary rest || named rest
            else named rest

/-- Does a range without ends start after this gap? It does if no operand follows. -/
def startsEmptyRange (gap : Gap) : Bool :=
  match after? ".." gap.rest with
  | some rest =>
    let after := Gap.of rest
    !startsArgument { newlineEnds := false } true { after with blank := true }
  | none => false

/-! ## Calls -/

/-- The rest of a call, after the opening one of its parentheses. A call in parentheses may be
called once more. -/
def parenCall (r : Rules) (ctx : Context) (n : Nat) (target : Node) (takesDo : Bool) :
    Reader Node := do
  let arguments ← parenArguments r ctx n
  let block ← if takesDo then doBlock? r ctx n true else pure []
  let call := Node.group .call (target.as .target :: arguments :: block)
  if ← acceptNext ctx "(" then
    let arguments ← parenArguments r ctx n
    return .group .call (call.as .target :: arguments :: (← doBlock? r ctx n true))
  else return call

def bareCall (r : Rules) (ctx : Context) (n : Nat) (target : Node) : Reader Node := do
  let arguments ← bareArguments r ctx n
  return .group .call (target.as .target :: arguments :: (← doBlock? r ctx n true))

/-- What a name stands for: a call, if arguments or a do block follow it, or itself. A parenthesis
counts only right behind the name, and a bracket there makes an index and no argument. -/
def named (r : Rules) (ctx : Context) (n : Nat) (name : String) : Reader Node := do
  let node := Node.leaf .identifier name
  if ← accept "(" then return ← parenCall r ctx n node true
  if startsWith "[" (← get) then return node
  if (← next? ctx).any fun gap => startsArgument ctx true gap || startsEmptyRange gap then
    return ← bareCall r ctx n node
  match ← doBlock? r ctx n false with
  | [] => return node
  | block => return .group .call (node.as .target :: block)

/-- A call of a name after a dot. Even without arguments it is a call, unlike a name alone. -/
def remoteCall (r : Rules) (ctx : Context) (n : Nat) (receiver name : Node) : Reader Node := do
  let target := Node.group .dot [receiver.as .left, name.as .right]
  if ← accept "(" then return ← parenCall r ctx n target true
  if startsWith "[" (← get) then return .group .call [target.as .target]
  if (← next? ctx).any (startsArgument ctx false) then return ← bareCall r ctx n target
  return .group .call (target.as .target :: (← doBlock? r ctx n true))

/-- What follows a dot: the arguments of an anonymous function, an alias, a tuple, or a name. -/
def dotted (r : Rules) (ctx : Context) (n : Nat) (receiver : Node) : Reader Node := do
  let _ ← skip
  if ← accept "(" then
    return ← parenCall r ctx n (.group .dot [receiver.as .left]) false
  if ← accept "\x7b" then
    let tuple := Node.group .tuple (← items r ctx "\x7d" n).children
    return .group .dot [receiver.as .left, tuple.as .right]
  let text ← get
  match Lexeme.alias? text with
  | some (name, rest) =>
    set rest
    return .group .dot [receiver.as .left, (Node.leaf .aliasName name).as .right]
  | none =>
  match Quote.opens? (Quote.plain.filter (!·.heredoc)) text with
  | some (quote, rest) =>
    set rest
    let children ← quoted r ctx quote n
    remoteCall r ctx n receiver (.group (textKind quote) children)
  | none =>
  match Operator.afterNotIn? text with
  | some rest =>
    set rest
    remoteCall r ctx n receiver (.leaf .operatorIdentifier "not in")
  | none =>
  match Lexeme.name? text with
  | some (name, rest) =>
    set rest
    remoteCall r ctx n receiver (.leaf .identifier name)
  | none =>
  match Operator.spelling? Operator.nameable text with
  | some (operator, rest) =>
    set rest
    remoteCall r ctx n receiver (.leaf .operatorIdentifier operator)
  | none => refuse ctx

/-! ## Operands -/

def map (r : Rules) (ctx : Context) (n : Nat) : Reader Node := do
  let before ← skip
  let name ← if startsWith "\x7b" (← get) then pure [] else do
    let start ← get
    let name ← r.expression ctx.structName (Operator.accessPower + 1)
    let fits := match name.kind with
      | .aliasName | .atom | .quotedAtom | .identifier | .unaryOperator | .dot => true
      | .call => (name.childOf? .arguments).isSome
      | _ => false
    if fits then pure [Node.group .structName [name]] else do
      set start
      refuse ctx.structName
  let between ← expect ctx.structName "\x7b"
  let found ← items r ctx "\x7d" n
  let content := if found.isEmpty then found.children
    else [Node.group .mapContent found.children]
  return .group .map (before ++ name ++ between ++ content)

def sigil (r : Rules) (ctx : Context) (n : Nat) : Reader Node := do
  let text ← get
  let (name, rest) := text.span Char.isUpper
  let (name, rest, interpolates) := match name, rest with
    | [], c :: rest => ([c], rest, true)
    | _, _ => (name, rest, false)
  set rest
  let _ ← skip
  match Quote.opens? (Quote.plain ++ Quote.bracketed) (← get) with
  | some (quote, rest) =>
    set rest
    let children ← quoted r ctx { quote with interpolates } n
    let (modifiers, rest) := (← get).span Char.isAlphanum
    set rest
    let modifiers := if modifiers.isEmpty then []
      else [Node.leaf .sigilModifiers (String.ofList modifiers)]
    return .group .sigil (.leaf .sigilName (String.ofList name) :: children ++ modifiers)
  | none => refuse ctx

/-- The operand of a capture. An integer and a parenthesised expression are taken alone. -/
def capture (r : Rules) (ctx : Context) : Reader Node := do
  let _ ← skip
  let text ← get
  if ← accept "(" then
    match ← r.group ctx with
    | .either children =>
      match children.filter (!·.isComment) with
      | [node] => return .unary "&" node
      | _ => return .unary "&" (← r.climb ctx 61 (.group .block children))
    | .block children => return .unary "&" (← r.climb ctx 61 (.group .block children))
    | .arguments _ => refuse ctx
  else match Lexeme.float? text, Lexeme.integer? text with
    | none, some (digits, rest) =>
      set rest
      return .unary "&" (.leaf .integer (String.ofList digits))
    | _, _ => return .unary "&" (← r.expression ctx 61)

/-- An operator where an operand stands: the name of the operator with its arity, or a unary
operator and its operand. -/
def operatorFirst (r : Rules) (ctx : Context) (operator : String) : Reader Node := do
  match Lexeme.arity? (← get) with
  | some (digits, rest) =>
    set rest
    return .binary (.leaf .operatorIdentifier operator) "/"
      (.leaf .integer (String.ofList digits))
  | none =>
    match unaryPower operator with
    | some power =>
      if operator == "&" then capture r ctx
      else return .unary operator (← r.expression ctx (power + 1))
    | none =>
      let _ ← skip
      refuse ctx

def wordFirst (r : Rules) (ctx : Context) (n : Nat) (word : String) : Reader Node :=
  match word with
  | "true" | "false" => return .leaf .boolean word
  | "nil" => return .leaf .nil word
  | "fn" => anonymousFunction r ctx n
  | "not" | "and" | "or" | "in" | "when" => operatorFirst r ctx word
  | _ => named r ctx n word

def number? (text : List Char) : Option (Node × List Char) :=
  match Lexeme.float? text with
  | some (digits, rest) => some (.leaf .float (String.ofList digits), rest)
  | none => (Lexeme.integer? text).map fun (digits, rest) =>
      (.leaf .integer (String.ofList digits), rest)

def markFirst (r : Rules) (ctx : Context) (n : Nat) (text : List Char) : Reader Node := do
  if ← accept "(" then
    match ← r.group ctx with
    | .block children | .either children => return .group .block children
    | .arguments _ => refuse ctx
  if ← accept "[" then return .group .list (← items r ctx "]" n).children
  if ← accept "\x7b" then return .group .tuple (← items r ctx "\x7d" n).children
  if opensBitstring text then
    set (text.drop 2)
    return .group .bitstring (← items r ctx ">>" n).children
  if ← accept "%" then return ← map r ctx n
  match Quote.opens? Quote.plain text with
  | some (quote, rest) =>
    set rest
    return .group (textKind quote) (← quoted r ctx quote n)
  | none =>
  match (after? ":" text).bind (Quote.opens? (Quote.plain.filter (!·.heredoc))) with
  | some (quote, rest) =>
    set rest
    return .group .quotedAtom (← quoted r ctx quote n)
  | none =>
  match Lexeme.atom? text with
  | some (name, rest) =>
    set rest
    return .leaf .atom name
  | none =>
  match Lexeme.char? text with
  | some (literal, rest) =>
    set rest
    return .leaf .char literal
  | none =>
  if (after? "~" text).any (·.head?.any Char.isAlpha) then
    set text.tail
    return ← sigil r ctx n
  if ← accept ".." then return .leaf .operatorIdentifier ".."
  match Operator.spelling? Operator.nameable text with
  | some (operator, rest) =>
    set rest
    operatorFirst r ctx operator
  | none => refuse ctx

/-- An operand, which has to stand here. A word is asked for first, then an alias and a number, and
marks last, so that reserved words are told apart before they are taken for names. -/
def operand (r : Rules) (ctx : Context) (n : Nat) : Reader Node := do
  let _ ← skip
  let text ← get
  match Operator.afterNotIn? text with
  | some rest =>
    set rest
    operatorFirst r ctx "not in"
  | none =>
  match Lexeme.name? text with
  | some (word, rest) =>
    set rest
    wordFirst r ctx n word
  | none =>
  match Lexeme.alias? text with
  | some (name, rest) =>
    set rest
    return .leaf .aliasName name
  | none =>
  match number? text with
  | some (node, rest) =>
    set rest
    return node
  | none => markFirst r ctx n text

/-! ## Operators -/

def access (r : Rules) (ctx : Context) (receiver : Node) : Reader Node := do
  let _ ← skip
  if startsWith "]" (← get) then throw .emptyKey
  let key ← r.expression ctx.bracket 0
  let _ ← expect ctx.bracket "]"
  return .group .accessCall [receiver.as .target, key.as .key]

/-- The right operand of a binary operator; after `when` and `|` keywords may stand. -/
def rightOperand (r : Rules) (ctx : Context) (n : Nat) (operator : Operator) : Reader Node := do
  let power := if operator.groupsRight then operator.power else operator.power + 1
  if operator.text == "when" || operator.text == "|" then
    match ← element r ctx n power with
    | .value node => return node
    | .keyed first => keywords r ctx n first
  else r.expression ctx power

def afterDot? (text : List Char) : Option (List Char) :=
  if startsWith ".." text then none else after? "." text

/-- Carries an expression on from an operand, by operators of at least the given power. What is
found becomes the left operand of the next one, so operators group to the left unless the right
operand takes in those of its own power. An index has to follow without a blank. -/
def climb (r : Rules) (ctx : Context) (power : Nat) : Nat → Node → Reader Node
  | 0, _ => refuse ctx
  | n + 1, node => do
    if power ≤ Operator.accessPower && startsWith "[" (← get) then
      modify List.tail
      return ← climb r ctx power n (← access r ctx node)
    match ← next? ctx with
    | none => return node
    | some gap =>
      match afterDot? gap.rest with
      | some rest =>
        if Operator.dotPower < power then return node
        set rest
        climb r ctx power n (← dotted r ctx n node)
      | none =>
        match Operator.binary? gap.rest with
        | none => return node
        | some (operator, rest) =>
          if operator.power < power then return node
          set rest
          let right ← rightOperand r ctx n operator
          climb r ctx power n (.binary node operator.text right)

/-! ## The knot -/

mutual

/-- An expression, up to a depth. Here the knot is tied: the rules get the readers of one depth less
for all that stands inside. Where the depth is used up the text is refused, which `parse` makes sure
does not happen. -/
def expressionWithin : Nat → Context → Nat → Reader Node
  | 0, ctx, _ => refuse ctx
  | n + 1, ctx, power => do
    let r : Rules := ⟨expressionWithin n, climbWithin n, groupWithin n⟩
    let first ← operand r ctx n
    climb r ctx power n first

def climbWithin : Nat → Context → Nat → Node → Reader Node
  | 0, ctx, _, _ => refuse ctx
  | n + 1, ctx, power, first =>
    climb ⟨expressionWithin n, climbWithin n, groupWithin n⟩ ctx power n first

def groupWithin : Nat → Context → Reader Group
  | 0, ctx => refuse ctx
  | n + 1, ctx => group ⟨expressionWithin n, climbWithin n, groupWithin n⟩ ctx n

end

def source (n : Nat) : Reader Node := do
  let r : Rules := ⟨expressionWithin n, climbWithin n, groupWithin n⟩
  let ctx := Context.source
  let (_, comments) ← terminator
  let children ← if ← atCloser ctx then pure [] else do
    let first ← r.expression ctx 0
    pure (first :: (← moreExpressions r ctx n))
  let rest ← skip
  if (← get).isEmpty then return .group .source (comments ++ children ++ rest) else refuse ctx

end Grammar

/-- Reads a source. A byte order mark before it does not count. Each rule takes a character before
it asks for what stands inside, so twice the length bounds both the depth and every loop. -/
def parse (text : List Char) : Except Fault Node :=
  let text := match text with
    | '\ufeff' :: rest => rest
    | _ => text
  (Grammar.source (2 * text.length + 2)).run' text

end CallChart.Elixir
