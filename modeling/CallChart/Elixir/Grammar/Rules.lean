import CallChart.Elixir.Reader

/-!
# The knot of the grammar

Expressions stand inside expressions. The rules of the grammar are written
over the readers of what stands inside, gathered in `Rules`, and the knot is
tied at the end, up to a depth that the length of the source bounds. Loops
of a rule take a bound of their own.
-/

namespace CallChart.Elixir

/-- What a pair of parentheses holds. Where a clause may start, they may also enclose its
arguments. -/
inductive Group where
  /-- Expressions or clauses: these parentheses are a block. -/
  | block (children : List Node)
  /-- One expression or none: a block, or the arguments of a clause. -/
  | either (children : List Node)
  /-- Several values or keywords: the arguments of a clause. -/
  | arguments (children : List Node)

/-- The readers of what stands inside an expression. A rule that is written over them recurses
nowhere itself, so what it reads can be told from what they read. -/
structure Rules where
  /-- An expression whose operators have at least the given power. -/
  expression : Context → Nat → Reader Node
  /-- The same, when its first operand has been read. -/
  climb : Context → Nat → Node → Reader Node
  /-- What parentheses hold, after the opening one and with the closing one. -/
  group : Context → Reader Group

namespace Grammar

open Reader

/-! ## Quoted text -/

def interpolation (r : Rules) (ctx : Context) : Reader Node := do
  let before ← skip
  if ← accept "\x7d" then return .group .interpolation before
  let value ← r.expression ctx.bracket 0
  let behind ← expect ctx.bracket "\x7d"
  return .group .interpolation (before ++ value :: behind)

/-- Quoted text, after its opening mark and with its closing one. Content and escapes leave a node
each without a spelling: only that they are there can matter. `n` bounds the pieces. -/
def quoted (r : Rules) (ctx : Context) (quote : Quote) : Nat → Reader (List Node)
  | 0 => refuse ctx
  | n + 1 => do
    let (seen, rest) := quote.content false false (← get)
    set rest
    let content := if seen then [Node.leaf .quotedContent ""] else []
    if ← accept quote.closingMark then return content
    if ← accept "#\x7b" then
      let inner ← interpolation r ctx
      return content ++ inner :: (← quoted r ctx quote n)
    match escape? rest with
    | some rest =>
      set rest
      return content ++ Node.leaf .escapeSequence "" :: (← quoted r ctx quote n)
    | none => refuse { ctx with unclosed := ctx.unclosed + 1 }

def textKind (quote : Quote) : Kind :=
  if quote.closing == '"' then .string else .charlist

/-! ## Values and keywords -/

inductive Element where
  | value (node : Node)
  | keyed (pair : Node)

/-- A value whose operators have at least the given power, or a keyword. Quoted text is a keyword
key when a colon and a blank follow it. -/
def element (r : Rules) (ctx : Context) (n power : Nat) : Reader Element := do
  let _ ← skip
  let text ← get
  match Lexeme.key? text with
  | some (key, rest) =>
    set rest
    return .keyed (.keyed (.leaf .keyword key) (← r.expression ctx 0))
  | none =>
    match Quote.opens? Quote.plain text with
    | some (quote, rest) =>
      set rest
      let children ← quoted r ctx quote n
      let behind ← get
      match if quote.heredoc then none else Lexeme.keyEnd? behind with
      | some rest =>
        set rest
        return .keyed (.keyed (.group .quotedKeyword children) (← r.expression ctx 0))
      | none => return .value (← r.climb ctx power (.group (textKind quote) children))
    | none => return .value (← r.expression ctx power)

/-- A keyword, which has to stand here. -/
def pair (r : Rules) (ctx : Context) (n : Nat) : Reader Node := do
  let _ ← skip
  let text ← get
  if (Lexeme.key? text).isSome || (Quote.opens? Quote.plain text).isSome then
    match ← element r ctx n 0 with
    | .keyed node => return node
    | .value _ => set text; refuse ctx
  else refuse ctx

/-- The keywords after the first one: they go on as long as a comma follows. -/
def morePairs (r : Rules) (ctx : Context) : Nat → Reader (List Node)
  | 0 => refuse ctx
  | n + 1 => do
    if ← acceptNext ctx "," then
      let node ← pair r ctx n
      return node :: (← morePairs r ctx n)
    else return []

def keywords (r : Rules) (ctx : Context) (n : Nat) (first : Node) : Reader Node := do
  return .group .keywords (first :: (← morePairs r ctx n))

/-- What a bracket holds: values and comments, then keywords. -/
structure Entries where
  values : List Node := []
  pairs : List Node := []

namespace Entries

/-- The entries as children; the keywords are one node. -/
def children (entries : Entries) : List Node :=
  entries.values ++ if entries.pairs.isEmpty then [] else [.group .keywords entries.pairs]

def isEmpty (entries : Entries) : Bool :=
  entries.pairs.isEmpty && entries.values.all Node.isComment

def comment (entries : Entries) (comments : List Node) : Entries :=
  if entries.pairs.isEmpty then { entries with values := entries.values ++ comments }
  else { entries with pairs := entries.pairs ++ comments }

end Entries

/-- Entries up to the closing mark. `mayClose` says that the mark may stand here, and `loose` that
it may stand after a comma that follows a value; after a keyword it always may. -/
def entries (r : Rules) (ctx : Context) (closing : String) (loose : Bool) :
    Nat → Bool → Entries → Reader Entries
  | 0, _, _ => refuse ctx
  | n + 1, mayClose, found => do
    let found := found.comment (← skip)
    if mayClose then
      if ← accept closing then return found
    let found ← if found.pairs.isEmpty then do
        match ← element r ctx n 0 with
        | .value node => pure { found with values := found.values ++ [node] }
        | .keyed node => pure { found with pairs := [node] }
      else do
        let node ← pair r ctx n
        pure { found with pairs := found.pairs ++ [node] }
    let found := found.comment (← skip)
    if ← accept "," then entries r ctx closing loose n (loose || !found.pairs.isEmpty) found
    else if ← accept closing then return found
    else refuse ctx

def items (r : Rules) (ctx : Context) (closing : String) (n : Nat) : Reader Entries :=
  entries r ctx.bracket closing true n true {}

def parenArguments (r : Rules) (ctx : Context) (n : Nat) : Reader Node := do
  return .group .arguments (← entries r ctx.bracket ")" false n true {}).children

def moreArguments (r : Rules) (ctx : Context) : Nat → Reader (List Node)
  | 0 => refuse ctx
  | n + 1 => do
    if ← acceptNext ctx "," then
      match ← element r ctx n 0 with
      | .value node => return node :: (← moreArguments r ctx n)
      | .keyed node => return [← keywords r ctx n node]
    else return []

/-- The arguments of a call without parentheses. They go on as long as a comma follows, and keywords
end them. A do block after them is left for the call. -/
def bareArguments (r : Rules) (ctx : Context) (n : Nat) : Reader Node := do
  let ctx := ctx.argument
  match ← element r ctx n 0 with
  | .value node => return .group .arguments (node :: (← moreArguments r ctx n))
  | .keyed node => return .group .arguments [← keywords r ctx n node]

end Grammar

end CallChart.Elixir
