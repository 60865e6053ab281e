import CallChart.Elixir.Node
import CallChart.Elixir.Quote

/-!
# Reading a source

A reader takes text from the front of what is left and may refuse it. A
refusal is a fault: it says where the text went wrong, in characters left,
so that the line can be told from the whole source.

What is read also depends on what stands around it. A context says whether
a line end ends an expression here, which words close the body around it,
and whether a call further out takes the next do block or the next brace.
-/

namespace CallChart.Elixir

/-- Why a text is not Elixir. A fault names no line, since a reader sees only what is left of the
text; the line is told afterwards by `Fault.line?`, from the whole. -/
inductive Fault where
  /-- The token with this many characters from its start to the end cannot stand there. -/
  | unexpected (left : Nat)
  /-- The text ends inside this many brackets and blocks, of which the inner one may be a
  bracket. -/
  | unfinished (unclosed : Nat) (bracket : Bool)
  | emptyKey
  deriving DecidableEq, Repr

def lineEnds (text : List Char) : Nat := text.count '\n'

def endsWithEnd (text : List Char) : Bool :=
  let word := ((text.reverse.dropWhile isSpace).takeWhile Letter.follows).reverse
  word == "end".toList

/-- The line a fault is on. An unfinished text goes wrong where it ends. But if an open bracket
takes the `end` of the block around it, then it is the block that goes wrong, from its first line
on. An index without key has no line. -/
def Fault.line? (text : List Char) : Fault → Option Nat
  | .unexpected left => some (1 + lineEnds (text.take (text.length - left)))
  | .unfinished unclosed bracket =>
    if 1 < unclosed && bracket && endsWithEnd text
    then some (1 + lineEnds (text.takeWhile isSpace))
    else some (1 + lineEnds text)
  | .emptyKey => none

/-- What stands around the place that is read. -/
structure Context where
  /-- Does a line end end an expression? -/
  newlineEnds : Bool
  closers : List String := []
  /-- Does a call further out take the next do block? -/
  doTaken : Bool := false
  /-- Does a struct name further out take the next brace? -/
  braceTaken : Bool := false
  /-- The number of brackets and blocks that are open. -/
  unclosed : Nat := 0

namespace Context

def source : Context := { newlineEnds := true }

/-- Inside brackets, where line ends mean nothing. -/
def bracket (ctx : Context) : Context :=
  { newlineEnds := false, unclosed := ctx.unclosed + 1 }

def paren (ctx : Context) : Context :=
  { newlineEnds := true, closers := [")"], unclosed := ctx.unclosed + 1 }

def doBody (ctx : Context) : Context :=
  { newlineEnds := true, closers := ["end", "after", "rescue", "catch", "else"],
    unclosed := ctx.unclosed + 1 }

/-- Before the first arrow of an anonymous function. -/
def functionHead (ctx : Context) : Context :=
  { newlineEnds := false, unclosed := ctx.unclosed + 1 }

/-- In the clauses of an anonymous function. -/
def functionBody (ctx : Context) : Context :=
  { newlineEnds := true, closers := ["end"], unclosed := ctx.unclosed + 1 }

/-- In the arguments of a call without parentheses. A do block that comes next belongs to the call
and not to its last argument. -/
def argument (ctx : Context) : Context := { ctx with doTaken := true }

/-- Where only an arrow can end the list that is read. -/
def beforeArrow (ctx : Context) : Context := { ctx with newlineEnds := false, closers := [] }

/-- The name of a struct, up to its brace: no do block and no brace is taken for a part of it. -/
def structName (ctx : Context) : Context :=
  { newlineEnds := false, doTaken := true, braceTaken := true, unclosed := ctx.unclosed + 1 }

end Context

abbrev Reader := StateT (List Char) (Except Fault)

namespace Reader

/-- Refuses the token that stands here. At the end of the text it is not a token that is wrong: then
the fault says how much is still open. -/
def refuse {α : Type} (ctx : Context) : Reader α := do
  let text ← get
  throw (if text.isEmpty then .unfinished ctx.unclosed (!ctx.newlineEnds)
    else .unexpected text.length)

/-- Skips to the next token, over line ends too, and answers the comments on the way. -/
def skip : Reader (List Node) := do
  let gap := Gap.of (← get)
  set gap.rest
  return Node.comments gap.comments

/-- The next token on the way that the context allows, nothing where an expression ends before
it. -/
def next? (ctx : Context) : Reader (Option Gap) := do
  let gap := Gap.of (← get)
  return if ctx.newlineEnds && gap.newline then none else some gap

def accept (mark : String) : Reader Bool := do
  match after? mark (← get) with
  | some rest => set rest; return true
  | none => return false

/-- Takes the mark if it comes next on the way that the context allows. -/
def acceptNext (ctx : Context) (mark : String) : Reader Bool := do
  match (← next? ctx).bind fun gap => after? mark gap.rest with
  | some rest => set rest; return true
  | none => return false

/-- Takes the mark, which has to come next; answers the comments before it. -/
def expect (ctx : Context) (mark : String) : Reader (List Node) := do
  let comments ← skip
  if ← accept mark then return comments else refuse ctx

/-- Takes line ends and a semicolon between two expressions. Answers whether there were any, and
the comments on the way. -/
def terminator : Reader (Bool × List Node) := do
  let gap := Gap.of (← get)
  match after? ";" gap.rest with
  | some rest => set rest; return (true, Node.comments gap.comments)
  | none =>
    if gap.newline then
      set gap.rest
      return (true, Node.comments gap.comments)
    else return (false, [])

/-- Does the body around close here, where a name could stand too? A closing word with a colon
behind it is a keyword key and closes nothing. The end of the text closes the source and no other
body. -/
def atCloser (ctx : Context) : Reader Bool := do
  let text := (Gap.of (← get)).rest
  if text.isEmpty then return ctx.unclosed == 0
  if (Lexeme.key? text).isSome then return false
  return match Lexeme.name? text with
    | some (word, _) => ctx.closers.contains word
    | none => ctx.closers.any (startsWith · text)

end Reader

end CallChart.Elixir
