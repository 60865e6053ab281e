import CallChart.Elixir.Operator

/-!
# What stands between two tokens

Blanks, comments and line ends stand between tokens. A line end may end an
expression, but not before a line that starts with a comment or with an
operator that needs something on its left: such an expression goes on.
-/

namespace CallChart.Elixir

/-- Marks that carry an expression on when a line starts with them, longer spellings first. -/
def continuingMarks : List String :=
  ["&&&", "===", "+++", "---", "<~>", "<|>", "<<<", "<<~", ">>>", "^^^", "!==", "~>>", "|||",
   "&&", "==", "=~", "=>", "::", "++", "--", "->", "<=", "<-", "<>", "<~", ">=", "!=", "~>",
   "||", "|>", "**", "//", "..", "\\\\", "=", "<", ">", "|", "*", "/", "."]

/-- Beginnings that look like a continuing mark and are none. -/
def otherMarks : List String := [":::", "...", "<<", "<|", ">>"]

/-- Marks that are longer than the beginnings in `otherMarks`. -/
def longMarks : List String := ["<<<", "<<~", "<|>", ">>>"]

/-- After an operator: is it used as one, not as a keyword key and not with an arity? -/
def standsAsOperator (text : List Char) : Bool :=
  match text with
  | ':' :: rest => !(rest.head?.any isSpace)
  | _ => match text.dropWhile isBlank with
    | '/' :: rest => !((rest.dropWhile isSpace).head?.any Char.isDigit)
    | _ => true

/-- Does a line that starts so carry on the expression before it? -/
def carriesOn (text : List Char) : Bool :=
  let byWord := ["when", "and", "or", "in"].any fun word =>
    (after? word text).any fun rest => endsWord rest && standsAsOperator rest
  let byNotIn := (Operator.afterNotIn? text).any standsAsOperator
  let byMark :=
    if otherMarks.any (startsWith · text) && !longMarks.any (startsWith · text) then false
    else (Operator.spelling? continuingMarks text).any fun found => standsAsOperator found.2
  byWord || byNotIn || byMark

/-- What stands before a token. A line end that cannot end an expression, because the next line
carries on, is not noted; a context that asks for line ends never sees it. -/
structure Gap where
  /-- The text from the token on. -/
  rest : List Char
  /-- Is there a line end that may end an expression? -/
  newline : Bool := false
  /-- Does a blank stand right before the token? -/
  blank : Bool := false
  comments : Nat := 0

namespace Gap

/-- Where the scan of a gap stands. -/
inductive Place where
  /-- Between tokens; `joined` after a line end that a backslash takes away. -/
  | between (joined : Bool)
  | comment
  /-- After a backslash that takes the line end away. -/
  | joint

/-- At a line end: does the expression before it go on after it? A comment decides nothing: the line
end after it is asked again. -/
def goesOn (text : List Char) : Bool :=
  let line := text.dropWhile isSpace
  line.head? == some '#' || carriesOn line

def scan (gap : Gap) : Place → List Char → Gap
  | _, [] => { gap with rest := [] }
  | .comment, c :: cs =>
    if c == '\n' then
      if goesOn cs then scan { gap with blank := false } (.between false) cs
      else scan { gap with newline := true, blank := false } (.between false) cs
    else scan gap .comment cs
  | .joint, c :: cs =>
    if c == '\n' then scan { gap with blank := false } (.between true) cs
    else scan gap .joint cs
  | .between joined, c :: cs =>
    if isBlank c then scan { gap with blank := !joined } (.between joined) cs
    else if c == '\n' then
      if goesOn cs then scan { gap with blank := false } (.between false) cs
      else scan { gap with newline := true, blank := false } (.between false) cs
    else if c == '\r' && (cs.head? == some '\n' || goesOn cs) then
      scan gap (.between joined) cs
    else if c == '#' then scan { gap with comments := gap.comments + 1 } .comment cs
    else if c == '\\' && (startsWith "\n" cs || startsWith "\r\n" cs) then scan gap .joint cs
    else { gap with rest := c :: cs }

def of (text : List Char) : Gap := scan { rest := text } (.between false) text

end Gap

end CallChart.Elixir
