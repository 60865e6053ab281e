/-!
# Operators of Elixir

Binary operators have a power and group to one side: of two neighbours the
one of higher power takes the operand between them, and operators of equal
power group as the table says. Operators are found by longest match.

An operator may also be named (`&+/2`, `Kernel.+`); those that can are
listed in `Operator.nameable`.
-/

namespace CallChart.Elixir

def after? (mark : String) (text : List Char) : Option (List Char) :=
  mark.toList.isPrefixOf? text

def startsWith (mark : String) (text : List Char) : Bool :=
  (after? mark text).isSome

/-- Blanks inside a line. -/
def isBlank (c : Char) : Bool := c == ' ' || c == '\t'

/-- Blanks and line ends. -/
def isSpace (c : Char) : Bool := isBlank c || c == '\n' || c == '\r'

/-- Marks that end a word operator, besides blanks and line ends. -/
def wordEnds : List Char :=
  ['@', '.', '+', '-', '^', '*', '/', '<', '>', '|', '~', '=', '&', '\\', '%',
   '\x7b', '\x7d', '[', ']', '(', ')', '"', '\x27', ',', ';', '#']

/-- Does a word operator end before this text? -/
def endsWord (text : List Char) : Bool :=
  text.head?.any fun c => isSpace c || wordEnds.contains c

structure Operator where
  text : String
  /-- The operator of higher power takes the operand between two. -/
  power : Nat
  /-- Do operators of this power group to the right? -/
  groupsRight : Bool := false
  deriving DecidableEq, Repr

namespace Operator

def dotPower : Nat := 210

def accessPower : Nat := 205

/-- Binary operators that are marks. Longer spellings come first, so that the first one that fits is
the longest. -/
def marks : List Operator :=
  [⟨"|||", 80, false⟩, ⟨"&&&", 90, false⟩, ⟨"===", 100, false⟩, ⟨"!==", 100, false⟩,
   ⟨"<<<", 120, false⟩, ⟨">>>", 120, false⟩, ⟨"<<~", 120, false⟩, ⟨"~>>", 120, false⟩,
   ⟨"<~>", 120, false⟩, ⟨"<|>", 120, false⟩, ⟨"^^^", 140, false⟩, ⟨"+++", 160, true⟩,
   ⟨"---", 160, true⟩, ⟨"<-", 10, false⟩, ⟨"\\\\", 10, false⟩, ⟨"::", 30, true⟩,
   ⟨"=>", 50, true⟩, ⟨"||", 80, false⟩, ⟨"&&", 90, false⟩, ⟨"==", 100, false⟩,
   ⟨"!=", 100, false⟩, ⟨"=~", 100, false⟩, ⟨"<=", 110, false⟩, ⟨">=", 110, false⟩,
   ⟨"|>", 120, false⟩, ⟨"<~", 120, false⟩, ⟨"~>", 120, false⟩, ⟨"//", 150, true⟩,
   ⟨"++", 160, true⟩, ⟨"--", 160, true⟩, ⟨"<>", 160, true⟩, ⟨"..", 160, true⟩,
   ⟨"**", 190, false⟩, ⟨"|", 40, true⟩, ⟨"=", 70, true⟩, ⟨"<", 110, false⟩,
   ⟨">", 110, false⟩, ⟨"+", 170, false⟩, ⟨"-", 170, false⟩, ⟨"*", 180, false⟩,
   ⟨"/", 180, false⟩]

def words : List Operator :=
  [⟨"when", 20, true⟩, ⟨"or", 80, false⟩, ⟨"and", 90, false⟩, ⟨"in", 130, false⟩]

/-- Marks that may stand for the operator itself. -/
def nameable : List String :=
  ["|||", "&&&", "===", "!==", "<<<", ">>>", "<<~", "~>>", "<~>", "<|>", "^^^", "+++", "---", "~~~",
   "<-", "\\\\", "::", "||", "&&", "==", "!=", "=~", "<=", ">=", "|>", "<~", "~>", "++", "--", "<>",
   "**", "->", "|", "=", "<", ">", "+", "-", "*", "/", "&", "!", "^", "@"]

/-- The first of the spellings with which the text begins, and what follows it. -/
def spelling? (spellings : List String) (text : List Char) : Option (String × List Char) :=
  spellings.findSome? fun spelling => (after? spelling text).map (spelling, ·)

/-- The text after `not in`, with any blanks between the words or none. The two words are one
operator wherever they stand together. -/
def afterNotIn? (text : List Char) : Option (List Char) := do
  let rest ← after? "not" text
  let rest ← after? "in" (rest.dropWhile isBlank)
  guard (endsWord rest)
  return rest

def notIn : Operator := ⟨"not in", 130, false⟩

/-- The binary operator with which the text begins. An arrow and a closing `>>` are none. -/
def binary? (text : List Char) : Option (Operator × List Char) :=
  if startsWith "->" text || (startsWith ">>" text && !startsWith ">>>" text) then none
  else match afterNotIn? text with
    | some rest => some (notIn, rest)
    | none => (marks ++ words).findSome? fun operator =>
        (after? operator.text text).map (operator, ·)

end Operator

end CallChart.Elixir
