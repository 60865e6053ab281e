import CallChart.Elixir.Letter
import CallChart.Elixir.Gap
import CallChart.Text.Quoted

/-!
# Names and literals of Elixir

Each function looks at the beginning of a text. It answers the longest
lexeme of its class and what follows it, or nothing. Which classes are
asked for at a place is the grammar's matter: a reserved word, say, is a
name wherever the grammar has no use for it.
-/

namespace CallChart.Elixir.Lexeme

/-- An optional `?` or `!` at the end of a name. -/
def punctuation (text : List Char) : List Char × List Char :=
  match text with
  | '?' :: rest => (['?'], rest)
  | '!' :: rest => (['!'], rest)
  | _ => ([], text)

def word? (first further : Char → Bool) (text : List Char) : Option (String × List Char) :=
  match text with
  | [] => none
  | c :: cs =>
    if first c then
      let (letters, rest) := cs.span further
      let (mark, rest) := punctuation rest
      some (String.ofList (c :: letters ++ mark), rest)
    else none

/-- A name of a variable or a function; `...` is one too. -/
def name? (text : List Char) : Option (String × List Char) :=
  match after? "..." text with
  | some rest => some ("...", rest)
  | none => word? Letter.starts Letter.follows text

def atomWord? (text : List Char) : Option (String × List Char) :=
  word? Letter.opens (fun c => Letter.follows c || c == '@') text

/-- Marks that may be an atom or a keyword key, longer spellings first; all but `::` may be a
key. -/
def atomMarks : List String :=
  ["<<>>", "..//", "|||", "&&&", "===", "!==", "<<<", ">>>", "<<~", "~>>", "<~>", "<|>", "^^^",
   "+++", "---", "~~~", "...", "%\x7b\x7d", "<-", "\\\\", "::", "||", "&&", "==", "!=", "=~", "<=",
   ">=", "|>", "<~", "~>", "//", "++", "--", "<>", "..", "**", "->", "\x7b\x7d", "|", "=", "<",
   ">", "+", "-", "*", "/", "&", "!", "^", "@", ".", "%"]

/-- The blank character after the colon of a keyword key. -/
def keyEnd? (text : List Char) : Option (List Char) :=
  match text with
  | ':' :: c :: rest => if isSpace c then some rest else none
  | _ => none

/-- A keyword key: a word or marks, a colon and a blank character. Without the blank it is no key.
The spelling is kept with one blank, whichever stood there. -/
def key? (text : List Char) : Option (String × List Char) :=
  let ofWord := (atomWord? text).bind fun (word, rest) =>
    (keyEnd? rest).map fun rest => (word ++ ": ", rest)
  let ofMark := (atomMarks.filter (· != "::")).findSome? fun mark =>
    (after? mark text).bind fun rest => (keyEnd? rest).map fun rest => (mark ++ ": ", rest)
  ofWord.or ofMark

def atom? (text : List Char) : Option (String × List Char) := do
  let rest ← after? ":" text
  let (name, rest) ← (atomWord? rest).or (Operator.spelling? atomMarks rest)
  return (":" ++ name, rest)

inductive AliasPlace where
  | name | beforeDot | afterDot

/-- Scans an alias. `seen` holds the characters read so far, last one first, and `best` the longest
alias found yet with what follows it. -/
def scanAlias (seen : List Char) (best : List Char × List Char) :
    AliasPlace → List Char → List Char × List Char
  | _, [] => best
  | place, c :: cs =>
    let seen := c :: seen
    match place with
    | .name =>
      if Letter.followsCapital c then scanAlias seen (seen, cs) .name cs
      else if isSpace c then scanAlias seen best .beforeDot cs
      else if c == '.' then scanAlias seen best .afterDot cs
      else best
    | .beforeDot =>
      if isSpace c then scanAlias seen best .beforeDot cs
      else if c == '.' then scanAlias seen best .afterDot cs
      else best
    | .afterDot =>
      if isSpace c then scanAlias seen best .afterDot cs
      else if c.isUpper then scanAlias seen (seen, cs) .name cs
      else best

/-- An alias: capitalised parts with dots between them, and blanks around the dots. -/
def alias? (text : List Char) : Option (String × List Char) :=
  match text with
  | [] => none
  | c :: cs =>
    if c.isUpper then
      let (seen, rest) := scanAlias [c] ([c], cs) .name cs
      some (String.ofList seen.reverse, rest)
    else none

/-- Digits in groups with single underscores between them. An underscore that no digit follows is
not part of the number. -/
def digits (isDigit : Char → Bool) : List Char → List Char × List Char
  | [] => ([], [])
  | '_' :: c :: cs =>
    if isDigit c then
      let (more, rest) := digits isDigit (c :: cs)
      ('_' :: more, rest)
    else ([], '_' :: c :: cs)
  | c :: cs =>
    if isDigit c then
      let (more, rest) := digits isDigit cs
      (c :: more, rest)
    else ([], c :: cs)

def digits? (isDigit : Char → Bool) (text : List Char) : Option (List Char × List Char) :=
  if text.head?.any isDigit then some (digits isDigit text) else none

def isHex (c : Char) : Bool := (Text.hexValue? c).isSome

/-- An integer, with its base before it if it is not ten. -/
def integer? (text : List Char) : Option (List Char × List Char) :=
  let based (mark : String) (isDigit : Char → Bool) := do
    let (found, rest) ← digits? isDigit (← after? mark text)
    return (mark.toList ++ found, rest)
  (based "0b" fun c => c == '0' || c == '1')
    |>.or (based "0o" fun c => '0' ≤ c && c ≤ '7')
    |>.or (based "0x" isHex)
    |>.or (digits? Char.isDigit text)

def exponent? (text : List Char) : Option (List Char × List Char) :=
  match text with
  | e :: rest =>
    if e == 'e' || e == 'E' then
      let (sign, rest) := match rest with
        | '-' :: more => (['-'], more)
        | '+' :: more => (['+'], more)
        | _ => ([], rest)
      (integer? rest).map fun (found, rest) => (e :: sign ++ found, rest)
    else none
  | [] => none

def float? (text : List Char) : Option (List Char × List Char) := do
  let (whole, rest) ← digits? Char.isDigit text
  let (part, rest) ← digits? Char.isDigit (← after? "." rest)
  match exponent? rest with
  | some (power, rest) => return (whole ++ '.' :: part ++ power, rest)
  | none => return (whole ++ '.' :: part, rest)

/-- A character literal: `?` and a character, or `?\` and the character it escapes. -/
def char? (text : List Char) : Option (String × List Char) :=
  match text with
  | '?' :: '\\' :: c :: rest =>
    if c == '\n' then some ("?\\", c :: rest) else some (String.ofList ['?', '\\', c], rest)
  | '?' :: c :: rest => if c == '\n' then none else some (String.ofList ['?', c], rest)
  | _ => none

/-- Does an arity follow the name of an operator? Then the operator is named and not used, as in
`+/2`; blanks, line ends and comments may stand around the slash. -/
def arity? (text : List Char) : Option (List Char × List Char) := do
  let rest ← after? "/" (Gap.of text).rest
  integer? (Gap.of rest).rest

end CallChart.Elixir.Lexeme
