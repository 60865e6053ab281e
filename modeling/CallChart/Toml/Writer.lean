import CallChart.Toml.Value

/-!
# Writing TOML

A text is written in the plainest of five forms that can hold it: in double
quotes, in single quotes, over several lines in three double or three single
quotes, and with escapes. A list of several values takes a line for each.
-/

namespace CallChart.Toml

/-- The length of the longest run of a character, counted on from a run of `current`. -/
def longestRun (c : Char) (current : Nat) : List Char → Nat
  | [] => 0
  | d :: ds =>
    if d = c then max (current + 1) (longestRun c (current + 1) ds) else longestRun c 0 ds

inductive TextForm where
  /-- In double quotes. -/
  | basic
  /-- In single quotes, without escapes. -/
  | literal
  /-- In three double quotes. -/
  | longBasic
  /-- In three single quotes, without escapes. -/
  | longLiteral
  deriving DecidableEq, Repr

/-- The form that a text is written in: the first one that can hold it as it is, but for tabs, and a
form with escapes only if there is none. Line ends need three quotes, and a control character needs
escapes. -/
def TextForm.of (text : List Char) : TextForm :=
  let newline := text.contains '\n'
  let control := text.any fun c => isControl c && c != '\n'
  let backslash := text.contains '\\'
  let doubles := longestRun '"' 0 text
  let singles := longestRun '\x27' 0 text
  if !control && !backslash && doubles == 0 && !newline then .basic
  else if !control && singles == 0 && !newline then .literal
  else if !control && !backslash && doubles ≤ 2 then .longBasic
  else if !control && singles ≤ 2 then .longLiteral
  else if newline then .longBasic
  else .basic

def hexDigit (n : Nat) : Char :=
  if n < 10 then Char.ofNat (48 + n) else Char.ofNat (55 + n)

def codeEscape (c : Char) : List Char :=
  let n := c.toNat
  ['\\', 'u', hexDigit (n / 4096 % 16), hexDigit (n / 256 % 16), hexDigit (n / 16 % 16),
    hexDigit (n % 16)]

/-- The escape of a character other than the double quote, if it needs one. -/
def escape? (long : Bool) (c : Char) : Option (List Char) :=
  match c with
  | '\x08' => some ['\\', 'b']
  | '\t' => some ['\\', 't']
  | '\n' => if long then none else some ['\\', 'n']
  | '\x0c' => some ['\\', 'f']
  | '\r' => some ['\\', 'r']
  | '\\' => some ['\\', '\\']
  | _ => if isControl c then some (codeEscape c) else none

/-- A text with escapes. `quotes` double quotes stand right before it; two in a row need no escape
in the long form. -/
def escaped (long : Bool) (quotes : Nat) : List Char → List Char
  | [] => []
  | c :: cs =>
    if c = '"' then
      if long && quotes < 2 then '"' :: escaped long (quotes + 1) cs
      else '\\' :: '"' :: escaped long 0 cs
    else
      match escape? long c with
      | some mark => mark ++ escaped long 0 cs
      | none => c :: escaped long 0 cs

/-- A line end after the opening quotes of a long text that has line ends. It is dropped when the
text is read, so a text that starts with one keeps it. -/
def opening (text : List Char) : List Char := if text.contains '\n' then ['\n'] else []

def quote (text : List Char) : List Char :=
  match TextForm.of text with
  | .basic => '"' :: escaped false 0 text ++ ['"']
  | .literal => '\x27' :: text ++ ['\x27']
  | .longBasic => ['"', '"', '"'] ++ opening text ++ escaped true 0 text ++ ['"', '"', '"']
  | .longLiteral =>
    ['\x27', '\x27', '\x27'] ++ opening text ++ text ++ ['\x27', '\x27', '\x27']

mutual

/-- A value as it is written. Tables stand in braces, and what is not kept of a value is not
written. -/
def render : Toml → List Char
  | .text value => quote value.toList
  | .integer value => (toString value).toList
  | .boolean value => (if value then "true" else "false").toList
  | .list [] => ['[', ']']
  | .list [item] => '[' :: render item ++ [']']
  | .list (first :: second :: items) =>
    '[' :: '\n' :: renderLines (first :: second :: items) ++ [']']
  | .table entries => '\x7b' :: renderEntries entries ++ [' ', '\x7d']
  | .float | .moment => []

def renderLines : List Toml → List Char
  | [] => []
  | item :: items => [' ', ' ', ' ', ' '] ++ render item ++ [',', '\n'] ++ renderLines items

def renderEntries : List (String × Toml) → List Char
  | [] => []
  | [(name, value)] => ' ' :: name.toList ++ [' ', '=', ' '] ++ render value
  | (name, value) :: entries =>
    ' ' :: name.toList ++ [' ', '=', ' '] ++ render value ++ [','] ++ renderEntries entries

end

def renderLine (entry : String × Toml) : List Char :=
  entry.1.toList ++ [' ', '=', ' '] ++ render entry.2 ++ ['\n']

def renderTable (table : String × List (String × Toml)) : List Char :=
  '[' :: table.1.toList ++ [']', '\n'] ++ table.2.flatMap renderLine

def renderDocument (tables : List (String × List (String × Toml))) : List Char :=
  List.intercalate ['\n'] (tables.map renderTable)

end CallChart.Toml
