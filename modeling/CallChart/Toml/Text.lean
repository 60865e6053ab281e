import CallChart.Text.Quoted
import CallChart.Toml.Value

/-!
# Reading TOML texts

Each reader takes what comes after the opening quotes, and answers the text
and what comes after the closing ones. A line end is kept as a newline,
however it is written. Readers go character by character, with what is
pending as a mode.
-/

namespace CallChart.Toml

open Text (hexValue?)

def charOfCode? (n : Nat) : Option Char := if n.isValidChar then some (Char.ofNat n) else none

abbrev TextRead := Option (List Char × List Char)

def TextRead.push (c : Char) (read : TextRead) : TextRead :=
  read.map fun (chars, rest) => (c :: chars, rest)

/-- Where the reading of a text with escapes stands. -/
inductive EscapeMode where
  /-- Anything may come; this many double quotes of a long text have been taken as text. -/
  | plain (quotes : Nat)
  /-- A backslash came. -/
  | escape
  /-- So many digits of a code are to come. -/
  | code (left value : Nat)
  /-- A backslash and blanks came, and a line end has to come. -/
  | lineEnd
  /-- An escaped line end came, and blanks and line ends are skipped. -/
  | skipping
  /-- A return came, and a newline has to come. -/
  | afterReturn (skipping : Bool)

/-- What a letter after a backslash stands for. -/
def escapeChar? (c : Char) : Option Char :=
  match c with
  | 'b' => some '\x08'
  | 't' => some '\t'
  | 'n' => some '\n'
  | 'f' => some '\x0c'
  | 'r' => some '\r'
  | '"' => some '"'
  | '\\' => some '\\'
  | _ => none

def isBlank (c : Char) : Bool := c == ' ' || c == '\t'

/-- A text in double quotes, after the opening one. Control characters have to be escaped, line ends
among them, and an escape that is not known refuses the text. -/
def basicText : EscapeMode → List Char → TextRead
  | _, [] => none
  | .escape, c :: cs =>
    match escapeChar? c with
    | some d => (basicText (.plain 0) cs).push d
    | none =>
      if c = 'u' then basicText (.code 4 0) cs
      else if c = 'U' then basicText (.code 8 0) cs
      else none
  | .code left value, c :: cs =>
    match hexValue? c with
    | none => none
    | some digit =>
      let value := 16 * value + digit
      if left ≤ 1 then
        match charOfCode? value with
        | some d => (basicText (.plain 0) cs).push d
        | none => none
      else basicText (.code (left - 1) value) cs
  | _, c :: cs =>
    if c = '"' then some ([], cs)
    else if c = '\\' then basicText .escape cs
    else if isControl c then none
    else (basicText (.plain 0) cs).push c

/-- A text in three double quotes. One or two quotes right before the closing ones belong to the
text, so five quotes in a row close it and six are refused. A backslash at the end of a line takes
the line end and all blanks after it away. -/
def longBasicText : EscapeMode → List Char → TextRead
  | _, [] => none
  | .escape, c :: cs =>
    match escapeChar? c with
    | some d => (longBasicText (.plain 0) cs).push d
    | none =>
      if c = 'u' then longBasicText (.code 4 0) cs
      else if c = 'U' then longBasicText (.code 8 0) cs
      else if isBlank c then longBasicText .lineEnd cs
      else if c = '\n' then longBasicText .skipping cs
      else if c = '\r' then longBasicText (.afterReturn true) cs
      else none
  | .code left value, c :: cs =>
    match hexValue? c with
    | none => none
    | some digit =>
      let value := 16 * value + digit
      if left ≤ 1 then
        match charOfCode? value with
        | some d => (longBasicText (.plain 0) cs).push d
        | none => none
      else longBasicText (.code (left - 1) value) cs
  | .lineEnd, c :: cs =>
    if isBlank c then longBasicText .lineEnd cs
    else if c = '\n' then longBasicText .skipping cs
    else if c = '\r' then longBasicText (.afterReturn true) cs
    else none
  | .afterReturn skipping, c :: cs =>
    if c = '\n' then
      if skipping then longBasicText .skipping cs else (longBasicText (.plain 0) cs).push '\n'
    else none
  | .skipping, c :: cs =>
    if isBlank c || c = '\n' then longBasicText .skipping cs
    else if c = '\r' then longBasicText (.afterReturn true) cs
    else if c = '"' then
      match cs with
      | '"' :: '"' :: '"' :: _ => (longBasicText (.plain 1) cs).push '"'
      | '"' :: '"' :: rest => some ([], rest)
      | _ => (longBasicText (.plain 0) cs).push '"'
    else if c = '\\' then longBasicText .escape cs
    else if isControl c then none
    else (longBasicText (.plain 0) cs).push c
  | .plain quotes, c :: cs =>
    if c = '"' then
      match cs with
      | '"' :: '"' :: '"' :: _ =>
        if quotes < 2 then (longBasicText (.plain (quotes + 1)) cs).push '"' else none
      | '"' :: '"' :: rest => some ([], rest)
      | _ => (longBasicText (.plain 0) cs).push '"'
    else if c = '\\' then longBasicText .escape cs
    else if c = '\n' then (longBasicText (.plain 0) cs).push '\n'
    else if c = '\r' then longBasicText (.afterReturn false) cs
    else if isControl c then none
    else (longBasicText (.plain 0) cs).push c

def literalText : List Char → TextRead
  | [] => none
  | c :: cs =>
    if c = '\x27' then some ([], cs)
    else if isControl c then none
    else (literalText cs).push c

/-- A text in three single quotes. `quotes` single quotes have been taken as text. -/
def longLiteralText (quotes : Nat) : List Char → TextRead
  | [] => none
  | c :: cs =>
    if c = '\x27' then
      match cs with
      | '\x27' :: '\x27' :: '\x27' :: _ =>
        if quotes < 2 then (longLiteralText (quotes + 1) cs).push '\x27' else none
      | '\x27' :: '\x27' :: rest => some ([], rest)
      | _ => (longLiteralText 0 cs).push '\x27'
    else if c = '\n' then (longLiteralText 0 cs).push '\n'
    else if c = '\r' then
      match cs with
      | '\n' :: _ => longLiteralText 0 cs
      | _ => none
    else if isControl c then none
    else (longLiteralText 0 cs).push c

/-- What comes after a line end right after the opening quotes. -/
def afterOpening : List Char → List Char
  | '\n' :: rest => rest
  | '\r' :: '\n' :: rest => rest
  | chars => chars

/-- A text in any of its forms, told apart by the quotes it opens with. -/
def text? : List Char → TextRead
  | '"' :: '"' :: '"' :: rest => longBasicText (.plain 0) (afterOpening rest)
  | '"' :: rest => basicText (.plain 0) rest
  | '\x27' :: '\x27' :: '\x27' :: rest => longLiteralText 0 (afterOpening rest)
  | '\x27' :: rest => literalText rest
  | _ => none

end CallChart.Toml
