import CallChart.Elixir.Lexeme

/-!
# Quoted text of Elixir

A quote says how quoted text opens and closes and whether it may hold
interpolations. Its content runs to the closing delimiter, and stops before
that at an interpolation or at an escape. A heredoc closes only where its
delimiter is the first thing on a line.
-/

namespace CallChart.Elixir

structure Quote where
  opening : String
  /-- The character that closes it, three times for a heredoc. -/
  closing : Char
  /-- Does it close only at the start of a line? -/
  heredoc : Bool := false
  /-- May it hold interpolations and every escape? -/
  interpolates : Bool := true

namespace Quote

/-- The quotes that a string or a charlist may use, heredocs first. -/
def plain : List Quote :=
  [{ opening := "\"\"\"", closing := '"', heredoc := true },
   { opening := "'''", closing := '\x27', heredoc := true },
   { opening := "\"", closing := '"' },
   { opening := "'", closing := '\x27' }]

/-- The quotes that only a sigil may use. -/
def bracketed : List Quote :=
  [{ opening := "(", closing := ')' }, { opening := "\x7b", closing := '\x7d' },
   { opening := "[", closing := ']' }, { opening := "<", closing := '>' },
   { opening := "|", closing := '|' }, { opening := "/", closing := '/' }]

/-- The first of the quotes that opens the text, and what follows its opening mark. -/
def opens? (quotes : List Quote) (text : List Char) : Option (Quote × List Char) :=
  quotes.findSome? fun quote => (after? quote.opening text).map (quote, ·)

def closingMark (quote : Quote) : String :=
  String.ofList (List.replicate (if quote.heredoc then 3 else 1) quote.closing)

/-- Does the quoted text close here? `fresh` says that only blanks stand before on the line. -/
def closesAt (quote : Quote) (fresh : Bool) (text : List Char) : Bool :=
  startsWith quote.closingMark text && (!quote.heredoc || fresh)

/-- Skips content up to a closing mark, an interpolation or an escape, where the quote knows these.
The answer says whether there was any; `seen` does so for what stands before. A heredoc keeps track
of whether only blanks stand before on the line. -/
def content (quote : Quote) (fresh seen : Bool) : List Char → Bool × List Char
  | [] => (seen, [])
  | c :: cs =>
    if c == '\n' || c == '\r' || (fresh && isBlank c) then content quote true true cs
    else if closesAt quote fresh (c :: cs) then (seen, c :: cs)
    else if c == '#' && quote.interpolates && cs.head? == some '\x7b' then (seen, c :: cs)
    else if c == '\\' && !(quote.heredoc && cs.head? == some '\n')
        && (quote.interpolates || cs.head? == some quote.closing) then (seen, c :: cs)
    else content quote false true cs

end Quote

def bracedHex? (text : List Char) : Option (List Char) := do
  let rest ← after? "\x7b" text
  let (digits, rest) := rest.span Lexeme.isHex
  guard (!digits.isEmpty)
  after? "\x7d" rest

/-- An escape: a backslash and a character, or a code in hexadecimal digits. A code that is cut
short is no escape, and the text around it is refused. -/
def escape? (text : List Char) : Option (List Char) :=
  match text with
  | '\\' :: 'x' :: rest =>
    (bracedHex? rest).or <| match rest with
      | a :: b :: more =>
        if Lexeme.isHex a then some (if Lexeme.isHex b then more else b :: more) else none
      | [a] => if Lexeme.isHex a then some [] else none
      | [] => none
  | '\\' :: 'u' :: rest =>
    (bracedHex? rest).or <| match rest with
      | a :: b :: c :: d :: more => if [a, b, c, d].all Lexeme.isHex then some more else none
      | _ => none
  | '\\' :: _ :: rest => some rest
  | _ => none

end CallChart.Elixir
