/-!
# Glob patterns

A pattern is a list of tokens. A star matches within a path component; two
stars between slashes, or at an end of the pattern, match across components.
Braces hold alternatives, which may nest, and a class in brackets matches
one byte, a slash included.

Patterns are read character by character with the alternatives that are
still open kept on a stack.
-/

namespace CallChart

/-- Why a text is not a pattern. -/
inductive GlobError where
  | unclosedClass
  | invalidRange (first last : Char)
  | unclosedAlternates
  | unopenedAlternates
  | danglingEscape
  deriving DecidableEq, Repr

def GlobError.message : GlobError → String
  | unclosedClass => "unclosed character class; missing ']'"
  | invalidRange first last =>
    "invalid range; '" ++ String.singleton first ++ "' > '" ++ String.singleton last ++ "'"
  | unclosedAlternates =>
    "unclosed alternate group; missing '\x7d' (maybe escape '\x7b' with '[\x7b]'?)"
  | unopenedAlternates =>
    "unopened alternate group; missing '\x7b' (maybe escape '\x7d' with '[\x7d]'?)"
  | danglingEscape => "dangling '\\'"

namespace Glob

/-- A token of a pattern. A literal is a character, which may be several bytes; the others speak of
bytes. The three kinds of two stars take the slashes beside them along, so that a folder between may
be missing together with its slash. -/
inductive Token where
  | literal (c : Char)
  /-- One byte but a slash. -/
  | any
  /-- Bytes without a slash. -/
  | star
  /-- Whole components at the start, or none. -/
  | recursivePrefix
  /-- A slash and anything after it. -/
  | recursiveSuffix
  /-- A slash, or whole components between slashes. -/
  | recursiveMiddle
  /-- A byte in, or not in, one of the ranges. -/
  | byteClass (negated : Bool) (ranges : List (Char × Char))
  | alternates (branches : List (List Token))
  deriving Repr

/-- The patterns that are being read: the tokens of the innermost branch, last one first, and the
branches around it. -/
structure Reading where
  branch : List Token := []
  /-- For each open group, innermost first: its branches so far, last one first, and the tokens
  before the group, last one first. -/
  groups : List (List (List Token) × List Token) := []

namespace Reading

def push (reading : Reading) (token : Token) : Reading :=
  { reading with branch := token :: reading.branch }

def openGroup (reading : Reading) : Reading :=
  { branch := [], groups := ([], reading.branch) :: reading.groups }

/-- A comma: the next alternative of a group, or itself. -/
def comma (reading : Reading) : Reading :=
  match reading.groups with
  | [] => reading.push (.literal ',')
  | (done, before) :: groups =>
    { branch := [], groups := (reading.branch.reverse :: done, before) :: groups }

/-- Closes the innermost group, which becomes one token of the branch around it. Branches and tokens
were kept last one first and are turned around here. -/
def closeGroup (reading : Reading) : Except GlobError Reading :=
  match reading.groups with
  | [] => .error .unopenedAlternates
  | (done, before) :: groups =>
    .ok { branch := .alternates (reading.branch.reverse :: done).reverse :: before, groups }

def inGroup (reading : Reading) : Bool := !reading.groups.isEmpty

end Reading

def endsComponent (c : Option Char) : Bool := c.all (· == '/')

/-- What two stars mean, by what stands before and after them. They match across components only if
they are a component of their own; then they replace the slash before them and take the one after
them along. Beside other characters they are two stars like any. `previous` is the character before
the stars, and the rest of the pattern is answered too. -/
def twoStars (reading : Reading) (previous : Option Char) (rest : List Char) :
    Reading × List Char :=
  let plain := ((reading.push .star).push .star, rest)
  match reading.branch with
  | [] =>
    if endsComponent rest.head? then (reading.push .recursivePrefix, rest.tail) else plain
  | last :: before =>
    let afterMark := reading.inGroup && (previous == some ',' || previous == some '\x7b')
    if previous != some '/' && !afterMark then plain
    else
      let replace (token : Token) : Reading :=
        match last with
        | .recursivePrefix | .recursiveSuffix => reading
        | _ => { reading with branch := token :: before }
      match rest with
      | [] => (replace .recursiveSuffix, rest)
      | c :: more =>
        if c == '/' then (replace .recursiveMiddle, more)
        else if reading.inGroup && (c == ',' || c == '\x7d') then
          (replace .recursiveSuffix, rest)
        else plain

/-- Where the reading of a class stands. A closing bracket that comes first belongs to the class,
and a dash is one of its characters if nothing comes before it or after it. -/
structure ClassReading where
  negated : Bool
  /-- The ranges so far, last one first. -/
  ranges : List (Char × Char) := []
  /-- Has no character been read? -/
  first : Bool := true
  /-- Has a dash been read that may make a range? -/
  inRange : Bool := false

/-- Ends the last range of a class with a character. -/
def ClassReading.endRange (reading : ClassReading) (c : Char) : Except GlobError ClassReading :=
  match reading.ranges with
  | [] => .ok { reading with ranges := [(c, c)], first := false, inRange := false }
  | (low, _) :: ranges =>
    if c < low then .error (.invalidRange low c)
    else .ok { reading with ranges := (low, c) :: ranges, first := false, inRange := false }

/-- Reads a class after its opening bracket and its mark of negation. -/
def readClass (reading : ClassReading) : List Char → Except GlobError (Token × List Char)
  | [] => .error .unclosedClass
  | c :: cs =>
    if c == ']' && !reading.first then
      let ranges := if reading.inRange then ('-', '-') :: reading.ranges else reading.ranges
      .ok (.byteClass reading.negated ranges.reverse, cs)
    else if c == '-' && !reading.first && !reading.inRange then
      readClass { reading with inRange := true } cs
    else if reading.inRange then
      match reading.endRange c with
      | .ok reading => readClass reading cs
      | .error e => .error e
    else readClass { reading with ranges := (c, c) :: reading.ranges, first := false } cs

/-- Reads a pattern. Each step takes a character, so the length of the text bounds the steps.
`previous` is the character before, which after two stars that took a slash along is that slash. -/
def read : Nat → Reading → Option Char → List Char → Except GlobError Reading
  | 0, reading, _, _ => .ok reading
  | _ + 1, reading, _, [] => .ok reading
  | n + 1, reading, previous, c :: cs =>
    match c with
    | '?' => read n (reading.push .any) (some c) cs
    | '*' =>
      match cs with
      | '*' :: rest =>
        let (reading, after) := twoStars reading previous rest
        let previous := if after.length < rest.length then some '/' else some '*'
        read n reading previous after
      | _ => read n (reading.push .star) (some c) cs
    | '[' =>
      let (negated, rest) := match cs with
        | '!' :: rest => (true, rest)
        | '^' :: rest => (true, rest)
        | _ => (false, cs)
      match readClass { negated } rest with
      | .ok (token, rest) => read n (reading.push token) (some ']') rest
      | .error e => .error e
    | '\x7b' => read n reading.openGroup (some c) cs
    | '\x7d' =>
      match reading.closeGroup with
      | .ok reading => read n reading (some c) cs
      | .error e => .error e
    | ',' => read n reading.comma (some c) cs
    | '\\' =>
      match cs with
      | [] => .error .danglingEscape
      | escaped :: rest => read n (reading.push (.literal escaped)) (some escaped) rest
    | _ => read n (reading.push (.literal c)) (some c) cs

/-- The tokens of a pattern. A group that is still open at the end is an error; all other errors are
met on the way. -/
def tokens (pattern : String) : Except GlobError (List Token) := do
  let text := pattern.toList
  let reading ← read (text.length + 1) {} none text
  if reading.inGroup then throw .unclosedAlternates
  return reading.branch.reverse

end Glob

end CallChart
