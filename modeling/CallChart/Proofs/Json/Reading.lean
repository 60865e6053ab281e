import CallChart.Diagram
import CallChart.Text.Quoted

/-!
# Reading JSON documents

A document is read in two steps. `lex` cuts it into tokens and drops the blanks
between them. Then the tokens are taken one by one (`step`), with the lists and
objects that are still open kept as `Frame`s. The document is read if one value
has been completed at its end and nothing is open.

All of JSON is read, not only what is written here: numbers and the names
`true`, `false` and `null`, every escape, and blanks wherever they may stand.
A number is kept as it is spelled.

`Trace.ofJson?` reads a trace. Its fields and those of a call may come in any
order and with others among them, but none twice. An object may also be given as
the list of its fields.
-/

namespace CallChart

namespace Json

open Text (hexValue?)

inductive Value where
  /-- A number, `true`, `false` or `null`. -/
  | word (spelling : String)
  | text (value : String)
  | list (items : List Value)
  | object (fields : List (String × Value))
  deriving Repr, Inhabited

inductive Token where
  | listOpen | listClose | objectOpen | objectClose | comma | colon
  | word (spelling : String)
  | text (value : String)
  deriving DecidableEq, Repr

/-! ## Texts -/

def hexCode? : List Char → Option (Nat × List Char)
  | a :: b :: c :: d :: rest => do
    let code := ((← hexValue? a) * 16 + (← hexValue? b)) * 16 + (← hexValue? c)
    return (code * 16 + (← hexValue? d), rest)
  | _ => none

def shortEscape? : Char → Option Char
  | '"' => some '"'
  | '\\' => some '\\'
  | '/' => some '/'
  | 'b' => some '\x08'
  | 'f' => some '\x0c'
  | 'n' => some '\n'
  | 'r' => some '\r'
  | 't' => some '\t'
  | _ => none

/-- The character whose code is given, and what follows. A code that is the first half of a pair
must be followed by one that is the second half. -/
def coded? (code : Nat) (rest : List Char) : Option (Char × List Char) :=
  if code < 0xd800 ∨ 0xdfff < code then some (Char.ofNat code, rest)
  else if 0xdbff < code then none
  else
    match rest with
    | '\\' :: 'u' :: rest => do
      let (low, rest) ← hexCode? rest
      if 0xdc00 ≤ low ∧ low ≤ 0xdfff then
        return (Char.ofNat (0x10000 + (code - 0xd800) * 0x400 + (low - 0xdc00)), rest)
      else none
    | _ => none

def escaped? : List Char → Option (Char × List Char)
  | [] => none
  | c :: rest =>
    if c = 'u' then do
      let (code, rest) ← hexCode? rest
      coded? code rest
    else (shortEscape? c).map (·, rest)

theorem length_of_hexCode? {input rest : List Char} {code : Nat}
    (found : hexCode? input = some (code, rest)) : rest.length < input.length := by
  fun_cases hexCode? input with
  | case1 a b c d tail =>
    simp only [hexCode?, Option.bind_eq_bind, Option.bind_eq_some_iff, Option.pure_def,
      Option.some.injEq, Prod.mk.injEq] at found
    obtain ⟨_, _, _, _, _, _, _, _, _, rfl⟩ := found
    simp only [List.length_cons]
    omega
  | case2 => simp_all [hexCode?]

theorem length_of_coded? {input rest : List Char} {code : Nat} {c : Char}
    (found : coded? code input = some (c, rest)) : rest.length ≤ input.length := by
  unfold coded? at found
  split at found
  · cases found
    exact Nat.le_refl _
  · split at found
    · cases found
    · split at found
      · obtain ⟨⟨low, tail⟩, read, found⟩ := Option.bind_eq_some_iff.mp found
        have := length_of_hexCode? read
        dsimp only at found
        split at found
        · obtain ⟨-, rfl⟩ := Prod.mk.inj (Option.some.inj found)
          simp only [List.length_cons]
          omega
        · cases found
      · cases found

theorem length_of_escaped? {input rest : List Char} {c : Char}
    (found : escaped? input = some (c, rest)) : rest.length < input.length := by
  cases input with
  | nil => cases found
  | cons first input =>
    rw [escaped?] at found
    split at found
    · obtain ⟨⟨code, tail⟩, read, found⟩ := Option.bind_eq_some_iff.mp found
      have := length_of_hexCode? read
      have := length_of_coded? found
      simp only [List.length_cons]
      omega
    · obtain ⟨_, _, same⟩ := Option.map_eq_some_iff.mp found
      cases same
      simp

/-- What stands up to the closing quote, and what follows it. A control character has to be escaped,
and no escape may be cut short. -/
def unquote (input : List Char) : Option (List Char × List Char) :=
  match input with
  | [] => none
  | c :: rest =>
    if c = '"' then some ([], rest)
    else if c = '\\' then
      match _found : escaped? rest with
      | none => none
      | some (c, after) => (unquote after).map fun (chars, rest) => (c :: chars, rest)
    else if c.toNat < 32 then none
    else (unquote rest).map fun (chars, rest) => (c :: chars, rest)
termination_by input.length
decreasing_by
  · have := length_of_escaped? _found
    simp only [List.length_cons]
    omega
  · simp

theorem length_of_unquote {input chars rest : List Char}
    (found : unquote input = some (chars, rest)) : rest.length < input.length := by
  fun_induction unquote input generalizing chars rest with
  | case1 => cases found
  | case2 tail => cases found; simp
  | case3 => cases found
  | case4 tail c after escape _ ih =>
    obtain ⟨⟨_, _⟩, read, same⟩ := Option.map_eq_some_iff.mp found
    cases same
    have := length_of_escaped? escape
    have := ih read
    simp only [List.length_cons]
    omega
  | case5 => cases found
  | case6 c tail _ _ _ ih =>
    obtain ⟨⟨_, _⟩, read, same⟩ := Option.map_eq_some_iff.mp found
    cases same
    have := ih read
    simp only [List.length_cons]
    omega

/-! ## Tokens -/

def isBlank (c : Char) : Bool := c == ' ' || c == '\n' || c == '\t' || c == '\r'

def mark? : Char → Option Token
  | '[' => some .listOpen
  | ']' => some .listClose
  | '\x7b' => some .objectOpen
  | '\x7d' => some .objectClose
  | ',' => some .comma
  | ':' => some .colon
  | _ => none

def isDigits (spelling : List Char) : Bool := !spelling.isEmpty && spelling.all Char.isDigit

/-- Is this a number? It has a whole part without leading zeros, and perhaps a sign before it and a
fraction and an exponent behind. -/
def isNumber (spelling : List Char) : Bool :=
  let unsigned := if spelling.head? = some '-' then spelling.tail else spelling
  let (mantissa, exponent) := unsigned.span fun c => c != 'e' && c != 'E'
  let (whole, fraction) := mantissa.span (· != '.')
  let power := exponent.tail
  let power := if power.head? = some '+' ∨ power.head? = some '-' then power.tail else power
  isDigits whole && (whole.length == 1 || whole.head? != some '0')
    && (fraction.isEmpty || isDigits fraction.tail) && (exponent.isEmpty || isDigits power)

def isWord (spelling : List Char) : Bool :=
  ["true", "false", "null"].contains (String.ofList spelling) || isNumber spelling

def isWordChar (c : Char) : Bool := c.isAlphanum || c == '-' || c == '+' || c == '.'

def lex (input : List Char) : Option (List Token) :=
  match input with
  | [] => some []
  | c :: rest =>
    if isBlank c then lex rest
    else if c = '"' then
      match _found : unquote rest with
      | none => none
      | some (value, after) => (lex after).map (.text (String.ofList value) :: ·)
    else
      match mark? c with
      | some mark => (lex rest).map (mark :: ·)
      | none =>
        let spelling := c :: rest.takeWhile isWordChar
        if isWord spelling then
          (lex (rest.dropWhile isWordChar)).map (.word (String.ofList spelling) :: ·)
        else none
termination_by input.length
decreasing_by
  · simp
  · have := length_of_unquote _found
    simp only [List.length_cons]
    omega
  · simp
  · have := (List.dropWhile_sublist isWordChar (l := rest)).length_le
    simp only [List.length_cons]
    omega

/-! ## Values -/

/-- A list or an object that is open, with what has been read of it. -/
inductive Frame where
  | list (items : List Value)
  /-- The value of the field `name` is being read. -/
  | object (fields : List (String × Value)) (name : String)

/-- What has been read and what must come next. Which tokens may come depends on the state alone, so
a document is read by one pass over its tokens, without recursion. -/
inductive State where
  /-- A value must come. -/
  | value (frames : List Frame)
  /-- A list has been opened: its first item or its end must come. -/
  | listStart (frames : List Frame)
  /-- An object has been opened: the name of its first field or its end must come. -/
  | objectStart (frames : List Frame)
  /-- The name of another field must come. -/
  | name (fields : List (String × Value)) (frames : List Frame)
  /-- The colon after the name of a field must come. -/
  | colon (fields : List (String × Value)) (name : String) (frames : List Frame)
  /-- A value has been read. -/
  | after (value : Value) (frames : List Frame)

def begin? (frames : List Frame) : Token → Option State
  | .word spelling => some (.after (.word spelling) frames)
  | .text value => some (.after (.text value) frames)
  | .listOpen => some (.listStart frames)
  | .objectOpen => some (.objectStart frames)
  | _ => none

/-- The state after a token, if it may come. -/
def step : State → Token → Option State
  | .value frames, token => begin? frames token
  | .listStart frames, .listClose => some (.after (.list []) frames)
  | .listStart frames, token => begin? (.list [] :: frames) token
  | .objectStart frames, .objectClose => some (.after (.object []) frames)
  | .objectStart frames, .text name => some (.colon [] name frames)
  | .name fields frames, .text name => some (.colon fields name frames)
  | .colon fields name frames, .colon => some (.value (.object fields name :: frames))
  | .after value (.list items :: frames), .comma => some (.value (.list (items ++ [value]) :: frames))
  | .after value (.list items :: frames), .listClose => some (.after (.list (items ++ [value])) frames)
  | .after value (.object fields name :: frames), .comma =>
    some (.name (fields ++ [(name, value)]) frames)
  | .after value (.object fields name :: frames), .objectClose =>
    some (.after (.object (fields ++ [(name, value)])) frames)
  | _, _ => none

def run (state : State) (tokens : List Token) : Option State := tokens.foldlM step state

/-- The value of a document, which has to be one value and nothing after it. -/
def read? (text : String) : Option Value := do
  match ← run (.value []) (← lex text.toList) with
  | .after value [] => some value
  | _ => none

namespace Value

def text? : Value → Option String
  | .text value => some value
  | _ => none

def list? : Value → Option (List Value)
  | .list items => some items
  | _ => none

/-- The values of the fields with these names, each of which must be there once. A list gives the
values in order. -/
def fields? (names : List String) : Value → Option (List Value)
  | .object fields => names.mapM fun name =>
    match fields.filter (·.1 == name) with
    | [(_, value)] => some value
    | _ => none
  | .list items => if items.length = names.length then some items else none
  | _ => none

end Value

end Json

def Call.ofValue? (value : Json.Value) : Option Call := do
  match ← value.fields? ["caller", "callee", "function"] with
  | [caller, callee, function] => return ⟨← caller.text?, ← callee.text?, ← function.text?⟩
  | _ => none

def Trace.ofValue? (value : Json.Value) : Option Trace := do
  match ← value.fields? ["entry_module", "calls"] with
  | [entry, calls] => return ⟨← entry.text?, ← (← calls.list?).mapM Call.ofValue?⟩
  | _ => none

def Trace.ofJson? (text : String) : Option Trace := do Trace.ofValue? (← Json.read? text)

end CallChart
