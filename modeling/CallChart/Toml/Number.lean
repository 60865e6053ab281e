import CallChart.Toml.Text

/-!
# Reading TOML numbers and moments

Each reader answers the value and what comes after it. A single underscore
may stand between two digits. An integer that is out of range is no value,
and neither is a floating-point number too large to be finite.
-/

namespace CallChart.Toml

open Text (hexValue?)

def isDigit (c : Char) : Bool := '0' ≤ c && c ≤ '9'

/-- Digits at the front, without the underscores between them, and what comes after. An underscore
that is not followed by a digit is left for what comes after. -/
def digits (p : Char → Bool) : List Char → List Char × List Char
  | [] => ([], [])
  | c :: cs =>
    if p c then
      let (more, rest) := digits p cs
      (c :: more, rest)
    else if c = '_' ∧ cs.head?.any p then digits p cs
    else ([], c :: cs)

/-- At least one digit, and what comes after. -/
def digits? (p : Char → Bool) (cs : List Char) : Option (List Char × List Char) :=
  if cs.head?.any p then some (digits p cs) else none

def numberOf (base : Nat) (ds : List Char) : Nat :=
  ds.foldl (fun n d => base * n + (hexValue? d).getD 0) 0

/-- A sign, if there is one: is it a minus? -/
def sign : List Char → Bool × List Char
  | '-' :: rest => (true, rest)
  | '+' :: rest => (false, rest)
  | cs => (false, cs)

/-- The digits of a whole number: a zero, or digits that do not start with one. -/
def wholeDigits? : List Char → Option (List Char × List Char)
  | '0' :: rest => some (['0'], rest)
  | cs => digits? isDigit cs

def checkedInteger (n : Int) (rest : List Char) : Option (Toml × List Char) :=
  if inRange n then some (.integer n, rest) else none

/-- An integer, in base ten or with the mark of another base in front. Only one in base ten may have
a sign, and of those none but zero starts with a zero. -/
def integer? (cs : List Char) : Option (Toml × List Char) :=
  let based (base : Nat) (p : Char → Bool) (rest : List Char) : Option (Toml × List Char) := do
    let (ds, rest) ← digits? p rest
    checkedInteger (numberOf base ds) rest
  match cs with
  | '0' :: 'x' :: rest => based 16 (fun c => (hexValue? c).isSome) rest
  | '0' :: 'o' :: rest => based 8 (fun c => '0' ≤ c && c ≤ '7') rest
  | '0' :: 'b' :: rest => based 2 (fun c => c == '0' || c == '1') rest
  | _ => do
    let (minus, rest) := sign cs
    let (ds, rest) ← wholeDigits? rest
    let n := numberOf 10 ds
    checkedInteger (if minus then -(n : Int) else n) rest

/-! ## Floating point -/

/-- The least number that is too large to be rounded to a finite one. -/
def infiniteFrom : Nat := Nat.pow 2 1024 - Nat.pow 2 970

/-- Is `ds` times a power of ten too large? Numbers with far fewer or far more digits than the
limit need no arithmetic. -/
def isInfinite (ds : List Char) (exponent : Int) : Bool :=
  let n := numberOf 10 ds
  let places := (ds.dropWhile (· == '0')).length + exponent
  if n = 0 ∨ places < 300 then false
  else if 320 < places then true
  else if 0 ≤ exponent then decide (infiniteFrom ≤ n * Nat.pow 10 exponent.toNat)
  else decide (infiniteFrom * Nat.pow 10 (-exponent).toNat ≤ n)

def exponent? : List Char → Option (Int × List Char)
  | c :: cs =>
    if c = 'e' ∨ c = 'E' then do
      let (minus, rest) := sign cs
      let (ds, rest) ← digits? isDigit rest
      let n := numberOf 10 ds
      return (if minus then -(n : Int) else n, rest)
    else none
  | [] => none

def fraction? : List Char → Option (List Char × List Char)
  | '.' :: cs => digits? isDigit cs
  | _ => none

def decimal? (cs : List Char) : Option (Toml × List Char) := do
  let (minus, rest) := sign cs
  let (whole, rest) ← wholeDigits? rest
  let (places, exponent, rest) ←
    match fraction? rest with
    | some (places, rest) =>
      match exponent? rest with
      | some (exponent, rest) => some (places, exponent, rest)
      | none => some (places, 0, rest)
    | none => (exponent? rest).map fun (exponent, rest) => ([], exponent, rest)
  if !minus && isInfinite (whole ++ places) (exponent - places.length) then none
  else some (.float, rest)

def wordFloat? (cs : List Char) : Option (Toml × List Char) :=
  match (sign cs).2 with
  | 'i' :: 'n' :: 'f' :: rest => some (.float, rest)
  | 'n' :: 'a' :: 'n' :: rest => some (.float, rest)
  | _ => none

/-! ## Moments -/

/-- A number of exactly so many digits that lies between two limits. -/
def field? (width first last : Nat) (cs : List Char) : Option (Nat × List Char) :=
  let ds := cs.take width
  let n := numberOf 10 ds
  if ds.length = width ∧ ds.all isDigit ∧ first ≤ n ∧ n ≤ last then some (n, cs.drop width)
  else none

def after? (c : Char) : List Char → Option (List Char)
  | d :: rest => if d = c then some rest else none
  | [] => none

def daysIn (year month : Nat) : Nat :=
  if month = 2 then
    if year % 4 = 0 ∧ (year % 100 ≠ 0 ∨ year % 400 = 0) then 29 else 28
  else if month = 4 ∨ month = 6 ∨ month = 9 ∨ month = 11 then 30
  else 31

def afterDate? (cs : List Char) : Option (List Char) := do
  let (year, rest) ← field? 4 0 9999 cs
  let (month, rest) ← field? 2 1 12 (← after? '-' rest)
  let (_, rest) ← field? 2 1 (daysIn year month) (← after? '-' rest)
  return rest

def afterTime? (cs : List Char) : Option (List Char) := do
  let (_, rest) ← field? 2 0 23 cs
  let (_, rest) ← field? 2 0 59 (← after? ':' rest)
  let (_, rest) ← field? 2 0 60 (← after? ':' rest)
  match rest with
  | '.' :: d :: more => return if isDigit d then more.dropWhile isDigit else rest
  | _ => return rest

/-- What comes after a distance from standard time, if there is one. -/
def afterOffset (cs : List Char) : List Char :=
  match cs with
  | 'Z' :: rest | 'z' :: rest => rest
  | '+' :: rest | '-' :: rest =>
    let after := do
      let (_, rest) ← field? 2 0 23 rest
      let (_, rest) ← field? 2 0 59 (← after? ':' rest)
      return rest
    after.getD cs
  | _ => cs

/-- A date, a time of day, or both. The two may be separated by a letter or a blank, which is left
if no time comes after it. -/
def moment? (cs : List Char) : Option (Toml × List Char) :=
  match afterDate? cs with
  | none => (afterTime? cs).map fun rest => (.moment, rest)
  | some rest =>
    match rest with
    | c :: time =>
      if c = 'T' ∨ c = 't' ∨ c = ' ' then
        match afterTime? time with
        | some rest => some (.moment, afterOffset rest)
        | none => some (.moment, rest)
      else some (.moment, rest)
    | [] => some (.moment, rest)

/-- A number or a moment. The forms share their first characters, so they are tried from the longest
to the shortest: a moment starts with digits, and a floating-point number with an integer. -/
def number? (cs : List Char) : Option (Toml × List Char) :=
  moment? cs <|> decimal? cs <|> wordFloat? cs <|> integer? cs

end CallChart.Toml
