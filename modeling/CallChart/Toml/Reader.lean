import CallChart.Toml.Number
import CallChart.Toml.Tree

/-!
# Reading TOML documents

A reader takes text from the front of what is left. `Toml.parse?` answers the
table that a document describes, or nothing if it is not TOML: a value that
is out of range and a key or a header that is given twice are refused too.
-/

namespace CallChart.Toml

abbrev Reader := StateT (List Char) Option

namespace Reader

def refuse {α : Type} : Reader α := fun _ => none

def blanks : Reader Unit := modify (·.dropWhile isBlank)

def accept (c : Char) : Reader Bool := do
  match after? c (← get) with
  | some rest => set rest; return true
  | none => return false

def expect (c : Char) : Reader Unit := do
  unless ← accept c do refuse

def lineEnd : Reader Unit := do
  match ← get with
  | '\n' :: rest => set rest
  | '\r' :: '\n' :: rest => set rest
  | _ => refuse

/-- Skips a comment, if there is one, up to the end of the line. -/
def comment : Reader Unit := do
  match ← get with
  | '#' :: rest => set (rest.dropWhile (!isControl ·))
  | _ => return

/-- Takes what may come after a value or a header: a comment, and the end of the line or of the
text. -/
def lineRest : Reader Unit := do
  blanks
  comment
  unless (← get).isEmpty do lineEnd

/-- Skips blanks, comments and line ends; `n` bounds the lines. -/
def skipLines : Nat → Reader Unit
  | 0 => blanks
  | n + 1 => do
    blanks
    match ← get with
    | '#' :: _ => comment; lineEnd; skipLines n
    | '\n' :: _ | '\r' :: _ => lineEnd; skipLines n
    | _ => return

/-! ## Keys -/

def isBare (c : Char) : Bool := c.isAlphanum || c == '_' || c == '-'

/-- A key without dots: bare, or in quotes of either kind. The long forms of a text are no keys. -/
def simpleKey : Reader String := do
  let cs ← get
  match cs with
  | '"' :: rest =>
    match basicText (.plain 0) rest with
    | some (key, rest) => set rest; return String.ofList key
    | none => refuse
  | '\x27' :: rest =>
    match literalText rest with
    | some (key, rest) => set rest; return String.ofList key
    | none => refuse
  | _ =>
    let key := cs.takeWhile isBare
    if key.isEmpty then refuse
    else
      set (cs.dropWhile isBare)
      return String.ofList key

/-- The rest of a dotted key; `n` bounds its parts. -/
def moreKeys : Nat → Reader (List String)
  | 0 => return []
  | n + 1 => do
    if ← accept '.' then
      blanks
      let key ← simpleKey
      blanks
      return key :: (← moreKeys n)
    else return []

def nestingLimit : Nat := 80

def dottedKey : Reader (List String) := do
  blanks
  let first ← simpleKey
  blanks
  let keys := first :: (← moreKeys (← get).length)
  if nestingLimit < keys.length then refuse else return keys

/-! ## Values -/

/-- Takes the items of a list up to its closing bracket. Line ends and comments may stand anywhere
between them, and a comma after the last one. `item` reads one; `n` bounds the loop. -/
def listItems (item : Reader Toml) : Nat → Reader (List Toml)
  | 0 => refuse
  | n + 1 => do
    skipLines n
    if ← accept ']' then return []
    let first ← item
    skipLines n
    if ← accept ',' then return first :: (← listItems item n)
    expect ']'
    return [first]

/-- Takes a key and its value inside braces, and puts them among the others. -/
def inlineEntry (item : Reader Toml) (items : Items) : Reader Items := do
  let keys ← dottedKey
  expect '='
  blanks
  let value ← item
  blanks
  match insertDotted value (keys.getLastD "") keys.dropLast items with
  | some items => return items
  | none => refuse

/-- Takes the rest of a table in braces; `n` bounds the loop. -/
def inlineEntries (item : Reader Toml) : Nat → Items → Reader Items
  | 0, _ => refuse
  | n + 1, items => do
    let items ← inlineEntry item items
    if ← accept ',' then inlineEntries item n items
    else
      expect '\x7d'
      return items

def word (spelling : String) (value : Toml) : Reader Toml := do
  match spelling.toList.isPrefixOf? (← get) with
  | some rest => set rest; return value
  | none => refuse

/-- Takes a value, up to a depth. The first character tells which kind it is, so no kind has to be
tried after another, except the numbers. -/
def valueWithin : Nat → Reader Toml
  | 0 => refuse
  | depth + 1 => do
    match ← get with
    | '"' :: _ | '\x27' :: _ =>
      match text? (← get) with
      | some (value, rest) => set rest; return .text (String.ofList value)
      | none => refuse
    | '[' :: rest =>
      if depth = 0 then refuse
      set rest
      return .list (← listItems (valueWithin depth) (rest.length + 1))
    | '\x7b' :: rest =>
      if depth = 0 then refuse
      set rest
      blanks
      if ← accept '\x7d' then return .table []
      return .table (itemsToValues (← inlineEntries (valueWithin depth) (rest.length + 1) []))
    | 't' :: _ => word "true" (.boolean true)
    | 'f' :: _ => word "false" (.boolean false)
    | cs =>
      match number? cs with
      | some (value, rest) => set rest; return value
      | none => refuse

/-! ## Documents -/

/-- What has been read of a document: its items, and the header above the next line. -/
structure Progress where
  items : Items := []
  header : List String := []

/-- Takes a header, after its first bracket. Two brackets open one more table of a list of
tables. -/
def headerLine (progress : Progress) : Reader Progress := do
  let double ← accept '['
  let keys ← dottedKey
  expect ']'
  if double then expect ']'
  lineRest
  let openIn := if double then openElement (keys.getLastD "") else openTable (keys.getLastD "")
  match alterAt openIn keys.dropLast progress.items with
  | some items => return { items, header := keys }
  | none => refuse

def entryLine (progress : Progress) : Reader Progress := do
  let keys ← dottedKey
  expect '='
  blanks
  let value ← valueWithin nestingLimit
  lineRest
  match alterAt (insertDotted value (keys.getLastD "") keys.dropLast) progress.header
      progress.items with
  | some items => return { progress with items }
  | none => refuse

/-- Takes lines to the end of the text; `n` bounds them. -/
def lines : Nat → Progress → Reader Progress
  | 0, _ => refuse
  | n + 1, progress => do
    blanks
    match ← get with
    | [] => return progress
    | '#' :: _ => lineRest; lines n progress
    | '\n' :: _ | '\r' :: _ => lineEnd; lines n progress
    | '[' :: rest =>
      set rest
      lines n (← headerLine progress)
    | _ => lines n (← entryLine progress)

end Reader

/-- The table that a document describes. Keys come in the order in which they were first named. A
mark of byte order before the document does not count. -/
def parse? (document : String) : Option Toml :=
  let cs := match document.toList with
    | '\ufeff' :: rest => rest
    | cs => cs
  ((Reader.lines (cs.length + 1) {}).run' cs).map fun progress =>
    .table (itemsToValues progress.items)

end CallChart.Toml
