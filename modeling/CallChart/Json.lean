/-!
# JSON documents

Texts, lists and objects, written over several lines with two blanks for each
level. Empty lists and objects stay on one line. The fields of an object are
written in the order in which they are given.
-/

namespace CallChart

/-- A JSON value made of texts. Numbers and truth values are not needed, since nothing that is
written has one. The fields of an object are a list and keep their order. -/
inductive Json where
  | text (value : String)
  | list (items : List Json)
  | object (fields : List (String × Json))
  deriving Repr, Inhabited

namespace Json

/-- A control character as four digits in base sixteen. -/
def codeEscape (c : Char) : List Char :=
  let digits := Nat.toDigits 16 c.toNat
  ['\\', 'u'] ++ List.replicate (4 - digits.length) '0' ++ digits

/-- A character between quotes. Control characters with a letter of their own are escaped by it and
the others by their code; everything from the blank on stands as it is, but for the quote and the
backslash. -/
def escapeChar (c : Char) : List Char :=
  match c with
  | '"' => ['\\', '"']
  | '\\' => ['\\', '\\']
  | '\x08' => ['\\', 'b']
  | '\x0c' => ['\\', 'f']
  | '\n' => ['\\', 'n']
  | '\r' => ['\\', 'r']
  | '\t' => ['\\', 't']
  | _ => if c.toNat < 32 then codeEscape c else [c]

def quote (value : String) : String :=
  String.ofList ('"' :: value.toList.flatMap escapeChar ++ ['"'])

def indent (level : Nat) : String := String.ofList (List.replicate (2 * level) ' ')

/-- Items on lines of their own inside brackets, one level further in than the brackets. Without
items the brackets stand together on the line they are on. -/
def bracketed (level : Nat) (left right : String) (items : List String) : String :=
  match items with
  | [] => left ++ right
  | _ =>
    left ++ "\n" ++ ",\n".intercalate (items.map (indent (level + 1) ++ ·)) ++ "\n"
      ++ indent level ++ right

mutual

def render (level : Nat) : Json → String
  | .text value => quote value
  | .list items => bracketed level "[" "]" (renderItems (level + 1) items)
  | .object fields => bracketed level "\x7b" "\x7d" (renderFields (level + 1) fields)

def renderItems (level : Nat) : List Json → List String
  | [] => []
  | item :: items => render level item :: renderItems level items

def renderFields (level : Nat) : List (String × Json) → List String
  | [] => []
  | (name, value) :: fields =>
    (quote name ++ ": " ++ render level value) :: renderFields level fields

end

def pretty (value : Json) : String := value.render 0

end Json

end CallChart
