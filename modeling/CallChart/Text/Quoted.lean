import CallChart.Text.Unseen

/-!
# Quoted texts

A text in double quotes, as messages show it. The quote, the backslash and
what cannot be seen are escaped, so that the message stays on one line. An
escape may give a code in base sixteen; its digits are written and read here.
-/

namespace CallChart.Text

def hexDigits (n : Nat) : String := String.ofList (Nat.toDigits 16 n)

def hexValue? (c : Char) : Option Nat :=
  if '0' ≤ c ∧ c ≤ '9' then some (c.toNat - 48)
  else if 'a' ≤ c ∧ c ≤ 'f' then some (c.toNat - 87)
  else if 'A' ≤ c ∧ c ≤ 'F' then some (c.toNat - 55)
  else none

/-- A character between the quotes. What cannot be seen is written by its code, without zeros in
front. -/
def quotedChar (c : Char) : String :=
  match c with
  | '"' => "\\\""
  | '\\' => "\\\\"
  | '\n' => "\\n"
  | '\r' => "\\r"
  | '\t' => "\\t"
  | '\x00' => "\\0"
  | _ => if isUnseen c then "\\u\x7b" ++ hexDigits c.toNat ++ "\x7d" else String.singleton c

def quoted (text : String) : String :=
  "\"" ++ String.join (text.toList.map quotedChar) ++ "\""

def quotedList (texts : List String) : String :=
  "[" ++ ", ".intercalate (texts.map quoted) ++ "]"

end CallChart.Text
