/-!
# TOML values

A document is a table of values. Floating-point numbers and moments in time
are read but not kept: nothing that is configured is one.
-/

namespace CallChart

/-- A TOML value. Of a floating-point number and of a moment only that it was one is kept: no
setting is one, and a value of the wrong type is refused whatever it is. -/
inductive Toml where
  | text (value : String)
  | integer (value : Int)
  | float
  | boolean (value : Bool)
  | moment
  | list (items : List Toml)
  | table (entries : List (String × Toml))
  deriving Repr, Inhabited

namespace Toml

def maxInteger : Nat := 9223372036854775807

def inRange (n : Int) : Bool := -(maxInteger : Int) - 1 ≤ n && n ≤ (maxInteger : Int)

/-- Is the character a control character? A tab is none. -/
def isControl (c : Char) : Bool := c != '\t' && (c.toNat < 32 || c.toNat == 127)

end Toml

end CallChart
