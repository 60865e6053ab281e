/-!
# What the command line takes

An option has a long name and may have a short one. It may take a value: a path,
a text, or one of some words. A command has options, and the program itself is
described as a command that has commands.
-/

namespace CallChart.CommandLine

/-- What an option takes as its value. -/
inductive Operand where
  | nothing
  | path
  | text
  /-- One of these words; each comes with what is said of it. -/
  | oneOf (words : List (String × String))
  deriving DecidableEq, Repr

namespace Operand

def isSome : Operand → Bool
  | nothing => false
  | _ => true

/-- Is this a value for the option? Paths may not be empty. -/
def admits : Operand → String → Bool
  | nothing, value => value.isEmpty
  | path, value => !value.isEmpty
  | text, _ => true
  | oneOf words, value => words.any (·.1 == value)

end Operand

structure OptionSpec where
  long : String
  short : Option Char := none
  operand : Operand := .nothing
  required : Bool := false
  about : String
  deriving DecidableEq, Repr

/-- A command: the words that call it, and its options. The program is described as a command too,
the only one with commands below it. -/
structure CommandSpec where
  words : String
  about : String
  options : List OptionSpec
  /-- The commands below it, with what is said of each. -/
  commands : List (String × String) := []
  versioned : Bool := false
  deriving DecidableEq, Repr

end CallChart.CommandLine
