import CallChart.CommandLine.Spec

/-!
# Help pages

A page says what a command is for, how it is called, and what its options are.
A short page has one line for each option. If words that an option takes are
explained, there is also a long page, with a paragraph for each option.
-/

namespace CallChart.CommandLine

def padded (width : Nat) (text : String) : String :=
  text ++ String.ofList (List.replicate (width - text.length) ' ')

def widest (texts : List String) : Nat := (texts.map String.length).foldl max 0

/-- Lines of two columns, the first as wide as its longest text. -/
def columns (rows : List (String × String)) : List String :=
  let width := widest (rows.map (·.1))
  rows.map fun row => "  " ++ padded width row.1 ++ "  " ++ row.2

namespace OptionSpec

/-- The long name with the place for the value. -/
def call (spec : OptionSpec) : String :=
  "--" ++ spec.long
    ++ if spec.operand.isSome then " <" ++ spec.long.map Char.toUpper ++ ">" else ""

/-- All names, where long names stand below each other. -/
def names (spec : OptionSpec) : String :=
  match spec.short with
  | some c => "-" ++ String.singleton c ++ ", " ++ spec.call
  | none => "    " ++ spec.call

/-- The words the option takes, each with what is said of it. -/
def choices (spec : OptionSpec) : List (String × String) :=
  match spec.operand with
  | .oneOf words => words
  | _ => []

/-- What is said of the option on one line. -/
def summary (spec : OptionSpec) : String :=
  if spec.choices.isEmpty then spec.about
  else spec.about ++ " [possible values: " ++ ", ".intercalate (spec.choices.map (·.1)) ++ "]"

/-- What is said of the option in a paragraph of its own. -/
def paragraph (spec : OptionSpec) : List String :=
  let width := widest (spec.choices.map (·.1))
  let explained := spec.choices.map fun (word, about) =>
    "- " ++ padded (width + 2) (word ++ ": ") ++ about
  let lines := if explained.isEmpty then [spec.about]
    else spec.about :: "" :: "Possible values:" :: explained
  ("  " ++ spec.names) :: lines.map fun line => if line.isEmpty then "" else "          " ++ line

end OptionSpec

namespace CommandSpec

def hasLongPage (command : CommandSpec) : Bool :=
  command.options.any fun spec => !spec.choices.isEmpty

def usage (command : CommandSpec) : String :=
  "Usage: " ++ command.words ++ " [OPTIONS]"
    ++ String.join ((command.options.filter (·.required)).map (" " ++ ·.call))
    ++ if command.commands.isEmpty then "" else " <COMMAND>"

/-- The option that asks for help, as a page describes it. -/
def helpOption (command : CommandSpec) (long : Bool) : OptionSpec :=
  { long := "help", short := some 'h',
    about := if !command.hasLongPage then "Print help"
      else if long then "Print help (see a summary with \x27-h\x27)"
      else "Print help (see more with \x27--help\x27)" }

def versionOption : OptionSpec := { long := "version", short := some 'V', about := "Print version" }

def listedOptions (command : CommandSpec) (long : Bool) : List OptionSpec :=
  command.options ++ command.helpOption long
    :: if command.versioned then [versionOption] else []

def optionLines (command : CommandSpec) (long : Bool) : List String :=
  let options := command.listedOptions long
  if long then [""].intercalate (options.map OptionSpec.paragraph)
  else columns (options.map fun spec => (spec.names, spec.summary))

/-- The help page. A long page is shown only if there is one. -/
def page (command : CommandSpec) (long : Bool) : List String :=
  let commands := if command.commands.isEmpty then []
    else "Commands:" :: columns command.commands ++ [""]
  [command.about, "", command.usage, ""] ++ commands
    ++ "Options:" :: command.optionLines (long && command.hasLongPage)

end CommandSpec

end CallChart.CommandLine
