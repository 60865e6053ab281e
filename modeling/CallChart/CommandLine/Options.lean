import CallChart.CommandLine.Spec

/-!
# Reading options

Arguments are read from left to right. The value of an option follows it, after
a blank or an equals sign, or right after the short name. Short names may stand
together. Each option may be given once.
-/

namespace CallChart.CommandLine

/-- Why reading arguments stops early. -/
inductive Stop where
  | refused
  /-- Help on a command is asked for, on a long page or a short one. -/
  | help (command : CommandSpec) (long : Bool)
  /-- Help on the command that gives help is asked for. -/
  | helpOnHelp
  | version
  deriving DecidableEq, Repr

/-- The options that were given, by their long names. -/
abbrev Given := List (String × String)

namespace Given

def value? (given : Given) (long : String) : Option String :=
  (given.find? (·.1 == long)).map (·.2)

def has (given : Given) (long : String) : Bool := (given.value? long).isSome

/-- Notes an option. It may not have been given before, and its value has to be one it takes. -/
def note (given : Given) (spec : OptionSpec) (value : String) : Except Stop Given :=
  if given.has spec.long then .error .refused
  else if spec.operand.admits value then .ok (given ++ [(spec.long, value)])
  else .error .refused

end Given

/-- Could the argument be an option? A dash alone is none. A value that looks like an option is
refused, even where the option that waits for it takes any text. -/
def looksLikeOption (argument : String) : Bool :=
  match argument.toList with
  | '-' :: _ :: _ => true
  | _ => false

/-- What an argument with options comes to. -/
inductive Reading where
  /-- Options were read, and nothing is pending. -/
  | done (given : Given)
  /-- Options were read, and the last one waits for its value. -/
  | pending (spec : OptionSpec) (given : Given)

/-- The name before an equals sign, and the value after it if there is one. -/
def splitValue (text : List Char) : List Char × Option (List Char) :=
  match text.span (· != '=') with
  | (name, _ :: value) => (name, some value)
  | (name, []) => (name, none)

/-- Reads a long option of a command, with its value after an equals sign or as the next argument.
An option that takes no value may not be given one. -/
def readLong (command : CommandSpec) (text : List Char) (given : Given) : Except Stop Reading :=
  let (name, value) := splitValue text
  let name := String.ofList name
  match command.options.find? (·.long == name), value with
  | some spec, none =>
    if spec.operand.isSome then .ok (.pending spec given) else .done <$> given.note spec ""
  | some spec, some value =>
    if spec.operand.isSome then .done <$> given.note spec (String.ofList value)
    else .error .refused
  | none, none =>
    if name == "help" then .error (.help command true)
    else if name == "version" && command.versioned then .error .version
    else .error .refused
  | none, some _ => .error .refused

/-- Reads short options of a command that stand together. The first one that takes a value takes all
that is left, without an equals sign in front. -/
def readShort (command : CommandSpec) : List Char → Given → Except Stop Reading
  | [], given => .ok (.done given)
  | c :: cs, given =>
    match command.options.find? (·.short == some c) with
    | none =>
      if c == 'h' then .error (.help command false)
      else if c == 'V' && command.versioned then .error .version
      else .error .refused
    | some spec =>
      if spec.operand.isSome then
        match cs with
        | [] => .ok (.pending spec given)
        | '=' :: value => .done <$> given.note spec (String.ofList value)
        | _ => .done <$> given.note spec (String.ofList cs)
      else
        match given.note spec "" with
        | .ok given => readShort command cs given
        | .error stop => .error stop

/-- Reads an argument with options, nothing if it has none. -/
def readArgument (command : CommandSpec) (argument : String) (given : Given) :
    Except Stop (Option Reading) :=
  match argument.toList with
  | '-' :: '-' :: name => some <$> readLong command name given
  | '-' :: c :: cs => some <$> readShort command (c :: cs) given
  | _ => .ok none

/-- Reads options up to the first argument that is none. Answers the options and that argument with
all after it. Two dashes end the options, and nothing may follow them. -/
def readOptions (command : CommandSpec) :
    List String → Given → Except Stop (Given × List String)
  | [], given => .ok (given, [])
  | argument :: arguments, given =>
    if argument == "--" then
      if arguments.isEmpty then .ok (given, []) else .error .refused
    else
      match readArgument command argument given with
      | .error stop => .error stop
      | .ok none => .ok (given, argument :: arguments)
      | .ok (some (.done given)) => readOptions command arguments given
      | .ok (some (.pending spec given)) =>
        match arguments with
        | [] => .error .refused
        | value :: arguments =>
          if looksLikeOption value then .error .refused
          else
            match given.note spec value with
            | .ok given => readOptions command arguments given
            | .error stop => .error stop

end CallChart.CommandLine
