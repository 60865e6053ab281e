import CallChart.Elixir.Outline
import CallChart.Text.Quoted

/-!
# Reading source units

A source reader knows which languages it may read and how large a unit may
be. It refuses a unit that is too large, whose name has no extension of a
known language, or whose text does not follow the grammar, in this order.

A reader without a language it knows cannot be made: `SourceReader.ofOptions`
refuses such options, and the type keeps the proof.
-/

namespace CallChart

/-- What may be read. -/
structure ReadingOptions where
  languages : List String := ["elixir"]
  /-- The size of the largest unit, in bytes. -/
  sizeLimit : Nat := 1048576
  deriving DecidableEq, Repr

/-- The one language that can be read. -/
def knownLanguage : String := "elixir"

/-- The extensions of its sources. -/
def sourceExtensions : List String := ["ex", "exs"]

structure NoKnownLanguage where
  languages : List String
  deriving DecidableEq, Repr

def NoKnownLanguage.message (e : NoKnownLanguage) : String :=
  "No supported language in " ++ Text.quotedList e.languages

/-- Why a unit cannot be read. -/
inductive SourceError where
  | tooLarge (path : Path)
  | unknownLanguage (path : Path)
  /-- The text goes wrong, on this line if there is one to name. -/
  | badSyntax (path : Path) (line : Option Nat)
  deriving DecidableEq, Repr

def SourceError.detail : SourceError → String
  | tooLarge path => "File " ++ path.text ++ " exceeds maximum size limit"
  | unknownLanguage path => "Could not detect language for file: " ++ path.text
  | badSyntax path none => "Syntax error in " ++ path.text
  | badSyntax path (some line) => "Syntax error in " ++ path.text ++ " at line " ++ toString line

def SourceError.message (e : SourceError) : String := "Parser error: " ++ e.detail

/-- Reads source units. That there is a language to read is part of the type, so reading never has
to ask for one. -/
structure SourceReader where
  options : ReadingOptions
  /-- There is a language to read. -/
  known : knownLanguage ∈ options.languages

namespace SourceReader

def ofOptions (options : ReadingOptions) : Except NoKnownLanguage SourceReader :=
  if known : knownLanguage ∈ options.languages then .ok ⟨options, known⟩
  else .error ⟨options.languages⟩

def extensions (_ : SourceReader) : List String := sourceExtensions

/-- Reads the text of a unit. The size is asked for first, then the extension and the grammar last,
so a unit that is too large is refused whatever its name and its text are. -/
def readUnit (reader : SourceReader) (path : Path) (text : String) : Except SourceError SourceUnit :=
  if reader.options.sizeLimit < text.utf8ByteSize then .error (.tooLarge path)
  else if path.extension?.any reader.extensions.contains then
    match Elixir.parse text.toList with
    | .ok source => .ok { path, modules := Elixir.outlines source }
    | .error fault => .error (.badSyntax path (fault.line? text.toList))
  else .error (.unknownLanguage path)

end SourceReader

end CallChart
