import CallChart.Path

/-!
# Where the texts of source units are kept

A store answers the text under a path, if there is one. The store in memory
is a list of paths and texts, one for each place that paths name: a path
that names a place already there replaces the text and keeps the spelling.
-/

namespace CallChart

structure TextStore where
  read? : Path → Option String

/-- Texts in memory, one for each place that paths name. The paths are kept as they were first
spelled, in the order in which their places were first written. -/
structure KeptTexts where
  files : List (Path × String) := []
  deriving Repr, Inhabited

namespace KeptTexts

/-- Writes a text among the others. If a path of the same place is there, its spelling stays and the
text is replaced where it stands. -/
def insertFile (path : Path) (text : String) : List (Path × String) → List (Path × String)
  | [] => [(path, text)]
  | file :: files =>
    if file.1.same path then (file.1, text) :: files else file :: insertFile path text files

def insert (store : KeptTexts) (path : Path) (text : String) : KeptTexts :=
  ⟨insertFile path text store.files⟩

def read? (store : KeptTexts) (path : Path) : Option String :=
  (store.files.find? (·.1.same path)).map (·.2)

def paths (store : KeptTexts) : List Path := Path.sort (store.files.map (·.1))

def toTextStore (store : KeptTexts) : TextStore := ⟨store.read?⟩

end KeptTexts

end CallChart
