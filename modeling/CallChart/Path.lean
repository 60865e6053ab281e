/-!
# Paths

A path is kept as it was spelled. What it names is its list of components:
repeated and trailing slashes and dots in the middle add none, so several
spellings name the same place. Paths are compared and ordered by components.
-/

namespace CallChart

inductive Component where
  | root
  | current
  | parent
  | normal (name : String)
  deriving DecidableEq, Repr

namespace Component

/-- Components of different kinds come in this order, whatever their names. -/
def rank : Component → Nat
  | root => 0
  | current => 1
  | parent => 2
  | normal _ => 3

/-- The order of components: by kind, and names by their characters. -/
def lt : Component → Component → Bool
  | normal a, normal b => a < b
  | a, b => a.rank < b.rank

def text : Component → String
  | root => "/"
  | current => "."
  | parent => ".."
  | normal name => name

end Component

/-- A path, as it was spelled. Two spellings of one place differ as paths and are `same`; what a
path names is told by its `components`. -/
structure Path where
  text : String
  deriving DecidableEq, Repr, Inhabited

namespace Path

/-- The pieces of a text between slashes, one more than there are slashes. A slash at the start or
the end and two in a row leave empty pieces, so that the text can be put together again. -/
def pieces : List Char → List (List Char)
  | [] => [[]]
  | c :: cs =>
    if c = '/' then [] :: pieces cs
    else match pieces cs with
      | piece :: more => (c :: piece) :: more
      | [] => [[c]]

/-- What a piece after the first one adds: nothing if it is empty or a dot, which is how spellings
of one place come to have the same components. Two dots are kept and lead back only on a disk. -/
def component? (piece : List Char) : Option Component :=
  match piece with
  | [] => none
  | ['.'] => none
  | ['.', '.'] => some .parent
  | _ => some (.normal (String.ofList piece))

/-- The components of a path. The first piece is special: if it is empty and others follow, the path
starts at the root, and if it is a dot, the dot is kept as `current`. So `./a` and `a` are different
paths, while `a/./b` and `a/b` are the same. -/
def components (path : Path) : List Component :=
  match pieces path.text.toList with
  | [] :: piece :: more => .root :: (piece :: more).filterMap component?
  | ['.'] :: more => .current :: more.filterMap component?
  | pieces => pieces.filterMap component?

def same (a b : Path) : Bool := a.components == b.components

def ltComponents : List Component → List Component → Bool
  | [], [] => false
  | [], _ :: _ => true
  | _ :: _, [] => false
  | a :: as, b :: bs => a.lt b || (a == b && ltComponents as bs)

/-- The order of paths: by components, from the first one on. -/
def lt (a b : Path) : Bool := ltComponents a.components b.components

/-- Paths in their order; those with the same components keep theirs. -/
def sort (paths : List Path) : List Path := paths.mergeSort fun a b => !b.lt a

/-- The last component, if it is a name. A path that ends in two dots has none. -/
def fileName? (path : Path) : Option String :=
  match path.components.getLast? with
  | some (.normal name) => some name
  | _ => none

/-- What follows the last dot of a name that does not start with it. -/
def extensionOf? (name : String) : Option String :=
  let (after, before) := name.toList.reverse.span (· != '.')
  match before with
  | _ :: _ :: _ => some (String.ofList after.reverse)
  | _ => none

def extension? (path : Path) : Option String := path.fileName?.bind extensionOf?

def isAbsolute (path : Path) : Bool := path.text.toList.head? == some '/'

/-- A path below another one. An absolute path stays as it is, and so does any path below the empty
one; a slash is put between them unless the first ends in one. -/
def join (base path : Path) : Path :=
  if path.isAbsolute || base.text.isEmpty then path
  else if base.text.toList.getLast? == some '/' then ⟨base.text ++ path.text⟩
  else ⟨base.text ++ "/" ++ path.text⟩

/-- Does a piece count as a component? `first` says that it is the first one. -/
def counts (first : Bool) (piece : List Char) : Bool :=
  !piece.isEmpty && (first || piece != ['.'])

def ofPieces (pieces : List (List Char)) : Path :=
  ⟨String.ofList (List.intercalate ['/'] pieces)⟩

/-- Drops pieces at the end that do not count. -/
def trim : List (List Char) → List (List Char)
  | [] => []
  | first :: more =>
    let kept := (more.reverse.dropWhile fun piece => !counts false piece).reverse
    first :: kept

/-- The path without its last component. What is left is spelled as it was, but for slashes and dots
at its end. The root and the empty path have no parent, and that of a single name is the empty path.
-/
def parent? (path : Path) : Option Path :=
  match trim (pieces path.text.toList) with
  | [] => none
  | [first] => if counts true first then some ⟨""⟩ else none
  | first :: more =>
    match trim (first :: more.dropLast) with
    | [[]] => some ⟨"/"⟩
    | pieces => some (ofPieces pieces)

end Path

end CallChart
