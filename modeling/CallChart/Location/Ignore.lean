import CallChart.Files.Disk
import CallChart.Glob.Match

/-!
# Ignore rules

A folder may hold files that say what to leave out when it is walked:
`.ignore`, and in a repository `.gitignore` and `.git/info/exclude`. Each line
is a pattern for paths below the folder. The last line that matches decides,
and a line with an exclamation mark keeps what it matches.

Several folders have a say on one path: the folder it stands in and those
further out. The nearest one that says something decides. What an `.ignore`
says goes before the other two, and those count up to the nearest folder
that is the top of a repository.
-/

namespace CallChart.Location

open Files (Disk Entry Place)

structure IgnoreRule where
  pattern : List Glob.Token
  /-- Does the line keep what it matches? -/
  keeps : Bool
  /-- Does the line speak of folders only? -/
  foldersOnly : Bool
  deriving Repr

/-- Does the character count as a blank at the end of a line? -/
def isLineBlank (c : Char) : Bool :=
  let n := c.toNat
  (9 ≤ n && n ≤ 13) || n == 0x20 || n == 0x85 || n == 0xa0 || n == 0x1680
    || (0x2000 ≤ n && n ≤ 0x200a) || n == 0x2028 || n == 0x2029 || n == 0x202f || n == 0x205f
    || n == 0x3000

/-- The line without blanks at its end, unless the last one is escaped. -/
def trimLine (line : List Char) : List Char :=
  match line.reverse with
  | ' ' :: '\\' :: _ => line
  | reversed => (reversed.dropWhile isLineBlank).reverse

/-- What a line means before its pattern is read: whether it keeps, whether it is tied to the
folder, and the rest. -/
def lineMarks (line : List Char) : Bool × Bool × List Char :=
  match line with
  | '\\' :: '!' :: _ | '\\' :: '#' :: _ => (false, false, line.tail)
  | '!' :: '/' :: rest => (true, true, rest)
  | '!' :: rest => (true, false, rest)
  | '/' :: rest => (false, true, rest)
  | _ => (false, false, line)

/-- The line without a slash at its end, and whether there was one. -/
def trimSlash (line : List Char) : List Char × Bool :=
  match line.reverse with
  | '/' :: '\\' :: rest => (rest.reverse, true)
  | '/' :: rest => (rest.reverse, true)
  | _ => (line, false)

/-- The pattern of a line for the whole path. A line without a slash matches at any depth, and two
stars at the end match what is inside a folder but not the folder. -/
def wholePattern (tied : Bool) (line : List Char) : List Char :=
  let anywhere := !tied && !line.contains '/' && line != ['*', '*']
  let line := if anywhere then '*' :: '*' :: '/' :: line else line
  match line.reverse with
  | '*' :: '*' :: '/' :: _ => line ++ ['/', '*']
  | _ => line

/-- The rule that a line gives. Comments, empty lines and lines that are no pattern give none. -/
def IgnoreRule.ofLine? (line : List Char) : Option IgnoreRule :=
  if line.head? == some '#' then none
  else
    let line := trimLine line
    if line.isEmpty then none
    else
      let (keeps, tied, line) := lineMarks line
      let (line, foldersOnly) := trimSlash line
      match Glob.tokens (String.ofList (wholePattern tied line)) with
      | .ok pattern => some { pattern, keeps, foldersOnly }
      | .error _ => none

/-- The lines of a file, as bytes: a line that is no text does not spoil those before it. -/
def linesOf : List UInt8 → List (List UInt8)
  | [] => [[]]
  | b :: bs =>
    if b = 10 then [] :: linesOf bs
    else match linesOf bs with
      | line :: lines => (b :: line) :: lines
      | [] => [[b]]

def lineText? (line : List UInt8) : Option (List Char) :=
  (String.fromUTF8? ⟨line.toArray⟩).map fun text =>
    match text.toList.reverse with
    | '\r' :: rest => rest.reverse
    | _ => text.toList

/-- The lines that are text, up to the first one that is not. A mark of byte order before the
first line does not count. -/
def textLines (content : ByteArray) : List (List Char) :=
  let lines := ((linesOf content.toList).map lineText?).takeWhile Option.isSome
  match lines.filterMap id with
  | first :: lines => first.dropWhile (· == '\ufeff') :: lines
  | [] => []

def rulesOf (content : ByteArray) : List IgnoreRule :=
  (textLines content).filterMap IgnoreRule.ofLine?

/-- What rules say of a path below their folder: `true` to keep it and `false` to leave it out. The
last rule that matches decides, and where none does, nothing is said and others may be asked. -/
def verdict? (rules : List IgnoreRule) (place : Place) (isFolder : Bool) : Option Bool :=
  let text := "/".intercalate place
  (rules.reverse.find? fun rule =>
    (isFolder || !rule.foldersOnly) && Glob.isMatch rule.pattern text).map IgnoreRule.keeps

/-- What a folder says on paths below it, from its three files. The rules of different files are
kept apart, since one kind goes before another whichever folder it comes from. -/
structure FolderRules where
  isTop : Bool
  ignore : List IgnoreRule
  gitignore : List IgnoreRule
  exclude : List IgnoreRule

def rulesAt (root : Entry) (place : Place) (pieces : List String) : List IgnoreRule :=
  match Disk.followLinks root false Files.maxLinks place pieces with
  | .ok found =>
    match root.at? found with
    | some (.file content) => rulesOf content
    | _ => []
  | .error _ => []

def FolderRules.at (root : Entry) (place : Place) : FolderRules where
  isTop :=
    match Disk.followLinks root false Files.maxLinks place [".git"] with
    | .ok found => (root.at? found).isSome
    | .error _ => false
  ignore := rulesAt root place [".ignore"]
  gitignore := rulesAt root place [".gitignore"]
  exclude := rulesAt root place [".git", "info", "exclude"]

/-- A folder's rules and the place below it that they are asked about. Rules speak of paths below
their own folder, so on the way down the place grows and the rules stay. -/
structure Scope where
  rules : FolderRules
  place : Place

def descend (scopes : List Scope) (name : String) : List Scope :=
  scopes.map fun scope => { scope with place := scope.place ++ [name] }

/-- The scopes up to the nearest one that is the top of a repository. What lies outside has no say
through the files of a repository. -/
def insideRepository : List Scope → List Scope
  | [] => []
  | scope :: scopes =>
    if scope.rules.isTop then [scope] else scope :: insideRepository scopes

/-- Is a path left out? The scopes are those of the folders around it, nearest first. What an
`.ignore` says anywhere comes before what a `.gitignore` says, and that before an exclude file.
Where no folder is the top of a repository, the latter two are not asked. -/
def isIgnored (scopes : List Scope) (isFolder : Bool) : Bool :=
  let ask (scopes : List Scope) (rules : FolderRules → List IgnoreRule) : Option Bool :=
    scopes.findSome? fun scope => verdict? (rules scope.rules) scope.place isFolder
  let tracked := if scopes.any (·.rules.isTop) then insideRepository scopes else []
  let verdict := ask scopes FolderRules.ignore
    <|> ask tracked FolderRules.gitignore
    <|> ask tracked FolderRules.exclude
  verdict == some false

end CallChart.Location
