import CallChart.Glob.Pattern

/-!
# Matching a glob pattern

A pattern matches the bytes of a path. `Glob.run` follows the tokens one by
one and hands what is left of the path on, so that a token that may match
in several ways is tried in all of them.
-/

namespace CallChart.Glob

def slash : UInt8 := 47

def bytes (text : String) : List UInt8 := text.toUTF8.toList

def charBytes (c : Char) : List UInt8 := bytes (String.singleton c)

/-- Is the byte in the range? The bytes of a character above ASCII stand each for itself, but for
the last one of the first and the first one of the last character. -/
def inRange (range : Char × Char) (b : UInt8) : Bool :=
  let first := charBytes range.1
  let last := charBytes range.2
  if range.1 == range.2 then first.contains b
  else
    first.dropLast.contains b || last.tail.contains b
      || ((first.getLast?.any (· ≤ b)) && (last.head?.any (b ≤ ·)))

def takeBytes (expected : List UInt8) (next : List UInt8 → Bool) (text : List UInt8) : Bool :=
  match expected.isPrefixOf? text with
  | some rest => next rest
  | none => false

def takeStar (next : List UInt8 → Bool) : List UInt8 → Bool
  | [] => next []
  | b :: bs => next (b :: bs) || (b != slash && takeStar next bs)

def takeAll (next : List UInt8 → Bool) : List UInt8 → Bool
  | [] => next []
  | b :: bs => next (b :: bs) || takeAll next bs

/-- Takes any number of bytes that end in a slash. -/
def takeThroughSlash (next : List UInt8 → Bool) : List UInt8 → Bool
  | [] => false
  | b :: bs => (b == slash && next bs) || takeThroughSlash next bs

def takeByte (test : UInt8 → Bool) (next : List UInt8 → Bool) : List UInt8 → Bool
  | [] => false
  | b :: bs => test b && next bs

mutual

/-- Takes what a token matches, and hands what is left to `next`. A token that may take more or less
tries all of it, so the answer does not depend on which is tried first. -/
def runToken (token : Token) (next : List UInt8 → Bool) : List UInt8 → Bool :=
  match token with
  | .literal c => takeBytes (charBytes c) next
  | .any => takeByte (· != slash) next
  | .star => takeStar next
  | .recursivePrefix => fun text =>
    next text || takeByte (· == slash) next text || takeThroughSlash next text
  | .recursiveSuffix => takeByte (· == slash) (takeAll next)
  | .recursiveMiddle =>
    takeByte (· == slash) fun text => next text || takeThroughSlash next text
  | .byteClass negated ranges => takeByte (fun b => ranges.any (inRange · b) != negated) next
  | .alternates branches => fun text =>
    if allBlank branches then next text else runBranches branches next text

def run (tokens : List Token) (next : List UInt8 → Bool) : List UInt8 → Bool :=
  match tokens with
  | [] => next
  | token :: tokens => runToken token (run tokens next)

/-- Takes what one of the branches matches. A blank branch is none of them: it counts only if all
are blank, and then the group takes nothing. -/
def runBranches (branches : List (List Token)) (next : List UInt8 → Bool) : List UInt8 → Bool :=
  match branches with
  | [] => fun _ => false
  | branch :: branches => fun text =>
    (!blank branch && run branch next text) || runBranches branches next text

/-- Does a branch hold nothing but groups of blank branches? -/
def blank (tokens : List Token) : Bool :=
  match tokens with
  | [] => true
  | .alternates branches :: tokens => allBlank branches && blank tokens
  | _ :: _ => false

def allBlank (branches : List (List Token)) : Bool :=
  match branches with
  | [] => true
  | branch :: branches => blank branch && allBlank branches

end

/-- Does the pattern match the whole text? Two stars alone match everything, the empty text too. A
text is matched as it is spelled; nothing is tidied here. -/
def isMatch (tokens : List Token) (text : String) : Bool :=
  match tokens with
  | [.recursivePrefix] => true
  | _ => run tokens List.isEmpty (bytes text)

end CallChart.Glob
