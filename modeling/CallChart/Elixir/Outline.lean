import CallChart.Elixir.Grammar.Expression
import CallChart.Outline

/-!
# From the concrete tree to modules and expressions

An expression keeps the calls of a node in source order. A capture is a
value and no call, so nothing below it is kept; neither is anything in a
quoted atom, in the key of a keyword, or in a quoted name after a dot.

A module is a call of `defmodule` with an alias as its first argument. Its
functions are the clauses of `def` and `defp` that stand directly in its do
block, and modules that stand there are nested in it.
-/

namespace CallChart.Elixir

/-- The name of an alias, without the blanks around its dots. -/
def plainName (node : Node) : String :=
  String.ofList (node.text.toList.filter (!·.isWhitespace))

/-! ## Expressions -/

mutual

/-- A node as an expression of the module `owner`, which stands for `__MODULE__`. A call of a
function of a named module becomes a `remoteCall`; where the module or the function shows only when
the program runs, the receiver and the arguments are kept and the call is not. A capture, a quoted
atom and the key of a pair are `inert` with all that stands in them. -/
def exprOf (owner : String) : Node → Expr
  | .mk kind _ text children =>
    match kind with
    | .binaryOperator =>
      match partExpr? owner .left children, partExpr? owner .right children with
      | some left, some right => if text == "|>" then .pipe left right else .both left right
      | _, _ => .inert
    | .unaryOperator =>
      if text == "&" then .inert else (partExpr? owner .operand children).getD .inert
    | .pair =>
      match partExpr? owner .value children with
      | some value => .both .inert value
      | none => .inert
    | .call =>
      let arguments := argumentExprs owner children
      match children.find? (·.role == .target) with
      | none => .block arguments
      | some target =>
        match target.kind with
        | .identifier => .localCall target.text arguments
        | .dot =>
          match target.child? .left, target.child? .right with
          | none, _ => .block arguments
          | some left, right =>
            let dynamic := .block ((receiverExpr? owner children).toList ++ arguments)
            match right with
            | none => dynamic
            | some right =>
              if right.kind == .identifier then
                if left.kind == .aliasName then
                  .remoteCall (plainName left) right.text arguments
                else if left.kind == .identifier && left.text == "__MODULE__" then
                  .remoteCall owner right.text arguments
                else dynamic
              else dynamic
        | _ => .block ((partExpr? owner .target children).toList ++ arguments)
    | .identifier => .variable text
    | .aliasName | .atom | .quotedAtom | .keyword | .integer | .float | .boolean | .nil | .char
    | .comment => .inert
    | _ => if children.isEmpty then .inert else .block (itemExprs owner children)

def partExpr? (owner : String) (role : Role) : List Node → Option Expr
  | [] => none
  | node :: nodes =>
    if node.role == role then some (exprOf owner node) else partExpr? owner role nodes

def receiverExpr? (owner : String) : List Node → Option Expr
  | [] => none
  | .mk _ role _ children :: nodes =>
    if role == .target then partExpr? owner .left children else receiverExpr? owner nodes

def itemExprs (owner : String) : List Node → List Expr
  | [] => []
  | node :: nodes =>
    if node.isComment then itemExprs owner nodes else exprOf owner node :: itemExprs owner nodes

/-- The arguments of a call and then its do block, among the children of the call. -/
def argumentExprs (owner : String) : List Node → List Expr
  | [] => []
  | .mk kind _ _ children :: nodes =>
    match kind with
    | .arguments => itemExprs owner children ++ argumentExprs owner nodes
    | .doBlock => .block (itemExprs owner children) :: argumentExprs owner nodes
    | _ => argumentExprs owner nodes

end

/-! ## Function clauses -/

def calledName? (node : Node) : Option String :=
  if node.kind == .call then
    ((node.child? .target).filter (·.kind == .identifier)).map Node.text
  else none

/-- The first argument of a call. This is the first child of the arguments, so a comment before the
argument hides it. -/
def firstArgument? (node : Node) : Option Node :=
  (node.childOf? .arguments).bind (·.children.head?)

mutual

/-- The name that the head of a clause defines: the name itself, or that of its call, or that of
what stands left of an operator. The operator is meant to be `when`, but any other is gone through
as well, so an operator that is defined is taken for its left operand. -/
def headName? : Node → Option String
  | .mk kind _ text children =>
    match kind with
    | .identifier => some text
    | .call =>
      ((children.find? (·.role == .target)).filter (·.kind == .identifier)).map Node.text
    | .binaryOperator => leftName? children
    | _ => none

def leftName? : List Node → Option String
  | [] => none
  | node :: nodes => if node.role == .left then headName? node else leftName? nodes

end

def isDoKey (pair : Node) : Bool :=
  pair.kind == .pair && (pair.child? .key).any fun key =>
    let text := key.text.toList.dropWhile Char.isWhitespace
    let text := (text.reverse.dropWhile Char.isWhitespace).dropWhile (· == ':')
    text.reverse == ['d', 'o']

/-- The expression after the keyword `do` of a clause. -/
def keywordBody? (node : Node) : Option Node := do
  let arguments ← node.childOf? .arguments
  let keywords ← arguments.childOf? .keywords
  let pair ← keywords.children.find? isDoKey
  pair.child? .value

/-- The body of a clause: its do block, or the value of its keyword `do`. A do block goes first, and
its further sections, such as `rescue`, belong to the body. -/
def clauseBody? (owner : String) (node : Node) : Option Expr :=
  match node.childOf? .doBlock with
  | some block => some (.block (itemExprs owner block.children))
  | none => (keywordBody? node).map (exprOf owner)

/-- The name and the body of a clause. A head without a body is none: it only announces the clauses
that follow. -/
def clause? (owner : String) (node : Node) : Option (String × Expr) := do
  let name ← headName? (← firstArgument? node)
  return (name, ← clauseBody? owner node)

/-! ## Modules -/

def doItems (node : Node) : List Node :=
  ((node.childOf? .doBlock).map Node.children).getD []

/-- The clauses of functions that stand directly in a module. Private functions count, since calls
go through them too. What stands inside another call, an `if` for one, is not looked at. -/
def clausesOf (owner : String) (items : List Node) : List (String × Expr) :=
  items.filterMap fun item =>
    match calledName? item with
    | some "def" | some "defp" => clause? owner item
    | _ => none

def qualify (parent : Option String) (name : String) : String :=
  match parent with
  | some parent => parent ++ "." ++ name
  | none => name

/-- The name that a call of `defmodule` gives its module. A name that is no alias, such as an atom
or a variable, declares none. -/
def declaredName? (parent : Option String) (node : Node) : Option String := do
  guard (calledName? node == some "defmodule")
  let name ← firstArgument? node
  guard (name.kind == .aliasName)
  return qualify parent (plainName name)

mutual

/-- The module that a node declares, if it does, and the modules nested in it, each after the one it
stands in. Nothing is looked for below a node that declares no module. -/
def outlinesAt (parent : Option String) : Node → List ModuleOutline
  | .mk kind role text children =>
    let node := Node.mk kind role text children
    match declaredName? parent node with
    | none => []
    | some name => .ofClauses name (clausesOf name (doItems node)) :: nestedOutlines name children

/-- The modules in the first do block among the nodes. -/
def nestedOutlines (parent : String) : List Node → List ModuleOutline
  | [] => []
  | .mk kind _ _ items :: nodes =>
    if kind == .doBlock then outlinesAmong (some parent) items else nestedOutlines parent nodes

def outlinesAmong (parent : Option String) : List Node → List ModuleOutline
  | [] => []
  | node :: nodes => outlinesAt parent node ++ outlinesAmong parent nodes

end

def outlines (source : Node) : List ModuleOutline := outlinesAmong none source.children

end CallChart.Elixir
