import CallChart.Expr
import CallChart.Path

/-!
# Modules and source units

A module has functions, each with one body. A function written in several
clauses gets one body that holds the bodies of its clauses in order. A source
unit is what one file declares: its modules, each nested module after the one
it stands in.
-/

namespace CallChart

structure Definition where
  name : String
  body : Expr
  deriving Repr, Inhabited

/-- A module and the functions that stand directly in it, in order of declaration. Those of a nested
module are not among them: it is a module of its own, with the name of this one in front of its own.
-/
structure ModuleOutline where
  /-- The full name, with dots. -/
  name : String
  definitions : List Definition := []
  deriving Repr, Inhabited

/-- The modules of one source file, each nested one after the module it stands in. Two of them may
have one name; what they define is put together only when they are added to an index. -/
structure SourceUnit where
  path : Path
  modules : List ModuleOutline
  deriving Repr, Inhabited

/-- The body of a function that gets one more clause. The first clause stays as it is until a second
one comes. A first clause that is a block is not wrapped: the later ones are put behind its items.
-/
def Expr.withClause (body clause : Expr) : Expr :=
  match body with
  | .block clauses => .block (clauses ++ [clause])
  | single => .block [single, clause]

namespace Definition

/-- Adds a clause to the first function of that name, or a function after the others. -/
def define (name : String) (body : Expr) : List Definition → List Definition
  | [] => [⟨name, body⟩]
  | f :: fs =>
    if f.name = name then { f with body := f.body.withClause body } :: fs
    else f :: define name body fs

end Definition

namespace ModuleOutline

def definition? (m : ModuleOutline) (name : String) : Option Definition :=
  m.definitions.find? (·.name == name)

def define (m : ModuleOutline) (name : String) (body : Expr) : ModuleOutline :=
  { m with definitions := Definition.define name body m.definitions }

/-- A module with these clauses, given in order. -/
def ofClauses (name : String) (clauses : List (String × Expr)) : ModuleOutline :=
  clauses.foldl (fun m clause => m.define clause.1 clause.2) { name }

end ModuleOutline

namespace SourceUnit

def name? (unit : SourceUnit) : Option String :=
  unit.modules.head?.map ModuleOutline.name

/-- The first module, in order of declaration, that has a function of that name. -/
def definition? (unit : SourceUnit) (function : String) : Option (ModuleOutline × Definition) :=
  unit.modules.findSome? fun m => (m.definition? function).map (m, ·)

end SourceUnit

end CallChart
