/-!
# Expressions that hold calls

An expression keeps of a function body what the search for calls needs: the
calls of named functions of named modules, the order in which expressions
stand, and nothing else. What cannot hold a call is `inert`.
-/

namespace CallChart

/-- An expression, as far as calls go. Only a `remoteCall` is ever listed as a call; the other forms
say in which order calls stand and whether they are arguments. Literals and all else that cannot
hold a call are `inert`. -/
inductive Expr where
  /-- The left side is handed to the right side as its first argument. -/
  | pipe (left right : Expr)
  /-- A function of a module that the source names. -/
  | remoteCall (owner function : String) (arguments : List Expr)
  /-- A function without a module, or a block form such as `if`. -/
  | localCall (name : String) (arguments : List Expr)
  | variable (name : String)
  /-- Two expressions, one after the other. -/
  | both (left right : Expr)
  | block (items : List Expr)
  /-- Nothing that can hold a call. -/
  | inert
  deriving Repr, Inhabited

end CallChart
