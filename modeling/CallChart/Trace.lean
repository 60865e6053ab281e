import CallChart.Index

/-!
# The calls of a function

From the body of an entry function the calls of named functions are listed
in the order in which they are met. After each call come the calls of the
function it calls, if the index has its body, and so on. A function that is
being expanded is not expanded again, so the listing ends even if functions
call each other in a circle.

The listing keeps the functions being expanded and their number as a state.
A call adds its function while its body is walked and takes it away after.
Each expansion inside another one adds a function that the index has, so
the number of functions in the index bounds the depth.
-/

namespace CallChart

/-- A call, from one module to a function of another. The caller is the module whose body the call
stands in; which of its functions that is, is not kept. -/
structure Call where
  caller : String
  callee : String
  function : String
  deriving DecidableEq, Repr, Inhabited

structure Trace where
  entryOwner : String
  calls : List Call
  deriving DecidableEq, Repr, Inhabited

/-- How calls are listed. -/
structure TraceOptions where
  /-- The number of expansions that may stand inside each other, if there is a limit. -/
  depthLimit : Option Nat := none
  /-- Are the arguments of a call listed before it? -/
  withArguments : Bool := false
  deriving DecidableEq, Repr

structure FunctionKey where
  owner : String
  function : String
  deriving DecidableEq, Repr

/-- The expansions that the listing is in: the functions whose bodies are being walked, the entry
function among them, and how many of them were entered by a call. The depth is kept beside the list
since the limit speaks of it, and the entry function does not count for it. -/
structure Descent where
  entered : List FunctionKey
  depth : Nat
  deriving DecidableEq, Repr

namespace Descent

/-- At the start only the entry function is being listed, so a call of it is not expanded. -/
def start (entry : FunctionKey) : Descent := ⟨[entry], 0⟩

def enter (t : Descent) (key : FunctionKey) : Descent := ⟨key :: t.entered, t.depth + 1⟩

def leave (t : Descent) (key : FunctionKey) : Descent :=
  ⟨t.entered.erase key, t.depth - 1⟩

/-- A function may be gone into if it is not being expanded already and the limit leaves room. Both
are asked of the state before the call, so a limit of zero lists the calls of the entry function
only. -/
def admits (t : Descent) (options : TraceOptions) (key : FunctionKey) : Bool :=
  !t.entered.contains key && options.depthLimit.all (t.depth < ·)

end Descent

abbrev Listing := StateM Descent (List Call)

mutual

/-- The calls of an expression in the module `caller`, each followed by what `follow` lists of it.
The two sides of a pipe are visited in order, so a call on the left comes first. The arguments of a
call are visited before it, or not at all, as the options say; those of a local call always are. -/
def visit (options : TraceOptions) (follow : FunctionKey → Listing) (caller : String) :
    Expr → Listing
  | .pipe left right | .both left right => do
    let before ← visit options follow caller left
    return before ++ (← visit options follow caller right)
  | .remoteCall owner function arguments => do
    let before ← if options.withArguments then visitAll options follow caller arguments
      else pure []
    return before ++ ⟨caller, owner, function⟩ :: (← follow ⟨owner, function⟩)
  | .localCall _ items | .block items => visitAll options follow caller items
  | .variable _ | .inert => pure []

def visitAll (options : TraceOptions) (follow : FunctionKey → Listing) (caller : String) :
    List Expr → Listing
  | [] => pure []
  | item :: items => do
    let before ← visit options follow caller item
    return before ++ (← visitAll options follow caller items)

end

/-- The calls in the body of a function, if it may be expanded, at most `n` expansions inside each
other. A function that the index does not have, or that may not be gone into now, lists nothing.
Whatever happens inside, the state is left as it was found. -/
def follow (index : Index) (options : TraceOptions) : Nat → FunctionKey → Listing
  | 0, _ => pure []
  | n + 1, key => do
    match index.body? key.owner key.function with
    | none => return []
    | some body =>
      if (← get).admits options key then
        modify (·.enter key)
        let calls ← visit options (follow index options n) key.owner body
        modify (·.leave key)
        return calls
      else return []

/-- The calls in the body of a function, if it may be expanded. Each expansion inside another one
enters one more function of the index, so no more of them are needed than the index has functions.
-/
def expand (index : Index) (options : TraceOptions) : FunctionKey → Listing :=
  follow index options index.bodyCount

/-- The calls of an expression in the module `caller`, each followed by those of the function it
calls. -/
def walk (index : Index) (options : TraceOptions) (caller : String) (expr : Expr) : Listing :=
  visit options (expand index options) caller expr

namespace Trace

def namelessOwner : String := "UnknownModule"

/-- What there is to say of a unit that is not there: this is an answer and no error. -/
def missing : Trace := ⟨namelessOwner, []⟩

def isEmpty (trace : Trace) : Bool := trace.calls.isEmpty

def callsOf (index : Index) (options : TraceOptions) (entry : FunctionKey) (body : Expr) :
    List Call :=
  (walk index options entry.owner body (Descent.start entry)).1

/-- The calls of a function of a unit. The body is taken from the unit itself and not from the
index, where another definition may have replaced it. A unit without the function has no calls, and
is named after its first module. -/
def ofUnit (index : Index) (options : TraceOptions) (unit : SourceUnit) (function : String) :
    Trace :=
  match unit.definition? function with
  | some (owner, definition) =>
    ⟨owner.name, callsOf index options ⟨owner.name, function⟩ definition.body⟩
  | none => ⟨unit.name?.getD namelessOwner, []⟩

/-- The calls of a function of the unit under a path. A path without a unit gives the empty trace,
as if the unit had no module; a unit that cannot be read is an error. -/
def ofPath (index : Index) (options : TraceOptions) (reader : SourceReader)
    (store : TextStore) (path : Path) (function : String) : Except SourceError Trace :=
  match reader.fetch store path with
  | .notFound => .ok missing
  | .failed error => .error error
  | .unit unit => .ok (ofUnit index options unit function)

end Trace

end CallChart
