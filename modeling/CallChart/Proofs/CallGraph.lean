import CallChart.Proofs.Keys

/-!
# Bodies as lists of calls

A listing needs of a body only the calls that stand in it, in order. An
expression is flattened to this list by `Expr.visibleCalls`, and an index to a
`CallGraph`: which function calls which, one list for each function that has
a body.

`CallGraph.expansion` lists what comes after a call. It has no state: the
functions above a call and their number go down by value, and nothing comes
back up. So what it lists of one call cannot hang on another call beside it.
-/

namespace CallChart

mutual

/-- The calls of named functions in an expression, from left to right. With arguments, the calls in
the arguments come before the call itself, as they are made before it. -/
def Expr.visibleCalls (withArguments : Bool) : Expr → List FunctionKey
  | .pipe left right | .both left right =>
    left.visibleCalls withArguments ++ right.visibleCalls withArguments
  | .remoteCall owner function arguments =>
    (if withArguments then visibleCallsAll withArguments arguments else [])
      ++ [⟨owner, function⟩]
  | .localCall _ items | .block items => visibleCallsAll withArguments items
  | .variable _ | .inert => []

def Expr.visibleCallsAll (withArguments : Bool) : List Expr → List FunctionKey
  | [] => []
  | item :: items =>
    item.visibleCalls withArguments ++ visibleCallsAll withArguments items

end

def FunctionKey.calledBy (callee : FunctionKey) (caller : String) : Call :=
  ⟨caller, callee.owner, callee.function⟩

/-- Which function calls which: all that a listing reads of an index. A function that is called need
not have a list of its own; one that has is among `keys`, which are finite, so a listing that enters
no function twice ends. -/
structure CallGraph where
  /-- The calls in the body of a function, in order. -/
  callees? : FunctionKey → Option (List FunctionKey)
  /-- The functions that have a body. -/
  keys : Finset FunctionKey
  mem_keys : ∀ key, key ∈ keys ↔ (callees? key).isSome

/-- The calls in the bodies of an index. Arguments are looked at here or not at all: the graph does
not tell them from other calls. -/
def Index.callGraph (index : Index) (withArguments : Bool) : CallGraph where
  callees? key := (index.body? key.owner key.function).map (·.visibleCalls withArguments)
  keys := index.functionKeys.toFinset
  mem_keys key := by
    rw [List.mem_toFinset, Index.mem_functionKeys, Option.isSome_map]

/-- A function without a body has no list of calls. -/
theorem Index.callees?_of_none {index : Index} {withArguments : Bool} {key : FunctionKey}
    (body : index.body? key.owner key.function = none) :
    (index.callGraph withArguments).callees? key = none := by
  simp only [Index.callGraph, body, Option.map_none]

/-- The list of calls of a function is that of its body. -/
theorem Index.callees?_of_some {index : Index} (withArguments : Bool) {key : FunctionKey}
    {expr : Expr} (body : index.body? key.owner key.function = some expr) :
    (index.callGraph withArguments).callees? key = some (expr.visibleCalls withArguments) := by
  simp only [Index.callGraph, body, Option.map_some]

/-- The function of a unit where a listing starts, with the calls in its body. -/
def SourceUnit.entryCalls? (unit : SourceUnit) (withArguments : Bool) (function : String) :
    Option (FunctionKey × List FunctionKey) :=
  (unit.definition? function).map fun found =>
    (⟨found.1.name, function⟩, found.2.body.visibleCalls withArguments)

def SourceUnit.entryKey? (unit : SourceUnit) (function : String) : Option FunctionKey :=
  (unit.definition? function).map fun found => ⟨found.1.name, function⟩

/-- A listing starts at the entry function, whichever calls are looked for. -/
theorem SourceUnit.entryKey?_of_entryCalls? {unit : SourceUnit} {withArguments : Bool}
    {function : String} {entry : FunctionKey × List FunctionKey}
    (found : unit.entryCalls? withArguments function = some entry) :
    unit.entryKey? function = some entry.1 := by
  obtain ⟨definition, hdefinition, rfl⟩ := Option.map_eq_some_iff.mp found
  rw [entryKey?, hdefinition]
  rfl

namespace CallGraph

variable (g : CallGraph) (limit : Option Nat)

/-- Two graphs with the same lists of calls are the same. -/
theorem eq_of_callees? {g g' : CallGraph} (same : g.callees? = g'.callees?) : g = g' := by
  obtain ⟨callees?, keys, mem_keys⟩ := g
  obtain ⟨callees?', keys', mem_keys'⟩ := g'
  cases same
  have : keys = keys' := by
    ext key
    rw [mem_keys, mem_keys']
  cases this
  rfl

/-! ## The functions that are left -/

/-- The number of functions with a body that are not among the ancestors. -/
def remaining (ancestors : Finset FunctionKey) : Nat := (g.keys \ ancestors).card

variable {g}

/-- A function that has calls listed is one of the graph's. -/
theorem mem_keys_of_callees? {key : FunctionKey} {callees : List FunctionKey}
    (found : g.callees? key = some callees) : key ∈ g.keys :=
  (g.mem_keys key).mpr (by rw [found]; rfl)

/-- **Each expansion uses one function up.** -/
theorem remaining_insert_lt {ancestors : Finset FunctionKey} {key : FunctionKey}
    (mem : key ∈ g.keys) (fresh : key ∉ ancestors) :
    g.remaining (insert key ancestors) < g.remaining ancestors := by
  refine Finset.card_lt_card ⟨Finset.sdiff_subset_sdiff subset_rfl (Finset.subset_insert _ _), ?_⟩
  intro sub
  have mem' := sub (Finset.mem_sdiff.mpr ⟨mem, fresh⟩)
  exact (Finset.mem_sdiff.mp mem').2 (Finset.mem_insert_self _ _)

/-- What holds below some ancestors, if it holds below one more function wherever a function is
left, holds below all ancestors. -/
theorem ancestors_induction {motive : Finset FunctionKey → Prop}
    (inside : ∀ ancestors, (∀ key ∈ g.keys, key ∉ ancestors → motive (insert key ancestors)) →
      motive ancestors) (ancestors : Finset FunctionKey) : motive ancestors := by
  induction left : g.remaining ancestors using Nat.strongRecOn generalizing ancestors with
  | ind n ih =>
    refine inside ancestors fun key mem fresh => ?_
    exact ih _ (left ▸ remaining_insert_lt mem fresh) (insert key ancestors) rfl

/-- Where no function is left, every function with a body is among the ancestors. -/
theorem mem_of_remaining_eq_zero {ancestors : Finset FunctionKey} {key : FunctionKey}
    (none_left : g.remaining ancestors = 0) (mem : key ∈ g.keys) : key ∈ ancestors :=
  Finset.sdiff_eq_empty_iff_subset.mp (Finset.card_eq_zero.mp none_left) mem

/-- There are never more functions left than the graph has. -/
theorem remaining_le (ancestors : Finset FunctionKey) : g.remaining ancestors ≤ g.keys.card :=
  Finset.card_le_card Finset.sdiff_subset

/-! ## Listing without a state -/

variable (g)

/-- What is listed after the call of a function: the calls in its body, each followed by what is
listed after it, unless the function is among the ancestors of the call or the limit is reached. -/
def expansion (ancestors : Finset FunctionKey) (depth : Nat) (key : FunctionKey) : List Call :=
  match found : g.callees? key with
  | none => []
  | some callees =>
    if fresh : key ∉ ancestors ∧ limit.all (depth < ·) then
      callees.flatMap fun callee =>
        callee.calledBy key.owner :: expansion (insert key ancestors) (depth + 1) callee
    else []
termination_by g.remaining ancestors
decreasing_by exact remaining_insert_lt (mem_keys_of_callees? found) fresh.1

/-- The calls made from a module, each followed by its expansion. -/
def listing (ancestors : Finset FunctionKey) (depth : Nat) (caller : String)
    (callees : List FunctionKey) : List Call :=
  callees.flatMap fun callee => callee.calledBy caller :: g.expansion limit ancestors depth callee

variable {g limit} {ancestors : Finset FunctionKey} {depth : Nat} {key : FunctionKey}

/-- A function without a body has no expansion. -/
theorem expansion_of_none (found : g.callees? key = none) :
    g.expansion limit ancestors depth key = [] := by
  unfold expansion
  split
  · rfl
  · rename_i found'
    rw [found] at found'
    cases found'

/-- A function with a body is expanded where it may be entered. -/
theorem expansion_of_some {callees : List FunctionKey} (found : g.callees? key = some callees) :
    g.expansion limit ancestors depth key =
      if key ∉ ancestors ∧ limit.all (depth < ·) then
        g.listing limit (insert key ancestors) (depth + 1) key.owner callees
      else [] := by
  rw [expansion]
  split
  · rename_i found'
    rw [found] at found'
    cases found'
  · rename_i found'
    obtain rfl := Option.some.inj (found.symm.trans found')
    rfl

end CallGraph

end CallChart
