import CallChart.Proofs.Expansion
import Mathlib.Logic.Relation

/-!
# A listing, step by step

`walk` and `expand` call each other. Here the same work is cut into single
steps: a `Traversal` holds what is left to do, the expansions that it is in
and the calls listed so far, and `Traversal.step` does the next thing. No step
counts anything but the depth, so nothing here ends for want of a budget.

What a step can do to the expansions is said once, in `Traversal.step_cases`:
nothing, or go into a function that has a body and is not among those being
expanded, or come out of the one gone into last. From it every state that a
traversal reaches keeps its functions apart and its depth right
(`Traversal.balanced_of_reaches`).

The end is reached because each expansion inside another one uses a function
of the index up (`Traversal.reaches_expand`), and what has been listed by then
is what `walk` lists.
-/

namespace CallChart

/-- One thing that a traversal has to do. The function that is gone into is come out of by a task of
its own, so what is being expanded can be read off the tasks. -/
inductive Task where
  /-- List the calls of an expression. -/
  | walk (caller : String) (expr : Expr)
  | record (call : Call)
  /-- List the calls of a function, if it may be gone into. -/
  | expand (key : FunctionKey)
  | leave (key : FunctionKey)

namespace Task

/-- What listing an expression comes down to. -/
def ofExpr (options : TraceOptions) (caller : String) : Expr → List Task
  | .pipe left right | .both left right => [walk caller left, walk caller right]
  | .remoteCall owner function arguments =>
    (if options.withArguments then arguments.map (walk caller) else [])
      ++ [record ⟨caller, owner, function⟩, expand ⟨owner, function⟩]
  | .localCall _ items | .block items => items.map (walk caller)
  | .variable _ | .inert => []

def left? : Task → Option FunctionKey
  | leave key => some key
  | walk _ _ | record _ | expand _ => none

/-- Walking expressions one after another comes out of no function. -/
theorem filterMap_left?_walks (caller : String) (items : List Expr) :
    (items.map (walk caller)).filterMap left? = [] := by
  rw [List.filterMap_map]
  exact List.filterMap_eq_nil_iff.mpr fun _ _ => rfl

/-- Listing an expression comes out of no function. -/
theorem filterMap_left?_ofExpr (options : TraceOptions) (caller : String) :
    ∀ expr : Expr, (ofExpr options caller expr).filterMap left? = []
  | .pipe _ _ | .both _ _ | .variable _ | .inert => rfl
  | .localCall _ items | .block items => filterMap_left?_walks caller items
  | .remoteCall _ _ arguments => by
    rw [ofExpr, List.filterMap_append]
    split
    · rw [filterMap_left?_walks caller arguments]
      rfl
    · rfl

end Task

/-- A listing under way: what is to be done, what is being expanded, and the calls listed so far. No
stack is left implicit, so a listing can be followed step by step. -/
structure Traversal where
  tasks : List Task
  descent : Descent
  /-- The calls listed so far. -/
  calls : List Call

namespace Traversal

variable (index : Index) (options : TraceOptions)

def start (entry : FunctionKey) (body : Expr) : Traversal :=
  ⟨[.walk entry.owner body], Descent.start entry, []⟩

def step : Traversal → Option Traversal
  | ⟨[], _, _⟩ => none
  | ⟨.walk caller expr :: rest, t, calls⟩ =>
    some ⟨Task.ofExpr options caller expr ++ rest, t, calls⟩
  | ⟨.record call :: rest, t, calls⟩ => some ⟨rest, t, calls ++ [call]⟩
  | ⟨.expand key :: rest, t, calls⟩ =>
    match index.body? key.owner key.function with
    | none => some ⟨rest, t, calls⟩
    | some body =>
      if t.admits options key then
        some ⟨.walk key.owner body :: .leave key :: rest, t.enter key, calls⟩
      else some ⟨rest, t, calls⟩
  | ⟨.leave key :: rest, t, calls⟩ => some ⟨rest, t.leave key, calls⟩

def Reaches : Traversal → Traversal → Prop :=
  Relation.ReflTransGen fun s next => step index options s = some next

/-- The functions that are yet to be come out of, the innermost first. -/
def pending (s : Traversal) : List FunctionKey := s.tasks.filterMap Task.left?

variable {index options} {s next : Traversal}

section Expand

variable {key : FunctionKey} (rest : List Task) (t : Descent) (calls : List Call)

/-- A function without a body is passed over. -/
theorem step_expand_of_none (body : index.body? key.owner key.function = none) :
    step index options ⟨.expand key :: rest, t, calls⟩ = some ⟨rest, t, calls⟩ := by
  rw [step, body]

/-- A function with a body is gone into if it may be. -/
theorem step_expand_of_some {expr : Expr} (body : index.body? key.owner key.function = some expr) :
    step index options ⟨.expand key :: rest, t, calls⟩ =
      if t.admits options key then
        some ⟨.walk key.owner expr :: .leave key :: rest, t.enter key, calls⟩
      else some ⟨rest, t, calls⟩ := by
  rw [step, body]

end Expand

/-- **What a step does to the expansions**: nothing, or it goes into a function that has a body and
may be gone into, or it comes out of the function that is next to be come out of. -/
theorem step_cases (stepped : step index options s = some next) :
    (next.descent = s.descent ∧ next.pending = s.pending) ∨
    (∃ key, (index.body? key.owner key.function).isSome ∧ s.descent.admits options key = true ∧
      next.descent = s.descent.enter key ∧ next.pending = key :: s.pending) ∨
    ∃ key, s.pending = key :: next.pending ∧ next.descent = s.descent.leave key := by
  obtain ⟨tasks, t, calls⟩ := s
  cases tasks with
  | nil => cases stepped
  | cons task rest =>
    cases task with
    | walk caller expr =>
      cases stepped
      refine .inl ⟨rfl, ?_⟩
      simp only [pending, List.filterMap_append, Task.filterMap_left?_ofExpr, List.nil_append]
      rfl
    | record call => cases stepped; exact .inl ⟨rfl, rfl⟩
    | expand key =>
      cases body : index.body? key.owner key.function with
      | none =>
        rw [step_expand_of_none rest t calls body] at stepped
        cases stepped
        exact .inl ⟨rfl, rfl⟩
      | some expr =>
        rw [step_expand_of_some rest t calls body] at stepped
        by_cases admitted : t.admits options key = true
        · rw [if_pos admitted] at stepped
          cases stepped
          exact .inr (.inl ⟨key, by rw [body]; rfl, admitted, rfl, rfl⟩)
        · rw [if_neg admitted] at stepped
          cases stepped
          exact .inl ⟨rfl, rfl⟩
    | leave key => cases stepped; exact .inr (.inr ⟨key, rfl, rfl⟩)

/-! ## The states that are reached -/

/-- The functions being expanded are the entry function and those yet to be come out of. No two are
the same, each but the entry function has a body, and the depth is the number of the others. -/
structure Balanced (index : Index) (entry : FunctionKey) (s : Traversal) : Prop where
  entered : s.descent.entered = s.pending ++ [entry]
  depth : s.descent.depth = s.pending.length
  distinct : (s.pending ++ [entry]).Nodup
  bodies : ∀ key ∈ s.pending, (index.body? key.owner key.function).isSome

variable {entry : FunctionKey}

theorem balanced_start (body : Expr) : Balanced index entry (start entry body) where
  entered := rfl
  depth := rfl
  distinct := List.nodup_singleton entry
  bodies _ mem := nomatch mem

/-- A step keeps the balance. -/
theorem Balanced.step (balanced : Balanced index entry s)
    (stepped : step index options s = some next) : Balanced index entry next := by
  obtain ⟨entered, depth, distinct, bodies⟩ := balanced
  rcases step_cases stepped with ⟨descent, pending⟩ | ⟨key, body, admitted, descent, pending⟩ |
    ⟨key, pending, descent⟩
  · rw [← pending] at entered depth distinct bodies
    exact ⟨descent ▸ entered, descent ▸ depth, distinct, bodies⟩
  · -- the function gone into is not among those being expanded, so they stay apart
    have fresh := ((s.descent.admits_iff key options).mp admitted).1
    rw [List.mem_toFinset, entered] at fresh
    refine ⟨?_, ?_, ?_, ?_⟩
    · rw [descent, pending, Descent.enter, entered]
      rfl
    · rw [descent, pending, Descent.enter, depth]
      rfl
    · rw [pending]
      exact List.nodup_cons.mpr ⟨fresh, distinct⟩
    · intro other mem
      rw [pending] at mem
      rcases List.mem_cons.mp mem with rfl | mem
      · exact body
      · exact bodies other mem
  · -- the function come out of was gone into last, so it stands first among those being expanded
    rw [pending] at entered depth distinct bodies
    refine ⟨?_, ?_, (List.nodup_cons.mp distinct).2, ?_⟩
    · rw [descent, Descent.leave, entered, List.cons_append, List.erase_cons_head]
    · rw [descent, Descent.leave, depth]
      rfl
    · exact fun other mem => bodies other (List.mem_cons_of_mem _ mem)

/-- **Every state that a traversal reaches is balanced.** -/
theorem balanced_of_reaches {body : Expr} (reached : Reaches index options (start entry body) s) :
    Balanced index entry s := by
  induction reached with
  | refl => exact balanced_start body
  | tail _ stepped ih => exact ih.step stepped

/-- The depth is at most the number of functions in the index, since no function is entered
twice. -/
theorem Balanced.depth_le (balanced : Balanced index entry s) :
    s.descent.depth ≤ index.bodyCount := by
  have apart : s.pending.Nodup := (List.nodup_append.mp balanced.distinct).1
  rw [balanced.depth, ← List.toFinset_card_of_nodup apart, ← index.card_functionKeys]
  refine Finset.card_le_card fun key mem => ?_
  rw [List.mem_toFinset] at mem ⊢
  exact Index.mem_functionKeys.mpr (balanced.bodies key mem)

/-- The depth goes up by one to at most the number of functions in the index, or it goes down by
one from above zero, or it stays. -/
theorem Balanced.depth_step (balanced : Balanced index entry s)
    (stepped : Traversal.step index options s = some next) :
    next.descent.depth = s.descent.depth ∨
      (next.descent.depth = s.descent.depth + 1 ∧ next.descent.depth ≤ index.bodyCount) ∨
      s.descent.depth = next.descent.depth + 1 := by
  have after := balanced.step stepped
  rcases step_cases stepped with ⟨descent, _⟩ | ⟨key, _, _, descent, _⟩ | ⟨key, pending, _⟩
  · exact .inl (by rw [descent])
  · exact .inr (.inl ⟨by rw [descent]; rfl, after.depth_le⟩)
  · refine .inr (.inr ?_)
    rw [balanced.depth, after.depth, pending]
    rfl

/-! ## The end of a traversal -/

section Ending

variable {t : Descent} {listed : FunctionKey → List Call}

mutual

/-- Walking an expression gets to what is left after it, if expanding each of its calls does. -/
theorem reaches_walk
    (expands : ∀ key rest calls, Reaches index options ⟨.expand key :: rest, t, calls⟩
      ⟨rest, t, calls ++ listed key⟩) (caller : String) :
    ∀ (expr : Expr) (rest : List Task) (calls : List Call),
      Reaches index options ⟨.walk caller expr :: rest, t, calls⟩
        ⟨rest, t, calls ++ (expr.visibleCalls options.withArguments).flatMap fun key =>
          key.calledBy caller :: listed key⟩
  | .pipe left right, rest, calls | .both left right, rest, calls => by
    rw [Expr.visibleCalls, List.flatMap_append, ← List.append_assoc]
    refine .head rfl ?_
    exact (reaches_walk expands caller left _ calls).trans
      (reaches_walk expands caller right rest _)
  | .remoteCall owner function arguments, rest, calls => by
    have last : ∀ calls, Reaches index options
        ⟨.record ⟨caller, owner, function⟩ :: .expand ⟨owner, function⟩ :: rest, t, calls⟩
        ⟨rest, t, calls ++ FunctionKey.calledBy ⟨owner, function⟩ caller ::
          listed ⟨owner, function⟩⟩ := by
      intro calls
      rw [List.append_cons]
      exact .head rfl (expands ⟨owner, function⟩ rest _)
    rw [Expr.visibleCalls, List.flatMap_append, List.flatMap_singleton, ← List.append_assoc]
    refine .head rfl ?_
    rw [Task.ofExpr, List.append_assoc]
    by_cases listed_too : options.withArguments = true
    · rw [if_pos listed_too, if_pos listed_too]
      exact (reaches_walks expands caller arguments _ calls).trans (last _)
    · rw [if_neg listed_too, if_neg listed_too, List.flatMap_nil, List.append_nil]
      exact last calls
  | .localCall _ items, rest, calls | .block items, rest, calls => by
    rw [Expr.visibleCalls]
    exact .head rfl (reaches_walks expands caller items rest calls)
  | .variable _, rest, calls | .inert, rest, calls => by
    rw [Expr.visibleCalls, List.flatMap_nil, List.append_nil]
    exact .head rfl .refl

/-- Walking expressions in order gets to what is left after them. -/
theorem reaches_walks
    (expands : ∀ key rest calls, Reaches index options ⟨.expand key :: rest, t, calls⟩
      ⟨rest, t, calls ++ listed key⟩) (caller : String) :
    ∀ (items : List Expr) (rest : List Task) (calls : List Call),
      Reaches index options ⟨items.map (.walk caller) ++ rest, t, calls⟩
        ⟨rest, t, calls ++ (Expr.visibleCallsAll options.withArguments items).flatMap fun key =>
          key.calledBy caller :: listed key⟩
  | [], rest, calls => by
    rw [Expr.visibleCallsAll, List.flatMap_nil, List.append_nil]
    exact .refl
  | item :: items, rest, calls => by
    rw [Expr.visibleCallsAll, List.flatMap_append, ← List.append_assoc]
    exact (reaches_walk expands caller item _ calls).trans
      (reaches_walks expands caller items rest _)

end

end Ending

/-- **Expanding a call gets to what is left after it**, having listed the call's expansion and with
the expansions as they were. By induction on the number of functions that are left to go into. -/
theorem reaches_expand (t : Descent) (key : FunctionKey) (rest : List Task) (calls : List Call) :
    Reaches index options ⟨.expand key :: rest, t, calls⟩
      ⟨rest, t, calls ++ (index.callGraph options.withArguments).expansion options.depthLimit
        t.entered.toFinset t.depth key⟩ := by
  induction below : t.entered.toFinset using
    (index.callGraph options.withArguments).ancestors_induction
    generalizing t key rest calls with
  | inside ancestors ih =>
    cases body : index.body? key.owner key.function with
    | none =>
      rw [CallGraph.expansion_of_none (Index.callees?_of_none body), List.append_nil]
      exact .single (step_expand_of_none rest t calls body)
    | some expr =>
      have found := Index.callees?_of_some options.withArguments body
      have stepped : step index options ⟨.expand key :: rest, t, calls⟩ = _ :=
        step_expand_of_some rest t calls body
      rw [CallGraph.expansion_of_some found]
      by_cases admitted : t.admits options key = true
      · have fresh := below ▸ (t.admits_iff key options).mp admitted
        have inner : (t.enter key).entered.toFinset = insert key ancestors := by
          rw [Descent.toFinset_enter, below]
        have inside := reaches_walk
          (fun callee rest calls => ih key (CallGraph.mem_keys_of_callees? found) fresh.1
            (t.enter key) callee rest calls inner)
          key.owner expr (.leave key :: rest) calls
        rw [if_pos admitted] at stepped
        rw [if_pos fresh]
        refine .head stepped (inside.trans (.single ?_))
        rw [step, Descent.leave_enter]
        rfl
      · rw [if_neg admitted] at stepped
        rw [if_neg fun fresh => admitted ((t.admits_iff key options).mpr (below ▸ fresh)),
          List.append_nil]
        exact .single stepped

/-- No run is infinite from a state where one run comes to an end: a state has one next state. -/
theorem acc_of_reaches {last : Traversal} (reached : Reaches index options s last)
    (ended : step index options last = none) :
    Acc (fun next s => step index options s = some next) s := by
  induction reached using Relation.ReflTransGen.head_induction_on with
  | refl =>
    refine .intro _ fun next stepped => ?_
    rw [ended] at stepped
    cases stepped
  | head stepped _ ih =>
    refine .intro _ fun next stepped' => ?_
    obtain rfl := Option.some.inj (stepped.symm.trans stepped')
    exact ih

/-- **A traversal ends, and within bounds.** No run of it is infinite, whatever circles the calls of
the index close, and it comes to an end having listed the calls of the entry function. In every
state on the way the functions being expanded are the entry function and as many others as the depth
says, all different, each with a body in the index. So the depth is at most the number of functions
in the index; it goes up to no more than that and comes down only from above zero. -/
theorem ends_within_bounds (index : Index) (options : TraceOptions) {unit : SourceUnit}
    {function : String} {owner : ModuleOutline} {definition : Definition}
    (found : unit.definition? function = some (owner, definition)) :
    let entry : FunctionKey := ⟨owner.name, function⟩
    Acc (fun next s => step index options s = some next) (start entry definition.body) ∧
    Reaches index options (start entry definition.body)
      ⟨[], Descent.start entry, (Trace.ofUnit index options unit function).calls⟩ ∧
    ∀ s, Reaches index options (start entry definition.body) s →
      (∃ keys : List FunctionKey, s.descent.entered = keys ++ [entry] ∧
        keys.length = s.descent.depth ∧ (keys ++ [entry]).Nodup ∧
        ∀ key ∈ keys, (index.body? key.owner key.function).isSome) ∧
      s.descent.depth ≤ index.bodyCount ∧
      ∀ next, step index options s = some next →
        next.descent.depth = s.descent.depth ∨
          (next.descent.depth = s.descent.depth + 1 ∧ next.descent.depth ≤ index.bodyCount) ∨
          s.descent.depth = next.descent.depth + 1 := by
  intro entry
  have ends : Reaches index options (start entry definition.body)
      ⟨[], Descent.start entry, (Trace.ofUnit index options unit function).calls⟩ := by
    rw [Trace.calls_ofUnit_of_some index options found]
    exact reaches_walk (reaches_expand (Descent.start entry)) owner.name definition.body [] []
  refine ⟨acc_of_reaches ends rfl, ends, fun s reached => ?_⟩
  have balanced := balanced_of_reaches reached
  exact ⟨⟨s.pending, balanced.entered, balanced.depth.symm, balanced.distinct, balanced.bodies⟩,
    balanced.depth_le, fun next stepped => balanced.depth_step stepped⟩

/-- Two functions that call each other are each expanded once below a third one. -/
theorem ends_within_bounds_circular :
    let go : Definition := ⟨"go", .remoteCall "B" "x" []⟩
    let a : ModuleOutline := ⟨"A", [go, ⟨"y", .remoteCall "B" "x" []⟩]⟩
    let b : ModuleOutline := ⟨"B", [⟨"x", .remoteCall "A" "y" []⟩]⟩
    let unit : SourceUnit := ⟨⟨"a.ex"⟩, [a]⟩
    let index := (Index.empty.addUnit unit).addUnit ⟨⟨"b.ex"⟩, [b]⟩
    unit.definition? "go" = some (a, go) ∧
    Reaches index {} (start ⟨"A", "go"⟩ go.body)
      ⟨[], Descent.start ⟨"A", "go"⟩, [⟨"A", "B", "x"⟩, ⟨"B", "A", "y"⟩, ⟨"A", "B", "x"⟩]⟩ ∧
    ∀ s, Reaches index {} (start ⟨"A", "go"⟩ go.body) s → s.descent.depth ≤ 3 := by
  intro go a b unit index
  have found : unit.definition? "go" = some (a, go) := rfl
  obtain ⟨_, ends, bounded⟩ := ends_within_bounds index {} found
  have calls : (Trace.ofUnit index {} unit "go").calls =
      [⟨"A", "B", "x"⟩, ⟨"B", "A", "y"⟩, ⟨"A", "B", "x"⟩] := by decide
  have count : index.bodyCount = 3 := by decide
  rw [calls] at ends
  rw [count] at bounded
  exact ⟨found, ends, fun s reached => (bounded s reached).2.1⟩

end Traversal

end CallChart
