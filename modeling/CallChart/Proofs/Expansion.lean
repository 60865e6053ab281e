import CallChart.Proofs.CallGraph

/-!
# Walking lists what the graph of calls says

`walk` keeps the functions being expanded and their number as a state that it
changes and puts back. The law of this module is that the state can be left
out: from any state, `walk` lists the visible calls of its expression, each
followed by its expansion below that state's functions at that state's depth,
and ends in the state it began in.

The proof has two halves. An expression does nothing to the state but through
its calls (`visit_eq`, by induction on the expression). And the calls leave
the state as it was (`follow_eq`, by induction on the number of functions that
are not being expanded), since a function is entered only if it is not yet
among those being expanded, so that coming out of it removes what was added.
-/

namespace CallChart

/-! ## Coming back out of a function -/

namespace Descent

variable (t : Descent) (key : FunctionKey)

/-- Coming back out of a function undoes going into it. -/
@[simp] theorem leave_enter : (t.enter key).leave key = t := by
  simp only [enter, leave, List.erase_cons_head, Nat.add_sub_cancel]

/-- The functions being expanded inside a function are those around it and the function itself. -/
@[simp] theorem toFinset_enter :
    (t.enter key).entered.toFinset = insert key t.entered.toFinset :=
  List.toFinset_cons

/-- A function may be gone into if it is not being expanded and the limit is not reached. -/
theorem admits_iff (options : TraceOptions) :
    t.admits options key = true ↔
      key ∉ t.entered.toFinset ∧ options.depthLimit.all (t.depth < ·) = true := by
  rw [admits, Bool.and_eq_true, Bool.not_eq_true', List.mem_toFinset, ← List.contains_iff_mem,
    Bool.not_eq_true]

end Descent

/-! ## Expressions -/

section Visit

variable (options : TraceOptions) {t : Descent}

/-- What comes after a listing that leaves the state as it was starts in the same state. -/
theorem bind_of_stays {α β : Type} {first : StateM Descent α} {next : α → StateM Descent β} {a : α}
    (stays : first t = (a, t)) : (first >>= next) t = next a t := by
  show (match first t with | (a, t) => next a t) = next a t
  rw [stays]

variable {follow : FunctionKey → Listing} {listed : FunctionKey → List Call}

mutual

/-- **An expression is listed through its visible calls**: if following a call leaves the state as
it was, so does the expression, and it lists each call followed by what is listed of it. -/
theorem visit_eq (stays : ∀ key, follow key t = (listed key, t)) (caller : String) :
    ∀ expr : Expr, visit options follow caller expr t =
      ((expr.visibleCalls options.withArguments).flatMap fun key =>
        key.calledBy caller :: listed key, t)
  | .pipe left right | .both left right => by
    rw [visit, bind_of_stays (visit_eq stays caller left),
      bind_of_stays (visit_eq stays caller right), Expr.visibleCalls, List.flatMap_append]
    rfl
  | .remoteCall owner function arguments => by
    rw [visit, Expr.visibleCalls, List.flatMap_append, List.flatMap_singleton]
    by_cases listed_too : options.withArguments = true
    · rw [if_pos listed_too, if_pos listed_too,
        bind_of_stays (visitAll_eq stays caller arguments)]
      exact bind_of_stays (stays ⟨owner, function⟩)
    · rw [if_neg listed_too, if_neg listed_too, pure_bind]
      exact bind_of_stays (stays ⟨owner, function⟩)
  | .localCall _ items | .block items => by
    rw [visit, visitAll_eq stays caller items, Expr.visibleCalls]
  | .variable _ | .inert => rfl

/-- Expressions in order are listed through their visible calls. -/
theorem visitAll_eq (stays : ∀ key, follow key t = (listed key, t)) (caller : String) :
    ∀ items : List Expr, visitAll options follow caller items t =
      ((Expr.visibleCallsAll options.withArguments items).flatMap fun key =>
        key.calledBy caller :: listed key, t)
  | [] => rfl
  | item :: items => by
    rw [visitAll, bind_of_stays (visit_eq stays caller item),
      bind_of_stays (visitAll_eq stays caller items), Expr.visibleCallsAll, List.flatMap_append]
    rfl

end

end Visit

/-! ## Expansions -/

section Follow

variable (index : Index) (options : TraceOptions)

/-- **Following a call lists its expansion and leaves the state as it was**, as long as no fewer
expansions may stand inside each other than there are functions left to go into. -/
theorem follow_eq (n : Nat) (t : Descent) (key : FunctionKey)
    (enough : (index.callGraph options.withArguments).remaining t.entered.toFinset ≤ n) :
    follow index options n key t =
      ((index.callGraph options.withArguments).expansion options.depthLimit
        t.entered.toFinset t.depth key, t) := by
  induction n generalizing t key with
  | zero =>
    cases found : (index.callGraph options.withArguments).callees? key with
    | none => rw [CallGraph.expansion_of_none found]; rfl
    | some callees =>
      have entered := CallGraph.mem_of_remaining_eq_zero (Nat.le_zero.mp enough)
        (CallGraph.mem_keys_of_callees? found)
      rw [CallGraph.expansion_of_some found, if_neg (fun fresh => fresh.1 entered)]
      rfl
  | succ n ih =>
    cases body : index.body? key.owner key.function with
    | none =>
      rw [follow, body, CallGraph.expansion_of_none (Index.callees?_of_none body)]
      rfl
    | some expr =>
      have found := Index.callees?_of_some options.withArguments body
      rw [follow, body, CallGraph.expansion_of_some found]
      show (if t.admits options key then _ else _ : Listing) t = _
      by_cases admitted : t.admits options key = true
      · have fresh := (t.admits_iff key options).mp admitted
        have less := CallGraph.remaining_insert_lt (CallGraph.mem_keys_of_callees? found) fresh.1
        have inside := visit_eq options
          (fun callee => ih (t.enter key) callee (by rw [Descent.toFinset_enter]; omega))
          key.owner expr
        rw [if_pos admitted, if_pos fresh]
        show (match visit options (follow index options n) key.owner expr (t.enter key) with
          | (calls, t') => (calls, t'.leave key)) = _
        rw [inside]
        show (_, (t.enter key).leave key) = _
        rw [Descent.leave_enter, Descent.toFinset_enter]
        rfl
      · rw [if_neg admitted, if_neg (fun fresh => admitted ((t.admits_iff key options).mpr fresh))]
        rfl

/-- Expanding a call lists its expansion and leaves the state as it was: the index has no more
functions than expansions may stand inside each other. -/
theorem expand_eq (t : Descent) (key : FunctionKey) :
    expand index options key t =
      ((index.callGraph options.withArguments).expansion options.depthLimit
        t.entered.toFinset t.depth key, t) := by
  refine follow_eq index options index.bodyCount t key ?_
  rw [← index.card_functionKeys]
  exact CallGraph.remaining_le t.entered.toFinset

/-- **Walking an expression lists its visible calls, each followed by its expansion, and leaves the
state as it was.** -/
theorem walk_eq (caller : String) (expr : Expr) (t : Descent) :
    walk index options caller expr t =
      ((index.callGraph options.withArguments).listing options.depthLimit t.entered.toFinset
        t.depth caller (expr.visibleCalls options.withArguments), t) :=
  visit_eq options (expand_eq index options t) caller expr

/-- The calls of an entry function are listed below that function alone, at depth zero. -/
theorem Trace.callsOf_eq (entry : FunctionKey) (body : Expr) :
    Trace.callsOf index options entry body =
      (index.callGraph options.withArguments).listing options.depthLimit {entry} 0 entry.owner
        (body.visibleCalls options.withArguments) := by
  rw [Trace.callsOf, walk_eq]
  rfl

/-- The calls of a function that the unit has are listed below that function alone. -/
theorem Trace.calls_ofUnit_of_some {unit : SourceUnit} {function : String} {owner : ModuleOutline}
    {definition : Definition} (found : unit.definition? function = some (owner, definition)) :
    (Trace.ofUnit index options unit function).calls =
      (index.callGraph options.withArguments).listing options.depthLimit
        {⟨owner.name, function⟩} 0 owner.name
        (definition.body.visibleCalls options.withArguments) := by
  rw [Trace.ofUnit, found]
  exact Trace.callsOf_eq index options ⟨owner.name, function⟩ definition.body

/-- The calls of a unit's function, if the unit has it. -/
theorem Trace.calls_ofUnit (unit : SourceUnit) (function : String) :
    (Trace.ofUnit index options unit function).calls =
      (unit.entryCalls? options.withArguments function).elim [] fun entry =>
        (index.callGraph options.withArguments).listing options.depthLimit {entry.1} 0
          entry.1.owner entry.2 := by
  rw [SourceUnit.entryCalls?]
  cases found : unit.definition? function with
  | none => rw [Trace.ofUnit, found]; rfl
  | some entry => exact Trace.calls_ofUnit_of_some index options found

/-- A trace is of the module that has the entry function, or else of the unit's first module. -/
theorem Trace.entryOwner_ofUnit_eq (unit : SourceUnit) (function : String) :
    (Trace.ofUnit index options unit function).entryOwner =
      (unit.entryCalls? options.withArguments function).elim
        (unit.name?.getD Trace.namelessOwner) (·.1.owner) := by
  rw [Trace.ofUnit, SourceUnit.entryCalls?]
  cases unit.definition? function <;> rfl

/-- **A trace reads a unit through its entry function and an index through its graph of calls.** -/
theorem Trace.ofUnit_congr {index index' : Index} {options : TraceOptions}
    {unit unit' : SourceUnit} {function : String}
    (bodies : (index.callGraph options.withArguments).callees? =
      (index'.callGraph options.withArguments).callees?)
    (entries : unit.entryCalls? options.withArguments function =
      unit'.entryCalls? options.withArguments function)
    (names : unit.name? = unit'.name?) :
    Trace.ofUnit index options unit function = Trace.ofUnit index' options unit' function := by
  have owners := Trace.entryOwner_ofUnit_eq index options unit function
  have calls := Trace.calls_ofUnit index options unit function
  rw [entries, names, ← Trace.entryOwner_ofUnit_eq index'] at owners
  rw [entries, CallGraph.eq_of_callees? bodies, ← Trace.calls_ofUnit] at calls
  exact congrArg₂ Trace.mk owners calls

end Follow

/-! ## The state does not matter -/

/-- Bodies are read one after another, so the calls of expressions in order are those of the parts
they are cut into. -/
theorem Expr.visibleCallsAll_append (withArguments : Bool) (first rest : List Expr) :
    Expr.visibleCallsAll withArguments (first ++ rest) =
      Expr.visibleCallsAll withArguments first ++ Expr.visibleCallsAll withArguments rest := by
  induction first with
  | nil => rfl
  | cons item items ih =>
    rw [List.cons_append, Expr.visibleCallsAll, ih, Expr.visibleCallsAll, List.append_assoc]

/-- **A listing has no memory.** Walking leaves the state as it found it, whatever the state; what
it lists is the stateless listing of the expression's visible calls below that state; expressions
beside each other list what each would list alone; and the calls of a unit's function are the same
wherever the visible calls of the entry body and of each body in the index are the same. -/
theorem walk_is_stateless :
    (∀ (index : Index) (options : TraceOptions) (caller : String) (expr : Expr) (t : Descent),
      walk index options caller expr t =
        ((index.callGraph options.withArguments).listing options.depthLimit t.entered.toFinset
          t.depth caller (expr.visibleCalls options.withArguments), t)) ∧
    (∀ (index : Index) (options : TraceOptions) (caller : String) (first rest : List Expr)
        (t : Descent),
      walk index options caller (.block (first ++ rest)) t =
        ((walk index options caller (.block first) t).1
          ++ (walk index options caller (.block rest) t).1, t)) ∧
    ∀ (index index' : Index) (options : TraceOptions) (unit unit' : SourceUnit) (function : String),
      (index.callGraph options.withArguments).callees? =
        (index'.callGraph options.withArguments).callees? →
      unit.entryCalls? options.withArguments function =
        unit'.entryCalls? options.withArguments function →
      (Trace.ofUnit index options unit function).calls =
        (Trace.ofUnit index' options unit' function).calls := by
  refine ⟨walk_eq, fun index options caller first rest t => ?_, ?_⟩
  · simp only [walk_eq, Expr.visibleCalls, Expr.visibleCallsAll_append, CallGraph.listing,
      List.flatMap_append]
  · intro index index' options unit unit' function bodies entries
    rw [Trace.calls_ofUnit, Trace.calls_ofUnit, CallGraph.eq_of_callees? bodies, entries]

/-- A body written as a pipe or as a block of the same calls gives the same listing, in the entry
function and in the index alike. -/
theorem walk_is_stateless_respelled :
    let entry : Expr := .pipe (.remoteCall "B" "once" []) (.remoteCall "B" "once" [])
    let entry' : Expr := .block [.variable "x", .remoteCall "B" "once" [],
      .localCall "if" [.remoteCall "B" "once" []]]
    let unit (body : Expr) : SourceUnit := ⟨⟨"a.ex"⟩, [⟨"A", [⟨"run", body⟩]⟩]⟩
    let index (body : Expr) : Index := Index.empty.addUnit ⟨⟨"b.ex"⟩, [⟨"B", [⟨"once", body⟩]⟩]⟩
    let leaf : Expr := .remoteCall "C" "leaf" []
    ((index leaf).callGraph false).callees? =
      ((index (.both .inert leaf)).callGraph false).callees? ∧
    (unit entry).entryCalls? false "run" = (unit entry').entryCalls? false "run" ∧
    (Trace.ofUnit (index leaf) {} (unit entry) "run").calls =
      (Trace.ofUnit (index (.both .inert leaf)) {} (unit entry') "run").calls := by
  intro entry entry' unit index leaf
  have bodies : ((index leaf).callGraph false).callees? =
      ((index (.both .inert leaf)).callGraph false).callees? := by
    funext key
    simp only [index, Index.callGraph, Index.body?, Index.addUnit, Index.addModule,
      Index.addFunctions, Index.functionsOf, Index.empty, List.foldl_cons, List.foldl_nil,
      Table.get?_insert, Table.get?_empty, Option.getD_none]
    split
    · simp only [Option.bind_some, Table.get?_insert, Table.get?_empty]
      split <;> rfl
    · rfl
  have entries : (unit entry).entryCalls? false "run" = (unit entry').entryCalls? false "run" := by
    rfl
  exact ⟨bodies, entries, walk_is_stateless.2.2 _ _ {} _ _ _ bodies entries⟩

end CallChart
