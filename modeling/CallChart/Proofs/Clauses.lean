import CallChart.Proofs.Bodies

/-!
# Clauses of a function and the calls in them

A function that is written in several clauses has one body. A clause is put
into the block of the clauses before it, and a first clause that is a block
itself, a do block or a list, is taken for that block. So the body does not
show where the clauses began; but its calls are those of the clauses in order,
whichever shape they have (`Expr.visibleCalls_withClause`).

The functions of a module come in the order of their first clauses, each once
(`ModuleOutline.map_name_ofClauses`); walking the body of a function is walking
its clauses one after another (`walk_definition?_ofClauses`); and a block around
the body of a clause changes no trace (`SourceUnit.Respelled.sameCalls`,
`SourceUnit.SameCalls.ofUnit_eq`).
-/

namespace CallChart

/-! ## Adding a clause -/

/-- One expression makes its own calls. -/
theorem Expr.visibleCallsAll_singleton (withArguments : Bool) (item : Expr) :
    Expr.visibleCallsAll withArguments [item] = item.visibleCalls withArguments := by
  rw [Expr.visibleCallsAll, Expr.visibleCallsAll, List.append_nil]

/-- **A body with one more clause makes the calls of the clause after its own**, be it a block that
the clause is put into or not. -/
theorem Expr.visibleCalls_withClause (withArguments : Bool) (body clause : Expr) :
    (body.withClause clause).visibleCalls withArguments =
      body.visibleCalls withArguments ++ clause.visibleCalls withArguments := by
  have wrapped : ∀ single : Expr, (Expr.block [single, clause]).visibleCalls withArguments =
      single.visibleCalls withArguments ++ clause.visibleCalls withArguments := by
    intro single
    rw [Expr.visibleCalls, Expr.visibleCallsAll, Expr.visibleCallsAll_singleton]
  cases body with
  | block clauses =>
    rw [withClause, visibleCalls, visibleCallsAll_append, visibleCallsAll_singleton, visibleCalls]
  | _ => exact wrapped _

namespace Definition

variable (name : String) (body : Expr) (fs : List Definition)

/-- A clause of a function that is there adds no name, and any other clause adds its name last. -/
theorem map_name_define :
    (define name body fs).map Definition.name =
      if name ∈ fs.map Definition.name then fs.map Definition.name
      else fs.map Definition.name ++ [name] := by
  induction fs with
  | nil => rfl
  | cons f fs ih =>
    by_cases same : f.name = name
    · simp [define, same]
    · have differ : name ≠ f.name := fun h => same h.symm
      rw [define, if_neg same, List.map_cons, List.map_cons, ih]
      by_cases there : name ∈ fs.map Definition.name
      · rw [if_pos there, if_pos (List.mem_cons_of_mem _ there)]
      · rw [if_neg there, if_neg (by simpa [differ] using there), List.cons_append]

/-- The function of the clause is found with its body and the clause, or with the clause alone, and
other functions as they were. -/
theorem find?_define (other : String) :
    (define name body fs).find? (·.name == other) =
      if name = other then
        some ((fs.find? (·.name == name)).elim ⟨name, body⟩
          fun f => { f with body := f.body.withClause body })
      else fs.find? (·.name == other) := by
  induction fs with
  | nil => by_cases same : name = other <;> simp [define, same]
  | cons f fs ih =>
    by_cases there : f.name = name
    · by_cases same : name = other
      · simp [define, there, same]
      · simp [define, there, same]
    · rw [define, if_neg there]
      by_cases found : f.name = other
      · have differ : name ≠ other := fun h => there (found.trans h.symm)
        simp [found, differ]
      · rw [List.find?_cons_of_neg (by simpa using found), ih,
          List.find?_cons_of_neg (by simpa using there),
          List.find?_cons_of_neg (by simpa using found)]

end Definition

/-! ## The clauses of a module -/

/-- The bodies of the clauses of one function, in order. -/
def clauseBodies (clauses : List (String × Expr)) (name : String) : List Expr :=
  (clauses.filter (·.1 = name)).map (·.2)

/-- The last clause stands last among those of its function. -/
theorem clauseBodies_concat (clauses : List (String × Expr)) (clause : String × Expr)
    (name : String) :
    clauseBodies (clauses ++ [clause]) name =
      clauseBodies clauses name ++ if clause.1 = name then [clause.2] else [] := by
  by_cases same : clause.1 = name <;> simp [clauseBodies, same]

namespace ModuleOutline

variable (owner : String) (clauses : List (String × Expr))

/-- The last clause is added to the module of those before it. -/
theorem ofClauses_concat (clause : String × Expr) :
    ofClauses owner (clauses ++ [clause]) =
      (ofClauses owner clauses).define clause.1 clause.2 := by
  rw [ofClauses, List.foldl_append]
  rfl

/-- Clauses do not change the name of their module. -/
theorem name_ofClauses : (ofClauses owner clauses).name = owner := by
  induction clauses using List.reverseRecOn with
  | nil => rfl
  | append_singleton clauses clause ih => rw [ofClauses_concat, define, ih]

/-- **The functions of a module come in the order of their first clauses.** -/
theorem map_name_ofClauses :
    (ofClauses owner clauses).definitions.map Definition.name =
      (clauses.map (·.1)).eraseDups := by
  induction clauses using List.reverseRecOn with
  | nil => rfl
  | append_singleton clauses clause ih =>
    rw [ofClauses_concat, define, Definition.map_name_define, ih, List.map_append,
      List.eraseDups_append, List.map_singleton]
    -- the last clause is of a function that is there, or of a new one that comes last
    by_cases there : clause.1 ∈ clauses.map (·.1)
    · rw [if_pos (List.mem_eraseDups.mpr there)]
      simp [List.removeAll, there]
    · rw [if_neg fun mem => there (List.mem_eraseDups.mp mem)]
      simp [List.removeAll, there, List.eraseDups_cons]

/-- A module has no function twice. -/
theorem nodup_names_ofClauses :
    ((ofClauses owner clauses).definitions.map Definition.name).Nodup := by
  induction clauses using List.reverseRecOn with
  | nil => exact List.nodup_nil
  | append_singleton clauses clause ih =>
    rw [ofClauses_concat, define, Definition.map_name_define]
    split
    · exact ih
    · rename_i fresh
      exact List.nodup_append_comm.mp (List.nodup_cons.mpr ⟨fresh, ih⟩)

/-- **A function makes the calls of its clauses, in order.** -/
theorem calls_definition?_ofClauses (withArguments : Bool) (name : String) :
    (((ofClauses owner clauses).definition? name).elim [] fun f =>
        f.body.visibleCalls withArguments) =
      Expr.visibleCallsAll withArguments (clauseBodies clauses name) := by
  induction clauses using List.reverseRecOn with
  | nil => rfl
  | append_singleton clauses clause ih =>
    rw [ofClauses_concat, define, definition?, Definition.find?_define, clauseBodies_concat,
      Expr.visibleCallsAll_append, ← ih]
    by_cases same : clause.1 = name
    · rw [if_pos same, if_pos same, same, Expr.visibleCallsAll_singleton, definition?]
      cases (ofClauses owner clauses).definitions.find? (·.name == name) with
      | none => rfl
      | some f => exact Expr.visibleCalls_withClause withArguments f.body clause.2
    · rw [if_neg same, if_neg same, Expr.visibleCallsAll, List.append_nil, definition?]

/-- The functions of a module with their calls. -/
theorem map_calls_ofClauses (withArguments : Bool) :
    ((ofClauses owner clauses).definitions.map fun f =>
        (f.name, f.body.visibleCalls withArguments)) =
      (clauses.map (·.1)).eraseDups.map fun name =>
        (name, Expr.visibleCallsAll withArguments (clauseBodies clauses name)) := by
  rw [← map_name_ofClauses owner, List.map_map]
  refine List.map_congr_left fun f mem => ?_
  -- no function comes twice, so each is the one that is found under its name
  have found : (ofClauses owner clauses).definition? f.name = some f := by
    have there : ((ofClauses owner clauses).definitions.find? (·.name == f.name)).isSome :=
      List.find?_isSome.mpr ⟨f, mem, beq_self_eq_true f.name⟩
    obtain ⟨f', found⟩ := Option.isSome_iff_exists.mp there
    have same : f'.name = f.name := by simpa using List.find?_some found
    rw [definition?, found, List.inj_on_of_nodup_map (nodup_names_ofClauses owner clauses)
      (List.mem_of_find?_eq_some found) mem same]
  rw [Function.comp_apply, ← calls_definition?_ofClauses owner, found]
  rfl

end ModuleOutline

/-- The body that a function gets from the bodies of its clauses. -/
def Expr.merged? : List Expr → Option Expr
  | [] => none
  | first :: clauses => some (clauses.foldl Expr.withClause first)

/-- One more clause is put behind those that are there. -/
theorem Expr.merged?_concat (clauses : List Expr) (clause : Expr) :
    Expr.merged? (clauses ++ [clause]) =
      some ((Expr.merged? clauses).elim clause (·.withClause clause)) := by
  cases clauses with
  | nil => rfl
  | cons first clauses =>
    rw [List.cons_append, merged?, List.foldl_append]
    rfl

/-- **A function is its own clauses, merged in order.** -/
theorem ModuleOutline.definition?_ofClauses (owner : String) (clauses : List (String × Expr))
    (name : String) :
    (ofClauses owner clauses).definition? name =
      (Expr.merged? (clauseBodies clauses name)).map fun body => ⟨name, body⟩ := by
  induction clauses using List.reverseRecOn with
  | nil => rfl
  | append_singleton clauses clause ih =>
    rw [definition?] at ih
    rw [ofClauses_concat, define, definition?, Definition.find?_define, clauseBodies_concat]
    by_cases same : clause.1 = name
    · rw [if_pos same, if_pos same, same, ih, Expr.merged?_concat]
      cases Expr.merged? (clauseBodies clauses name) <;> rfl
    · rw [if_neg same, if_neg same, List.append_nil, ih]

/-! ## Walking one clause after another -/

/-- Expressions are visited one after another, and what is listed of them is put together. -/
theorem visitAll_eq_mapM (options : TraceOptions) (follow : FunctionKey → Listing)
    (caller : String) (items : List Expr) :
    visitAll options follow caller items =
      List.flatten <$> items.mapM (visit options follow caller) := by
  induction items with
  | nil => rw [visitAll, List.mapM_nil]; rfl
  | cons item items ih =>
    rw [visitAll, ih, List.mapM_cons]
    simp only [map_bind, bind_map_left, map_pure, List.flatten_cons]

/-- **Walking the body of a function is walking its clauses one after another.** -/
theorem walk_definition?_ofClauses {owner : String} {clauses : List (String × Expr)} {name : String}
    {f : Definition} (found : (ModuleOutline.ofClauses owner clauses).definition? name = some f)
    (index : Index) (options : TraceOptions) (caller : String) :
    walk index options caller f.body =
      List.flatten <$> (clauseBodies clauses name).mapM (walk index options caller) := by
  have calls := ModuleOutline.calls_definition?_ofClauses owner clauses options.withArguments name
  rw [found] at calls
  -- a walk sees only the calls, so the body may be replaced by the block of its clauses
  have merged : walk index options caller f.body =
      walk index options caller (.block (clauseBodies clauses name)) := by
    funext t
    rw [walk_eq, walk_eq, Expr.visibleCalls]
    exact congrArg (fun listed => (CallGraph.listing _ _ _ _ _ listed, t)) calls
  rw [merged, walk, visit, visitAll_eq_mapM]
  rfl

/-! ## Units with the same calls -/

/-- Two units have modules of the same names and the same calls in the bodies of their functions.
That is all that a trace asks of a unit. -/
structure SourceUnit.SameCalls (unit unit' : SourceUnit) : Prop where
  names : unit.modules.map ModuleOutline.name = unit'.modules.map ModuleOutline.name
  calls : ∀ withArguments, unit.callLists withArguments = unit'.callLists withArguments

/-- Merged into indexes with the same calls, units with the same calls give such indexes again. -/
theorem Index.callees?_foldl_addUnit {units units' : List SourceUnit}
    (same : List.Forall₂ SourceUnit.SameCalls units units') {index index' : Index}
    {withArguments : Bool} (before : (index.callGraph withArguments).callees? =
      (index'.callGraph withArguments).callees?) :
    ((units.foldl Index.addUnit index).callGraph withArguments).callees? =
      ((units'.foldl Index.addUnit index').callGraph withArguments).callees? := by
  induction same generalizing index index' with
  | nil => exact before
  | cons first _ ih =>
    rw [List.foldl_cons, List.foldl_cons]
    refine ih (funext fun key => ?_)
    rw [Index.callees?_addUnit, Index.callees?_addUnit, first.calls, before]

/-- **Units with the same calls give the same traces**, as the entry unit and in the index. -/
theorem SourceUnit.SameCalls.ofUnit_eq {entry entry' : SourceUnit} (same : entry.SameCalls entry')
    {units units' : List SourceUnit} (indexed : List.Forall₂ SourceUnit.SameCalls units units')
    (index : Index) (options : TraceOptions) (function : String) :
    Trace.ofUnit (units.foldl Index.addUnit index) options entry function =
      Trace.ofUnit (units'.foldl Index.addUnit index) options entry' function := by
  refine Trace.ofUnit_congr (Index.callees?_foldl_addUnit indexed rfl) ?_ ?_
  · rw [entryCalls?_eq, entryCalls?_eq, same.calls]
  · rw [name?, name?, ← List.head?_map, ← List.head?_map, same.names]

/-! ## Blocks around the bodies of clauses -/

/-- The same body, or one of two that differ in that one stands in a block of its own. -/
inductive Expr.Respelled : Expr → Expr → Prop
  | same (body : Expr) : Respelled body body
  | inBlock (body : Expr) : Respelled body (.block [body])
  | outOfBlock (body : Expr) : Respelled (.block [body]) body

/-- A block of one body makes the calls of the body. -/
theorem Expr.Respelled.calls_eq {body body' : Expr} (respelled : body.Respelled body')
    (withArguments : Bool) :
    body.visibleCalls withArguments = body'.visibleCalls withArguments := by
  have block : ∀ body : Expr, (Expr.block [body]).visibleCalls withArguments =
      body.visibleCalls withArguments := by
    intro body
    rw [Expr.visibleCalls, Expr.visibleCallsAll_singleton]
  cases respelled with
  | same => rfl
  | inBlock => exact (block body).symm
  | outOfBlock => exact block body'

def SameClause (clause clause' : String × Expr) : Prop :=
  clause.1 = clause'.1 ∧ clause.2.Respelled clause'.2

/-- Two modules are the same, or have the same clauses but for blocks around the bodies. -/
inductive ModuleOutline.Respelled : ModuleOutline → ModuleOutline → Prop
  | same (m : ModuleOutline) : Respelled m m
  | ofClauses (owner : String) {clauses clauses' : List (String × Expr)} :
      List.Forall₂ SameClause clauses clauses' →
      Respelled (.ofClauses owner clauses) (.ofClauses owner clauses')

/-- Two units have the same modules but for blocks around the bodies of clauses. -/
def SourceUnit.Respelled (unit unit' : SourceUnit) : Prop :=
  List.Forall₂ ModuleOutline.Respelled unit.modules unit'.modules

section Respelled

variable {clauses clauses' : List (String × Expr)}
  (respelled : List.Forall₂ SameClause clauses clauses')

include respelled

/-- The clauses are of the same functions. -/
theorem map_name_of_respelled : clauses.map (·.1) = clauses'.map (·.1) := by
  induction respelled with
  | nil => rfl
  | cons first _ ih => rw [List.map_cons, List.map_cons, first.1, ih]

/-- The clauses of a function make the same calls. -/
theorem calls_clauseBodies_of_respelled (withArguments : Bool) (name : String) :
    Expr.visibleCallsAll withArguments (clauseBodies clauses name) =
      Expr.visibleCallsAll withArguments (clauseBodies clauses' name) := by
  induction respelled with
  | nil => rfl
  | @cons c c' clauses clauses' first _ ih =>
    unfold clauseBodies at ih ⊢
    by_cases same : c.1 = name
    · have same' : c'.1 = name := first.1 ▸ same
      rw [List.filter_cons_of_pos (by simpa using same),
        List.filter_cons_of_pos (by simpa using same'), List.map_cons, List.map_cons,
        Expr.visibleCallsAll, Expr.visibleCallsAll, ih, first.2.calls_eq]
    · have same' : ¬c'.1 = name := first.1 ▸ same
      rw [List.filter_cons_of_neg (by simpa using same),
        List.filter_cons_of_neg (by simpa using same'), ih]

end Respelled

namespace ModuleOutline.Respelled

variable {m m' : ModuleOutline} (respelled : m.Respelled m')

include respelled

/-- The modules have one name. -/
theorem name_eq : m.name = m'.name := by
  cases respelled with
  | same => rfl
  | ofClauses owner clauses => rw [name_ofClauses, name_ofClauses]

/-- The modules have the same functions with the same calls. -/
theorem calls_eq (withArguments : Bool) :
    (m.definitions.map fun f => (f.name, f.body.visibleCalls withArguments)) =
      m'.definitions.map fun f => (f.name, f.body.visibleCalls withArguments) := by
  cases respelled with
  | same => rfl
  | ofClauses owner clauses =>
    rw [map_calls_ofClauses, map_calls_ofClauses, map_name_of_respelled clauses]
    simp only [calls_clauseBodies_of_respelled clauses]

end ModuleOutline.Respelled

/-- **Units that differ in blocks around the bodies of clauses have the same calls.** -/
theorem SourceUnit.Respelled.sameCalls {unit unit' : SourceUnit}
    (respelled : unit.Respelled unit') : unit.SameCalls unit' := by
  obtain ⟨path, modules⟩ := unit
  obtain ⟨path', modules'⟩ := unit'
  change List.Forall₂ ModuleOutline.Respelled modules modules' at respelled
  constructor
  · induction respelled with
    | nil => rfl
    | cons first _ ih => exact congrArg₂ List.cons first.name_eq ih
  · intro withArguments
    simp only [callLists, bodies, List.map_flatMap, List.map_map, Function.comp_def]
    induction respelled with
    | nil => rfl
    | @cons m m' _ _ first _ ih =>
      have calls := congrArg (List.map fun entry => ((⟨m.name, entry.1⟩ : FunctionKey), entry.2))
        (first.calls_eq withArguments)
      simp only [List.map_map, Function.comp_def] at calls
      rw [List.flatMap_cons, List.flatMap_cons, ih, calls, first.name_eq]

end CallChart
