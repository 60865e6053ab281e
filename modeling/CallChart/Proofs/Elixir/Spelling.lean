import CallChart.Proofs.Clauses
import CallChart.Proofs.Elixir.Lowering
import CallChart.Proofs.Elixir.Modules

/-!
# Two ways to write a clause

A clause with one expression is written with the expression after `do:` or
with a do block that holds nothing else. The first is read as the body itself,
the second as the body in a block of its own (`Node.Abbreviates.clause?_eq`).

`RespelledItems` takes this to whole sources: any number of clauses, in
modules that are nested to any depth, are written in the other way. The units
read from such sources differ only in blocks around the bodies of clauses
(`RespelledItems.outlines`), and no trace sees these.

**The law** (`merging_clauses_keeps_calls`) says what becomes of clauses on
their way from the source to a trace: they are merged in order, walked in
order, and may be written in either way.
-/

namespace CallChart.Elixir

/-! ## Reading a clause -/

def blockItems? (node : Node) : Option (List Node) :=
  (node.childOf? .doBlock).map Node.items

def definedName? (node : Node) : Option String := (firstArgument? node).bind headName?

/-- A node is the same expression in any part. -/
theorem exprOf_as (owner : String) (role : Role) (node : Node) :
    exprOf owner (node.as role) = exprOf owner node := by
  obtain ⟨kind, _, text, children⟩ := node
  rw [Node.as, exprOf.eq_def, exprOf.eq_def]

/-- A clause whose body can be read has the name in its head. -/
theorem clause?_of_body {owner : String} {node : Node} {body : Expr}
    (read : clauseBody? owner node = some body) :
    clause? owner node = (definedName? node).map (·, body) := by
  rw [clause?, definedName?, read]
  cases firstArgument? node with
  | none => rfl
  | some head => cases named : headName? head <;> simp [named]

/-- A clause without a do block has the expression after its keyword for a body. -/
theorem clauseBody?_of_keyword {node value : Node} (plain : node.childOf? .doBlock = none)
    (body : keywordBody? node = some value) (owner : String) :
    clauseBody? owner node = some (exprOf owner value) := by
  simp only [clauseBody?, plain, body, Option.map_some]

/-- A clause with a do block has the block of its expressions for a body. -/
theorem clauseBody?_of_block {node : Node} {items : List Node}
    (body : blockItems? node = some items) (owner : String) :
    clauseBody? owner node = some (.block (items.map (exprOf owner))) := by
  obtain ⟨block, found, rfl⟩ := Option.map_eq_some_iff.mp body
  simp only [clauseBody?, found, itemExprs_eq, Node.items]

/-- Two clauses of one function with one expression for a body: `short` has it after `do:`, and
`long` alone in a do block. -/
structure Node.Abbreviates (short long : Node) : Prop where
  clause : short.IsClause
  sameKeyword : calledName? long = calledName? short
  sameName : definedName? long = definedName? short
  noBlock : short.childOf? .doBlock = none
  sameBody : ∃ value role, keywordBody? short = some value ∧ blockItems? long = some [value.as role]

/-- **After `do:` an expression is the body itself, and alone in a do block it is the body in a
block of its own.** -/
theorem Node.Abbreviates.clause?_eq {short long : Node} (abbreviates : short.Abbreviates long)
    (owner : String) :
    ∃ body, clause? owner short = (definedName? short).map (·, body) ∧
      clause? owner long = (definedName? short).map (·, .block [body]) := by
  obtain ⟨value, role, keyword, block⟩ := abbreviates.sameBody
  refine ⟨exprOf owner value,
    clause?_of_body (clauseBody?_of_keyword abbreviates.noBlock keyword owner), ?_⟩
  rw [clause?_of_body (clauseBody?_of_block block owner), List.map_singleton, exprOf_as,
    abbreviates.sameName]

/-! ## Items of a module -/

/-- The clauses of an item come before those of the items after it. -/
theorem clausesOf_cons (owner : String) (item : Node) (items : List Node) :
    clausesOf owner (item :: items) = clausesOf owner [item] ++ clausesOf owner items :=
  List.filterMap_append (l := [item])

/-- An item that calls `def` or `defp` is a clause, if it can be read as one. -/
theorem Node.IsClause.clausesOf_eq {item : Node} (isClause : item.IsClause) (owner : String) :
    clausesOf owner [item] = (clause? owner item).toList := by
  obtain keyword | keyword := isClause <;>
    cases read : clause? owner item <;> simp [clausesOf, keyword, read]

/-- The other way to write a clause is a clause too. -/
theorem Node.Abbreviates.clause_long {short long : Node} (abbreviates : short.Abbreviates long) :
    long.IsClause := by
  rw [Node.IsClause, abbreviates.sameKeyword]
  exact abbreviates.clause

/-- Written in the longer way a clause has its body in a block, if it can be read at all. -/
theorem Node.Abbreviates.clausesOf_eq {short long : Node} (abbreviates : short.Abbreviates long)
    (owner : String) :
    clausesOf owner [long] =
      (clausesOf owner [short]).map fun clause => (clause.1, .block [clause.2]) := by
  obtain ⟨body, hshort, hlong⟩ := abbreviates.clause?_eq owner
  rw [abbreviates.clause_long.clausesOf_eq, abbreviates.clause.clausesOf_eq, hshort, hlong]
  cases definedName? short <;> rfl

/-- A module is no clause. -/
theorem clausesOf_of_module {item : Node} (named : calledName? item = some "defmodule")
    (owner : String) : clausesOf owner [item] = [] := by
  simp [clausesOf, named]

/-- What is not a call of `defmodule` declares no module. -/
theorem outlinesAt_of_ne {item : Node} (named : calledName? item ≠ some "defmodule")
    (parent : Option String) : outlinesAt parent item = [] := by
  obtain ⟨kind, role, text, children⟩ := item
  have undeclared : declaredName? parent (.mk kind role text children) = none := by
    simp [declaredName?, named]
  rw [outlinesAt, undeclared]

def callWithBlock (before items after : List Node) : Node :=
  .group .call (before ++ .group .doBlock items :: after)

section Block

variable {before : List Node} (items items' after : List Node)

/-- Who looks for a node that the do block is not, finds the same whatever is in the block. -/
theorem find?_around_block {p : Node → Bool} (other : ∀ items, p (.group .doBlock items) = false) :
    (callWithBlock before items after).children.find? p =
      (callWithBlock before items' after).children.find? p := by
  change (before ++ .group .doBlock items :: after).find? p =
    (before ++ .group .doBlock items' :: after).find? p
  rw [List.find?_append, List.find?_append, List.find?_cons_of_neg (by simp [other]),
    List.find?_cons_of_neg (by simp [other])]

/-- What is called does not depend on the items in the do block. -/
theorem calledName?_callWithBlock :
    calledName? (callWithBlock before items after) =
      calledName? (callWithBlock before items' after) := by
  rw [calledName?, calledName?, Node.child?, Node.child?,
    find?_around_block items items' after fun _ => rfl]
  rfl

/-- Nor does the name of the module that is declared. -/
theorem declaredName?_callWithBlock (parent : Option String) :
    declaredName? parent (callWithBlock before items after) =
      declaredName? parent (callWithBlock before items' after) := by
  rw [declaredName?, declaredName?, calledName?_callWithBlock items items', firstArgument?,
    firstArgument?, Node.childOf?, Node.childOf?,
    find?_around_block items items' after fun _ => rfl]

variable (plain : ∀ node ∈ before, node.kind ≠ .doBlock)

include plain

/-- The items of a call are those in its first do block. -/
theorem doItems_callWithBlock : doItems (callWithBlock before items after) = items := by
  have skipped : before.find? (·.kind == .doBlock) = none :=
    List.find?_eq_none.mpr fun node mem => by simpa using plain node mem
  have found : (callWithBlock before items after).childOf? .doBlock =
      some (.group .doBlock items) := by
    change (before ++ .group .doBlock items :: after).find? (·.kind == .doBlock) = _
    rw [List.find?_append, skipped]
    rfl
  rw [doItems, found]
  rfl

/-- The nested modules are those in the first do block. -/
theorem nestedOutlines_around_block (owner : String) :
    nestedOutlines owner (before ++ .group .doBlock items :: after) =
      outlinesAmong (some owner) items := by
  induction before with
  | nil => rfl
  | cons node before ih =>
    obtain ⟨kind, role, text, children⟩ := node
    have other : kind ≠ .doBlock := plain _ List.mem_cons_self
    rw [List.cons_append, nestedOutlines, if_neg (by simpa using other)]
    exact ih fun node mem => plain node (List.mem_cons_of_mem _ mem)

/-- A module has the clauses in its do block, and after it come the modules in the block. -/
theorem outlinesAt_callWithBlock (parent : Option String) :
    outlinesAt parent (callWithBlock before items after) =
      (declaredName? parent (callWithBlock before items after)).elim [] fun owner =>
        .ofClauses owner (clausesOf owner items) :: outlinesAmong (some owner) items := by
  have read := doItems_callWithBlock items after plain
  have nested := nestedOutlines_around_block items after plain
  unfold callWithBlock Node.group at *
  rw [outlinesAt]
  cases declaredName? parent _ with
  | none => rfl
  | some owner => simp only [read, nested, Option.elim_some]

end Block

/-! ## Sources written in another way -/

/-- The same items but for the way that clauses are written, among them or in modules among them. -/
inductive RespelledItems : List Node → List Node → Prop
  | nil : RespelledItems [] []
  | same (item : Node) {items items' : List Node} :
      RespelledItems items items' → RespelledItems (item :: items) (item :: items')
  | lengthen {short long : Node} {items items' : List Node} :
      short.Abbreviates long → RespelledItems items items' →
      RespelledItems (short :: items) (long :: items')
  | shorten {short long : Node} {items items' : List Node} :
      short.Abbreviates long → RespelledItems items items' →
      RespelledItems (long :: items) (short :: items')
  | inModule {before nested nested' : List Node} (after : List Node) {items items' : List Node} :
      (∀ node ∈ before, node.kind ≠ .doBlock) →
      calledName? (callWithBlock before nested after) = some "defmodule" →
      RespelledItems nested nested' → RespelledItems items items' →
      RespelledItems (callWithBlock before nested after :: items)
        (callWithBlock before nested' after :: items')

namespace RespelledItems

variable {items items' : List Node} (respelled : RespelledItems items items')

include respelled

/-- The clauses are the same but for blocks around their bodies. -/
theorem clauses (owner : String) :
    List.Forall₂ SameClause (clausesOf owner items) (clausesOf owner items') := by
  induction respelled with
  | nil => exact .nil
  | @same item items items' _ ih =>
    rw [clausesOf_cons owner item items, clausesOf_cons owner item items']
    exact List.rel_append (List.forall₂_same.mpr fun clause _ => ⟨rfl, .same clause.2⟩) ih
  | @lengthen short long items items' abbreviates _ ih =>
    rw [clausesOf_cons owner short items, clausesOf_cons owner long items',
      abbreviates.clausesOf_eq]
    refine List.rel_append (List.forall₂_map_right_iff.mpr ?_) ih
    exact List.forall₂_same.mpr fun clause _ => ⟨rfl, .inBlock clause.2⟩
  | @shorten short long items items' abbreviates _ ih =>
    rw [clausesOf_cons owner long items, clausesOf_cons owner short items',
      abbreviates.clausesOf_eq]
    refine List.rel_append (List.forall₂_map_left_iff.mpr ?_) ih
    exact List.forall₂_same.mpr fun clause _ => ⟨rfl, .outOfBlock clause.2⟩
  | @inModule before nested nested' after items items' _ named _ _ _ ih =>
    rw [clausesOf_cons owner _ items, clausesOf_cons owner _ items', clausesOf_of_module named,
      clausesOf_of_module (calledName?_callWithBlock nested nested' after ▸ named)]
    exact ih

/-- **The modules are the same but for blocks around the bodies of clauses.** -/
theorem outlines (parent : Option String) :
    List.Forall₂ ModuleOutline.Respelled (outlinesAmong parent items)
      (outlinesAmong parent items') := by
  -- a clause declares no module, however it is written
  have clause : ∀ {item : Node}, item.IsClause → ∀ parent, outlinesAt parent item = [] :=
    fun isClause => outlinesAt_of_ne (by obtain keyword | keyword := isClause <;> simp [keyword])
  induction respelled generalizing parent with
  | nil => exact .nil
  | same item _ ih =>
    rw [outlinesAmong, outlinesAmong]
    exact List.rel_append (List.forall₂_same.mpr fun m _ => .same m) (ih parent)
  | lengthen abbreviates _ ih | shorten abbreviates _ ih =>
    rw [outlinesAmong, outlinesAmong, clause abbreviates.clause, clause abbreviates.clause_long]
    exact ih parent
  | @inModule before nested nested' after items items' plain named inside _ ihNested ih =>
    rw [outlinesAmong, outlinesAmong, outlinesAt_callWithBlock nested after plain,
      outlinesAt_callWithBlock nested' after plain, declaredName?_callWithBlock nested nested']
    refine List.rel_append ?_ (ih parent)
    cases declaredName? parent (callWithBlock before nested' after) with
    | none => exact .nil
    | some owner => exact .cons (.ofClauses owner (inside.clauses owner)) (ihNested (some owner))

end RespelledItems

end CallChart.Elixir

namespace CallChart

/-! ## The law -/

open Elixir in
/-- **Merging clauses keeps the calls and their order.**

The functions of a module are those that its clauses name, in the order of their first clauses, each
once. Walking the body of a function is walking the bodies of its clauses one after another, for any
state, index and caller, whatever the shapes of the bodies. So units whose clauses differ in blocks
around their bodies give the same trace, as the entry unit and in the index. And these are the units
of sources in which clauses are written in another way, at any depth of modules: after `do:` an
expression is read as the body itself, and alone in a do block as the body in a block of its own. -/
theorem merging_clauses_keeps_calls :
    (∀ (owner : String) (clauses : List (String × Expr)),
      let m := ModuleOutline.ofClauses owner clauses
      (m.definitions.map Definition.name).Nodup ∧
      m.definitions.map Definition.name = (clauses.map (·.1)).eraseDups ∧
      ∀ name f, m.definition? name = some f →
        ∀ (index : Index) (options : TraceOptions) (caller : String),
          walk index options caller f.body =
            List.flatten <$> (clauseBodies clauses name).mapM (walk index options caller)) ∧
    (∀ (entry entry' : SourceUnit) (units units' : List SourceUnit),
      entry.Respelled entry' → List.Forall₂ SourceUnit.Respelled units units' →
      ∀ (index : Index) (options : TraceOptions) (function : String),
        Trace.ofUnit (units.foldl Index.addUnit index) options entry function =
          Trace.ofUnit (units'.foldl Index.addUnit index) options entry' function) ∧
    (∀ (path path' : Path) (source source' : Node),
      RespelledItems source.children source'.children →
      SourceUnit.Respelled ⟨path, outlines source⟩ ⟨path', outlines source'⟩) ∧
    ∀ (short long : Node), short.Abbreviates long → ∀ owner, ∃ body,
      clause? owner short = (definedName? short).map (·, body) ∧
      clause? owner long = (definedName? short).map (·, .block [body]) := by
  refine ⟨fun owner clauses => ⟨ModuleOutline.nodup_names_ofClauses owner clauses,
    ModuleOutline.map_name_ofClauses owner clauses,
    fun _ _ found => walk_definition?_ofClauses found⟩, ?_, ?_, ?_⟩
  · intro entry entry' units units' respelled indexed index options function
    exact respelled.sameCalls.ofUnit_eq (indexed.imp fun _ _ unit => unit.sameCalls) index options
      function
  · intro path path' source source' respelled
    exact respelled.outlines none
  · intro short long abbreviates owner
    exact abbreviates.clause?_eq owner

open Elixir in
/-- A do block of two calls and, after a clause of another function, a single call are the clauses
of one function. Its body is walked as the block and then the call.

In a source, a module nested in another one has a clause that is written with its call after `do:`
or in a do block. The clause is read as the call or as a block of it, and from the one source or the
other, as the entry unit and in the index, comes the same trace. -/
theorem merging_clauses_keeps_calls_interleaved :
    let call (owner function : String) : Expr := .remoteCall owner function []
    let pair : Expr := .block [call "B" "x", call "B" "y"]
    let clauses : List (String × Expr) := [("f", pair), ("g", .inert), ("f", call "C" "z")]
    let merged : Expr := .block [call "B" "x", call "B" "y", call "C" "z"]
    let word (text : String) : Node := .leaf .identifier text
    let value : Node := .group .call [(Node.group .dot [(Node.leaf .aliasName "B").as .left,
      (word "x").as .right]).as .target]
    let short : Node := .group .call [(word "def").as .target,
      .group .arguments [word "f", .group .keywords [.keyed (.leaf .keyword "do: ") value]]]
    let long : Node := .group .call [(word "def").as .target, .group .arguments [word "f"],
      .group .doBlock [value]]
    let opening (name : String) : List Node :=
      [(word "defmodule").as .target, .group .arguments [.leaf .aliasName name]]
    let source (clause : Node) : Node := .group .source [callWithBlock (opening "A")
      [callWithBlock (opening "N") [clause] [], .leaf .comment ""] []]
    let unit (clause : Node) : SourceUnit := ⟨⟨"a.ex"⟩, outlines (source clause)⟩
    let trace (clause : Node) : Trace :=
      Trace.ofUnit ([unit clause].foldl Index.addUnit Index.empty) {} (unit clause) "f"
    (ModuleOutline.ofClauses "A" clauses).definitions.map Definition.name = ["f", "g"] ∧
    (ModuleOutline.ofClauses "A" clauses).definition? "f" = some ⟨"f", merged⟩ ∧
    walk Index.empty {} "A" merged =
      List.flatten <$> [pair, call "C" "z"].mapM (walk Index.empty {} "A") ∧
    RespelledItems (source short).children (source long).children ∧
    (trace short).calls = [⟨"A.N", "B", "x"⟩] ∧
    trace short = trace long ∧
    clause? "A.N" short = some ("f", call "B" "x") ∧
    clause? "A.N" long = some ("f", .block [call "B" "x"]) := by
  intro call pair clauses merged word value short long opening source unit trace
  obtain ⟨merging, blocks, spelling, reading⟩ := merging_clauses_keeps_calls
  obtain ⟨_, names, walking⟩ := merging "A" clauses
  have found : (ModuleOutline.ofClauses "A" clauses).definition? "f" = some ⟨"f", merged⟩ := rfl
  have abbreviates : short.Abbreviates long :=
    ⟨.inl rfl, rfl, rfl, rfl, value.as .value, .item, rfl, rfl⟩
  have plain : ∀ name, ∀ node ∈ opening name, node.kind ≠ .doBlock := by
    intro name node mem
    obtain rfl | rfl : node = _ ∨ node = _ := by simpa [opening] using mem
    all_goals exact Kind.noConfusion
  have respelled : RespelledItems (source short).children (source long).children :=
    .inModule [] (plain "A") rfl
      (.inModule [] (plain "N") rfl (.lengthen abbreviates .nil) (.same _ .nil)) .nil
  have units : (unit short).Respelled (unit long) := spelling _ _ _ _ respelled
  obtain ⟨body, hshort, hlong⟩ := reading short long abbreviates "A.N"
  obtain rfl : body = call "B" "x" := by
    have read : clause? "A.N" short = some ("f", call "B" "x") := rfl
    simpa using (Prod.ext_iff.mp (Option.some.inj (hshort.symm.trans read))).2
  exact ⟨names, found, walking "f" _ found Index.empty {} "A", respelled, by decide,
    blocks _ _ _ _ units (.cons units .nil) Index.empty {} "f", hshort, hlong⟩

end CallChart
