import CallChart.Proofs.Basic
import CallChart.Proofs.Elixir.StaticCalls
import CallChart.Proofs.Elixir.Grammar.Expression
import CallChart.Source.Reading

/-!
# The modules of a source

`outlines` goes through a source from module to module: it takes the items of a
do block for clauses or for modules nested there, and puts a module before those
that it holds. What it answers is said here without the way it goes, on the list
of all places of the tree in pre-order.

A place declares a module (`Place.declaration?`) if its node calls `defmodule`
with an alias for its first argument and stands at the top of the source, or in
the do block of such a call that itself stands so, and so on (`aliasesAbove?`).
The module is named by the aliases down to its own, and has the clauses with a
name and a body that stand directly in its own do block.

**The law** (`modules_in_preorder`): the modules of a source are those that its
places declare, in pre-order, if the first argument of a call is the first node
between its parentheses. That node may be a comment, which declares nothing
(`firstArgument?`). So these are the modules and the clauses that are written in
the source (`Node.argument?`) exactly where no comment stands before the alias of
a module or the head of a clause.
-/

namespace CallChart.Elixir

/-! ## What a place declares -/

/-- The first argument of a call, whether or not a comment stands before it. -/
def Node.argument? (node : Node) : Option Node :=
  (node.childOf? .arguments).bind (·.items.head?)

def Node.commentFirst (node : Node) : Bool :=
  (node.childOf? .arguments).any (·.children.head?.any Node.isComment)

/-- Is the node a clause of a function, if it can be read as one? -/
def Node.IsClause (item : Node) : Prop :=
  calledName? item = some "def" ∨ calledName? item = some "defp"

instance (item : Node) : Decidable item.IsClause :=
  inferInstanceAs (Decidable (_ ∨ _))

section

-- how the first argument of a call is found
variable (first : Node → Option Node)

/-- The alias that a call of `defmodule` has for its first argument. -/
def Node.moduleAlias? (node : Node) : Option Node := do
  guard (calledName? node = some "defmodule")
  let argument ← first node
  if argument.kind = .aliasName then some argument else none

/-- The name and the body of a clause. -/
def Node.functionClause? (owner : String) (node : Node) : Option (String × Expr) := do
  guard node.IsClause
  let name ← headName? (← first node)
  return (name, ← clauseBody? owner node)

/-- The aliases of the modules around a place, the outermost first, if the nodes above it are
modules and their do blocks up to the source. -/
def aliasesAbove? : List Node → Option (List Node)
  | [] => none
  | [_] => some []
  | block :: parent :: above => do
    guard (block.kind = .doBlock)
    return (← aliasesAbove? above) ++ [← parent.moduleAlias? first]

/-- The plain names of aliases, with dots between them. -/
def dotted (aliases : List Node) : String := ".".intercalate (aliases.map plainName)

structure Declaration where
  name : String
  clauses : List (String × Expr)

/-- The module that is declared at a place: one that is called `defmodule`, has an alias, and stands
in such modules only, up to the source. Its full name has the aliases of those in front. -/
def Place.declaration? (place : Place) : Option Declaration := do
  let around ← aliasesAbove? first place.above
  let own ← place.node.moduleAlias? first
  let name := dotted (around ++ [own])
  return ⟨name, (doItems place.node).filterMap (Node.functionClause? first name)⟩

def Node.declarations (source : Node) : List Declaration :=
  (source.places []).filterMap (Place.declaration? first)

end

def Declaration.outline (declaration : Declaration) : ModuleOutline :=
  .ofClauses declaration.name declaration.clauses

/-! ## Reading a call -/

theorem declaredName?_eq (parent : Option String) (node : Node) :
    declaredName? parent node =
      (node.moduleAlias? firstArgument?).map (qualify parent <| plainName ·) := by
  unfold declaredName? Node.moduleAlias?
  by_cases called : calledName? node = some "defmodule"
  · cases firstArgument? node with
    | none => simp [called, guard]
    | some argument => by_cases kind : argument.kind = .aliasName <;> simp [called, guard, kind]
  · simp [called, guard]

theorem clausesOf_eq (owner : String) (items : List Node) :
    clausesOf owner items = items.filterMap (Node.functionClause? firstArgument? owner) := by
  refine List.filterMap_congr fun item _ => ?_
  unfold Node.functionClause? clause?
  split
  · next called => simp [Node.IsClause, called, guard]
  · next called => simp [Node.IsClause, called, guard]
  · next other other' =>
    have neither : ¬item.IsClause := fun called => called.elim other other'
    simp [neither, guard]

theorem outlinesAt_eq (parent : Option String) (node : Node) :
    outlinesAt parent node = (node.moduleAlias? firstArgument?).elim [] fun own =>
      let name := qualify parent (plainName own)
      .ofClauses name (clausesOf name (doItems node)) :: nestedOutlines name node.children := by
  obtain ⟨kind, role, text, children⟩ := node
  rw [outlinesAt, declaredName?_eq]
  cases (Node.mk kind role text children).moduleAlias? firstArgument? <;> rfl

theorem kind_of_moduleAlias? {first : Node → Option Node} {node own : Node}
    (declares : node.moduleAlias? first = some own) : node.kind = .call := by
  by_contra other
  have silent : calledName? node = none := by simp [calledName?, other]
  simp [Node.moduleAlias?, silent, guard] at declares

/-! ## The one do block of a call -/

theorem count_doBlock_items (children : List Node) :
    ((children.filter (!·.isComment)).map Node.kind).count .doBlock =
      (children.map Node.kind).count .doBlock := by
  induction children with
  | nil => rfl
  | cons child children ih =>
    cases comment : child.isComment with
    | true =>
      rw [List.filter_cons_of_neg (by simp [comment]), List.map_cons,
        Node.kind_of_isComment comment, ih]
      rfl
    | false =>
      rw [List.filter_cons_of_pos (by simp [comment]), List.map_cons, List.map_cons,
        List.count_cons, List.count_cons, ih]

/-- A call has no two do blocks. -/
theorem Node.Grammatical.count_doBlock_le {node : Node} (grammatical : node.Grammatical)
    (call : node.kind = .call) : (node.children.map Node.kind).count .doBlock ≤ 1 := by
  have shaped := grammatical.shaped
  rw [Node.Shaped, call] at shaped
  obtain ⟨target, rest, items, _, callable, kinds⟩ := shaped
  rw [← count_doBlock_items, ← Node.items, items, List.map_cons]
  have target : target.kind ≠ .doBlock := by
    rcases callable.kind with kind | kind | kind <;> rw [kind] <;> decide
  rw [List.count_cons_of_ne target]
  simp only [List.mem_cons, List.not_mem_nil, or_false] at kinds
  rcases kinds with kinds | kinds | kinds | kinds <;> rw [kinds] <;> decide

theorem outlinesAmong_eq (parent : Option String) (nodes : List Node) :
    outlinesAmong parent nodes = nodes.flatMap (outlinesAt parent) := by
  induction nodes with
  | nil => rfl
  | cons node nodes ih => rw [outlinesAmong, ih, List.flatMap_cons]

/-- The modules nested in a call with one do block stand in it. -/
theorem nestedOutlines_eq (owner : String) {children : List Node}
    (single : (children.map Node.kind).count .doBlock ≤ 1) :
    nestedOutlines owner children = children.flatMap fun child =>
      if child.kind = .doBlock then outlinesAmong (some owner) child.children else [] := by
  induction children with
  | nil => rfl
  | cons child children ih =>
    rw [List.map_cons, List.count_cons] at single
    rw [List.flatMap_cons]
    obtain ⟨kind, role, text, items⟩ := child
    by_cases block : kind = .doBlock
    · subst block
      have others : (children.map Node.kind).count .doBlock = 0 := by
        simp only [Node.kind, beq_self_eq_true, if_true] at single
        omega
      have none_after : (children.flatMap fun child =>
          if child.kind = .doBlock then outlinesAmong (some owner) child.children else []) = [] := by
        refine List.flatMap_eq_nil_iff.mpr fun child mem => if_neg fun block => ?_
        exact List.count_eq_zero.mp others (block ▸ List.mem_map_of_mem mem)
      rw [none_after, List.append_nil]
      rfl
    · have other : ¬(Node.mk kind role text items).kind = .doBlock := block
      rw [nestedOutlines, if_neg (by simpa using block), ih (by omega), if_neg other,
        List.nil_append]

/-! ## Going down the tree -/

/-- The full name of the module that aliases lead to, if there are any. -/
def owner? (aliases : List Node) : Option String :=
  if aliases = [] then none else some (dotted aliases)

theorem owner?_concat (aliases : List Node) (own : Node) :
    owner? (aliases ++ [own]) = some (dotted (aliases ++ [own])) :=
  if_neg (List.append_ne_nil_of_right_ne_nil _ (List.cons_ne_nil _ _))

theorem qualify_owner? (aliases : List Node) (own : Node) :
    qualify (owner? aliases) (plainName own) = dotted (aliases ++ [own]) := by
  unfold owner? dotted
  by_cases outermost : aliases = []
  · subst outermost
    rw [if_pos rfl, List.nil_append, List.map_singleton, String.intercalate_singleton]
    rfl
  · rw [if_neg outermost, List.map_append, List.map_singleton,
      String.intercalate_append_of_ne_nil (by simpa using outermost) (List.cons_ne_nil _ _),
      String.intercalate_singleton]
    rfl

/-- Below these nodes an item of the source or of a do block comes, in the modules with these
aliases. What stands below such an item is not at a level, unless through a do block. -/
structure Level (above : List Node) (aliases : List Node) : Prop where
  here : aliasesAbove? firstArgument? above = some aliases
  below : ∀ node, aliasesAbove? firstArgument? (node :: above) = none

/-- Below these nodes no module is declared. -/
structure Dead (above : List Node) : Prop where
  here : aliasesAbove? firstArgument? above = none
  below : ∀ node, aliasesAbove? firstArgument? (node :: above) = none

theorem aliasesAbove?_eq_none {first : Node → Option Node} {block parent : Node} {above : List Node}
    (broken : block.kind ≠ .doBlock ∨ aliasesAbove? first above = none ∨
      parent.moduleAlias? first = none) :
    aliasesAbove? first (block :: parent :: above) = none := by
  rw [aliasesAbove?]
  rcases broken with other | none_above | silent
  · simp [other, guard]
  · simp [none_above]
  · simp [silent]

theorem level_source (source : Node) : Level [source] [] :=
  ⟨rfl, fun _ => aliasesAbove?_eq_none (.inr (.inl rfl))⟩

variable {above aliases : List Node} {node : Node}

theorem Level.block (level : Level above aliases) {parent own block : Node}
    (declares : parent.moduleAlias? firstArgument? = some own) (kind : block.kind = .doBlock) :
    Level (block :: parent :: above) (aliases ++ [own]) := by
  refine ⟨?_, fun _ => aliasesAbove?_eq_none (.inr (.inl (level.below parent)))⟩
  rw [aliasesAbove?, level.here, declares]
  simp [kind, guard]

theorem Level.dead (level : Level above aliases)
    (silent : node.moduleAlias? firstArgument? = none) : Dead (node :: above) :=
  ⟨level.below node, fun _ => aliasesAbove?_eq_none (.inr (.inr silent))⟩

theorem Level.dead_of_kind (level : Level above aliases) {parent : Node}
    (other : node.kind ≠ .doBlock) : Dead (node :: parent :: above) :=
  ⟨aliasesAbove?_eq_none (.inl other),
    fun _ => aliasesAbove?_eq_none (.inr (.inl (level.below parent)))⟩

theorem Dead.cons (dead : Dead above) (node : Node) : Dead (node :: above) :=
  ⟨dead.below node, fun _ => aliasesAbove?_eq_none (.inr (.inl dead.here))⟩

/-- The modules declared at and below a node. -/
def declaredFrom (above : List Node) (node : Node) : List ModuleOutline :=
  ((node.places above).filterMap (Place.declaration? firstArgument?)).map Declaration.outline

theorem declaredFrom_eq (above : List Node) (node : Node) :
    declaredFrom above node =
      ((Place.declaration? firstArgument? ⟨node, above⟩).map Declaration.outline).toList ++
        node.children.flatMap (declaredFrom (node :: above)) := by
  obtain ⟨kind, role, text, children⟩ := node
  rw [declaredFrom, Node.places, List.filterMap_cons, Node.placesAll_eq, List.filterMap_flatMap]
  cases Place.declaration? firstArgument? ⟨.mk kind role text children, above⟩ with
  | none => exact List.map_flatMap
  | some declaration => exact congrArg (_ :: ·) List.map_flatMap

theorem Node.Grammatical.declaredFrom_of_dead (grammatical : node.Grammatical) (dead : Dead above) :
    declaredFrom above node = [] := by
  induction grammatical generalizing above with
  | intro node _ _ ih =>
    rw [declaredFrom_eq, Place.declaration?, dead.here]
    exact List.flatMap_eq_nil_iff.mpr fun child mem => ih child mem (dead.cons node)

/-- **What is declared from a node is what is outlined at it.** A child of a module is the do block
with the modules nested there, or nothing is declared from it. -/
theorem Node.Grammatical.declaredFrom_of_level (grammatical : node.Grammatical) :
    (∀ above aliases, Level above aliases →
      declaredFrom above node = outlinesAt (owner? aliases) node) ∧
    ∀ above aliases parent own, Level above aliases →
      parent.moduleAlias? firstArgument? = some own →
      declaredFrom (parent :: above) node =
        if node.kind = .doBlock then
          outlinesAmong (some (dotted (aliases ++ [own]))) node.children
        else [] := by
  -- going down, an item of a do block and the do block itself take turns, so both are claimed
  induction grammatical with
  | intro node shaped children ih =>
    have grammatical := Node.Grammatical.intro node shaped children
    constructor
    · intro above aliases level
      rw [declaredFrom_eq, outlinesAt_eq, Place.declaration?, level.here]
      cases declares : node.moduleAlias? firstArgument? with
      | none =>
        refine List.flatMap_eq_nil_iff.mpr fun child mem => ?_
        exact (children child mem).declaredFrom_of_dead (level.dead declares)
      | some own =>
        have single := grammatical.count_doBlock_le (kind_of_moduleAlias? declares)
        have nested : node.children.flatMap (declaredFrom (node :: above)) =
            nestedOutlines (dotted (aliases ++ [own])) node.children := by
          rw [nestedOutlines_eq _ single]
          exact List.flatMap_congr fun child mem =>
            (ih child mem).2 above aliases node own level declares
        rw [nested, Option.elim_some, qualify_owner?]
        show _ = .ofClauses _ (clausesOf _ (doItems node)) :: nestedOutlines _ node.children
        rw [clausesOf_eq]
        rfl
    · intro above aliases parent own level declares
      have silent : Place.declaration? firstArgument? ⟨node, parent :: above⟩ = none := by
        rw [Place.declaration?, level.below]
        rfl
      rw [declaredFrom_eq, silent]
      by_cases block : node.kind = .doBlock
      · rw [if_pos block, outlinesAmong_eq, ← owner?_concat]
        exact List.flatMap_congr fun child mem =>
          (ih child mem).1 _ _ (level.block declares block)
      · rw [if_neg block]
        refine List.flatMap_eq_nil_iff.mpr fun child mem => ?_
        exact (children child mem).declaredFrom_of_dead (level.dead_of_kind block)

theorem Node.Grammatical.outlines_eq {source : Node} (grammatical : source.Grammatical) :
    outlines source = (source.declarations firstArgument?).map Declaration.outline := by
  show _ = declaredFrom [] source
  rw [declaredFrom_eq, outlines, outlinesAmong_eq]
  refine List.flatMap_congr fun child mem => ?_
  exact ((grammatical.child mem).declaredFrom_of_level.1 _ _ (level_source source)).symm

/-! ## Comments before the first argument -/

theorem firstArgument?_cases (node : Node) :
    (node.commentFirst = true ∧ ∃ comment, firstArgument? node = some comment ∧
        comment.kind = .comment) ∨
      (node.commentFirst = false ∧ firstArgument? node = node.argument?) := by
  unfold Node.commentFirst firstArgument? Node.argument?
  cases node.childOf? .arguments with
  | none => exact .inr ⟨rfl, rfl⟩
  | some arguments =>
    simp only [Option.any_some, Option.bind_some, Node.items]
    cases arguments.children with
    | nil => exact .inr ⟨rfl, rfl⟩
    | cons first rest =>
      cases comment : first.isComment with
      | true => exact .inl ⟨comment, first, rfl, Node.kind_of_isComment comment⟩
      | false =>
        refine .inr ⟨comment, ?_⟩
        rw [List.filter_cons_of_pos (by simp [comment])]
        rfl

theorem headName?_of_comment {node : Node} (comment : node.kind = .comment) :
    headName? node = none := by
  obtain ⟨kind, role, text, children⟩ := node
  obtain rfl : kind = .comment := comment
  rfl

/-- A comment before its alias hides a module. -/
theorem moduleAlias?_firstArgument? (node : Node) :
    node.moduleAlias? firstArgument? =
      if node.commentFirst then none else node.moduleAlias? Node.argument? := by
  unfold Node.moduleAlias?
  rcases firstArgument?_cases node with ⟨hidden, comment, found, kind⟩ | ⟨shown, found⟩
  · simp [hidden, found, kind]
  · simp [shown, found]

/-- A comment before its head hides a clause. -/
theorem functionClause?_firstArgument? (owner : String) (node : Node) :
    node.functionClause? firstArgument? owner =
      if node.commentFirst then none else node.functionClause? Node.argument? owner := by
  unfold Node.functionClause?
  rcases firstArgument?_cases node with ⟨hidden, comment, found, kind⟩ | ⟨shown, found⟩
  · simp [hidden, found, headName?_of_comment kind]
  · simp [shown, found]

/-- In the module that is written at the place, if any, no comment stands before the alias or before
the head of a clause. There what is declared is what is written. -/
def Place.Plain (place : Place) : Prop :=
  ∀ written, place.declaration? Node.argument? = some written →
    place.node.commentFirst = false ∧
      ∀ item ∈ doItems place.node, (item.functionClause? Node.argument? written.name).isSome →
        item.commentFirst = false

theorem declaration?_eq_some_iff {first : Node → Option Node} {place : Place}
    {declaration : Declaration} :
    place.declaration? first = some declaration ↔
      ∃ around own, aliasesAbove? first place.above = some around ∧
        place.node.moduleAlias? first = some own ∧
        declaration.name = dotted (around ++ [own]) ∧
        declaration.clauses =
          (doItems place.node).filterMap (Node.functionClause? first declaration.name) := by
  obtain ⟨name, clauses⟩ := declaration
  simp only [Place.declaration?, Option.bind_eq_bind, Option.bind_eq_some_iff, Option.pure_def,
    Option.some.injEq, Declaration.mk.injEq]
  constructor
  · rintro ⟨around, above, own, declares, rfl, rfl⟩
    exact ⟨around, own, above, declares, rfl, rfl⟩
  · rintro ⟨around, own, above, declares, rfl, rfl⟩
    exact ⟨around, above, own, declares, rfl, rfl⟩

theorem exists_declaration? {first : Node → Option Node} {place : Place} {around : List Node}
    {own : Node} (above : aliasesAbove? first place.above = some around)
    (declares : place.node.moduleAlias? first = some own) :
    ∃ declaration, place.declaration? first = some declaration := by
  let name := dotted (around ++ [own])
  refine ⟨⟨name, (doItems place.node).filterMap (Node.functionClause? first name)⟩, ?_⟩
  exact declaration?_eq_some_iff.mpr ⟨around, own, above, declares, rfl, rfl⟩

/-- A module that is found is written. -/
theorem moduleAlias?_of_firstArgument? {node own : Node}
    (found : node.moduleAlias? firstArgument? = some own) :
    node.commentFirst = false ∧ node.moduleAlias? Node.argument? = some own := by
  rw [moduleAlias?_firstArgument?] at found
  split at found
  · cases found
  · next shown => exact ⟨Bool.eq_false_of_not_eq_true shown, found⟩

theorem aliasesAbove?_of_firstArgument? {above aliases : List Node}
    (found : aliasesAbove? firstArgument? above = some aliases) :
    aliasesAbove? Node.argument? above = some aliases := by
  fun_induction aliasesAbove? firstArgument? above generalizing aliases with
  | case1 => cases found
  | case2 => exact found
  | case3 block parent above ih =>
    simp only [Option.bind_eq_bind, Option.bind_eq_some_iff] at found
    obtain ⟨_, kind, around, outer, own, declares, same⟩ := found
    simp only [aliasesAbove?, kind, ih outer, (moduleAlias?_of_firstArgument? declares).2]
    exact same

theorem isSome_declaration?_argument? {place : Place}
    (found : (place.declaration? firstArgument?).isSome) :
    (place.declaration? Node.argument?).isSome := by
  obtain ⟨declaration, found⟩ := Option.isSome_iff_exists.mp found
  obtain ⟨around, own, above, declares, -⟩ := declaration?_eq_some_iff.mp found
  exact Option.isSome_iff_exists.mpr (exists_declaration? (aliasesAbove?_of_firstArgument? above)
    (moduleAlias?_of_firstArgument? declares).2)

/-- The same clauses are found and written exactly where none has a comment before its head. -/
theorem clauses_eq_iff (owner : String) (items : List Node) :
    items.filterMap (Node.functionClause? firstArgument? owner) =
        items.filterMap (Node.functionClause? Node.argument? owner) ↔
      ∀ item ∈ items, (item.functionClause? Node.argument? owner).isSome →
        item.commentFirst = false := by
  rw [filterMap_eq_filterMap_iff]
  · refine forall₂_congr fun item _ => ?_
    rw [functionClause?_firstArgument?]
    cases item.commentFirst <;> cases item.functionClause? Node.argument? owner <;> simp
  · intro item _ found
    rw [functionClause?_firstArgument?] at found
    split at found
    · cases found
    · exact found

theorem plain_of_declaration?_eq {place : Place}
    (same : place.declaration? firstArgument? = place.declaration? Node.argument?) :
    place.Plain := by
  intro written found
  obtain ⟨_, _, _, _, _, clauses⟩ := declaration?_eq_some_iff.mp found
  obtain ⟨_, _, _, declares, _, clauses'⟩ := declaration?_eq_some_iff.mp (same.trans found)
  exact ⟨(moduleAlias?_of_firstArgument? declares).1,
    (clauses_eq_iff _ _).mp (clauses'.symm.trans clauses)⟩

theorem Node.Grammatical.root_or_parent_mem_places {root : Node} (grammatical : root.Grammatical)
    {up : List Node} {place : Place} (mem : place ∈ root.places up) :
    place = ⟨root, up⟩ ∨ ∃ parent above, place.above = parent :: above ∧
      ⟨parent, above⟩ ∈ root.places up := by
  induction grammatical generalizing up with
  | intro root _ _ ih =>
    obtain ⟨kind, role, text, children⟩ := root
    rw [Node.places, Node.placesAll_eq, List.mem_cons, List.mem_flatMap] at mem
    rcases mem with rfl | ⟨child, isChild, mem⟩
    · exact .inl rfl
    · rcases ih child isChild mem with rfl | ⟨parent, above, same, isPlace⟩
      · exact .inr ⟨_, up, rfl, Node.mem_places_self _ _⟩
      · refine .inr ⟨parent, above, same, ?_⟩
        rw [Node.places, Node.placesAll_eq]
        exact List.mem_cons_of_mem _ (List.mem_flatMap.mpr ⟨child, isChild, isPlace⟩)

/-- What stands above a place is a place too. -/
theorem Node.Grammatical.parent_mem_places {source parent node : Node} {above : List Node}
    (grammatical : source.Grammatical) (mem : ⟨node, parent :: above⟩ ∈ source.places []) :
    ⟨parent, above⟩ ∈ source.places [] := by
  rcases grammatical.root_or_parent_mem_places mem with root | ⟨_, _, same, isPlace⟩
  · cases root
  · cases same
    exact isPlace

section Plain

variable {source : Node} (grammatical : source.Grammatical)
  (plain : ∀ place ∈ source.places [], place.Plain)
include grammatical plain

/-- The modules around a place are found if each is written plainly. -/
theorem aliasesAbove?_of_plain {node : Node} {above aliases : List Node}
    (mem : ⟨node, above⟩ ∈ source.places [])
    (written : aliasesAbove? Node.argument? above = some aliases) :
    aliasesAbove? firstArgument? above = some aliases := by
  fun_induction aliasesAbove? Node.argument? above generalizing node aliases with
  | case1 => cases written
  | case2 => exact written
  | case3 block parent above ih =>
    simp only [Option.bind_eq_bind, Option.bind_eq_some_iff] at written
    obtain ⟨_, kind, around, outer, own, declares, same⟩ := written
    -- the parent declares a module itself, so no comment hides its alias
    have isPlace := grammatical.parent_mem_places (grammatical.parent_mem_places mem)
    obtain ⟨written, found⟩ : ∃ written, Place.declaration? Node.argument? ⟨parent, above⟩ =
        some written := exists_declaration? outer declares
    have shown := (plain _ isPlace written found).1
    simp only [aliasesAbove?, kind, ih isPlace outer, moduleAlias?_firstArgument?, shown,
      declares]
    exact same

theorem declaration?_eq_of_plain {place : Place} (mem : place ∈ source.places []) :
    place.declaration? firstArgument? = place.declaration? Node.argument? := by
  cases written : place.declaration? Node.argument? with
  | none =>
    by_contra found
    have := isSome_declaration?_argument? (Option.isSome_iff_ne_none.mpr found)
    rw [written] at this
    cases this
  | some declaration =>
    obtain ⟨shown, heads⟩ := plain place mem declaration written
    obtain ⟨around, own, above, declares, named, clauses⟩ := declaration?_eq_some_iff.mp written
    refine declaration?_eq_some_iff.mpr ⟨around, own, ?_, ?_, named, ?_⟩
    · exact aliasesAbove?_of_plain grammatical plain mem above
    · rw [moduleAlias?_firstArgument?, shown]
      exact declares
    · rw [(clauses_eq_iff _ _).mpr heads]
      exact clauses

end Plain

/-- **All that is written is found** exactly where it is written plainly. -/
theorem Node.Grammatical.declarations_eq_iff {source : Node} (grammatical : source.Grammatical) :
    source.declarations firstArgument? = source.declarations Node.argument? ↔
      ∀ place ∈ source.places [], place.Plain := by
  rw [Node.declarations, Node.declarations,
    filterMap_eq_filterMap_iff fun _ _ => isSome_declaration?_argument?]
  constructor
  · exact fun same place mem => plain_of_declaration?_eq (same place mem)
  · exact fun plain place mem => declaration?_eq_of_plain grammatical plain mem

end CallChart.Elixir

namespace CallChart

open Elixir

theorem SourceReader.readUnit_eq_ok_iff (reader : SourceReader) (path : Path) {text : String}
    {source : Node} (parsed : parse text.toList = .ok source) (unit : SourceUnit) :
    reader.readUnit path text = .ok unit ↔
      text.utf8ByteSize ≤ reader.options.sizeLimit ∧
        path.extension?.any reader.extensions.contains ∧
        unit = { path, modules := outlines source } := by
  unfold SourceReader.readUnit
  split
  · next large =>
    refine ⟨nofun, fun ⟨small, _⟩ => ?_⟩
    exact absurd small (Nat.not_le.mpr large)
  · next fits =>
    split
    · next known =>
      rw [parsed, Except.ok.injEq, eq_comm]
      exact ⟨fun same => ⟨Nat.le_of_not_lt fits, known, same⟩, fun ⟨_, _, same⟩ => same⟩
    · next unknown =>
      exact ⟨nofun, fun ⟨_, known, _⟩ => absurd known unknown⟩

/-- **The modules of a source, in pre-order.** The modules are those that the places of the tree
declare, where a place declares one if it is a call of `defmodule` with an alias first and above it
stand only do blocks of such calls. A module has the name that the aliases down to its own make with
dots between them, and the clauses with a name and a body that stand directly in its do block, in
their order. A comment counts as the first argument, so these are all the modules and clauses that
are written exactly if there is none before the alias of a module or the head of a clause. A unit
that is read has the modules of the tree of its text. -/
theorem modules_in_preorder (source : Node) (grammatical : source.Grammatical) :
    outlines source = (source.declarations firstArgument?).map Declaration.outline ∧
    (source.declarations firstArgument? = source.declarations Node.argument? ↔
      ∀ place ∈ source.places [], place.Plain) ∧
    ∀ (reader : SourceReader) (path : Path) (text : String) (unit : SourceUnit),
      parse text.toList = .ok source →
      (reader.readUnit path text = .ok unit ↔
        text.utf8ByteSize ≤ reader.options.sizeLimit ∧
          path.extension?.any reader.extensions.contains ∧
          unit = { path, modules := outlines source }) := by
  refine ⟨grammatical.outlines_eq, grammatical.declarations_eq_iff, ?_⟩
  intro reader path text unit parsed
  exact reader.readUnit_eq_ok_iff path parsed unit

/-- A nested module stands between two functions of the module around it. A clause with a comment
before its head is left out, and a module with one before its alias is not declared. -/
theorem modules_in_preorder_interleaved :
    let text := "defmodule A do\ndef f do end\ndefmodule N . M do\ndef f do end\nend\n" ++
      "def g do end\ndef(#\nk) do end\nend\ndefmodule(#\nX) do end"
    let names (modules : List Declaration) : List (String × List String) :=
      modules.map fun m => (m.name, m.clauses.map Prod.fst)
    ∃ source, parse text.toList = .ok source ∧ source.Grammatical ∧
      names (source.declarations firstArgument?) = [("A", ["f", "g"]), ("A.N.M", ["f"])] ∧
      names (source.declarations Node.argument?) =
        [("A", ["f", "g", "k"]), ("A.N.M", ["f"]), ("X", [])] ∧
      outlines source = (source.declarations firstArgument?).map Declaration.outline ∧
      ∃ place ∈ source.places [], ¬place.Plain := by
  intro text names
  have read : (parse text.toList).toOption.map (fun source =>
      (names (source.declarations firstArgument?), names (source.declarations Node.argument?))) =
      some ([("A", ["f", "g"]), ("A.N.M", ["f"])],
        [("A", ["f", "g", "k"]), ("A.N.M", ["f"]), ("X", [])]) := by
    decide +kernel
  cases parsed : parse text.toList with
  | error fault =>
    rw [parsed] at read
    cases read
  | ok source =>
    rw [parsed] at read
    obtain ⟨found, written⟩ := Prod.mk.inj (Option.some.inj read)
    have grammatical := grammatical_of_parse parsed
    obtain ⟨law, same_iff, _⟩ := modules_in_preorder source grammatical
    refine ⟨source, rfl, grammatical, found, written, law, ?_⟩
    by_contra plain
    push Not at plain
    have same := same_iff.mpr plain
    rw [← same, found] at written
    exact absurd written (by decide)

end CallChart
