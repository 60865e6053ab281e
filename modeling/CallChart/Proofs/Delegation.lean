import CallChart.Proofs.Bodies

/-!
# Starting at a function and calling it

A listing comes to a body in two ways. It can start there, with the function
as the only one being expanded and at depth zero. Or it can meet a call of the
function and expand it, inside what is being expanded already. Here the two
are compared: a function that does nothing but call another one (a delegate)
lists that call and then what a listing that starts at the other one has.

Inside the delegate two things differ at every step. The delegate is among the
functions being expanded; but it has no body in the index, so that this refuses
nothing that would be expanded otherwise. And the depth is larger by one, which
a limit larger by one makes up for. `CallGraph.expansion_inside` carries both
through the whole listing.
-/

namespace CallChart

namespace CallGraph

variable {g : CallGraph} {limit limit' : Option Nat} {ancestors ancestors' : Finset FunctionKey}
  {depth depth' : Nat} {key : FunctionKey}

/-- A body is listed in the same way wherever its calls have the same expansions. -/
theorem listing_of_expansions
    (same : ∀ key, g.expansion limit ancestors depth key =
      g.expansion limit' ancestors' depth' key) (caller : String) (callees : List FunctionKey) :
    g.listing limit ancestors depth caller callees =
      g.listing limit' ancestors' depth' caller callees := by
  simp only [listing, same]

/-- A function with a body may be entered below one more function without a body, one expansion
deeper and with a limit larger by one, where it may be entered without all this. -/
theorem admitted_inside_iff {inert : FunctionKey} (other : key ≠ inert) :
    (key ∉ insert inert ancestors ∧ (limit.map (· + 1)).all (depth + 1 < ·) = true) ↔
      (key ∉ ancestors ∧ limit.all (depth < ·) = true) := by
  have room : (limit.map (· + 1)).all (depth + 1 < ·) = limit.all (depth < ·) := by
    cases limit <;> simp
  rw [Finset.mem_insert, not_or, and_iff_right other, room]

/-- **A call lists the same inside a function without a body**, if the limit is larger by one. By
induction on the functions that are left: whatever is entered has a body, so it is not the function
outside. -/
theorem expansion_inside {inert : FunctionKey} (found : g.callees? inert = none)
    (key : FunctionKey) :
    g.expansion (limit.map (· + 1)) (insert inert ancestors) (depth + 1) key =
      g.expansion limit ancestors depth key := by
  induction ancestors using g.ancestors_induction generalizing depth key with
  | inside ancestors ih =>
    cases body : g.callees? key with
    | none => rw [expansion_of_none body, expansion_of_none body]
    | some callees =>
      have other : key ≠ inert := by
        rintro rfl
        rw [found] at body
        cases body
      rw [expansion_of_some body, expansion_of_some body]
      by_cases admitted : key ∉ ancestors ∧ limit.all (depth < ·) = true
      · -- the function without a body goes in last, as the induction hypothesis has it
        rw [if_pos ((admitted_inside_iff other).mpr admitted), if_pos admitted,
          Finset.insert_comm]
        exact listing_of_expansions (ih key (mem_keys_of_callees? body) admitted.1) _ _
      · rw [if_neg fun inside => admitted ((admitted_inside_iff other).mp inside),
          if_neg admitted]

/-- **Calling a function lists what starting at it does**, from a function without a body of its
own. -/
theorem expansion_singleton {start callee : FunctionKey} {callees : List FunctionKey}
    (body : g.callees? callee = some callees) (other : callee ≠ start)
    (inert : g.callees? start = none) :
    g.expansion (limit.map (· + 1)) {start} 0 callee =
      g.listing limit {callee} 0 callee.owner callees := by
  have admitted : callee ∉ ({start} : Finset FunctionKey) ∧
      (limit.map (· + 1)).all (0 < ·) = true :=
    ⟨by rwa [Finset.mem_singleton], by cases limit <;> simp⟩
  rw [expansion_of_some body, if_pos admitted, Finset.pair_comm]
  exact listing_of_expansions (expansion_inside inert) _ _

end CallGraph

/-! ## The unit that was merged last -/

namespace SourceUnit

variable {unit : SourceUnit}

/-- A unit defines each function once if its modules differ in their names, and so do the functions
of each module. -/
theorem nodup_definedKeys (modules : (unit.modules.map ModuleOutline.name).Nodup)
    (functions : ∀ m ∈ unit.modules, (m.definitions.map Definition.name).Nodup) :
    unit.definedKeys.Nodup := by
  rw [definedKeys, bodies, List.map_flatMap]
  refine List.nodup_flatMap.mpr ⟨fun m mem => ?_, ?_⟩
  · rw [List.map_map]
    refine List.Nodup.of_map FunctionKey.function ?_
    rw [List.map_map]
    exact functions m mem
  · refine (List.pairwise_map.mp modules).imp fun {m m'} differ key mem mem' => differ ?_
    simp only [List.map_map, List.mem_map, Function.comp_apply] at mem mem'
    obtain ⟨f, _, rfl⟩ := mem
    obtain ⟨f', _, same⟩ := mem'
    exact (FunctionKey.mk.inj same).1.symm

/-- A body is the last one of its function if the function is defined once. -/
theorem lastBody?_of_mem (distinct : unit.definedKeys.Nodup) {key : FunctionKey} {body : Expr}
    (mem : (key, body) ∈ unit.bodies) : unit.lastBody? key = some body := by
  have defined : key ∈ unit.definedKeys := List.mem_map_of_mem mem
  obtain ⟨last, found⟩ := Option.isSome_iff_exists.mp (isSome_lastBody?.mpr defined)
  obtain ⟨entry, hentry, rfl⟩ := Option.map_eq_some_iff.mp found
  obtain ⟨mem', same⟩ := List.mem_filter.mp (List.mem_of_getLast? hentry)
  rw [found, List.inj_on_of_nodup_map distinct mem' mem (of_decide_eq_true same)]

/-- The index has the body at which a listing of the unit starts, if the unit was merged last and
defines the function once. -/
theorem body?_addUnit_of_definition? (index : Index) (distinct : unit.definedKeys.Nodup)
    {function : String} {owner : ModuleOutline} {definition : Definition}
    (found : unit.definition? function = some (owner, definition)) :
    (index.addUnit unit).body? owner.name function = some definition.body := by
  have first : unit.bodies.find? (·.1.function == function) =
      some (⟨owner.name, function⟩, definition.body) := by
    rw [find?_bodies, found]
    rfl
  have last := lastBody?_of_mem distinct (List.mem_of_find?_eq_some first)
  rw [index.body?_addUnit_eq unit ⟨owner.name, function⟩, last]
  rfl

end SourceUnit

/-! ## The law -/

/-- **Calling a function and starting at it agree.** Let the index have the body that a unit has for
a function, and let another function have no body in the index and make one visible call, that of
the first. Then the trace of the other one is that call and after it the calls of the trace that
starts at the first, with no limit for either, or with a limit for the latter and one more for the
former. The index has the unit's body if the unit was merged last, its modules differ in their
names, and so do the functions of each module. -/
theorem calling_agrees_with_starting {unit : SourceUnit} {function : String} {owner : ModuleOutline}
    {definition : Definition} (found : unit.definition? function = some (owner, definition)) :
    (∀ (index : Index) (limit : Option Nat) (withArguments : Bool) (unit' : SourceUnit)
        (function' : String) (owner' : ModuleOutline) (definition' : Definition),
      index.body? owner.name function = some definition.body →
      unit'.definition? function' = some (owner', definition') →
      definition'.body.visibleCalls withArguments = [⟨owner.name, function⟩] →
      (⟨owner.name, function⟩ : FunctionKey) ≠ ⟨owner'.name, function'⟩ →
      index.body? owner'.name function' = none →
      Trace.ofUnit index ⟨limit.map (· + 1), withArguments⟩ unit' function' =
        ⟨owner'.name, ⟨owner'.name, owner.name, function⟩ ::
          (Trace.ofUnit index ⟨limit, withArguments⟩ unit function).calls⟩) ∧
    ∀ index : Index, (unit.modules.map ModuleOutline.name).Nodup →
      (∀ m ∈ unit.modules, (m.definitions.map Definition.name).Nodup) →
      (index.addUnit unit).body? owner.name function = some definition.body := by
  refine ⟨?_, fun index modules functions => SourceUnit.body?_addUnit_of_definition? index
    (SourceUnit.nodup_definedKeys modules functions) found⟩
  intro index limit withArguments unit' function' owner' definition' body found' single other inert
  have callees : (index.callGraph withArguments).callees? ⟨owner.name, function⟩ =
      some (definition.body.visibleCalls withArguments) := Index.callees?_of_some _ body
  have unlisted : (index.callGraph withArguments).callees? ⟨owner'.name, function'⟩ = none :=
    Index.callees?_of_none inert
  rw [Trace.calls_ofUnit_of_some index _ found, Trace.ofUnit, found']
  simp only [Trace.callsOf_eq, single]
  rw [CallGraph.listing, List.flatMap_singleton,
    CallGraph.expansion_singleton callees other unlisted]
  rfl

/-- Two functions call each other, and a third one calls the first. With a limit of two the trace of
the third is its call and then the calls of the first with a limit of one. The unit of the first was
merged last and defines each function once, so the index has its body. -/
theorem calling_agrees_with_starting_circular :
    let go : Definition := ⟨"go", .both (.remoteCall "B" "x" []) (.remoteCall "C" "y" [])⟩
    let a : ModuleOutline := ⟨"A", [go]⟩
    let b : ModuleOutline :=
      ⟨"B", [⟨"x", .both (.remoteCall "A" "go" []) (.remoteCall "C" "y" [])⟩]⟩
    let unit : SourceUnit := ⟨⟨"a.ex"⟩, [a]⟩
    let run : Definition := ⟨"run", .remoteCall "A" "go" []⟩
    let outside : SourceUnit := ⟨⟨"x.ex"⟩, [⟨"X", [run]⟩]⟩
    let index := (Index.empty.addUnit ⟨⟨"b.ex"⟩, [b]⟩).addUnit unit
    let trace (limit : Nat) (unit : SourceUnit) (function : String) :=
      Trace.ofUnit index ⟨some limit, false⟩ unit function
    unit.definition? "go" = some (a, go) ∧
    index.body? "A" "go" = some go.body ∧
    trace 1 unit "go" =
      ⟨"A", [⟨"A", "B", "x"⟩, ⟨"B", "A", "go"⟩, ⟨"B", "C", "y"⟩, ⟨"A", "C", "y"⟩]⟩ ∧
    trace 2 outside "run" = ⟨"X", ⟨"X", "A", "go"⟩ :: (trace 1 unit "go").calls⟩ := by
  intro go a b unit run outside index trace
  have found : unit.definition? "go" = some (a, go) := rfl
  obtain ⟨calling, merged⟩ := calling_agrees_with_starting found
  have body : index.body? "A" "go" = some go.body := merged _ (by decide) (by decide)
  have inert : index.body? "X" "run" = none := Option.isNone_iff_eq_none.mp (by decide)
  refine ⟨found, body, by decide, ?_⟩
  exact calling index (some 1) false outside "run" ⟨"X", [run]⟩ run body rfl rfl (by decide) inert

end CallChart
