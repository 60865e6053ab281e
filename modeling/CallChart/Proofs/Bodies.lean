import CallChart.Proofs.Expansion
import CallChart.Proofs.Merging

/-!
# The bodies of a unit, one after another

A unit keeps its definitions module by module. Two questions are asked of it:
where a listing starts, and which body the index has after the unit is merged.
Both can be answered from one list (`SourceUnit.bodies`), in which each body
stands under its function. A listing starts at the first body whose function
has the name (`SourceUnit.find?_bodies`), and the index keeps the last body of
each function (`Index.body?_addUnit_eq`).

Of a body a trace needs the calls alone, so units that have the same calls
under the same functions (`SourceUnit.callLists`) can stand for each other.
-/

namespace CallChart

namespace SourceUnit

/-- The bodies that a unit defines, each under its function, in order. A function that is defined in
two modules of one name comes twice. -/
def bodies (unit : SourceUnit) : List (FunctionKey × Expr) :=
  unit.modules.flatMap fun m => m.definitions.map fun f => (⟨m.name, f.name⟩, f.body)

def definedKeys (unit : SourceUnit) : List FunctionKey := unit.bodies.map (·.1)

def lastBody? (unit : SourceUnit) (key : FunctionKey) : Option Expr :=
  ((unit.bodies.filter (·.1 = key)).getLast?).map (·.2)

/-- A unit has a body for the functions that it defines. -/
theorem isSome_lastBody? {unit : SourceUnit} {key : FunctionKey} :
    (unit.lastBody? key).isSome ↔ key ∈ unit.definedKeys := by
  rw [lastBody?, Option.isSome_map, List.getLast?_isSome, Ne, List.filter_eq_nil_iff]
  simp only [decide_eq_true_eq, not_forall, not_not, exists_prop, definedKeys, List.mem_map]

/-- The bodies of one function are those of its definitions in all outlines of its module. -/
theorem filter_bodies (unit : SourceUnit) (key : FunctionKey) :
    unit.bodies.filter (·.1 = key) =
      ((Index.definitionsOf unit.modules key.owner).filter (·.name = key.function)).map
        fun f => (key, f.body) := by
  rw [bodies, Index.definitionsOf]
  induction unit.modules with
  | nil => rfl
  | cons m modules ih =>
    have first : (m.definitions.map fun f => ((⟨m.name, f.name⟩ : FunctionKey), f.body)).filter
          (·.1 = key) =
        if m.name = key.owner then
          (m.definitions.filter (·.name = key.function)).map fun f => (key, f.body)
        else [] := by
      obtain ⟨owner, function⟩ := key
      simp only [List.filter_map, Function.comp_def, FunctionKey.mk.injEq]
      by_cases same : m.name = owner
      · simp only [same, true_and, if_true]
        refine List.map_congr_left fun f mem => ?_
        rw [of_decide_eq_true (List.mem_filter.mp mem).2]
      · simp [same]
    rw [List.flatMap_cons, List.filter_append, ih, first]
    by_cases same : m.name = key.owner
    · rw [if_pos same, List.filter_cons_of_pos (by simpa using same), List.flatMap_cons,
        List.filter_append, List.map_append]
    · rw [if_neg same, List.filter_cons_of_neg (by simpa using same), List.nil_append]

/-- The last body of a function is that of its last definition. -/
theorem lastBody?_eq (unit : SourceUnit) (key : FunctionKey) :
    unit.lastBody? key =
      Index.lastDefined (Index.definitionsOf unit.modules key.owner) key.function := by
  rw [lastBody?, filter_bodies, List.getLast?_map, Option.map_map]
  rfl

/-- **A listing starts at the first body whose function has the name.** -/
theorem find?_bodies (unit : SourceUnit) (function : String) :
    unit.bodies.find? (·.1.function == function) =
      (unit.definition? function).map fun found =>
        (⟨found.1.name, function⟩, found.2.body) := by
  rw [bodies, List.find?_flatMap, definition?, List.map_findSome?]
  congr 1
  funext m
  rw [List.find?_map, Function.comp_apply, ModuleOutline.definition?, Option.map_map]
  cases found : m.definitions.find? (·.name == function) with
  | none => simpa [Function.comp_def] using found
  | some f =>
    have named : f.name = function := by simpa using List.find?_some found
    simp only [Function.comp_def, found, Option.map_some, named]

/-- The calls in the bodies of a unit, each list under its function, in order. -/
def callLists (unit : SourceUnit) (withArguments : Bool) : List (FunctionKey × List FunctionKey) :=
  unit.bodies.map fun entry => (entry.1, entry.2.visibleCalls withArguments)

/-- The entry function is the first one that has the name, with its calls. -/
theorem entryCalls?_eq (unit : SourceUnit) (withArguments : Bool) (function : String) :
    unit.entryCalls? withArguments function =
      (unit.callLists withArguments).find? (·.1.function == function) := by
  rw [callLists, List.find?_map, Function.comp_def, find?_bodies, Option.map_map]
  rfl

end SourceUnit

namespace Index

/-- **The index keeps the last body of each function** that the unit has, and otherwise the one that
was there. -/
theorem body?_addUnit_eq (index : Index) (unit : SourceUnit) (key : FunctionKey) :
    (index.addUnit unit).body? key.owner key.function =
      (unit.lastBody? key).or (index.body? key.owner key.function) := by
  rw [body?_addUnit, SourceUnit.lastBody?_eq]

/-- The calls of a function after a unit is merged are the last ones that the unit has for it, or
those that were there. -/
theorem callees?_addUnit (index : Index) (unit : SourceUnit) (withArguments : Bool)
    (key : FunctionKey) :
    ((index.addUnit unit).callGraph withArguments).callees? key =
      ((((unit.callLists withArguments).filter (·.1 = key)).getLast?).map (·.2)).or
        ((index.callGraph withArguments).callees? key) := by
  simp only [callGraph, body?_addUnit_eq, SourceUnit.lastBody?, SourceUnit.callLists, Option.map_or,
    List.filter_map, List.getLast?_map, Option.map_map, Function.comp_def]

end Index

end CallChart
