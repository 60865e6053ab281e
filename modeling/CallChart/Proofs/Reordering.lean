import CallChart.Proofs.Bodies
import Mathlib.Data.List.Pairwise
import Mathlib.Data.List.Sort

/-!
# Units that share no function may come in any order

A later definition of a function replaces an earlier one, so in general the
order of units matters to an index. It does not where no two of them define
the same function. They may still declare the same module: its functions are
then put together from all of them.

**The step** (`Index.addUnit_comm`): two such units can be merged in either
order. **The law** (`ofPaths_in_any_order`): the index of some paths has the same
modules, functions and bodies in whichever order the paths are given, its
diagnostics are the same in another order, and every trace is the same.

A unit may define a function more than once, since the order inside a unit
stays as it is; and a path that does not load may come any number of times.
-/

namespace CallChart

/-! ## Tables and indexes are what is found in them -/

/-- Tables in which the same is found are the same: the entries are in the order of their names. -/
theorem Table.eq_of_get? {α : Type} {table table' : Table α}
    (same : ∀ name, table.get? name = table'.get? name) : table = table' := by
  have entries : table.entries = table'.entries := by
    have : Std.Antisymm fun a b : String × α => a.1 < b.1 :=
      ⟨fun _ _ less more => absurd more (String.lt_asymm less)⟩
    have : Std.Irrefl fun a b : String × α => a.1 < b.1 := ⟨fun _ => String.lt_irrefl _⟩
    refine table.increasing.eq_of_mem_iff table'.increasing fun entry => ?_
    rw [← get?_eq_some_iff, ← get?_eq_some_iff, same]
  obtain ⟨_, _⟩ := table
  cases entries
  rfl

namespace Index

/-- Modules are the same if the same ones are there and the same bodies are found in them. -/
theorem modules_eq_of_functions {modules modules' : Table (Table Expr)}
    (names : ∀ owner, modules.contains owner = true ↔ modules'.contains owner = true)
    (bodies : ∀ owner function,
      (functionsOf modules owner).get? function = (functionsOf modules' owner).get? function) :
    modules = modules' := by
  refine Table.eq_of_get? fun owner => ?_
  have functions := Table.eq_of_get? (bodies owner)
  have there := names owner
  unfold functionsOf at functions
  unfold Table.contains at there
  cases found : modules.get? owner with
  | none =>
    rw [found, Option.isSome_none] at there
    exact (Option.not_isSome_iff_eq_none.mp fun h => Bool.noConfusion (there.mpr h)).symm
  | some table =>
    rw [found] at there functions
    obtain ⟨table', found'⟩ := Option.isSome_iff_exists.mp (there.mp rfl)
    rw [found'] at functions ⊢
    exact congrArg some functions

end Index

/-! ## Merging in either order -/

namespace SourceUnit

/-- Two units define no function in common. -/
def Apart (unit unit' : SourceUnit) : Prop := ∀ key ∈ unit.definedKeys, key ∉ unit'.definedKeys

instance : DecidableRel Apart := fun unit unit' =>
  inferInstanceAs (Decidable (∀ key ∈ unit.definedKeys, key ∉ unit'.definedKeys))

instance : Std.Symm Apart :=
  ⟨fun _ _ apart key mem mem' => apart key mem' mem⟩

/-- Of units that are apart, at most one has a body for a function, so it does not matter which is
asked first. -/
theorem Apart.or_comm {unit unit' : SourceUnit} (apart : unit.Apart unit') (key : FunctionKey)
    (before : Option Expr) :
    (unit.lastBody? key).or ((unit'.lastBody? key).or before) =
      (unit'.lastBody? key).or ((unit.lastBody? key).or before) := by
  cases found : unit.lastBody? key with
  | none => rfl
  | some body =>
    have defined := isSome_lastBody?.mp (Option.isSome_of_eq_some found)
    have missing : unit'.lastBody? key = none :=
      Option.not_isSome_iff_eq_none.mp fun h => apart key defined (isSome_lastBody?.mp h)
    rw [missing]
    rfl

end SourceUnit

namespace Index

/-- **Units that are apart can be merged in either order.** They may declare the same modules. -/
theorem addUnit_comm (index : Index) {unit unit' : SourceUnit} (apart : unit.Apart unit') :
    (index.addUnit unit).addUnit unit' = (index.addUnit unit').addUnit unit := by
  refine congrArg (Index.mk · index.diagnostics) (modules_eq_of_functions ?_ ?_)
  · intro owner
    simp only [addUnit, contains_foldl_addModule]
    exact or_left_comm
  · intro owner function
    have key := apart.or_comm ⟨owner, function⟩ (index.body? owner function)
    rw [← body?_addUnit_eq, ← body?_addUnit_eq, ← body?_addUnit_eq, ← body?_addUnit_eq] at key
    rw [body?_eq, body?_eq] at key
    exact key.symm

/-- Units of which any two are apart can be merged in any order. -/
theorem foldl_addUnit_of_perm (index : Index) {units units' : List SourceUnit}
    (perm : units.Perm units') (apart : units.Pairwise SourceUnit.Apart) :
    units.foldl addUnit index = units'.foldl addUnit index := by
  refine perm.foldl_eq' (fun unit mem unit' mem' index => ?_) index
  -- a unit may come twice, if it defines nothing
  by_cases same : unit = unit'
  · rw [same]
  · exact index.addUnit_comm (apart.forall mem mem' same)

/-- Units merged one after another add their modules one after another. -/
theorem modules_foldl_addUnit (index : Index) (units : List SourceUnit) :
    (units.foldl addUnit index).modules =
      (units.flatMap SourceUnit.modules).foldl addModule index.modules := by
  induction units generalizing index with
  | nil => rfl
  | cons unit units ih =>
    rw [List.foldl_cons, ih, List.flatMap_cons, List.foldl_append]
    rfl

/-- The modules of the index of some paths are those of the units that load, merged in order. -/
theorem modules_ofPaths_eq_foldl (reader : SourceReader) (store : TextStore) (paths : List Path) :
    (ofPaths reader store paths).modules =
      ((paths.filterMap (reader.unit? store)).foldl addUnit empty).modules := by
  rw [modules_ofPaths, modules_foldl_addUnit]
  rfl

end Index

/-! ## The law -/

/-- Only the modules of an index are read for a trace. -/
theorem Trace.ofPath_congr {index index' : Index} (same : index.modules = index'.modules)
    (options : TraceOptions) (reader : SourceReader) (store : TextStore) (path : Path)
    (function : String) :
    Trace.ofPath index options reader store path function =
      Trace.ofPath index' options reader store path function := by
  unfold Trace.ofPath
  cases reader.fetch store path with
  | notFound => rfl
  | failed error => rfl
  | unit unit =>
    refine congrArg Except.ok (Trace.ofUnit_congr ?_ rfl rfl)
    simp only [Index.callGraph, Index.body?, same]

/-- **Paths whose units define no function in common may come in any order.** The index has the same
modules, functions and bodies, its diagnostics are those of the other order in another order, and
the trace of any function of any unit is the same, or fails with the same error. -/
theorem ofPaths_in_any_order (reader : SourceReader) (store : TextStore) (options : TraceOptions)
    {paths paths' : List Path} (perm : paths.Perm paths')
    (apart : (paths.filterMap (reader.unit? store)).Pairwise SourceUnit.Apart)
    (entry : Path) (function : String) :
    let index := Index.ofPaths reader store paths
    let index' := Index.ofPaths reader store paths'
    index.modules = index'.modules ∧ index.diagnostics.Perm index'.diagnostics ∧
      Trace.ofPath index options reader store entry function =
        Trace.ofPath index' options reader store entry function := by
  intro index index'
  have modules : index.modules = index'.modules := by
    rw [Index.modules_ofPaths_eq_foldl, Index.modules_ofPaths_eq_foldl,
      Index.foldl_addUnit_of_perm _ (perm.filterMap _) apart]
  refine ⟨modules, ?_, Trace.ofPath_congr modules options reader store entry function⟩
  rw [Index.diagnostics_ofPaths, Index.diagnostics_ofPaths]
  exact perm.filterMap _

/-- Two units declare the same module with different functions, one of them in two clauses, and a
path without a text stands between them. In the other order the paths give the same modules and the
same trace, which goes through both units. -/
theorem ofPaths_in_any_order_shared_module :
    let reader : SourceReader := ⟨{}, by decide⟩
    let store : TextStore := KeptTexts.toTextStore
      ⟨[(⟨"a.ex"⟩, "defmodule A do def f,do: A.g end"),
        (⟨"b.ex"⟩, "defmodule A do def g,do: B.x\n def g,do: B.y end")]⟩
    let paths : List Path := [⟨"a.ex"⟩, ⟨"none.ex"⟩, ⟨"b.ex"⟩]
    let index (paths : List Path) := Index.ofPaths reader store paths
    paths.Perm paths.reverse ∧
    (paths.filterMap (reader.unit? store)).Pairwise SourceUnit.Apart ∧
    (index paths).modules = (index paths.reverse).modules ∧
    Trace.ofPath (index paths) {} reader store ⟨"a.ex"⟩ "f" =
      .ok ⟨"A", [⟨"A", "A", "g"⟩, ⟨"A", "B", "x"⟩, ⟨"A", "B", "y"⟩]⟩ ∧
    Trace.ofPath (index paths) {} reader store ⟨"a.ex"⟩ "f" =
      Trace.ofPath (index paths.reverse) {} reader store ⟨"a.ex"⟩ "f" := by
  intro reader store paths index
  have perm : paths.Perm paths.reverse := (List.reverse_perm paths).symm
  have apart : (paths.filterMap (reader.unit? store)).Pairwise SourceUnit.Apart := by
    decide +kernel
  obtain ⟨modules, _, traces⟩ := ofPaths_in_any_order reader store {} perm apart ⟨"a.ex"⟩ "f"
  exact ⟨perm, apart, modules, by decide +kernel, traces⟩

end CallChart
