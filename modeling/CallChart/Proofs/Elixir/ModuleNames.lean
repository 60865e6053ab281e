import CallChart.Proofs.Agreement
import CallChart.Proofs.Clauses
import CallChart.Proofs.Elixir.Grammar.Expression
import CallChart.Source.Reading
import CallChart.Trace

/-!
# What modules are called

A module is named by its alias, behind the names of the modules around it. Since
aliases have only the characters of aliases, so have the names of modules
(`Elixir.isModuleName_of_mem_outlines`), and so has the module that a trace is of,
whatever function is asked for (`Trace.isModuleName_entryOwner`).
-/

namespace CallChart

namespace Elixir

open Node (AllWellRead IsAlias)

/-- A name that is spelled as aliases are. -/
def IsModuleName (name : String) : Prop := IsAlias name.toList

theorem IsModuleName.noSlash {name : String} (isName : IsModuleName name) : '/' ∉ name.toList := by
  intro slash
  rcases isName.chars _ slash with upper | follows | blank | dot
  · cases upper
  · cases follows
  · cases blank
  · cases dot

/-- The first argument of a call is one of its nodes. -/
theorem wellRead_firstArgument? {node argument : Node} (read : node.WellRead)
    (found : firstArgument? node = some argument) : argument.WellRead := by
  obtain ⟨arguments, inside, first⟩ := Option.bind_eq_some_iff.mp found
  exact (read.child (List.mem_of_find?_eq_some inside)).child (List.mem_of_mem_head? first)

/-- An alias is a name without its blanks, too. -/
theorem isModuleName_plainName {node : Node} (isAlias : IsAlias node.text.toList) :
    IsModuleName (plainName node) := by
  rw [IsModuleName, plainName, String.toList_ofList]
  obtain ⟨c, mem, upper⟩ := isAlias.capital
  refine ⟨⟨c, List.mem_filter.mpr ⟨mem, ?_⟩, upper⟩,
    fun c mem => isAlias.chars c (List.mem_of_mem_filter mem)⟩
  rw [Bool.not_eq_true', ← Bool.not_eq_true]
  intro blank
  simp only [Char.isWhitespace, Bool.or_eq_true, decide_eq_true_eq] at blank
  rcases blank with ((rfl | rfl) | rfl) | rfl <;> cases upper

theorem IsModuleName.qualify {outer name : String} (isOuter : IsModuleName outer)
    (isName : IsModuleName name) : IsModuleName (Elixir.qualify (some outer) name) := by
  rw [IsModuleName, Elixir.qualify, String.toList_append, String.toList_append]
  obtain ⟨c, mem, upper⟩ := isName.capital
  refine ⟨⟨c, List.mem_append_right _ mem, upper⟩, fun c mem => ?_⟩
  rw [List.mem_append, List.mem_append] at mem
  rcases mem with (inOuter | dot) | inName
  · exact isOuter.chars c inOuter
  · exact .inr (.inr (.inr (List.mem_singleton.mp dot)))
  · exact isName.chars c inName

/-- **A module is declared with a name of aliases**, in a module with such a name. -/
theorem isModuleName_declaredName? {parent : Option String} {node : Node} {name : String}
    (read : node.WellRead) (isParent : ∀ outer ∈ parent, IsModuleName outer)
    (declared : declaredName? parent node = some name) : IsModuleName name := by
  obtain ⟨_, -, declared⟩ := Option.bind_eq_some_iff.mp declared
  obtain ⟨argument, first, declared⟩ := Option.bind_eq_some_iff.mp declared
  obtain ⟨_, isAlias, declared⟩ := Option.bind_eq_some_iff.mp declared
  obtain rfl : qualify parent (plainName argument) = name := Option.some.inj declared
  have kind : argument.kind = .aliasName := by simpa [guard] using isAlias
  have own := isModuleName_plainName ((wellRead_firstArgument? read first).spelled kind)
  cases parent with
  | none => exact own
  | some outer => exact (isParent outer rfl).qualify own

mutual

/-- The modules at a node have names of aliases. -/
theorem isModuleName_outlinesAt : ∀ {parent : Option String} (node : Node), node.WellRead →
    (∀ outer ∈ parent, IsModuleName outer) → ∀ m ∈ outlinesAt parent node, IsModuleName m.name
  | parent, .mk kind role text children, read, isParent, m, mem => by
    rw [outlinesAt] at mem
    split at mem
    · cases mem
    · next name declared =>
      have isName := isModuleName_declaredName? read isParent declared
      rcases List.mem_cons.mp mem with rfl | nested
      · rw [ModuleOutline.name_ofClauses]
        exact isName
      · exact isModuleName_nestedOutlines children (fun _ => read.child) isName m nested

/-- The modules in a do block have names of aliases. -/
theorem isModuleName_nestedOutlines : ∀ {parent : String} (nodes : List Node), AllWellRead nodes →
    IsModuleName parent → ∀ m ∈ nestedOutlines parent nodes, IsModuleName m.name
  | _, [], _, _, _, mem => by
    rw [nestedOutlines] at mem
    cases mem
  | parent, .mk kind role text items :: nodes, read, isParent, m, mem => by
    obtain ⟨first, others⟩ := List.forall_mem_cons.mp read
    rw [nestedOutlines] at mem
    split at mem
    · refine isModuleName_outlinesAmong items (fun _ => first.child) ?_ m mem
      rintro _ ⟨⟩
      exact isParent
    · exact isModuleName_nestedOutlines nodes others isParent m mem

/-- The modules among nodes have names of aliases. -/
theorem isModuleName_outlinesAmong : ∀ {parent : Option String} (nodes : List Node),
    AllWellRead nodes → (∀ outer ∈ parent, IsModuleName outer) →
    ∀ m ∈ outlinesAmong parent nodes, IsModuleName m.name
  | _, [], _, _, _, mem => by
    rw [outlinesAmong] at mem
    cases mem
  | parent, node :: nodes, read, isParent, m, mem => by
    obtain ⟨first, others⟩ := List.forall_mem_cons.mp read
    rw [outlinesAmong] at mem
    rcases List.mem_append.mp mem with here | later
    · exact isModuleName_outlinesAt node first isParent m here
    · exact isModuleName_outlinesAmong nodes others isParent m later

end

/-- **The modules of a source have names of aliases.** -/
theorem isModuleName_of_mem_outlines {text : List Char} {source : Node}
    (parsed : parse text = .ok source) :
    ∀ m ∈ outlines source, IsModuleName m.name :=
  isModuleName_outlinesAmong source.children (fun _ => (wellRead_of_parse parsed).child) nofun

end Elixir

open Elixir (IsModuleName)

/-- The modules of a unit that is read have names of aliases. -/
theorem SourceReader.isModuleName_of_readUnit {reader : SourceReader} {path : Path} {text : String}
    {unit : SourceUnit} (read : reader.readUnit path text = .ok unit) :
    ∀ m ∈ unit.modules, IsModuleName m.name := by
  unfold readUnit at read
  split at read
  · cases read
  · split at read
    · split at read
      · next source parsed =>
        cases read
        exact Elixir.isModuleName_of_mem_outlines parsed
      · cases read
    · cases read

theorem Trace.isModuleName_namelessOwner : IsModuleName namelessOwner := by
  have letters : namelessOwner.toList.all Elixir.Letter.followsCapital = true := by decide
  have capital : namelessOwner.toList.any Char.isUpper = true := by decide
  exact ⟨List.any_eq_true.mp capital, fun c mem => .inr (.inl (List.all_eq_true.mp letters c mem))⟩

/-- **A trace is of a module with a name of aliases**, whatever its function. -/
theorem Trace.isModuleName_entryOwner {index : Index} {options : TraceOptions}
    {reader : SourceReader} {store : TextStore} {path : Path} {function : String} {trace : Trace}
    (traced : ofPath index options reader store path function = .ok trace) :
    IsModuleName trace.entryOwner := by
  unfold ofPath at traced
  split at traced
  · cases traced
    exact isModuleName_namelessOwner
  · cases traced
  · next unit fetched =>
    obtain rfl := Except.ok.inj traced
    by_cases declares : unit.modules = []
    · rw [ofUnit_of_no_module declares]
      exact isModuleName_namelessOwner
    · obtain ⟨m, mem, same⟩ := entryOwner_mem_modules declares
      rw [← same]
      unfold SourceReader.fetch at fetched
      split at fetched
      · cases fetched
      · split at fetched
        · next read =>
          cases fetched
          exact SourceReader.isModuleName_of_readUnit read m mem
        · cases fetched

end CallChart
