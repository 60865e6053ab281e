import CallChart.Trace
import Mathlib.Data.Finset.Card
import Mathlib.Data.List.Nodup

/-!
# The functions that an index has

A table is read through `Table.get?`, which finds exactly the entries that it
holds. From this an index has finitely many functions: `Index.functionKeys`
lists each function with a body once, and their number is `Index.bodyCount`.

The count is what bounds the nesting of expansions, so every statement about
the end of a listing comes back to `Index.mem_functionKeys` and
`Index.card_functionKeys`.
-/

namespace CallChart

/-! ## Reading a table -/

namespace Table

variable {α : Type}

/-- An entry is found under its name: the names increase, so no entry before it has the same. -/
theorem find?_of_mem {entries : List (String × α)} (increasing : entries.Pairwise (·.1 < ·.1))
    {entry : String × α} (mem : entry ∈ entries) :
    entries.find? (·.1 == entry.1) = some entry := by
  induction entries with
  | nil => cases mem
  | cons first entries ih =>
    obtain ⟨before, rest⟩ := List.pairwise_cons.mp increasing
    rcases List.mem_cons.mp mem with rfl | mem
    · exact List.find?_cons_of_pos (beq_self_eq_true _)
    · have differ : first.1 ≠ entry.1 := fun same =>
        String.lt_irrefl _ (same ▸ before entry mem)
      rw [List.find?_cons_of_neg (by simpa only [beq_iff_eq] using differ)]
      exact ih rest mem

/-- A name has a value when the table holds the two as an entry. -/
theorem get?_eq_some_iff {table : Table α} {name : String} {value : α} :
    table.get? name = some value ↔ (name, value) ∈ table.entries := by
  constructor
  · intro found
    obtain ⟨entry, hfind, rfl⟩ := Option.map_eq_some_iff.mp found
    have hname : entry.1 = name := by simpa only [beq_iff_eq] using List.find?_some hfind
    subst hname
    exact List.mem_of_find?_eq_some hfind
  · intro mem
    unfold get?
    rw [find?_of_mem table.increasing mem]
    rfl

/-- Under the name that is written the new value is found, and under other names what was there. -/
theorem find?_insertEntry (name name' : String) (value : α) (entries : List (String × α)) :
    (insertEntry name value entries).find? (·.1 == name') =
      if name = name' then some (name, value) else entries.find? (·.1 == name') := by
  induction entries with
  | nil =>
    by_cases same : name = name' <;> simp [insertEntry, same]
  | cons first entries ih =>
    unfold insertEntry
    by_cases before : name < first.1
    · rw [if_pos before]
      by_cases same : name = name' <;> simp [same]
    · rw [if_neg before]
      by_cases replaced : name = first.1
      · rw [if_pos replaced]
        by_cases same : name = name'
        · simp [same]
        · have skipped : first.1 ≠ name' := replaced ▸ same
          simp [same, skipped]
      · rw [if_neg replaced]
        by_cases found : first.1 = name'
        · have differ : name ≠ name' := fun same => replaced (same.trans found.symm)
          simp [found, differ]
        · rw [List.find?_cons_of_neg (by simpa only [beq_iff_eq] using found), ih,
            List.find?_cons_of_neg (by simpa only [beq_iff_eq] using found)]

/-- What is found after a value is written under a name. -/
theorem get?_insert (table : Table α) (name name' : String) (value : α) :
    (table.insert name value).get? name' =
      if name = name' then some value else table.get? name' := by
  unfold get? insert
  rw [find?_insertEntry]
  split <;> rfl

/-- Nothing is found in the table without a name. -/
@[simp] theorem get?_empty (name : String) : (empty : Table α).get? name = none := rfl

/-- No name comes twice. -/
theorem nodup_keys (table : Table α) : table.keys.Nodup := by
  refine (List.pairwise_map.mpr table.increasing).imp ?_
  intro a b before same
  exact String.lt_irrefl _ (same ▸ before)

end Table

/-! ## The functions of an index -/

namespace Index

/-- The functions with a body, module by module. -/
def functionKeys (index : Index) : List FunctionKey :=
  index.modules.entries.flatMap fun m => m.2.keys.map (FunctionKey.mk m.1)

/-- The functions listed are those that have a body. -/
theorem mem_functionKeys {index : Index} {key : FunctionKey} :
    key ∈ index.functionKeys ↔ (index.body? key.owner key.function).isSome := by
  rw [Option.isSome_iff_exists]
  constructor
  · intro mem
    obtain ⟨⟨owner, functions⟩, hm, mem⟩ := List.mem_flatMap.mp mem
    obtain ⟨name, hname, rfl⟩ := List.mem_map.mp mem
    obtain ⟨⟨name, body⟩, hbody, rfl⟩ := List.mem_map.mp hname
    refine ⟨body, ?_⟩
    unfold body?
    rw [Table.get?_eq_some_iff.mpr hm]
    exact Table.get?_eq_some_iff.mpr hbody
  · rintro ⟨body, found⟩
    obtain ⟨functions, hfunctions, hbody⟩ := Option.bind_eq_some_iff.mp found
    refine List.mem_flatMap.mpr ⟨_, Table.get?_eq_some_iff.mp hfunctions, ?_⟩
    refine List.mem_map.mpr ⟨key.function, ?_, rfl⟩
    exact List.mem_map.mpr ⟨_, Table.get?_eq_some_iff.mp hbody, rfl⟩

/-- Each function is listed once: modules differ in their names, and so do the functions of one. -/
theorem nodup_functionKeys (index : Index) : index.functionKeys.Nodup := by
  refine List.nodup_flatMap.mpr ⟨fun m _ => ?_, ?_⟩
  · refine m.2.nodup_keys.map ?_
    intro f g same
    exact (FunctionKey.mk.inj same).2
  · refine index.modules.increasing.imp ?_
    intro m m' before key mem mem'
    obtain ⟨f, _, rfl⟩ := List.mem_map.mp mem
    obtain ⟨g, _, same⟩ := List.mem_map.mp mem'
    exact String.lt_irrefl _ ((FunctionKey.mk.inj same).1 ▸ before)

/-- There are `bodyCount` functions. -/
theorem card_functionKeys (index : Index) :
    index.functionKeys.toFinset.card = index.bodyCount := by
  rw [List.toFinset_card_of_nodup index.nodup_functionKeys]
  simp only [functionKeys, bodyCount, List.length_flatMap, List.length_map, Table.keys]

end Index

end CallChart
