/-!
# Tables keyed by names

A table holds one value for each name, in increasing order of the names. The
order of names is that of their characters. What a table holds is seen
through `get?`; writing a name again replaces its value.
-/

namespace CallChart

/-- Values by name. The names increase, so a table is determined by what `get?` answers, and listing
its names needs no sorting. -/
structure Table (α : Type) where
  entries : List (String × α)
  /-- No name comes twice, and the names increase. -/
  increasing : entries.Pairwise (·.1 < ·.1)

namespace Table

variable {α : Type}

def empty : Table α := ⟨[], .nil⟩

instance : Inhabited (Table α) := ⟨empty⟩

/-- Puts a value in its place among the entries, instead of one of the same name. -/
def insertEntry (name : String) (value : α) : List (String × α) → List (String × α)
  | [] => [(name, value)]
  | entry :: entries =>
    if name < entry.1 then (name, value) :: entry :: entries
    else if name = entry.1 then (name, value) :: entries
    else entry :: insertEntry name value entries

/-- The entries after an insertion are the new one and some that were there before. -/
theorem mem_insertEntry {name : String} {value : α} {entry : String × α} {entries}
    (h : entry ∈ insertEntry name value entries) : entry = (name, value) ∨ entry ∈ entries := by
  induction entries with
  | nil => simpa [insertEntry] using h
  | cons first entries ih =>
    unfold insertEntry at h
    split at h
    · simpa using h
    · split at h
      · simp only [List.mem_cons] at h ⊢
        exact h.imp_right .inr
      · simp only [List.mem_cons] at h ⊢
        rcases h with h | h
        · exact .inr (.inl h)
        · exact (ih h).imp_right .inr

/-- An insertion keeps the order of the entries. -/
theorem increasing_insertEntry (name : String) (value : α) {entries : List (String × α)}
    (h : entries.Pairwise (·.1 < ·.1)) : (insertEntry name value entries).Pairwise (·.1 < ·.1) := by
  induction entries with
  | nil => simp [insertEntry]
  | cons first entries ih =>
    rw [List.pairwise_cons] at h
    unfold insertEntry
    split
    case isTrue hlt =>
      refine List.pairwise_cons.mpr ⟨fun entry hentry => ?_, List.pairwise_cons.mpr h⟩
      rcases List.mem_cons.mp hentry with rfl | hentry
      · exact hlt
      · exact String.lt_trans hlt (h.1 entry hentry)
    case isFalse hlt =>
      split
      case isTrue heq => exact List.pairwise_cons.mpr ⟨heq ▸ h.1, h.2⟩
      case isFalse hne =>
        refine List.pairwise_cons.mpr ⟨fun entry hentry => ?_, ih h.2⟩
        rcases mem_insertEntry hentry with rfl | hentry
        · exact Std.lt_of_le_of_ne (String.not_lt.mp hlt) (Ne.symm hne)
        · exact h.1 entry hentry

/-- Writes a value under a name, in place of the one that was there. The order of the names is part
of the type, so it is kept here once for all users. -/
def insert (table : Table α) (name : String) (value : α) : Table α :=
  ⟨insertEntry name value table.entries, increasing_insertEntry name value table.increasing⟩

def get? (table : Table α) (name : String) : Option α :=
  (table.entries.find? (·.1 == name)).map (·.2)

def contains (table : Table α) (name : String) : Bool := (table.get? name).isSome

def keys (table : Table α) : List String := table.entries.map (·.1)

def size (table : Table α) : Nat := table.entries.length

end Table

end CallChart
