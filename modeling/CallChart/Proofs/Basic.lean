import Mathlib.Data.List.Basic

/-!
# Lists and results

Facts about lists and about results that may be errors, which name nothing of this
library and which several of its parts need: what two steps in a row come to, when
two readings of a list find the same, and what is kept of a list in which an item
takes away all later ones that are the same.
-/

namespace CallChart

/-! ## Results -/

/-- Two steps succeed when the first does and the second does with its answer. -/
theorem bind_eq_ok_iff {ε α β : Type} {first : Except ε α} {next : α → Except ε β} {b : β} :
    (first >>= next) = .ok b ↔ ∃ a, first = .ok a ∧ next a = .ok b := by
  cases first with
  | error => exact ⟨nofun, fun ⟨_, failed, _⟩ => nomatch failed⟩
  | ok a =>
    refine ⟨fun done => ⟨a, rfl, done⟩, ?_⟩
    rintro ⟨_, ⟨⟩, done⟩
    exact done

/-- Saying an error in other words does not touch what succeeds. -/
theorem mapError_eq_ok_iff {ε ε' α : Type} {result : Except ε α} {f : ε → ε'} {a : α} :
    result.mapError f = .ok a ↔ result = .ok a := by
  cases result with
  | error => exact ⟨nofun, nofun⟩
  | ok b => simp only [Except.mapError, Except.ok.injEq]

/-! ## Readings -/

/-- Two readings of a list of which one finds no more than the other find the same only if they
agree on each item. -/
theorem filterMap_eq_filterMap_iff {α β : Type} {f g : α → Option β} {items : List α}
    (fewer : ∀ item ∈ items, (f item).isSome → (g item).isSome) :
    items.filterMap f = items.filterMap g ↔ ∀ item ∈ items, f item = g item := by
  refine ⟨fun same => ?_, List.filterMap_congr⟩
  induction items with
  | nil => exact fun _ mem => absurd mem List.not_mem_nil
  | cons item items ih =>
    rw [List.forall_mem_cons] at fewer ⊢
    have shorter : (items.filterMap f).length ≤ (items.filterMap g).length := by
      rw [List.length_filterMap_eq_countP, List.length_filterMap_eq_countP]
      exact List.countP_mono_left fewer.2
    cases left : f item with
    | none =>
      cases right : g item with
      | none =>
        rw [List.filterMap_cons_none left, List.filterMap_cons_none right] at same
        exact ⟨rfl, ih fewer.2 same⟩
      | some _ =>
        -- the second reading would be longer by one
        rw [List.filterMap_cons_none left, List.filterMap_cons_some right] at same
        rw [same, List.length_cons] at shorter
        omega
    | some _ =>
      obtain ⟨_, right⟩ := Option.isSome_iff_exists.mp (fewer.1 (by rw [left]; rfl))
      rw [List.filterMap_cons_some left, List.filterMap_cons_some right] at same
      obtain ⟨head, tail⟩ := List.cons.inj same
      exact ⟨by rw [right, head], ih fewer.2 tail⟩

/-! ## Keeping what comes first -/

section FirstOccurrences

variable {α : Type} {r : α → α → Bool}

/-- Induction over a list whose first item takes away all that are the same. -/
theorem firstOccurrence_induction (r : α → α → Bool) {motive : List α → Prop} (nil : motive [])
    (cons : ∀ item items, motive (items.filter fun other => r other item = false) →
      motive (item :: items)) : ∀ items, motive items
  | [] => nil
  | item :: items => cons item items (firstOccurrence_induction r nil cons _)
termination_by items => items.length
decreasing_by exact Nat.lt_succ_of_le (List.length_filter_le _ _)

/-- What is kept stands in the list, in its order. -/
theorem eraseDupsBy_sublist (items : List α) : (items.eraseDupsBy r).Sublist items := by
  induction items using firstOccurrence_induction r with
  | nil => exact .slnil
  | cons item items ih =>
    rw [List.eraseDupsBy_cons]
    exact (ih.trans List.filter_sublist).cons_cons item

/-- No two that are kept are the same. -/
theorem pairwise_eraseDupsBy (items : List α) :
    (items.eraseDupsBy r).Pairwise fun a b => r b a = false := by
  induction items using firstOccurrence_induction r with
  | nil => exact .nil
  | cons item items ih =>
    rw [List.eraseDupsBy_cons, List.pairwise_cons]
    refine ⟨fun other mem => ?_, ih⟩
    simpa using (List.mem_filter.mp ((eraseDupsBy_sublist _).subset mem)).2

/-- What is the same is tested alike, so it makes no difference whether the test comes first. -/
theorem eraseDupsBy_filter {test : α → Bool} (alike : ∀ a b, r a b = true → test a = test b)
    (items : List α) : (items.filter test).eraseDupsBy r = (items.eraseDupsBy r).filter test := by
  induction items using firstOccurrence_induction r with
  | nil => rfl
  | cons item items ih =>
    rw [List.eraseDupsBy_cons, List.filter_cons, List.filter_cons, ← ih, List.filter_filter]
    split
    · rw [List.eraseDupsBy_cons, List.filter_filter]
      simp only [Bool.and_comm]
    · next fails =>
      -- nothing that passes is the same as the first one, which does not
      refine congrArg (List.eraseDupsBy r) (List.filter_congr fun other _ => ?_)
      cases same : r other item with
      | false => simp
      | true => simp [alike other item same, fails]

/-- What is kept of a list is what comes first of its kind. -/
theorem mem_eraseDupsBy_iff (refl : ∀ a, r a a = true)
    (congr : ∀ a b, r a b = true → ∀ c, r c a = r c b) {items : List α} {item : α} :
    item ∈ items.eraseDupsBy r ↔ items.find? (r · item) = some item := by
  have symm : ∀ {a b}, r a b = true → r b a = true := fun {a b} same =>
    (congr a b same b).trans (refl b)
  induction items using firstOccurrence_induction r with
  | nil => simp
  | cons first items ih =>
    rw [List.eraseDupsBy_cons, List.mem_cons, List.find?_cons]
    refine (or_congr_right ih).trans ?_
    cases same : r first item with
    | true =>
      refine ⟨?_, fun here => .inl (Option.some.inj here).symm⟩
      rintro (rfl | later)
      · rfl
      · have differs := (List.mem_filter.mp (List.mem_of_find?_eq_some later)).2
        simp [symm same] at differs
    | false =>
      have other : item ≠ first := by
        rintro rfl
        rw [refl] at same
        cases same
      have tested : ∀ a, r a item = true → r a first = false := by
        intro a found
        rw [← Bool.not_eq_true]
        intro again
        rw [← congr a item found first, symm again] at same
        cases same
      have found_alike : ∀ a, decide (decide (r a first = false) = true ∧ r a item = true) =
          r a item := by
        intro a
        cases found : r a item with
        | false => simp
        | true => simp [tested a found]
      rw [List.find?_filter]
      simp only [other, false_or, found_alike]

end FirstOccurrences

end CallChart
