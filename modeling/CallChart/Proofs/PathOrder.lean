import CallChart.Path
import Mathlib.Data.Prod.Lex
import Mathlib.Data.String.Basic

/-!
# The order of paths

Paths are compared by components, and components by their kind and their name.
So a path has a key, the list of kinds and names, and the order of paths is that
of their keys (`Path.lt_iff`). Two paths are the same exactly if they have one
key (`Path.same_iff`). Of paths that differ one comes first, and sorted paths
come in the order of their keys.
-/

namespace CallChart

/-- The kind of a component and its name, in this order. -/
def Component.key : Component → ℕ ×ₗ String
  | .normal name => toLex (Component.rank (.normal name), name)
  | component => toLex (component.rank, "")

theorem Component.key_injective : Function.Injective Component.key := by
  intro a b same
  have parts := Prod.mk.inj (toLex.injective same)
  cases a <;> cases b <;> simp_all [key, rank]

/-- Components are in the order of their keys. -/
theorem Component.lt_iff {a b : Component} : a.lt b = true ↔ a.key < b.key := by
  cases a <;> cases b <;> simp [lt, key, rank, Prod.Lex.toLex_lt_toLex]

namespace Path

/-- The keys of the components of a path. -/
def key (path : Path) : List (ℕ ×ₗ String) := path.components.map Component.key

variable {a b : Path}

theorem ltComponents_iff {as bs : List Component} :
    ltComponents as bs = true ↔ as.map Component.key < bs.map Component.key := by
  induction as generalizing bs with
  | nil => cases bs <;> simp [ltComponents]
  | cons a as ih =>
    cases bs with
    | nil => simp [ltComponents]
    | cons b bs =>
      rw [ltComponents, List.map_cons, List.map_cons, List.cons_lt_cons_iff, Bool.or_eq_true,
        Bool.and_eq_true, Component.lt_iff, beq_iff_eq, ih, Component.key_injective.eq_iff]

/-- **Paths are in the order of their keys.** -/
theorem lt_iff : a.lt b = true ↔ a.key < b.key := ltComponents_iff

/-- Paths are the same if they have the same key. -/
theorem same_iff : a.same b = true ↔ a.key = b.key := by
  rw [same, beq_iff_eq, key, key, (List.map_injective_iff.mpr Component.key_injective).eq_iff]

theorem same_comm (a b : Path) : a.same b = b.same a := by
  rw [Bool.eq_iff_iff, same_iff, same_iff]
  exact eq_comm

theorem same_refl (a : Path) : a.same a = true := beq_self_eq_true _

/-- Paths of one place are compared alike with all others. -/
theorem same_congr (same : a.same b = true) (path : Path) :
    path.same a = path.same b := by
  rw [Bool.eq_iff_iff, same_iff, same_iff, same_iff.mp same]

/-- Sorted paths do not decrease. -/
theorem pairwise_sort (paths : List Path) : (sort paths).Pairwise fun a b => a.key ≤ b.key := by
  have not_after : ∀ a b : Path, (!b.lt a) = true ↔ a.key ≤ b.key := by
    intro a b
    rw [Bool.not_eq_true', ← Bool.not_eq_true, lt_iff, not_lt]
  have sorted : (sort paths).Pairwise fun a b => (!b.lt a) = true := by
    apply List.pairwise_mergeSort
    · intro a b c first second
      rw [not_after] at first second ⊢
      exact first.trans second
    · intro a b
      rw [Bool.or_eq_true, not_after, not_after]
      exact le_total _ _
  exact sorted.imp fun {a b} => (not_after a b).mp

end Path

end CallChart
