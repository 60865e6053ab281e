import CallChart.Proofs.PathOrder
import CallChart.Proofs.Paths

/-!
# Spellings of one place

Two paths name one place if they have the same components. What that says of
their texts is told here by pieces: repeated slashes, a slash at the end and dots
after the first piece leave pieces that do not count, and the components of a
path are the root, if it starts there, and its other pieces
(`Path.components_eq`). So paths name one place exactly if both start at the root
or neither does, and the same pieces of theirs count
(`Path.same_iff_countedPieces`).
-/

namespace CallChart.Path

/-- The pieces that count: no empty one, and no dot but the one that the path starts with. -/
def countedPieces (path : Path) : List (List Char) :=
  match pieces path.text.toList with
  | [] => []
  | first :: more => [first].filter (counts true) ++ more.filter (counts false)

theorem nil_not_mem_countedPieces (path : Path) : [] ∉ path.countedPieces := by
  unfold countedPieces
  split
  · exact List.not_mem_nil
  · simp [counts]

/-- **The components of a path are the root, if it starts there, and the pieces that count.** -/
theorem components_eq (path : Path) :
    path.components =
      (if path.isAbsolute then [.root] else []) ++ path.countedPieces.map componentOf := by
  unfold components countedPieces
  split
  · next piece more found =>
    rw [if_pos (isAbsolute_iff.mpr ⟨piece, more, found⟩), found, filterMap_component?]
    rfl
  · next more found =>
    have relative : ¬ path.isAbsolute = true := by
      rw [isAbsolute_iff, found]
      rintro ⟨_, _, same⟩
      cases same
    rw [if_neg relative, found, filterMap_component?]
    rfl
  · next no_root no_dot =>
    have relative : ¬ path.isAbsolute = true := by
      rw [isAbsolute_iff]
      rintro ⟨piece, more, found⟩
      exact no_root piece more found
    rw [if_neg relative, filterMap_component?, List.nil_append]
    obtain ⟨first, more, found⟩ := List.exists_cons_of_ne_nil (pieces_ne_nil path.text.toList)
    have first_alike : counts true first = counts false first := by
      have other : first ≠ ['.'] := by
        rintro rfl
        exact no_dot more found
      simp [counts, other]
    rw [found]
    simp only [List.filter_cons, first_alike, List.filter_nil]
    split <;> rfl

/-- **Paths are the same if both start at the root or neither does, and the same pieces count.** -/
theorem same_iff_countedPieces {a b : Path} :
    a.same b = true ↔ a.isAbsolute = b.isAbsolute ∧ a.countedPieces = b.countedPieces := by
  have no_root : ∀ path : Path, .root ∉ path.countedPieces.map componentOf := by
    intro path mem
    obtain ⟨piece, counted, root⟩ := List.mem_map.mp mem
    refine componentOf_ne_root ?_ root
    rintro rfl
    exact nil_not_mem_countedPieces path counted
  have names := (List.map_injective_iff.mpr componentOf_injective).eq_iff
    (a := a.countedPieces) (b := b.countedPieces)
  rw [same, beq_iff_eq, components_eq, components_eq]
  have left := no_root a
  have right := no_root b
  cases a.isAbsolute <;> cases b.isAbsolute <;> simp only [if_true, if_false, Bool.false_eq_true,
    List.nil_append, List.cons_append, List.cons.injEq, true_and, false_and, iff_false,
    reduceCtorEq]
  · exact names
  · rintro same
    exact left (same ▸ List.mem_cons_self)
  · rintro same
    exact right (same ▸ List.mem_cons_self)
  · exact names

end CallChart.Path
