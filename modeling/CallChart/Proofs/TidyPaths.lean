import CallChart.Proofs.Paths

/-!
# Tidy paths

A path is tidy if none of its pieces is empty or a dot, but for the empty one
before a slash at the start. Its components are then its pieces, one by one
(`Path.components_spell`), and a component that is joined to it is one more
piece (`Path.join_spell`). The pieces at the start of a tidy path spell a tidy
path too, so what such paths say of components can be said of lists of pieces.
-/

namespace CallChart.Path

variable {path : Path} {piece : List Char} {parts front back : List (List Char)}

/-! ## Tidy pieces -/

/-- No piece is empty or a dot, but for the empty one before a slash at the start. Such a path is
spelled as its components are. -/
def IsTidy (path : Path) : Prop :=
  ∀ piece ∈ if path.isAbsolute then (pieces path.text.toList).tail else pieces path.text.toList,
    ¬ Stays piece

/-- Pieces that a tidy path may begin with. An empty piece may only come first, where it is the
root. -/
structure Tidy (parts : List (List Char)) : Prop where
  noSlash : ∀ part ∈ parts, '/' ∉ part
  noDot : ['.'] ∉ parts
  full : [] ∉ parts.tail

theorem Tidy.left (tidy : Tidy (front ++ back)) : Tidy front := by
  refine ⟨fun part mem => tidy.noSlash part (List.mem_append_left _ mem),
    fun mem => tidy.noDot (List.mem_append_left _ mem), fun mem => tidy.full ?_⟩
  cases front with
  | nil => cases mem
  | cons => exact List.mem_append_left _ mem

/-- After the first one, no tidy piece stays where it is. -/
theorem Tidy.tail_not_stays (tidy : Tidy parts) (mem : piece ∈ parts.tail) : ¬ Stays piece := by
  rintro (rfl | rfl)
  · exact tidy.full mem
  · exact tidy.noDot (List.mem_of_mem_tail mem)

/-- The path of some pieces; an empty piece alone is the root. -/
def spell (parts : List (List Char)) : Path := if parts = [[]] then ⟨"/"⟩ else ofPieces parts

theorem spell_of_ne (more : parts ≠ [[]]) : spell parts = ofPieces parts := if_neg more

/-- **A path is spelled as it is cut.** -/
theorem pieces_spell (tidy : Tidy parts) (some_part : parts ≠ []) (more : parts ≠ [[]]) :
    pieces (spell parts).text.toList = parts := by
  rw [spell_of_ne more, ofPieces, String.toList_ofList]
  exact pieces_intercalate some_part tidy.noSlash

theorem isEmpty_spell (tidy : Tidy parts) (some_part : parts ≠ []) (more : parts ≠ [[]]) :
    (spell parts).text.isEmpty = false := by
  rw [← Bool.not_eq_true, String.isEmpty_iff]
  intro empty
  have cut := pieces_spell tidy some_part more
  rw [empty] at cut
  exact more cut.symm

/-- The first piece of a tidy path is no dot, and is empty only before others. -/
theorem IsTidy.first (tidy : path.IsTidy) {more : List (List Char)}
    (found : pieces path.text.toList = piece :: more) :
    piece ≠ ['.'] ∧ (piece = [] → more ≠ []) := by
  by_cases absolute : path.isAbsolute = true
  · obtain ⟨next, rest, split⟩ := isAbsolute_iff.mp absolute
    rw [found] at split
    obtain ⟨rfl, rfl⟩ := List.cons.inj split
    exact ⟨nofun, fun _ => List.cons_ne_nil next rest⟩
  · have goes : ¬ Stays piece := by
      refine tidy piece ?_
      rw [if_neg absolute, found]
      exact List.mem_cons_self
    exact ⟨fun dot => goes (.inr dot), fun empty => absurd (.inl empty) goes⟩

/-- The other pieces of a tidy path do not stay where they are. -/
theorem IsTidy.after (tidy : path.IsTidy) (mem : piece ∈ (pieces path.text.toList).tail) :
    ¬ Stays piece := by
  refine tidy piece ?_
  split
  · exact mem
  · exact List.mem_of_mem_tail mem

/-- **The pieces of a tidy path are tidy.** -/
theorem IsTidy.tidy_pieces (tidy : path.IsTidy) : Tidy (pieces path.text.toList) := by
  refine ⟨fun _ => not_mem_of_mem_pieces, fun dot => ?_, fun mem => tidy.after mem (.inl rfl)⟩
  obtain ⟨piece, more, found⟩ := List.exists_cons_of_ne_nil (pieces_ne_nil path.text.toList)
  rw [found] at dot
  rcases List.mem_cons.mp dot with first | later
  · exact (tidy.first found).1 first.symm
  · exact tidy.after (found ▸ later) (.inr rfl)

/-- **A tidy path is spelled by its pieces.** -/
theorem IsTidy.spell_pieces (tidy : path.IsTidy) : spell (pieces path.text.toList) = path := by
  have several : pieces path.text.toList ≠ [[]] := fun alone => (tidy.first alone).2 rfl rfl
  rw [spell_of_ne several, ofPieces, intercalate_pieces, String.ofList_toList]

/-! ## Components -/

/-- **The components of a tidy path are its pieces.** -/
theorem components_spell (tidy : Tidy parts) :
    (spell parts).components = parts.map componentOf := by
  by_cases none_there : parts = []
  · subst none_there
    rfl
  by_cases root : parts = [[]]
  · subst root
    rfl
  obtain ⟨part, more, rfl⟩ := List.exists_cons_of_ne_nil none_there
  have after : more.filterMap component? = more.map componentOf :=
    filterMap_component?_of_goes fun _ => tidy.tail_not_stays
  rw [components, pieces_spell tidy none_there root, List.map_cons, ← after]
  split
  · next same =>
    obtain ⟨rfl, rfl⟩ := List.cons.inj same
    rfl
  · next same =>
    obtain ⟨rfl, rfl⟩ := List.cons.inj same
    exact absurd List.mem_cons_self tidy.noDot
  · next no_root no_dot =>
    have goes : ¬ Stays part := by
      rintro (rfl | rfl)
      · cases more with
        | nil => exact root rfl
        | cons next more => exact no_root next more rfl
      · exact no_dot more rfl
    exact List.filterMap_cons_some (component?_of_not_stays goes)

/-- Pieces that end in a name do not end in a slash. -/
theorem getLast?_spell (front : List (List Char)) {last : List Char} (plain : '/' ∉ last)
    (named : last ≠ []) :
    ∃ c, (spell (front ++ [last])).text.toList.getLast? = some c ∧ c ≠ '/' := by
  obtain ⟨chars, c, rfl⟩ := (List.eq_nil_or_concat last).resolve_left named
  rw [List.concat_eq_append] at plain named ⊢
  refine ⟨c, ?_, fun slash => plain (by simp [slash])⟩
  rw [spell_of_ne (by cases front <;> simp), ofPieces, String.toList_ofList]
  cases front with
  | nil => rw [List.nil_append, List.intercalate_singleton, List.getLast?_concat]
  | cons part front =>
    rw [intercalate_append (List.cons_ne_nil _ _) (List.cons_ne_nil _ _),
      List.intercalate_singleton, ← List.cons_append, ← List.append_assoc, List.getLast?_concat]

/-- **A component that is joined is one more piece.** -/
theorem join_spell (tidy : Tidy (parts ++ [piece])) :
    (spell parts).join ⟨(componentOf piece).text⟩ = spell (parts ++ [piece]) := by
  rcases List.eq_nil_or_concat parts with rfl | ⟨front, last, rfl⟩
  · -- the first piece is the root or a name of its own
    by_cases root : piece = []
    · subst root
      rfl
    · have alone : spell [piece] = ⟨String.ofList piece⟩ := by
        rw [spell_of_ne (by simp [root]), ofPieces, List.intercalate_singleton]
      rw [text_componentOf root, List.nil_append, alone]
      exact if_pos (Bool.or_eq_true_iff.mpr (.inr rfl))
  · rw [List.concat_eq_append] at tidy ⊢
    have goes : ¬ Stays piece := tidy.tail_not_stays (by cases front <;> simp)
    have full : piece ≠ [] := fun empty => goes (.inl empty)
    have relative : isAbsolute ⟨String.ofList piece⟩ = false :=
      isAbsolute_of_not_mem (by simpa using tidy.noSlash piece (by simp))
    have whole : spell (front ++ [last] ++ [piece]) =
        ⟨String.ofList (List.intercalate ['/'] (front ++ [last])) ++ "/" ++
          String.ofList piece⟩ := by
      rw [spell_of_ne (by cases front <;> simp), ofPieces,
        intercalate_append (by simp) (List.cons_ne_nil _ _), List.intercalate_singleton]
      simp [String.ofList_append, String.append_assoc]
    rw [text_componentOf full, join, relative, Bool.false_or, whole]
    by_cases root : front ++ [last] = [[]]
    · rw [root]
      rfl
    · have named : last ≠ [] := by
        rintro rfl
        cases front with
        | nil => exact root rfl
        | cons => exact tidy.left.full (by simp)
      obtain ⟨c, ends, other⟩ := getLast?_spell front (tidy.noSlash last (by simp)) named
      rw [isEmpty_spell tidy.left (by simp) root, ends, if_neg Bool.false_ne_true,
        if_neg (by simpa using other), spell_of_ne root]
      rfl

/-- Components that are joined one by one are more pieces. -/
theorem foldl_join_spell (front : List (List Char)) (tidy : Tidy (front ++ back)) :
    back.foldl (fun path part => path.join ⟨(componentOf part).text⟩) (spell front) =
      spell (front ++ back) := by
  induction back generalizing front with
  | nil => rw [List.append_nil]; rfl
  | cons part back ih =>
    rw [List.append_cons] at tidy ⊢
    rw [List.foldl_cons, join_spell tidy.left]
    exact ih _ tidy

end CallChart.Path
