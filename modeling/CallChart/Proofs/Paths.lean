import CallChart.Path
import Mathlib.Data.List.Basic
import Mathlib.Data.List.TakeWhile

/-!
# The pieces of paths

A path is cut at its slashes into pieces. Cutting undoes joining
(`Path.pieces_intercalate`), and the pieces of two texts with a slash between
them are those of the one and then those of the other
(`Path.pieces_append_slash`). Pieces that count become components, one for one
(`Path.filterMap_component?`).

`Path.GoesOn` says that one path goes on from another by a name, up to pieces
that stay where they are. A path goes on so from its parent, and a name joined
to a path from that path.
-/

namespace CallChart.Path

/-! ## Cutting and joining -/

theorem pieces_ne_nil (text : List Char) : pieces text ≠ [] := by
  cases text with
  | nil => nofun
  | cons c text =>
    unfold pieces
    split
    · nofun
    · split <;> nofun

/-- A character other than a slash belongs to the first piece. -/
theorem pieces_cons_of_ne {c : Char} (other : c ≠ '/') {text piece : List Char}
    {more : List (List Char)} (found : pieces text = piece :: more) :
    pieces (c :: text) = (c :: piece) :: more := by
  rw [pieces, if_neg other, found]

/-- The pieces of texts with a slash between them. -/
theorem pieces_append_slash (text rest : List Char) :
    pieces (text ++ '/' :: rest) = pieces text ++ pieces rest := by
  induction text with
  | nil => rfl
  | cons c text ih =>
    by_cases slash : c = '/'
    · subst slash
      show [] :: pieces (text ++ '/' :: rest) = ([] :: pieces text) ++ pieces rest
      rw [ih, List.cons_append]
    · obtain ⟨piece, more, found⟩ := List.exists_cons_of_ne_nil (pieces_ne_nil text)
      rw [List.cons_append, pieces_cons_of_ne slash found]
      rw [found, List.cons_append] at ih
      rw [pieces_cons_of_ne slash ih, List.cons_append]

/-- No piece holds a slash. -/
theorem not_mem_of_mem_pieces {text piece : List Char} (mem : piece ∈ pieces text) :
    '/' ∉ piece := by
  induction text generalizing piece with
  | nil =>
    rw [List.mem_singleton.mp mem]
    exact List.not_mem_nil
  | cons c text ih =>
    by_cases slash : c = '/'
    · subst slash
      rcases List.mem_cons.mp mem with rfl | mem
      · exact List.not_mem_nil
      · exact ih mem
    · obtain ⟨first, more, found⟩ := List.exists_cons_of_ne_nil (pieces_ne_nil text)
      rw [pieces_cons_of_ne slash found] at mem
      rcases List.mem_cons.mp mem with rfl | mem
      · have plain := ih (found ▸ List.mem_cons_self)
        exact List.not_mem_cons_of_ne_of_not_mem (Ne.symm slash) plain
      · exact ih (found ▸ List.mem_cons_of_mem first mem)

/-- A text without a slash is one piece. -/
theorem pieces_of_not_mem {text : List Char} (plain : '/' ∉ text) : pieces text = [text] := by
  induction text with
  | nil => rfl
  | cons c text ih =>
    obtain ⟨other, plain⟩ := List.ne_and_not_mem_of_not_mem_cons plain
    exact pieces_cons_of_ne other.symm (ih plain)

/-- **Cutting undoes joining.** -/
theorem pieces_intercalate {parts : List (List Char)} (some_part : parts ≠ [])
    (plain : ∀ part ∈ parts, '/' ∉ part) : pieces (List.intercalate ['/'] parts) = parts := by
  induction parts with
  | nil => exact absurd rfl some_part
  | cons part parts ih =>
    have first := pieces_of_not_mem (plain part List.mem_cons_self)
    cases parts with
    | nil =>
      rw [List.intercalate_singleton]
      exact first
    | cons next parts =>
      have rest := ih (List.cons_ne_nil _ _) fun other mem =>
        plain other (List.mem_cons_of_mem _ mem)
      rw [List.intercalate_cons_cons, List.append_assoc, List.singleton_append,
        pieces_append_slash, first, rest, List.singleton_append]

/-- **Joining undoes cutting.** -/
theorem intercalate_pieces (text : List Char) : List.intercalate ['/'] (pieces text) = text := by
  induction text with
  | nil => rfl
  | cons c text ih =>
    obtain ⟨piece, more, found⟩ := List.exists_cons_of_ne_nil (pieces_ne_nil text)
    by_cases slash : c = '/'
    · subst slash
      show List.intercalate ['/'] ([] :: pieces text) = '/' :: text
      rw [List.intercalate_cons_of_ne_nil (pieces_ne_nil text), ih]
      rfl
    · rw [pieces_cons_of_ne slash found, List.intercalate_cons_cons_left, ← found, ih]

theorem intercalate_append {front back : List (List Char)} (some_front : front ≠ [])
    (some_back : back ≠ []) :
    List.intercalate ['/'] (front ++ back) =
      List.intercalate ['/'] front ++ '/' :: List.intercalate ['/'] back := by
  induction front with
  | nil => exact absurd rfl some_front
  | cons part front ih =>
    rw [List.cons_append,
      List.intercalate_cons_of_ne_nil (List.append_ne_nil_of_right_ne_nil front some_back)]
    cases front with
    | nil => simp
    | cons next front =>
      rw [ih (List.cons_ne_nil _ _), List.intercalate_cons_cons]
      simp only [List.append_assoc]

/-- But for slashes, what is joined holds what the pieces hold. -/
theorem mem_intercalate_iff {c : Char} (other : c ≠ '/') {parts : List (List Char)} :
    c ∈ List.intercalate ['/'] parts ↔ ∃ part ∈ parts, c ∈ part := by
  induction parts with
  | nil => simp
  | cons part parts ih =>
    cases parts with
    | nil => simp
    | cons next parts =>
      rw [List.intercalate_cons_cons, List.mem_append, List.mem_append, ih, List.mem_singleton]
      simp [other]

/-- The characters of a text, but for slashes, are those of its pieces. -/
theorem exists_mem_pieces_iff {c : Char} (other : c ≠ '/') {text : List Char} :
    (∃ piece ∈ pieces text, c ∈ piece) ↔ c ∈ text := by
  rw [← mem_intercalate_iff other, intercalate_pieces]

/-- A path from the root has an empty piece first, and more. -/
theorem isAbsolute_iff {path : Path} :
    path.isAbsolute = true ↔ ∃ piece more, pieces path.text.toList = [] :: piece :: more := by
  rw [isAbsolute, beq_iff_eq]
  cases path.text.toList with
  | nil => exact ⟨nofun, nofun⟩
  | cons c text =>
    obtain ⟨piece, more, found⟩ := List.exists_cons_of_ne_nil (pieces_ne_nil text)
    rw [List.head?_cons, Option.some.injEq]
    constructor
    · rintro rfl
      exact ⟨piece, more, congrArg ([] :: ·) found⟩
    · rintro ⟨piece', more', same⟩
      by_contra other
      rw [pieces_cons_of_ne other found] at same
      cases same

/-- A piece alone does not start at the root. -/
theorem isAbsolute_of_not_mem {name : String} (plain : '/' ∉ name.toList) :
    isAbsolute ⟨name⟩ = false := by
  rw [← Bool.not_eq_true, isAbsolute_iff, pieces_of_not_mem plain]
  rintro ⟨_, _, same⟩
  exact List.cons_ne_nil _ _ (List.cons.inj same).2.symm

/-! ## Pieces that do not count -/

/-- A piece that stays where it is. -/
def Stays (piece : List Char) : Prop := piece = [] ∨ piece = ['.']

theorem counts_false_iff {piece : List Char} : counts false piece = true ↔ ¬ Stays piece := by
  simp [counts, Stays]

/-- What is dropped at the end stays where it is, and what is left ends in a piece that does not,
or in the first one. -/
theorem trim_spec (first : List Char) (more : List (List Char)) :
    ∃ kept dropped, trim (first :: more) = first :: kept ∧ more = kept ++ dropped ∧
      (∀ piece ∈ dropped, Stays piece) ∧ ∀ last, kept.getLast? = some last → ¬ Stays last := by
  refine ⟨_, (more.reverse.takeWhile fun piece => !counts false piece).reverse, rfl, ?_, ?_, ?_⟩
  · rw [← List.reverse_append, List.takeWhile_append_dropWhile, List.reverse_reverse]
  · intro piece mem
    have dropped := List.mem_takeWhile_imp (List.mem_reverse.mp mem)
    rw [Bool.not_eq_true', ← Bool.not_eq_true, counts_false_iff, not_not] at dropped
    exact dropped
  · intro last found
    have head := List.head?_dropWhile_not (fun piece => !counts false piece) more.reverse
    rw [List.getLast?_reverse] at found
    rw [found] at head
    rw [← counts_false_iff]
    simpa using head

/-! ## Components -/

/-- What a piece that counts stands for. An empty piece and a dot count at the start only: there
the one is the root, and the other the folder that the path is taken from. -/
def componentOf (piece : List Char) : Component :=
  if piece = [] then .root
  else if piece = ['.'] then .current
  else if piece = ['.', '.'] then .parent
  else .normal (String.ofList piece)

section ComponentOf

variable {piece : List Char}

theorem componentOf_of_name (goes : ¬ Stays piece) (back : piece ≠ ['.', '.']) :
    componentOf piece = .normal (String.ofList piece) := by
  obtain ⟨full, dot⟩ := not_or.mp goes
  rw [componentOf, if_neg full, if_neg dot, if_neg back]

theorem text_componentOf (full : piece ≠ []) : (componentOf piece).text = String.ofList piece := by
  rw [componentOf, if_neg full]
  split_ifs with dot back
  · rw [dot]
    rfl
  · rw [back]
    rfl
  · rfl

theorem componentOf_ne_root (full : piece ≠ []) : componentOf piece ≠ .root := by
  rw [componentOf, if_neg full]
  split_ifs <;> simp

/-- Different pieces are different components. -/
theorem componentOf_injective : Function.Injective componentOf := by
  intro a b same
  unfold componentOf at same
  split_ifs at same <;> simp_all [String.ofList_inj]

theorem component?_of_stays (stays : Stays piece) : component? piece = none := by
  rcases stays with rfl | rfl <;> rfl

theorem component?_of_not_stays (goes : ¬ Stays piece) :
    component? piece = some (componentOf piece) := by
  by_cases back : piece = ['.', '.']
  · subst back
    rfl
  · rw [componentOf_of_name goes back]
    unfold component?
    split
    · exact absurd (.inl rfl) goes
    · exact absurd (.inr rfl) goes
    · exact absurd rfl back
    · rfl

/-- **After the first piece, exactly those that count are components.** -/
theorem filterMap_component? (parts : List (List Char)) :
    parts.filterMap component? = (parts.filter (counts false)).map componentOf := by
  rw [← List.filterMap_eq_map, List.filterMap_filter]
  refine List.filterMap_congr fun part _ => ?_
  split
  · next goes => exact component?_of_not_stays (counts_false_iff.mp goes)
  · next stays =>
    rw [counts_false_iff, not_not] at stays
    exact component?_of_stays stays

theorem filterMap_component?_of_goes {parts : List (List Char)}
    (goes : ∀ part ∈ parts, ¬ Stays part) : parts.filterMap component? = parts.map componentOf := by
  rw [filterMap_component?,
    List.filter_eq_self.mpr fun part mem => counts_false_iff.mpr (goes part mem)]

end ComponentOf

/-! ## Going on by a name -/

/-- One path goes on from another by a name, up to pieces that stay where they are. -/
structure GoesOn (base path : Path) (name : List Char) : Prop where
  absolute : path.isAbsolute = base.isAbsolute
  goes : ∃ front stay stay' rest, pieces base.text.toList = front ++ stay ∧
    pieces path.text.toList = front ++ (stay' ++ name :: rest) ∧
    (∀ piece ∈ stay, Stays piece) ∧ ∀ piece ∈ stay', Stays piece

/-- The parent of a path with several components: the pieces without the last one that counts, and
without those before it that do not. -/
theorem parent?_of_trim {path parent : Path} {first name : List Char} {front : List (List Char)}
    (htrim : trim (pieces path.text.toList) = first :: (front ++ [name]))
    (found : path.parent? = some parent) :
    trim (first :: front) = [[]] ∧ parent = ⟨"/"⟩ ∨
      trim (first :: front) ≠ [[]] ∧ parent = ofPieces (trim (first :: front)) := by
  obtain ⟨second, rest, split⟩ := List.exists_cons_of_ne_nil
    (List.append_ne_nil_of_right_ne_nil front (List.cons_ne_nil name []))
  rw [parent?, htrim, split] at found
  dsimp only at found
  rw [← split, List.dropLast_concat] at found
  split at found
  · next root => exact .inl ⟨root, (Option.some.inj found).symm⟩
  · next other => exact .inr ⟨other, (Option.some.inj found).symm⟩

/-- **A path goes on from its parent** by a name that counts. -/
theorem goesOn_parent {path parent : Path} (found : path.parent? = some parent)
    (named : parent.text ≠ "") : ∃ name, ¬ Stays name ∧ GoesOn parent path name := by
  obtain ⟨first, more, hpieces⟩ := List.exists_cons_of_ne_nil (pieces_ne_nil path.text.toList)
  obtain ⟨kept, dropped, htrim, hmore, stays, counted⟩ := trim_spec first more
  rcases List.eq_nil_or_concat kept with rfl | ⟨front, name, rfl⟩
  · -- the path has one component: its parent is the empty path, or there is none
    rw [parent?, hpieces, htrim] at found
    dsimp only at found
    split at found
    · exact absurd (congrArg text (Option.some.inj found)).symm named
    · cases found
  · rw [List.concat_eq_append] at htrim hmore counted
    obtain ⟨kept', dropped', htrim', rfl, stays', _⟩ := trim_spec first front
    have path_pieces : pieces path.text.toList =
        (first :: kept') ++ (dropped' ++ name :: dropped) := by
      rw [hpieces, hmore]
      simp only [List.append_assoc, List.cons_append, List.nil_append]
    have path_absolute : path.isAbsolute = true ↔ first = [] := by
      rw [isAbsolute_iff, path_pieces]
      cases kept' <;> cases dropped' <;> simp
    refine ⟨name, counted name List.getLast?_concat, ?_⟩
    rcases parent?_of_trim (hpieces ▸ htrim) found with ⟨root, rfl⟩ | ⟨other, rfl⟩
    · rw [htrim'] at root
      obtain ⟨rfl, rfl⟩ := List.cons.inj root
      refine ⟨(path_absolute.mpr rfl).trans rfl, [[]], [[]], dropped', dropped, rfl, path_pieces, ?_,
        stays'⟩
      intro piece mem
      exact .inl (List.mem_singleton.mp mem)
    · have plain : ∀ piece ∈ first :: kept', '/' ∉ piece := fun piece mem =>
        not_mem_of_mem_pieces (path_pieces ▸ List.mem_append_left _ mem)
      have parent_pieces : pieces (ofPieces (trim (first :: (kept' ++ dropped')))).text.toList =
          first :: kept' := by
        rw [htrim', ofPieces, String.toList_ofList,
          pieces_intercalate (List.cons_ne_nil _ _) plain]
      refine ⟨?_, first :: kept', [], dropped', dropped, ?_, path_pieces, nofun, stays'⟩
      · rw [Bool.eq_iff_iff, path_absolute, isAbsolute_iff, parent_pieces]
        rw [htrim'] at other
        cases kept' with
        | nil => simpa using other
        | cons => simp
      · rw [parent_pieces, List.append_nil]

/-- **A name joined to a path goes on from it.** -/
theorem goesOn_join {base : Path} (named : base.text ≠ "") {name : String}
    (plain : '/' ∉ name.toList) : GoesOn base (base.join ⟨name⟩) name.toList := by
  have relative := isAbsolute_of_not_mem plain
  have some_char : base.text.toList ≠ [] := by
    simpa using named
  have head : ∀ rest, (base.text.toList ++ rest).head? = base.text.toList.head? := by
    intro rest
    obtain ⟨c, chars, split⟩ := List.exists_cons_of_ne_nil some_char
    rw [split, List.cons_append, List.head?_cons, List.head?_cons]
  rw [join, relative, Bool.false_or, if_neg (by simpa [String.isEmpty_iff] using named)]
  by_cases slash : base.text.toList.getLast? = some '/'
  · obtain ⟨front, split⟩ := List.getLast?_eq_some_iff.mp slash
    rw [if_pos (by rw [slash]; rfl)]
    refine ⟨?_, pieces front, [[]], [], [], ?_, ?_, fun piece mem => ?_, nofun⟩
    · rw [isAbsolute, isAbsolute, String.toList_append, head]
    · rw [split, pieces_append_slash]
      rfl
    · rw [String.toList_append, split, List.append_assoc, List.singleton_append,
        pieces_append_slash, pieces_of_not_mem plain, List.nil_append]
    · exact .inl (List.mem_singleton.mp mem)
  · rw [if_neg (by simpa using slash)]
    refine ⟨?_, pieces base.text.toList, [], [], [], (List.append_nil _).symm, ?_, nofun, nofun⟩
    · rw [isAbsolute, isAbsolute, String.append_assoc, String.toList_append, head]
    · rw [String.append_assoc, String.toList_append, String.toList_append]
      show pieces (base.text.toList ++ '/' :: name.toList) = _
      rw [pieces_append_slash, pieces_of_not_mem plain, List.nil_append]

end CallChart.Path
