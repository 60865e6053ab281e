import CallChart.Proofs.Glob.Slashes
import CallChart.Proofs.TidyPaths

/-!
# Escapes in a pattern

A backslash makes the character behind it stand for itself. For an ordinary
character that changes nothing in the reading (`Glob.readOn_escape`), so such an
escape is no more than another spelling.

The pieces of a pattern keep their backslashes, and what the pattern matches does
not hold them: before the first wildcard it begins with the pieces of the pattern
without their escapes (`Glob.text_of_unescaped`, `Glob.pieces_unescaped`).
-/

namespace CallChart.Glob

variable {branch : List Token} {previous : Option Char} {c : Char} {text front : List Char}

/-- **An escaped ordinary character is read as it is read without the escape.** -/
theorem readOn_escape {before : List Char} (ordinary : ∀ d ∈ before, IsOrdinary d)
    (itself : IsOrdinary c) (branch : List Token) (previous : Option Char) (behind : List Char) :
    readOn ⟨branch, []⟩ previous (before ++ '\\' :: c :: behind) =
      readOn ⟨branch, []⟩ previous (before ++ c :: behind) := by
  rw [readOn_ordinary ordinary, readOn_ordinary ordinary, readOn_cons, readOn_cons,
    step_ordinary itself]
  rfl

/-- A name may stand behind the text: it is empty, or ends in a slash behind a pattern. -/
def BeforeName (front : List Char) : Prop :=
  front = [] ∨ ∃ start, front = start ++ ['/'] ∧ Whole start

/-- What stands behind the text is read outside all groups. -/
theorem BeforeName.readOn_append (starts : BeforeName front) :
    ∃ branch previous, ∀ name, readOn {} none (front ++ name) = readOn ⟨branch, []⟩ previous name := by
  rcases starts with rfl | ⟨start, rfl, whole⟩
  · exact ⟨[], none, fun name => rfl⟩
  · obtain ⟨branch, -, same⟩ := whole.readOn_slash
    refine ⟨branch, some '/', fun name => ?_⟩
    rw [List.append_assoc]
    exact same name

/-- An escape in a name is no more than a spelling. -/
theorem BeforeName.readOn_escape (starts : BeforeName front) {before : List Char}
    (ordinary : ∀ d ∈ before, IsOrdinary d) (itself : IsOrdinary c) (behind : List Char) :
    readOn {} none (front ++ (before ++ '\\' :: c :: behind)) =
      readOn {} none (front ++ (before ++ c :: behind)) := by
  obtain ⟨branch, previous, same⟩ := starts.readOn_append
  rw [same, same, Glob.readOn_escape ordinary itself]

/-- A name behind the text makes it a pattern. -/
theorem BeforeName.whole_append (starts : BeforeName front) {name : List Char}
    (ordinary : ∀ d ∈ name, IsOrdinary d) : Whole (front ++ name) := by
  obtain ⟨branch, previous, same⟩ := starts.readOn_append
  have read := readOn_ordinary ordinary branch previous []
  rw [List.append_nil] at read
  exact ⟨_, (same name).trans read⟩

/-- A text without its escapes. -/
def unescaped : List Char → List Char
  | [] => []
  | c :: cs =>
    if c = '\\' then
      match cs with
      | [] => []
      | escaped :: cs => escaped :: unescaped cs
    else c :: unescaped cs

theorem unescaped_escape (c : Char) (cs : List Char) :
    unescaped ('\\' :: c :: cs) = c :: unescaped cs := rfl

theorem unescaped_cons (other : c ≠ '\\') (cs : List Char) :
    unescaped (c :: cs) = c :: unescaped cs := by
  rw [unescaped.eq_def]
  exact if_neg other

theorem length_unescaped (text : List Char) :
    (unescaped text).length ≤ text.length ∧
      ('\\' ∈ text → (unescaped text).length < text.length) := by
  fun_induction unescaped text with
  | case1 => exact ⟨Nat.le_refl _, nofun⟩
  | case2 => exact ⟨Nat.zero_le _, fun _ => Nat.zero_lt_one⟩
  | case3 c cs ih =>
    have shorter := ih.1
    refine ⟨?_, fun _ => ?_⟩ <;> simp only [List.length_cons] <;> omega
  | case4 c cs other ih =>
    refine ⟨Nat.succ_le_succ ih.1, fun mem => Nat.succ_lt_succ (ih.2 ?_)⟩
    exact (List.mem_cons.mp mem).resolve_left (Ne.symm other)

/-- **What is the same without escapes has none.** -/
theorem not_mem_of_unescaped_eq (same : unescaped text = text) : '\\' ∉ text := fun mem =>
  absurd (congrArg List.length same) (Nat.ne_of_lt ((length_unescaped text).2 mem))

/-- **The pieces of a text lose their escapes one by one.** -/
theorem pieces_unescaped (text : List Char) :
    Path.pieces (unescaped text) = (Path.pieces text).map unescaped := by
  fun_induction unescaped text with
  | case1 | case2 => rfl
  | case3 c cs ih =>
    obtain ⟨piece, more, found⟩ := List.exists_cons_of_ne_nil (Path.pieces_ne_nil cs)
    by_cases slash : c = '/'
    · subst slash
      show [] :: Path.pieces (unescaped cs) = ([] :: (Path.pieces cs).map unescaped)
      rw [ih]
    · have escaped := Path.pieces_cons_of_ne slash found
      rw [found, List.map_cons] at ih
      rw [Path.pieces_cons_of_ne slash ih, Path.pieces_cons_of_ne (by decide) escaped,
        List.map_cons, unescaped_escape]
  | case4 c cs other ih =>
    obtain ⟨piece, more, found⟩ := List.exists_cons_of_ne_nil (Path.pieces_ne_nil cs)
    by_cases slash : c = '/'
    · subst slash
      show [] :: Path.pieces (unescaped cs) = ([] :: (Path.pieces cs).map unescaped)
      rw [ih]
    · rw [found, List.map_cons] at ih
      rw [Path.pieces_cons_of_ne slash ih, Path.pieces_cons_of_ne slash found, List.map_cons,
        unescaped_cons other]

def IsFixed (text : List Char) : Prop := ∀ c ∈ text, c ≠ '?' ∧ c ≠ '*' ∧ c ≠ '[' ∧ c ≠ '\x7b'

theorem isFixed_append {back : List Char} :
    IsFixed (front ++ back) ↔ IsFixed front ∧ IsFixed back :=
  List.forall_mem_append

theorem isFixed_of_ordinary {name : List Char} (ordinary : ∀ c ∈ name, IsOrdinary c) :
    IsFixed name := by
  intro c mem
  obtain ⟨⟨question, star, bracket, brace, -⟩, -⟩ := ordinary c mem
  exact ⟨question, star, bracket, brace⟩

/-- **Before the first wildcard, characters are read without their escapes.** -/
theorem readOn_unescaped (fixed : IsFixed front) {r : Reading}
    (done : readOn ⟨branch, []⟩ previous front = .ok r) :
    ∃ last, ∀ more, readOn ⟨branch, []⟩ previous (front ++ more) =
      readOn ⟨((unescaped front).map Token.literal).reverse ++ branch, []⟩ last more := by
  fun_induction unescaped front generalizing branch previous with
  | case1 => exact ⟨previous, fun more => rfl⟩
  | case2 => cases done
  | case3 c cs ih =>
    have others := (List.forall_mem_cons.mp (List.forall_mem_cons.mp fixed).2).2
    rw [readOn_cons] at done
    obtain ⟨last, same⟩ := ih others done
    refine ⟨last, fun more => ?_⟩
    rw [List.cons_append, List.cons_append, readOn_cons]
    show readOn ⟨.literal c :: branch, []⟩ (some c) (cs ++ more) = _
    rw [same, List.map_cons, List.reverse_cons, List.append_assoc, List.singleton_append]
  | case4 c cs other ih =>
    obtain ⟨⟨question, star, bracket, brace⟩, others⟩ := List.forall_mem_cons.mp fixed
    have ordinary : IsOrdinary c := by
      refine ⟨⟨question, star, bracket, brace, other⟩, ?_⟩
      rintro rfl
      cases done
    rw [readOn_cons, step_ordinary ordinary] at done
    obtain ⟨last, same⟩ := ih others done
    refine ⟨last, fun more => ?_⟩
    rw [List.cons_append, readOn_cons, step_ordinary ordinary]
    dsimp only
    rw [same, List.map_cons, List.reverse_cons, List.append_assoc, List.singleton_append]

/-- **What a pattern matches begins with what stands before the first wildcard**, without its
escapes. -/
theorem Whole.text_of_unescaped (whole : Whole front) (fixed : IsFixed front) {rest : List Char}
    (done : readOn {} none (front ++ '/' :: rest) = .ok ⟨branch, []⟩) {text : String}
    (hit : isMatch branch.reverse text = true) :
    ∃ more, text.toList = unescaped front ++ '/' :: more := by
  obtain ⟨read, whole⟩ := whole
  obtain ⟨last, same⟩ := readOn_unescaped fixed whole
  rw [same] at done
  obtain ⟨more, slash, takes, outer⟩ :=
    begins_of_front (fun c mem => absurd mem List.not_mem_nil) (Nat.succ_pos _) done
  have tokens : branch.reverse = (unescaped front).map Token.literal ++ slash :: more.reverse := by
    have outer : branch = more ++ slash :: (((unescaped front).map Token.literal).reverse ++ []) :=
      outer
    rw [outer]
    simp
  rw [tokens] at hit
  exact text_of_literals takes hit

end CallChart.Glob
