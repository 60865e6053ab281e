import CallChart.Proofs.Glob.Front

/-!
# Reading a pattern step by step

A pattern is read in steps. `Glob.step` says once what a step does with the next
character, and `Glob.readOn` takes steps to the end of the text. No step depends
on how long the text is, so the bound of the loop says nothing (`read_eq`).
-/

namespace CallChart.Glob

/-! ## Two stars -/

/-- What two stars mean: two single ones, whole components at the start of a branch, or a token
that takes in the slash before them. -/
inductive Stars where
  | plain
  | atStart
  | behind (token : Token)

/-- What two stars mean where they stand, and what follows them. -/
def starsAt (starts inGroup : Bool) (previous : Option Char) (rest : List Char) :
    Stars × List Char :=
  if starts then
    if endsComponent rest.head? then (.atStart, rest.tail) else (.plain, rest)
  else if previous != some '/' &&
      !(inGroup && (previous == some ',' || previous == some '\x7b')) then (.plain, rest)
  else
    match rest with
    | [] => (.behind .recursiveSuffix, rest)
    | c :: more =>
      if c == '/' then (.behind .recursiveMiddle, more)
      else if inGroup && (c == ',' || c == '\x7d') then (.behind .recursiveSuffix, rest)
      else (.plain, rest)

/-- A branch, last token first, with two stars behind it. Two stars behind a slash take its place,
and add nothing to two stars that are there already. -/
def Stars.put : Stars → List Token → List Token
  | .plain, branch => .star :: .star :: branch
  | .atStart, branch => .recursivePrefix :: branch
  | .behind _, .recursivePrefix :: before => .recursivePrefix :: before
  | .behind _, .recursiveSuffix :: before => .recursiveSuffix :: before
  | .behind token, branch => token :: branch.tail

def Reading.stars (reading : Reading) (previous : Option Char) (rest : List Char) :
    Stars × List Char :=
  starsAt reading.branch.isEmpty reading.inGroup previous rest

/-- **Two stars are put behind the branch by what they mean.** -/
theorem twoStars_eq (reading : Reading) (previous : Option Char) (rest : List Char) :
    twoStars reading previous rest =
      ({ reading with branch := (reading.stars previous rest).1.put reading.branch },
        (reading.stars previous rest).2) := by
  obtain ⟨branch, groups⟩ := reading
  unfold twoStars Reading.stars starsAt
  dsimp only
  cases branch with
  | nil =>
    dsimp only [List.isEmpty_nil]
    rw [if_pos rfl]
    split <;> rfl
  | cons last before =>
    dsimp only [List.isEmpty_cons]
    rw [if_neg Bool.false_ne_true]
    -- the last token gives way unless it is itself two stars at an end
    split
    · rfl
    · cases rest with
      | nil => cases last <;> rfl
      | cons c more =>
        dsimp only
        split
        · cases last <;> rfl
        · split
          · cases last <;> rfl
          · rfl

/-- A token behind a slash takes its place, unless two stars at an end stand there. -/
theorem Stars.put_behind_cases (token : Token) (branch : List Token) :
    (∃ before, branch = .recursivePrefix :: before ∧ (behind token).put branch = branch) ∨
      (∃ before, branch = .recursiveSuffix :: before ∧ (behind token).put branch = branch) ∨
      (behind token).put branch = token :: branch.tail := by
  cases branch with
  | nil => exact .inr (.inr rfl)
  | cons last before =>
    cases last with
    | recursivePrefix => exact .inl ⟨before, rfl, rfl⟩
    | recursiveSuffix => exact .inr (.inl ⟨before, rfl, rfl⟩)
    | _ => exact .inr (.inr rfl)

theorem Stars.put_ne_nil (stars : Stars) (branch : List Token) : stars.put branch ≠ [] := by
  unfold put
  split <;> nofun

theorem length_starsAt (starts inGroup : Bool) (previous : Option Char) (rest : List Char) :
    (starsAt starts inGroup previous rest).2.length ≤ rest.length := by
  unfold starsAt
  split_ifs
  · simp
  · exact Nat.le_refl _
  · exact Nat.le_refl _
  · split
    · exact Nat.le_refl _
    · split_ifs
      · exact Nat.le_succ _
      · exact Nat.le_refl _
      · exact Nat.le_refl _

/-! ## Steps -/

structure Standing where
  reading : Reading
  previous : Option Char
  rest : List Char

/-- What a class starts with: its mark of negation, if it has one, and what follows. -/
def classMark : List Char → Bool × List Char
  | '!' :: rest => (true, rest)
  | '^' :: rest => (true, rest)
  | cs => (false, cs)

/-- Reads what the next character starts: the whole of a class, an escape or two stars, else the
character alone. The reader of patterns is this step again and again. -/
def step (reading : Reading) (previous : Option Char) (c : Char) (cs : List Char) :
    Except GlobError Standing :=
  match c with
  | '?' => .ok ⟨reading.push .any, some c, cs⟩
  | '*' =>
    match cs with
    | '*' :: rest =>
      let (reading, after) := twoStars reading previous rest
      .ok ⟨reading, if after.length < rest.length then some '/' else some '*', after⟩
    | _ => .ok ⟨reading.push .star, some c, cs⟩
  | '[' =>
    match readClass { negated := (classMark cs).1 } (classMark cs).2 with
    | .ok (token, rest) => .ok ⟨reading.push token, some ']', rest⟩
    | .error e => .error e
  | '\x7b' => .ok ⟨reading.openGroup, some c, cs⟩
  | '\x7d' =>
    match reading.closeGroup with
    | .ok reading => .ok ⟨reading, some c, cs⟩
    | .error e => .error e
  | ',' => .ok ⟨reading.comma, some c, cs⟩
  | '\\' =>
    match cs with
    | [] => .error .danglingEscape
    | escaped :: rest => .ok ⟨reading.push (.literal escaped), some escaped, rest⟩
  | _ => .ok ⟨reading.push (.literal c), some c, cs⟩

section Equations

variable {reading : Reading} {previous : Option Char} {c : Char} {cs : List Char}

theorem step_twoStars (rest : List Char) :
    step reading previous '*' ('*' :: rest) =
      let found := reading.stars previous rest
      .ok ⟨{ reading with branch := found.1.put reading.branch },
        if found.2.length < rest.length then some '/' else some '*', found.2⟩ := by
  show (match twoStars reading previous rest with
    | (next, after) => Except.ok (Standing.mk next
        (if after.length < rest.length then some '/' else some '*') after)) = _
  rw [twoStars_eq]

theorem step_star (other : ∀ rest, cs ≠ '*' :: rest) :
    step reading previous '*' cs = .ok ⟨reading.push .star, some '*', cs⟩ := by
  rw [step]
  exact other

theorem step_class (cs : List Char) :
    step reading previous '[' cs =
      match readClass { negated := (classMark cs).1 } (classMark cs).2 with
      | .ok (token, rest) => .ok ⟨reading.push token, some ']', rest⟩
      | .error e => .error e := rfl

theorem step_close (cs : List Char) :
    step reading previous '\x7d' cs =
      match reading.closeGroup with
      | .ok reading => .ok ⟨reading, some '\x7d', cs⟩
      | .error e => .error e := rfl

theorem step_plain (plain : IsPlain c) (closing : c ≠ '\x7d') (comma : c ≠ ',') :
    step reading previous c cs = .ok ⟨reading.push (.literal c), some c, cs⟩ := by
  obtain ⟨question, star, bracket, brace, backslash⟩ := plain
  rw [step] <;> assumption

end Equations

/-- A bracket starts a class. -/
theorem read_class (n : Nat) (reading : Reading) (previous : Option Char) (cs : List Char) :
    read (n + 1) reading previous ('[' :: cs) =
      match readClass { negated := (classMark cs).1 } (classMark cs).2 with
      | .ok (token, rest) => read n (reading.push token) (some ']') rest
      | .error e => .error e := by
  fun_cases classMark cs with
  | case1 | case2 => rfl
  | case3 => rw [read] <;> first | rfl | assumption

/-- **Reading goes on from a step.** -/
theorem read_succ_cons (n : Nat) (reading : Reading) (previous : Option Char) (c : Char)
    (cs : List Char) :
    read (n + 1) reading previous (c :: cs) =
      match step reading previous c cs with
      | .ok s => read n s.reading s.previous s.rest
      | .error e => .error e := by
  fun_cases step reading previous c cs with
  | case1 | case3 | case6 | case9 | case10 | case11 => simp only [read]
  | case2 _ _ _ stars => simp only [read, stars]
  | case4 _ _ _ found => simp only [read_class, found]
  | case5 _ _ failed => simp only [read_class, failed]
  | case7 _ _ closed => simp only [read, closed]
  | case8 _ _ failed => simp only [read, failed]
  | case12 => rw [read] <;> assumption

/-! ## The bound of the loop -/

/-- A class is one token, and leaves less than it was given. -/
theorem readClass_spec {reading : ClassReading} {cs rest : List Char} {token : Token}
    (done : readClass reading cs = .ok (token, rest)) :
    (∃ negated ranges, token = .byteClass negated ranges) ∧ rest.length < cs.length := by
  fun_induction readClass reading cs with
  | case1 => cases done
  | case2 reading c cs closes ranges =>
    cases done
    exact ⟨⟨_, _, rfl⟩, Nat.lt_succ_self _⟩
  | case5 => cases done
  | case3 _ _ _ _ _ ih | case4 _ _ _ _ _ _ _ _ ih | case6 _ _ _ _ _ _ ih =>
    exact ⟨(ih done).1, Nat.lt_succ_of_lt (ih done).2⟩

theorem length_classMark (cs : List Char) : (classMark cs).2.length ≤ cs.length := by
  fun_cases classMark cs with
  | case1 | case2 => exact Nat.le_succ _
  | case3 => exact Nat.le_refl _

/-- A step takes what it reads. -/
theorem length_step {reading : Reading} {previous : Option Char} {c : Char} {cs : List Char}
    {s : Standing} : step reading previous c cs = .ok s → s.rest.length ≤ cs.length := by
  fun_cases step reading previous c cs with
  | case1 | case3 | case6 | case7 | case9 | case12 =>
    rintro ⟨⟩
    exact Nat.le_refl _
  | case2 rest _ after stars =>
    rintro ⟨⟩
    rw [twoStars_eq] at stars
    obtain ⟨-, rfl⟩ := Prod.mk.inj stars
    exact Nat.le_succ_of_le (length_starsAt _ _ _ _)
  | case4 cs _ _ found =>
    rintro ⟨⟩
    exact Nat.le_trans (Nat.le_of_lt (readClass_spec found).2) (length_classMark cs)
  | case5 | case8 | case10 => nofun
  | case11 =>
    rintro ⟨⟩
    exact Nat.le_succ _

/-- The bound of the loop does not matter. -/
theorem read_of_lt {n m : Nat} {reading : Reading} {previous : Option Char} {text : List Char}
    (enough : text.length < n) (enough' : text.length < m) :
    read n reading previous text = read m reading previous text := by
  induction n generalizing m reading previous text with
  | zero => exact absurd enough (Nat.not_lt_zero _)
  | succ n ih =>
    obtain ⟨m, rfl⟩ := Nat.exists_eq_add_one_of_ne_zero (Nat.ne_zero_of_lt enough')
    cases text with
    | nil => rfl
    | cons c cs =>
      rw [read_succ_cons, read_succ_cons]
      rw [List.length_cons] at enough enough'
      cases done : step reading previous c cs with
      | error => rfl
      | ok s =>
        have shorter := length_step done
        exact ih (by omega) (by omega)

/-- Reads a text to its end. -/
def readOn (reading : Reading) (previous : Option Char) (text : List Char) :
    Except GlobError Reading :=
  read (text.length + 1) reading previous text

variable {reading : Reading} {previous : Option Char} {text : List Char}

theorem read_eq {n : Nat} (enough : text.length < n) :
    read n reading previous text = readOn reading previous text :=
  read_of_lt enough (Nat.lt_succ_self _)

@[simp]
theorem readOn_nil (reading : Reading) (previous : Option Char) :
    readOn reading previous [] = .ok reading := rfl

/-- **A text is read by a step and then the rest.** -/
theorem readOn_cons (reading : Reading) (previous : Option Char) (c : Char) (cs : List Char) :
    readOn reading previous (c :: cs) =
      match step reading previous c cs with
      | .ok s => readOn s.reading s.previous s.rest
      | .error e => .error e := by
  rw [readOn, read_succ_cons]
  cases done : step reading previous c cs with
  | error => rfl
  | ok s => exact read_eq (Nat.lt_succ_of_le (length_step done))

/-- Induction over the steps of a reading. -/
theorem readOn_induction {motive : List Char → Reading → Option Char → Prop}
    (nil : ∀ reading previous, motive [] reading previous)
    (cons : ∀ c cs reading previous,
      (∀ s, step reading previous c cs = .ok s → motive s.rest s.reading s.previous) →
      motive (c :: cs) reading previous) :
    ∀ text reading previous, motive text reading previous
  | [], reading, previous => nil reading previous
  | c :: cs, reading, previous => cons c cs reading previous fun s done =>
    have := length_step done
    readOn_induction nil cons s.rest s.reading s.previous
termination_by text => text.length
decreasing_by exact Nat.lt_succ_of_le (length_step done)

/-- The tokens of a pattern are what is read of it outside all groups. -/
theorem tokens_eq (pattern : String) :
    tokens pattern =
      match readOn {} none pattern.toList with
      | .ok reading =>
        if reading.inGroup then .error .unclosedAlternates else .ok reading.branch.reverse
      | .error e => .error e := by
  unfold tokens readOn
  dsimp only
  cases read (pattern.toList.length + 1) {} none pattern.toList with
  | error => rfl
  | ok reading => cases inside : reading.inGroup <;> simp [inside, bind, Except.bind] <;> rfl

theorem tokens_of_readOn {pattern : String} {branch : List Token}
    (done : readOn {} none pattern.toList = .ok ⟨branch, []⟩) :
    tokens pattern = .ok branch.reverse := by
  rw [tokens_eq, done]
  rfl

/-! ## Readings that fail alike -/

/-- Two readings in as many groups, of which both or neither have read a token of the branch. -/
structure Alike (r r' : Reading) : Prop where
  groups : r.groups.length = r'.groups.length
  branch : r.branch = [] ↔ r'.branch = []

variable {r r' : Reading} {c : Char} {cs : List Char}

theorem Alike.inGroup (alike : Alike r r') : r.inGroup = r'.inGroup := by
  have same : r.groups = [] ↔ r'.groups = [] := by
    rw [← List.length_eq_zero_iff, alike.groups, List.length_eq_zero_iff]
  rw [Reading.inGroup, Reading.inGroup, Bool.eq_iff_iff]
  simp [same]

/-- Readings with tokens in their branches are alike if they are in as many groups. -/
theorem Alike.of_groups (groups : r.groups.length = r'.groups.length) (some_token : r.branch ≠ [])
    (some_token' : r'.branch ≠ []) : Alike r r' :=
  ⟨groups, ⟨fun none_there => absurd none_there some_token,
    fun none_there => absurd none_there some_token'⟩⟩

theorem Alike.stars (alike : Alike r r') (previous : Option Char) (rest : List Char) :
    r.stars previous rest = r'.stars previous rest := by
  have starts : r.branch.isEmpty = r'.branch.isEmpty := by
    rw [Bool.eq_iff_iff, List.isEmpty_iff, List.isEmpty_iff]
    exact alike.branch
  rw [Reading.stars, Reading.stars, starts, alike.inGroup]

def SameStep : Except GlobError Standing → Except GlobError Standing → Prop
  | .ok s, .ok t => Alike s.reading t.reading ∧ s.previous = t.previous ∧ s.rest = t.rest
  | .error e, .error f => e = f
  | _, _ => False

/-- **What a step does is told by the groups and by where two stars end.** -/
theorem step_sameStep {previous previous' : Option Char}
    (groups : r.groups.length = r'.groups.length)
    (stars : ∀ rest, (r.stars previous rest).2 = (r'.stars previous' rest).2) (c : Char)
    (cs : List Char) : SameStep (step r previous c cs) (step r' previous' c cs) := by
  have pushed : ∀ token, Alike (r.push token) (r'.push token) := fun token =>
    .of_groups groups nofun nofun
  fun_cases step r previous c cs with
  | case1 | case11 => exact ⟨pushed _, rfl, rfl⟩
  | case2 rest _ after found =>
    rw [twoStars_eq] at found
    obtain ⟨rfl, rfl⟩ := Prod.mk.inj found
    rw [step_twoStars]
    refine ⟨.of_groups groups (Stars.put_ne_nil _ _) (Stars.put_ne_nil _ _), ?_, stars rest⟩
    rw [stars rest]
  | case3 _ other =>
    rw [step_star fun rest same => other rest same]
    exact ⟨pushed _, rfl, rfl⟩
  | case4 cs _ _ found =>
    rw [step_class, found]
    exact ⟨pushed _, rfl, rfl⟩
  | case5 cs _ failed =>
    rw [step_class, failed]
    exact rfl
  | case6 => exact ⟨⟨congrArg (· + 1) groups, Iff.rfl⟩, rfl, rfl⟩
  | case7 _ _ closed =>
    obtain ⟨branch, _ | ⟨group, outer⟩⟩ := r
    · cases closed
    obtain ⟨branch', _ | ⟨group', outer'⟩⟩ := r'
    · cases groups
    cases closed
    exact ⟨.of_groups (Nat.succ.inj groups) nofun nofun, rfl, rfl⟩
  | case8 _ _ failed =>
    obtain ⟨branch, _ | ⟨group, outer⟩⟩ := r
    · obtain ⟨branch', _ | ⟨group', outer'⟩⟩ := r'
      · cases failed
        exact rfl
      · cases groups
    · cases failed
  | case9 =>
    obtain ⟨branch, _ | ⟨group, outer⟩⟩ := r <;> obtain ⟨branch', _ | ⟨group', outer'⟩⟩ := r'
    · exact ⟨pushed _, rfl, rfl⟩
    · cases groups
    · cases groups
    · exact ⟨⟨groups, Iff.rfl⟩, rfl, rfl⟩
  | case10 => exact rfl
  | case12 =>
    rw [step_plain]
    · exact ⟨pushed _, rfl, rfl⟩
    · exact ⟨‹_›, ‹_›, ‹_›, ‹_›, ‹_›⟩
    · assumption
    · assumption

def SameOutcome : Except GlobError Reading → Except GlobError Reading → Prop
  | .ok r, .ok r' => r.inGroup = r'.inGroup
  | .error e, .error f => e = f
  | _, _ => False

theorem SameOutcome.refl : ∀ outcome : Except GlobError Reading, SameOutcome outcome outcome
  | .ok _ => rfl
  | .error _ => rfl

/-- Patterns that are read alike fail for the same reason or are both read. -/
theorem SameOutcome.tokens {p q : String}
    (same : SameOutcome (readOn {} none p.toList) (readOn {} none q.toList)) :
    (∃ e, Glob.tokens p = .error e ∧ Glob.tokens q = .error e) ∨
      ∃ branch branch', readOn {} none p.toList = .ok ⟨branch, []⟩ ∧
        readOn {} none q.toList = .ok ⟨branch', []⟩ := by
  rw [tokens_eq, tokens_eq]
  cases first : readOn {} none p.toList <;> cases second : readOn {} none q.toList <;>
    rw [first, second] at same
  case error.error e f => exact .inl ⟨e, rfl, congrArg Except.error same.symm⟩
  case error.ok | ok.error => exact same.elim
  case ok.ok r r' =>
    obtain ⟨branch, _ | ⟨group, groups⟩⟩ := r <;> obtain ⟨branch', _ | ⟨group', groups'⟩⟩ := r'
    · exact .inr ⟨branch, branch', rfl, rfl⟩
    · cases same
    · cases same
    · exact .inl ⟨.unclosedAlternates, rfl, rfl⟩

/-- Steps that are alike are followed by what goes on alike. -/
theorem SameOutcome.of_step {previous previous' : Option Char}
    (same : SameStep (step r previous c cs) (step r' previous' c cs))
    (after : ∀ s, step r previous c cs = .ok s → ∀ t, Alike s.reading t →
      SameOutcome (readOn s.reading s.previous s.rest) (readOn t s.previous s.rest)) :
    SameOutcome (readOn r previous (c :: cs)) (readOn r' previous' (c :: cs)) := by
  rw [readOn_cons, readOn_cons]
  cases first : step r previous c cs <;> cases second : step r' previous' c cs <;>
    rw [first, second] at same
  case error.error => exact same
  case error.ok | ok.error => exact same.elim
  case ok.ok s t =>
    obtain ⟨alike, previous, rest⟩ := same
    show SameOutcome (readOn s.reading s.previous s.rest) (readOn t.reading t.previous t.rest)
    rw [← previous, ← rest]
    exact after s first t.reading alike

/-- **Readings that are alike end alike.** -/
theorem readOn_alike (alike : Alike r r') (previous : Option Char) (text : List Char) :
    SameOutcome (readOn r previous text) (readOn r' previous text) := by
  induction text, r, previous using readOn_induction generalizing r' with
  | nil r previous => exact alike.inGroup
  | cons c cs r previous ih =>
    have stars : ∀ rest, (r.stars previous rest).2 = (r'.stars previous rest).2 :=
      fun rest => congrArg Prod.snd (alike.stars previous rest)
    exact .of_step (step_sameStep alike.groups stars c cs) fun s done _ => ih s done

/-- Two stars at the start end where they end after a slash. -/
theorem stars_start (last : Token) (before : List Token) (rest : List Char) :
    (Reading.stars {} none rest).2 = (Reading.stars ⟨last :: before, []⟩ (some '/') rest).2 := by
  cases rest with
  | nil => rfl
  | cons c rest =>
    by_cases slash : c = '/'
    · subst slash
      rfl
    · simp [Reading.stars, starsAt, endsComponent, slash, Reading.inGroup]

/-- **What is read at the start fails as it fails after a slash.** -/
theorem readOn_start (last : Token) (before : List Token) (text : List Char) :
    SameOutcome (readOn {} none text) (readOn ⟨last :: before, []⟩ (some '/') text) := by
  cases text with
  | nil => exact rfl
  | cons c cs =>
    exact .of_step (step_sameStep (by rfl) (stars_start last before) c cs)
      fun s _ _ alike => readOn_alike alike _ _

end CallChart.Glob
