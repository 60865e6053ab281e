import CallChart.Proofs.Glob.Steps

/-!
# The slashes of a pattern

A pattern that is read up to a slash is read on as if what stands before the
slash had been read for itself (`Glob.readOn_append_slash`): the last token then
takes a slash, or is the two stars that the pattern starts with.

So a slash that is followed by nothing or by a dot, and then by another slash,
asks for the same two slashes in whatever the pattern matches
(`Glob.text_of_isMatch`).
-/

namespace CallChart.Glob

variable {r r' : Reading} {previous : Option Char} {c : Char} {cs text : List Char}

/-! ## Reading with more behind -/

/-- A class is read the same way whatever stands behind it. -/
theorem readClass_append {reading : ClassReading} {token : Token} {rest : List Char}
    (done : readClass reading cs = .ok (token, rest)) (more : List Char) :
    readClass reading (cs ++ more) = .ok (token, rest ++ more) := by
  fun_induction readClass reading cs with
  | case1 => cases done
  | case2 reading c cs closes ranges =>
    cases done
    rw [List.cons_append, readClass, if_pos closes]
  | case3 reading c cs open_ dash ih =>
    rw [List.cons_append, readClass, if_neg open_, if_pos dash]
    exact ih done
  | case4 reading c cs open_ dash inside next ended ih =>
    rw [List.cons_append, readClass, if_neg open_, if_neg dash, if_pos inside, ended]
    exact ih done
  | case5 => cases done
  | case6 reading c cs open_ dash inside ih =>
    rw [List.cons_append, readClass, if_neg open_, if_neg dash, if_neg inside]
    exact ih done

theorem classMark_append (some_text : cs ≠ []) (more : List Char) :
    classMark (cs ++ more) = ((classMark cs).1, (classMark cs).2 ++ more) := by
  fun_cases classMark cs with
  | case1 | case2 => rfl
  | case3 _ no_bang no_hat =>
    obtain ⟨c, cs, rfl⟩ := List.exists_cons_of_ne_nil some_text
    rw [List.cons_append, classMark]
    · rintro rest ⟨⟩
      exact no_bang _ rfl
    · rintro rest ⟨⟩
      exact no_hat _ rfl

/-- Two stars with something behind them mean the same whatever stands behind that. -/
theorem stars_append {rest : List Char} (some_text : rest ≠ []) (more : List Char) :
    r.stars previous (rest ++ more) =
      ((r.stars previous rest).1, (r.stars previous rest).2 ++ more) := by
  obtain ⟨c, rest, rfl⟩ := List.exists_cons_of_ne_nil some_text
  unfold Reading.stars starsAt
  split
  · rw [List.cons_append, List.head?_cons, List.head?_cons]
    split <;> rfl
  · dsimp only [List.cons_append]
    split_ifs <;> rfl

/-- Two stars at the end leave nothing. -/
theorem stars_nil_snd (r : Reading) (previous : Option Char) : (r.stars previous []).2 = [] := by
  unfold Reading.stars starsAt
  split_ifs <;> rfl

/-- **A step is the same with a slash behind the text**, unless it is two stars at the end. -/
theorem step_append {s : Standing} (stars : c = '*' → cs ≠ ['*']) (more : List Char) :
    step r previous c cs = .ok s →
      step r previous c (cs ++ '/' :: more) = .ok { s with rest := s.rest ++ '/' :: more } := by
  fun_cases step r previous c cs with
  | case1 | case6 | case9 | case11 =>
    rintro ⟨⟩
    rfl
  | case2 rest _ after found =>
    rintro ⟨⟩
    have some_text : rest ≠ [] := by
      rintro rfl
      exact stars rfl rfl
    rw [twoStars_eq] at found
    obtain ⟨rfl, rfl⟩ := Prod.mk.inj found
    rw [List.cons_append, step_twoStars, stars_append some_text]
    simp only [List.length_append, Nat.add_lt_add_iff_right]
  | case3 cs other =>
    rintro ⟨⟩
    refine step_star fun rest same => ?_
    cases cs with
    | nil => cases same
    | cons d cs =>
      obtain ⟨rfl, -⟩ := List.cons.inj same
      exact other cs rfl
  | case4 cs _ _ found =>
    rintro ⟨⟩
    have some_text : cs ≠ [] := by
      rintro rfl
      cases found
    rw [step_class, classMark_append some_text, readClass_append found]
  | case5 | case8 | case10 => rintro ⟨⟩
  | case7 _ _ closed =>
    rintro ⟨⟩
    rw [step_close, closed]
  | case12 =>
    rintro ⟨⟩
    refine step_plain ⟨‹_›, ‹_›, ‹_›, ‹_›, ‹_›⟩ ?_ ?_ <;> assumption

/-! ## What a branch ends in -/

/-- Two stars at the start of a branch stand alone while they are the last token, and two stars at
its end are followed by nothing of it. -/
structure Settled (reading : Reading) (text : List Char) : Prop where
  alone : ∀ before, reading.branch = .recursivePrefix :: before → before = []
  ended : ∀ before, reading.branch = .recursiveSuffix :: before →
    ∀ c ∈ text.head?, c = ',' ∨ c = '\x7d'

/-- The branch, last token first, ends in one that takes a slash last, or is two stars at its
start. -/
inductive EndsInSlash : List Token → Prop
  | slash (before : List Token) : EndsInSlash (.literal '/' :: before)
  | middle (before : List Token) : EndsInSlash (.recursiveMiddle :: before)
  | start : EndsInSlash [.recursivePrefix]

/-- Two stars keep a branch settled. -/
theorem Settled.stars {rest : List Char} (settled : Settled r ('*' :: '*' :: rest)) :
    Settled { r with branch := (r.stars previous rest).1.put r.branch }
      (r.stars previous rest).2 := by
  obtain ⟨branch, groups⟩ := r
  have put : ∀ token (rest : List Char), token ≠ .recursivePrefix →
      (token = .recursiveSuffix → ∀ c ∈ rest.head?, c = ',' ∨ c = '\x7d') →
      Settled ⟨(Stars.behind token).put branch, groups⟩ rest := by
    intro token rest other ended
    rcases Stars.put_behind_cases token branch with ⟨before, rfl, same⟩ | ⟨before, rfl, -⟩ | same
    · rw [same]
      exact ⟨fun _ first => settled.alone _ first, nofun⟩
    · -- two stars at the end of a branch are not followed by a star
      rcases settled.ended before rfl '*' rfl with comma | brace
      · cases comma
      · cases brace
    · rw [same]
      refine ⟨?_, ?_⟩
      · rintro _ first
        exact absurd (List.cons.inj first).1 other
      · rintro _ first
        exact ended (List.cons.inj first).1
  unfold Reading.stars starsAt
  dsimp only
  split_ifs with starts
  · obtain rfl := List.isEmpty_iff.mp starts
    refine ⟨?_, nofun⟩
    rintro _ ⟨⟩
    rfl
  · exact ⟨nofun, nofun⟩
  · exact ⟨nofun, nofun⟩
  · split
    · exact put _ _ nofun fun _ _ => nofun
    · next c more =>
      split_ifs with slash marked
      · exact put _ _ nofun nofun
      · refine put _ _ nofun fun _ => ?_
        rintro _ ⟨⟩
        simpa using (Bool.and_eq_true_iff.mp marked).2
      · exact ⟨nofun, nofun⟩

/-- **A step keeps a branch settled.** -/
theorem Settled.step {s : Standing} (settled : Settled r (c :: cs)) :
    step r previous c cs = .ok s → Settled s.reading s.rest := by
  fun_cases Glob.step r previous c cs with
  | case1 | case3 | case6 | case11 | case12 =>
    rintro ⟨⟩
    exact ⟨by rintro _ ⟨⟩, by rintro _ ⟨⟩⟩
  | case2 rest _ after found =>
    rintro ⟨⟩
    rw [twoStars_eq] at found
    obtain ⟨rfl, rfl⟩ := Prod.mk.inj found
    exact settled.stars
  | case4 cs token rest found =>
    rintro ⟨⟩
    obtain ⟨⟨negated, ranges, rfl⟩, -⟩ := readClass_spec found
    exact ⟨by rintro _ ⟨⟩, by rintro _ ⟨⟩⟩
  | case5 | case8 | case10 => rintro ⟨⟩
  | case7 _ _ closed =>
    rintro ⟨⟩
    obtain ⟨branch, _ | ⟨group, groups⟩⟩ := r
    · cases closed
    · cases closed
      exact ⟨by rintro _ ⟨⟩, by rintro _ ⟨⟩⟩
  | case9 =>
    rintro ⟨⟩
    obtain ⟨branch, _ | ⟨group, groups⟩⟩ := r <;> exact ⟨by rintro _ ⟨⟩, by rintro _ ⟨⟩⟩

/-- Two stars at the end take in the slash behind them, or leave it to be read. -/
theorem readOn_stars_slash (settled : Settled r ['*', '*']) :
    ∃ branch, EndsInSlash branch ∧ ∀ more, readOn r previous ('*' :: '*' :: '/' :: more) =
      readOn ⟨branch, r.groups⟩ (some '/') more := by
  obtain ⟨branch, groups⟩ := r
  by_cases starts : branch = []
  · subst starts
    refine ⟨[.recursivePrefix], .start, fun more => ?_⟩
    rw [readOn_cons, step_twoStars]
    show readOn _ (if more.length < more.length + 1 then _ else _) more = _
    rw [if_pos (Nat.lt_succ_self _)]
    rfl
  have goes_on : branch.isEmpty = false := by simpa using starts
  by_cases apart : (previous != some '/' && !(Reading.inGroup ⟨branch, groups⟩ &&
      (previous == some ',' || previous == some '\x7b'))) = true
  · refine ⟨.literal '/' :: .star :: .star :: branch, .slash _, fun more => ?_⟩
    have stars : Reading.stars ⟨branch, groups⟩ previous ('/' :: more) = (.plain, '/' :: more) := by
      rw [Reading.stars, starsAt, goes_on, if_neg Bool.false_ne_true, if_pos apart]
    rw [readOn_cons, step_twoStars, stars]
    dsimp only
    rw [readOn_cons]
    rfl
  · have stars : ∀ more, Reading.stars ⟨branch, groups⟩ previous ('/' :: more) =
        (.behind .recursiveMiddle, more) := by
      intro more
      rw [Reading.stars, starsAt, goes_on, if_neg Bool.false_ne_true, if_neg apart]
      rfl
    refine ⟨(Stars.behind .recursiveMiddle).put branch, ?_, fun more => ?_⟩
    · rcases Stars.put_behind_cases .recursiveMiddle branch with
        ⟨before, rfl, same⟩ | ⟨before, rfl, -⟩ | same
      · rw [same, settled.alone before rfl]
        exact .start
      · rcases settled.ended before rfl '*' rfl with comma | brace
        · cases comma
        · cases brace
      · rw [same]
        exact .middle _
    · rw [readOn_cons, step_twoStars, stars]
      dsimp only
      rw [if_pos (by simp)]

/-- **What stands before a slash is read for itself.** -/
theorem readOn_append_slash (settled : Settled r text) (done : readOn r previous text = .ok r') :
    ∃ branch, EndsInSlash branch ∧ ∀ more, readOn r previous (text ++ '/' :: more) =
      readOn ⟨branch, r'.groups⟩ (some '/') more := by
  induction text, r, previous using readOn_induction with
  | nil r previous =>
    obtain rfl : r = r' := Except.ok.inj done
    refine ⟨.literal '/' :: r.branch, .slash _, fun more => ?_⟩
    rw [List.nil_append, readOn_cons]
    rfl
  | cons c cs r previous ih =>
    rw [readOn_cons] at done
    by_cases stars : c = '*' ∧ cs = ['*']
    · obtain ⟨rfl, rfl⟩ := stars
      rw [step_twoStars] at done
      have kept : r'.groups = r.groups := by
        dsimp only at done
        rw [stars_nil_snd] at done
        obtain rfl := Except.ok.inj done
        rfl
      rw [kept]
      exact readOn_stars_slash settled
    · cases first : step r previous c cs with
      | error =>
        rw [first] at done
        cases done
      | ok s =>
        rw [first] at done
        obtain ⟨branch, ends, same⟩ := ih s first (settled.step first) done
        refine ⟨branch, ends, fun more => ?_⟩
        rw [List.cons_append, readOn_cons,
          step_append (fun star only => stars ⟨star, only⟩) more first]
        exact same more

/-! ## Matching -/

variable {next : List UInt8 → Bool} {bs : List UInt8}

/-- Tokens are matched one after the other. -/
theorem run_append (front back : List Token) (next : List UInt8 → Bool) :
    run (front ++ back) next = run front (run back next) := by
  induction front with
  | nil => rw [List.nil_append, run.eq_def []]
  | cons token front ih => rw [List.cons_append, run, ih, run]

theorem suffix_of_takeByte {test : UInt8 → Bool} (hit : takeByte test next bs = true) :
    ∃ b rest, test b = true ∧ bs = b :: rest ∧ next rest = true := by
  cases bs with
  | nil => cases hit
  | cons b rest =>
    obtain ⟨holds, after⟩ := Bool.and_eq_true_iff.mp hit
    exact ⟨b, rest, holds, rfl, after⟩

theorem suffix_of_takeStar (hit : takeStar next bs = true) :
    ∃ rest, rest <:+ bs ∧ next rest = true := by
  induction bs with
  | nil => exact ⟨[], List.suffix_refl _, hit⟩
  | cons b bs ih =>
    rcases Bool.or_eq_true_iff.mp hit with here | later
    · exact ⟨b :: bs, List.suffix_refl _, here⟩
    · obtain ⟨rest, suffix, after⟩ := ih (Bool.and_eq_true_iff.mp later).2
      exact ⟨rest, suffix.trans (List.suffix_cons b bs), after⟩

theorem suffix_of_takeAll (hit : takeAll next bs = true) :
    ∃ rest, rest <:+ bs ∧ next rest = true := by
  induction bs with
  | nil => exact ⟨[], List.suffix_refl _, hit⟩
  | cons b bs ih =>
    rcases Bool.or_eq_true_iff.mp hit with here | later
    · exact ⟨b :: bs, List.suffix_refl _, here⟩
    · obtain ⟨rest, suffix, after⟩ := ih later
      exact ⟨rest, suffix.trans (List.suffix_cons b bs), after⟩

theorem suffix_of_takeThroughSlash (hit : takeThroughSlash next bs = true) :
    ∃ rest, slash :: rest <:+ bs ∧ next rest = true := by
  induction bs with
  | nil => cases hit
  | cons b bs ih =>
    rcases Bool.or_eq_true_iff.mp hit with here | later
    · obtain ⟨isSlash, after⟩ := Bool.and_eq_true_iff.mp here
      obtain rfl := eq_of_beq isSlash
      exact ⟨bs, List.suffix_refl _, after⟩
    · obtain ⟨rest, suffix, after⟩ := ih later
      exact ⟨rest, suffix.trans (List.suffix_cons b bs), after⟩

mutual

/-- A token leaves an end of the text for what follows. -/
theorem suffix_of_runToken : ∀ (token : Token) {next : List UInt8 → Bool} {bs : List UInt8},
    runToken token next bs = true → ∃ rest, rest <:+ bs ∧ next rest = true
  | .literal c, next, bs, hit => by
    rw [runToken, takeBytes] at hit
    split at hit
    · next rest found =>
      exact ⟨rest, ⟨_, List.isPrefixOf?_eq_some_iff_append_eq.mp found⟩, hit⟩
    · cases hit
  | .any, next, bs, hit | .byteClass _ _, next, bs, hit => by
    rw [runToken] at hit
    obtain ⟨b, rest, -, rfl, after⟩ := suffix_of_takeByte hit
    exact ⟨rest, List.suffix_cons b rest, after⟩
  | .star, next, bs, hit => by
    rw [runToken] at hit
    exact suffix_of_takeStar hit
  | .recursivePrefix, next, bs, hit => by
    simp only [runToken, Bool.or_eq_true] at hit
    rcases hit with (here | root) | through
    · exact ⟨bs, List.suffix_refl _, here⟩
    · obtain ⟨b, rest, -, rfl, after⟩ := suffix_of_takeByte root
      exact ⟨rest, List.suffix_cons b rest, after⟩
    · obtain ⟨rest, suffix, after⟩ := suffix_of_takeThroughSlash through
      exact ⟨rest, (List.suffix_cons _ rest).trans suffix, after⟩
  | .recursiveSuffix, next, bs, hit => by
    rw [runToken] at hit
    obtain ⟨b, rest, -, rfl, after⟩ := suffix_of_takeByte hit
    obtain ⟨left, suffix, last⟩ := suffix_of_takeAll after
    exact ⟨left, suffix.trans (List.suffix_cons b rest), last⟩
  | .recursiveMiddle, next, bs, hit => by
    rw [runToken] at hit
    obtain ⟨b, rest, -, rfl, after⟩ := suffix_of_takeByte hit
    rcases Bool.or_eq_true_iff.mp after with here | through
    · exact ⟨rest, List.suffix_cons b rest, here⟩
    · obtain ⟨left, suffix, last⟩ := suffix_of_takeThroughSlash through
      exact ⟨left, ((List.suffix_cons _ left).trans suffix).trans (List.suffix_cons b rest), last⟩
  | .alternates branches, next, bs, hit => by
    rw [runToken] at hit
    split at hit
    · exact ⟨bs, List.suffix_refl _, hit⟩
    · exact suffix_of_runBranches branches hit

/-- Tokens leave an end of the text for what follows. -/
theorem suffix_of_run : ∀ (tokens : List Token) {next : List UInt8 → Bool} {bs : List UInt8},
    run tokens next bs = true → ∃ rest, rest <:+ bs ∧ next rest = true
  | [], next, bs, hit => by
    rw [run] at hit
    exact ⟨bs, List.suffix_refl _, hit⟩
  | token :: tokens, next, bs, hit => by
    rw [run] at hit
    obtain ⟨rest, suffix, after⟩ := suffix_of_runToken token hit
    obtain ⟨left, suffix', last⟩ := suffix_of_run tokens after
    exact ⟨left, suffix'.trans suffix, last⟩

/-- Branches leave an end of the text for what follows. -/
theorem suffix_of_runBranches : ∀ (branches : List (List Token)) {next : List UInt8 → Bool}
    {bs : List UInt8}, runBranches branches next bs = true → ∃ rest, rest <:+ bs ∧ next rest = true
  | [], next, bs, hit => by
    rw [runBranches] at hit
    cases hit
  | branch :: branches, next, bs, hit => by
    rw [runBranches] at hit
    rcases Bool.or_eq_true_iff.mp hit with here | later
    · exact suffix_of_run branch (Bool.and_eq_true_iff.mp here).2
    · exact suffix_of_runBranches branches later

end

/-- **What follows a branch that ends in a slash is matched behind a slash**, or at the start of the
text. -/
theorem suffix_of_endsInSlash {branch : List Token} (ends : EndsInSlash branch)
    (hit : run branch.reverse next bs = true) :
    (∃ rest, slash :: rest <:+ bs ∧ next rest = true) ∨
      branch = [.recursivePrefix] ∧ next bs = true := by
  have last_taken : ∀ last before, branch = last :: before →
      ∃ rest, rest <:+ bs ∧ runToken last next rest = true := by
    rintro last before rfl
    rw [List.reverse_cons, run_append] at hit
    obtain ⟨rest, suffix, after⟩ := suffix_of_run _ hit
    rw [run, run] at after
    exact ⟨rest, suffix, after⟩
  cases ends with
  | slash before =>
    obtain ⟨rest, suffix, after⟩ := last_taken _ _ rfl
    rw [runToken, charBytes_eq, takeBytes] at after
    split at after
    · next left found =>
      rw [← List.isPrefixOf?_eq_some_iff_append_eq.mp found] at suffix
      exact .inl ⟨left, suffix, after⟩
    · cases after
  | middle before =>
    obtain ⟨rest, suffix, after⟩ := last_taken _ _ rfl
    rw [runToken] at after
    obtain ⟨b, rest, isSlash, rfl, after⟩ := suffix_of_takeByte after
    obtain rfl := eq_of_beq isSlash
    rcases Bool.or_eq_true_iff.mp after with here | through
    · exact .inl ⟨rest, suffix, here⟩
    · obtain ⟨left, suffix', last⟩ := suffix_of_takeThroughSlash through
      exact .inl ⟨left, (suffix'.trans (List.suffix_cons _ rest)).trans suffix, last⟩
  | start =>
    rw [List.reverse_singleton, run, run] at hit
    simp only [runToken, Bool.or_eq_true] at hit
    rcases hit with (here | root) | through
    · exact .inr ⟨rfl, here⟩
    · obtain ⟨b, rest, isSlash, rfl, after⟩ := suffix_of_takeByte root
      obtain rfl := eq_of_beq isSlash
      exact .inl ⟨rest, List.suffix_refl _, after⟩
    · exact .inl (suffix_of_takeThroughSlash through)

/-! ## Slashes of the text -/

/-- The byte of a slash stands for nothing else. -/
theorem eq_slash_of_mem {c : Char} (mem : slash ∈ String.utf8EncodeChar c) : c = '/' := by
  have value : ∀ n < 256, slash = UInt8.ofNat n → n = 47 := by
    intro n small same
    have same := congrArg UInt8.toNat same
    rw [UInt8.toNat_ofNat_of_lt' small] at same
    exact same.symm
  unfold String.utf8EncodeChar at mem
  dsimp only at mem
  split_ifs at mem with ascii
  · have code := value _ (by omega) (List.mem_singleton.mp mem)
    exact Char.ext (UInt32.toNat_inj.mp code)
  -- the bytes of all other characters are larger
  all_goals
    simp only [List.mem_cons, List.not_mem_nil, or_false] at mem
    exfalso
  · rcases mem with same | same <;> have code := value _ (by omega) same <;> omega
  · rcases mem with same | same | same <;> have code := value _ (by omega) same <;> omega
  · rcases mem with same | same | same | same <;> have code := value _ (by omega) same <;> omega

/-- **Where the bytes of a text hold a slash, the text does.** -/
theorem exists_slash_of_bytes {before after : List UInt8}
    (same : text.flatMap String.utf8EncodeChar = before ++ slash :: after) :
    ∃ front back, text = front ++ '/' :: back ∧ back.flatMap String.utf8EncodeChar = after := by
  induction text generalizing before with
  | nil => cases before <;> cases same
  | cons c text ih =>
    rw [List.flatMap_cons, List.append_eq_append_iff] at same
    rcases same with ⟨more, -, later⟩ | ⟨more, first, later⟩
    · obtain ⟨front, back, rfl, rest⟩ := ih later
      exact ⟨c :: front, back, rfl, rest⟩
    · -- the slash is a byte of the first character, unless nothing is left of it
      cases more with
      | nil =>
        have later : text.flatMap String.utf8EncodeChar = [] ++ slash :: after := later.symm
        obtain ⟨front, back, rfl, rest⟩ := ih later
        exact ⟨c :: front, back, rfl, rest⟩
      | cons b more =>
        obtain ⟨rfl, rest⟩ := List.cons.inj later
        obtain rfl : c = '/' := eq_slash_of_mem (first ▸ List.mem_append_right _ List.mem_cons_self)
        obtain ⟨-, rfl⟩ : before = [] ∧ more = [] := by
          cases before with
          | nil => exact ⟨rfl, (List.cons.inj first).2.symm⟩
          | cons d before => cases before <;> cases (List.cons.inj first).2
        exact ⟨[], text, rfl, rest.symm⟩

/-! ## Slashes of the pattern -/

/-- The text is a pattern of its own: no group or escape is open at its end. -/
def Whole (text : List Char) : Prop := ∃ branch, readOn {} none text = .ok ⟨branch, []⟩

variable {pattern front mid rest : List Char} {found : List Token}

theorem whole_of_tokens {pattern : String} (done : tokens pattern = .ok found) :
    Whole pattern.toList := by
  rw [tokens_eq] at done
  split at done
  · next reading read =>
    obtain ⟨branch, _ | ⟨group, groups⟩⟩ := reading
    · exact ⟨branch, read⟩
    · cases done
  · cases done

theorem settled_start (text : List Char) : Settled {} text := ⟨nofun, nofun⟩

/-- What stands behind a slash is read on from what stands before it. -/
theorem Whole.readOn_slash (whole : Whole front) :
    ∃ branch, EndsInSlash branch ∧ ∀ more, readOn {} none (front ++ '/' :: more) =
      readOn ⟨branch, []⟩ (some '/') more := by
  obtain ⟨branch, done⟩ := whole
  exact readOn_append_slash (settled_start front) done

/-- A character that stands for itself outside all groups. -/
def IsOrdinary (c : Char) : Prop := IsPlain c ∧ c ≠ '\x7d'

theorem isOrdinary_slash : IsOrdinary '/' := by
  unfold IsOrdinary IsPlain
  decide

theorem isOrdinary_dot : IsOrdinary '.' := by
  unfold IsOrdinary IsPlain
  decide

theorem step_ordinary (ordinary : IsOrdinary c) (branch : List Token) (previous : Option Char)
    (cs : List Char) :
    step ⟨branch, []⟩ previous c cs = .ok ⟨⟨.literal c :: branch, []⟩, some c, cs⟩ := by
  obtain ⟨plain, closing⟩ := ordinary
  by_cases comma : c = ','
  · subst comma
    rfl
  · exact step_plain plain closing comma

/-- **Ordinary characters are read as they are.** -/
theorem readOn_ordinary (ordinary : ∀ c ∈ mid, IsOrdinary c) (branch : List Token)
    (previous : Option Char) (more : List Char) :
    readOn ⟨branch, []⟩ previous (mid ++ more) =
      readOn ⟨(mid.map Token.literal).reverse ++ branch, []⟩ (mid.getLast?.or previous) more := by
  induction mid generalizing branch previous with
  | nil => rfl
  | cons c mid ih =>
    obtain ⟨first, others⟩ := List.forall_mem_cons.mp ordinary
    have last : (c :: mid).getLast?.or previous = mid.getLast?.or (some c) := by
      rw [List.getLast?_cons]
      cases mid.getLast? <;> rfl
    rw [List.cons_append, readOn_cons, step_ordinary first, last]
    dsimp only
    rw [ih others, List.map_cons, List.reverse_cons, List.append_assoc, List.singleton_append]

/-- A piece that ends in a slash is read before what follows. -/
theorem readOn_piece (ordinary : ∀ c ∈ mid, IsOrdinary c) (branch : List Token)
    (previous : Option Char) (more : List Char) :
    readOn ⟨branch, []⟩ previous (mid ++ '/' :: more) =
      readOn ⟨.literal '/' :: (mid.map Token.literal).reverse ++ branch, []⟩ (some '/') more := by
  have whole : ∀ c ∈ mid ++ ['/'], IsOrdinary c := by
    intro c mem
    rcases List.mem_append.mp mem with mem | mem
    · exact ordinary c mem
    · rw [List.mem_singleton.mp mem]
      exact isOrdinary_slash
  rw [List.append_cons, readOn_ordinary whole, List.getLast?_concat, List.map_append,
    List.reverse_append]
  rfl

/-- **A piece between two slashes makes no pattern fail.** -/
theorem Whole.sameOutcome (whole : Whole front) (ordinary : ∀ c ∈ mid, IsOrdinary c)
    (rest : List Char) :
    SameOutcome (readOn {} none (front ++ '/' :: rest))
      (readOn {} none (front ++ '/' :: (mid ++ '/' :: rest))) := by
  obtain ⟨branch, ends, same⟩ := whole.readOn_slash
  rw [same, same, readOn_piece ordinary]
  have some_token : branch ≠ [] := by
    rintro rfl
    cases ends
  exact readOn_alike (.of_groups (by rfl) some_token (by nofun)) _ _

/-- **A piece between two slashes of a pattern stands between slashes in what it matches**, or at
the start if the pattern starts with two stars. -/
theorem Whole.text_of_isMatch (whole : Whole front) (ordinary : ∀ c ∈ mid, IsOrdinary c)
    {branch : List Token}
    (done : readOn {} none (front ++ '/' :: (mid ++ '/' :: rest)) = .ok ⟨branch, []⟩)
    {text : String} (hit : isMatch branch.reverse text = true) :
    ∃ more, (∃ before, text.toList = before ++ '/' :: (mid ++ '/' :: more)) ∨
      branch.reverse.head? = some .recursivePrefix ∧ text.toList = mid ++ '/' :: more := by
  obtain ⟨ended, ends, same⟩ := whole.readOn_slash
  rw [same] at done
  have enough : mid.length < (mid ++ '/' :: rest).length + 1 := by
    rw [List.length_append]
    exact Nat.lt_succ_of_le (Nat.le_add_right _ _)
  obtain ⟨more, last, takes, outer⟩ :=
    begins_of_front (fun c mem => (ordinary c mem).1) enough done
  have tokens : branch.reverse =
      ended.reverse ++ (mid.map Token.literal ++ last :: more.reverse) := by
    have outer : branch = more ++ last :: ((mid.map Token.literal).reverse ++ ended) := outer
    rw [outer]
    simp
  have several : branch.reverse ≠ [.recursivePrefix] := by
    intro alone
    have length := congrArg List.length (alone.symm.trans tokens)
    simp only [List.length_append, List.length_reverse, List.length_cons, List.length_nil] at length
    cases ends <;> simp only [List.length_cons] at length <;> omega
  have taken := run_of_isMatch several hit
  rw [tokens, run_append] at taken
  rcases suffix_of_endsInSlash ends taken with ⟨left, ⟨before, bytes⟩, after⟩ | ⟨rfl, after⟩
  · obtain ⟨left, rfl⟩ := bytes_of_literals takes after
    rw [bytes_eq] at bytes
    obtain ⟨front, back, split, behind⟩ := exists_slash_of_bytes bytes.symm
    obtain ⟨more, rfl, -⟩ := Text.exists_append_of_bytes behind
    refine ⟨more, .inl ⟨front, ?_⟩⟩
    rw [split, List.append_assoc, List.singleton_append]
  · obtain ⟨left, bytes⟩ := bytes_of_literals takes after
    rw [bytes_eq] at bytes
    obtain ⟨more, split, -⟩ := Text.exists_append_of_bytes bytes
    refine ⟨more, .inr ⟨by rw [tokens]; rfl, ?_⟩⟩
    rw [split, List.append_assoc, List.singleton_append]

end CallChart.Glob
