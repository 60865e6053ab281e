import CallChart.Glob.Match
import CallChart.Proofs.ByteOrder
import Mathlib.Order.Defs.LinearOrder
import Mathlib.Data.Char

/-!
# What stands before the wildcards of a pattern

The characters of a pattern before its first wildcard are read one by one as they
are. What follows may still change the slash behind them, since two stars take it
in, but no more than that: whatever groups and classes follow, the tokens of the
pattern begin with the characters and then with a token that takes a slash
(`Glob.tokens_of_front`).

Such tokens match only texts that begin with the same characters and a slash
(`Glob.front_of_isMatch`). Matching is done on bytes, and no character has the
bytes that another one begins with, so the characters can be told from them.
-/

namespace CallChart

/-! ## Bytes -/

namespace Text

open String (utf8EncodeChar)

/-- Characters are told apart by their bytes, whatever follows. -/
theorem eq_of_utf8EncodeChar_append {c d : Char} {cs ds : List UInt8}
    (same : utf8EncodeChar c ++ cs = utf8EncodeChar d ++ ds) : c = d ∧ cs = ds := by
  rcases lt_trichotomy c d with before | rfl | after
  · exact absurd (same ▸ utf8EncodeChar_append_lt before cs ds) (List.lt_irrefl _)
  · exact ⟨rfl, List.append_cancel_left same⟩
  · exact absurd (same ▸ utf8EncodeChar_append_lt after ds cs) (List.lt_irrefl _)

/-- A text whose bytes begin with those of some characters begins with the characters. -/
theorem exists_append_of_bytes {front text : List Char} {more : List UInt8}
    (same : text.flatMap utf8EncodeChar = front.flatMap utf8EncodeChar ++ more) :
    ∃ rest, text = front ++ rest ∧ rest.flatMap utf8EncodeChar = more := by
  induction front generalizing text with
  | nil => exact ⟨text, rfl, same⟩
  | cons c front ih =>
    rw [List.flatMap_cons, List.append_assoc] at same
    cases text with
    | nil =>
      have none_left := (List.append_eq_nil_iff.mp same.symm).1
      exact absurd none_left String.utf8EncodeChar_ne_nil
    | cons d text =>
      rw [List.flatMap_cons] at same
      obtain ⟨rfl, after⟩ := eq_of_utf8EncodeChar_append same
      obtain ⟨rest, rfl, left⟩ := ih after
      exact ⟨rest, rfl, left⟩

end Text

namespace Glob

/-- The bytes of an array are listed from a position on. -/
theorem toList_loop_eq (array : ByteArray) (i : Nat) (before : List UInt8) :
    ByteArray.toList.loop array i before = before.reverse ++ array.data.toList.drop i := by
  fun_induction ByteArray.toList.loop array i before with
  | case1 i before inside ih =>
    have bound : i < array.data.toList.length := by simpa using inside
    rw [ih, List.drop_eq_getElem_cons bound]
    simp [ByteArray.get!, inside]
  | case2 i before outside =>
    rw [List.drop_eq_nil_of_le (by simpa using Nat.le_of_not_lt outside)]
    simp

/-- The bytes of a text are those of its characters. -/
theorem bytes_eq (text : String) : bytes text = text.toList.flatMap String.utf8EncodeChar := by
  rw [← Text.bytes_eq, bytes, Text.bytes, ByteArray.toList, toList_loop_eq]
  rfl

theorem charBytes_eq : charBytes = String.utf8EncodeChar := by
  ext1 c
  rw [charBytes, bytes_eq, String.toList_singleton, List.flatMap_singleton]

/-! ## Reading -/

/-- A token that takes a slash before anything else. -/
def Token.takesSlash : Token → Bool
  | .literal c => c == '/'
  | .recursiveMiddle | .recursiveSuffix => true
  | _ => false

/-- A character that does not make a pattern and escapes nothing. -/
def IsPlain (c : Char) : Prop := c ≠ '?' ∧ c ≠ '*' ∧ c ≠ '[' ∧ c ≠ '\x7b' ∧ c ≠ '\\'

/-- The tokens outside all groups, last one first. -/
def outermost (branch : List Token) : List (List (List Token) × List Token) → List Token
  | [] => branch
  | (_, before) :: groups => outermost before groups

/-- What has been read outside all groups begins with `front`, last token first, and then takes a
slash. -/
def Begins (front : List Token) (reading : Reading) : Prop :=
  ∃ more slash, slash.takesSlash = true ∧
    outermost reading.branch reading.groups = more ++ slash :: front

namespace Begins

variable {front branch : List Token} {groups : List (List (List Token) × List Token)}
  {reading : Reading}

/-- A token at the end stands outside all groups or changes nothing there. -/
theorem cons (begins : Begins front ⟨branch, groups⟩) (token : Token) :
    Begins front ⟨token :: branch, groups⟩ := by
  cases groups with
  | nil =>
    obtain ⟨more, slash, takes, found⟩ := begins
    exact ⟨token :: more, slash, takes, congrArg (token :: ·) found⟩
  | cons => exact begins

theorem push (begins : Begins front reading) (token : Token) : Begins front (reading.push token) :=
  begins.cons token

/-- The last token may give way to one that takes a slash. -/
theorem replace {last token : Token} (begins : Begins front ⟨last :: branch, groups⟩)
    (takes : token.takesSlash = true) : Begins front ⟨token :: branch, groups⟩ := by
  cases groups with
  | nil =>
    obtain ⟨more, slash, takes', found⟩ := begins
    cases more with
    | nil => exact ⟨[], token, takes, congrArg (token :: ·) (List.cons.inj found).2⟩
    | cons _ more =>
      exact ⟨token :: more, slash, takes', congrArg (token :: ·) (List.cons.inj found).2⟩
  | cons => exact begins

/-- What two stars do to the last token. -/
theorem replace_last {last token : Token} (takes : token.takesSlash = true) :
    Begins front ⟨last :: branch, groups⟩ → Begins front (match last with
      | .recursivePrefix | .recursiveSuffix => ⟨last :: branch, groups⟩
      | _ => ⟨token :: branch, groups⟩) := by
  intro begins
  split
  · exact begins
  · exact begins
  · exact begins.replace takes

theorem comma (begins : Begins front reading) : Begins front reading.comma := by
  obtain ⟨branch, groups⟩ := reading
  cases groups with
  | nil => exact begins.push _
  | cons => exact begins

theorem closeGroup {closed : Reading} (begins : Begins front reading)
    (done : reading.closeGroup = .ok closed) : Begins front closed := by
  obtain ⟨branch, groups⟩ := reading
  cases groups with
  | nil => cases done
  | cons group groups =>
    obtain rfl := Except.ok.inj done
    have before : Begins front ⟨group.2, groups⟩ := begins
    exact before.cons _

/-- Two stars take in no more than the last token. -/
theorem twoStars (begins : Begins front reading) (previous : Option Char) (rest : List Char) :
    Begins front (twoStars reading previous rest).1 := by
  obtain ⟨branch, groups⟩ := reading
  have plain := (begins.push .star).push .star
  unfold Glob.twoStars
  dsimp only
  cases branch with
  | nil =>
    dsimp only
    split
    · exact begins.push _
    · exact plain
  | cons last before =>
    dsimp only
    split
    · exact plain
    · split
      · exact replace_last rfl begins
      · split
        · exact replace_last rfl begins
        · split
          · exact replace_last rfl begins
          · exact plain

end Begins

/-- **Reading on keeps what has been read outside all groups**, but for the last slash. -/
theorem begins_of_read {front : List Token} {n : Nat} {reading result : Reading}
    {previous : Option Char} {text : List Char} (begins : Begins front reading)
    (done : read n reading previous text = .ok result) : Begins front result := by
  fun_induction read n reading previous text with
  | case1 | case2 =>
    obtain rfl := Except.ok.inj done
    exact begins
  | case7 | case10 | case12 => cases done
  | case3 _ _ _ _ ih | case5 _ _ _ _ _ ih | case6 _ _ _ _ _ _ _ _ _ _ ih | case13 _ _ _ _ _ ih
  | case14 _ _ _ _ _ _ _ _ _ _ _ _ ih => exact ih (begins.push _) done
  | case4 _ reading previous rest _ _ stars _ ih =>
    refine ih ?_ done
    have kept := begins.twoStars previous rest
    rw [stars] at kept
    exact kept
  | case8 _ _ _ _ ih => exact ih begins done
  | case9 _ _ _ _ _ closed ih => exact ih (begins.closeGroup closed) done
  | case11 _ _ _ _ ih => exact ih begins.comma done

/-- A plain character outside all groups is read as it is, unless it closes a group. -/
theorem read_plain {c : Char} (plain : IsPlain c) {n : Nat} {branch : List Token}
    {previous : Option Char} {text : List Char} {result : Reading}
    (done : read (n + 1) ⟨branch, []⟩ previous (c :: text) = .ok result) :
    read n ⟨.literal c :: branch, []⟩ (some c) text = .ok result := by
  obtain ⟨question, star, bracket, brace, backslash⟩ := plain
  by_cases closing : c = '\x7d'
  · subst closing
    cases done
  by_cases comma : c = ','
  · subst comma
    exact done
  rw [read] at done <;> assumption

/-- **Plain characters before a slash are what the reading begins with.** -/
theorem begins_of_front {front : List Char} (plain : ∀ c ∈ front, IsPlain c) {n : Nat}
    {branch : List Token} {previous : Option Char} {rest : List Char} {result : Reading}
    (enough : front.length < n)
    (done : read n ⟨branch, []⟩ previous (front ++ '/' :: rest) = .ok result) :
    Begins ((front.map Token.literal).reverse ++ branch) result := by
  induction front generalizing n branch previous with
  | nil =>
    obtain ⟨n, rfl⟩ := Nat.exists_eq_add_one_of_ne_zero (Nat.ne_of_gt enough)
    refine begins_of_read ?_ (read_plain (by unfold IsPlain; decide) done)
    exact ⟨[], .literal '/', rfl, rfl⟩
  | cons c front ih =>
    obtain ⟨n, rfl⟩ := Nat.exists_eq_add_one_of_ne_zero (Nat.ne_zero_of_lt enough)
    have next := read_plain (plain c List.mem_cons_self) done
    have kept := ih (fun d mem => plain d (List.mem_cons_of_mem c mem))
      (Nat.lt_of_succ_lt_succ enough) next
    rw [List.map_cons, List.reverse_cons, List.append_assoc]
    exact kept

/-- **The tokens of a pattern begin with the plain characters before a slash**, and then take a
slash. -/
theorem tokens_of_front {pattern : String} {found : List Token} {front rest : List Char}
    (split : pattern.toList = front ++ '/' :: rest) (plain : ∀ c ∈ front, IsPlain c)
    (done : tokens pattern = .ok found) :
    ∃ slash more, slash.takesSlash = true ∧ found = front.map Token.literal ++ slash :: more := by
  unfold tokens at done
  rw [split] at done
  dsimp only at done
  cases whole : read ((front ++ '/' :: rest).length + 1) {} none (front ++ '/' :: rest) with
  | error =>
    rw [whole] at done
    cases done
  | ok reading =>
    rw [whole] at done
    obtain ⟨branch, groups⟩ := reading
    cases groups with
    | cons => cases done
    | nil =>
      have long : front.length < (front ++ '/' :: rest).length + 1 := by
        rw [List.length_append]
        omega
      obtain ⟨more, slash, takes, outer⟩ := begins_of_front plain long whole
      have outer : branch = more ++ slash :: (front.map Token.literal).reverse := by
        simpa [outermost] using outer
      obtain rfl : branch.reverse = found := Except.ok.inj done
      refine ⟨slash, more.reverse, takes, ?_⟩
      rw [outer, List.reverse_append, List.reverse_cons, List.reverse_reverse, List.append_assoc,
        List.singleton_append]

/-! ## Matching -/

/-- A character takes its bytes. -/
theorem run_literal {c : Char} {tokens : List Token} {next : List UInt8 → Bool} {text : List UInt8}
    (taken : run (.literal c :: tokens) next text = true) :
    ∃ rest, text = charBytes c ++ rest ∧ run tokens next rest = true := by
  rw [run, runToken, takeBytes] at taken
  split at taken
  · next rest found =>
    exact ⟨rest, (List.isPrefixOf?_eq_some_iff_append_eq.mp found).symm, taken⟩
  · cases taken

/-- **Tokens that begin with characters match texts that begin with them.** -/
theorem run_literals {chars : List Char} {tokens : List Token} {next : List UInt8 → Bool}
    {text : List UInt8} (taken : run (chars.map Token.literal ++ tokens) next text = true) :
    ∃ rest, text = chars.flatMap charBytes ++ rest ∧ run tokens next rest = true := by
  induction chars generalizing text with
  | nil => exact ⟨text, rfl, taken⟩
  | cons c chars ih =>
    obtain ⟨rest, rfl, after⟩ := run_literal taken
    obtain ⟨rest, rfl, last⟩ := ih after
    exact ⟨rest, by rw [List.flatMap_cons, List.append_assoc], last⟩

theorem slash_of_takeByte {next : List UInt8 → Bool} {text : List UInt8}
    (taken : takeByte (· == slash) next text = true) : ∃ rest, text = slash :: rest := by
  cases text with
  | nil => cases taken
  | cons b rest =>
    obtain ⟨isSlash, -⟩ := Bool.and_eq_true_iff.mp taken
    exact ⟨rest, by rw [eq_of_beq isSlash]⟩

/-- A token that takes a slash takes its byte. -/
theorem slash_of_takesSlash {token : Token} {tokens : List Token} {next : List UInt8 → Bool}
    {text : List UInt8} (takes : token.takesSlash = true)
    (taken : run (token :: tokens) next text = true) : ∃ rest, text = slash :: rest := by
  cases token with
  | literal c =>
    obtain rfl : c = '/' := eq_of_beq takes
    obtain ⟨rest, rfl, -⟩ := run_literal taken
    exact ⟨rest, by rw [charBytes_eq]; rfl⟩
  | recursiveMiddle => exact slash_of_takeByte taken
  | recursiveSuffix => exact slash_of_takeByte taken
  | _ => cases takes

/-- Tokens that begin with characters and take a slash match bytes that begin with both. -/
theorem bytes_of_literals {front : List Char} {token : Token} {tokens : List Token}
    (takes : token.takesSlash = true) {next : List UInt8 → Bool} {text : List UInt8}
    (taken : run (front.map Token.literal ++ token :: tokens) next text = true) :
    ∃ rest, text = (front ++ ['/']).flatMap String.utf8EncodeChar ++ rest := by
  obtain ⟨rest, rfl, after⟩ := run_literals taken
  obtain ⟨rest, rfl⟩ := slash_of_takesSlash takes after
  refine ⟨rest, ?_⟩
  rw [charBytes_eq, List.flatMap_append, List.append_assoc]
  rfl

/-- A pattern that is not two stars alone is matched token by token. -/
theorem run_of_isMatch {tokens : List Token} {text : String} (several : tokens ≠ [.recursivePrefix])
    (hit : isMatch tokens text = true) : run tokens List.isEmpty (bytes text) = true := by
  unfold isMatch at hit
  split at hit
  · exact absurd rfl several
  · exact hit

/-- **Tokens that begin with characters and take a slash match what begins with both.** -/
theorem text_of_literals {front : List Char} {token : Token} {tokens : List Token}
    (takes : token.takesSlash = true) {text : String}
    (hit : isMatch (front.map Token.literal ++ token :: tokens) text = true) :
    ∃ more, text.toList = front ++ '/' :: more := by
  have several : front.map Token.literal ++ token :: tokens ≠ [.recursivePrefix] := by
    intro alone
    -- two stars alone take no slash
    cases front with
    | nil =>
      obtain rfl := (List.cons.inj alone).1
      cases takes
    | cons => cases (List.cons.inj alone).1
  obtain ⟨left, same⟩ := bytes_of_literals takes (run_of_isMatch several hit)
  rw [bytes_eq] at same
  obtain ⟨more, whole, -⟩ := Text.exists_append_of_bytes same
  exact ⟨more, by rw [whole, List.append_assoc, List.singleton_append]⟩

/-- **What a pattern matches begins with the plain characters before a slash**, and then with a
slash. -/
theorem front_of_isMatch {pattern : String} {found : List Token} {front rest : List Char}
    (split : pattern.toList = front ++ '/' :: rest) (plain : ∀ c ∈ front, IsPlain c)
    (done : tokens pattern = .ok found) {text : String} (hit : isMatch found text = true) :
    ∃ more, text.toList = front ++ '/' :: more := by
  obtain ⟨token, tokens, takes, rfl⟩ := tokens_of_front split plain done
  exact text_of_literals takes hit

end Glob

end CallChart
