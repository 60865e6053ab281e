import CallChart.Proofs.Json.Reading
import Mathlib.Data.List.Forall2
import Mathlib.Tactic.IntervalCases

/-!
# What is written as JSON is read back

**The law** (`json_reads_back`): whatever its names, the JSON document of a
trace is read as the same trace, so no two traces have one document.

The proof goes the two steps of the reader. The text of a value lexes to the
tokens of the value, whatever comes after it (`Lexes`): layout is blanks, and a
quoted text comes out as it went in, character by character. The tokens of a
value take the machine from the state that waits for a value to the one that has
it, whatever is open around it (`reads_tokens`).
-/

namespace CallChart

namespace Json

/-! ## Texts -/

/-- A control character is escaped by its code. -/
theorem escaped?_codeEscape {c : Char} (control : c.toNat < 32) (rest : List Char) :
    ∃ code, codeEscape c = '\\' :: code ∧ escaped? (code ++ rest) = some (c, rest) := by
  rw [← Char.ofNat_toNat c]
  generalize c.toNat = n at control
  interval_cases n <;> exact ⟨_, rfl, rfl⟩

theorem unquote_of_escaped? {input rest : List Char} {c : Char}
    (found : escaped? input = some (c, rest)) :
    unquote ('\\' :: input) = (unquote rest).map fun (chars, rest) => (c :: chars, rest) := by
  rw [unquote, if_neg (by decide), if_pos rfl]
  split
  · next refused => simp [found] at refused
  · next read =>
    obtain ⟨rfl, rfl⟩ := Prod.mk.inj (Option.some.inj (found.symm.trans read))
    rfl

/-- **A character between quotes is read as it was.** -/
theorem unquote_escapeChar (c : Char) (rest : List Char) :
    unquote (escapeChar c ++ rest) =
      (unquote rest).map fun (chars, rest) => (c :: chars, rest) := by
  unfold escapeChar
  split
  case h_8 quote backslash _ _ _ _ _ =>
    split
    · next control =>
      obtain ⟨code, escape, found⟩ := escaped?_codeEscape control rest
      rw [escape]
      exact unquote_of_escaped? found
    · next plain =>
      rw [List.singleton_append, unquote, if_neg quote, if_neg backslash, if_neg plain]
  all_goals exact unquote_of_escaped? rfl

theorem unquote_flatMap (chars rest : List Char) :
    unquote (chars.flatMap escapeChar ++ '"' :: rest) = some (chars, rest) := by
  induction chars with
  | nil => rw [List.flatMap_nil, List.nil_append, unquote, if_pos rfl]
  | cons c chars ih =>
    rw [List.flatMap_cons, List.append_assoc, unquote_escapeChar, ih]
    rfl

/-! ## Tokens -/

/-- The text gives these tokens, and what comes after it gives what it gives. Texts with this
property can be put together; a number or a word, which could run on, does not have it. -/
def Lexes (text : String) (tokens : List Token) : Prop :=
  ∀ rest, lex (text.toList ++ rest) = (lex rest).map (tokens ++ ·)

theorem Lexes.append {text text' : String} {tokens tokens' : List Token}
    (lexes : Lexes text tokens) (lexes' : Lexes text' tokens') :
    Lexes (text ++ text') (tokens ++ tokens') := by
  intro rest
  rw [String.toList_append, List.append_assoc, lexes, lexes', Option.map_map]
  congr 1
  funext more
  exact (List.append_assoc _ _ _).symm

theorem lexes_quote (value : String) : Lexes (quote value) [.text value] := by
  intro rest
  have input : (quote value).toList ++ rest =
      '"' :: (value.toList.flatMap escapeChar ++ '"' :: rest) := by
    simp [quote]
  rw [input, lex, if_neg (by decide), if_pos rfl]
  split
  · next refused => simp [unquote_flatMap] at refused
  · next read =>
    rw [unquote_flatMap] at read
    obtain ⟨rfl, rfl⟩ := Prod.mk.inj (Option.some.inj read)
    rw [String.ofList_toList]
    rfl

theorem lex_of_isBlank {c : Char} (blank : isBlank c = true) (rest : List Char) :
    lex (c :: rest) = lex rest := by
  rw [lex, if_pos blank]

theorem lex_of_mark? {c : Char} {token : Token} (found : mark? c = some token)
    (rest : List Char) : lex (c :: rest) = (lex rest).map (token :: ·) := by
  have other : isBlank c = false ∧ c ≠ '"' := by
    unfold mark? at found
    split at found <;> first | exact ⟨rfl, by decide⟩ | cases found
  rw [lex, if_neg (by simp [other.1]), if_neg other.2, found]

theorem lexes_lineEnd : Lexes "\n" [] := by
  intro rest
  exact (lex_of_isBlank rfl rest).trans Option.map_id'.symm

theorem lexes_indent (level : Nat) : Lexes (indent level) [] := by
  intro rest
  rw [indent, String.toList_ofList]
  induction 2 * level with
  | zero => exact Option.map_id'.symm
  | succ n ih => rw [List.replicate_succ, List.cons_append, lex_of_isBlank rfl, ih]

theorem lexes_colon : Lexes ": " [.colon] := by
  intro rest
  exact (lex_of_mark? rfl (' ' :: rest)).trans (by rw [lex_of_isBlank rfl]; rfl)

theorem lexes_comma : Lexes ",\n" [.comma] := by
  intro rest
  exact (lex_of_mark? rfl ('\n' :: rest)).trans (by rw [lex_of_isBlank rfl]; rfl)

theorem lexes_intercalate {texts : List String} {tokens : List (List Token)}
    (lexes : List.Forall₂ Lexes texts tokens) :
    Lexes (",\n".intercalate texts) (List.intercalate [.comma] tokens) := by
  induction lexes with
  | nil => exact fun rest => Option.map_id'.symm
  | @cons text tokens _ _ first more ih =>
    cases more with
    | nil =>
      rw [String.intercalate_singleton, List.intercalate_singleton]
      exact first
    | cons second more =>
      rw [String.intercalate_cons_cons, List.intercalate_cons_cons]
      exact (first.append lexes_comma).append ih

/-- **Brackets and what they hold lex to the marks and the tokens of the items**, on one line if
there are none and on lines of their own else. -/
theorem lexes_bracketed {left right : String} {opening closing : Token} (level : Nat)
    (lexesLeft : Lexes left [opening]) (lexesRight : Lexes right [closing])
    {texts : List String} {tokens : List (List Token)} (lexes : List.Forall₂ Lexes texts tokens) :
    Lexes (bracketed level left right texts)
      (opening :: (List.intercalate [.comma] tokens ++ [closing])) := by
  have indented : List.Forall₂ Lexes (texts.map (indent (level + 1) ++ ·)) tokens :=
    List.forall₂_map_left_iff.mpr (lexes.imp fun _ _ => (lexes_indent _).append)
  cases lexes with
  | nil => exact lexesLeft.append lexesRight
  | cons first more =>
    have inside := ((lexesLeft.append lexes_lineEnd).append (lexes_intercalate indented)).append
      lexes_lineEnd
    have whole := (inside.append (lexes_indent level)).append lexesRight
    simp only [List.append_nil, List.cons_append, List.nil_append] at whole
    exact whole

mutual

def tokens : Json → List Token
  | .text value => [.text value]
  | .list items => .listOpen :: (List.intercalate [.comma] (itemTokens items) ++ [.listClose])
  | .object fields =>
    .objectOpen :: (List.intercalate [.comma] (fieldTokens fields) ++ [.objectClose])

def itemTokens : List Json → List (List Token)
  | [] => []
  | item :: items => item.tokens :: itemTokens items

def fieldTokens : List (String × Json) → List (List Token)
  | [] => []
  | (name, value) :: fields => (.text name :: .colon :: value.tokens) :: fieldTokens fields

end

mutual

/-- **The text of a value lexes to its tokens**, at any level. -/
theorem lexes_render (level : Nat) : ∀ value : Json, Lexes (value.render level) value.tokens
  | .text value => by
    rw [render, tokens]
    exact lexes_quote value
  | .list items => by
    rw [render, tokens]
    have opening : Lexes "[" [.listOpen] := fun rest => lex_of_mark? rfl rest
    have closing : Lexes "]" [.listClose] := fun rest => lex_of_mark? rfl rest
    exact lexes_bracketed level opening closing (lexes_renderItems (level + 1) items)
  | .object fields => by
    rw [render, tokens]
    have opening : Lexes "\x7b" [.objectOpen] := fun rest => lex_of_mark? rfl rest
    have closing : Lexes "\x7d" [.objectClose] := fun rest => lex_of_mark? rfl rest
    exact lexes_bracketed level opening closing (lexes_renderFields (level + 1) fields)

theorem lexes_renderItems (level : Nat) :
    ∀ items : List Json, List.Forall₂ Lexes (renderItems level items) (itemTokens items)
  | [] => by
    rw [renderItems, itemTokens]
    exact .nil
  | item :: items => by
    rw [renderItems, itemTokens]
    exact .cons (lexes_render level item) (lexes_renderItems level items)

theorem lexes_renderFields (level : Nat) :
    ∀ fields : List (String × Json),
      List.Forall₂ Lexes (renderFields level fields) (fieldTokens fields)
  | [] => by
    rw [renderFields, fieldTokens]
    exact .nil
  | (name, value) :: fields => by
    rw [renderFields, fieldTokens]
    exact .cons (((lexes_quote name).append lexes_colon).append (lexes_render level value))
      (lexes_renderFields level fields)

end

/-! ## Values -/

mutual

/-- What is to be read of a value that was written. -/
def toValue : Json → Value
  | .text value => .text value
  | .list items => .list (itemValues items)
  | .object fields => .object (fieldValues fields)

def itemValues : List Json → List Value
  | [] => []
  | item :: items => item.toValue :: itemValues items

def fieldValues : List (String × Json) → List (String × Value)
  | [] => []
  | (name, value) :: fields => (name, value.toValue) :: fieldValues fields

end

theorem run_append {state next : State} {tokens : List Token} (more : List Token)
    (first : run state tokens = some next) : run state (tokens ++ more) = run next more := by
  rw [run] at first
  rw [run, List.foldlM_append, first]
  rfl

theorem run_cons {state next : State} {token : Token} (first : step state token = some next)
    (more : List Token) : run state (token :: more) = run next more := by
  rw [run, List.foldlM_cons, first]
  rfl

/-- The tokens complete the value, whatever is open around it. This is the statement that goes
through the induction on the value, since nested values are read with more open. -/
def Reads (tokens : List Token) (value : Value) : Prop :=
  ∀ frames, run (.value frames) tokens = some (.after value frames)

/-- The tokens are a name, a colon and the tokens of a value. -/
inductive ReadsField : List Token → String × Value → Prop
  | intro (name : String) {tokens : List Token} {value : Value} :
      Reads tokens value → ReadsField (.text name :: .colon :: tokens) (name, value)

/-- No value starts with the end of a list, so it is read after an open bracket as anywhere. -/
theorem Reads.run_listStart {tokens : List Token} {value : Value} (reads : Reads tokens value)
    (more : List Token) (frames : List Frame) :
    run (.listStart frames) (tokens ++ more) = run (.value (.list [] :: frames)) (tokens ++ more) := by
  cases tokens with
  | nil => cases reads []
  | cons token tokens =>
    cases token with
    | listClose => cases reads []
    | _ => rfl

/-- An open list or object takes parts: it waits for one, or has one and goes on after a comma or is
whole at the end. -/
structure TakesParts {α : Type} (ReadsPart : List Token → α → Prop) (closing : Token)
    (waits : List α → State) (has : List α → α → State) (whole : List α → State) : Prop where
  reads : ∀ {tokens part} done, ReadsPart tokens part →
    run (waits done) tokens = some (has done part)
  goesOn : ∀ done part, step (has done part) .comma = some (waits (done ++ [part]))
  ends : ∀ done part, step (has done part) closing = some (whole (done ++ [part]))

/-- **Parts are added one by one to those that were taken, up to the end.** -/
theorem TakesParts.run_intercalate {α : Type} {ReadsPart : List Token → α → Prop} {closing : Token}
    {waits whole : List α → State} {has : List α → α → State}
    (takes : TakesParts ReadsPart closing waits has whole) {items : List (List Token)}
    {parts : List α} (each : List.Forall₂ ReadsPart items parts) (some_item : items ≠ [])
    (done : List α) :
    run (waits done) ([Token.comma].intercalate items ++ [closing]) =
      some (whole (done ++ parts)) := by
  induction each generalizing done with
  | nil => exact absurd rfl some_item
  | @cons item part items parts first more ih =>
    have read := takes.reads done first
    cases more with
    | nil =>
      rw [List.intercalate_singleton, run_append _ read, run_cons (takes.ends done part)]
      rfl
    | cons second more =>
      have rest := ih (List.cons_ne_nil _ _) (done ++ [part])
      rw [List.append_assoc] at rest
      rw [List.intercalate_cons_cons, List.append_assoc, List.append_assoc, run_append _ read]
      exact (run_cons (takes.goesOn done part) _).trans rest

theorem takesParts_list (frames : List Frame) :
    TakesParts Reads .listClose (fun done => .value (.list done :: frames))
      (fun done value => .after value (.list done :: frames))
      (fun done => .after (.list done) frames) where
  reads _ read := read _
  goesOn _ _ := rfl
  ends _ _ := rfl

theorem takesParts_object (frames : List Frame) :
    TakesParts ReadsField .objectClose (fun done => .name done frames)
      (fun done field => .after field.2 (.object done field.1 :: frames))
      (fun done => .after (.object done) frames) where
  reads done read := by
    obtain ⟨name, read⟩ := read
    -- the name and its colon open the frame in which the value is read
    have named : run (.name done frames) [.text name, .colon] =
        some (.value (.object done name :: frames)) := rfl
    exact (run_append _ named).trans (read _)
  goesOn _ _ := rfl
  ends _ _ := rfl

theorem exists_intercalate_cons (item : List Token) (items : List (List Token)) :
    ∃ more, [Token.comma].intercalate (item :: items) = item ++ more := by
  cases items with
  | nil => exact ⟨[], by rw [List.intercalate_singleton, List.append_nil]⟩
  | cons second items => exact ⟨_, by rw [List.intercalate_cons_cons, List.append_assoc]⟩

theorem reads_list {items : List (List Token)} {values : List Value}
    (reads : List.Forall₂ Reads items values) :
    Reads (.listOpen :: ([Token.comma].intercalate items ++ [.listClose])) (.list values) := by
  intro frames
  show run (.listStart frames) _ = _
  cases reads with
  | nil => rfl
  | @cons item _ items _ first more =>
    have rest := (takesParts_list frames).run_intercalate (.cons first more)
      (List.cons_ne_nil _ _) []
    obtain ⟨tail, split⟩ := exists_intercalate_cons item items
    rw [split, List.append_assoc] at rest ⊢
    rw [first.run_listStart]
    exact rest

theorem reads_object {items : List (List Token)} {fields : List (String × Value)}
    (reads : List.Forall₂ ReadsField items fields) :
    Reads (.objectOpen :: ([Token.comma].intercalate items ++ [.objectClose])) (.object fields) := by
  intro frames
  show run (.objectStart frames) _ = _
  cases reads with
  | nil => rfl
  | @cons item _ items _ first more =>
    have rest := (takesParts_object frames).run_intercalate (.cons first more)
      (List.cons_ne_nil _ _) []
    obtain ⟨tail, split⟩ := exists_intercalate_cons item items
    rw [split] at rest ⊢
    -- a name comes first, and after it an object that was just opened is like any other
    cases first
    exact rest

mutual

/-- **The tokens of a value are read as the value.** -/
theorem reads_tokens : ∀ value : Json, Reads value.tokens value.toValue
  | .text value => by
    rw [tokens, toValue]
    exact fun frames => rfl
  | .list items => by
    rw [tokens, toValue]
    exact reads_list (reads_itemTokens items)
  | .object fields => by
    rw [tokens, toValue]
    exact reads_object (reads_fieldTokens fields)

theorem reads_itemTokens :
    ∀ items : List Json, List.Forall₂ Reads (itemTokens items) (itemValues items)
  | [] => by
    rw [itemTokens, itemValues]
    exact .nil
  | item :: items => by
    rw [itemTokens, itemValues]
    exact .cons (reads_tokens item) (reads_itemTokens items)

theorem reads_fieldTokens : ∀ fields : List (String × Json),
    List.Forall₂ ReadsField (fieldTokens fields) (fieldValues fields)
  | [] => by
    rw [fieldTokens, fieldValues]
    exact .nil
  | (name, value) :: fields => by
    rw [fieldTokens, fieldValues]
    exact .cons (.intro name (reads_tokens value)) (reads_fieldTokens fields)

end

/-- **A document is read as the value that was written.** -/
theorem read?_pretty (value : Json) : read? (value.pretty ++ "\n") = some value.toValue := by
  have lexed : lex (value.pretty ++ "\n").toList = some value.tokens := by
    rw [String.toList_append, pretty, lexes_render 0 value]
    have ended : lex "\n".toList = some [] := (lex_of_isBlank rfl []).trans (by rw [lex])
    rw [ended, Option.map_some, List.append_nil]
  rw [read?, lexed, Option.bind_eq_bind, Option.bind_some, reads_tokens value]
  rfl

theorem itemValues_eq (items : List Json) : itemValues items = items.map toValue := by
  induction items with
  | nil => rw [itemValues, List.map_nil]
  | cons item items ih => rw [itemValues, ih, List.map_cons]

end Json

theorem Call.ofValue?_toJson (call : Call) : Call.ofValue? call.toJson.toValue = some call := by
  simp only [Call.toJson, Json.toValue, Json.fieldValues]
  rfl

theorem Call.mapM_ofValue? (calls : List Call) :
    (calls.map (Json.toValue ∘ Call.toJson)).mapM Call.ofValue? = some calls := by
  induction calls with
  | nil => rfl
  | cons call calls ih =>
    rw [List.map_cons, List.mapM_cons, Function.comp_apply, Call.ofValue?_toJson, ih]
    rfl

theorem Trace.ofValue?_toJson (trace : Trace) :
    Trace.ofValue? trace.toJson.toValue = some trace := by
  simp only [Trace.toJson, Json.toValue, Json.fieldValues, Json.itemValues_eq, List.map_map]
  show ((trace.calls.map (Json.toValue ∘ Call.toJson)).mapM Call.ofValue?).bind
    (fun calls => some ⟨trace.entryOwner, calls⟩) = some trace
  rw [Call.mapM_ofValue?]
  rfl

/-- **The JSON document of a trace is read as the trace**, whatever its names and however many
calls it has. So distinct traces have distinct documents. -/
theorem json_reads_back :
    (∀ trace : Trace, Trace.ofJson? (ChartFormat.json.render trace) = some trace) ∧
      Function.Injective ChartFormat.json.render := by
  have reads : ∀ trace : Trace, Trace.ofJson? (ChartFormat.json.render trace) = some trace := by
    intro trace
    rw [Trace.ofJson?, ChartFormat.render, Json.read?_pretty, Option.bind_eq_bind, Option.bind_some,
      Trace.ofValue?_toJson]
  refine ⟨reads, fun trace other same => ?_⟩
  rw [← Option.some.injEq, ← reads trace, same, reads other]

end CallChart
