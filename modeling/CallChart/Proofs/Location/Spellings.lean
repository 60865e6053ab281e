import CallChart.Proofs.Glob.Escapes
import CallChart.Proofs.Location.Patterns

/-!
# Spellings of one pattern

A dot and a slash in front, a slash that is doubled, a dot between slashes and an
escaped ordinary character change the spelling of a pattern and not the files it
asks for. To find the folder of a pattern its pieces are tidied, but what is
matched is its spelling.
-/

namespace CallChart.Location

open Files (Disk Entry Place Kind IsProper)
open CallChart.Path (Tidy Stays spell componentOf pieces counts)

/-! ## The ways to respell a pattern -/

/-- A pattern and another spelling of it, in the parts that the two share. -/
inductive Respelling where
  /-- One more dot and slash in front. -/
  | inFront (pattern : String)
  /-- One more piece before a slash. -/
  | between (lead front mid rest : String)
  /-- An escape before a character of a piece. -/
  | escape (lead front before : String) (c : Char) (behind rest : String)

namespace Respelling

def old : Respelling → String
  | inFront pattern => pattern
  | between lead front _ rest => lead ++ (front ++ "/" ++ rest)
  | escape lead front before c behind rest =>
    lead ++ (front ++ before ++ String.singleton c ++ behind ++ "/" ++ rest)

def new : Respelling → String
  | inFront pattern => "./" ++ pattern
  | between lead front mid rest => lead ++ (front ++ "/" ++ mid ++ "/" ++ rest)
  | escape lead front before c behind rest =>
    lead ++ (front ++ before ++ "\\" ++ String.singleton c ++ behind ++ "/" ++ rest)

/-- What may stand in front of a pattern: a dot and a slash, or nothing if it has none itself. -/
def IsLead (lead body : String) : Prop := lead = "./" ∨ lead = "" ∧ withoutDot body = body

def IsWhole (text : String) : Prop := ∃ tokens, Glob.tokens text = .ok tokens

/-- The spellings ask for the same files: a piece stands between slashes outside all groups and
stays where it is, or an ordinary character of a folder's name is escaped. -/
def Fits : Respelling → Prop
  | inFront _ => True
  | between lead front mid rest =>
    IsLead lead (front ++ "/" ++ rest) ∧ IsWhole front ∧ (mid = "" ∨ mid = ".")
  | escape lead front before c behind rest =>
    IsLead lead (front ++ before ++ String.singleton c ++ behind ++ "/" ++ rest) ∧
      (front = "" ∨ ∃ whole, front = whole ++ "/" ∧ IsWhole whole) ∧
      (∀ d ∈ before.toList ++ c :: behind.toList, Glob.IsOrdinary d ∧ d ≠ '/') ∧
      ∃ part ∈ pieces rest.toList, ¬ Stays part

/-- Does the other spelling find what was found? The first dot and slash in front are taken off, and
an escape behind a wildcard is only read. -/
def keeps : Respelling → Bool
  | inFront pattern => withoutDot pattern == pattern
  | between .. => false
  | escape _ front .. => isPattern front

end Respelling

variable {disk : Disk} {parts front back : List (List Char)} {part : List Char}
  {pattern body text : String}

/-! ## The folder of any pattern -/

/-- The pieces of a pattern that count, and the root before them if it starts there. -/
def tidied (pattern : String) : List (List Char) :=
  (if Path.isAbsolute ⟨pattern⟩ then [[]] else []) ++ (pieces pattern.toList).filter (counts false)

theorem not_stays_of_mem_filter (mem : part ∈ parts.filter (counts false)) : ¬ Stays part :=
  Path.counts_false_iff.mp (List.mem_filter.mp mem).2

theorem tidy_tidied (pattern : String) : Tidy (tidied pattern) := by
  have goes : ∀ part ∈ (pieces pattern.toList).filter (counts false),
      '/' ∉ part ∧ ¬ Stays part := fun part mem =>
    ⟨Path.not_mem_of_mem_pieces (List.mem_filter.mp mem).1, not_stays_of_mem_filter mem⟩
  unfold tidied
  refine ⟨fun part mem => ?_, fun mem => ?_, fun mem => ?_⟩
  · rcases List.mem_append.mp mem with root | mem
    · split at root <;> simp_all
    · exact (goes part mem).1
  · rcases List.mem_append.mp mem with root | mem
    · split at root <;> simp_all
    · exact (goes _ mem).2 (.inr rfl)
  · split at mem
    · exact (goes _ mem).2 (.inl rfl)
    · exact (goes _ (List.mem_of_mem_tail mem)).2 (.inl rfl)

/-- A dot at the start is left out of the folder. -/
theorem fixedComponents_current (components : List Component) :
    fixedComponents (.current :: components) = fixedComponents components := by
  cases components <;> rfl

/-- A pattern starts at the root if its first piece is empty and not the only one. -/
theorem tidied_of_relative (relative : ∀ piece more, pieces pattern.toList ≠ [] :: piece :: more) :
    tidied pattern = (pieces pattern.toList).filter (counts false) := by
  have relative : ¬ Path.isAbsolute ⟨pattern⟩ = true := by
    rw [Path.isAbsolute_iff]
    rintro ⟨piece, more, found⟩
    exact relative piece more found
  rw [tidied, if_neg relative, List.nil_append]

theorem fixedComponents_components (pattern : String) :
    fixedComponents (Path.components ⟨pattern⟩) =
      fixedComponents ((tidied pattern).map componentOf) := by
  unfold Path.components
  split
  · next piece more found =>
    rw [tidied, if_pos (Path.isAbsolute_iff.mpr ⟨piece, more, found⟩), found,
      Path.filterMap_component?]
    rfl
  · next more found =>
    rw [tidied_of_relative (by rw [found]; nofun), found, fixedComponents_current,
      Path.filterMap_component?]
    rfl
  · next no_root _ =>
    rw [tidied_of_relative no_root, Path.filterMap_component?]

/-- **The folder of a pattern is spelled by the fixed ones of its tidied pieces.** -/
theorem patternFolder_eq_spell (pattern : String) :
    patternFolder pattern = spell (fixedPieces (tidied pattern)) := by
  have tidy := tidy_tidied pattern
  rw [patternFolder, fixedComponents_components, fixedComponents_map tidy.noDot, ofComponents,
    List.foldl_map]
  exact Path.foldl_join_spell [] (tidy_fixedPieces tidy)

/-- What the text of a path is like that a walk of the folder of a pattern comes by: it is tidy and
starts with that folder. -/
structure Candidate (pattern text : String) : Prop where
  tidy : Tidy (pieces text.toList)
  below : ∃ names, pieces text.toList = fixedPieces (tidied pattern) ++ names
  rooted : (pieces text.toList).head? = some [] → Path.isAbsolute ⟨pattern⟩ = true

theorem candidate_of_listed (named : disk.root.WellNamed) {path : Path}
    (listed : Listed disk (patternFolder pattern) path) : Candidate pattern path.text := by
  have tidy := tidy_fixedPieces (tidy_tidied pattern)
  rw [patternFolder_eq_spell] at listed
  obtain ⟨place, names, -, holds, rfl⟩ := (listed_spell_iff named tidy).mp listed
  have proper := holds.proper named
  have cut := holds.pieces_spell named tidy
  refine ⟨?_, ⟨_, cut⟩, fun root => ?_⟩
  · rw [cut]
    exact tidy_append_names tidy proper
  · by_contra relative
    have none_stays : ∀ part ∈ fixedPieces (tidied pattern) ++ names.map String.toList,
        ¬ Stays part := by
      intro part mem
      rcases List.mem_append.mp mem with fixed | mem
      · have counted := List.mem_of_mem_dropLast ((List.takeWhile_prefix _).subset fixed)
        rw [tidied, if_neg relative, List.nil_append] at counted
        exact not_stays_of_mem_filter counted
      · obtain ⟨name, inside, rfl⟩ := List.mem_map.mp mem
        exact not_stays_of_isProper (proper name inside)
    rw [cut] at root
    exact none_stays [] (List.mem_of_mem_head? root) (.inl rfl)

/-! ## What respelled patterns find -/

/-- A pattern and another spelling of it fail for one reason, or the other spelling finds the same
files if it keeps them, and else none. -/
def FindsAs (disk : Disk) (old new : String) (kept : Bool) : Prop :=
  (∃ cause, matchingFiles disk old = .error (.badPattern (withoutDot old) cause) ∧
    matchingFiles disk new = .error (.badPattern (withoutDot new) cause)) ∨
  ∃ found, matchingFiles disk old = .ok found ∧
    matchingFiles disk new = .ok (if kept then found else [])

variable {first second : String}

/-- **Spellings that are read to the same tokens and name one folder find the same.** -/
theorem findsAs_of_tokens (disk : Disk)
    (same : Glob.tokens (withoutDot first) = Glob.tokens (withoutDot second))
    (folder : patternFolder (withoutDot first) = patternFolder (withoutDot second)) :
    FindsAs disk first second true := by
  cases done : Glob.tokens (withoutDot first) with
  | error cause =>
    exact .inl ⟨cause, matchingFiles_of_error done, matchingFiles_of_error (same ▸ done)⟩
  | ok tokens =>
    refine .inr ⟨_, matchingFiles_of_tokens done, ?_⟩
    rw [matchingFiles_of_tokens (same ▸ done), folder]
    rfl

/-- **A spelling that matches nothing in its folder finds nothing.** -/
theorem findsAs_of_candidates (named : disk.root.WellNamed)
    (same : Glob.SameOutcome (Glob.readOn {} none (withoutDot first).toList)
      (Glob.readOn {} none (withoutDot second).toList))
    (misses : ∀ branch text, Glob.readOn {} none (withoutDot second).toList = .ok ⟨branch, []⟩ →
      Candidate (withoutDot second) text → ¬ Glob.isMatch branch.reverse text = true) :
    FindsAs disk first second false := by
  rcases same.tokens with ⟨cause, failed, failed'⟩ | ⟨branch, branch', done, done'⟩
  · exact .inl ⟨cause, matchingFiles_of_error failed, matchingFiles_of_error failed'⟩
  · refine .inr ⟨_, matchingFiles_of_tokens (Glob.tokens_of_readOn done), ?_⟩
    rw [matchingFiles_of_tokens (Glob.tokens_of_readOn done')]
    refine congrArg Except.ok (List.filter_eq_nil_iff.mpr fun path mem => ?_)
    exact misses branch' path.text done' (candidate_of_listed named
      ((mem_filesBelow_iff named).mp mem))

/-! ## A dot in front -/

theorem withoutDot_append (body : String) : withoutDot ("./" ++ body) = body := by
  rw [withoutDot, String.toList_append]
  exact String.ofList_toList

/-- A dot and a slash are taken off a pattern only if it starts with them. -/
theorem withoutDot_eq_self_iff :
    withoutDot pattern = pattern ↔ ∀ rest, pattern.toList ≠ '.' :: '/' :: rest := by
  unfold withoutDot
  split
  · next rest found =>
    refine ⟨fun same => ?_, fun other => absurd found (other rest)⟩
    have length := congrArg (fun text => text.toList.length) same
    simp only [found, String.toList_ofList, List.length_cons] at length
    omega
  · next other => exact ⟨fun _ => other, fun _ => rfl⟩

/-- **A dot and a slash that stay in front ask for them in what is matched.** -/
theorem findsAs_dot (named : disk.root.WellNamed) (body : String) :
    FindsAs disk ("./" ++ body) ("./" ++ ("./" ++ body)) false := by
  have dotted : ("./" ++ body).toList = '.' :: '/' :: body.toList := by
    rw [String.toList_append]
    rfl
  refine findsAs_of_candidates named ?_ ?_ <;> simp only [withoutDot_append]
  · rw [dotted]
    exact Glob.readOn_start (.literal '/') [.literal '.'] body.toList
  · intro branch text done candidate hit
    have plain : ∀ c ∈ ['.'], Glob.IsPlain c :=
      List.forall_mem_singleton.mpr Glob.isOrdinary_dot.1
    obtain ⟨more, found⟩ := Glob.front_of_isMatch dotted plain (Glob.tokens_of_readOn done) hit
    refine candidate.tidy.noDot ?_
    rw [found, Path.pieces_append_slash]
    exact List.mem_cons_self

/-! ## A piece that stays -/

/-- A pattern from the root does not start with two stars. -/
theorem head_ne_of_isAbsolute (absolute : Path.isAbsolute ⟨body⟩ = true)
    {branch : List Glob.Token} (done : Glob.readOn {} none body.toList = .ok ⟨branch, []⟩) :
    branch.reverse.head? ≠ some .recursivePrefix := by
  obtain ⟨c, rest, found⟩ : ∃ c rest, body.toList = c :: rest := by
    cases chars : body.toList with
    | nil => simp [Path.isAbsolute, chars] at absolute
    | cons c rest => exact ⟨c, rest, rfl⟩
  obtain rfl : c = '/' := by simpa [Path.isAbsolute, found] using absolute
  obtain ⟨slash, more, takes, tokens⟩ :=
    Glob.tokens_of_front (show _ = [] ++ '/' :: rest from found) (List.forall_mem_nil _)
      (Glob.tokens_of_readOn done)
  rw [tokens]
  rintro ⟨⟩
  cases takes

theorem isOrdinary_of_stays (stays : Stays part) : ∀ c ∈ part, Glob.IsOrdinary c := by
  rcases stays with rfl | rfl
  · nofun
  · exact List.forall_mem_singleton.mpr Glob.isOrdinary_dot

/-- **A piece that stays, between two slashes, asks for itself in what is matched.** -/
theorem misses_between {front mid rest : List Char} (whole : Glob.Whole front)
    (stays : Stays mid) (split : body.toList = front ++ '/' :: (mid ++ '/' :: rest))
    {branch : List Glob.Token} (done : Glob.readOn {} none body.toList = .ok ⟨branch, []⟩)
    (candidate : Candidate body text) : ¬ Glob.isMatch branch.reverse text = true := by
  intro hit
  have unslashed : '/' ∉ mid := by rcases stays with rfl | rfl <;> decide
  obtain ⟨more, ⟨before, found⟩ | ⟨starts, found⟩⟩ :=
    whole.text_of_isMatch (isOrdinary_of_stays stays) (split ▸ done) hit
  · -- the piece is not the first one of what is matched
    have mem : mid ∈ (pieces text.toList).tail := by
      obtain ⟨first, others, cut⟩ := List.exists_cons_of_ne_nil (Path.pieces_ne_nil before)
      rw [found, Path.pieces_append_slash, Path.pieces_append_slash, Path.pieces_of_not_mem unslashed,
        cut, List.cons_append, List.tail_cons]
      exact List.mem_append_right _ List.mem_cons_self
    exact candidate.tidy.tail_not_stays mem stays
  · have cut : pieces text.toList = mid :: pieces more := by
      rw [found, Path.pieces_append_slash, Path.pieces_of_not_mem unslashed]
      rfl
    rcases stays with rfl | rfl
    · have absolute := candidate.rooted (by rw [cut]; rfl)
      exact head_ne_of_isAbsolute absolute done starts
    · exact candidate.tidy.noDot (cut ▸ List.mem_cons_self)

/-! ## An escaped character -/

theorem isPattern_eq_false_iff {text : String} :
    isPattern text = false ↔ Glob.IsFixed text.toList := by
  rw [isPattern, List.any_eq_false]
  refine forall₂_congr fun c _ => ?_
  simp only [Bool.or_eq_true, beq_iff_eq, not_or]
  tauto

/-- The pieces of a text without wildcards have none. -/
theorem isFixed_of_mem_pieces {text part : List Char} (fixed : Glob.IsFixed text)
    (mem : part ∈ pieces text) : Glob.IsFixed part := by
  intro c inside
  refine fixed c ((Path.exists_mem_pieces_iff ?_).mp ⟨part, mem, inside⟩)
  rintro rfl
  exact Path.not_mem_of_mem_pieces mem inside

/-- The pieces before a slash that count, and the root before them if they start there. -/
def tidiedFront (front : List Char) : List (List Char) :=
  (if (pieces front).head? = some [] then [[]] else []) ++ (pieces front).filter (counts false)

/-- **A pattern is tidied before a slash and behind it.** -/
theorem tidied_of_slash {front rest : List Char} (split : body.toList = front ++ '/' :: rest) :
    tidied body = tidiedFront front ++ (pieces rest).filter (counts false) := by
  have root : Path.isAbsolute ⟨body⟩ = true ↔ (pieces front).head? = some [] := by
    rw [Path.isAbsolute_iff, split, Path.pieces_append_slash]
    obtain ⟨first, others, cut⟩ := List.exists_cons_of_ne_nil (Path.pieces_ne_nil front)
    obtain ⟨next, more, cut'⟩ := List.exists_cons_of_ne_nil (Path.pieces_ne_nil rest)
    rw [cut, cut', List.head?_cons, Option.some.injEq]
    constructor
    · rintro ⟨_, _, same⟩
      exact (List.cons.inj same).1
    · rintro rfl
      cases others with
      | nil => exact ⟨next, more, rfl⟩
      | cons other others => exact ⟨other, others ++ next :: more, rfl⟩
  rw [tidied, tidiedFront, if_congr root rfl rfl, split, Path.pieces_append_slash,
    List.filter_append, List.append_assoc]

/-- A piece that stays has no escapes. -/
theorem stays_unescaped (stays : Stays part) : Stays (Glob.unescaped part) := by
  rcases stays with rfl | rfl
  · exact .inl rfl
  · exact .inr rfl

/-- Nothing is tidied where the pieces are tidy without their escapes. -/
theorem tidiedFront_of_unescaped {front : List Char}
    (tidy : Tidy ((pieces front).map Glob.unescaped)) : tidiedFront front = pieces front := by
  obtain ⟨first, others, cut⟩ := List.exists_cons_of_ne_nil (Path.pieces_ne_nil front)
  rw [cut, List.map_cons] at tidy
  have others_count : others.filter (counts false) = others := by
    refine List.filter_eq_self.mpr fun part mem => Path.counts_false_iff.mpr fun stays => ?_
    exact tidy.tail_not_stays (List.mem_map_of_mem mem) (stays_unescaped stays)
  rw [tidiedFront, cut, List.head?_cons]
  by_cases root : first = []
  · subst root
    rw [if_pos rfl, List.filter_cons_of_neg (by decide), others_count]
    rfl
  · have counted : counts false first = true := by
      rw [Path.counts_false_iff]
      rintro (empty | rfl)
      · exact root empty
      · exact tidy.noDot List.mem_cons_self
    rw [if_neg (by simpa using root), List.filter_cons_of_pos counted, others_count]
    rfl

/-- Pieces before the last one are fixed as far as no pattern is among them. -/
theorem fixedPieces_append_of_fixed (some_back : back ≠ [])
    (fixed : ∀ part ∈ front, isPattern (String.ofList part) = false) :
    ∃ others, fixedPieces (front ++ back) = front ++ others := by
  rw [fixedPieces, List.dropLast_append_of_ne_nil some_back, List.takeWhile_append_of_pos]
  · exact ⟨_, rfl⟩
  · intro part mem
    rw [fixed part mem]
    rfl

/-- What stands behind a piece that is a pattern does not matter for the fixed pieces. -/
theorem fixedPieces_append_of_pattern (some_back : back ≠ []) (mem : part ∈ front)
    (wild : isPattern (String.ofList part) = true) :
    fixedPieces (front ++ back) = front.takeWhile fun part => !isPattern (String.ofList part) := by
  rw [fixedPieces, List.dropLast_append_of_ne_nil some_back, List.takeWhile_append, if_neg]
  intro all
  have whole := (List.takeWhile_prefix _).eq_of_length all
  have fixed := List.takeWhile_eq_self_iff.mp whole part mem
  rw [wild] at fixed
  cases fixed

/-- A wildcard stands in a piece that counts. -/
theorem exists_pattern_of_not_isFixed {front : List Char} (wild : ¬ Glob.IsFixed front) :
    ∃ part ∈ tidiedFront front, isPattern (String.ofList part) = true := by
  obtain ⟨c, mem, wildcard⟩ := not_forall₂.mp wild
  have other : c ≠ '/' := by
    rintro rfl
    exact wildcard (by decide)
  obtain ⟨part, piece, inside⟩ := (Path.exists_mem_pieces_iff other).mpr mem
  have goes : ¬ Stays part := by
    rintro (rfl | rfl)
    · cases inside
    · rw [List.mem_singleton.mp inside] at wildcard
      exact wildcard (by decide)
  refine ⟨part, List.mem_append_right _ (List.mem_filter.mpr ⟨piece, ?_⟩), ?_⟩
  · exact Path.counts_false_iff.mpr goes
  · by_contra fixed
    rw [Bool.not_eq_true, isPattern_eq_false_iff, String.toList_ofList] at fixed
    exact wildcard (fixed c inside)

/-- **Names behind a wildcard do not matter for the folder.** -/
theorem patternFolder_of_not_isFixed {front name name' rest : List Char} {other : String}
    (wild : ¬ Glob.IsFixed front) (later : (pieces rest).filter (counts false) ≠ [])
    (split : body.toList = front ++ '/' :: (name ++ '/' :: rest))
    (split' : other.toList = front ++ '/' :: (name' ++ '/' :: rest)) :
    patternFolder body = patternFolder other := by
  obtain ⟨part, mem, wild⟩ := exists_pattern_of_not_isFixed wild
  have some_left : ∀ name, (pieces (name ++ '/' :: rest)).filter (counts false) ≠ [] := by
    intro name
    rw [Path.pieces_append_slash, List.filter_append]
    exact List.append_ne_nil_of_right_ne_nil _ later
  rw [patternFolder_eq_spell, patternFolder_eq_spell, tidied_of_slash split,
    tidied_of_slash split', fixedPieces_append_of_pattern (some_left name) mem wild,
    fixedPieces_append_of_pattern (some_left name') mem wild]

/-- **An escape before the first wildcard asks for a folder that what is matched is not in.** -/
theorem misses_escape {front rest : List Char} (whole : Glob.Whole front)
    (fixed : Glob.IsFixed front) (escape : '\\' ∈ front)
    (later : (pieces rest).filter (counts false) ≠ []) (split : body.toList = front ++ '/' :: rest)
    {branch : List Glob.Token} (done : Glob.readOn {} none body.toList = .ok ⟨branch, []⟩)
    (candidate : Candidate body text) : ¬ Glob.isMatch branch.reverse text = true := by
  intro hit
  obtain ⟨more, found⟩ := whole.text_of_unescaped fixed (split ▸ done) hit
  have cut : pieces text.toList = (pieces front).map Glob.unescaped ++ pieces more := by
    rw [found, Path.pieces_append_slash, Glob.pieces_unescaped]
  have tidy : tidiedFront front = pieces front := tidiedFront_of_unescaped (cut ▸ candidate.tidy).left
  obtain ⟨others, begins⟩ : ∃ others, fixedPieces (tidied body) = pieces front ++ others := by
    rw [tidied_of_slash split, tidy]
    refine fixedPieces_append_of_fixed later fun part mem => ?_
    rw [isPattern_eq_false_iff, String.toList_ofList]
    exact isFixed_of_mem_pieces fixed mem
  obtain ⟨names, below⟩ := candidate.below
  have same : (pieces front).map Glob.unescaped = pieces front := by
    rw [cut, begins, List.append_assoc] at below
    exact (List.append_inj below (List.length_map _)).1
  obtain ⟨part, mem, inside⟩ : ∃ part ∈ pieces front, '\\' ∈ part := by
    exact (Path.exists_mem_pieces_iff (by decide)).mpr escape
  have unescaped := List.map_inj_left.mp (same.trans (List.map_id _).symm) part mem
  exact Glob.not_mem_of_unescaped_eq unescaped inside

/-! ## Respelled patterns -/

namespace Respelling

variable {lead : String}

theorem IsLead.withoutDot_eq (leads : IsLead lead body) : withoutDot (lead ++ body) = body := by
  rcases leads with rfl | ⟨rfl, undotted⟩
  · exact withoutDot_append body
  · rw [String.empty_append, undotted]

/-- What a pattern starts with tells whether a dot and a slash are taken off. -/
theorem IsLead.congr {other : String} (leads : IsLead lead body) {start rest rest' : List Char}
    (split : body.toList = start ++ rest) (split' : other.toList = start ++ rest')
    (long : ∀ more, start ++ rest' = '.' :: '/' :: more → 2 ≤ start.length) :
    IsLead lead other := by
  refine leads.imp_right fun ⟨none_there, undotted⟩ => ⟨none_there, ?_⟩
  rw [withoutDot_eq_self_iff] at undotted ⊢
  intro more dotted
  rw [split'] at dotted
  obtain ⟨a, b, start, rfl⟩ : ∃ a b more, start = a :: b :: more := by
    match start, long more dotted with
    | a :: b :: more, _ => exact ⟨a, b, more, rfl⟩
  obtain ⟨rfl, same⟩ := List.cons.inj dotted
  obtain ⟨rfl, -⟩ := List.cons.inj same
  exact undotted _ split

theorem findsAs_between (named : disk.root.WellNamed) {lead front mid rest : String}
    (fits : (between lead front mid rest).Fits) :
    FindsAs disk (between lead front mid rest).old (between lead front mid rest).new false := by
  obtain ⟨leads, ⟨tokens, compiles⟩, stays⟩ := fits
  have whole := Glob.whole_of_tokens compiles
  have stays : Stays mid.toList := stays.imp (congrArg String.toList) (congrArg String.toList)
  have split : (front ++ "/" ++ rest).toList = front.toList ++ '/' :: rest.toList := by simp
  have split' : (front ++ "/" ++ mid ++ "/" ++ rest).toList =
      front.toList ++ '/' :: (mid.toList ++ '/' :: rest.toList) := by simp
  have leads' : IsLead lead (front ++ "/" ++ mid ++ "/" ++ rest) := by
    refine leads.congr (split.trans (List.append_cons _ _ _))
      (split'.trans (List.append_cons _ _ _)) fun more dotted => ?_
    cases chars : front.toList with
    | nil =>
      rw [chars] at dotted
      cases dotted
    | cons => simp
  have undotted := leads.withoutDot_eq
  have undotted' := leads'.withoutDot_eq
  rw [old, new]
  refine findsAs_of_candidates named ?_ ?_ <;> simp only [undotted, undotted']
  · rw [split, split']
    exact whole.sameOutcome (isOrdinary_of_stays stays) rest.toList
  · exact fun branch text done candidate => misses_between whole stays split' done candidate

theorem findsAs_escape (named : disk.root.WellNamed) {lead front before : String} {c : Char}
    {behind rest : String} (fits : (escape lead front before c behind rest).Fits) :
    FindsAs disk (escape lead front before c behind rest).old
      (escape lead front before c behind rest).new (isPattern front) := by
  obtain ⟨leads, starts, name, later⟩ := fits
  have starts : Glob.BeforeName front.toList := by
    rcases starts with rfl | ⟨whole, rfl, tokens, compiles⟩
    · exact .inl rfl
    · exact .inr ⟨whole.toList, by simp, Glob.whole_of_tokens compiles⟩
  have split : (front ++ before ++ String.singleton c ++ behind ++ "/" ++ rest).toList =
      front.toList ++ (before.toList ++ c :: (behind.toList ++ '/' :: rest.toList)) := by simp
  have split' :
      (front ++ before ++ "\\" ++ String.singleton c ++ behind ++ "/" ++ rest).toList =
        front.toList ++ (before.toList ++ '\\' :: c :: (behind.toList ++ '/' :: rest.toList)) := by
    simp
  have leads' :
      IsLead lead (front ++ before ++ "\\" ++ String.singleton c ++ behind ++ "/" ++ rest) := by
    refine leads.congr (split.trans (List.append_assoc _ _ _).symm)
      (split'.trans (List.append_assoc _ _ _).symm) fun more dotted => ?_
    match chars : front.toList ++ before.toList with
    | [] | [_] =>
      rw [chars] at dotted
      cases dotted
    | _ :: _ :: _ => simp
  have undotted := leads.withoutDot_eq
  have undotted' := leads'.withoutDot_eq
  have ordinary : ∀ d ∈ before.toList, Glob.IsOrdinary d := fun d mem =>
    (name d (List.mem_append_left _ mem)).1
  have itself : Glob.IsOrdinary c := (name c (by simp)).1
  have later : (pieces rest.toList).filter (counts false) ≠ [] := by
    obtain ⟨part, mem, goes⟩ := later
    exact List.ne_nil_of_mem (List.mem_filter.mpr ⟨mem, Path.counts_false_iff.mpr goes⟩)
  have same := starts.readOn_escape ordinary itself (behind.toList ++ '/' :: rest.toList)
  rw [old, new]
  cases wild : isPattern front with
  | true =>
    refine findsAs_of_tokens disk ?_ ?_ <;> simp only [undotted, undotted']
    · rw [Glob.tokens_eq, Glob.tokens_eq, split, split', same]
    · have wild : ¬ Glob.IsFixed front.toList := by simp [← isPattern_eq_false_iff, wild]
      rcases starts with none_there | ⟨start, found, -⟩
      · rw [none_there] at wild
        exact absurd (fun c mem => absurd mem List.not_mem_nil) wild
      · have slash : Glob.IsFixed ['/'] :=
          Glob.isFixed_of_ordinary (List.forall_mem_singleton.mpr Glob.isOrdinary_slash)
        have wild : ¬ Glob.IsFixed start := fun fixed =>
          wild (found ▸ Glob.isFixed_append.mpr ⟨fixed, slash⟩)
        have cut : (front ++ before ++ String.singleton c ++ behind ++ "/" ++ rest).toList =
            start ++ '/' :: ((before.toList ++ c :: behind.toList) ++ '/' :: rest.toList) := by
          simp [found]
        have cut' :
            (front ++ before ++ "\\" ++ String.singleton c ++ behind ++ "/" ++ rest).toList = start ++
              '/' :: ((before.toList ++ '\\' :: c :: behind.toList) ++ '/' :: rest.toList) := by
          simp [found]
        exact patternFolder_of_not_isFixed wild later cut cut'
  | false =>
    refine findsAs_of_candidates named ?_ ?_ <;> simp only [undotted, undotted']
    · rw [split, split', same]
      exact .refl _
    · intro branch text done candidate
      have whole : Glob.Whole (front.toList ++ (before.toList ++ '\\' :: c :: behind.toList)) := by
        obtain ⟨read, done⟩ := starts.whole_append fun d mem => (name d mem).1
        exact ⟨read, (starts.readOn_escape ordinary itself behind.toList).trans done⟩
      have fixed : Glob.IsFixed (front.toList ++ (before.toList ++ '\\' :: c :: behind.toList)) := by
        have others := fun d mem => (name d (List.mem_append_right _ mem)).1
        exact Glob.isFixed_append.mpr ⟨isPattern_eq_false_iff.mp wild, Glob.isFixed_append.mpr
          ⟨Glob.isFixed_of_ordinary ordinary,
            List.forall_mem_cons.mpr ⟨by decide, Glob.isFixed_of_ordinary others⟩⟩⟩
      refine misses_escape whole fixed (by simp) later ?_ done candidate
      rw [split']
      simp

theorem findsAs_inFront (named : disk.root.WellNamed) (pattern : String) :
    FindsAs disk pattern ("./" ++ pattern) (withoutDot pattern == pattern) := by
  cases undotted : withoutDot pattern == pattern with
  | true =>
    refine findsAs_of_tokens disk ?_ ?_ <;> rw [withoutDot_append, eq_of_beq undotted]
  | false =>
    have dotted : ¬ withoutDot pattern = pattern := ne_of_beq_false undotted
    rw [withoutDot_eq_self_iff] at dotted
    obtain ⟨rest, found⟩ := not_forall_not.mp dotted
    obtain rfl : pattern = "./" ++ String.ofList rest := by
      rw [← String.toList_inj, found]
      simp
    exact findsAs_dot named _

end Respelling

/-- **What another spelling of a pattern finds.** It fails for the reason that the pattern fails, or
it finds the same files if it is only a first dot and slash in front or an escape behind a wildcard.
All other spellings find nothing. A slash that is doubled behind the dot in front makes the pattern
start at the root. -/
theorem respelled_pattern_finds (disk : Disk) (named : disk.root.WellNamed) :
    (∀ respelling : Respelling, respelling.Fits →
      (∃ cause,
        matchingFiles disk respelling.old =
          .error (.badPattern (withoutDot respelling.old) cause) ∧
        matchingFiles disk respelling.new =
          .error (.badPattern (withoutDot respelling.new) cause)) ∨
      ∃ found, matchingFiles disk respelling.old = .ok found ∧
        matchingFiles disk respelling.new = .ok (if respelling.keeps then found else [])) ∧
    ∀ rest, matchingFiles disk (".//" ++ rest) = matchingFiles disk ("/" ++ rest) := by
  refine ⟨fun respelling fits => ?_, fun rest => ?_⟩
  · cases respelling with
    | inFront pattern => exact Respelling.findsAs_inFront named pattern
    | between => exact Respelling.findsAs_between named fits
    | escape => exact Respelling.findsAs_escape named fits
  · have undotted : withoutDot ("/" ++ rest) = "/" ++ rest := by
      rw [withoutDot_eq_self_iff, String.toList_append]
      nofun
    have dotted : ".//" ++ rest = "./" ++ ("/" ++ rest) := by
      rw [← String.append_assoc]
      rfl
    unfold matchingFiles
    rw [dotted, withoutDot_append, undotted]

/-- The file below a folder is not found if the slash behind the folder is doubled. -/
theorem respelled_pattern_finds_doubled :
    nestedTree.root.WellNamed ∧ (Respelling.between "" "lib" "" "b/*/*.ex").Fits ∧
      matchingFiles nestedTree "lib/b/*/*.ex" = .ok [⟨"lib/b/c/x.ex"⟩] ∧
      matchingFiles nestedTree "lib//b/*/*.ex" = .ok [] := by
  have fits : (Respelling.between "" "lib" "" "b/*/*.ex").Fits :=
    ⟨.inr ⟨rfl, by decide +kernel⟩, ⟨[.literal 'l', .literal 'i', .literal 'b'], by rfl⟩, .inl rfl⟩
  have old : (Respelling.between "" "lib" "" "b/*/*.ex").old = "lib/b/*/*.ex" := by decide +kernel
  have new : (Respelling.between "" "lib" "" "b/*/*.ex").new = "lib//b/*/*.ex" := by decide +kernel
  have finds : matchingFiles nestedTree "lib/b/*/*.ex" = .ok [⟨"lib/b/c/x.ex"⟩] := by
    decide +kernel
  have result := (respelled_pattern_finds nestedTree wellNamed_nestedTree).1 _ fits
  rw [old, new, finds] at result
  refine ⟨wellNamed_nestedTree, fits, finds, ?_⟩
  rcases result with ⟨cause, failed, -⟩ | ⟨found, -, searched⟩
  · cases failed
  · exact searched

end CallChart.Location
