import Mathlib
import CallChart.Elixir.Grammar.Rules
import CallChart.Proofs.Elixir.Shape

/-!
# What stands inside an expression is well read

A reader may refuse its text. What is proved of it here is a triple without
precondition: whatever it answers has the property, and a fault has none.

The rules of the grammar are written over `Rules`, the readers of what
stands inside. `Rules.Sound` says that these answer proper nodes, and each
rule over sound readers answers proper nodes again, or well-read ones
where comments may stand among them. This module does so for quoted text,
for values and keywords, and for the entries of a bracket.
-/

namespace CallChart.Elixir

open Node
open Std.Do

set_option mvcgen.warning false

-- No goal here is about numbers, so `grind` runs without its solvers for rings and orders.
attribute [local grind =] Kind.isLoose Kind.isWord

/-! ## Readers -/

namespace Reader

/-- Nothing is asked of what a reader answers. -/
theorem answers {α : Type} (m : Reader α) : ⦃⌜True⌝⦄ m ⦃⇓? _ => ⌜True⌝⦄ := by
  intro text _
  show (wp⟦m text⟧ _).down
  cases m text <;> trivial

/-- What is known of a reader holds of each of its runs. -/
theorem holds {α : Type} {m : Reader α} {Q : PostCond α (.arg (List Char) (.except Fault .pure))}
    (spec : ⦃⌜True⌝⦄ m ⦃Q⦄) (text : List Char) : (wp⟦m⟧ Q text).down :=
  spec text trivial

/-- What is known of the answer of a reader holds of all that it answers. -/
theorem of_run' {α : Type} {m : Reader α} {P : α → Prop}
    (spec : ⦃⌜True⌝⦄ m ⦃⇓? answer => ⌜P answer⌝⦄) {text : List Char} {answer : α}
    (ran : m.run' text = .ok answer) : P answer := by
  have holds : (wp⟦m text⟧ _).down := holds spec text
  replace ran : Prod.fst <$> m text = .ok answer := ran
  cases result : m text with
  | error fault =>
    rw [result] at ran
    cases ran
  | ok found =>
    rw [result] at ran holds
    cases ran
    exact holds

/-- After a fault there is no answer, so anything holds of it. -/
@[spec high]
theorem throw_answers {α : Type} (fault : Fault)
    (Q : α → Assertion (.arg (List Char) (.except Fault .pure))) :
    ⦃⌜True⌝⦄ (throw fault : Reader α) ⦃⇓? answer => Q answer⦄ := by
  intro text _
  trivial

@[spec]
theorem refuse_answers {α : Type} (ctx : Context)
    (Q : α → Assertion (.arg (List Char) (.except Fault .pure))) :
    ⦃⌜True⌝⦄ (refuse ctx : Reader α) ⦃⇓? answer => Q answer⦄ := by
  mvcgen [refuse]

@[spec]
theorem accept_answers (mark : String) : ⦃⌜True⌝⦄ accept mark ⦃⇓? _ => ⌜True⌝⦄ :=
  answers (accept mark)

@[spec]
theorem next?_answers (ctx : Context) : ⦃⌜True⌝⦄ next? ctx ⦃⇓? _ => ⌜True⌝⦄ :=
  answers (next? ctx)

@[spec]
theorem acceptNext_answers (ctx : Context) (mark : String) :
    ⦃⌜True⌝⦄ acceptNext ctx mark ⦃⇓? _ => ⌜True⌝⦄ :=
  answers (acceptNext ctx mark)

@[spec]
theorem atCloser_answers (ctx : Context) : ⦃⌜True⌝⦄ atCloser ctx ⦃⇓? _ => ⌜True⌝⦄ :=
  answers (atCloser ctx)

/-- What is skipped leaves its comments. -/
@[spec]
theorem skip_wellRead : ⦃⌜True⌝⦄ skip ⦃⇓? nodes => ⌜AllWellRead nodes⌝⦄ := by
  mvcgen [skip]
  exact allWellRead_comments _

@[spec]
theorem expect_wellRead (ctx : Context) (mark : String) :
    ⦃⌜True⌝⦄ expect ctx mark ⦃⇓? nodes => ⌜AllWellRead nodes⌝⦄ := by
  mvcgen [expect]

@[spec]
theorem terminator_wellRead :
    ⦃⌜True⌝⦄ terminator ⦃⇓? answer => ⌜AllWellRead answer.2⌝⦄ := by
  mvcgen [terminator]
  all_goals grind -ring -linarith [allWellRead_comments]

end Reader

/-! ## Sound rules -/

def Group.children : Group → List Node
  | .block children | .either children | .arguments children => children

/-- The rules read proper nodes inside an expression. Each rule of the grammar is shown to read such
nodes if these do, and `expressionWithin` ties the knot by induction on the depth. -/
structure Rules.Sound (r : Rules) : Prop where
  expression (ctx : Context) (power : Nat) :
    ⦃⌜True⌝⦄ r.expression ctx power ⦃⇓? node => ⌜node.Proper⌝⦄
  climb (ctx : Context) (power : Nat) {first : Node} (isFirst : first.Proper) :
    ⦃⌜True⌝⦄ r.climb ctx power first ⦃⇓? node => ⌜node.Proper⌝⦄
  group (ctx : Context) : ⦃⌜True⌝⦄ r.group ctx ⦃⇓? group => ⌜AllWellRead group.children⌝⦄

attribute [spec] Rules.Sound.expression Rules.Sound.climb Rules.Sound.group

namespace Grammar

/-- Quoted text may hold anything. -/
@[grind .]
theorem isLoose_textKind (quote : Quote) : (textKind quote).isLoose = true := by
  rw [textKind]
  split <;> rfl

def Element.node : Element → Node
  | .value node | .keyed node => node

structure Entries.Sound (entries : Entries) : Prop where
  values : AllWellRead entries.values
  pairs : AllWellRead entries.pairs

namespace Entries.Sound

variable {entries : Entries}

attribute [grind ←] values pairs

@[grind =]
theorem mk_iff (values pairs : List Node) :
    Entries.Sound ⟨values, pairs⟩ ↔ AllWellRead values ∧ AllWellRead pairs :=
  ⟨fun sound => ⟨sound.values, sound.pairs⟩, fun below => ⟨below.1, below.2⟩⟩

/-- Comments may follow the entries so far. -/
@[grind ←]
theorem comment (sound : entries.Sound) {comments : List Node} (below : AllWellRead comments) :
    (entries.comment comments).Sound := by
  rw [Entries.comment]
  split
  · exact ⟨(allWellRead_append _ _).mpr ⟨sound.values, below⟩, sound.pairs⟩
  · exact ⟨sound.values, (allWellRead_append _ _).mpr ⟨sound.pairs, below⟩⟩

/-- The entries are well read as children too. -/
@[grind ←]
theorem children (sound : entries.Sound) : AllWellRead entries.children := by
  refine (allWellRead_append _ _).mpr ⟨sound.values, ?_⟩
  split
  · exact allWellRead_nil
  · exact (allWellRead_cons _ _).mpr
      ⟨(proper_group rfl sound.pairs).wellRead, allWellRead_nil⟩

end Entries.Sound

section Rules

variable {r : Rules} (sound : r.Sound) (ctx : Context)
include sound

/-! ## Quoted text -/

@[spec]
theorem interpolation_proper : ⦃⌜True⌝⦄ interpolation r ctx ⦃⇓? node => ⌜node.Proper⌝⦄ := by
  mvcgen [interpolation] with grind -ring -linarith

/-- Quoted text is well read, by induction on the bound of its loop. -/
@[spec]
theorem quoted_wellRead (quote : Quote) (n : Nat) :
    ⦃⌜True⌝⦄ quoted r ctx quote n ⦃⇓? nodes => ⌜AllWellRead nodes⌝⦄ := by
  induction n with
  | zero => mvcgen [quoted]
  | succ n ih => mvcgen [quoted, ih] with grind -ring -linarith

/-! ## Values and keywords -/

/-- A value and a keyword are proper alike. -/
@[spec]
theorem element_proper (n power : Nat) :
    ⦃⌜True⌝⦄ element r ctx n power ⦃⇓? element => ⌜element.node.Proper⌝⦄ := by
  mvcgen [element] with grind -ring -linarith [Element.node]

@[spec]
theorem pair_proper (n : Nat) : ⦃⌜True⌝⦄ pair r ctx n ⦃⇓? node => ⌜node.Proper⌝⦄ := by
  mvcgen [pair]

@[spec]
theorem morePairs_wellRead (n : Nat) :
    ⦃⌜True⌝⦄ morePairs r ctx n ⦃⇓? nodes => ⌜AllWellRead nodes⌝⦄ := by
  induction n with
  | zero => mvcgen [morePairs]
  | succ n ih => mvcgen [morePairs, ih] with grind -ring -linarith

@[spec]
theorem keywords_proper (n : Nat) {first : Node} (isFirst : first.Proper) :
    ⦃⌜True⌝⦄ keywords r ctx n first ⦃⇓? node => ⌜node.Proper⌝⦄ := by
  mvcgen [keywords] with grind -ring -linarith

/-- The entries of a bracket are sound if those found so far are. -/
@[spec]
theorem entries_sound (closing : String) (loose : Bool) (n : Nat) (mayClose : Bool) {found : Entries}
    (foundSound : found.Sound) :
    ⦃⌜True⌝⦄ entries r ctx closing loose n mayClose found ⦃⇓? entries => ⌜entries.Sound⌝⦄ := by
  -- each turn of the loop goes on from more entries, so they are left open
  induction n generalizing mayClose found with
  | zero => mvcgen [entries]
  | succ n ih => mvcgen [entries, ih] with grind -ring -linarith [Element.node]

@[spec]
theorem items_sound (closing : String) (n : Nat) :
    ⦃⌜True⌝⦄ items r ctx closing n ⦃⇓? entries => ⌜entries.Sound⌝⦄ :=
  entries_sound sound _ closing true n true ⟨allWellRead_nil, allWellRead_nil⟩

@[spec]
theorem parenArguments_proper (n : Nat) :
    ⦃⌜True⌝⦄ parenArguments r ctx n ⦃⇓? node => ⌜node.ProperOf .arguments⌝⦄ := by
  mvcgen [parenArguments] with grind -ring -linarith

@[spec]
theorem moreArguments_wellRead (n : Nat) :
    ⦃⌜True⌝⦄ moreArguments r ctx n ⦃⇓? nodes => ⌜AllWellRead nodes⌝⦄ := by
  induction n with
  | zero => mvcgen [moreArguments]
  | succ n ih => mvcgen [moreArguments, ih] with grind -ring -linarith [Element.node]

@[spec]
theorem bareArguments_proper (n : Nat) :
    ⦃⌜True⌝⦄ bareArguments r ctx n ⦃⇓? node => ⌜node.ProperOf .arguments⌝⦄ := by
  mvcgen [bareArguments] with grind -ring -linarith [Element.node]

end Rules

end Grammar

end CallChart.Elixir
