import CallChart.Elixir.Grammar.Expression
import CallChart.Proofs.Elixir.Grammar.Block

/-!
# Sources are well read

Calls are the one place where the shape of a node depends on more than its
own kind: the target has to be callable, which the readers of a call ask of
it and `named` and `dotted` provide.

`sound_within` ties the knot by induction on the depth, and
`wellRead_of_parse` is what is left for a whole source. It is grammatical then,
and its aliases are spelled as such.
-/

namespace CallChart.Elixir

namespace Grammar

open Node
open Std.Do

set_option mvcgen.warning false

attribute [local grind =] Kind.isLoose Kind.isWord Kind.isCalledName Kind.isQuotedName

/-- A name may stand in quotes. -/
@[grind .]
theorem isCalledName_textKind (quote : Quote) : (textKind quote).isCalledName = true := by
  rw [textKind]
  split <;> rfl

/-- The only item among well-read nodes is proper. -/
theorem proper_of_only {children : List Node} {node : Node}
    (only : children.filter (!·.isComment) = [node]) (below : AllWellRead children) :
    node.Proper := by
  have mem : node ∈ children.filter (!·.isComment) := only ▸ List.mem_singleton_self node
  obtain ⟨mem, noComment⟩ := List.mem_filter.mp mem
  exact ⟨below node mem, by simpa using noComment⟩

/-- A number is one word. -/
@[grind →]
theorem number?_proper {text rest : List Char} {node : Node}
    (found : number? text = some (node, rest)) : node.Proper := by
  rw [number?] at found
  split at found
  · cases found
    exact proper_leaf (by rfl) (by decide) (by decide) _
  · obtain ⟨digits, -, same⟩ := Option.map_eq_some_iff.mp found
    cases same
    exact proper_leaf (by rfl) (by decide) (by decide) _

/-- What is scanned of an alias is spelled as aliases are. -/
theorem isAlias_of_scanAlias (seen : List Char) (best : List Char × List Char)
    (place : Lexeme.AliasPlace) (text : List Char) (isSeen : IsAlias seen)
    (isBest : IsAlias best.1) : IsAlias (Lexeme.scanAlias seen best place text).1 := by
  fun_induction Lexeme.scanAlias seen best place text with
  | case1 | case5 | case8 | case11 => exact isBest
  | case2 _ _ _ _ _ follows ih =>
    have more := isSeen.cons (.inr (.inl follows))
    exact ih more more
  | case3 _ _ _ _ _ _ blank ih | case6 _ _ _ _ _ blank ih | case9 _ _ _ _ _ blank ih =>
    exact ih (isSeen.cons (.inr (.inr (.inl blank)))) isBest
  | case4 _ _ _ _ _ _ _ dot ih | case7 _ _ _ _ _ _ dot ih =>
    exact ih (isSeen.cons (.inr (.inr (.inr (eq_of_beq dot))))) isBest
  | case10 _ _ _ _ _ _ upper ih =>
    have more := isSeen.cons (.inl upper)
    exact ih more more

/-- An alias is one word. -/
@[grind →]
theorem alias?_proper {text rest : List Char} {name : String}
    (found : Lexeme.alias? text = some (name, rest)) : (leaf .aliasName name).Proper := by
  unfold Lexeme.alias? at found
  split at found
  · cases found
  · next c cs =>
    split at found
    · next upper =>
      obtain ⟨rfl, -⟩ := Prod.mk.inj (Option.some.inj found)
      have first : IsAlias [c] :=
        ⟨⟨c, List.mem_singleton_self c, upper⟩, List.forall_mem_singleton.mpr (.inl upper)⟩
      have scanned := isAlias_of_scanAlias [c] ([c], cs) .name cs first first
      refine .intro nofun (fun _ => rfl) (fun _ => ?_) allWellRead_nil
      exact ⟨by simpa [leaf, text] using scanned.capital, by simpa [leaf, text] using scanned.chars⟩
    · cases found

section Rules

variable {r : Rules} (sound : r.Sound) (ctx : Context)
include sound

/-! ## Calls -/

/-- A call in parentheses is proper, and so is the call of what it answers. -/
@[spec]
theorem parenCall_proper (n : Nat) {target : Node} (takesDo : Bool) (isTarget : target.Proper)
    (callable : target.Callable) :
    ⦃⌜True⌝⦄ parenCall r ctx n target takesDo ⦃⇓? node => ⌜node.Proper⌝⦄ := by
  mvcgen [parenCall] with grind -ring -linarith [OptionalOf]

@[spec]
theorem bareCall_proper (n : Nat) {target : Node} (isTarget : target.Proper)
    (callable : target.Callable) :
    ⦃⌜True⌝⦄ bareCall r ctx n target ⦃⇓? node => ⌜node.Proper⌝⦄ := by
  mvcgen [bareCall] with grind -ring -linarith

@[spec]
theorem named_proper (n : Nat) (name : String) :
    ⦃⌜True⌝⦄ named r ctx n name ⦃⇓? node => ⌜node.Proper⌝⦄ := by
  mvcgen [named] with grind -ring -linarith

@[spec]
theorem remoteCall_proper (n : Nat) {receiver name : Node} (isReceiver : receiver.Proper)
    (isName : name.Proper) (called : name.kind.isCalledName = true) :
    ⦃⌜True⌝⦄ remoteCall r ctx n receiver name ⦃⇓? node => ⌜node.Proper⌝⦄ := by
  mvcgen [remoteCall] with grind -ring -linarith [OptionalOf]

@[spec]
theorem dotted_proper (n : Nat) {receiver : Node} (isReceiver : receiver.Proper) :
    ⦃⌜True⌝⦄ dotted r ctx n receiver ⦃⇓? node => ⌜node.Proper⌝⦄ := by
  mvcgen [dotted] with grind -ring -linarith

/-! ## Operands -/

@[spec]
theorem map_proper (n : Nat) : ⦃⌜True⌝⦄ map r ctx n ⦃⇓? node => ⌜node.Proper⌝⦄ := by
  mvcgen [map]
  · grind -ring -linarith
  -- whether the name fits is a match of its own, which is split by hand
  · split
    · intro text isName
      refine Reader.holds ?_ text
      mvcgen with grind -ring -linarith
    · intro text _
      refine Reader.holds ?_ text
      mvcgen

@[spec]
theorem sigil_proper (n : Nat) : ⦃⌜True⌝⦄ sigil r ctx n ⦃⇓? node => ⌜node.Proper⌝⦄ := by
  mvcgen [sigil] with grind -ring -linarith

/-- A capture is proper; a parenthesised operand is the only item there. -/
@[spec]
theorem capture_proper : ⦃⌜True⌝⦄ capture r ctx ⦃⇓? node => ⌜node.Proper⌝⦄ := by
  mvcgen [capture] with first
    | exact proper_unary (proper_of_only ‹_› ‹_›) "&"
    | grind -ring -linarith [Group.children]

@[spec]
theorem operatorFirst_proper (operator : String) :
    ⦃⌜True⌝⦄ operatorFirst r ctx operator ⦃⇓? node => ⌜node.Proper⌝⦄ := by
  mvcgen [operatorFirst] with grind -ring -linarith

@[spec]
theorem wordFirst_proper (n : Nat) (word : String) :
    ⦃⌜True⌝⦄ wordFirst r ctx n word ⦃⇓? node => ⌜node.Proper⌝⦄ := by
  mvcgen [wordFirst] with grind -ring -linarith

@[spec]
theorem markFirst_proper (n : Nat) (text : List Char) :
    ⦃⌜True⌝⦄ markFirst r ctx n text ⦃⇓? node => ⌜node.Proper⌝⦄ := by
  mvcgen [markFirst] with grind -ring -linarith [Group.children]

@[spec]
theorem operand_proper (n : Nat) : ⦃⌜True⌝⦄ operand r ctx n ⦃⇓? node => ⌜node.Proper⌝⦄ := by
  mvcgen [operand] with grind -ring -linarith

/-! ## Operators -/

@[spec]
theorem access_proper {receiver : Node} (isReceiver : receiver.Proper) :
    ⦃⌜True⌝⦄ access r ctx receiver ⦃⇓? node => ⌜node.Proper⌝⦄ := by
  mvcgen [access] with grind -ring -linarith

@[spec]
theorem rightOperand_proper (n : Nat) (operator : Operator) :
    ⦃⌜True⌝⦄ rightOperand r ctx n operator ⦃⇓? node => ⌜node.Proper⌝⦄ := by
  mvcgen [rightOperand] with grind -ring -linarith [Element.node]

/-- An expression stays proper while operators carry it on. -/
@[spec]
theorem climb_proper (power n : Nat) {first : Node} (isFirst : first.Proper) :
    ⦃⌜True⌝⦄ climb r ctx power n first ⦃⇓? node => ⌜node.Proper⌝⦄ := by
  induction n generalizing first with
  | zero => mvcgen [climb]
  | succ n ih => mvcgen [climb, ih] with grind -ring -linarith

end Rules

/-! ## The knot -/

/-- The rules are sound up to any depth. -/
theorem sound_within (n : Nat) :
    Rules.Sound ⟨expressionWithin n, climbWithin n, groupWithin n⟩ := by
  induction n with
  | zero => exact ⟨fun _ _ => by mvcgen [expressionWithin], fun _ _ _ _ => by mvcgen [climbWithin],
      fun _ => by mvcgen [groupWithin]⟩
  | succ n ih =>
    refine ⟨fun ctx power => ?_, fun ctx power _ isFirst => ?_, fun ctx => ?_⟩
    · mvcgen [expressionWithin] with grind -ring -linarith
    · exact climb_proper ih ctx power n isFirst
    · exact group_wellRead ih ctx n

/-- A source is proper at any depth. -/
theorem source_proper (n : Nat) : ⦃⌜True⌝⦄ source n ⦃⇓? node => ⌜node.Proper⌝⦄ := by
  have sound := sound_within n
  have expression := sound.expression
  mvcgen [source, expression] with grind -ring -linarith

end Grammar

/-- **What is read as a source is well read.** -/
theorem wellRead_of_parse {text : List Char} {source : Node} (read : parse text = .ok source) :
    source.WellRead :=
  (Reader.of_run' (Grammar.source_proper _) read).wellRead

/-- **What is read as a source is grammatical.** -/
theorem grammatical_of_parse {text : List Char} {source : Node} (read : parse text = .ok source) :
    source.Grammatical :=
  (wellRead_of_parse read).grammatical

end CallChart.Elixir
