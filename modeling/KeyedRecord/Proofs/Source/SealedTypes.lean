import Mathlib
import KeyedRecord.Source.Grammar.Type
import KeyedRecord.Proofs.Source.SealedAttributes

/-!
# Paths and types are sealed

Whatever stands one level deeper is taken to be sealed; then every rule for paths, bounds and types
returns sealed phrases.
-/

set_option autoImplicit false
set_option mvcgen.warning false

namespace KeyedRecord.Source

open Std.Do

/-! ## One level deeper -/

/-- Readers of what stands one level deeper return sealed phrases. -/
structure Nesting.Sealed (g : Nesting) : Prop where
  type : ∀ plus, ⦃⌜True⌝⦄ g.type plus ⦃⇓? t => ⌜t.phrase.Sealed⌝⦄
  expr : ∀ braces, ⦃⌜True⌝⦄ g.expr braces ⦃⇓? p => ⌜p.Sealed⌝⦄
  statement : ⦃⌜True⌝⦄ g.statement ⦃⇓? p => ⌜p.1.Sealed⌝⦄
  block : ⦃⌜True⌝⦄ g.block ⦃⇓? p => ⌜p.Sealed⌝⦄
  bound : ∀ rules, ⦃⌜True⌝⦄ g.bound rules ⦃⇓? b => ⌜b.2.Sealed⌝⦄

variable {g : Nesting}

@[spec] theorem Nesting.type_spec (hg : g.Sealed) (plus : Bool) :
    ⦃⌜True⌝⦄ g.type plus ⦃⇓? t => ⌜t.phrase.Sealed⌝⦄ := hg.type plus

@[spec] theorem Nesting.expr_spec (hg : g.Sealed) (braces : Bool) :
    ⦃⌜True⌝⦄ g.expr braces ⦃⇓? p => ⌜p.Sealed⌝⦄ := hg.expr braces

@[spec] theorem Nesting.statement_spec (hg : g.Sealed) :
    ⦃⌜True⌝⦄ g.statement ⦃⇓? p => ⌜p.1.Sealed⌝⦄ := hg.statement

@[spec] theorem Nesting.block_spec (hg : g.Sealed) :
    ⦃⌜True⌝⦄ g.block ⦃⇓? p => ⌜p.Sealed⌝⦄ := hg.block

@[spec] theorem Nesting.bound_spec (hg : g.Sealed) (rules : BoundRules) :
    ⦃⌜True⌝⦄ g.bound rules ⦃⇓? b => ⌜b.2.Sealed⌝⦄ := hg.bound rules

@[spec] theorem Nesting.anyType_spec (hg : g.Sealed) :
    ⦃⌜True⌝⦄ g.anyType ⦃⇓? p => ⌜p.Sealed⌝⦄ := by
  mvcgen [anyType]

@[spec] theorem Nesting.typeWithoutPlus_spec (hg : g.Sealed) :
    ⦃⌜True⌝⦄ g.typeWithoutPlus ⦃⇓? p => ⌜p.Sealed⌝⦄ := by
  mvcgen [typeWithoutPlus]

@[spec] theorem Nesting.attributes_spec (hg : g.Sealed) :
    ⦃⌜True⌝⦄ g.attributes ⦃⇓? p => ⌜p.Sealed⌝⦄ := by
  mvcgen [attributes]
  · exact fun _ => hg
  rename_i h
  refine Phrase.sealed_join fun p hp => ?_
  obtain ⟨a, ha, rfl⟩ := List.mem_map.mp hp
  exact h a ha

namespace Grammar

@[spec] theorem literalPhrase_spec : ⦃⌜True⌝⦄ literalPhrase ⦃⇓? p => ⌜p.Sealed⌝⦄ := by
  mvcgen [literalPhrase]
  exact Phrase.sealed_literal ‹_›

/-! ## Paths and bounds -/

@[spec] theorem binder?_spec (hg : g.Sealed) :
    ⦃⌜True⌝⦄ binder? g ⦃⇓? o => ⌜∀ p, o = some p → p.Sealed⌝⦄ := by
  mvcgen [binder?] <;> grind

@[spec] theorem returnType_spec (hg : g.Sealed) :
    ⦃⌜True⌝⦄ returnType g ⦃⇓? p => ⌜p.Sealed⌝⦄ := by
  mvcgen [returnType] <;> grind

@[spec] theorem parenthesizedArguments_spec (hg : g.Sealed) :
    ⦃⌜True⌝⦄ parenthesizedArguments g ⦃⇓? p => ⌜p.Sealed⌝⦄ := by
  mvcgen [parenthesizedArguments, Reader.inside] <;> grind

@[grind ←] theorem sealed_boundsPhrase {bounds : List ((BoundKind × Phrase) × Bool)}
    (h : ∀ b ∈ bounds, Sealable.IsSealed b.1) : (boundsPhrase bounds).Sealed := by
  refine Phrase.sealed_separated (by decide) fun i hi => ?_
  obtain ⟨b, hb, rfl⟩ := List.mem_map.mp hi
  exact h b hb

theorem genericArgument_spec (hg : g.Sealed) :
    ⦃⌜True⌝⦄ genericArgument g ⦃⇓? a => ⌜Sealable.IsSealed a⌝⦄ := by
  mvcgen [genericArgument] <;> grind

@[spec] theorem angleArguments_spec (hg : g.Sealed) :
    ⦃⌜True⌝⦄ angleArguments g ⦃⇓? p => ⌜p.Sealed⌝⦄ := by
  have := genericArgument_spec hg
  mvcgen [angleArguments, this]
  grind

@[spec] theorem segment_spec (hg : g.Sealed) (inExpression : Bool) :
    ⦃⌜True⌝⦄ segment g inExpression ⦃⇓? s => ⌜s.1.Sealed⌝⦄ := by
  mvcgen [segment] <;> grind

@[grind =] theorem phrase_push (p : PathPhrase) (s : Phrase) (bare : Bool) :
    (p.push s bare).phrase = p.phrase ++ s := rfl

theorem moreSegmentsFuel_spec (hg : g.Sealed) (inExpression : Bool) (fuel : Nat)
    {p : PathPhrase} (hp : p.phrase.Sealed) :
    ⦃⌜True⌝⦄ moreSegmentsFuel g inExpression fuel p ⦃⇓? q => ⌜q.phrase.Sealed⌝⦄ := by
  induction fuel generalizing p with
  | zero => exact Reader.failWith_returns _ _
  | succ fuel ih =>
    mvcgen [moreSegmentsFuel, ih]
    grind

@[spec] theorem moreSegments_spec (hg : g.Sealed) (inExpression : Bool)
    {p : PathPhrase} (hp : p.phrase.Sealed) :
    ⦃⌜True⌝⦄ moreSegments g inExpression p ⦃⇓? q => ⌜q.phrase.Sealed⌝⦄ :=
  Reader.counted_spec (moreSegmentsFuel_spec hg inExpression · hp) fun _ => rfl

@[spec] theorem path_spec (hg : g.Sealed) (inExpression : Bool) :
    ⦃⌜True⌝⦄ path g inExpression ⦃⇓? p => ⌜p.phrase.Sealed⌝⦄ := by
  mvcgen [path] <;> grind

theorem everySegmentFuel_spec (hg : g.Sealed) (inExpression : Bool) (fuel : Nat)
    {p : PathPhrase} (hp : p.phrase.Sealed) :
    ⦃⌜True⌝⦄ everySegmentFuel g inExpression fuel p ⦃⇓? q => ⌜q.phrase.Sealed⌝⦄ := by
  induction fuel generalizing p with
  | zero => exact Reader.failWith_returns _ _
  | succ fuel ih => mvcgen [everySegmentFuel, ih] <;> grind

@[spec] theorem qualifiedPath_spec (hg : g.Sealed) (inExpression : Bool) :
    ⦃⌜True⌝⦄ qualifiedPath g inExpression ⦃⇓? p => ⌜p.phrase.Sealed⌝⦄ := by
  mvcgen [qualifiedPath]
  case vc10 => exact fun _ => hg
  all_goals
    intro s _ _
    exact Reader.counted_spec (everySegmentFuel_spec hg inExpression · (by grind)) (fun _ => rfl)
      s trivial

@[spec] theorem traitBound_spec (hg : g.Sealed) (allowConst : Bool) :
    ⦃⌜True⌝⦄ traitBound g allowConst ⦃⇓? p => ⌜p.Sealed⌝⦄ := by
  mvcgen [traitBound, Reader.inside] <;> grind

@[spec] theorem preciseCapture_spec : ⦃⌜True⌝⦄ preciseCapture ⦃⇓? p => ⌜p.Sealed⌝⦄ := by
  mvcgen [preciseCapture] <;> grind

theorem bound_spec (hg : g.Sealed) (rules : BoundRules) :
    ⦃⌜True⌝⦄ bound g rules ⦃⇓? b => ⌜b.2.Sealed⌝⦄ := by
  mvcgen [bound, Reader.inside] <;> grind

/-! ## Types -/

@[spec] theorem boundSum_spec (hg : g.Sealed) (rules : BoundRules) (allowPlus : Bool) :
    ⦃⌜True⌝⦄ boundSum g rules allowPlus ⦃⇓? bs => ⌜(boundsPhrase bs).Sealed⌝⦄ := by
  mvcgen [boundSum] <;> grind

@[spec] theorem objectBounds_spec (hg : g.Sealed) (allowPlus : Bool) :
    ⦃⌜True⌝⦄ objectBounds g allowPlus ⦃⇓? bs => ⌜(boundsPhrase bs).Sealed⌝⦄ := by
  mvcgen [objectBounds]
  grind

@[spec] theorem plusBounds_spec (hg : g.Sealed) :
    ⦃⌜True⌝⦄ plusBounds g ⦃⇓? p => ⌜p.Sealed⌝⦄ := by
  mvcgen [plusBounds] <;> grind

@[spec] theorem string?_spec : ⦃⌜True⌝⦄ string? ⦃⇓? p => ⌜p.Sealed⌝⦄ := by
  apply Reader.triple_iff.mpr
  intro ts p r h
  unfold string? at h
  split at h
  · split at h <;> cases h
    · exact Phrase.sealed_ofToken rfl
    · exact Phrase.sealed_empty
  · cases h
    exact Phrase.sealed_empty

@[spec] theorem word?_spec (w : String) : ⦃⌜True⌝⦄ word? w ⦃⇓? p => ⌜p.Sealed⌝⦄ := by
  mvcgen [word?]
  grind

@[spec] theorem functionArgument_spec (hg : g.Sealed) (isFirst : Bool) :
    ⦃⌜True⌝⦄ functionArgument g isFirst ⦃⇓? p => ⌜p.Sealed⌝⦄ := by
  mvcgen [functionArgument] <;> grind

@[spec] theorem functionArguments_spec (hg : g.Sealed) :
    ⦃⌜True⌝⦄ functionArguments g ⦃⇓? p => ⌜p.Sealed⌝⦄ := by
  mvcgen [functionArguments] <;> grind

@[spec] theorem functionType_spec (hg : g.Sealed) :
    ⦃⌜True⌝⦄ functionType g ⦃⇓? p => ⌜p.Sealed⌝⦄ := by
  mvcgen [functionType, Reader.inside] <;> grind

@[spec] theorem parenthesizedType_spec (hg : g.Sealed) :
    ⦃⌜True⌝⦄ parenthesizedType g ⦃⇓? p => ⌜p.1.Sealed⌝⦄ := by
  mvcgen [parenthesizedType] <;> grind

@[spec] theorem parenType_spec (hg : g.Sealed) (allowPlus : Bool) :
    ⦃⌜True⌝⦄ parenType g allowPlus ⦃⇓? t => ⌜t.phrase.Sealed⌝⦄ := by
  mvcgen [parenType, Reader.inside] <;> grind

@[spec] theorem bracketType_spec (hg : g.Sealed) :
    ⦃⌜True⌝⦄ bracketType g ⦃⇓? t => ⌜t.phrase.Sealed⌝⦄ := by
  mvcgen [bracketType, Reader.inside] <;> grind

@[spec] theorem pathType_spec (hg : g.Sealed) (allowPlus : Bool) {binder : Option Phrase}
    (hb : ∀ p, binder = some p → p.Sealed) :
    ⦃⌜True⌝⦄ pathType g allowPlus binder ⦃⇓? t => ⌜t.phrase.Sealed⌝⦄ := by
  mvcgen [pathType] <;> grind

@[spec] theorem pointerType_spec (hg : g.Sealed) :
    ⦃⌜True⌝⦄ pointerType g ⦃⇓? t => ⌜t.phrase.Sealed⌝⦄ := by
  mvcgen [pointerType] <;> grind

@[spec] theorem referenceType_spec (hg : g.Sealed) :
    ⦃⌜True⌝⦄ referenceType g ⦃⇓? t => ⌜t.phrase.Sealed⌝⦄ := by
  mvcgen [referenceType] <;> grind

@[spec] theorem objectType_spec (hg : g.Sealed) (allowPlus : Bool) :
    ⦃⌜True⌝⦄ objectType g allowPlus ⦃⇓? t => ⌜t.phrase.Sealed⌝⦄ := by
  mvcgen [objectType]
  grind

@[spec] theorem hiddenType_spec (hg : g.Sealed) (allowPlus : Bool) :
    ⦃⌜True⌝⦄ hiddenType g allowPlus ⦃⇓? t => ⌜t.phrase.Sealed⌝⦄ := by
  mvcgen [hiddenType] <;> grind

/-- One level of a type is sealed if the next level is. -/
theorem type_spec (hg : g.Sealed) (allowPlus : Bool) :
    ⦃⌜True⌝⦄ type g allowPlus ⦃⇓? t => ⌜t.phrase.Sealed⌝⦄ := by
  mvcgen [type] <;> grind

end Grammar

end KeyedRecord.Source
