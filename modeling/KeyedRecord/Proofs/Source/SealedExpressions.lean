import Mathlib
import KeyedRecord.Source.Grammar.Expression
import KeyedRecord.Proofs.Source.SealedTypes

/-!
# Expressions are sealed, and with them whole types

The rules for patterns, for control flow and for expressions, one level at a time, and the induction
over levels.  A semicolon stands in an expression only between brackets: what a block or an array
holds is no more than paired, and its brackets seal it.

Principal result: `sealed_of_readType`.
-/

set_option autoImplicit false
set_option mvcgen.warning false

namespace KeyedRecord.Source

open Std.Do

namespace Grammar

variable {g : Nesting}

/-! ## Patterns -/

@[spec] theorem member_spec : ⦃⌜True⌝⦄ member ⦃⇓? p => ⌜p.Sealed⌝⦄ := by
  apply Reader.triple_iff.mpr
  intro ts p r h
  unfold member at h
  split at h
  · split at h <;> cases h
    exact Phrase.sealed_word _
  · split at h <;> cases h
    exact Phrase.sealed_ofToken rfl
  · cases h

@[spec] theorem rangeEnd?_spec (hg : g.Sealed) :
    ⦃⌜True⌝⦄ rangeEnd? g ⦃⇓? o => ⌜∀ p, o = some p → p.Sealed⌝⦄ := by
  mvcgen [rangeEnd?] <;> grind

@[spec] theorem rangeRest_spec (hg : g.Sealed) :
    ⦃⌜True⌝⦄ rangeRest g ⦃⇓? p => ⌜p.Sealed⌝⦄ := by
  mvcgen [rangeRest] <;> grind

section

variable {nested : Reader Phrase}

@[spec] theorem alternativePatterns_spec (hn : ⦃⌜True⌝⦄ nested ⦃⇓? p => ⌜p.Sealed⌝⦄) :
    ⦃⌜True⌝⦄ alternativePatterns nested ⦃⇓? p => ⌜p.Sealed⌝⦄ := by
  mvcgen [alternativePatterns, hn] <;> grind

@[spec] theorem fieldPattern_spec (hg : g.Sealed) (hn : ⦃⌜True⌝⦄ nested ⦃⇓? p => ⌜p.Sealed⌝⦄) :
    ⦃⌜True⌝⦄ fieldPattern g nested ⦃⇓? p => ⌜p.Sealed⌝⦄ := by
  mvcgen [fieldPattern, hn] <;> grind

@[spec] theorem pathPattern_spec (hg : g.Sealed) (hn : ⦃⌜True⌝⦄ nested ⦃⇓? p => ⌜p.Sealed⌝⦄) :
    ⦃⌜True⌝⦄ pathPattern g nested ⦃⇓? p => ⌜p.Sealed⌝⦄ := by
  mvcgen [pathPattern, Reader.inside, hn] <;> grind

end

theorem patternFuel_spec (hg : g.Sealed) (fuel : Nat) :
    ⦃⌜True⌝⦄ patternFuel g fuel ⦃⇓? p => ⌜p.Sealed⌝⦄ := by
  induction fuel with
  | zero => exact Reader.failWith_returns _ _
  | succ fuel ih => mvcgen [patternFuel, Reader.inside, ih] <;> grind

@[spec] theorem pattern_spec (hg : g.Sealed) :
    ⦃⌜True⌝⦄ pattern g ⦃⇓? p => ⌜p.Sealed⌝⦄ :=
  Reader.counted_spec (patternFuel_spec hg ·) fun _ => rfl

@[spec] theorem patterns_spec (hg : g.Sealed) :
    ⦃⌜True⌝⦄ patterns g ⦃⇓? p => ⌜p.Sealed⌝⦄ :=
  alternativePatterns_spec (pattern_spec hg)

/-! ## Control flow -/

@[spec] theorem wordBlock_spec (hg : g.Sealed) (w : String) :
    ⦃⌜True⌝⦄ wordBlock g w ⦃⇓? p => ⌜p.Sealed⌝⦄ := by
  mvcgen [wordBlock]
  grind

theorem branchFuel_spec (hg : g.Sealed) (fuel : Nat) :
    ⦃⌜True⌝⦄ branchFuel g fuel ⦃⇓? p => ⌜p.Sealed⌝⦄ := by
  induction fuel with
  | zero => exact Reader.failWith_returns _ _
  | succ fuel ih => mvcgen [branchFuel, ih] <;> grind

@[spec] theorem branch_spec (hg : g.Sealed) :
    ⦃⌜True⌝⦄ branch g ⦃⇓? p => ⌜p.Sealed⌝⦄ :=
  Reader.counted_spec (branchFuel_spec hg ·) fun _ => rfl

@[spec] theorem patternCondition_spec (hg : g.Sealed) (allowStruct : Bool) :
    ⦃⌜True⌝⦄ patternCondition g allowStruct ⦃⇓? p => ⌜p.Sealed⌝⦄ := by
  mvcgen [patternCondition]
  grind

@[spec] theorem loopOrBlock_spec (hg : g.Sealed) :
    ⦃⌜True⌝⦄ loopOrBlock g ⦃⇓? p => ⌜p.Sealed⌝⦄ := by
  mvcgen [loopOrBlock] <;> grind

@[spec] theorem labelled_spec (hg : g.Sealed) :
    ⦃⌜True⌝⦄ labelled g ⦃⇓? p => ⌜p.Sealed⌝⦄ := by
  mvcgen [labelled] <;> grind

@[spec] theorem arm?_spec (hg : g.Sealed) :
    ⦃⌜True⌝⦄ arm? g ⦃⇓? o => ⌜∀ p, o = some p → p.Sealed⌝⦄ := by
  mvcgen [arm?] <;> grind

@[spec] theorem choice_spec (hg : g.Sealed) :
    ⦃⌜True⌝⦄ choice g ⦃⇓? p => ⌜p.Sealed⌝⦄ := by
  mvcgen [choice, Reader.inside] <;> grind

@[spec] theorem closureArgument_spec (hg : g.Sealed) :
    ⦃⌜True⌝⦄ closureArgument g ⦃⇓? p => ⌜p.Sealed⌝⦄ := by
  mvcgen [closureArgument] <;> grind

@[spec] theorem closure_spec (hg : g.Sealed) (allowStruct : Bool) :
    ⦃⌜True⌝⦄ closure g allowStruct ⦃⇓? p => ⌜p.Sealed⌝⦄ := by
  mvcgen [closure] <;> grind

@[spec] theorem asyncBlock_spec (hg : g.Sealed) :
    ⦃⌜True⌝⦄ asyncBlock g ⦃⇓? p => ⌜p.Sealed⌝⦄ := by
  mvcgen [asyncBlock]
  grind

@[spec] theorem leaving_spec (hg : g.Sealed) (allowStruct : Bool) (w : String) :
    ⦃⌜True⌝⦄ leaving g allowStruct w ⦃⇓? p => ⌜p.Sealed⌝⦄ := by
  mvcgen [leaving]
  grind

@[spec] theorem leavingLoop_spec (hg : g.Sealed) (allowStruct : Bool) :
    ⦃⌜True⌝⦄ leavingLoop g allowStruct ⦃⇓? p => ⌜p.Sealed⌝⦄ := by
  mvcgen [leavingLoop] <;> grind

@[spec] theorem continuing_spec : ⦃⌜True⌝⦄ continuing ⦃⇓? p => ⌜p.Sealed⌝⦄ := by
  mvcgen [continuing]
  grind

/-! ## Operands -/

@[spec] theorem exprList_spec (hg : g.Sealed) (d : Delimiter) :
    ⦃⌜True⌝⦄ exprList g d ⦃⇓? p => ⌜p.Sealed⌝⦄ := by
  mvcgen [exprList, Reader.inside] <;> grind

@[spec] theorem arrayExpr_spec (hg : g.Sealed) :
    ⦃⌜True⌝⦄ arrayExpr g ⦃⇓? p => ⌜p.Sealed⌝⦄ := by
  mvcgen [arrayExpr, Reader.inside] <;> grind

@[spec] theorem structFields_spec (hg : g.Sealed) :
    ⦃⌜True⌝⦄ structFields g ⦃⇓? p => ⌜p.Sealed⌝⦄ := by
  mvcgen [structFields, Reader.inside] <;> grind

@[spec] theorem pathExpr_spec (hg : g.Sealed) (allowStruct : Bool) :
    ⦃⌜True⌝⦄ pathExpr g allowStruct ⦃⇓? p => ⌜p.1.Sealed⌝⦄ := by
  mvcgen [pathExpr] <;> grind

@[spec] theorem atom_spec (hg : g.Sealed) (allowStruct : Bool) :
    ⦃⌜True⌝⦄ atom g allowStruct ⦃⇓? p => ⌜p.1.Sealed⌝⦄ := by
  mvcgen [atom] <;> grind

/-- Positions are numbers and dots. -/
theorem sealed_positions {text : String} {p : Phrase} (h : positions text = some p) :
    p.Sealed := by
  have number {cs : List Char} {q : Phrase}
      (hq : (if isIndex (String.ofList cs) then some (Phrase.ofToken (.literal (String.ofList cs)))
        else none) = some q) : q.Sealed := by
    split at hq <;> cases hq
    exact Phrase.sealed_number _
  have dot : (Phrase.operator ".").Sealed := Phrase.sealed_operator (by decide)
  unfold positions at h
  simp only at h
  split at h
  · obtain ⟨q, hq, rfl⟩ := Option.map_eq_some_iff.mp h
    exact Phrase.sealed_append (number hq) dot
  · obtain ⟨q, hq, h⟩ := Option.bind_eq_some_iff.mp h
    obtain ⟨q', hq', h⟩ := Option.bind_eq_some_iff.mp h
    cases h
    exact Phrase.sealed_append (Phrase.sealed_append (number hq) dot) (number hq')
  · cases h

@[spec] theorem turbofish_spec (hg : g.Sealed) :
    ⦃⌜True⌝⦄ turbofish g ⦃⇓? p => ⌜p.Sealed⌝⦄ := by
  mvcgen [turbofish] <;> grind

@[spec] theorem fieldOrMethod_spec (hg : g.Sealed) :
    ⦃⌜True⌝⦄ fieldOrMethod g ⦃⇓? p => ⌜p.Sealed⌝⦄ := by
  mvcgen [fieldOrMethod]
  grind

@[spec] theorem positions?_spec :
    ⦃⌜True⌝⦄ positions? ⦃⇓? o => ⌜∀ p, o = some p → p.1.Sealed⌝⦄ := by
  apply Reader.triple_iff.mpr
  intro ts o r h p hp
  unfold positions? at h
  split at h
  · split at h <;> cases h
    · cases hp
      exact sealed_positions ‹_›
    · cases hp
  · cases h
    cases hp

@[spec] theorem afterDot_spec (hg : g.Sealed) :
    ⦃⌜True⌝⦄ afterDot g ⦃⇓? p => ⌜p.Sealed⌝⦄ := by
  mvcgen [afterDot] <;> grind

@[spec] theorem trailer_spec (hg : g.Sealed) :
    ⦃⌜True⌝⦄ trailer g ⦃⇓? o => ⌜∀ p, o = some p → p.Sealed⌝⦄ := by
  mvcgen [trailer, Reader.inside] <;> grind

@[spec] theorem leader_spec (hg : g.Sealed) :
    ⦃⌜True⌝⦄ leader g ⦃⇓? o => ⌜∀ p, o = some p → p.Sealed⌝⦄ := by
  mvcgen [leader] <;> grind

@[spec] theorem operand_spec (hg : g.Sealed) (allowStruct : Bool) :
    ⦃⌜True⌝⦄ operand g allowStruct ⦃⇓? p => ⌜p.1.Sealed⌝⦄ := by
  mvcgen [operand] <;> grind

/-! ## Operators and statements -/

/-- No operator between two operands holds a semicolon. -/
theorem not_semicolon_of_operator? {ts : List Placed} {s : String} {kind : OperatorKind}
    (h : operator? ts = some (s, kind)) : s ≠ ";" ∧ ';' ∉ s.toList := by
  have all : ∀ o ∈ operators, o.1 ≠ ";" ∧ ';' ∉ o.1.toList := by decide
  unfold operator? at h
  split at h
  · rename_i o ho
    cases h
    exact all _ (List.mem_of_find?_eq_some ho)
  · split at h <;> cases h
    decide

theorem operatorsFuel_spec (hg : g.Sealed) (allowStruct : Bool) (fuel : Nat)
    (compared inRange : Bool) :
    ⦃⌜True⌝⦄ operatorsFuel g allowStruct fuel compared inRange ⦃⇓? p => ⌜p.Sealed⌝⦄ := by
  induction fuel generalizing compared inRange with
  | zero => exact Reader.failWith_returns _ _
  | succ fuel ih => mvcgen [operatorsFuel, ih] <;> grind [→ not_semicolon_of_operator?]

/-- What may follow an operand, counted where it stands. -/
theorem operators_spec (hg : g.Sealed) (allowStruct : Bool) :
    @Triple Reader _ _ _ (fun ts => operatorsFuel g allowStruct (ts.length + 1) false false ts)
      ⌜True⌝ (⇓? p => ⌜p.Sealed⌝) :=
  Reader.counted_spec (operatorsFuel_spec hg allowStruct · false false) fun _ => rfl

@[spec] theorem exprPhrase_spec (hg : g.Sealed) (allowStruct : Bool) :
    ⦃⌜True⌝⦄ exprPhrase g allowStruct ⦃⇓? p => ⌜p.1.Sealed⌝⦄ := by
  apply Reader.triple_iff.mpr
  intro ts p r h
  obtain ⟨_, s₁, hf, h⟩ := Reader.bind_eq_ok h
  cases hf
  split at h
  · obtain ⟨more, s₂, hm, h⟩ := Reader.bind_eq_ok h
    cases h
    exact Reader.triple_iff.mp (operators_spec hg allowStruct) _ _ _ hm
  · obtain ⟨⟨q, isStatement⟩, s₂, hq, h⟩ := Reader.bind_eq_ok h
    obtain ⟨more, s₃, hm, h⟩ := Reader.bind_eq_ok h
    cases h
    exact Phrase.sealed_append (Reader.triple_iff.mp (operand_spec hg allowStruct) _ _ _ hq)
      (Reader.triple_iff.mp (operators_spec hg allowStruct) _ _ _ hm)

@[spec] theorem expr_spec (hg : g.Sealed) (allowStruct : Bool) :
    ⦃⌜True⌝⦄ expr g allowStruct ⦃⇓? p => ⌜p.Sealed⌝⦄ := by
  mvcgen [expr]

@[spec] theorem statementExpr_spec (hg : g.Sealed) :
    ⦃⌜True⌝⦄ statementExpr g ⦃⇓? p => ⌜p.1.Sealed⌝⦄ := by
  apply Reader.triple_iff.mpr
  intro ts p r h
  obtain ⟨attrs, s₁, ha, h⟩ := Reader.bind_eq_ok h
  have ha : attrs.Sealed := Reader.triple_iff.mp (Nesting.attributes_spec hg) _ _ _ ha
  obtain ⟨_, s₂, hf, h⟩ := Reader.bind_eq_ok h
  cases hf
  split at h
  · obtain ⟨⟨q, _⟩, s₃, hq, h⟩ := Reader.bind_eq_ok h
    have hq : q.Sealed := Reader.triple_iff.mp (atom_spec hg true) _ _ _ hq
    obtain ⟨_, s₄, hc, h⟩ := Reader.bind_eq_ok h
    split at h
    · obtain ⟨behind, s₅, hb, h⟩ := Reader.bind_eq_ok h
      obtain ⟨more, s₆, hm, h⟩ := Reader.bind_eq_ok h
      cases h
      exact Phrase.sealed_append₄ ha hq
        (Reader.triple_iff.mp (Reader.many_spec (trailer_spec hg)) _ _ _ hb)
        (Reader.triple_iff.mp (operators_spec hg true) _ _ _ hm)
    · cases h
      exact Phrase.sealed_append ha hq
  · obtain ⟨⟨q, isStatement⟩, s₃, hq, h⟩ := Reader.bind_eq_ok h
    cases h
    exact Phrase.sealed_append ha (Reader.triple_iff.mp (exprPhrase_spec hg true) _ _ _ hq)

@[spec] theorem binding_spec (hg : g.Sealed) :
    ⦃⌜True⌝⦄ binding g ⦃⇓? p => ⌜p.Paired⌝⦄ := by
  mvcgen [binding] <;> grind

@[spec] theorem statement?_spec (hg : g.Sealed) :
    ⦃⌜True⌝⦄ statement? g ⦃⇓? o => ⌜∀ p, o = some p → p.Paired⌝⦄ := by
  mvcgen [statement?] <;> grind

@[spec] theorem block_spec (hg : g.Sealed) :
    ⦃⌜True⌝⦄ block g ⦃⇓? p => ⌜p.Sealed⌝⦄ := by
  have := Reader.many_paired (statement?_spec hg)
  mvcgen [block, Reader.inside, this, -Reader.many_spec]
  grind

end Grammar

/-! ## All levels -/

namespace Nesting

/-- Below the last level nothing is read. -/
theorem sealed_none : none.Sealed where
  type _ := Reader.failWith_returns (fun _ => .tooDeep) fun t : TypePhrase => t.phrase.Sealed
  expr _ := Reader.failWith_returns (fun _ => .tooDeep) Phrase.Sealed
  statement := Reader.failWith_returns (fun _ => .tooDeep) fun p : Phrase × Bool => p.1.Sealed
  block := Reader.failWith_returns (fun _ => .tooDeep) Phrase.Sealed
  bound _ := Reader.failWith_returns (fun _ => .tooDeep) fun b : BoundKind × Phrase => b.2.Sealed

variable {g : Nesting}

theorem Sealed.above (hg : g.Sealed) : g.above.Sealed where
  type := Grammar.type_spec hg
  expr := Grammar.expr_spec hg
  statement := Grammar.statementExpr_spec hg
  block := Grammar.block_spec hg
  bound := Grammar.bound_spec hg

/-- Every level is sealed, by induction from the level below. -/
theorem sealed_levels (depth : Nat) : (levels depth).Sealed := by
  induction depth with
  | zero => exact sealed_none
  | succ depth ih => exact ih.above

end Nesting

/-- **A type that was read is sealed.** -/
theorem sealed_of_readType {ts r : List Placed} {p : Phrase} (h : readType ts = .ok (p, r)) :
    p.Sealed :=
  Reader.triple_iff.mp (Nesting.anyType_spec (Nesting.sealed_levels _)) ts p r h

end KeyedRecord.Source
