import Mathlib
import KeyedRecord.Source.Grammar.Basic
import KeyedRecord.Proofs.Source.Body
import KeyedRecord.Proofs.Source.Readers

/-!
# Readers of sealed phrases

A phrase is `Sealed` if its printed tokens can stand anywhere inside a statement.  The combinators
of phrases keep this, and the readers of single tokens and of lists return nothing else, so a rule
of the grammar is checked by going through its steps: `mvcgen` collects them from the facts tagged
`spec` here, and `grind` puts the phrase together from the facts tagged here for it.
-/

set_option autoImplicit false
set_option mvcgen.warning false

namespace KeyedRecord.Source

open Std.Do

/-! ## Phrases -/

namespace Phrase

variable {p q : Phrase}

/-- The phrase can be printed anywhere inside a statement. -/
def Sealed (p : Phrase) : Prop := Source.Sealed p.printed

/-- The brackets of the phrase pair up. -/
def Paired (p : Phrase) : Prop := Source.Paired p.printed

@[grind ←] theorem Sealed.paired (h : p.Sealed) : p.Paired := Source.Sealed.paired h

@[grind ←] theorem sealed_append (hp : p.Sealed) (hq : q.Sealed) : (p ++ q).Sealed :=
  SealedFrom.append hp hq

@[grind ←] theorem sealed_append₄ {p' q' : Phrase} (hp : p.Sealed) (hq : q.Sealed)
    (hp' : p'.Sealed) (hq' : q'.Sealed) : (p ++ q ++ p' ++ q').Sealed :=
  sealed_append (sealed_append (sealed_append hp hq) hp') hq'

@[grind ←] theorem paired_append (hp : p.Paired) (hq : q.Paired) : (p ++ q).Paired :=
  SealedFrom.append hp hq

@[grind ←] theorem sealed_empty : Phrase.empty.Sealed := SealedFrom.nil

@[grind ←] theorem sealed_ofToken {t : Token} (h : t.isPlain = true) : (ofToken t).Sealed :=
  SealedFrom.plain h

@[grind ←] theorem sealed_word (w : String) : (word w).Sealed := sealed_ofToken rfl

@[grind ←] theorem sealed_number (text : String) : (ofToken (.literal text)).Sealed :=
  sealed_ofToken rfl

@[grind ←] theorem sealed_operator {s : String} (h : ';' ∉ s.toList) : (operator s).Sealed :=
  SealedFrom.operatorTokens h

theorem paired_operator {s : String} (h : s = ";" ∨ ';' ∉ s.toList) : (operator s).Paired := by
  rcases h with rfl | h
  · exact SealedFrom.semicolon rfl
  · exact (sealed_operator h).paired

@[grind ←] theorem paired_ofTokens {ts : List Token} (h : Source.Paired ts) :
    (ofTokens ts).Paired :=
  h

@[grind ←] theorem sealed_bracketed (h : p.Paired) (d : Delimiter) : (bracketed d p).Sealed :=
  SealedFrom.bracketed h d d

theorem sealed_literal {t : Token} (h : t.isPlain = true) : (literal t).Sealed := by
  unfold literal
  split
  · split
    · exact SealedFrom.append (SealedFrom.plain rfl) (SealedFrom.plain rfl)
    · exact sealed_ofToken h
  · exact sealed_ofToken h

theorem sealed_join {ps : List Phrase} (h : ∀ p ∈ ps, p.Sealed) : (join ps).Sealed := by
  induction ps with
  | nil => exact sealed_empty
  | cons p ps ih => exact sealed_append (h p (by simp)) (ih fun q hq => h q (by simp [hq]))

@[grind ←] theorem sealed_separated {sep : String} (hs : ';' ∉ sep.toList)
    {items : List (Phrase × Bool)} (h : ∀ i ∈ items, i.1.Sealed) :
    (separated sep items).Sealed := by
  refine sealed_join fun p hp => ?_
  obtain ⟨⟨q, more⟩, hq, rfl⟩ := List.mem_map.mp hp
  have := h _ hq
  cases more with
  | false => exact this
  | true => exact sealed_append this (sealed_operator hs)

@[grind ←] theorem sealed_ofOption {o : Option Phrase} (h : ∀ p, o = some p → p.Sealed) :
    (ofOption o).Sealed := by
  cases o with
  | none => exact sealed_empty
  | some p => exact h p rfl

end Phrase

@[grind ←] theorem sealed_lifetimesFirst {items : List RankedItem} (h : ∀ i ∈ items, i.2.1.Sealed) :
    (lifetimesFirst items).Sealed := by
  have plain (is : List RankedItem) (hi : ∀ i ∈ is, i ∈ items) :
      (Phrase.separated "," (is.map (·.2))).Sealed := by
    refine Phrase.sealed_separated (by decide) fun p hp => ?_
    obtain ⟨i, hmem, rfl⟩ := List.mem_map.mp hp
    exact h i (hi i hmem)
  have hl := plain (items.filter (·.1)) fun i hi => (List.mem_filter.mp hi).1
  have ho := plain (items.filter (!·.1)) fun i hi => (List.mem_filter.mp hi).1
  unfold lifetimesFirst
  refine Phrase.sealed_append (Phrase.sealed_append hl ?_) ho
  split
  · split
    · exact Phrase.sealed_empty
    · exact Phrase.sealed_operator (by decide)
  · exact Phrase.sealed_empty

/-! ## Single tokens -/

namespace Reader

/-- A triple about the result alone. -/
theorem triple_iff {α : Type} {p : Reader α} {P : α → Prop} :
    ⦃⌜True⌝⦄ p ⦃⇓? a => ⌜P a⌝⦄ ↔ ∀ ts a r, p ts = .ok (a, r) → P a := by
  constructor
  · intro h ts a r hp
    have := h ts
    simp only [wp, PredTrans.apply, PredTrans.pushArg, StateT.run, hp] at this
    exact this trivial
  · intro h ts _
    simp only [wp, PredTrans.apply, PredTrans.pushArg, StateT.run]
    cases hp : p ts with
    | error e => trivial
    | ok v => exact h ts v.1 v.2 hp

/-- A reader that counts what is left to read, if it is right for any count. -/
theorem counted_spec {α : Type} {p : Reader α} {f : Nat → Reader α} {P : α → Prop}
    (h : ∀ n, ⦃⌜True⌝⦄ f n ⦃⇓? a => ⌜P a⌝⦄) (hp : ∀ ts, p ts = f (ts.length + 1) ts) :
    ⦃⌜True⌝⦄ p ⦃⇓? a => ⌜P a⌝⦄ :=
  triple_iff.mpr fun ts a r hr => triple_iff.mp (h _) ts a r (hp ts ▸ hr)

/-- A failing reader returns nothing, so whatever it returns is as one likes. -/
theorem failWith_returns {α : Type} (c : Bool → Cause) (P : α → Prop) :
    ⦃⌜True⌝⦄ (failWith c : Reader α) ⦃⇓? a => ⌜P a⌝⦄ := by
  apply triple_iff.mpr
  intro ts a r h
  cases h

@[spec] theorem failWith_spec {α : Type} (c : Bool → Cause) :
    ⦃⌜True⌝⦄ (failWith c : Reader α) ⦃⇓? _ => ⌜False⌝⦄ :=
  failWith_returns c fun _ => False

@[spec] theorem missing_spec {α : Type} (what : List Wanted) :
    ⦃⌜True⌝⦄ (missing what : Reader α) ⦃⇓? _ => ⌜False⌝⦄ :=
  failWith_spec _

@[spec] theorem breaks_spec {α : Type} (r : Rule) :
    ⦃⌜True⌝⦄ (breaks r : Reader α) ⦃⇓? _ => ⌜False⌝⦄ :=
  failWith_spec _

/-- Nothing is said about what a reader returns. -/
theorem returns {α : Type} (p : Reader α) : ⦃⌜True⌝⦄ p ⦃⇓? _ => ⌜True⌝⦄ := by
  apply triple_iff.mpr
  intro _ _ _ _
  trivial

@[spec] theorem front_spec (q : List Placed → Bool) : ⦃⌜True⌝⦄ front q ⦃⇓? _ => ⌜True⌝⦄ :=
  returns _

/-- An operator is sealed, unless it is the semicolon. -/
theorem sealed_or_semicolon {s : String} (hs : s = ";" ∨ ';' ∉ s.toList) :
    (Phrase.operator s).Sealed ∨ s = ";" :=
  hs.symm.imp_left Phrase.sealed_operator

@[spec] theorem op_spec (s : String) (hs : s = ";" ∨ ';' ∉ s.toList) :
    ⦃⌜True⌝⦄ op s ⦃⇓? p => ⌜p.Paired ∧ (p.Sealed ∨ s = ";")⌝⦄ := by
  apply triple_iff.mpr
  intro ts p r h
  unfold op at h
  split at h <;> cases h
  exact ⟨Phrase.paired_operator hs, sealed_or_semicolon hs⟩

@[spec] theorem op?_spec (s : String) (hs : s = ";" ∨ ';' ∉ s.toList) :
    ⦃⌜True⌝⦄ op? s ⦃⇓? o => ⌜∀ p, o = some p → p.Paired ∧ (p.Sealed ∨ s = ";")⌝⦄ := by
  apply triple_iff.mpr
  intro ts o r h p hp
  unfold op? at h
  split at h <;> cases h <;> cases hp
  exact ⟨Phrase.paired_operator hs, sealed_or_semicolon hs⟩

@[spec] theorem word_spec (w : String) : ⦃⌜True⌝⦄ word w ⦃⇓? p => ⌜p.Sealed⌝⦄ := by
  apply triple_iff.mpr
  intro ts p r h
  unfold word at h
  split at h <;> cases h
  exact Phrase.sealed_word w

@[spec] theorem anyWord_spec : ⦃⌜True⌝⦄ anyWord ⦃⇓? _ => ⌜True⌝⦄ :=
  returns _

@[spec] theorem identifier_spec : ⦃⌜True⌝⦄ identifier ⦃⇓? _ => ⌜True⌝⦄ :=
  returns _

@[spec] theorem anyDelimiter_spec : ⦃⌜True⌝⦄ anyDelimiter ⦃⇓? _ => ⌜True⌝⦄ :=
  returns _

@[spec] theorem opening_spec (d : Delimiter) : ⦃⌜True⌝⦄ opening d ⦃⇓? _ => ⌜True⌝⦄ :=
  returns _

@[spec] theorem closing_spec (d : Delimiter) : ⦃⌜True⌝⦄ closing d ⦃⇓? _ => ⌜True⌝⦄ :=
  returns _

@[spec] theorem lifetime_spec : ⦃⌜True⌝⦄ lifetime ⦃⇓? p => ⌜p.Sealed⌝⦄ := by
  apply triple_iff.mpr
  intro ts p r h
  unfold lifetime at h
  split at h <;> cases h
  exact Phrase.sealed_ofToken rfl

/-- A literal is a plain token, also with the sign of a number before it. -/
@[spec] theorem literal_spec : ⦃⌜True⌝⦄ literal ⦃⇓? t => ⌜t.token.isPlain = true⌝⦄ := by
  apply triple_iff.mpr
  intro ts t r h
  unfold literal at h
  split at h
  · split at h <;> cases h
    rfl
  · split at h
    · rename_i hf
      cases h
      unfold Front.literal at hf
      split at hf <;> simp_all [Token.isPlain, Token.isSemicolon]
    · cases h
  · cases h

/-! ## Unread stretches -/

/-- A stretch that ends at a closing token leads from any depth to the depth behind it: `k` brackets
close in it that were opened before. -/
theorem read_splitClosing {k : Nat} {ts a : List Placed} {t : Placed} {b : List Placed}
    (h : splitClosing k ts = (a, t :: b)) {depth : Nat} (hd : 1 ≤ depth) (rest : List Token) :
    Body.read (depth + k) (tokensOf a ++ rest) = (Body.read depth rest).before (tokensOf a) := by
  induction ts generalizing k a with
  | nil => cases h
  | cons u ts ih =>
    have step {k' : Nat} {a' : List Placed} (h' : splitClosing k' ts = (a', t :: b))
        (hu : u.token.depthBehind (depth + k) = depth + k') :
        Body.read (depth + k) (tokensOf (u :: a') ++ rest) =
          (Body.read depth rest).before (tokensOf (u :: a')) := by
      have := ih h'
      simp only [tokensOf, List.map_cons, List.cons_append] at this ⊢
      rw [Body.read, if_neg (by omega), hu, this, Body.before_before, List.singleton_append]
    unfold splitClosing at h
    split at h
    · rename_i hu
      obtain ⟨rfl, hb⟩ := Prod.mk.injEq .. ▸ h
      exact step (Prod.ext rfl hb) (by rw [hu]; simp [Token.depthBehind]; omega)
    · rename_i hu
      split at h
      · rename_i hk
        cases h
        subst hk
        simp [tokensOf, Body.before_nil]
      · obtain ⟨rfl, hb⟩ := Prod.mk.injEq .. ▸ h
        exact step (Prod.ext rfl hb) (by rw [hu]; simp [Token.depthBehind]; omega)
    · rename_i hu₁ hu₂
      obtain ⟨rfl, hb⟩ := Prod.mk.injEq .. ▸ h
      refine step (Prod.ext rfl hb) ?_
      cases hu : u.token <;> simp_all [Token.depthBehind]

/-- **What stands between two brackets is paired**, unread or not. -/
theorem paired_unread {ts a r : List Placed} {d : Delimiter} {s : Span} {r' : List Placed}
    (h : unread ts = .ok (a, r)) (hc : closing d r = .ok (s, r')) : Paired (tokensOf a) := by
  cases r with
  | nil => cases hc
  | cons t b =>
    have hs : splitClosing 0 ts = (a, t :: b) := by simpa [unread] using h
    exact fun depth hd rest => read_splitClosing hs hd rest

@[spec] theorem inside_unread_spec (d : Delimiter) :
    ⦃⌜True⌝⦄ inside d unread ⦃⇓? ts => ⌜Paired (tokensOf ts)⌝⦄ := by
  apply triple_iff.mpr
  intro ts a r h
  obtain ⟨_, s₁, -, h⟩ := bind_eq_ok h
  obtain ⟨a', s₂, hu, h⟩ := bind_eq_ok h
  obtain ⟨_, s₃, hc, h⟩ := bind_eq_ok h
  cases h
  exact paired_unread hu hc

@[spec] theorem unreadGroup_spec : ⦃⌜True⌝⦄ unreadGroup ⦃⇓? p => ⌜p.Sealed⌝⦄ := by
  mvcgen [unreadGroup]
  grind

/-! ## Lists -/

end Reader

/-- Results that hold phrases, all of them sealed. -/
class Sealable (α : Type) where
  IsSealed : α → Prop

instance : Sealable Phrase := ⟨Phrase.Sealed⟩

instance {κ α : Type} [Sealable α] : Sealable (κ × α) := ⟨fun p => Sealable.IsSealed p.2⟩

@[grind =, simp] theorem isSealed_phrase (p : Phrase) : Sealable.IsSealed p ↔ p.Sealed := Iff.rfl

@[grind =, simp] theorem isSealed_pair {κ α : Type} [Sealable α] (p : κ × α) :
    Sealable.IsSealed p ↔ Sealable.IsSealed p.2 := Iff.rfl

namespace Reader

variable {α : Type} [Sealable α] {item : Reader α}

theorem listUntilFuel_spec (stop : List Placed → Bool) (sep : String) (fuel : Nat)
    (hs : sep = ";" ∨ ';' ∉ sep.toList) (h : ⦃⌜True⌝⦄ item ⦃⇓? a => ⌜Sealable.IsSealed a⌝⦄) :
    ⦃⌜True⌝⦄ listUntilFuel stop sep item fuel ⦃⇓? as => ⌜∀ a ∈ as, Sealable.IsSealed a.1⌝⦄ := by
  induction fuel with
  | zero => exact failWith_returns _ _
  | succ fuel ih =>
    mvcgen [listUntilFuel, h, ih] <;> grind

@[spec] theorem listUntil_spec (stop : List Placed → Bool) (sep : String)
    (hs : sep = ";" ∨ ';' ∉ sep.toList) (h : ⦃⌜True⌝⦄ item ⦃⇓? a => ⌜Sealable.IsSealed a⌝⦄) :
    ⦃⌜True⌝⦄ listUntil stop sep item ⦃⇓? as => ⌜∀ a ∈ as, Sealable.IsSealed a.1⌝⦄ :=
  counted_spec (listUntilFuel_spec stop sep · hs h) fun _ => rfl

theorem chainFuel_spec (stop : List Placed → Bool) (sep : String) (fuel : Nat)
    (hs : sep = ";" ∨ ';' ∉ sep.toList) (h : ⦃⌜True⌝⦄ item ⦃⇓? a => ⌜Sealable.IsSealed a⌝⦄) :
    ⦃⌜True⌝⦄ chainFuel stop sep item fuel ⦃⇓? as => ⌜∀ a ∈ as, Sealable.IsSealed a.1⌝⦄ := by
  induction fuel with
  | zero => exact failWith_returns _ _
  | succ fuel ih =>
    mvcgen [chainFuel, h, ih] <;> grind

@[spec] theorem chain_spec (stop : List Placed → Bool) (sep : String)
    (hs : sep = ";" ∨ ';' ∉ sep.toList) (h : ⦃⌜True⌝⦄ item ⦃⇓? a => ⌜Sealable.IsSealed a⌝⦄) :
    ⦃⌜True⌝⦄ chain stop sep item ⦃⇓? as => ⌜∀ a ∈ as, Sealable.IsSealed a.1⌝⦄ :=
  counted_spec (chainFuel_spec stop sep · hs h) fun _ => rfl

/-- A property of phrases that all repetitions of a step keep. -/
theorem manyFuel_spec {P : Phrase → Prop} {step : Reader (Option Phrase)} (he : P .empty)
    (ha : ∀ p q, P p → P q → P (p ++ q)) (fuel : Nat)
    (h : ⦃⌜True⌝⦄ step ⦃⇓? o => ⌜∀ p, o = some p → P p⌝⦄) :
    ⦃⌜True⌝⦄ manyFuel step fuel ⦃⇓? p => ⌜P p⌝⦄ := by
  induction fuel with
  | zero => exact failWith_returns _ _
  | succ fuel ih =>
    mvcgen [manyFuel, h, ih]
    grind

@[spec] theorem many_spec {step : Reader (Option Phrase)}
    (h : ⦃⌜True⌝⦄ step ⦃⇓? o => ⌜∀ p, o = some p → p.Sealed⌝⦄) :
    ⦃⌜True⌝⦄ many step ⦃⇓? p => ⌜p.Sealed⌝⦄ :=
  counted_spec (manyFuel_spec Phrase.sealed_empty (fun _ _ => Phrase.sealed_append) · h)
    fun _ => rfl

theorem many_paired {step : Reader (Option Phrase)}
    (h : ⦃⌜True⌝⦄ step ⦃⇓? o => ⌜∀ p, o = some p → p.Paired⌝⦄) :
    ⦃⌜True⌝⦄ many step ⦃⇓? p => ⌜p.Paired⌝⦄ :=
  counted_spec (manyFuel_spec Phrase.sealed_empty.paired (fun _ _ => Phrase.paired_append) · h)
    fun _ => rfl

end Reader

end KeyedRecord.Source
