import Mathlib
import KeyedRecord.Source.Attribute
import KeyedRecord.Proofs.Source.Sealed

/-!
# Attributes are sealed

The path of an attribute consists of words, what stands in its brackets is paired because it was cut
out at a closing bracket, and its value is a literal or an expression.
-/

set_option autoImplicit false
set_option mvcgen.warning false

namespace KeyedRecord.Source

open Std.Do

namespace Reader

/-- A list of single tokens, each of which stands where the list goes on. -/
theorem chainFuel_next_spec {stop : List Placed → Bool} {P : Placed → Prop}
    (h : ∀ t r, stop (t :: r) = false → P t) (sep : String) (fuel : Nat) :
    ⦃⌜True⌝⦄ chainFuel stop sep next fuel ⦃⇓? as => ⌜∀ a ∈ as, P a.1⌝⦄ := by
  induction fuel with
  | zero => exact failWith_returns _ _
  | succ fuel ih =>
    refine triple_iff.mpr fun ts as r hr => ?_
    obtain ⟨stops, s₁, hf, hr⟩ := bind_eq_ok hr
    cases hf
    split at hr
    · cases hr
      simp
    rename_i hs
    obtain ⟨t, s₂, hn, hr⟩ := bind_eq_ok hr
    have ht : P t := by
      cases ts with
      | nil => cases hn
      | cons u us =>
        cases hn
        exact h t s₂ (by simpa using hs)
    obtain ⟨o, s₃, -, hr⟩ := bind_eq_ok hr
    split at hr
    · cases hr
      simpa using ht
    · obtain ⟨more, s₄, hm, hr⟩ := bind_eq_ok hr
      cases hr
      intro a ha
      rcases List.mem_cons.mp ha with rfl | ha
      · exact ht
      · exact triple_iff.mp ih _ _ _ hm a ha

theorem chain_next_spec {stop : List Placed → Bool} {P : Placed → Prop}
    (h : ∀ t r, stop (t :: r) = false → P t) (sep : String) :
    ⦃⌜True⌝⦄ chain stop sep next ⦃⇓? as => ⌜∀ a ∈ as, P a.1⌝⦄ :=
  counted_spec (chainFuel_next_spec h sep ·) fun _ => rfl

end Reader

/-! ## Paths -/

namespace PlainPath

/-- The segments of the path are words. -/
def Plain (p : PlainPath) : Prop := ∀ s ∈ p.segments, s.token.isPlain = true

/-- Where a segment starts, a word stands. -/
theorem isPlain_of_startsSegment {t : Placed} {r : List Placed}
    (h : startsSegment (t :: r) = true) : t.token.isPlain = true := by
  obtain ⟨token, span⟩ := t
  cases token <;> simp_all [startsSegment, Front.identifier, Front.word, Token.isPlain,
    Token.isSemicolon]

@[spec] theorem read_spec : ⦃⌜True⌝⦄ read ⦃⇓? p => ⌜p.Plain⌝⦄ := by
  apply Reader.triple_iff.mpr
  intro ts p r h
  obtain ⟨_, s₁, -, h⟩ := Reader.bind_eq_ok h
  obtain ⟨segments, s₂, hs, h⟩ := Reader.bind_eq_ok h
  have hp : ∀ s ∈ segments, s.1.token.isPlain = true :=
    Reader.triple_iff.mp (Reader.chain_next_spec
      (fun t r h => isPlain_of_startsSegment (by simpa using h)) "::") _ _ _ hs
  cases hl : segments.getLast? with
  | none =>
    rw [hl] at h
    obtain ⟨_, s₃, -, h⟩ := Reader.bind_eq_ok h
    cases h
    exact fun s hs => absurd hs List.not_mem_nil
  | some last =>
    obtain ⟨_, comma⟩ := last
    rw [hl] at h
    cases comma with
    | true => cases h
    | false =>
      cases h
      intro s hs
      obtain ⟨i, hi, rfl⟩ := List.mem_map.mp hs
      exact hp i hi

theorem sealed_segments {ts : List Token} (h : ∀ t ∈ ts, t.isPlain = true) :
    Sealed ((operatorTokens "::".toList).intercalate (ts.map fun t => [t])) := by
  induction ts with
  | nil => exact SealedFrom.nil
  | cons t ts ih =>
    have ht : Sealed [t] := SealedFrom.plain (h t (by simp))
    have hts := ih fun u hu => h u (by simp [hu])
    cases ts with
    | nil => simpa [List.intercalate] using ht
    | cons u us =>
      have hc : Sealed (operatorTokens "::".toList) := SealedFrom.operatorTokens (by decide)
      have := SealedFrom.append ht (SealedFrom.append hc hts)
      simpa [List.intercalate, Sealed] using this

theorem sealed_phrase {p : PlainPath} (h : p.Plain) : p.phrase.Sealed := by
  refine Phrase.sealed_append ?_ ?_
  · split
    · exact Phrase.sealed_operator (by decide)
    · exact Phrase.sealed_empty
  · have hplain : ∀ t ∈ p.segments.map (·.token), t.isPlain = true := by
      intro t ht
      obtain ⟨s, hs, rfl⟩ := List.mem_map.mp ht
      exact h s hs
    have := sealed_segments hplain
    rw [List.map_map] at this
    exact this

end PlainPath

/-! ## Attributes -/

namespace Attribute

/-- What follows the path is sealed. -/
def SealedBody : AttributeBody → Prop
  | .bare => True
  | .list _ inner _ => Paired (tokensOf inner)
  | .value _ v => v.Sealed

theorem sealed_phrase {a : Attribute} (hp : a.path.Plain) (hb : SealedBody a.body) :
    a.phrase.Sealed := by
  obtain ⟨path, body⟩ := a
  have hp := PlainPath.sealed_phrase hp
  unfold phrase
  cases body with
  | bare => grind
  | list d inner close =>
    have : Phrase.Paired (.ofTokens (tokensOf inner)) := hb
    grind
  | value eq v =>
    have : Phrase.Sealed (.operator "=" ++ v) :=
      Phrase.sealed_append (Phrase.sealed_operator (by decide)) hb
    grind

@[spec] theorem readList_spec : ⦃⌜True⌝⦄ readList ⦃⇓? b => ⌜SealedBody b⌝⦄ := by
  apply Reader.triple_iff.mpr
  intro ts b r h
  obtain ⟨d, s₁, -, h⟩ := Reader.bind_eq_ok h
  obtain ⟨_, s₂, -, h⟩ := Reader.bind_eq_ok h
  obtain ⟨inner, s₃, hu, h⟩ := Reader.bind_eq_ok h
  obtain ⟨_, s₄, hc, h⟩ := Reader.bind_eq_ok h
  cases h
  exact Reader.paired_unread hu hc

variable {expr : Reader Phrase}

@[spec] theorem readValue_spec (he : ⦃⌜True⌝⦄ expr ⦃⇓? p => ⌜p.Sealed⌝⦄) :
    ⦃⌜True⌝⦄ readValue expr ⦃⇓? p => ⌜p.Sealed⌝⦄ := by
  apply Reader.triple_iff.mpr
  intro ts p r h
  unfold readValue at h
  split at h
  · rename_i lit r' hl
    split at h
    · cases h
      exact Phrase.sealed_literal (Reader.triple_iff.mp Reader.literal_spec _ _ _ hl)
    · exact Reader.triple_iff.mp he _ _ _ h
  · split at h
    · cases h
    · exact Reader.triple_iff.mp he _ _ _ h

/-- The path of the attribute is plain, and what follows it is sealed. -/
def Parts (a : Attribute) : Prop := a.path.Plain ∧ SealedBody a.body

@[spec] theorem readMeta_spec (he : ⦃⌜True⌝⦄ expr ⦃⇓? p => ⌜p.Sealed⌝⦄) :
    ⦃⌜True⌝⦄ readMeta expr ⦃⇓? a => ⌜a.Parts⌝⦄ := by
  -- The word `unsafe` is taken as any token, so it is told apart where it is known to stand.
  have behind (path : PlainPath) (hp : path.Plain) : ⦃⌜True⌝⦄ (do
      if ← Reader.front fun ts =>
          Front.opening .paren ts || Front.opening .bracket ts || Front.opening .brace ts then
        return ⟨path, ← readList⟩
      else if ← Reader.front (Front.op "=") then
        let eq ← Reader.next
        return ⟨path, .value eq.span (← readValue expr)⟩
      else return ⟨path, .bare⟩ : Reader Attribute) ⦃⇓? a => ⌜a.Parts⌝⦄ := by
    have hn : ⦃⌜True⌝⦄ Reader.next ⦃⇓? _ => ⌜True⌝⦄ := Reader.returns _
    mvcgen [hn]
  refine Reader.triple_iff.mpr fun ts a r h => ?_
  obtain ⟨isUnsafe, s₁, hf, h⟩ := Reader.bind_eq_ok h
  cases hf
  split at h
  · rename_i hw
    obtain ⟨w, s₂, hn, h⟩ := Reader.bind_eq_ok h
    refine Reader.triple_iff.mp (behind _ fun s hs => ?_) _ _ _ h
    obtain rfl := List.mem_singleton.mp hs
    cases ts with
    | nil => cases hn
    | cons t ts =>
      cases hn
      obtain ⟨token, span⟩ := s
      cases token <;> simp_all [Front.word, Token.isPlain, Token.isSemicolon]
  · obtain ⟨path, s₂, hp, h⟩ := Reader.bind_eq_ok h
    exact Reader.triple_iff.mp (behind path (Reader.triple_iff.mp PlainPath.read_spec _ _ _ hp))
      _ _ _ h

@[spec] theorem read_spec (he : ⦃⌜True⌝⦄ expr ⦃⇓? p => ⌜p.Sealed⌝⦄) :
    ⦃⌜True⌝⦄ read expr ⦃⇓? a => ⌜a.Parts⌝⦄ := by
  mvcgen [read, Reader.inside]

theorem readFuel_spec (he : ⦃⌜True⌝⦄ expr ⦃⇓? p => ⌜p.Sealed⌝⦄) (fuel : Nat) :
    ⦃⌜True⌝⦄ readFuel expr fuel ⦃⇓? as => ⌜∀ a ∈ as, a.Parts⌝⦄ := by
  induction fuel with
  | zero => exact Reader.failWith_returns _ _
  | succ fuel ih => mvcgen [readFuel, ih] <;> grind

/-- **The attributes in front of an item are sealed** if the expressions in them are. -/
@[spec] theorem readAll_spec (he : ⦃⌜True⌝⦄ expr ⦃⇓? p => ⌜p.Sealed⌝⦄) :
    ⦃⌜True⌝⦄ readAll expr ⦃⇓? as => ⌜∀ a ∈ as, a.phrase.Sealed⌝⦄ :=
  Reader.triple_iff.mpr fun ts as r h a ha =>
    have := Reader.triple_iff.mp (readFuel_spec he _) ts as r h a ha
    sealed_phrase this.1 this.2

end Attribute

end KeyedRecord.Source
