import KeyedRecord.Proofs.Source.Sights

/-!
# One level of the grammar echoes

Whatever stands one level deeper is taken to echo, as far as the bound on the length of the print
allows; then the rules of the grammar do.  This module says what that means and begins with the
rules for literals.
-/

set_option autoImplicit false

namespace KeyedRecord.Source

open Grammar

namespace Form

/-- A type, with its form. -/
def type : Form TypePhrase :=
  ⟨fun t => t.phrase.printed, fun t => { t with phrase := t.phrase.canonical }⟩

/-- A path, with what may still be asked about it. -/
def path : Form PathPhrase :=
  ⟨fun p => p.phrase.printed, fun p => { p with phrase := p.phrase.canonical }⟩

end Form

/-! ## Starts of types and expressions -/

/-- What follows the first name of a type. -/
def Continues (E : Sight) : Sight := fun ts u =>
  E ts u ∨ ∃ s ∈ ["::", "<", "!", "+"], OnOperator s .any ts u

/-- The start of a type that ends in sight `E`. -/
structure TypeStart (E : Sight) (ts u : List Placed) : Prop extends Onset ts u where
  named : Front.identifier u = true ∨ Front.word "_" u = true ∨ Front.word "self" u = true →
    Continues E (ts.drop 1) (u.drop 1)
  immutable : Front.word "mut" u = false
  /-- A type that starts with a lifetime is a sum of bounds. -/
  summed : Front.lifetime u = true → Front.op "+" (u.drop 1) = true

/-- The start of an expression. -/
structure ExprStart (ts u : List Placed) : Prop extends Onset ts u where
  raw : Denies (fun ts =>
    Front.word "raw" ts && (Front.word "mut" (ts.drop 1) || Front.word "const" (ts.drop 1))) ts u

/-- The start of a statement or of what an arm leads to. -/
structure StatementStart (ts u : List Placed) : Prop extends Onset ts u where
  block : startsBlock u = startsBlock ts

/-- The start of a bound that ends in sight `E`.  A lifetime is a bound of its own. -/
structure BoundStart (E : Sight) (ts u : List Placed) : Prop extends Onset ts u where
  alone : Front.lifetime u = true → E (ts.drop 1) (u.drop 1)

/-- The end of an expression that may be a statement of its own, where another one may start. -/
def LooseEnd (braces isStatement : Bool) : Sight := fun ts u =>
  ExprEnd braces ts u ∨ (isStatement = true ∧ Onset ts u)

/-- The readers of one level echo, those of types, expressions and statements as long as the print
has less than `K` tokens and those of blocks and bounds as long as it has less than `J`. -/
structure Nesting.Echo (g g' : Nesting) (K J : Nat) : Prop where
  le : K ≤ J
  type : ∀ (plus : Bool) (E : Sight), (∀ r w, E r w → TypeEnd r w) → ∀ ts,
    EchoAt K .type [] (TypeStart E) (fun _ => E) (g.type plus) (g'.type plus) ts
  expr : ∀ braces ts,
    EchoAt K .phrase [] ExprStart (fun _ => ExprEnd braces) (g.expr braces) (g'.expr braces) ts
  statement : ∀ ts, EchoAt K (.flagged .phrase) [] StatementStart (fun a => LooseEnd true a.2)
    g.statement g'.statement ts
  block : ∀ ts, EchoAt J .phrase [] (OnToken (.opening .brace) .any) (fun _ => .any) g.block
    g'.block ts
  bound : ∀ (rules : BoundRules) (E : Sight), (∀ r w, E r w → TypeEnd r w) → ∀ ts,
    EchoAt J (.marked .phrase) [] (BoundStart E) (fun _ => E) (g.bound rules) (g'.bound rules) ts
  lifetimeBound : ∀ rules ts b r, Front.lifetime ts = true → g.bound rules ts = .ok (b, r) →
    b.1 = .lifetime

namespace Nesting

variable {g g' : Nesting} {K J : Nat} {ts : List Placed}

theorem Echo.anyType (h : Echo g g' K J) {E : Sight} (hE : ∀ r w, E r w → TypeEnd r w) :
    EchoAt K .phrase [] (TypeStart E) (fun _ => E) g.anyType g'.anyType ts :=
  EchoAt.bind (Nat.le_add_right K _) (h.type true E hE ts) fun _ _ _ => .pure rfl rfl fun _ h => h

theorem Echo.anyBound (h : Echo g g' K J) (rules : BoundRules) {E : Sight}
    (hE : ∀ r w, E r w → TypeEnd r w) :
    EchoAt J (.marked .phrase) [] Onset (fun _ => E) (g.bound rules) (g'.bound rules) ts :=
  (h.bound rules E hE ts).weaken fun _ hu => hu.toOnset

theorem Echo.typeWithoutPlus (h : Echo g g' K J) {E : Sight} (hE : ∀ r w, E r w → TypeEnd r w) :
    EchoAt K .phrase [] (TypeStart E) (fun _ => E) g.typeWithoutPlus g'.typeWithoutPlus ts :=
  EchoAt.bind (Nat.le_add_right K _) (h.type false E hE ts) fun _ _ _ => .pure rfl rfl fun _ h => h

end Nesting

namespace Grammar

/-! ## Literals -/

/-- A token that is a literal of its own. -/
def IsLiteral (t : Token) : Prop := (∃ text, t = .literal text) ∨ t = .ident "true" ∨
    t = .ident "false"

theorem exists_of_literal {ts r : List Placed} {t : Placed} (h : Reader.literal ts = .ok (t, r)) :
    (ts = t :: r ∧ IsLiteral t.token) ∨
      ∃ j s text s', ts = ⟨.punct '-' j, s⟩ :: ⟨.literal text, s'⟩ :: r ∧
        Front.isNumber text = true ∧ t.token = .literal ("-" ++ text) := by
  unfold Reader.literal at h
  split at h
  · rename_i j s text s' r'
    split at h
    · cases h
      exact .inr ⟨j, s, text, s', rfl, ‹_›, rfl⟩
    · cases h
  · rename_i t' r' hne
    split at h
    · rename_i hl
      cases h
      refine .inl ⟨rfl, ?_⟩
      obtain ⟨token, s⟩ := t
      cases token with
      | literal text => exact .inl ⟨text, rfl⟩
      | ident name =>
        simp only [Front.literal, Bool.or_eq_true, beq_iff_eq] at hl
        exact .inr (hl.imp (congrArg _) (congrArg _))
      | punct c j =>
        unfold Front.literal at hl
        split at hl
        · cases ‹_ :: _ = _ :: _›
        · cases ‹_ :: _ = _ :: _›
        · rename_i j' s' text s'' r' heq
          cases heq
          exact absurd rfl (fun he => hne j s text s'' r' rfl he)
        · cases hl
      | _ => cases hl
    · cases h
  · cases h

/-- A lexed literal has no sign. -/
theorem head_of_lexable {text : String} (h : (Token.literal text).Lexable) (cs : List Char) :
    text.toList ≠ '-' :: cs := by
  intro htext
  have hleaf := (h.1 [] trivial).2.2
  rw [htext, List.append_nil] at hleaf
  have hlit : Lexer.literal ('-' :: cs) = none := by
    simp [Lexer.literal, Lexer.decimalDigits, Lexer.wholeDigits, Lexer.baseDigits,
      Text.isAsciiDigit, Text.hexValue?, Lexer.numberWith, Lexer.withSuffix]
  have hpunct : Lexer.leaf ('-' :: cs) =
      some (.punct '-' (Lexer.startsPunctuation cs), ['-'], cs) := by
    simp [Lexer.leaf, hlit, Lexer.startsPunctuation, Lexer.isPunctuation]
  rw [hpunct] at hleaf
  cases hleaf

theorem literal_of_isLiteral {t : Token} (ht : IsLiteral t) (hl : t.Lexable) :
    Phrase.literal t = .ofToken t := by
  obtain ⟨text, rfl⟩ | rfl | rfl := ht
  · simp only [Phrase.literal]
    split
    · rename_i cs htext
      exact absurd htext (head_of_lexable hl cs)
    · rfl
  · rfl
  · rfl

/-- The start of a literal. -/
def LiteralStart : Sight := fun ts u => Onset ts u ∧ Front.literal ts = true

theorem IsLiteral.leaf {t : Token} (h : IsLiteral t) :
    (∀ d, t ≠ .opening d ∧ t ≠ .closing d) ∧ (∀ c j, t ≠ .punct c j) ∧ t.Settled := by
  obtain ⟨text, rfl⟩ | rfl | rfl := h <;> simp [Token.Settled]

theorem front_literal {t : Token} (h : IsLiteral t) (s : Span) (r : List Placed) :
    Front.literal (⟨t, s⟩ :: r) = true := by
  obtain ⟨text, rfl⟩ | rfl | rfl := h <;> rfl

theorem literal_of_token {t : Token} (h : IsLiteral t) (s : Span) (r : List Placed) :
    Reader.literal (⟨t, s⟩ :: r) = .ok (⟨t, s⟩, r) := by
  have hf := front_literal h s r
  obtain ⟨text, rfl⟩ | rfl | rfl := h <;> simp [Reader.literal, hf]

theorem literalPhrase_eq (ts : List Placed) :
    literalPhrase ts = (Reader.literal ts).map fun v => (Phrase.literal v.1.token, v.2) := by
  show (Reader.literal ts).bind (fun v => .ok (Phrase.literal v.1.token, v.2)) = _
  cases Reader.literal ts <;> rfl

theorem literal_negative (text : String) :
    Phrase.literal (.literal ("-" ++ text)) = .ofTokens [.punct '-' false, .literal text] := by
  simp [Phrase.literal, Phrase.ofTokens]

theorem literalPhrase_number {text : String} (h : Front.isNumber text = true) (j : Bool)
    (s s' : Span) (r : List Placed) :
    literalPhrase (⟨.punct '-' j, s⟩ :: ⟨.literal text, s'⟩ :: r) =
      .ok (.ofTokens [.punct '-' false, .literal text], r) := by
  rw [literalPhrase_eq]
  simp [Reader.literal, h, Except.map, literal_negative]

theorem literalPhrase_token {t : Token} (h : IsLiteral t) (hl : t.Lexable) (s : Span)
    (r : List Placed) : literalPhrase (⟨t, s⟩ :: r) = .ok (.ofToken t, r) := by
  rw [literalPhrase_eq, literal_of_token h]
  simp [Except.map, literal_of_isLiteral h hl]

/-- A literal, with the sign of a number before it. -/
theorem literalPhrase_echo {L : Nat} {E : Phrase → Sight} {ts : List Placed} :
    EchoAt L .phrase [] LiteralStart E literalPhrase literalPhrase ts := by
  refine .of_sound fun hsound => ?_
  cases hl : Reader.literal ts with
  | error e => exact .of_error fun _ _ h => by simp [literalPhrase_eq, hl, Except.map] at h
  | ok v =>
    obtain ⟨t, r⟩ := v
    rcases exists_of_literal hl with ⟨rfl, hlit⟩ | ⟨j, s, text, s', rfl, hnumber, -⟩
    · obtain ⟨t, s⟩ := t
      obtain ⟨hb, hp, hs⟩ := hlit.leaf
      have hlex : t.Lexable := hsound.lexable t (by simp [tokensOf])
      exact .token (a := .ofToken t) (literalPhrase_token hlit hlex s r)
        (literalPhrase_token hlit hlex) rfl hs hb
        fun u h => ⟨.of_token (fun d => (hb d).2) hp h, front_literal hlit s r⟩
    · intro _ p r' h
      rw [literalPhrase_number hnumber] at h
      cases h
      have hlex : (Token.literal text).Lexable := hsound.lexable _ (by simp [tokensOf])
      refine ⟨(List.suffix_cons _ _).trans (List.suffix_cons _ _), _, rfl, ?_, fun us w hu _ => ?_⟩
      · exact (fit_operatorTokens (l := ['-']) (by decide)).append
          (.singleton hlex trivial (by simp))
      · obtain ⟨⟨t₁, s₁⟩, us, rfl, ht₁, hu⟩ := List.map_eq_cons_iff.mp hu
        obtain ⟨⟨t₂, s₂⟩, rfl, ht₂⟩ := List.map_eq_singleton_iff.mp hu
        obtain rfl : t₁ = .punct '-' false := ht₁
        obtain rfl : t₂ = .literal text := ht₂
        refine ⟨⟨.of_minus ⟨?_, [⟨.punct '-' false, s₁⟩], ⟨.literal text, s₂⟩ :: w, rfl, rfl, ?_⟩,
          ?_⟩,
          fun _ => literalPhrase_number hnumber ..⟩
        · simp [Front.op, Front.isOperator]
        · exact .of_token (M := .any) (by simp) (by simp) ⟨s', r, s₂, w, rfl, rfl, trivial⟩
        · exact hnumber

end Grammar

end KeyedRecord.Source
