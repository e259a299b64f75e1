import KeyedRecord.Proofs.Source.Lexable
import KeyedRecord.Proofs.Source.Readers
import KeyedRecord.Source.Grammar.Basic

/-!
# Printed phrases are read again

What a reader took from a source prints in canonical order and spacing, and the same reader finds
the same phrase in the print: it *echoes*.  A print differs from its source where characters that
the source joins belong to two operators, so a reader that looks ahead could go another way.  It
does not, because each question that it asks about a place of the source has the same answer at the
place of the print that stands for it.

`EchoAt` says this of one reader at one place of a source, with what its second run needs to know of
the place where it ends and what the first place tells whoever looks ahead from before it.  So the
facts about places travel from the end of a reader to its start, and the results the other way; the
rules for sequences, questions and single tokens put the readers of the grammar together.

Principal results: `EchoAt.bind`, `EchoAt.ask` and `EchoAt.last`.
-/

set_option autoImplicit false

namespace KeyedRecord.Source

/-! ## Phrases in print -/

namespace Phrase

/-- The phrase as its print reads. -/
def canonical (p : Phrase) : Phrase := ofTokens p.printed

variable (p q : Phrase)

@[simp] theorem printed_append : (p ++ q).printed = p.printed ++ q.printed := rfl

@[simp] theorem printed_empty : empty.printed = [] := rfl

@[simp] theorem printed_operator (s : String) :
    (operator s).printed = operatorTokens s.toList := rfl

@[simp] theorem printed_word (w : String) : (word w).printed = [.ident w] := rfl

@[simp] theorem printed_ofToken (t : Token) : (ofToken t).printed = [t] := rfl

@[simp] theorem printed_ofTokens (ts : List Token) : (ofTokens ts).printed = ts := rfl

@[simp] theorem printed_bracketed (d : Delimiter) :
    (bracketed d p).printed = .opening d :: p.printed ++ [.closing d] := rfl

@[simp] theorem printed_canonical : p.canonical.printed = p.printed := rfl

@[simp] theorem canonical_append : (p ++ q).canonical = p.canonical ++ q.canonical := rfl

@[simp] theorem canonical_empty : empty.canonical = empty := rfl

@[simp] theorem canonical_operator (s : String) : (operator s).canonical = operator s := rfl

@[simp] theorem canonical_word (w : String) : (word w).canonical = word w := rfl

@[simp] theorem canonical_ofToken (t : Token) : (ofToken t).canonical = ofToken t := rfl

@[simp] theorem canonical_ofTokens (ts : List Token) : (ofTokens ts).canonical = ofTokens ts := rfl

@[simp] theorem canonical_bracketed (d : Delimiter) :
    (bracketed d p).canonical = bracketed d p.canonical := rfl

@[simp] theorem canonical_ofOption (o : Option Phrase) :
    (ofOption o).canonical = ofOption (o.map canonical) := by
  cases o <;> rfl

end Phrase

/-- How results print, and what they are once they are read from their print. -/
structure Form (α : Type) where
  tokens : α → List Token
  canon : α → α

namespace Form

variable {α κ : Type}

/-- A phrase. -/
def phrase : Form Phrase := ⟨Phrase.printed, Phrase.canonical⟩

/-- A result with a mark before it that does not print. -/
def marked (F : Form α) : Form (κ × α) := ⟨fun x => F.tokens x.2, fun x => (x.1, F.canon x.2)⟩

/-- A result with a mark behind it that does not print. -/
def flagged (F : Form α) : Form (α × κ) := ⟨fun x => F.tokens x.1, fun x => (F.canon x.1, x.2)⟩

/-- A result that there may be. -/
def option (F : Form α) : Form (Option α) := ⟨fun o => (o.map F.tokens).getD [], Option.map F.canon⟩

/-- A word by its name. -/
def name : Form String := ⟨fun w => [.ident w], id⟩

/-- A token that is kept as it stands. -/
def token : Form Token := ⟨fun t => [t], id⟩

/-- A result between brackets. -/
def inside (d : Delimiter) (F : Form α) : Form α :=
  ⟨fun a => .opening d :: F.tokens a ++ [.closing d], F.canon⟩

/-- Results with a separator behind each that has one. -/
def list (sep : String) (F : Form α) : Form (List (α × Bool)) where
  tokens as := as.flatMap fun (a, more) =>
    F.tokens a ++ if more then operatorTokens sep.toList else []
  canon as := as.map fun (a, more) => (F.canon a, more)

end Form

theorem Phrase.printed_ofOption (o : Option Phrase) :
    (Phrase.ofOption o).printed = (Form.option .phrase).tokens o := by
  cases o <;> rfl

/-! ## Readers that echo -/

/-- Compares a place of a source with the place of a print that stands for it. -/
abbrev Sight := List Placed → List Placed → Prop

/-- Nothing is known. -/
def Sight.any : Sight := fun _ _ => True

/--
The reader `p` of a source is echoed by the reader `q` of prints.  What `p` takes behind tokens
`pre` that were read before prints as `out`; where `out` stands for it, and the places behind it are
in sight `E`, the places before it are in sight `S`, and `q` finds the same, as long as the whole
print has less than `L` tokens.
-/
def EchoAt {α : Type} (L : Nat) (F : Form α) (pre : List Token) (S : Sight) (E : α → Sight)
    (p q : Reader α) (ts : List Placed) : Prop :=
  Sound (tokensOf ts) → ∀ a r, p ts = .ok (a, r) →
    r <:+ ts ∧ ∃ out, F.tokens a = pre ++ out ∧ Fit out ∧
      ∀ us w, tokensOf us = out → E a r w →
        S ts (us ++ w) ∧ ((F.tokens a).length < L → q (us ++ w) = .ok (F.canon a, w))

theorem tokensOf_suffix {r ts : List Placed} (h : r <:+ ts) : tokensOf r <:+ tokensOf ts :=
  h.map _

namespace EchoAt

variable {α β : Type} {L : Nat} {F : Form α} {G : Form β} {pre : List Token} {S T : Sight}
  {E : α → Sight} {p q : Reader α} {ts : List Placed}

/-- Readers that succeed alike echo alike. -/
theorem of_ok {p q p₀ q₀ : Reader α} (h : EchoAt L F pre S E p₀ q₀ ts)
    (hp : ∀ v, p ts = .ok v → p₀ ts = .ok v) (hq : ∀ u v, q₀ u = .ok v → q u = .ok v) :
    EchoAt L F pre S E p q ts := by
  intro hs a r hr
  obtain ⟨hsuf, out, ho, hf, h⟩ := h hs a r (hp _ hr)
  exact ⟨hsuf, out, ho, hf, fun us w hu he =>
    ⟨(h us w hu he).1, fun hl => hq _ _ ((h us w hu he).2 hl)⟩⟩

/-- What is known of the source may be used. -/
theorem of_sound (h : Sound (tokensOf ts) → EchoAt L F pre S E p q ts) :
    EchoAt L F pre S E p q ts :=
  fun hs => h hs hs

/-- A sight of the start may say less, and one of the end more. -/
theorem mono {L' : Nat} {E' : α → Sight} (h : EchoAt L F pre S E p q ts) (hL : L' ≤ L)
    (hS : ∀ u, S ts u → T ts u) (hE : ∀ a r w, p ts = .ok (a, r) → E' a r w → E a r w) :
    EchoAt L' F pre T E' p q ts := by
  intro hs a r hp
  obtain ⟨hr, out, ho, hf, h⟩ := h hs a r hp
  refine ⟨hr, out, ho, hf, fun us w hu he => ?_⟩
  obtain ⟨hS', hq⟩ := h us w hu (hE a r w hp he)
  exact ⟨hS _ hS', fun hl => hq (by omega)⟩

theorem weaken (h : EchoAt L F pre S E p q ts) (hS : ∀ u, S ts u → T ts u) :
    EchoAt L F pre T E p q ts :=
  h.mono le_rfl hS fun _ _ _ _ => id

/-- A reader that fails is echoed by any. -/
theorem of_error (h : ∀ a r, p ts ≠ .ok (a, r)) : EchoAt L F pre S E p q ts :=
  fun _ a r hp => absurd hp (h a r)

theorem failWith (c : Bool → Cause) : EchoAt L F pre S E (Reader.failWith c) q ts :=
  of_error fun _ _ h => by cases h

theorem missing (what : List Wanted) : EchoAt L F pre S E (Reader.missing what) q ts :=
  failWith _

theorem breaks (rule : Rule) : EchoAt L F pre S E (Reader.breaks rule) q ts :=
  failWith _

/-- A result that was read whole. -/
theorem pure {a a' : α} (ht : F.tokens a = pre) (hc : F.canon a = a')
    (hS : ∀ u, E a ts u → S ts u) : EchoAt L F pre S E (Pure.pure a) (Pure.pure a') ts := by
  intro _ b r hp
  cases hp
  refine ⟨List.suffix_rfl, [], by simpa using ht, .nil, fun us w hu he => ?_⟩
  obtain rfl : us = [] := List.map_eq_nil_iff.mp hu
  exact ⟨hS w he, fun _ => by rw [hc]; rfl⟩

/-- **One reader after another.**  What the second sees at its start is what the first needs to know
of its end. -/
theorem bind {D : Nat} {M : β → Sight} {p q : Reader β} {k k' : β → Reader α}
    (hL : L ≤ D + pre.length) (hp : EchoAt D G [] S M p q ts) (hk : ∀ b r, p ts = .ok (b, r) →
      EchoAt L F (pre ++ G.tokens b) (M b) E (k b) (k' (G.canon b)) r) :
    EchoAt L F pre S E (p >>= k) (q >>= k') ts := by
  intro hs a r h
  obtain ⟨b, s, hb, ha⟩ := Reader.bind_eq_ok h
  obtain ⟨hrs, out₁, ho₁, hf₁, h₁⟩ := hp hs b s hb
  obtain ⟨hr, out₂, ho₂, hf₂, h₂⟩ := hk b s hb (hs.suffix (tokensOf_suffix hrs)) a r ha
  rw [List.nil_append] at ho₁
  subst ho₁
  refine ⟨hr.trans hrs, G.tokens b ++ out₂, by rw [ho₂, List.append_assoc], hf₁.append hf₂, ?_⟩
  intro us w hu he
  obtain ⟨us₁, us₂, rfl, hu₁, hu₂⟩ := List.map_eq_append_iff.mp hu
  obtain ⟨hM, hq₂⟩ := h₂ us₂ w hu₂ he
  obtain ⟨hS, hq₁⟩ := h₁ us₁ (us₂ ++ w) hu₁ hM
  rw [List.append_assoc]
  refine ⟨hS, fun hl => ?_⟩
  have hl₁ : (G.tokens b).length < D := by
    have := congrArg List.length ho₂
    simp only [List.length_append] at this
    omega
  simp only [Bind.bind, StateT.bind, Except.bind, hq₁ hl₁]
  exact hq₂ hl

/-- A reader of a source that goes on at a later place, behind tokens that stand for what it skips.
-/
theorem emit {A B : Reader α} {r : List Placed} {o : List Token} {T : Sight} (hr : r <:+ ts)
    (hfit : Fit o) (h : EchoAt L F (pre ++ o) T E A B r) (hp : ∀ v, p ts = .ok v → A r = .ok v)
    (hS : ∀ us u, tokensOf us = o → T r u → S ts (us ++ u))
    (hq : (pre ++ o).length < L → ∀ us u v, tokensOf us = o → T r u → B u = .ok v →
      q (us ++ u) = .ok v) :
    EchoAt L F pre S E p q ts := by
  intro hs a r' hr'
  obtain ⟨hsuf, out, ho, hf, h⟩ := h (hs.suffix (tokensOf_suffix hr)) a r' (hp _ hr')
  refine ⟨hsuf.trans hr, o ++ out,
    by rw [ho, List.append_assoc], hfit.append hf, fun us w hu he => ?_⟩
  obtain ⟨us₁, us₂, rfl, hu₁, hu₂⟩ := List.map_eq_append_iff.mp hu
  obtain ⟨hT, hq₀⟩ := h us₂ w hu₂ he
  rw [List.append_assoc]
  refine ⟨hS us₁ _ hu₁ hT, fun hl => hq ?_ us₁ _ _ hu₁ hT (hq₀ hl)⟩
  rw [ho, List.length_append] at hl
  omega

/-- A reader whose result is put together with what was read before. -/
theorem last {D : Nat} {E : Sight} {p q : Reader β} {f f' : β → α}
    (hp : EchoAt D G [] S (fun _ => E) p q ts)
    (hL : L ≤ D + pre.length) (ht : ∀ b, F.tokens (f b) = pre ++ G.tokens b)
    (hc : ∀ b, F.canon (f b) = f' (G.canon b)) :
    EchoAt L F pre S (fun _ => E) (p >>= fun b => Pure.pure (f b))
      (q >>= fun b => Pure.pure (f' b)) ts :=
  bind hL hp fun b _ _ => pure (ht b) (hc b) fun _ h => h

/-- A reader that first asks a question.  Each answer has its own sight of the start, which must
tell that the answer is the same in the print. -/
theorem ask {Y N : Sight} {P : List Placed → Bool} {A A' B B' : Reader α}
    (yes : P ts = true → EchoAt L F pre Y E A A' ts)
    (no : P ts = false → EchoAt L F pre N E B B' ts)
    (hyes : P ts = true → ∀ u, Y ts u → P u = true ∧ S ts u)
    (hno : P ts = false → ∀ u, N ts u → P u = false ∧ S ts u) :
    EchoAt L F pre S E (Reader.front P >>= fun b => if b = true then A else B)
      (Reader.front P >>= fun b => if b = true then A' else B') ts := by
  intro hs a r h
  rw [Reader.ask_apply] at h
  cases hP : P ts with
  | true =>
    rw [if_pos hP] at h
    obtain ⟨hr, out, ho, hf, h⟩ := yes hP hs a r h
    refine ⟨hr, out, ho, hf, fun us w hu he => ?_⟩
    obtain ⟨hS, hq⟩ := h us w hu he
    obtain ⟨hu', hS⟩ := hyes hP _ hS
    exact ⟨hS, fun hl => by rw [Reader.ask_apply, if_pos hu', hq hl]⟩
  | false =>
    rw [if_neg (by simp [hP])] at h
    obtain ⟨hr, out, ho, hf, h⟩ := no hP hs a r h
    refine ⟨hr, out, ho, hf, fun us w hu he => ?_⟩
    obtain ⟨hS, hq⟩ := h us w hu he
    obtain ⟨hu', hS⟩ := hno hP _ hS
    exact ⟨hS, fun hl => by rw [Reader.ask_apply, if_neg (by simp [hu']), hq hl]⟩

/-- A reader that asks a question whose answer in print does not matter where the one in the source
is yes. -/
theorem ask_or {Y N : Sight} {P : List Placed → Bool} {A A' B B' : Reader α}
    (yes : P ts = true → EchoAt L F pre Y E A A' ts)
    (no : P ts = false → EchoAt L F pre N E B B' ts)
    (hyes : P ts = true → ∀ u, Y ts u → (P u = true ∨ B' u = A' u) ∧ S ts u)
    (hno : P ts = false → ∀ u, N ts u → P u = false ∧ S ts u) :
    EchoAt L F pre S E (Reader.front P >>= fun b => if b = true then A else B)
      (Reader.front P >>= fun b => if b = true then A' else B') ts := by
  cases hP : P ts with
  | false =>
    exact ask (Y := Y) (fun h => absurd h (by simp [hP])) no (fun h => absurd h (by simp [hP])) hno
  | true =>
    intro hs a r h
    rw [Reader.ask_apply, if_pos hP] at h
    obtain ⟨hr, out, ho, hf, h⟩ := yes hP hs a r h
    refine ⟨hr, out, ho, hf, fun us w hu he => ?_⟩
    obtain ⟨hS, hq⟩ := h us w hu he
    obtain ⟨hu', hS⟩ := hyes hP _ hS
    refine ⟨hS, fun hl => ?_⟩
    rw [Reader.ask_apply]
    split
    · exact hq hl
    · exact (hu'.resolve_left ‹_›).trans (hq hl)

/-- A question with the same answer at both places decides which reader goes on. -/
theorem ask_eq {P : List Placed → Bool} {A A' B B' : Reader α} (hP : ∀ u, S ts u → P u = P ts)
    (yes : P ts = true → EchoAt L F pre S E A A' ts)
    (no : P ts = false → EchoAt L F pre S E B B' ts) :
    EchoAt L F pre S E (Reader.front P >>= fun b => if b = true then A else B)
      (Reader.front P >>= fun b => if b = true then A' else B') ts :=
  ask yes no (fun h _ hu => ⟨(hP _ hu).trans h, hu⟩) fun h _ hu => ⟨(hP _ hu).trans h, hu⟩

/-- A question with the same answer at both places. -/
theorem front {k k' : Bool → Reader α} {P : List Placed → Bool} (hP : ∀ u, S ts u → P u = P ts)
    (hk : EchoAt L F pre S E (k (P ts)) (k' (P ts)) ts) :
    EchoAt L F pre S E (Reader.front P >>= k) (Reader.front P >>= k') ts := by
  intro hs a r h
  obtain ⟨hr, out, ho, hf, h⟩ := hk hs a r h
  refine ⟨hr, out, ho, hf, fun us w hu he => ?_⟩
  obtain ⟨hS, hq⟩ := h us w hu he
  refine ⟨hS, fun hl => ?_⟩
  have : (Reader.front P >>= k') (us ++ w) = k' (P ts) (us ++ w) := by rw [← hP _ hS]; rfl
  rw [this]
  exact hq hl

end EchoAt

/-! ## Operators in print -/

theorem length_operatorTokens (cs : List Char) : (operatorTokens cs).length = cs.length := by
  induction cs with
  | nil => rfl
  | cons c cs ih => cases cs <;> simp_all [operatorTokens]

/-- **In print an operator stands where its characters begin a printed one.**  The last character of
a printed operator is not joint. -/
theorem isOperator_print {cs cs' : List Char} {us : List Placed} (hne : cs' ≠ [])
    (hu : tokensOf us = operatorTokens cs') (v : List Placed) :
    Front.isOperator cs (us ++ v) = cs.isPrefixOf cs' := by
  induction cs' generalizing cs us with
  | nil => exact absurd rfl hne
  | cons c' cs' ih =>
    cases us with
    | nil => cases cs' <;> cases hu
    | cons t us =>
      obtain ⟨token, span⟩ := t
      cases cs' with
      | nil =>
        obtain ⟨ht, hnil⟩ := List.cons.inj hu
        obtain rfl : us = [] := List.map_eq_nil_iff.mp hnil
        obtain rfl : token = .punct c' false := ht
        rcases cs with _ | ⟨c, _ | ⟨c₂, cs⟩⟩ <;> simp [Front.isOperator, List.isPrefixOf]
      | cons c'' cs' =>
        obtain ⟨ht, hus⟩ := List.cons.inj hu
        obtain rfl : token = .punct c' true := ht
        have ih (l : List Char) := @ih l _ (by simp) hus
        rcases cs with _ | ⟨c, _ | ⟨c₂, cs⟩⟩
        · simp [Front.isOperator]
        · simp [Front.isOperator, List.isPrefixOf]
        · simp [Front.isOperator, List.isPrefixOf, ih]

/-- Where an operator stands, so does each beginning of it. -/
theorem isOperator_of_start {l o : List Char} {ts : List Placed}
    (h : Front.isOperator o ts = true) (hp : l <+: o) : Front.isOperator l ts = true := by
  induction o generalizing l ts with
  | nil => rw [List.prefix_nil.mp hp]; exact h
  | cons c' o ih =>
    rcases l with _ | ⟨c, l⟩
    · rfl
    obtain ⟨rfl, hcs⟩ := List.cons_prefix_cons.mp hp
    rcases ts with _ | ⟨⟨token, span⟩, ts⟩
    · cases o <;> simp [Front.isOperator] at h
    cases token with
    | punct c'' joint =>
      rcases o with _ | ⟨c₂', o⟩
      · rw [List.prefix_nil.mp hcs]; exact h
      · simp only [Front.isOperator, Bool.and_eq_true] at h
        have := ih h.2 hcs
        rcases l with _ | ⟨c₂, l⟩ <;> simp_all [Front.isOperator]
    | _ => cases o <;> simp [Front.isOperator] at h

/-- The operator stands at both places, and the places behind it are in sight `M`. -/
def OnOperator (s : String) (M : Sight) : Sight := fun ts u =>
  Front.op s ts = true ∧
    ∃ us v, u = us ++ v ∧ tokensOf us = operatorTokens s.toList ∧ M (ts.drop s.length) v

/-- The token stands at both places, and the places behind it are in sight `M`. -/
def OnToken (t : Token) (M : Sight) : Sight := fun ts u =>
  ∃ s r s' v, ts = ⟨t, s⟩ :: r ∧ u = ⟨t, s'⟩ :: v ∧ M r v

/-- A bracket closes at both places. -/
def OnClosing : Sight := fun ts u =>
  ∃ d s r d' s' v, ts = ⟨.closing d, s⟩ :: r ∧ u = ⟨.closing d', s'⟩ :: v

namespace OnOperator

variable {s : String} {M : Sight} {ts u : List Placed}

/-- What stands in print. -/
theorem op (hs : s.toList ≠ []) (h : OnOperator s M ts u) (s' : String) :
    Front.op s' u = s'.toList.isPrefixOf s.toList := by
  obtain ⟨-, us, v, rfl, hu, -⟩ := h
  exact isOperator_print hs hu v

theorem op_self (hs : s.toList ≠ []) (h : OnOperator s M ts u) : Front.op s u = true := by
  rw [h.op hs]
  simp

theorem behind (h : OnOperator s M ts u) : M (ts.drop s.length) (u.drop s.length) := by
  obtain ⟨-, us, v, rfl, hu, hM⟩ := h
  have : us.length = s.length := by
    rw [← List.length_map (f := Placed.token), ← String.length_toList,
      ← length_operatorTokens, ← hu]
    rfl
  rw [← this, List.drop_left, this]
  exact hM

theorem mono {W : Sight} (h : OnOperator s M ts u)
    (hM : ∀ v, M (ts.drop s.length) v → W (ts.drop s.length) v) : OnOperator s W ts u := by
  obtain ⟨hs, us, v, rfl, hu, h⟩ := h
  exact ⟨hs, us, v, rfl, hu, hM v h⟩

end OnOperator

/-! ## Brackets in print -/

/-- What was cut out at a closing bracket of a sound source is paired. -/
theorem openBehind_of_splitClosing {ts a b : List Placed} {c : Placed} {l : List Delimiter}
    (h : Reader.splitClosing l.length ts = (a, c :: b)) {σ τ : List Delimiter}
    (hs : openBehind (l ++ σ) (tokensOf ts) = some τ) (ρ : List Delimiter) :
    openBehind (l ++ ρ) (tokensOf a) = some ρ := by
  induction ts generalizing l a with
  | nil => cases h
  | cons t ts ih =>
    obtain ⟨t, s⟩ := t
    cases t with
    | opening d =>
      obtain ⟨rfl, hb⟩ := Prod.mk.inj h
      exact ih (l := d :: l) (Prod.ext rfl hb) hs
    | closing d =>
      simp only [Reader.splitClosing] at h
      cases l with
      | nil =>
        cases h
        rfl
      | cons d' l =>
        obtain ⟨rfl, hb⟩ := Prod.mk.inj h
        simp only [tokensOf, List.map_cons, List.cons_append, openBehind] at hs ⊢
        split at hs
        · rename_i hd
          rw [if_pos hd]
          exact ih (Prod.ext rfl hb) hs
        · cases hs
    | _ =>
      obtain ⟨rfl, hb⟩ := Prod.mk.inj h
      simp only [tokensOf, List.map_cons, openBehind] at hs ⊢
      exact ih (Prod.ext rfl hb) hs

/-- Paired tokens are cut out whole at the bracket that closes behind them. -/
theorem splitClosing_print {us : List Placed} {l : List Delimiter}
    (h : openBehind l (tokensOf us) = some []) (d : Delimiter) (s : Span) (w : List Placed) :
    Reader.splitClosing l.length (us ++ ⟨.closing d, s⟩ :: w) = (us, ⟨.closing d, s⟩ :: w) := by
  induction us generalizing l with
  | nil =>
    obtain rfl : l = [] := Option.some.inj h
    rfl
  | cons t us ih =>
    obtain ⟨t, s'⟩ := t
    cases t with
    | opening d' =>
      have := ih (l := d' :: l) h
      rw [List.length_cons] at this
      simp [Reader.splitClosing, this]
    | closing d' =>
      cases l with
      | nil => cases h
      | cons d'' l =>
        simp only [tokensOf, List.map_cons, openBehind] at h
        split at h
        · simp [Reader.splitClosing, ih h]
        · cases h
    | _ => simp [Reader.splitClosing, ih h]

theorem exists_of_print_bracketed {us : List Placed} {d : Delimiter} {ts : List Token}
    (h : tokensOf us = .opening d :: ts ++ [.closing d]) :
    ∃ s us' s', us = ⟨.opening d, s⟩ :: us' ++ [⟨.closing d, s'⟩] ∧ tokensOf us' = ts := by
  obtain ⟨l, r, rfl, hl, hr⟩ := List.map_eq_append_iff.mp h
  obtain ⟨⟨t, s⟩, us', rfl, ht, hu⟩ := List.map_eq_cons_iff.mp hl
  obtain ⟨⟨t', s'⟩, rfl, ht'⟩ := List.map_eq_singleton_iff.mp hr
  obtain rfl : t = .opening d := ht
  obtain rfl : t' = .closing d := ht'
  exact ⟨s, us', s', rfl, hu⟩

namespace EchoAt

variable {α : Type} {L : Nat} {F : Form α} {pre : List Token} {S : Sight} {E : α → Sight}
  {ts : List Placed} {s : String}

theorem length_print {us : List Placed} (hu : tokensOf us = operatorTokens s.toList) :
    us.length = s.length := by
  rw [← List.length_map (f := Placed.token), ← String.length_toList, ← length_operatorTokens, ← hu]
  rfl

/-- An operator that must stand here. -/
theorem op {M : Sight} (hs : IsOperatorText s.toList) :
    EchoAt L .phrase [] (OnOperator s M) (fun _ => M) (Reader.op s) (Reader.op s) ts := by
  intro _ a r h
  unfold Reader.op at h
  split at h
  · rename_i hop
    cases h
    refine ⟨List.drop_suffix _ _, _, rfl, fit_operatorTokens hs, fun us w hu he => ?_⟩
    have hS : OnOperator s M ts (us ++ w) := ⟨hop, us, w, rfl, hu, he⟩
    refine ⟨hS, fun _ => ?_⟩
    simp [Reader.op, hS.op_self hs.1, ← length_print hu, Form.phrase]
  · cases h

theorem op_then {M : Sight} {k k' : Phrase → Reader α} (hs : IsOperatorText s.toList)
    (h : Front.op s ts = true → EchoAt L F (pre ++ operatorTokens s.toList) M E (k (.operator s))
      (k' (.operator s)) (ts.drop s.length)) :
    EchoAt L F pre (OnOperator s M) E (Reader.op s >>= k) (Reader.op s >>= k') ts := by
  refine bind (Nat.le_add_right L _) (op hs) fun o r ho => ?_
  unfold Reader.op at ho
  split at ho
  · rename_i hop
    cases ho
    exact h hop
  · cases ho

/-- A reader that first takes an operator if it stands here. -/
theorem op? {N M : Sight} {k k' : Option Phrase → Reader α} (hs : IsOperatorText s.toList)
    (yes : Front.op s ts = true →
      EchoAt L F (pre ++ operatorTokens s.toList) M E (k (some (.operator s)))
        (k' (some (.operator s))) (ts.drop s.length))
    (no : Front.op s ts = false → EchoAt L F pre N E (k none) (k' none) ts)
    (hyes : ∀ u, OnOperator s M ts u → S ts u)
    (hno : Front.op s ts = false → ∀ u, N ts u → Front.op s u = false ∧ S ts u) :
    EchoAt L F pre S E (Reader.op? s >>= k) (Reader.op? s >>= k') ts := by
  intro hsound a r h
  rw [Reader.op?_apply] at h
  cases hop : Front.op s ts with
  | true =>
    rw [if_pos hop] at h
    have hdrop := List.drop_suffix s.length ts
    obtain ⟨hr, out, ho, hf, h⟩ := yes hop (hsound.suffix (tokensOf_suffix hdrop)) a r h
    refine ⟨hr.trans hdrop, operatorTokens s.toList ++ out, by rw [ho, List.append_assoc],
      (fit_operatorTokens hs).append hf, fun us w hu he => ?_⟩
    obtain ⟨us₁, us₂, rfl, hu₁, hu₂⟩ := List.map_eq_append_iff.mp hu
    obtain ⟨hM, hq⟩ := h us₂ w hu₂ he
    have hS : OnOperator s M ts (us₁ ++ (us₂ ++ w)) := ⟨hop, us₁, _, rfl, hu₁, hM⟩
    rw [List.append_assoc]
    refine ⟨hyes _ hS, fun hl => ?_⟩
    rw [Reader.op?_apply, if_pos (hS.op_self hs.1), ← length_print hu₁, List.drop_left, hq hl]
  | false =>
    rw [if_neg (by simp [hop])] at h
    obtain ⟨hr, out, ho, hf, h⟩ := no hop hsound a r h
    refine ⟨hr, out, ho, hf, fun us w hu he => ?_⟩
    obtain ⟨hS, hq⟩ := h us w hu he
    obtain ⟨hu', hS⟩ := hno hop _ hS
    exact ⟨hS, fun hl => by rw [Reader.op?_apply, if_neg (by simp [hu']), hq hl]⟩

/-- An operator that may stand here. -/
theorem optional {M : Sight} (hs : IsOperatorText s.toList)
    (hyes : ∀ u, OnOperator s M ts u → S ts u)
    (hno : Front.op s ts = false → ∀ u, M ts u → Front.op s u = false ∧ S ts u) :
    EchoAt L (.option .phrase) [] S (fun _ => M) (Reader.op? s) (Reader.op? s) ts := by
  rw [← bind_pure (Reader.op? s)]
  exact op? hs (fun _ => pure (by simp [Form.option, Form.phrase]) rfl fun _ h => h)
    (fun _ => pure rfl rfl fun _ h => h) hyes hno

/-- A reader that drops an operator, which therefore stands in no print. -/
theorem op?_dropped {P : List Placed → Prop} {p q : Reader α}
    (hP : ∀ u, P u → Front.op s u = false) (h : ∀ ts, EchoAt L F pre (fun _ => P) E p q ts) :
    EchoAt L F pre (fun _ => P) E (Reader.op? s >>= fun _ => p)
      (Reader.op? s >>= fun _ => q) ts := by
  intro hsound a r hr
  rw [Reader.op?_apply] at hr
  obtain ⟨r₀, hr₀, hp⟩ : ∃ r₀, r₀ <:+ ts ∧ p r₀ = .ok (a, r) := by
    split at hr
    · exact ⟨_, List.drop_suffix _ _, hr⟩
    · exact ⟨_, List.suffix_rfl, hr⟩
  obtain ⟨hsuf, out, ho, hf, h⟩ := h r₀ (hsound.suffix (tokensOf_suffix hr₀)) a r hp
  refine ⟨hsuf.trans hr₀, out, ho, hf, fun us w hu he => ?_⟩
  obtain ⟨hS, hq⟩ := h us w hu he
  exact ⟨hS, fun hl => by rw [Reader.op?_apply, if_neg (by simp [hP _ hS]), hq hl]⟩

/-! ## Single tokens -/

/-- A token that is read as it stands. -/
theorem token {G : Form α} {p : Reader α} {t : Token} {s : Span} {r : List Placed} {a : α}
    (hp : p (⟨t, s⟩ :: r) = .ok (a, r)) (hq : ∀ s' w, p (⟨t, s'⟩ :: w) = .ok (G.canon a, w))
    (ht : G.tokens a = [t]) (hs : t.Settled) (hb : ∀ d, t ≠ .opening d ∧ t ≠ .closing d)
    (hS : ∀ u, OnToken t (E a) (⟨t, s⟩ :: r) u → S (⟨t, s⟩ :: r) u) :
    EchoAt L G [] S E p p (⟨t, s⟩ :: r) := by
  intro hsound b r' h
  obtain ⟨rfl, rfl⟩ : a = b ∧ r = r' := by simpa [hp] using h
  refine ⟨List.suffix_cons _ _, [t], by simpa using ht, .singleton ?_ hs hb, fun us w hu he => ?_⟩
  · exact hsound.lexable t (by simp [tokensOf])
  · obtain ⟨⟨t', s'⟩, rfl⟩ := List.map_eq_singleton_iff.mp hu |>.imp fun _ h => h.1
    obtain rfl : t' = t := by simpa [tokensOf] using hu
    exact ⟨hS _ ⟨s, r, s', w, rfl, rfl, he⟩, fun _ => hq s' w⟩

variable {M : Sight}

/-- A word with a meaning. -/
theorem word {w : String} : EchoAt L .phrase [] (OnToken (.ident w) M) (fun _ => M)
    (Reader.word w) (Reader.word w) ts := by
  rcases ts with _ | ⟨⟨t, s⟩, r⟩
  · exact of_error fun _ _ h => by simp [Reader.word, Front.word] at h
  by_cases ht : t = .ident w
  · subst ht
    exact token (a := .word w) (by simp [Reader.word, Front.word])
      (by simp [Reader.word, Front.word, Form.phrase]) rfl trivial (by simp) fun _ h => h
  · refine of_error fun _ _ h => ?_
    have : Front.word w (⟨t, s⟩ :: r) = false := by cases t <;> simp_all [Front.word]
    simp [Reader.word, this] at h

theorem word_then {w : String} {k k' : Phrase → Reader α} (h : ∀ s r, ts = ⟨.ident w, s⟩ :: r →
      EchoAt L F (pre ++ [.ident w]) M E (k (.word w)) (k' (.word w)) r) :
    EchoAt L F pre (OnToken (.ident w) M) E (Reader.word w >>= k) (Reader.word w >>= k') ts := by
  refine bind (Nat.le_add_right L _) word fun p r hp => ?_
  unfold Reader.word at hp
  split at hp
  · rename_i hw
    cases hp
    rcases ts with _ | ⟨⟨t, s⟩, r⟩
    · cases hw
    · cases t <;> simp only [Front.word, beq_iff_eq, Bool.false_eq_true] at hw
      exact h s r (by rw [hw])
  · cases hp

/-- Any word, by its name. -/
theorem anyWord {E : String → Sight} :
    EchoAt L .name [] (fun ts u => ∃ w, OnToken (.ident w) (E w) ts u) E Reader.anyWord
      Reader.anyWord ts := by
  rcases ts with _ | ⟨⟨t, s⟩, r⟩
  · exact of_error fun _ _ h => by cases h
  cases t with
  | ident w => exact token (a := w) rfl (fun _ _ => rfl) rfl trivial (by simp) fun _ h => ⟨w, h⟩
  | _ => exact of_error fun _ _ h => by cases h

/-- An identifier, by its name. -/
theorem identifier {E : String → Sight} :
    EchoAt L .name [] (fun ts u => ∃ w, Front.reserved.contains w = false ∧
      OnToken (.ident w) (E w) ts u) E Reader.identifier Reader.identifier ts := by
  rcases ts with _ | ⟨⟨t, s⟩, r⟩
  · exact of_error fun _ _ h => by cases h
  cases t with
  | ident w =>
    cases hw : Front.reserved.contains w with
    | true =>
      refine of_error fun _ _ h => ?_
      unfold Reader.identifier at h
      simp only [hw, if_true] at h
      cases h
    | false =>
      have run (s : Span) (r : List Placed) :
          Reader.identifier (⟨.ident w, s⟩ :: r) = .ok (w, r) := by
        unfold Reader.identifier
        simp only [hw]
        rfl
      exact token (a := w) (run s r) run rfl trivial (by simp) fun _ h => ⟨w, hw, h⟩
  | _ => exact of_error fun _ _ h => by cases h

/-- A lifetime. -/
theorem lifetime :
    EchoAt L .phrase [] (fun ts u => ∃ name, OnToken (.lifetime name) M ts u) (fun _ => M)
      Reader.lifetime Reader.lifetime ts := by
  rcases ts with _ | ⟨⟨t, s⟩, r⟩
  · exact of_error fun _ _ h => by cases h
  cases t with
  | lifetime name =>
    exact token (a := .ofToken (.lifetime name)) rfl (fun _ _ => rfl) rfl trivial (by simp)
      fun _ h => ⟨name, h⟩
  | _ => exact of_error fun _ _ h => by cases h

/-! ## Brackets -/

/-- A reader between brackets. -/
theorem inside {d : Delimiter} {p q : Reader α} {T : Sight}
    (h : ∀ s r, ts = ⟨.opening d, s⟩ :: r → EchoAt L F [] T (fun _ => OnClosing) p q r) :
    EchoAt (L + 2) (F.inside d) [] (OnToken (.opening d) T) E (Reader.inside d p)
      (Reader.inside d q) ts := by
  intro hsound a r hr
  obtain ⟨s, ts', d', s', rfl, hp⟩ := Reader.exists_of_inside hr
  have hts' := hsound.suffix (tokensOf_suffix (List.suffix_cons ⟨.opening d, s⟩ ts'))
  obtain ⟨hsuf, out, ho, hf, hq⟩ := h s ts' rfl hts' a _ hp
  rw [List.nil_append] at ho
  subst ho
  refine ⟨(List.suffix_cons _ _).trans (hsuf.trans (List.suffix_cons _ _)), _, rfl,
    hf.bracketed d, fun us w hu _ => ?_⟩
  obtain ⟨s₁, us', s₂, rfl, hu'⟩ := exists_of_print_bracketed hu
  obtain ⟨hS, hq⟩ := hq us' (⟨.closing d, s₂⟩ :: w) hu' ⟨d', s', r, d, s₂, w, rfl, rfl⟩
  refine ⟨⟨s, ts', s₁, us' ++ ⟨.closing d, s₂⟩ :: w, rfl, by simp, hS⟩, fun hl => ?_⟩
  simp only [Form.inside, List.length_append, List.length_cons] at hl
  have := Reader.inside_eq_ok (d := d) (s := s₁) (hq (by omega))
  simpa [Form.inside] using this

/-- A pair of brackets with what it holds, unread. -/
theorem unreadGroup {E : Phrase → Sight} :
    EchoAt L .phrase [] (fun ts u => ∃ d, OnToken (.opening d) .any ts u) E Reader.unreadGroup
      Reader.unreadGroup ts := by
  intro hsound p r h
  obtain ⟨d, s, a, d', s', rfl, rfl, hcut⟩ := Reader.exists_of_unreadGroup h
  obtain ⟨σ, hσ⟩ := (hsound.suffix (tokensOf_suffix (List.suffix_cons _ _))).closed
  have hpaired := openBehind_of_splitClosing (l := []) hcut hσ
  have hfit : Fit (tokensOf a) := by
    refine .of_sound (d := d') (b := tokensOf r) ?_ hpaired
    simpa [tokensOf] using hsound.suffix (tokensOf_suffix (List.suffix_cons _ _))
  have hsuf : r <:+ a ++ ⟨.closing d', s'⟩ :: r :=
    (List.suffix_cons _ _).trans (List.suffix_append _ _)
  refine ⟨hsuf.trans (List.suffix_cons _ _), _, rfl, hfit.bracketed d, fun us w hu _ => ?_⟩
  obtain ⟨s₁, us', s₂, rfl, hu'⟩ := exists_of_print_bracketed hu
  refine ⟨⟨d, s, _, s₁, us' ++ ⟨.closing d, s₂⟩ :: w, rfl, by simp, trivial⟩, fun _ => ?_⟩
  have hu' : tokensOf us' = tokensOf a := hu'
  have hprint := splitClosing_print (l := []) (by rw [hu']; exact hpaired []) d s₂ w
  have := Reader.unreadGroup_eq_ok (d := d) (s := s₁) hprint
  simpa [hu', Form.phrase] using this

end EchoAt

end KeyedRecord.Source
