import KeyedRecord.Derive.Attributes
import KeyedRecord.Proofs.Source.Sealed

/-!
# Keys and strings

What the readers of helper attributes take where a key or a string is wanted: the one word, and the
equals sign with the literal.  A key of one word is read only if no path goes on behind it, which is
so before a comma and at the end of the brackets.

Principal results: `stringValue_eq_ok_iff` and `sourceValue_eq_ok_iff`, for the `string_value` of a
key.
-/

set_option autoImplicit false

namespace KeyedRecord.Derive

open Source

/-! ## Where an argument ends -/

/-- An argument ends here: before a comma, or with the brackets. -/
def Stops (r : List Placed) : Prop := Front.ends r = true ∨ Front.op "," r = true

/-- At the front of `r` there is no path that goes on. -/
def NoPath (r : List Placed) : Prop := Front.op "::" r = false

/-- An operator of one character stands here, whatever follows it. -/
theorem isOperator_iff {c : Char} {r : List Placed} :
    Front.isOperator [c] r = true ↔ ∃ joint span t, r = ⟨.punct c joint, span⟩ :: t := by
  constructor
  · intro h
    obtain - | ⟨⟨token, span⟩, t⟩ := r
    · simp [Front.isOperator] at h
    · cases token with
      | punct c' joint =>
        have hc : c = c' := by simpa [Front.isOperator] using h
        exact ⟨joint, span, t, by rw [hc]⟩
      | ident | lifetime | literal | opening | closing => simp [Front.isOperator] at h
  · rintro ⟨joint, span, t, rfl⟩
    simp [Front.isOperator]

theorem stops_iff {r : List Placed} :
    Stops r ↔ Front.ends r = true ∨ ∃ joint span t, r = ⟨.punct ',' joint, span⟩ :: t :=
  or_congr_right isOperator_iff

theorem noPath_of_ne {t : Placed} {r : List Placed} (h : ∀ joint, t.token ≠ .punct ':' joint) :
    NoPath (t :: r) := by
  obtain ⟨token, span⟩ := t
  cases token with
  | punct c joint =>
    have hc : c ≠ ':' := fun hc => h joint (by rw [hc])
    have hc' : (':' == c) = false := by simpa using hc.symm
    cases r <;> simp [NoPath, Front.op, Front.isOperator, hc']
  | ident | lifetime | literal | opening | closing => simp [NoPath, Front.op, Front.isOperator]

theorem Stops.noPath {r : List Placed} (h : Stops r) : NoPath r := by
  rcases stops_iff.mp h with h | ⟨joint, span, t, rfl⟩
  · obtain - | ⟨⟨token, span⟩, t⟩ := r
    · rfl
    · cases token with
      | closing => exact noPath_of_ne fun _ => by simp
      | ident | lifetime | punct | literal | opening => simp [Front.ends] at h
  · exact noPath_of_ne fun _ => by simp

/-! ## Keys -/

/-- A reader made of two steps goes on where the first one left. -/
theorem bind_of_ok {α β : Type} {p : Reading α} {f : α → Reading β} {ts r : List Placed} {a : α}
    (h : p ts = .ok (a, r)) : (p >>= f) ts = f a r := by
  simp [bind, StateT.bind, Except.bind, h]

theorem source_eq_ok_iff {α : Type} {p : Reader α} {ts r : List Placed} {a : α} :
    Reading.source p ts = .ok (a, r) ↔ p ts = .ok (a, r) := by
  unfold Reading.source
  cases p ts <;> simp [Except.mapError]

theorem ends_eq_ok (r : List Placed) : Reading.ends r = .ok (Front.ends r, r) := rfl

/-- What is taken as an operator of one character. -/
theorem op_eq_ok {c : Char} {s : String} (hs : s.toList = [c]) {ts r : List Placed} {p : Phrase}
    (h : Reading.source (Reader.op s) ts = .ok (p, r)) :
    ∃ joint span, ts = ⟨.punct c joint, span⟩ :: r := by
  rw [source_eq_ok_iff] at h
  unfold Reader.op Front.op at h
  rw [hs] at h
  split at h
  · rename_i hc
    obtain ⟨joint, span, t, rfl⟩ := isOperator_iff.mp hc
    have hlength : s.length = 1 := by rw [← String.length_toList, hs]; rfl
    rw [hlength] at h
    cases h
    exact ⟨joint, span, rfl⟩
  · cases h

theorem source_of_noPath {r : List Placed} (h : NoPath r) :
    Reading.source (Reader.op? "::") r = .ok (none, r) := by
  have h : Front.op "::" r = false := h
  simp [Reading.source, Reader.op?, h, Except.mapError]

theorem eq_of_source_op? {sep : String} {ts r : List Placed}
    (h : Reading.source (Reader.op? sep) ts = .ok (none, r)) : r = ts := by
  unfold Reading.source Reader.op? at h
  split at h <;> cases h
  rfl

theorem readKeyStart_eq_ok {ts r : List Placed} {t : Placed} (h : readKeyStart ts = .ok (t, r)) :
    ts = t :: r := by
  obtain ⟨b, s, hb, h⟩ := Reader.bind_eq_ok h
  cases hb
  split at h
  · cases ts with
    | nil => cases h
    | cons t ts =>
      cases h
      rfl
  · obtain ⟨b, s, hb, h⟩ := Reader.bind_eq_ok h
    cases hb
    split at h
    · cases h
    · obtain ⟨b, s, hb, h⟩ := Reader.bind_eq_ok h
      cases hb
      split at h <;> cases h

theorem readKeyRest_eq_nil {fuel : Nat} {ts r : List Placed}
    (h : readKeyRest fuel ts = .ok ([], r)) :
    r = ts := by
  cases fuel with
  | zero =>
    cases h
    rfl
  | succ fuel =>
    obtain ⟨o, s, ho, h⟩ := Reader.bind_eq_ok h
    cases o with
    | none =>
      cases h
      exact eq_of_source_op? ho
    | some p =>
      -- behind a separator there is a word, or nothing is read
      have hmore : ∀ s, (do
          let w ← Reading.source Reader.next
          let ws ← readKeyRest fuel
          return w :: ws : Reading (List Placed)) s ≠ .ok ([], r) := by
        intro s h
        obtain ⟨w, s, -, h⟩ := Reader.bind_eq_ok h
        obtain ⟨ws, s, -, h⟩ := Reader.bind_eq_ok h
        cases h
      obtain ⟨b, s, -, h⟩ := Reader.bind_eq_ok h
      cases b with
      | false =>
        obtain ⟨u, s, -, h⟩ := Reader.bind_eq_ok h
        exact absurd h (hmore s)
      | true => exact absurd h (hmore s)

/-- A key of one word is read if no path goes on behind it. -/
theorem readKey_word (w : String) (span : Span) {r : List Placed} (h : NoPath r) :
    readKey (⟨.ident w, span⟩ :: r) = .ok (⟨false, [⟨.ident w, span⟩]⟩, r) := by
  have hrest : readKeyRest r.length r = .ok ([], r) := by
    cases r with
    | nil => rfl
    | cons t r => exact bind_of_ok (source_of_noPath h)
  have hword : NoPath (⟨.ident w, span⟩ :: r) := noPath_of_ne fun _ => by simp
  have hstart : readKeyStart (⟨.ident w, span⟩ :: r) = .ok (⟨.ident w, span⟩, r) := rfl
  rw [readKey, bind_of_ok (source_of_noPath hword), bind_of_ok hstart]
  exact bind_of_ok hrest

/-- Only the word itself is read as a key of one word. -/
theorem readKey_eq_ok {ts r : List Placed} {key : PlainPath} {w : String}
    (h : readKey ts = .ok (key, r)) (hk : key.isIdent w = true) :
    ∃ span, ts = ⟨.ident w, span⟩ :: r ∧ key = ⟨false, [⟨.ident w, span⟩]⟩ := by
  obtain ⟨o, s₁, ho, h⟩ := Reader.bind_eq_ok h
  obtain ⟨t, s₂, ht, h⟩ := Reader.bind_eq_ok h
  obtain ⟨ws, s₃, hws, h⟩ := Reader.bind_eq_ok h
  cases h
  cases o with
  | some p => simp [PlainPath.isIdent] at hk
  | none =>
    cases ws with
    | cons w' ws => simp [PlainPath.isIdent] at hk
    | nil =>
      obtain ⟨token, span⟩ := t
      have hw : token = .ident w := by simpa [PlainPath.isIdent] using hk
      refine ⟨span, ?_, ?_⟩
      · rw [← eq_of_source_op? ho, readKeyStart_eq_ok ht, hw, readKeyRest_eq_nil hws]
      · rw [hw]
        rfl

/-! ## Whole texts -/

section

variable {α : Type} {p : Reader α} {a : α}

theorem readText_eq_ok_iff {text : String} :
    readText p text = .ok a ↔ ∃ ts, lex text = .ok ts ∧ p ts = .ok (a, []) := by
  unfold readText
  cases lex text <;> simp [Reader.whole_eq_ok_iff]

/-- Source in a string is read as a whole, from a literal without a suffix. -/
theorem read_eq_ok_iff {s : StringLiteral} :
    s.read p = .ok a ↔ ∃ ts, lex s.value = .ok ts ∧ p ts = .ok (a, []) ∧ s.suffix = "" := by
  unfold StringLiteral.read
  cases lex s.value with
  | error at? => simp
  | ok ts =>
    simp only [Except.ok.injEq, exists_eq_left', ← Reader.whole_eq_ok_iff]
    cases Reader.whole p ts with
    | error e => simp
    | ok b => by_cases hs : s.suffix = "" <;> simp [hs]

end

/-! ## Strings -/

theorem decode_negative (text : String) : StringLiteral.decode ("-" ++ text) = none := by
  have h : ("-" ++ text).toList = '-' :: text.toList := by simp
  unfold StringLiteral.decode
  rw [h]
  rfl

theorem literal_of_ofPlaced {t : Placed} {s : StringLiteral}
    (h : StringLiteral.ofPlaced? t = some s) : ∃ text span, t = ⟨.literal text, span⟩ := by
  obtain ⟨token, span⟩ := t
  cases token with
  | literal text => exact ⟨text, span, rfl⟩
  | ident | lifetime | punct | opening | closing => cases h

/-- A literal that is a string is one token. -/
theorem literal_string {ts r : List Placed} {t : Placed} {s : StringLiteral}
    (h : Reader.literal ts = .ok (t, r)) (hs : StringLiteral.ofPlaced? t = some s) : ts =
      t :: r := by
  unfold Reader.literal at h
  split at h
  · split at h
    · cases h
      simp [StringLiteral.ofPlaced?, decode_negative] at hs
    · cases h
  · split at h
    · cases h
      rfl
    · cases h
  · cases h

/-- The value of a key is an equals sign with a string. -/
theorem stringValue_eq_ok_iff {ts r : List Placed} {s : StringLiteral} :
    stringValue ts = .ok (s, r) ↔ ∃ joint eq lit, ts = ⟨.punct '=' joint, eq⟩ :: lit :: r ∧
      StringLiteral.ofPlaced? lit = some s := by
  constructor
  · intro h
    obtain ⟨_, s₁, hop, hrest⟩ := Reader.bind_eq_ok h
    obtain ⟨lit, s₂, hlit, hval⟩ := Reader.bind_eq_ok hrest
    obtain ⟨joint, eq, rfl⟩ := op_eq_ok (c := '=') rfl hop
    cases hs : StringLiteral.ofPlaced? lit with
    | none =>
      rw [hs] at hval
      cases hval
    | some s' =>
      rw [hs] at hval
      cases hval
      exact ⟨joint, eq, lit, by rw [literal_string (source_eq_ok_iff.mp hlit) hs], hs⟩
  · rintro ⟨joint, eq, lit, rfl, hs⟩
    obtain ⟨text, span, rfl⟩ := literal_of_ofPlaced hs
    have hop : Reading.source (Reader.op "=")
        (⟨.punct '=' joint, eq⟩ :: ⟨.literal text, span⟩ :: r) =
        .ok (.operator "=", ⟨.literal text, span⟩ :: r) := rfl
    have hlit : Reading.source Reader.literal (⟨.literal text, span⟩ :: r) =
        .ok (⟨.literal text, span⟩, r) := rfl
    rw [stringValue, bind_of_ok hop, bind_of_ok hlit, hs]
    rfl

/-- The value of a key may be source in a string. -/
theorem sourceValue_eq_ok_iff {α : Type} {p : Reader α} {ts r : List Placed} {a : α} :
    sourceValue p ts = .ok (a, r) ↔ ∃ s, stringValue ts = .ok (s, r) ∧ s.read p = .ok a := by
  constructor
  · intro h
    obtain ⟨s, s₁, hs, hread⟩ := Reader.bind_eq_ok h
    cases ha : s.read p with
    | error e => simp only [ha] at hread; cases hread
    | ok a' =>
      simp only [ha] at hread
      cases hread
      exact ⟨s, hs, ha⟩
  · rintro ⟨s, hs, ha⟩
    rw [sourceValue, bind_of_ok hs]
    simp only [ha]

/-! ## Brackets -/

theorem opening_eq_ok {d : Delimiter} {ts r : List Placed} {span : Span}
    (h : Reading.source (Reader.opening d) ts = .ok (span, r)) : ts = ⟨.opening d, span⟩ :: r := by
  rw [source_eq_ok_iff] at h
  unfold Reader.opening at h
  split at h
  · split at h
    · rename_i hd
      cases h
      rw [hd]
    · cases h
  · cases h

theorem closing_eq_ok {d : Delimiter} {ts r : List Placed} {span : Span}
    (h : Reading.source (Reader.closing d) ts = .ok (span, r)) :
    ∃ d', ts = ⟨.closing d', span⟩ :: r := by
  rw [source_eq_ok_iff] at h
  unfold Reader.closing at h
  split at h
  · cases h
    exact ⟨_, rfl⟩
  · cases h

end KeyedRecord.Derive
