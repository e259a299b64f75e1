import Mathlib.Algebra.Group.Nat.Defs
import KeyedRecord.Proofs.Text.Digits
import KeyedRecord.Source.StringLiteral

/-!
# Written literals are read back

`Text.literal` writes a text as a string literal and `StringLiteral.decode` reads a literal.
Reading goes through one automaton, so the round trip follows the escapes of one character at a
time:

* `decodeFrom_hexDigits`: the digits of a code point add up to it;
* `decodeFrom_escapeChar`: an escaped character contributes itself;
* `decode_literal`: every text is read back whole, and no suffix is found;
* `lexFrom_literal`: inside a longer text the lexer takes exactly the literal that was written.
-/

set_option autoImplicit false

namespace KeyedRecord.Source.StringLiteral

open Lexer KeyedRecord.Text

/-! ## Hexadecimal digits -/

theorem hexDigit_ne_closingBrace {n : Nat} (h : n < 16) : hexDigit n ≠ '\x7d' := by
  have : ∀ n < 16, hexDigit n ≠ '\x7d' := by decide
  exact this n h

theorem length_hexDigits_le {n k : Nat} (h : n < 16 ^ (k + 1)) : (hexDigits n).length ≤ k + 1 := by
  induction k generalizing n with
  | zero =>
    rw [hexDigits, if_pos (by simpa using h)]
    simp
  | succ k ih =>
    rw [hexDigits]
    split
    · simp
    · have hq : n / 16 < 16 ^ (k + 1) := by rw [Nat.pow_succ] at h; omega
      have := ih hq
      rw [List.length_append, List.length_singleton]
      omega

theorem before_nil (s : Scan) : Scan.before [] s = s := by
  cases s <;> rfl

/-- One digit inside the braces of a code point. -/
theorem decodeFrom_hexDigit {n : Nat} (hn : n < 16) {count : Nat} (hc : count < 6) (value : Nat)
    (r : List Char) :
    decodeFrom (.unicodeDigits value count) (hexDigit n :: r) =
      decodeFrom (.unicodeDigits (value * 16 + n) (count + 1)) r := by
  have hs : QuoteState.step .text '"' (.unicodeDigits value count) (hexDigit n) =
      .goes (.unicodeDigits (value * 16 + n) (count + 1)) := by
    simp [QuoteState.step, QuoteState.stepUnicode, hexValue?_hexDigit hn, hc]
  have he : QuoteState.emits (.unicodeDigits value count) (hexDigit n) = none := by
    simp [QuoteState.emits, hexDigit_ne_closingBrace hn]
  simp only [decodeFrom, hs, he, Option.toList_none, before_nil]

/-- All digits of a number, which a code point starts with. -/
theorem decodeFrom_hexDigits (n : Nat) (r : List Char) (h : (hexDigits n).length ≤ 6) :
    decodeFrom (.unicodeDigits 0 0) (hexDigits n ++ r) =
      decodeFrom (.unicodeDigits n (hexDigits n).length) r := by
  induction n using Nat.strongRecOn generalizing r with
  | _ n ih =>
    rw [hexDigits] at h ⊢
    split
    · rename_i hn
      have := decodeFrom_hexDigit hn (show 0 < 6 by omega) 0 r
      rw [Nat.zero_mul, Nat.zero_add] at this
      exact this
    · rename_i hn
      rw [if_neg hn, List.length_append, List.length_singleton] at h
      rw [List.append_assoc, List.singleton_append, ih (n / 16) (by omega) _ (by omega),
        decodeFrom_hexDigit (Nat.mod_lt _ (by omega)) (by omega), List.length_append,
        List.length_singleton, show n / 16 * 16 + n % 16 = n by omega]

/-! ## One character -/

theorem isScalar_toNat (c : Char) : isScalar c.toNat = true := by
  have h := c.valid
  simp only [UInt32.isValidChar, Nat.isValidChar] at h
  simp only [isScalar, Char.toNat, Bool.or_eq_true, Bool.and_eq_true, decide_eq_true_eq]
  omega

theorem toNat_lt (c : Char) : c.toNat < 16 ^ 6 := by
  have h := c.valid
  simp only [UInt32.isValidChar, Nat.isValidChar] at h
  simp only [Char.toNat]
  omega

/-- A character spelled by its code point. -/
theorem decodeFrom_codePoint (c : Char) (r : List Char) :
    decodeFrom .plain (['\\', 'u', '\x7b'] ++ hexDigits c.toNat ++ ['\x7d'] ++ r) =
      Scan.before [c] (decodeFrom .plain r) := by
  have hl : (hexDigits c.toNat).length ≤ 6 := length_hexDigits_le (toNat_lt c)
  have hpos : (hexDigits c.toNat).length ≠ 0 := by
    rw [hexDigits]; split <;> simp
  have hbrace : QuoteState.step .text '"' (.unicodeDigits c.toNat (hexDigits c.toNat).length)
      '\x7d' = .goes .plain := by
    simp [QuoteState.step, QuoteState.stepUnicode, hpos, isScalar_toNat,
      show hexValue? '\x7d' = none by decide]
  have hemit : QuoteState.emits (.unicodeDigits c.toNat (hexDigits c.toNat).length) '\x7d' =
      some c := by
    simp [QuoteState.emits, Char.ofNat_toNat]
  calc decodeFrom .plain (['\\', 'u', '\x7b'] ++ hexDigits c.toNat ++ ['\x7d'] ++ r)
      = decodeFrom (.unicodeDigits 0 0) (hexDigits c.toNat ++ ('\x7d' :: r)) := by
        simp [decodeFrom, QuoteState.step, QuoteState.stepPlain, QuoteState.stepBackslash,
          QuoteState.emits, QuoteState.simpleEscape, before_nil]
    _ = decodeFrom (.unicodeDigits c.toNat (hexDigits c.toNat).length) ('\x7d' :: r) :=
        decodeFrom_hexDigits c.toNat _ hl
    _ = Scan.before [c] (decodeFrom .plain r) := by
        simp only [decodeFrom, hbrace, hemit, Option.toList_some]

/-- A character that stands for itself. -/
theorem decodeFrom_plain {c : Char} (hq : c ≠ '"') (hr : c ≠ '\r') (hb : c ≠ '\\')
    (r : List Char) : decodeFrom .plain (c :: r) = Scan.before [c] (decodeFrom .plain r) := by
  simp [decodeFrom, QuoteState.step, QuoteState.stepPlain, QuoteState.emits, hq, hr, hb]

/-- **An escaped character contributes itself**, whatever follows. -/
theorem decodeFrom_escapeChar (c : Char) (r : List Char) :
    decodeFrom .plain (escapeChar c ++ r) = Scan.before [c] (decodeFrom .plain r) := by
  have simple (e d : Char) (he : QuoteState.simpleEscape e = some d)
      (hs : QuoteState.stepBackslash .text e = .goes .plain) :
      decodeFrom .plain (['\\', e] ++ r) = Scan.before [d] (decodeFrom .plain r) := by
    simp [decodeFrom, QuoteState.step, QuoteState.stepPlain, QuoteState.emits, he, hs, before_nil]
  unfold escapeChar
  split
  · subst_vars; exact simple '0' _ rfl rfl
  split
  · subst_vars; exact simple 't' _ rfl rfl
  split
  · subst_vars; exact simple 'r' _ rfl rfl
  split
  · subst_vars; exact simple 'n' _ rfl rfl
  split
  · subst_vars; exact simple '\\' _ rfl rfl
  split
  · subst_vars; exact simple '"' _ rfl rfl
  split
  · exact decodeFrom_plain (by assumption) (by assumption) (by assumption) r
  · exact decodeFrom_codePoint c r

/-! ## Whole literals -/

theorem decodeFrom_escapeLiteral (s rest : List Char) :
    decodeFrom .plain (escapeLiteral s ++ '"' :: rest) = some (s, rest) := by
  induction s with
  | nil => simp [escapeLiteral, decodeFrom, QuoteState.step, QuoteState.stepPlain]
  | cons c s ih =>
    rw [escapeLiteral, List.append_assoc]
    split
    · rename_i h
      obtain ⟨rfl, -⟩ := h
      -- a NUL before an octal digit takes two digits of its own
      have : decodeFrom .plain (['\\', 'x', '0', '0'] ++ (escapeLiteral s ++ '"' :: rest)) =
          Scan.before ['\x00'] (decodeFrom .plain (escapeLiteral s ++ '"' :: rest)) := by
        simp [decodeFrom, QuoteState.step, QuoteState.stepPlain, QuoteState.stepBackslash,
          QuoteState.stepHexSecond, QuoteState.emits, QuoteState.simpleEscape, before_nil,
          show hexValue? '0' = some 0 by decide]
      rw [this, ih]
      rfl
    · rw [decodeFrom_escapeChar, ih]
      rfl

theorem toList_literal (s : String) :
    (Text.literal s).toList = '"' :: (escapeLiteral s.toList ++ ['"']) := by
  simp [Text.literal]

/-- **Every text is read back from the literal that is written for it.** -/
theorem decode_literal (s : String) : decode (Text.literal s) = some (s, "") := by
  simp [decode, toList_literal, decodeFrom_escapeLiteral]

/-! ## Literals inside a text -/

/-- Where the text of a literal is found, its end is found at the same place. -/
theorem quotedRest_of_decodeFrom {st : QuoteState} {s a r : Chars}
    (h : decodeFrom st s = some (a, r)) :
    ∃ taken, s = taken ++ r ∧ quotedRest .text st s = some (taken, r) := by
  induction s generalizing st a with
  | nil => cases h
  | cons c s ih =>
    rw [decodeFrom] at h
    cases hs : st.step .text '"' c with
    | refused =>
      rw [hs] at h
      cases h
    | ends =>
      rw [hs] at h
      cases h
      exact ⟨[c], rfl, by rw [quotedRest, hs]⟩
    | goes st' =>
      rw [hs] at h
      obtain ⟨⟨b, r'⟩, hb, he⟩ := Option.map_eq_some_iff.mp h
      cases he
      obtain ⟨taken, rfl, hq⟩ := ih hb
      refine ⟨c :: taken, rfl, ?_⟩
      simp only [quotedRest, hs, hq]
      rfl

theorem quotedRest_escapeLiteral (s rest : Chars) :
    quotedRest .text .plain (escapeLiteral s ++ '"' :: rest) =
      some (escapeLiteral s ++ ['"'], rest) := by
  obtain ⟨taken, hs, hq⟩ := quotedRest_of_decodeFrom (decodeFrom_escapeLiteral s rest)
  rw [List.append_cons] at hs
  rw [hq, List.append_cancel_right hs]

section

variable {rest : Chars}

/-- A written literal ends where it was ended, unless a word follows it directly. -/
theorem literal_literal (s : String) (h : word rest = none) :
    Lexer.literal ((Text.literal s).toList ++ rest) = some ((Text.literal s).toList, rest) := by
  have hquoted : withSuffix (Scan.before ['"']
      (quotedRest .text .plain (escapeLiteral s.toList ++ '"' :: rest))) =
      some ('"' :: (escapeLiteral s.toList ++ ['"']), rest) := by
    rw [quotedRest_escapeLiteral]
    simp [withSuffix, Scan.before, Lexer.suffix, h]
  rw [toList_literal, List.cons_append, List.append_assoc, List.singleton_append]
  simp only [Lexer.literal, hquoted]
  rfl

/-- **A written literal is one token of a text**, wherever the lexer is when it gets there. -/
theorem lexFrom_literal (s : String) (h : word rest = none) (fuel : Nat) (p : Position)
    (stack : List (Delimiter × Position)) :
    lexFrom (fuel + 1) p stack ((Text.literal s).toList ++ rest) =
      (Placed.mk (.literal (Text.literal s)) ⟨p, p.advance (Text.literal s).toList⟩ :: ·) <$>
        lexFrom fuel (p.advance (Text.literal s).toList) stack rest := by
  have hleaf : leaf ((Text.literal s).toList ++ rest) =
      some (.literal (Text.literal s), (Text.literal s).toList, rest) := by
    simp only [leaf, literal_literal s h, String.ofList_toList]
  rw [toList_literal, List.cons_append, List.append_assoc, List.singleton_append] at hleaf ⊢
  simp [lexFrom, trivia, docComment, isBlank, opens?, closes?, hleaf]

end

end KeyedRecord.Source.StringLiteral
