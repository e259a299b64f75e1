import KeyedRecord.Proofs.Source.Scanners

/-!
# Numbers are scanned again

A number ends where no digit goes on.  What is left of the word behind it is its suffix, which may
begin like an exponent, and a dot belongs to a number or not by what follows it.  So where another
text goes on behind a number is what has to be watched: `GoesOn` says what the digits of a number
can tell of it.

Principal results: `scans_number`, and with the literals between quotes `scans_literal`.
-/

set_option autoImplicit false

namespace KeyedRecord.Source.Lexer

open KeyedRecord.Text

variable {a b r s t w : Chars}

/-! ## Numbers -/

/-- A number of any kind. -/
def number (s : Chars) : Scan := numberWith (decimalDigits s) <|> numberWith (wholeDigits s)

theorem withSuffix_before (pre : Chars) (o : Scan) :
    withSuffix (Scan.before pre o) = Scan.before pre (withSuffix o) := by
  cases o <;> simp [withSuffix, Scan.before]

theorem literal_eq (s : Chars) : literal s = (withSuffix (quotedBody s) <|> number s) := by
  unfold literal quotedBody number
  split
  all_goals simp only [rawLiteral_eq, singleQuoted_eq, withSuffix_before] <;> rfl

/-- The sign of an exponent, if it has one. -/
def sign : Chars → Chars × Chars
  | [] => ([], [])
  | c :: t => if c = '+' ∨ c = '-' then ([c], t) else ([], c :: t)

theorem sign_append {x : Chars} (hx : x = [] ∧ Stops (fun c => c == '+' || c == '-') s ∨ x = ['+'] ∨
    x = ['-']) :
    sign (x ++ s) = (x, s) := by
  rcases hx with ⟨rfl, hs⟩ | rfl | rfl
  · cases s with
    | nil => rfl
    | cons c s =>
      have : (c == '+' || c == '-') = false := hs c rfl
      simp only [Bool.or_eq_false_iff, beq_eq_false_iff_ne] at this
      simp [sign, this]
  · rfl
  · rfl

theorem exists_of_sign (s : Chars) : ∃ x t, sign s = (x, t) ∧ s = x ++ t ∧
    (x = [] ∧ Stops (fun c => c == '+' || c == '-') t ∨ x = ['+'] ∨ x = ['-']) := by
  cases s with
  | nil => exact ⟨[], [], rfl, rfl, .inl ⟨rfl, fun c hc => by simp at hc⟩⟩
  | cons c s =>
    by_cases hc : c = '+' ∨ c = '-'
    · exact ⟨[c], s, by simp [sign, hc], rfl, .inr (by simpa using hc)⟩
    · refine ⟨[], c :: s, by simp [sign, hc], rfl, .inl ⟨rfl, fun x hx => ?_⟩⟩
      obtain rfl : c = x := by simpa using hx
      simpa using hc

theorem exponent_eq (s : Chars) : exponent s =
    let (gaps, r) := run (· == '_') s
    let (x, r) := sign r
    let (digits, r) := run isDigitOrGap r
    if digits.any isAsciiDigit then some (gaps ++ x ++ digits, r) else none := by
  obtain ⟨gaps, r, hgaps, -⟩ := run_eq (· == '_') s
  simp only [exponent, hgaps]
  cases r <;> rfl

/-- The characters of an exponent. -/
def isExponentChar (c : Char) : Bool := isDigitOrGap c || c == '+' || c == '-'

/-- An exponent ends at any text that does not go on with digits. -/
theorem scans_exponent {x : Chars} (h : exponent s = some (x, t)) :
    s = x ++ t ∧ Stops isDigitOrGap t ∧ (∀ c ∈ x, isExponentChar c = true) ∧
      ∀ s', Stops isDigitOrGap s' → exponent (x ++ s') = some (x, s') := by
  obtain ⟨gaps, r, hgaps, rfl, hg, hr⟩ := run_eq (· == '_') s
  obtain ⟨y, r, hsign, rfl, hy⟩ := exists_of_sign r
  obtain ⟨digits, r, hdigits, rfl, hd, hend⟩ := run_eq isDigitOrGap r
  simp only [exponent_eq, hgaps, hsign, hdigits] at h
  split at h
  · rename_i hany
    cases h
    have hne : digits ≠ [] := by rintro rfl; simp at hany
    refine ⟨by simp, hend, fun c hc => ?_, fun s' hs' => ?_⟩
    · simp only [List.append_assoc, List.mem_append] at hc
      simp only [isExponentChar, Bool.or_eq_true, beq_iff_eq]
      rcases hc with hc | hc | hc
      · have : c = '_' := by simpa using hg c hc
        exact .inl (.inl (by simp [isDigitOrGap, this]))
      · rcases hy with ⟨rfl, -⟩ | rfl | rfl <;> simp_all
      · exact .inl (.inl (hd c hc))
    · have hgaps' : Stops (· == '_') (y ++ digits ++ s') := by
        rw [← List.append_assoc] at hr
        exact hr.append fun h => absurd (List.append_eq_nil_iff.mp h).2 hne
      have hy' : y = [] ∧ Stops (fun c => c == '+' || c == '-') (digits ++ s') ∨ y = ['+'] ∨
          y = ['-'] :=
        hy.imp_left fun h => ⟨h.1, h.2.append fun h => absurd h hne⟩
      have hform : gaps ++ y ++ digits ++ s' = gaps ++ (y ++ digits ++ s') := by simp
      rw [hform, exponent_eq]
      simp only [run_append hg hgaps']
      rw [List.append_assoc]
      simp only [sign_append hy', run_append hd hs', hany, if_true]
  · cases h

/-- What holds of all ASCII characters. -/
theorem of_ascii {q : Char → Bool} (h : ∀ n < 128, q (Char.ofNat n) = true) {c : Char}
    (hc : c.toNat < 128) : q c = true := by
  rw [← Char.ofNat_toNat c]
  exact h _ hc

theorem toNat_lt_of_digit {c : Char} (h : isAsciiDigit c = true) : c.toNat < 128 := by
  have hle : c.toNat ≤ '9'.toNat := (decide_eq_true_eq.mp h).2
  exact hle.trans_lt (by decide)

theorem isDigitOrGap_imp {c : Char} (h : isDigitOrGap c = true) : isWordPart c = true := by
  have hlt : c.toNat < 128 := by
    rcases Bool.or_eq_true_iff.mp h with h | h
    · exact toNat_lt_of_digit h
    · rw [beq_iff_eq.mp h]
      decide
  have := of_ascii (q := fun c => !isDigitOrGap c || isWordPart c) (by decide +kernel) hlt
  simpa [h] using this

/-- The characters of a number. -/
def isNumberChar (c : Char) : Bool := isWordPart c || c == '.' || c == '+' || c == '-'

theorem isExponentChar_imp {c : Char} (h : isExponentChar c = true) : isNumberChar c = true := by
  simp only [isExponentChar, Bool.or_eq_true] at h
  simp only [isNumberChar, Bool.or_eq_true]
  rcases h with (h | h) | h
  · exact .inl (.inl (.inl (isDigitOrGap_imp h)))
  · exact .inl (.inr h)
  · exact .inr h

/-- No exponent stands here. -/
def NoExponent (s : Chars) : Prop := ∀ e t, s = e :: t → isExponentLetter e = true →
    exponent t = none

/-- The text goes on as another one does, as far as the digits of a number can tell. -/
structure GoesOn (r s : Chars) : Prop where
  stops : ∀ p : Char → Bool, p ' ' = false ∧ p ')' = false ∧ p ']' = false → Stops p r → Stops p s
  exponent : NoExponent r → NoExponent s

theorem goesOn (hw : ∀ x ∈ w, isWordPart x = true) (hr : Stops isWordPart r) (hs : Breaks s) :
    GoesOn (w ++ r) (w ++ s) where
  stops p hp h := h.append fun _ => stops_of_breaks hs hp
  exponent h e t he hletter := by
    have hdigits : Stops isDigitOrGap r := hr.mono fun _ => isDigitOrGap_imp
    cases w with
    | nil =>
      obtain rfl : s = e :: t := he
      have := stops_of_breaks (p := isExponentLetter) hs (by decide) e rfl
      rw [this] at hletter
      cases hletter
    | cons c w =>
      obtain ⟨rfl, rfl⟩ := List.cons.inj he
      rw [Option.eq_none_iff_forall_ne_some]
      rintro ⟨x, u⟩ hx
      obtain ⟨heq, hstop, hchars, hagain⟩ := scans_exponent hx
      obtain ⟨y, rfl, rfl⟩ := exists_of_breaks heq hs hchars (by decide)
      have hnone := h c (x ++ y ++ r) rfl hletter
      rw [List.append_assoc, hagain (y ++ r) (hstop.append fun _ => hdigits)] at hnone
      cases hnone

/-- A digit stands here. -/
def startsDigit : Chars → Bool
  | c :: _ => isAsciiDigit c
  | [] => false

/-- An exponent behind the digits of a number, if one stands there. -/
def withExponent (body : Chars) : Chars → Chars × Chars
  | [] => (body, [])
  | e :: t =>
    if isExponentLetter e then
      match exponent t with
      | some (x, t) => (body ++ e :: x, t)
      | none => (body, e :: t)
    else (body, e :: t)

/-- The dot before this does not belong to a number. -/
def splitsDot : Chars → Bool
  | c :: _ => c == '.' || isWordStart c
  | [] => false

/-- The rest of a number behind its first digits. -/
def decimalRest (whole : Chars) : Chars → Scan
  | [] => none
  | '.' :: r =>
    if splitsDot r then none
    else some (withExponent (whole ++ '.' :: (run isDigitOrGap r).1) (run isDigitOrGap r).2)
  | e :: t =>
    if isExponentLetter e then (exponent t).map fun (x, t) => (whole ++ e :: x, t) else none

theorem withExponent_eq (body r : Chars) : some (withExponent body r) =
    match r with
    | e :: t =>
      if isExponentLetter e then
        match exponent t with
        | some (x, t) => some (body ++ e :: x, t)
        | none => some (body, r)
      else some (body, r)
    | [] => some (body, r) := by
  unfold withExponent
  rcases r with _ | ⟨e, t⟩
  · rfl
  · dsimp only
    split
    · cases exponent t <;> rfl
    · rfl

theorem decimalDigits_eq (s : Chars) : decimalDigits s =
    if startsDigit s = true then decimalRest (run isDigitOrGap s).1
      (run isDigitOrGap s).2 else none := by
  rcases s with _ | ⟨d, s⟩
  · rfl
  · obtain ⟨whole, r, hrun, -⟩ := run_eq isDigitOrGap (d :: s)
    cases hd : isAsciiDigit d with
    | false => simp [decimalDigits, startsDigit, hd]
    | true =>
      simp only [decimalDigits, startsDigit, hd, hrun, Bool.not_true, Bool.false_eq_true,
        if_false, if_true]
      rcases r with _ | ⟨c, r⟩
      · rfl
      · by_cases hc : c = '.'
        · subst hc
          simp only [decimalRest, withExponent_eq]
          rfl
        · have hrest : decimalRest whole (c :: r) =
              if isExponentLetter c then (exponent r).map fun (x, t) =>
                (whole ++ c :: x, t) else none := by
            unfold decimalRest
            split
            · cases ‹_ = [] ›
            · cases ‹_ = '.' :: _›
              exact absurd rfl hc
            · cases ‹_ = _ :: _›
              rfl
          rw [hrest]
          split
          · cases ‹_ = '.' :: _›
            exact absurd rfl hc
          · cases ‹_ = _ :: _›
            split
            · cases exponent r <;> rfl
            · rfl
          · cases ‹_ = []›

theorem decimalRest_exponent {e : Char} (he : isExponentLetter e = true) (whole t : Chars) :
    decimalRest whole (e :: t) = (exponent t).map fun (x, t) => (whole ++ e :: x, t) := by
  have hdot : e ≠ '.' := by
    rintro rfl
    exact absurd he (by decide)
  unfold decimalRest
  split
  · cases ‹_ = []›
  · cases ‹_ = '.' :: _›
    exact absurd rfl hdot
  · cases ‹_ = _ :: _›
    rw [if_pos he]

/-- The digits of a number are digits at the start of a text. -/
theorem decimalDigits_append {w : Chars} (hne : startsDigit w = true)
    (hw : ∀ c ∈ w, isDigitOrGap c = true)
    (hs : Stops isDigitOrGap s) : decimalDigits (w ++ s) = decimalRest w s := by
  have hstart : startsDigit (w ++ s) = true := by cases w <;> simp_all [startsDigit]
  have hrun := run_append hw hs
  rw [decimalDigits_eq, if_pos hstart, hrun]

/-- A number with a fraction or an exponent, and what may stand behind it. -/
structure DecimalScan (a r : Chars) : Prop where
  start : startsDigit a = true
  stops : Stops isDigitOrGap r
  chars : ∀ c ∈ a, isNumberChar c = true
  onward : ∀ s, GoesOn r s → decimalDigits (a ++ s) = some (a, s)
  plain : '.' ∈ a ∨ ∀ s, Stops isDigitOrGap s → decimalDigits (a ++ s) = some (a, s)

theorem exponentLetter_facts {e : Char} (h : isExponentLetter e = true) :
    isDigitOrGap e = false ∧ isNumberChar e = true := by
  rcases Bool.or_eq_true_iff.mp h with h | h <;> rw [beq_iff_eq.mp h] <;> decide

theorem startsDigit_append {l : Chars} (h : startsDigit l = true) :
    startsDigit (l ++ s) = true := by
  cases l <;> simp_all [startsDigit]

/-- Digits with an exponent. -/
theorem decimalScan_exponent {whole x : Chars} {e : Char} (hne : startsDigit whole = true)
    (hw : ∀ c ∈ whole, isDigitOrGap c = true) (he : isExponentLetter e = true)
      (hx : exponent t = some (x, r)) :
    DecimalScan (whole ++ e :: x) r := by
  obtain ⟨-, hstop, hchars, hagain⟩ := scans_exponent hx
  have hplain (s : Chars) (hs : Stops isDigitOrGap s) :
      decimalDigits (whole ++ e :: x ++ s) = some (whole ++ e :: x, s) := by
    have hstop : Stops isDigitOrGap (e :: (x ++ s)) := by
      rintro c ⟨⟩
      exact (exponentLetter_facts he).1
    rw [List.append_assoc, List.cons_append, decimalDigits_append hne hw hstop,
      decimalRest_exponent he, hagain s hs]
    rfl
  refine ⟨startsDigit_append hne, hstop, fun c hc => ?_, fun s hs =>
    hplain s (hs.stops _ (by decide) hstop), .inr hplain⟩
  simp only [List.mem_append, List.mem_cons] at hc
  rcases hc with hc | rfl | hc
  · simp [isNumberChar, isDigitOrGap_imp (hw c hc)]
  · exact (exponentLetter_facts he).2
  · exact isExponentChar_imp (hchars c hc)

theorem exists_of_withExponent {body a : Chars} (h : withExponent body s = (a, r)) :
    (a = body ∧ r = s ∧ NoExponent s) ∨
      ∃ e x t, s = e :: t ∧ isExponentLetter e = true ∧ exponent t = some (x, r) ∧
        a = body ++ e :: x := by
  unfold withExponent at h
  rcases s with _ | ⟨e, t⟩
  · cases h
    exact .inl ⟨rfl, rfl, fun _ _ h => by cases h⟩
  · dsimp only at h
    split at h
    · cases hx : exponent t with
      | some v =>
        rw [hx] at h
        cases h
        exact .inr ⟨e, v.1, t, rfl, ‹_›, hx, rfl⟩
      | none =>
        rw [hx] at h
        cases h
        exact .inl ⟨rfl, rfl, fun _ _ h _ => by cases h; exact hx⟩
    · cases h
      exact .inl ⟨rfl, rfl, fun _ _ h he => by cases h; exact absurd he ‹_›⟩

theorem withExponent_none {body : Chars} (h : NoExponent s) : withExponent body s = (body, s) := by
  rcases s with _ | ⟨e, t⟩
  · rfl
  · cases he : isExponentLetter e with
    | true => simp [withExponent, he, h e t rfl he]
    | false => simp [withExponent, he]

theorem decimalRest_dot (whole r : Chars) : decimalRest whole ('.' :: r) =
    if splitsDot r = true then none
    else some (withExponent (whole ++ '.' :: (run isDigitOrGap r).1) (run isDigitOrGap r).2) := rfl

theorem splitsDot_append {part : Chars} (h : splitsDot (part ++ r) = false)
    (hs : part = [] → splitsDot s = false) :
    splitsDot (part ++ s) = false := by
  cases part with
  | nil => exact hs rfl
  | cons => exact h

theorem splitsDot_iff : splitsDot s = false ↔ Stops (fun c => c == '.' || isWordStart c) s := by
  cases s <;> simp [splitsDot, Stops]

/-- Digits with a dot and possibly an exponent. -/
theorem decimalScan_dot {whole part a : Chars} (hne : startsDigit whole = true)
    (hw : ∀ c ∈ whole, isDigitOrGap c = true) (hp : ∀ c ∈ part, isDigitOrGap c = true)
      (hs : Stops isDigitOrGap s)
    (hdot : splitsDot (part ++ s) = false) (h : withExponent (whole ++ '.' :: part) s = (a, r)) :
    ∃ y, s = y ++ r ∧ a = whole ++ '.' :: part ++ y ∧ DecimalScan a r := by
  have hstop (s : Chars) : Stops isDigitOrGap ('.' :: s) := by
    rintro c ⟨⟩
    rfl
  have hbody : ∀ c ∈ whole ++ '.' :: part, isNumberChar c = true := by
    intro c hc
    simp only [List.mem_append, List.mem_cons] at hc
    rcases hc with hc | rfl | hc
    · simp [isNumberChar, isDigitOrGap_imp (hw c hc)]
    · rfl
    · simp [isNumberChar, isDigitOrGap_imp (hp c hc)]
  have again {y s : Chars} (hy : Stops isDigitOrGap (y ++ s))
    (hd : splitsDot (part ++ (y ++ s)) = false) :
      decimalDigits (whole ++ '.' :: part ++ y ++ s) =
        some (withExponent (whole ++ '.' :: part) (y ++ s)) := by
    have hform : whole ++ '.' :: part ++ y ++ s = whole ++ '.' :: (part ++ (y ++ s)) := by simp
    rw [hform, decimalDigits_append hne hw (hstop _), decimalRest_dot, run_append hp hy, hd]
    rfl
  rcases exists_of_withExponent h with ⟨rfl, rfl, hno⟩ | ⟨e, x, t, rfl, he, hx, rfl⟩
  · refine ⟨[], rfl, by simp, startsDigit_append hne, hs, hbody, fun s' hs' => ?_, .inl (by simp)⟩
    have := again (y := []) (s := s') (hs'.stops _ (by decide) hs)
      (splitsDot_append hdot fun h => by
        subst h
        exact splitsDot_iff.mpr (hs'.stops _ (by decide) (splitsDot_iff.mp hdot)))
    simpa [withExponent_none (hs'.exponent hno)] using this
  · obtain ⟨rfl, hend, hchars, hagain⟩ := scans_exponent hx
    refine ⟨e :: x, rfl, rfl, startsDigit_append (startsDigit_append hne), hend, fun c hc => ?_,
      fun s' hs' => ?_,
      .inl (by simp)⟩
    · simp only [List.mem_append, List.mem_cons] at hc
      rcases hc with hc | rfl | hc
      · exact hbody c (by simpa using hc)
      · exact (exponentLetter_facts he).2
      · exact isExponentChar_imp (hchars c hc)
    · have := again (y := e :: x) (s := s') (by rintro c ⟨⟩; exact (exponentLetter_facts he).1)
        (splitsDot_append hdot fun h => by subst h; exact hdot)
      rw [this]
      simp [withExponent, he, hagain s' (hs'.stops _ (by decide) hend)]

theorem decimalScan (h : decimalDigits s = some (a, r)) : s = a ++ r ∧ DecimalScan a r := by
  rw [decimalDigits_eq] at h
  split at h
  · obtain ⟨whole, t, hrun, rfl, hw, ht⟩ := run_eq isDigitOrGap s
    have hne : startsDigit whole = true := by
      rename_i hstart
      rcases whole with _ | ⟨c, whole⟩
      · rcases t with _ | ⟨c, t⟩
        · cases hstart
        · have := ht c rfl
          simp [isDigitOrGap] at this
          simp [startsDigit, this.1] at hstart
      · exact hstart
    rw [hrun] at h
    dsimp only at h
    rcases t with _ | ⟨e, t⟩
    · cases h
    by_cases hdot : e = '.'
    · subst hdot
      rw [decimalRest_dot] at h
      split at h
      · cases h
      · rename_i hsplit
        obtain ⟨part, t', hrun', rfl, hp, ht'⟩ := run_eq isDigitOrGap t
        rw [hrun'] at h
        obtain ⟨y, rfl, rfl, hscan⟩ := decimalScan_dot hne hw hp ht' (by simpa using hsplit)
          (Option.some.inj h)
        exact ⟨by simp, hscan⟩
    · cases he : isExponentLetter e with
      | true =>
        rw [decimalRest_exponent he] at h
        obtain ⟨⟨x, r'⟩, hx, h⟩ := Option.map_eq_some_iff.mp h
        cases h
        obtain ⟨rfl, -⟩ := scans_exponent hx
        exact ⟨by simp, decimalScan_exponent hne hw he hx⟩
      | false =>
        unfold decimalRest at h
        split at h
        · cases h
        · cases ‹_ = '.' :: _›
          exact absurd rfl hdot
        · cases ‹_ = _ :: _›
          simp [he] at h
  · cases h

/-- The characters that go on with a number in the base, or refuse it. -/
def isBaseChar (base : Nat) (c : Char) : Bool :=
  c == '_' || isAsciiDigit c || (hexValue? c).any fun v => decide (v < base)

theorem isBaseChar_break {base : Nat} : isBaseChar base ' ' = false ∧ isBaseChar base ')' = false ∧
    isBaseChar base ']' = false :=
  ⟨rfl, rfl, rfl⟩

theorem baseDigits_stop {base : Nat} (h : Stops (isBaseChar base) s) :
    baseDigits base false s = some ([], s) := by
  rcases s with _ | ⟨c, s⟩
  · rfl
  · have hc := h c rfl
    simp only [isBaseChar, Bool.or_eq_false_iff, beq_eq_false_iff_ne] at hc
    unfold baseDigits
    rw [if_neg hc.1.1]
    cases hv : hexValue? c with
    | none => rfl
    | some v =>
      have : ¬v < base := by simpa [hv] using hc.2
      simp [this, hc.1.2]

theorem isWordPart_of_hexValue? {c : Char} {v : Nat} (h : hexValue? c = some v) :
    isWordPart c = true := by
  have hlt : c.toNat < 128 := by
    have le {d : Char} (h : c ≤ d) : c.toNat ≤ d.toNat := h
    unfold hexValue? at h
    split at h
    · exact (le (‹_ ∧ _›).2).trans_lt (by decide)
    · split at h
      · exact (le (‹_ ∧ _›).2).trans_lt (by decide)
      · split at h
        · exact (le (‹_ ∧ _›).2).trans_lt (by decide)
        · cases h
  have := of_ascii (q := fun c => (hexValue? c).isNone || isWordPart c) (by decide +kernel) hlt
  simpa [h] using this

theorem isAsciiDigit_of_hexValue? {c : Char} {v : Nat} (h : hexValue? c = some v) (hv : v < 10) :
    isAsciiDigit c = true := by
  have hlt : c.toNat < 128 := by
    cases hw : decide (c.toNat < 128) with
    | true => exact of_decide_eq_true hw
    | false =>
      have hle {d : Char} (hd : d.toNat < 128) : ¬c ≤ d := fun h =>
        absurd (show c.toNat ≤ d.toNat from h) (by have := of_decide_eq_false hw; omega)
      simp [hexValue?, hle] at h
  have := of_ascii (q := fun c => !((hexValue? c).any fun v => decide (v < 10)) || isAsciiDigit c)
    (by decide +kernel) hlt
  simpa [h, hv] using this

/-- The characters `a` are digits of the base with gaps, `r` does not go on with more of them, and
in front of any such text they are read as in front of `r`. -/
def IsBaseRun (base : Nat) (empty : Bool) (s a r : Chars) : Prop :=
  s = a ++ r ∧ (∀ c ∈ a, c = '_' ∨ ∃ v, hexValue? c = some v ∧ v < base) ∧
    Stops (isBaseChar base) r ∧
    ∀ s', Stops (isBaseChar base) s' → baseDigits base empty (a ++ s') = some (a, s')

theorem IsBaseRun.nil {base : Nat} {empty : Bool} (hempty : ¬empty = true)
    (hr : Stops (isBaseChar base) r) : IsBaseRun base empty r [] r := by
  obtain rfl : empty = false := by simpa using hempty
  exact ⟨rfl, by simp, hr, fun s' hs' => baseDigits_stop hs'⟩

theorem IsBaseRun.cons {base : Nat} {empty e : Bool} {c : Char} (h : IsBaseRun base e s a r)
    (hc : c = '_' ∨ ∃ v, hexValue? c = some v ∧ v < base)
    (hrun : ∀ t, baseDigits base empty (c :: t) = Scan.before [c] (baseDigits base e t)) :
    IsBaseRun base empty (c :: s) (c :: a) r := by
  obtain ⟨rfl, hchars, hstop, hagain⟩ := h
  refine ⟨rfl, List.forall_mem_cons.mpr ⟨hc, hchars⟩, hstop, fun s' hs' => ?_⟩
  rw [List.cons_append, hrun, hagain s' hs']
  rfl

/-- A digit of ASCII is one of base sixteen. -/
theorem isSome_hexValue? {c : Char} (h : isAsciiDigit c = true) : (hexValue? c).isSome = true := by
  have := of_ascii (q := fun c => !isAsciiDigit c || (hexValue? c).isSome) (by decide +kernel)
    (toNat_lt_of_digit h)
  simpa [h] using this

/-- Digits of a base, and what may stand behind them. -/
theorem baseDigits_scan {base : Nat} {empty : Bool} (h : baseDigits base empty s = some (a, r)) :
    IsBaseRun base empty s a r := by
  induction s generalizing empty a with
  | nil =>
    cases empty with
    | true => cases h
    | false => cases h; exact .nil (by simp) fun c hc => by simp at hc
  | cons c s ih =>
    unfold baseDigits at h
    have onward {e : Bool} (hc : c = '_' ∨ ∃ v, hexValue? c = some v ∧ v < base)
        (hrun : ∀ t, baseDigits base empty (c :: t) = Scan.before [c] (baseDigits base e t))
        (h : Scan.before [c] (baseDigits base e s) = some (a, r)) :
        IsBaseRun base empty (c :: s) a r := by
      obtain ⟨⟨b, r'⟩, hb, h⟩ := Option.map_eq_some_iff.mp h
      cases h
      exact (ih hb).cons hc hrun
    have stop (hempty : ¬empty = true) (hno : isBaseChar base c = false)
        (h : some ([], c :: s) = some (a, r)) : IsBaseRun base empty (c :: s) a r := by
      cases h
      exact .nil hempty (by rintro x ⟨⟩; exact hno)
    split at h
    · split at h
      · cases h
      · exact onward (.inl ‹_›) (fun t => by rw [baseDigits, if_pos ‹_›, if_neg ‹_›]) h
    · rename_i hc
      split at h
      · rename_i v hv
        split at h
        · exact onward (.inr ⟨v, hv, ‹_›⟩) (fun t => by simp [baseDigits, hc, hv, ‹v < base›]) h
        · split at h
          · cases h
          · split at h
            · cases h
            · exact stop ‹_› (by simp_all [isBaseChar]) h
      · rename_i hv
        split at h
        · cases h
        · have hdigit : isAsciiDigit c = false :=
            Bool.eq_false_iff.mpr fun hd => by simpa [hv] using isSome_hexValue? hd
          exact stop ‹_› (by simp [isBaseChar, hc, hv, hdigit]) h

theorem parts_of_baseDigits {base : Nat} (h : ∀ c ∈ a, c = '_' ∨
    ∃ v, hexValue? c = some v ∧ v < base) :
    ∀ c ∈ a, isWordPart c = true := by
  intro c hc
  rcases h c hc with rfl | ⟨v, hv, -⟩
  · rfl
  · exact isWordPart_of_hexValue? hv

/-- A base other than ten is named here. -/
def startsBase : Chars → Bool
  | '0' :: c :: _ => c == 'x' || c == 'o' || c == 'b'
  | _ => false

theorem wholeDigits_ten (h : startsBase s = false) : wholeDigits s = baseDigits 10 true s := by
  unfold wholeDigits
  split
  · cases h
  · cases h
  · cases h
  · rfl

/-- A whole number, and what may stand behind it. -/
structure WholeScan (a r : Chars) : Prop where
  start : startsDigit a = true
  chars : ∀ c ∈ a, isWordPart c = true
  onward : ∀ s, GoesOn r s → wholeDigits (a ++ s) = some (a, s)

theorem wholeScan_base {b : Nat} {c : Char} (hc : isWordPart c = true)
    (hrun : ∀ t, wholeDigits ('0' :: c :: t) = Scan.before ['0', c] (baseDigits b true t))
    (h : wholeDigits ('0' :: c :: s) = some (a, r)) : '0' :: c :: s = a ++ r ∧ WholeScan a r := by
  rw [hrun] at h
  obtain ⟨⟨b, r'⟩, hb, h⟩ := Option.map_eq_some_iff.mp h
  cases h
  obtain ⟨rfl, hchars, hstop, hagain⟩ := baseDigits_scan hb
  refine ⟨rfl, rfl, fun x hx => ?_, fun s hs => ?_⟩
  · simp only [List.cons_append, List.nil_append, List.mem_cons] at hx
    rcases hx with rfl | rfl | hx
    · rfl
    · exact hc
    · exact parts_of_baseDigits hchars x hx
  · rw [List.append_assoc]
    show wholeDigits ('0' :: c :: (b ++ s)) = _
    rw [hrun, hagain s (hs.stops _ isBaseChar_break hstop)]
    rfl

theorem startsDigit_of_baseDigits (h : baseDigits 10 true s = some (a, r)) :
    startsDigit a = true := by
  rcases s with _ | ⟨c, s⟩
  · cases h
  · unfold baseDigits at h
    split at h
    · cases h
    · split at h
      · rename_i v hv
        split at h
        · obtain ⟨⟨b, r'⟩, -, h⟩ := Option.map_eq_some_iff.mp h
          cases h
          exact isAsciiDigit_of_hexValue? hv ‹_›
        · split at h <;> cases h
      · cases h

theorem startsBase_append (h : startsBase (a ++ r) = false) (hne : a ≠ []) (hs : GoesOn r s) :
    startsBase (a ++ s) = false := by
  rcases a with _ | ⟨c, _ | ⟨c', a⟩⟩
  · exact absurd rfl hne
  · by_cases hc : c = '0'
    · subst hc
      have hr : Stops (fun c => c == 'x' || c == 'o' || c == 'b') r := by
        rcases r with _ | ⟨c, r⟩
        · exact fun x hx => by simp at hx
        · rintro x ⟨⟩
          exact h
      have hs := hs.stops _ (by decide) hr
      rcases s with _ | ⟨c, s⟩
      · rfl
      · exact hs c rfl
    · rcases s with _ | ⟨c', s⟩ <;> simp [startsBase, hc]
  · by_cases hc : c = '0'
    · subst hc
      exact h
    · simp [startsBase, hc]

theorem wholeScan (h : wholeDigits s = some (a, r)) : s = a ++ r ∧ WholeScan a r := by
  cases hbase : startsBase s with
  | true =>
    unfold startsBase at hbase
    split at hbase
    · rename_i c t
      simp only [Bool.or_eq_true, beq_iff_eq] at hbase
      rcases hbase with (rfl | rfl) | rfl
      · exact wholeScan_base (b := 16) (by decide) (fun _ => rfl) h
      · exact wholeScan_base (b := 8) (by decide) (fun _ => rfl) h
      · exact wholeScan_base (b := 2) (by decide) (fun _ => rfl) h
    · cases hbase
  | false =>
    rw [wholeDigits_ten hbase] at h
    obtain ⟨rfl, hchars, hstop, hagain⟩ := baseDigits_scan h
    have hstart := startsDigit_of_baseDigits h
    have hne : a ≠ [] := by rintro rfl; cases hstart
    refine ⟨rfl, hstart, parts_of_baseDigits hchars, fun s hs => ?_⟩
    rw [wholeDigits_ten (startsBase_append hbase hne hs)]
    exact hagain s (hs.stops _ isBaseChar_break hstop)

theorem exists_of_numberWith {o : Scan} (h : numberWith o = some (a, r)) :
    ∃ b w, o = some (b, w ++ r) ∧ a = b ++ w ∧ EndsSuffix w r ∧ Stops isWordPart r := by
  unfold numberWith withSuffix at h
  rcases o with _ | ⟨b, t⟩
  · cases h
  · obtain ⟨w, r', hw⟩ : ∃ w r', suffix t = (w, r') := ⟨_, _, rfl⟩
    obtain ⟨rfl, he⟩ := endsSuffix_of_suffix hw
    simp only [Option.map_some, hw] at h
    split at h
    · cases h
      exact ⟨b, w, rfl, rfl, he, wordEnds_iff.mp ‹_›⟩
    · cases h

theorem numberWith_eq_some (he : EndsSuffix w r) (hr : Stops isWordPart r) :
    numberWith (some (b, w ++ r)) = some (b ++ w, r) := by
  simp [numberWith, withSuffix, suffix_append he, wordEnds_iff.mpr hr]

/-- A number of one kind that is read with its suffix is so wherever the text breaks. -/
theorem numberWith_append {digits : Chars → Scan} (he : EndsSuffix w r) (hr : Stops isWordPart r)
    (hagain : ∀ s, GoesOn (w ++ r) s → digits (b ++ s) = some (b, s)) (hs : Breaks s) :
    numberWith (digits (b ++ w ++ s)) = some (b ++ w, s) := by
  have hws : EndsSuffix w s := EndsSuffix.append (b := []) he fun _ => stops_isWordPart hs
  rw [List.append_assoc, hagain _ (goesOn he.parts hr hs)]
  exact numberWith_eq_some hws (stops_isWordPart hs)

/-- A whole number with its suffix has no fraction and no exponent, whatever breaks the text behind
it. -/
theorem numberWith_decimal_none (hchars : ∀ c ∈ a, isWordPart c = true) (hr : Stops isWordPart r)
    (hs : Breaks s) (h : numberWith (decimalDigits (a ++ r)) = none) :
      numberWith (decimalDigits (a ++ s)) = none := by
  rw [Option.eq_none_iff_forall_ne_some]
  rintro ⟨a', r'⟩ ha
  obtain ⟨b, w, hb, rfl, he, hend⟩ := exists_of_numberWith ha
  obtain ⟨heq, hscan⟩ := decimalScan hb
  have hnumber : ∀ c ∈ b ++ w, isNumberChar c = true := fun c hc => by
    rcases List.mem_append.mp hc with hc | hc
    · exact hscan.chars c hc
    · simp [isNumberChar, he.parts c hc]
  obtain ⟨y, rfl, rfl⟩ := exists_of_breaks (b := b ++ w) (by rw [heq, List.append_assoc]) hs
    hnumber (by decide)
  have hplain := hscan.plain.resolve_left fun hdot => by
    have := hchars '.' (by simp [hdot])
    exact absurd this (by decide)
  have hstop : Stops isDigitOrGap (w ++ (y ++ r)) := by
    have := hscan.stops
    rw [← List.append_assoc] at this ⊢
    exact this.append fun _ => hr.mono fun _ => isDigitOrGap_imp
  have hsome := numberWith_eq_some (b := b) (he.append (s := r) fun _ => hr)
    (hend.append fun _ => hr)
  rw [← hplain _ hstop] at hsome
  simp only [List.append_assoc] at h hsome
  rw [h] at hsome
  cases hsome

/-- **Numbers are read again.** -/
theorem scans_number : Scans Breaks number := by
  intro s a r h
  unfold number at h
  cases hdecimal : numberWith (decimalDigits s) with
  | some v =>
    rw [hdecimal] at h
    obtain rfl : v = (a, r) := Option.some.inj h
    obtain ⟨b, w, hb, rfl, he, hend⟩ := exists_of_numberWith hdecimal
    obtain ⟨rfl, hscan⟩ := decimalScan hb
    refine ⟨by simp, fun s' hs' => ?_⟩
    rw [number, numberWith_append he hend hscan.onward hs']
    rfl
  | none =>
    rw [hdecimal] at h
    have hwhole : numberWith (wholeDigits s) = some (a, r) := h
    obtain ⟨b, w, hb, rfl, he, hend⟩ := exists_of_numberWith hwhole
    obtain ⟨rfl, hscan⟩ := wholeScan hb
    have hchars : ∀ c ∈ b ++ w, isWordPart c = true := fun c hc => by
      rcases List.mem_append.mp hc with hc | hc
      · exact hscan.chars c hc
      · exact he.parts c hc
    refine ⟨by simp, fun s' hs' => ?_⟩
    rw [← List.append_assoc] at hdecimal
    rw [number, numberWith_decimal_none hchars hend hs' hdecimal,
      numberWith_append he hend hscan.onward hs']
    rfl

/-- A number starts with a digit. -/
theorem startsDigit_of_number (h : number s = some (a, r)) : startsDigit a = true := by
  unfold number at h
  cases hdecimal : numberWith (decimalDigits s) with
  | some v =>
    rw [hdecimal] at h
    obtain rfl : v = (a, r) := Option.some.inj h
    obtain ⟨b, w, hb, rfl, -, -⟩ := exists_of_numberWith hdecimal
    exact startsDigit_append (decimalScan hb).2.start
  | none =>
    rw [hdecimal] at h
    obtain ⟨b, w, hb, rfl, -, -⟩ := exists_of_numberWith
      (show numberWith (wholeDigits s) = some (a, r) from h)
    exact startsDigit_append (wholeScan hb).2.start

/-! ## All literals -/

theorem quotedBody_of_digit (h : startsDigit s = true) : quotedBody s = none := by
  unfold quotedBody
  split <;> first | rfl | exact absurd (show isAsciiDigit _ = true from h) (by decide)

/-- **Literals are read again.** -/
theorem scans_literal : Scans Breaks literal := by
  intro s a r h
  rw [literal_eq] at h
  cases hq : withSuffix (quotedBody s) with
  | some v =>
    rw [hq] at h
    obtain rfl : v = (a, r) := Option.some.inj h
    obtain ⟨rfl, hagain⟩ := (Scans.withSuffix scans_quotedBody) _ _ _ hq
    refine ⟨rfl, fun s' hs' => ?_⟩
    have hagain : withSuffix (quotedBody (a ++ s')) = some (a, s') := hagain s' hs'
    rw [literal_eq, hagain]
    rfl
  | none =>
    rw [hq] at h
    have hnumber : number s = some (a, r) := h
    obtain ⟨rfl, hagain⟩ := scans_number _ _ _ hnumber
    refine ⟨rfl, fun s' hs' => ?_⟩
    rw [literal_eq, quotedBody_of_digit (startsDigit_append (startsDigit_of_number hnumber)),
      hagain s' hs']
    rfl

/-- Digits without a fraction or an exponent have neither. -/
theorem decimalDigits_of_whole (h : wholeDigits s = some (a, [])) : decimalDigits s = none := by
  cases hbase : startsBase s with
  | true =>
    unfold startsBase at hbase
    split at hbase
    · rename_i c t
      have hc : isDigitOrGap c = false ∧ isExponentLetter c = false ∧ c ≠ '.' := by
        simp only [Bool.or_eq_true, beq_iff_eq] at hbase
        rcases hbase with (rfl | rfl) | rfl <;> decide
      have hstop : Stops isDigitOrGap (c :: t) := by
        rintro x ⟨⟩
        exact hc.1
      have hrest : decimalRest ['0'] (c :: t) = none := by
        unfold decimalRest
        split
        · cases ‹_ = []›
        · exact absurd (List.cons.inj ‹_ = '.' :: _›).1 hc.2.2
        · obtain ⟨rfl, rfl⟩ := List.cons.inj ‹_ = _ :: _›
          rw [hc.2.1]
          rfl
      exact (decimalDigits_append (w := ['0']) rfl (List.forall_mem_singleton.mpr rfl) hstop).trans
        hrest
    · cases hbase
  | false =>
    rw [wholeDigits_ten hbase] at h
    obtain ⟨rfl, hchars, -⟩ := baseDigits_scan h
    have hdigits : ∀ c ∈ a, isDigitOrGap c = true := fun c hc => by
      rcases hchars c hc with rfl | ⟨v, hv, hlt⟩
      · rfl
      · simp [isDigitOrGap, isAsciiDigit_of_hexValue? hv hlt]
    exact decimalDigits_append (startsDigit_of_baseDigits h) hdigits fun c hc => by simp at hc

/-- Digits alone are a literal. -/
theorem literal_of_whole (h : wholeDigits s = some (a, [])) : literal s = some (s, []) := by
  obtain ⟨rfl, hscan⟩ := wholeScan h
  rw [List.append_nil] at h ⊢
  have hnumber : number a = some (a, []) := by
    have hnil : Stops isWordPart [] := fun c hc => by simp at hc
    have hwhole := numberWith_eq_some (b := a) (w := [])
      (.inl ⟨rfl, fun c hc => by simp at hc⟩) hnil
    simp only [List.append_nil] at hwhole
    rw [number, decimalDigits_of_whole h, h, hwhole]
    rfl
  rw [literal_eq, quotedBody_of_digit hscan.start, hnumber]
  rfl

end KeyedRecord.Source.Lexer
