import KeyedRecord.Proofs.Source.Numbers

/-!
# Single tokens are read again

What the lexer reads as one token at some place of a text it reads as the same token wherever the
text breaks behind it (`lexable_of_leaf`).  A quote that is a token of its own is the exception: it
needs the literal behind it (`standsBehindQuote`).
-/

set_option autoImplicit false

namespace KeyedRecord.Source.Lexer

open KeyedRecord.Text

variable {a b r s t w : Chars}

/-! ## Identifiers -/

/-- The characters are those of an identifier, raw or not. -/
def IsIdent (a : Chars) : Prop := IsWord a ∨ ∃ w, a = 'r' :: '#' :: w ∧ IsWord w ∧
    isUnrawable w = false

theorem anyIdent_word {c : Char} (h : c ≠ 'r' ∨ ∀ t, s ≠ '#' :: t) :
    anyIdent (c :: s) = word (c :: s) := by
  unfold anyIdent
  split
  · rename_i heq
    cases heq
    rcases h with h | h
    · exact absurd rfl h
    · exact absurd rfl (h _)
  · rfl

theorem anyIdent_append (h : IsIdent a) (hs : Stops isWordPart s)
    (hmark : a = ['r'] → Stops (· == '#') s) :
    anyIdent (a ++ s) = some (a, s) := by
  rcases h with h | ⟨w, rfl, hw, hraw⟩
  · have hword := word_append h hs
    obtain ⟨c, w, rfl, hc, hw⟩ := h
    rw [List.cons_append, anyIdent_word]
    · exact hword
    · rw [or_iff_not_imp_left, not_not]
      rintro rfl t ht
      rcases w with _ | ⟨c, w⟩
      · have := hmark rfl '#' (by rw [show s = '#' :: t from ht]; rfl)
        cases this
      · obtain ⟨rfl, -⟩ := List.cons.inj ht
        exact absurd (hw '#' (by simp)) (by decide)
  · show anyIdent ('r' :: '#' :: (w ++ s)) = _
    simp [anyIdent, word_append hw hs, hraw]

theorem exists_of_anyIdent (h : anyIdent s = some (a, t)) :
    IsIdent a ∧ s = a ++ t ∧ Stops isWordPart t ∧ (a = ['r'] → Stops (· == '#') t) := by
  unfold anyIdent at h
  split at h
  · split at h
    · rename_i w t' hw
      obtain ⟨hword, rfl, hstop⟩ := exists_of_word hw
      split at h
      · cases h
      · rename_i hraw
        cases h
        exact ⟨.inr ⟨w, rfl, hword, by simpa using hraw⟩, rfl, hstop, fun h => by cases h⟩
    · cases h
  · rename_i hno
    obtain ⟨hword, rfl, hstop⟩ := exists_of_word h
    refine ⟨.inl hword, rfl, hstop, ?_⟩
    rintro rfl c hc
    rw [beq_eq_false_iff_ne]
    rintro rfl
    rcases t with _ | ⟨c, t⟩
    · cases hc
    · cases hc
      exact hno t rfl

theorem literalBeginnings_unbroken :
    ∀ b ∈ literalBeginnings, ' ' ∉ b ∧ ')' ∉ b ∧ ']' ∉ b := by
  decide +kernel

/-- No literal begins in print where none did in the source. -/
theorem literalBeginnings_append (h : (literalBeginnings.any fun b => b.isPrefixOf (a ++ r)) =
    false) (hs : Breaks s) :
    (literalBeginnings.any fun b => b.isPrefixOf (a ++ s)) = false := by
  simp only [List.any_eq_false, List.isPrefixOf_iff_prefix] at h ⊢
  intro b hb hp
  obtain ⟨z, hz⟩ := hp
  rcases List.append_eq_append_iff.mp hz with ⟨y, rfl, -⟩ | ⟨_ | ⟨c, y⟩, rfl, hy⟩
  · exact h b hb (by simp)
  · exact h _ hb (by simp)
  · subst hy
    obtain ⟨h₁, h₂, h₃⟩ := literalBeginnings_unbroken _ hb
    rcases hs with rfl | rfl | rfl <;> simp_all

theorem exists_of_ident (h : ident s = some (a, t)) :
    IsIdent a ∧ s = a ++ t ∧ ∀ s', Breaks s' → ident (a ++ s') = some (a, s') := by
  unfold ident at h
  split at h
  · cases h
  · rename_i hno
    obtain ⟨ha, rfl, -, -⟩ := exists_of_anyIdent h
    refine ⟨ha, rfl, fun s' hs' => ?_⟩
    rw [ident, literalBeginnings_append (by simpa using hno) hs']
    exact anyIdent_append ha (stops_isWordPart hs') fun _ => stops_of_breaks hs' (by decide)

theorem IsWord.no_digit (h : IsWord w) (s : Chars) : startsDigit (w ++ s) = false := by
  obtain ⟨c, t, rfl, hc, -⟩ := h
  cases hd : isAsciiDigit c with
  | false => exact hd
  | true =>
    have := of_ascii (q := fun c => !(isAsciiDigit c && isWordStart c)) (by decide +kernel)
      (toNat_lt_of_digit hd)
    simp [hd, hc] at this

theorem number_of_no_digit (h : startsDigit s = false) : number s = none := by
  rw [Option.eq_none_iff_forall_ne_some]
  rintro ⟨a, r⟩ ha
  obtain ⟨rfl, -⟩ := scans_number _ _ _ ha
  rw [startsDigit_append (startsDigit_of_number ha)] at h
  cases h

/-- What begins a literal between quotes behind its letters. -/
def isQuoteMark (c : Char) : Bool := c == '#' || c == '"' || c == '\''

theorem rawBody_none (f : Flavour) (h : Stops isQuoteMark s) : rawBody f s = none := by
  have hmark : Stops (· == '#') s := h.mono fun c hc => by simp_all [isQuoteMark]
  have hrun := run_append (a := []) (by simp) hmark
  obtain ⟨-, hdrop⟩ := Prod.mk.inj hrun
  rw [List.nil_append] at hdrop
  rw [rawBody, hdrop]
  split
  · have := h '"' rfl
    cases this
  · rfl

/-- Word characters up to a break. -/
def Plain (t : Chars) : Prop := ∃ w s, t = w ++ s ∧ (∀ x ∈ w, isWordPart x = true) ∧ Breaks s

theorem Plain.stops (h : Plain t) : Stops isQuoteMark t := by
  obtain ⟨w, s, rfl, hw, hs⟩ := h
  cases w with
  | nil => exact stops_of_breaks hs (by decide)
  | cons c w =>
    rintro x ⟨⟩
    cases hx : isQuoteMark c with
    | false => rfl
    | true =>
      have : isWordPart c = true := hw c (by simp)
      simp only [isQuoteMark, Bool.or_eq_true, beq_iff_eq] at hx
      rcases hx with (rfl | rfl) | rfl <;> exact absurd this (by decide)

theorem Plain.tail {c : Char} (h : Plain (c :: t)) : Plain t ∨ t = [] ∨ Breaks (c :: t) := by
  obtain ⟨w, s, heq, hw, hs⟩ := h
  cases w with
  | nil =>
    obtain rfl : c :: t = s := heq
    exact .inr (.inr hs)
  | cons x w =>
    obtain ⟨rfl, rfl⟩ := List.cons.inj heq
    exact .inl ⟨w, s, rfl, fun y hy => hw y (by simp [hy]), hs⟩

/-- No literal starts with a word up to a break. -/
theorem quotedBody_word {c : Char} (hc : isWordStart c = true) (h : Plain s) :
    quotedBody (c :: s) = none := by
  have second {x : Char} {t : Chars} (hs : s = x :: t) :
    isQuoteMark x = false := h.stops x (by rw [hs]; rfl)
  have raw {f : Flavour} {t : Chars} (hs : s = 'r' :: t) : rawBody f t = none := by
    subst hs
    rcases h.tail with h | rfl | h
    · exact rawBody_none f h.stops
    · rfl
    · rcases h with h | h | h <;> cases h
  unfold quotedBody
  split <;> rename_i heq
  case h_9 => rfl
  all_goals
    obtain ⟨rfl, rfl⟩ := List.cons.inj heq
    first
    | exact absurd hc (by decide)
    | exact absurd (second rfl) (by decide)
    | rw [raw rfl]; rfl
    | rw [rawBody_none _ h.stops]; rfl

theorem literal_word (h : IsWord w) (hs : Breaks s) : literal (w ++ s) = none := by
  rw [literal_eq, number_of_no_digit (h.no_digit s)]
  obtain ⟨c, w, rfl, hc, hw⟩ := h
  rw [List.cons_append, quotedBody_word hc ⟨w, s, rfl, hw, hs⟩]
  rfl

theorem literal_raw (h : IsWord w) (s : Chars) : literal ('r' :: '#' :: (w ++ s)) = none := by
  obtain ⟨c, w, rfl, hc, hw⟩ := h
  have hstop : Stops (· == '#') (c :: (w ++ s)) := by
    rintro x ⟨⟩
    rw [beq_eq_false_iff_ne]
    rintro rfl
    exact absurd hc (by decide)
  obtain ⟨-, hdrop⟩ := Prod.mk.inj (run_append (a := ['#']) (by simp) hstop)
  have hdrop : List.dropWhile (· == '#') ('#' :: c :: (w ++ s)) = c :: (w ++ s) := hdrop
  have hraw : rawBody .text ('#' :: c :: (w ++ s)) = none := by
    rw [rawBody, hdrop]
    split
    · rename_i heq
      obtain ⟨rfl, -⟩ := List.cons.inj heq
      exact absurd hc (by decide)
    · rfl
  have hbody : quotedBody ('r' :: '#' :: c :: (w ++ s)) = none := by
    show Scan.before ['r'] (rawBody .text ('#' :: c :: (w ++ s))) = none
    rw [hraw]
    rfl
  rw [literal_eq, number_of_no_digit rfl, List.cons_append, hbody]
  rfl

/-- **No literal starts with an identifier up to a break.** -/
theorem literal_ident (h : IsIdent a) (hs : Breaks s) : literal (a ++ s) = none := by
  rcases h with h | ⟨w, rfl, hw, -⟩
  · exact literal_word h hs
  · exact literal_raw hw s

/-- A literal goes on behind the identifier that it begins with. -/
theorem literal_behind_ident (hi : IsIdent w) (h : literal (w ++ t) = some (a, r)) :
    ∃ y, a = w ++ y ∧ y ≠ [] ∧ t = y ++ r := by
  obtain ⟨heq, hagain⟩ := scans_literal _ _ _ h
  have hself : literal a = some (a, []) := by simpa using hagain [] trivial
  have short (hp : a <+: w) : False := by
    rcases hi with ⟨c, v, rfl, hc, hv⟩ | ⟨_, rfl, ⟨c, v, rfl, hc, hv⟩, -⟩
    · rcases a with _ | ⟨c', a⟩
      · cases hself
      · obtain ⟨hc', ha⟩ := List.cons_prefix_cons.mp hp
        have := literal_word (s := []) ⟨c', a, rfl, hc' ▸ hc, fun x hx =>
          hv x (ha.subset hx)⟩ trivial
        rw [List.append_nil, hself] at this
        cases this
    · rcases a with _ | ⟨c₁, _ | ⟨c₂, _ | ⟨c₃, a⟩⟩⟩
      · cases hself
      · obtain ⟨rfl, -⟩ := List.cons_prefix_cons.mp hp
        cases hself
      · simp only [List.cons_prefix_cons] at hp
        obtain ⟨rfl, rfl, -⟩ := hp
        cases hself
      · simp only [List.cons_prefix_cons] at hp
        obtain ⟨rfl, rfl, hc', ha⟩ := hp
        have := literal_raw ⟨c₃, a, rfl, hc' ▸ hc, fun x hx => hv x (ha.subset hx)⟩ []
        rw [List.append_nil, hself] at this
        cases this
  rcases List.append_eq_append_iff.mp heq with ⟨y, rfl, rfl⟩ | ⟨y, rfl, -⟩
  · refine ⟨y, rfl, ?_, rfl⟩
    rintro rfl
    exact short (by simp)
  · exact absurd (List.prefix_append a y) short

/-! ## Tokens -/

/-- Neither a blank nor the beginning of a comment. -/
theorem trivia_none {c : Char} (hc : c ≠ '/') (hb : isBlank c = false) (s : Chars) :
    trivia (c :: s) = none ∧ docComment (c :: s) = none := by
  constructor
  · unfold trivia
    split <;> rename_i heq
    case h_11 => cases heq
    case h_10 =>
      cases heq
      rw [hb]
      rfl
    all_goals exact absurd (List.cons.inj heq).1 hc
  · unfold docComment
    dsimp only
    split <;> rename_i heq
    case h_7 => rfl
    all_goals exact absurd (List.cons.inj heq).1 hc

theorem isBlank_of_trivia {c : Char} (hc : c ≠ '/') (h : trivia (c :: s) = none) :
    isBlank c = false := by
  unfold trivia at h
  split at h <;> rename_i heq
  case h_11 => cases heq
  case h_10 =>
    cases heq
    split at h
    · cases h
    · simpa using ‹¬isBlank c = true›
  all_goals exact absurd (List.cons.inj heq).1 hc

/-- The token is the one that is read of these characters wherever the text breaks behind them. -/
theorem lexedAs_of_cons {c : Char} {t : Token} (hc : c ≠ '/') (hb : isBlank c = false)
    (h : ∀ s, Breaks s → leaf (c :: a ++ s) = some (t, c :: a, s)) :
      LexedAs (c :: a) t := fun s hs =>
  ⟨(trivia_none hc hb _).1, (trivia_none hc hb _).2, h s hs⟩

theorem leaf_of_literal (h : literal s = some (a, r)) :
    leaf s = some (.literal (String.ofList a), a, r) := by
  simp [leaf, h]

/-- The first character of a literal. -/
theorem head_of_literal (h : literal s = some (a, r)) :
    ∃ c t, a = c :: t ∧ (c ∈ ['"', 'r', 'b', 'c', '\''] ∨ isAsciiDigit c = true) := by
  rw [literal_eq] at h
  cases hq : withSuffix (quotedBody s) with
  | some v =>
    rw [hq] at h
    obtain rfl : v = (a, r) := Option.some.inj h
    obtain ⟨⟨b, t⟩, hb, h⟩ := Option.map_eq_some_iff.mp hq
    cases h
    have pre {c : Char} {p : Chars} {o : Scan} (hc : c ∈ ['"', 'r', 'b', 'c', '\''])
      (h : Scan.before (c :: p) o = some (b, t)) :
        ∃ c' t', b ++ (suffix t).1 = c' :: t' ∧
          (c' ∈ ['"', 'r', 'b', 'c', '\''] ∨ isAsciiDigit c' = true) := by
      obtain ⟨⟨b', t'⟩, -, h⟩ := Option.map_eq_some_iff.mp h
      cases h
      exact ⟨c, _, rfl, .inl hc⟩
    unfold quotedBody at hb
    split at hb
    case h_9 => cases hb
    all_goals exact pre (by decide) hb
  | none =>
    rw [hq] at h
    have hnumber : number s = some (a, r) := h
    have hdigit := startsDigit_of_number hnumber
    rcases a with _ | ⟨c, a⟩
    · cases hdigit
    · exact ⟨c, a, rfl, .inr hdigit⟩

/-- What holds of the first character of every literal. -/
theorem literal_head {q : Char → Bool} (h : literal s = some (a, r))
    (hq : ['"', 'r', 'b', 'c', '\''].all q = true)
    (hd : ∀ n < 128, isAsciiDigit (Char.ofNat n) = true → q (Char.ofNat n) = true) : ∃ c t, a =
      c :: t ∧ q c = true := by
  obtain ⟨c, t, rfl, hc | hc⟩ := head_of_literal h
  · exact ⟨c, t, rfl, List.all_eq_true.mp hq c hc⟩
  · refine ⟨c, t, rfl, ?_⟩
    rw [← Char.ofNat_toNat c] at hc ⊢
    exact hd _ (by rw [Char.ofNat_toNat] at hc; exact toNat_lt_of_digit hc) hc

theorem lexable_of_literal (h : literal s = some (a, r)) (htrivia : trivia s = none) :
    (Token.literal (String.ofList a)).Lexable := by
  obtain ⟨rfl, hagain⟩ := scans_literal _ _ _ h
  obtain ⟨c, t, rfl, hc⟩ := literal_head (q := fun c => decide (c ≠ '/')) h (by decide)
    (by decide +kernel)
  have hc : c ≠ '/' := of_decide_eq_true hc
  refine ⟨?_, by simp⟩
  rw [String.toList_ofList]
  exact lexedAs_of_cons hc (isBlank_of_trivia hc htrivia) fun s hs => leaf_of_literal (hagain s hs)

theorem isIdent_head (h : IsIdent a) : ∃ c t, a = c :: t ∧ isWordStart c = true := by
  rcases h with ⟨c, t, rfl, hc, -⟩ | ⟨w, rfl, -, -⟩
  · exact ⟨c, t, rfl, hc⟩
  · exact ⟨'r', _, rfl, by decide⟩

/-- The table of the starts of words, walked as a list: positions in an array are slow to decide. -/
theorem isWordStart_eq (c : Char) : isWordStart c =
    if c.toNat < 0x80 then isAsciiLetter c || c == '_'
    else wordStartRanges.toList.any fun r => decide (r.1 ≤ c.toNat) && decide (c.toNat ≤ r.2) := by
  simp only [isWordStart, Ranges.holds, Array.any_toList]

theorem not_punctuation {c : Char} (h : isWordStart c = true) : isPunctuation c = false := by
  cases hp : isPunctuation c with
  | false => rfl
  | true =>
    have hall : ("~!@#$%^&*-=+|;:,<.>/?'".toList.all fun c => !isWordStart c) = true := by decide
    have := List.all_eq_true.mp hall c (List.contains_iff_mem.mp hp)
    simp [h] at this

theorem startsPunctuation_cons {c : Char} (h : isPunctuation c = false) (s : Chars) :
    startsPunctuation (c :: s) = false := by
  unfold startsPunctuation
  split
  · rfl
  · rfl
  · exact (List.cons.inj ‹_ = _›).1 ▸ h
  · rfl

theorem leaf_of_ident {c : Char} (hc : isWordStart c = true) (hl : literal (c :: s) = none)
    (h : ident (c :: s) = some (a, r)) : leaf (c :: s) = some (.ident (String.ofList a), a, r) := by
  have hquote : c ≠ '\'' := by
    rintro rfl
    exact absurd hc (by decide)
  unfold leaf
  rw [hl]
  dsimp only
  split
  · exact absurd (List.cons.inj ‹_ = '\'' :: _›).1 hquote
  · rename_i heq
    obtain ⟨rfl, rfl⟩ := List.cons.inj heq
    rw [startsPunctuation_cons (not_punctuation hc), h]
    rfl
  · cases ‹_ = []›

theorem lexable_of_ident (h : ident s = some (a, r)) (htrivia : trivia s = none) :
    (Token.ident (String.ofList a)).Lexable := by
  obtain ⟨hi, rfl, hagain⟩ := exists_of_ident h
  have hnone (s : Chars) (hs : Breaks s) := literal_ident hi hs
  obtain ⟨c, t, rfl, hc⟩ := isIdent_head hi
  have hslash : c ≠ '/' := by
    rintro rfl
    exact absurd hc (by decide)
  refine ⟨?_, by simp⟩
  rw [String.toList_ofList]
  exact lexedAs_of_cons hslash (isBlank_of_trivia hslash htrivia) fun s hs =>
    leaf_of_ident hc (hnone s hs) (hagain s hs)

/-! ## Quotes -/

/-- What a quote and the identifier behind it are. -/
theorem leaf_quote (s : Chars) (h : literal ('\'' :: s) = none) : leaf ('\'' :: s) =
    match anyIdent s with
    | some (_, '\'' :: _) => none
    | some (_, '#' :: _) => if "r#".toList.isPrefixOf s then leaf.lifetimeOrQuote s else none
    | some _ => leaf.lifetimeOrQuote s
    | none => none := by
  unfold leaf
  rw [h]
  rfl

theorem singleBody_second {c c' : Char} (hc : c ≠ '\\') (t : Chars) :
    singleBody .text (c :: c' :: t) = none ↔ c' ≠ '\'' := by
  by_cases hq : c' = '\''
  · subst hq
    have : singleBody .text (c :: '\'' :: t) = some ([c, '\''], t) := by
      unfold singleBody
      split
      · exact absurd (List.cons.inj ‹_ = '\\' :: _›).1 hc
      · cases ‹_ = _ :: '\'' :: _›
        exact if_neg (by simp)
      · exact absurd rfl (‹∀ c r, _ = c :: '\'' :: r → False› c t)
    simp [this]
  · refine iff_of_true ?_ hq
    unfold singleBody
    split
    · exact absurd (List.cons.inj ‹_ = '\\' :: _›).1 hc
    · obtain ⟨-, h⟩ := List.cons.inj ‹_ = _ :: '\'' :: _›
      exact absurd (List.cons.inj h).1 hq
    · rfl

theorem literal_quote (s : Chars) : literal ('\'' :: s) = none ↔ singleBody .text s = none := by
  rw [literal_eq, number_of_no_digit rfl]
  show (withSuffix (Scan.before ['\''] (singleBody .text s)) <|> none) = none ↔ _
  cases singleBody .text s <;> simp [Scan.before, withSuffix]

/-- A lifetime. -/
theorem lexable_lifetime (hi : IsIdent a) (h : ∀ s, Breaks s → ident (a ++ s) = some (a, s)) :
    (Token.lifetime (String.ofList ('\'' :: a))).Lexable := by
  refine ⟨?_, by simp⟩
  rw [String.toList_ofList]
  refine lexedAs_of_cons (by decide) (by decide) fun s hs => ?_
  have hnone := literal_ident hi hs
  have hany := anyIdent_append hi (stops_isWordPart hs) fun _ => stops_of_breaks hs (by decide)
  have hsingle : literal ('\'' :: (a ++ s)) = none := by
    rw [literal_quote]
    obtain ⟨c, t, rfl, hc⟩ := isIdent_head hi
    have hslash : c ≠ '\\' := by
      rintro rfl
      exact absurd hc (by decide)
    have hquote : Stops (· == '\'') (t ++ s) := by
      rcases hi with ⟨c', t', heq, -, ht⟩ | ⟨w, heq, -, -⟩
      · obtain ⟨rfl, rfl⟩ := List.cons.inj heq
        exact (Plain.stops ⟨t, s, rfl, ht, hs⟩).mono fun c hc =>
          by simp [isQuoteMark, beq_iff_eq.mp hc]
      · obtain ⟨rfl, rfl⟩ := List.cons.inj heq
        rintro c ⟨⟩
        rfl
    show singleBody .text (c :: (t ++ s)) = none
    cases hts : t ++ s with
    | nil =>
      unfold singleBody
      split
      · exact absurd (List.cons.inj ‹_ = '\\' :: _›).1 hslash
      · cases (List.cons.inj ‹_ = _ :: '\'' :: _›).2
      · rfl
    | cons c' l =>
      rw [singleBody_second hslash]
      rintro rfl
      have := hquote '\'' (by rw [hts]; rfl)
      cases this
  rw [List.cons_append, leaf_quote _ hsingle, hany]
  have hlife : leaf.lifetimeOrQuote (a ++ s) = some (.lifetime (String.ofList ('\'' :: a)),
      '\'' :: a, s) := by
    simp [leaf.lifetimeOrQuote, hnone, h s hs]
  have hstop := stops_of_breaks (p := isQuoteMark) hs (by decide)
  split
  · cases ‹some _ = some _›
    have := hstop '\'' rfl
    cases this
  · cases ‹some _ = some _›
    have := hstop '#' rfl
    cases this
  · exact hlife
  · cases ‹some _ = none›

end KeyedRecord.Source.Lexer
