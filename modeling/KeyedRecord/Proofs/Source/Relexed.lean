import KeyedRecord.Proofs.Source.Lexed

/-!
# Canonical texts are lexed again

The canonical text of a phrase is lexed, and its tokens are those of the phrase: between two tokens
the text breaks, unless the first one is joint, and a joint character keeps what made it joint.

Principal result: `lex_canonicalText`.
-/

set_option autoImplicit false

namespace KeyedRecord.Source

namespace Lexer

open KeyedRecord.Text

variable {a : Token} {ts : List Token} {s : Chars} {c : Char}

/-! ## Texts of tokens -/

/-- The text that is printed behind a token. -/
def textBehind (a : Token) : List Token → Chars
  | [] => []
  | b :: r => (separator a b).toList ++ (canonicalText (b :: r)).toList

theorem toList_canonicalText (a : Token) (r : List Token) :
    (canonicalText (a :: r)).toList = a.text.toList ++ textBehind a r := by
  cases r with
  | nil => simp [canonicalText, textBehind]
  | cons b r => simp [canonicalText, textBehind]

theorem textBehind_cons (a b : Token) (r : List Token) : textBehind a (b :: r) =
    (if a.hugsNext || b.hugsPrevious then "" else " ").toList ++
      (canonicalText (b :: r)).toList := rfl

theorem textBehind_cases (a : Token) (r : List Token) :
    textBehind a r = (canonicalText r).toList ∨ textBehind a r =
      ' ' :: (canonicalText r).toList := by
  cases r with
  | nil => exact .inl (by simp [textBehind, canonicalText])
  | cons b r =>
    rw [textBehind_cons]
    split
    · exact .inl (by simp)
    · exact .inr (by simp)

/-- The text breaks behind a token that hugs nothing. -/
theorem breaks_textBehind (h : a.hugsNext = false) (r : List Token) : Breaks (textBehind a r) := by
  cases r with
  | nil => trivial
  | cons b r =>
    rw [textBehind_cons, h, Bool.false_or, toList_canonicalText]
    split
    · rename_i hb
      unfold Token.hugsPrevious at hb
      split at hb
      · exact .inr (.inl rfl)
      · exact .inr (.inr rfl)
      · cases hb
    · exact .inl rfl

theorem textBehind_joint {r : List Token} (h : a.hugsNext = true) :
    textBehind a r = (canonicalText r).toList := by
  cases r with
  | nil => simp [textBehind, canonicalText]
  | cons b r => simp [textBehind, separator, h]

/-! ## Punctuation in print -/

theorem startsPunctuation_of (hc : isPunctuation c = true)
    (h : c = '/' → ∀ x ∈ s.head?, x ≠ '/' ∧ x ≠ '*') :
    startsPunctuation (c :: s) = true := by
  unfold startsPunctuation
  split
  · obtain ⟨rfl, rfl⟩ := List.cons.inj ‹_ = '/' :: '/' :: _›
    exact absurd rfl (h rfl '/' rfl).1
  · obtain ⟨rfl, rfl⟩ := List.cons.inj ‹_ = '/' :: '*' :: _›
    exact absurd rfl (h rfl '*' rfl).2
  · exact (List.cons.inj ‹_ = _›).1 ▸ hc
  · cases ‹_ = []›

theorem not_startsPunctuation_of_breaks (h : Breaks s) : startsPunctuation s = false := by
  rcases s with _ | ⟨c, s⟩
  · rfl
  · refine startsPunctuation_cons ?_ s
    rcases h with rfl | rfl | rfl <;> decide

theorem leaf_of_punct (hc : c ≠ '\'') (h : startsPunctuation (c :: s) = true) :
    leaf (c :: s) = some (.punct c (startsPunctuation s), [c], s) := by
  have hnone : literal (c :: s) = none := by
    cases hl : literal (c :: s) with
    | none => rfl
    | some v =>
      obtain ⟨a, r⟩ := v
      obtain ⟨c₁, t, rfl, hq⟩ := literal_head (q := fun c => !isPunctuation c || c == '\'') hl
        (by decide) (by decide +kernel)
      obtain ⟨heq, -⟩ := scans_literal _ _ _ hl
      obtain ⟨rfl, -⟩ := List.cons.inj heq
      simp [isPunctuation_of_starts h, hc] at hq
  unfold leaf
  rw [hnone]
  dsimp only
  split
  · exact absurd (List.cons.inj ‹_ = '\'' :: _›).1 hc
  · obtain ⟨rfl, rfl⟩ := List.cons.inj ‹_ = _ :: _›
    rw [if_pos h]
  · cases ‹_ = []›

/-- Tokens that may be printed one after another. -/
structure Printable (ts : List Token) : Prop where
  lexable : ∀ t ∈ ts, t.Lexable
  adjacent : ts.IsChain Adjacent
  settled : ∀ t ∈ ts.getLast?, t.Settled

theorem Printable.tail (h : Printable (a :: ts)) : Printable ts where
  lexable t ht := h.lexable t (List.mem_cons_of_mem _ ht)
  adjacent := h.adjacent.of_cons
  settled t ht := by
    cases ts with
    | nil => cases ht
    | cons b ts => exact h.settled t (by simpa [List.getLast?_cons] using ht)

/-- A joint character is not the last token. -/
theorem Printable.behind_joint (h : Printable (.punct c true :: ts)) :
    ∃ b r, ts = b :: r ∧ Adjacent (.punct c true) b := by
  cases ts with
  | nil =>
    have := h.settled (.punct c true) rfl
    cases this
  | cons b r => exact ⟨b, r, rfl, (List.isChain_cons_cons.mp h.adjacent).1⟩

/-- The first character of what may follow a joint character. -/
theorem head_of_adjacent {b : Token} (hc : c ≠ '\'') (h : Adjacent (.punct c true) b) (s : Chars) :
    ∃ x t, b.text.toList ++ s = x :: t ∧
      (x = '\'' ∨ ∃ j, b = .punct x j ∧ ¬(c = '/' ∧ (x = '/' ∨ x = '*'))) := by
  cases b with
  | punct x j => exact ⟨x, s, by simp [Token.text], .inr ⟨j, rfl, h.2⟩⟩
  | lifetime name =>
    obtain ⟨t, ht⟩ := List.head?_eq_some_iff.mp h.2
    exact ⟨'\'', t ++ s, by simp [Token.text, ht], .inl rfl⟩
  | literal text =>
    rcases h with h | h
    · obtain ⟨t, ht⟩ := List.head?_eq_some_iff.mp h.2
      exact ⟨'\'', t ++ s, by simp [Token.text, ht], .inl rfl⟩
    · exact absurd h.1 hc
  | _ => exact absurd h (by simp [Adjacent])

/-- No comment begins with a printed character. -/
theorem no_comment {j : Bool} (h : Printable (.punct c j :: ts)) :
    c = '/' → ∀ x ∈ (textBehind (.punct c j) ts).head?, x ≠ '/' ∧ x ≠ '*' := by
  rintro rfl x hx
  cases j with
  | false =>
    have := stops_of_breaks (p := fun c => c == '/' || c == '*') (breaks_textBehind rfl ts)
      (by decide) x hx
    simpa using this
  | true =>
    obtain ⟨b, r, rfl, hadj⟩ := h.behind_joint
    rw [textBehind_joint rfl, toList_canonicalText] at hx
    obtain ⟨y, t, hy, hcases⟩ := head_of_adjacent (by decide) hadj (textBehind b r)
    obtain rfl : y = x := by simpa [hy] using hx
    rcases hcases with rfl | ⟨j, -, hno⟩
    · decide
    · simpa using hno

/-- A printed character is punctuation. -/
theorem startsPunctuation_print {j : Bool} (h : Printable (.punct c j :: ts)) :
    startsPunctuation (c :: textBehind (.punct c j) ts) = true :=
  startsPunctuation_of (h.lexable (.punct c j) (by simp)).1 (no_comment h)

/-- What follows a joint character in print is punctuation. -/
theorem startsPunctuation_behind (hc : c ≠ '\'') (h : Printable (.punct c true :: ts)) :
    startsPunctuation (textBehind (.punct c true) ts) = true := by
  obtain ⟨b, r, rfl, hadj⟩ := h.behind_joint
  rw [textBehind_joint rfl, toList_canonicalText]
  obtain ⟨x, t, hx, rfl | ⟨j, rfl, -⟩⟩ := head_of_adjacent hc hadj (textBehind b r)
  · rw [hx]
    exact startsPunctuation_of (by decide) (by simp)
  · have htext : (Token.punct x j).text.toList = [x] := by simp [Token.text]
    rw [htext]
    exact startsPunctuation_print h.tail

/-- A character is read from print as it was printed. -/
theorem leaf_print {j : Bool} (h : Printable (.punct c j :: ts)) :
    leaf (c :: textBehind (.punct c j) ts) =
      some (.punct c j, [c], textBehind (.punct c j) ts) := by
  have hlex : (Token.punct c j).Lexable := h.lexable _ (by simp)
  by_cases hc : c = '\''
  · subst hc
    obtain rfl : j = true := hlex.2 rfl
    obtain ⟨b, r, rfl, hadj⟩ := h.behind_joint
    cases b with
    | literal text =>
      have hquote : StandsBehindQuote text := hadj.elim (fun h => absurd rfl h.1) And.right
      rw [textBehind_joint rfl, toList_canonicalText]
      exact hquote _ (breaks_textBehind rfl r)
    | punct => exact absurd rfl hadj.1
    | lifetime => exact absurd rfl hadj.1
    | _ => exact absurd hadj (by simp [Adjacent])
  · rw [leaf_of_punct hc (startsPunctuation_print h)]
    cases j with
    | false => rw [not_startsPunctuation_of_breaks (breaks_textBehind rfl ts)]
    | true => rw [startsPunctuation_behind hc h]

/-! ## Lexing print -/

/-- The first character of a token that is no bracket. -/
theorem head_of_leaf {x : Token} {a r : Chars} (h : leaf (c :: s) = some (x, a, r)) :
    opens? c = none ∧ closes? c = none ∧ c ≠ '\uFEFF' := by
  have of_word (hw : isPunctuation c = true ∨ isWordStart c = true) (hm : c ≠ '\uFEFF') :
      opens? c = none ∧ closes? c = none ∧ c ≠ '\uFEFF' :=
    ⟨(no_bracket_of_head hw).1, (no_bracket_of_head hw).2, hm⟩
  have punctuation (hp : isPunctuation c = true) :
      opens? c = none ∧ closes? c = none ∧ c ≠ '\uFEFF' :=
    of_word (.inl hp) (by rintro rfl; exact absurd hp (by decide))
  cases leafKind_of_leaf h with
  | literal hl =>
    obtain ⟨c₁, t, rfl, hq⟩ := literal_head
      (q := fun c => (opens? c).isNone && (closes? c).isNone && decide (c ≠ '\uFEFF')) hl
        (by decide) (by decide +kernel)
    obtain ⟨heq, -⟩ := scans_literal _ _ _ hl
    obtain ⟨rfl, -⟩ := List.cons.inj heq
    simpa [and_assoc] using hq
  | lifetime hs => obtain ⟨rfl, -⟩ := List.cons.inj hs; exact punctuation (by decide)
  | quote hs => obtain ⟨rfl, -⟩ := List.cons.inj hs; exact punctuation (by decide)
  | punct _ _ hp => exact punctuation (isPunctuation_of_starts hp)
  | ident hi =>
    obtain ⟨hi, heq, -⟩ := exists_of_ident hi
    obtain ⟨c₁, t, rfl, hc₁⟩ := isIdent_head hi
    obtain ⟨rfl, -⟩ := List.cons.inj heq
    refine of_word (.inr hc₁) ?_
    rintro rfl
    rw [isWordStart_eq] at hc₁
    exact absurd hc₁ (by decide +kernel)

/-- The lexer takes a token that is no bracket. -/
theorem lexFrom_leaf {x : Token} {cs : Chars} {fuel : Nat} {p : Position}
    {stack : List (Delimiter × Position)} (hne : cs ≠ [])
    (htrivia : trivia (cs ++ s) = none) (hdoc : docComment (cs ++ s) = none)
      (h : leaf (cs ++ s) = some (x, cs, s)) :
    lexFrom (fuel + 1) p stack (cs ++ s) = (Placed.mk x ⟨p, p.advance cs⟩ :: ·) <$>
      lexFrom fuel (p.advance cs) stack s := by
  obtain ⟨c, cs, rfl⟩ := List.exists_cons_of_ne_nil hne
  obtain ⟨hopen, hclose, -⟩ := head_of_leaf h
  conv_lhs => unfold lexFrom
  rw [htrivia, hdoc]
  dsimp only [List.cons_append]
  rw [hopen, hclose]
  dsimp only
  rw [show c :: (cs ++ s) = c :: cs ++ s from rfl, h]

theorem lexFrom_opening (d : Delimiter) (fuel : Nat) (p : Position)
    (stack : List (Delimiter × Position)) (s : Chars) :
    ∃ q sp, lexFrom (fuel + 1) p stack (d.openText.toList ++ s) =
      (Placed.mk (.opening d) sp :: ·) <$> lexFrom fuel q ((d, p) :: stack) s := by
  cases d <;> exact ⟨_, _, rfl⟩

theorem lexFrom_closing (d : Delimiter) (fuel : Nat) (p p' : Position)
    (stack : List (Delimiter × Position)) (s : Chars) :
    ∃ q sp, lexFrom (fuel + 1) p ((d, p') :: stack) (d.closeText.toList ++ s) =
      (Placed.mk (.closing d) sp :: ·) <$> lexFrom fuel q stack s := by
  cases d <;> exact ⟨_, _, rfl⟩

/-- The token is read from print as it was printed. -/
theorem leaf_text (h : Printable (a :: ts)) (ha : ∀ d, a ≠ .opening d ∧ a ≠ .closing d) :
    a.text.toList ≠ [] ∧ trivia (a.text.toList ++ textBehind a ts) = none ∧
      docComment (a.text.toList ++ textBehind a ts) = none ∧
      leaf (a.text.toList ++ textBehind a ts) = some (a, a.text.toList, textBehind a ts) := by
  have hlex := h.lexable a (by simp)
  have lexed (hl : LexedAs a.text.toList a ∧ a.text.toList ≠ []) (hj : a.hugsNext = false) :
      a.text.toList ≠ [] ∧ trivia (a.text.toList ++ textBehind a ts) = none ∧
        docComment (a.text.toList ++ textBehind a ts) = none ∧
        leaf (a.text.toList ++ textBehind a ts) = some (a, a.text.toList, textBehind a ts) :=
    ⟨hl.2, hl.1 _ (breaks_textBehind hj ts)⟩
  cases a with
  | opening d => exact absurd rfl (ha d).1
  | closing d => exact absurd rfl (ha d).2
  | ident => exact lexed hlex rfl
  | lifetime => exact lexed hlex rfl
  | literal => exact lexed hlex rfl
  | punct c j =>
    have htext : (Token.punct c j).text.toList = [c] := by simp [Token.text]
    have htrivia := trivia_of_punctuation (startsPunctuation_print h)
    rw [htext]
    exact ⟨by simp, htrivia.1, htrivia.2, leaf_print h⟩

theorem lexFrom_print {fuel : Nat} (p : Position) (stack : List (Delimiter × Position))
    (h : Printable ts) (hstack : openBehind (stack.map Prod.fst) ts = some [])
      (hfuel : (canonicalText ts).toList.length < fuel) :
    ∃ us, lexFrom fuel p stack (canonicalText ts).toList = .ok us ∧ tokensOf us = ts := by
  induction ts generalizing fuel p stack with
  | nil =>
    obtain ⟨fuel, rfl⟩ := Nat.exists_eq_add_of_lt hfuel
    obtain rfl : stack = [] := by simpa [openBehind] using hstack
    exact ⟨[], by simp [canonicalText, lexFrom, trivia, docComment], rfl⟩
  | cons a ts ih =>
    rw [toList_canonicalText, List.length_append] at hfuel
    have hne : 0 < a.text.toList.length := by
      cases a with
      | opening d => cases d <;> decide
      | closing d => cases d <;> decide
      | punct => simp [Token.text]
      | ident x => exact List.length_pos_of_ne_nil (h.lexable (.ident x) (by simp)).2
      | lifetime x => exact List.length_pos_of_ne_nil (h.lexable (.lifetime x) (by simp)).2
      | literal x => exact List.length_pos_of_ne_nil (h.lexable (.literal x) (by simp)).2
    obtain ⟨fuel, rfl⟩ : ∃ n, fuel = n + 1 := ⟨fuel - 1, by omega⟩
    have behind (q : Position) (l : List (Delimiter × Position))
      (hs : openBehind (l.map Prod.fst) ts = some []) :
        ∃ us, lexFrom fuel q l (textBehind a ts) = .ok us ∧ tokensOf us = ts := by
      rcases textBehind_cases a ts with hb | hb
      · rw [hb] at hfuel ⊢
        exact ih q l h.tail hs (by omega)
      · rw [hb] at hfuel ⊢
        rw [List.length_cons] at hfuel
        obtain ⟨fuel, rfl⟩ : ∃ n, fuel = n + 1 := ⟨fuel - 1, by omega⟩
        obtain ⟨us, hus, ht⟩ := ih (q.advance [' ']) l h.tail hs (show _ < fuel by omega)
        exact ⟨us, by rw [lexFrom]; exact hus, ht⟩
    rw [toList_canonicalText]
    by_cases ha : ∀ d, a ≠ .opening d ∧ a ≠ .closing d
    · rw [openBehind_leaf ha] at hstack
      obtain ⟨hne, htrivia, hdoc, hleaf⟩ := leaf_text h ha
      obtain ⟨us, hus, rfl⟩ := behind (p.advance a.text.toList) stack hstack
      exact ⟨_, by rw [lexFrom_leaf hne htrivia hdoc hleaf, hus]; rfl, rfl⟩
    · push Not at ha
      obtain ⟨d, ha⟩ := ha
      by_cases hopen : a = .opening d
      · subst hopen
        obtain ⟨q, sp, hrun⟩ := lexFrom_opening d fuel p stack (textBehind (.opening d) ts)
        obtain ⟨us, hus, rfl⟩ := behind q ((d, p) :: stack) hstack
        exact ⟨_, by rw [Token.text, hrun, hus]; rfl, rfl⟩
      · obtain rfl : a = .closing d := ha hopen
        rcases stack with _ | ⟨⟨d', p'⟩, stack⟩
        · cases hstack
        · simp only [List.map_cons, openBehind] at hstack
          split at hstack
          · subst ‹d' = d›
            obtain ⟨q, sp, hrun⟩ := lexFrom_closing d' fuel p p' stack (textBehind (.closing d') ts)
            obtain ⟨us, hus, rfl⟩ := behind q stack hstack
            exact ⟨_, by rw [Token.text, hrun, hus]; rfl, rfl⟩
          · cases hstack

/-- A byte order mark begins no token. -/
theorem no_mark (h : Printable ts) : ∀ t, (canonicalText ts).toList ≠ '\uFEFF' :: t := by
  cases ts with
  | nil => simp [canonicalText]
  | cons a ts =>
    intro t ht
    rw [toList_canonicalText] at ht
    by_cases ha : ∀ d, a ≠ .opening d ∧ a ≠ .closing d
    · obtain ⟨-, -, -, hleaf⟩ := leaf_text h ha
      rw [ht] at hleaf
      exact (head_of_leaf hleaf).2.2 rfl
    · push Not at ha
      obtain ⟨d, ha⟩ := ha
      by_cases hopen : a = .opening d
      · subst hopen
        cases d <;> cases ht
      · obtain rfl : a = .closing d := ha hopen
        cases d <;> cases ht

end Lexer

/-- **The canonical text of tokens that fit is lexed as these tokens.** -/
theorem lex_canonicalText {ts : List Token} (h : Fit ts) :
    ∃ us, lex (canonicalText ts) = .ok us ∧ tokensOf us = ts := by
  have hp : Lexer.Printable ts := ⟨h.lexable, h.adjacent, h.settled⟩
  obtain ⟨us, hus, ht⟩ := Lexer.lexFrom_print Position.start [] hp (h.paired [])
    (Nat.lt_succ_self _)
  refine ⟨us, ?_, ht⟩
  unfold lex
  split
  · exact absurd ‹_› (Lexer.no_mark hp _)
  · exact hus

end KeyedRecord.Source
