import Mathlib.Data.List.TakeWhile
import KeyedRecord.Proofs.Source.Lexable

/-!
# What a scanner takes depends on nothing behind it

A scanner of the lexer looks ahead, so the same characters could be taken differently in another
text. Where the canonical text breaks behind them they are not: what was scanned once is scanned
again, whole and alone.  `Scans` says this of one scanner.

Principal result: `scans_quotedBody`, for literals between quotes, which end where they end in any
text.
-/

set_option autoImplicit false

namespace KeyedRecord.Source.Lexer

open KeyedRecord.Text

variable {p : Char → Bool} {a b r s t w : Chars}

/-! ## Runs -/

/-- A run of characters with the property ends before this text. -/
def Stops (p : Char → Bool) (s : Chars) : Prop := ∀ c ∈ s.head?, p c = false

theorem Stops.mono {q : Char → Bool} (h : Stops p s) (hpq : ∀ c, q c = true → p c = true) :
    Stops q s := fun c hc => by
  cases hq : q c with
  | false => rfl
  | true => exact absurd (hpq c hq) (by simp [h c hc])

theorem stops_dropWhile (p : Char → Bool) (s : Chars) : Stops p (s.dropWhile p) := fun c hc => by
  cases hs : s.dropWhile p with
  | nil => simp [hs] at hc
  | cons x l =>
    obtain rfl : x = c := by simpa [hs] using hc
    have := List.head_dropWhile_not p (l := s) (by simp [hs])
    simpa [hs] using this

theorem run_append (ha : ∀ c ∈ a, p c = true) (hs : Stops p s) : run p (a ++ s) = (a, s) := by
  have htake : s.takeWhile p = [] := by
    cases s with
    | nil => rfl
    | cons c s => simp [hs c rfl]
  have hdrop : s.dropWhile p = s := by
    cases s with
    | nil => rfl
    | cons c s => simp [hs c rfl]
  rw [run, List.takeWhile_append_of_pos ha, List.dropWhile_append_of_pos ha, htake, hdrop,
    List.append_nil]

theorem run_eq (p : Char → Bool) (s : Chars) :
    ∃ a t, run p s = (a, t) ∧ s = a ++ t ∧ (∀ c ∈ a, p c = true) ∧ Stops p t :=
  ⟨_, _, rfl, (List.takeWhile_append_dropWhile).symm, fun _ => List.mem_takeWhile_imp,
    stops_dropWhile p s⟩

/-- The same run ends before any text that begins with the same characters. -/
theorem Stops.append (hb : Stops p (b ++ r)) (hs : b = [] → Stops p s) : Stops p (b ++ s) := by
  cases b with
  | nil => exact hs rfl
  | cons c b => exact fun x hx => hb x hx

/-- A canonical text breaks with one of three characters. -/
theorem stops_of_breaks (h : Breaks s) (hp : p ' ' = false ∧ p ')' = false ∧ p ']' = false) :
    Stops p s := by
  cases s with
  | nil => exact fun _ h => by simp at h
  | cons c s =>
    intro x hx
    obtain rfl : c = x := by simpa using hx
    rcases h with rfl | rfl | rfl
    exacts [hp.1, hp.2.1, hp.2.2]

/-- What does not hold of these characters is taken from before the break. -/
theorem exists_of_breaks (h : a ++ s = b ++ t) (hs : Breaks s) (hb : ∀ c ∈ b, p c = true)
    (hp : p ' ' = false ∧ p ')' = false ∧ p ']' = false) : ∃ y, a = b ++ y ∧ t = y ++ s := by
  rcases List.append_eq_append_iff.mp h with ⟨_ | ⟨c, y⟩, rfl, rfl⟩ | ⟨y, rfl, rfl⟩
  · exact ⟨[], by simp, rfl⟩
  · have := hb c (by simp)
    rw [stops_of_breaks hs hp c rfl] at this
    cases this
  · exact ⟨y, rfl, rfl⟩

/-! ## Words -/

/-- The characters are those of a word. -/
def IsWord (w : Chars) : Prop := ∃ c t, w = c :: t ∧ isWordStart c = true ∧
    ∀ x ∈ t, isWordPart x = true

theorem IsWord.parts (h : IsWord w) : ∀ x ∈ w, isWordPart x = true := by
  obtain ⟨c, t, rfl, hc, ht⟩ := h
  intro x hx
  rcases List.mem_cons.mp hx with rfl | hx
  · exact isWordStart_imp_isWordPart hc
  · exact ht x hx

theorem word_append (h : IsWord w) (hs : Stops isWordPart s) : word (w ++ s) = some (w, s) := by
  obtain ⟨c, t, rfl, hc, ht⟩ := h
  have hrun : wordTail (t ++ s) = (t, s) := run_append ht hs
  simp only [List.cons_append, word, hc, if_true, hrun]

theorem exists_of_word (h : word s = some (w, t)) : IsWord w ∧ s = w ++ t ∧ Stops isWordPart t := by
  cases s with
  | nil => cases h
  | cons c s =>
    rw [word] at h
    split at h
    · obtain ⟨a, u, hrun, hs, ha, hu⟩ := run_eq isWordPart s
      have : wordTail s = (a, u) := hrun
      rw [this] at h
      cases h
      exact ⟨⟨c, a, rfl, ‹_›, ha⟩, by rw [hs]; rfl, hu⟩
    · cases h

/-- A suffix, and what stands behind it. -/
def EndsSuffix (w t : Chars) : Prop := (w = [] ∧ Stops isWordStart t) ∨
    (IsWord w ∧ Stops isWordPart t)

theorem EndsSuffix.parts (h : EndsSuffix w t) : ∀ x ∈ w, isWordPart x = true := by
  rcases h with ⟨rfl, -⟩ | ⟨h, -⟩
  · simp
  · exact h.parts

theorem suffix_append (h : EndsSuffix w t) : suffix (w ++ t) = (w, t) := by
  rcases h with ⟨rfl, h⟩ | ⟨h, ht⟩
  · have : word t = none := by
      cases t with
      | nil => rfl
      | cons c t => simp [word, h c rfl]
    simp [suffix, this]
  · simp [suffix, word_append h ht]

theorem endsSuffix_of_suffix (h : suffix s = (w, t)) : s = w ++ t ∧ EndsSuffix w t := by
  unfold suffix at h
  cases hs : word s with
  | none =>
    rw [hs] at h
    cases h
    refine ⟨rfl, .inl ⟨rfl, fun c hc => ?_⟩⟩
    cases s with
    | nil => simp at hc
    | cons x s =>
      obtain rfl : x = c := by simpa using hc
      cases hx : isWordStart x with
      | false => rfl
      | true => simp [word, hx] at hs
  | some v =>
    rw [hs] at h
    cases h
    obtain ⟨hw, rfl, ht⟩ := exists_of_word hs
    exact ⟨rfl, .inr ⟨hw, ht⟩⟩

theorem EndsSuffix.append (h : EndsSuffix w (b ++ t)) (hs : b = [] → Stops isWordPart s) :
    EndsSuffix w (b ++ s) :=
  h.imp (fun h => ⟨h.1, h.2.append fun hb => (hs hb).mono fun _ => isWordStart_imp_isWordPart⟩)
    fun h => ⟨h.1, h.2.append hs⟩

theorem stops_isWordPart (h : Breaks s) : Stops isWordPart s := stops_of_breaks h (by decide)

theorem wordEnds_iff : wordEnds s = true ↔ Stops isWordPart s := by
  cases s <;> simp [wordEnds, Stops]

/-! ## Scanners -/

/-- What the scanner takes of the text it takes of any text that goes on as `P` says. -/
def ScansAt (P : Chars → Prop) (f : Chars → Scan) (s : Chars) : Prop :=
  ∀ a r, f s = some (a, r) → s = a ++ r ∧ ∀ s', P s' → f (a ++ s') = some (a, s')

/-- The same of all texts. -/
def Scans (P : Chars → Prop) (f : Chars → Scan) : Prop := ∀ s, ScansAt P f s

variable {P : Chars → Prop} {f : Chars → Scan} {pre : Chars}

/-- What stands before is scanned again. -/
theorem ScansAt.before (hf : ScansAt P f t) (h : Scan.before pre (f t) = some (a, r)) :
    ∃ b, a = pre ++ b ∧ t = b ++ r ∧ ∀ s', P s' → Scan.before pre (f (b ++ s')) = some (a, s') := by
  obtain ⟨⟨b, r'⟩, hb, h⟩ := Option.map_eq_some_iff.mp h
  cases h
  obtain ⟨rfl, hs⟩ := hf b r hb
  exact ⟨b, rfl, rfl, fun s' hs' => by rw [hs s' hs']; rfl⟩

/-- A suffix ends where the text breaks. -/
theorem Scans.withSuffix (hf : Scans (fun _ => True) f) :
    Scans Breaks fun s => withSuffix (f s) := by
  intro s a r h
  obtain ⟨⟨b, t⟩, hb, h⟩ := Option.map_eq_some_iff.mp h
  obtain ⟨w, r', hw⟩ : ∃ w r', suffix t = (w, r') := ⟨_, _, rfl⟩
  simp only [hw] at h
  cases h
  obtain ⟨rfl, hf⟩ := hf s b t hb
  obtain ⟨rfl, he⟩ := endsSuffix_of_suffix hw
  refine ⟨(List.append_assoc ..).symm, fun s' hs' => ?_⟩
  have he' : EndsSuffix w s' := EndsSuffix.append (b := []) he fun _ => stops_isWordPart hs'
  show Lexer.withSuffix (f (b ++ w ++ s')) = _
  rw [List.append_assoc, hf _ trivial]
  simp [Lexer.withSuffix, suffix_append he']

/-! ## Quoted and raw literals -/

theorem scans_quotedRest (f : Flavour) (st : QuoteState) :
    Scans (fun _ => True) (quotedRest f st) := by
  intro s
  induction s generalizing st with
  | nil => exact fun _ _ h => by cases h
  | cons c s ih =>
    intro a r h
    rw [quotedRest] at h
    cases hs : st.step f '"' c with
    | refused => rw [hs] at h; cases h
    | ends =>
      rw [hs] at h
      cases h
      exact ⟨rfl, fun s' _ => by simp [quotedRest, hs]⟩
    | goes st' =>
      rw [hs] at h
      obtain ⟨b, rfl, rfl, hb⟩ := ScansAt.before (ih st') h
      exact ⟨rfl, fun s' hs' => by simpa [quotedRest, hs] using hb s' hs'⟩

theorem rawRest_cons (f : Flavour) (marks : Nat) {c : Char} (hq : c ≠ '"') (hr : c ≠ '\r')
    (s : Chars) :
    rawRest f marks (c :: s) =
      if f = .bytes ∧ 0x80 ≤ c.toNat then none else if f = .cText ∧ c = '\x00' then none
      else Scan.before [c] (rawRest f marks s) := by
  rw [rawRest]
  · simp [hr]
  · exact hq
  · rintro _ rfl
    exact absurd rfl hr

/-- The marks at the end are part of what is scanned. -/
theorem length_rawRest {f : Flavour} {marks : Nat} (h : rawRest f marks s = some (a, r)) :
    marks < a.length := by
  have step {c : Chars} {o : Scan} (ih : ∀ a r, o = some (a, r) → marks < a.length) {a r : Chars}
      (h : Scan.before c o = some (a, r)) : marks < a.length := by
    obtain ⟨⟨b, r'⟩, hb, h⟩ := Option.map_eq_some_iff.mp h
    cases h
    have := ih b r hb
    rw [List.length_append]
    omega
  fun_induction rawRest f marks s generalizing a r with
  | case1 => cases h
  | case2 s hs =>
    cases h
    rw [hs]
    simp
  | case3 s hs ih => exact step (fun _ _ => ih) h
  | case4 s ih => exact step (fun _ _ => ih) h
  | case5 => cases h
  | case6 => cases h
  | case7 => cases h
  | case8 c s _ _ hr hbytes hnul ih => exact step (fun _ _ => ih) h

theorem scans_rawRest (f : Flavour) (marks : Nat) : Scans (fun _ => True) (rawRest f marks) := by
  intro s
  unfold ScansAt
  fun_induction rawRest f marks s with
  | case1 => exact fun _ _ h => by cases h
  | case2 s hs =>
    rintro a r h
    cases h
    refine ⟨by simp, fun s' _ => ?_⟩
    rw [hs, List.cons_append, rawRest, if_pos (by simp)]
    simp
  | case3 s hs ih =>
    intro a r h
    obtain ⟨b, rfl, rfl, hb⟩ := ScansAt.before ih h
    refine ⟨rfl, fun s' hs' => ?_⟩
    have hlen : marks ≤ b.length := by
      obtain ⟨⟨b', r'⟩, hr, h⟩ := Option.map_eq_some_iff.mp h
      cases h
      exact (length_rawRest hr).le
    rw [List.append_assoc, List.singleton_append, rawRest, if_neg, hb s' hs']
    rwa [List.take_append_of_le_length hlen] at hs ⊢
  | case4 s ih =>
    intro a r h
    obtain ⟨b, rfl, rfl, hb⟩ := ScansAt.before ih h
    exact ⟨rfl, fun s' hs' => by simpa [rawRest] using hb s' hs'⟩
  | case5 => exact fun _ _ h => by cases h
  | case6 => exact fun _ _ h => by cases h
  | case7 => exact fun _ _ h => by cases h
  | case8 c s _ _ hr hbytes hnul ih =>
    intro a r h
    obtain ⟨b, rfl, rfl, hb⟩ := ScansAt.before ih h
    refine ⟨rfl, fun s' hs' => ?_⟩
    rw [List.append_assoc, List.singleton_append, rawRest_cons f marks (by grind) hr, if_neg hbytes,
      if_neg hnul, hb s' hs']

/-- A raw literal without its suffix. -/
def rawBody (f : Flavour) (s : Chars) : Scan :=
  match s.dropWhile (· == '#') with
  | '"' :: r =>
    if (s.takeWhile (· == '#')).length ≤ 255 then
      Scan.before (s.takeWhile (· == '#') ++ ['"']) (rawRest f (s.takeWhile (· == '#')).length r)
    else none
  | _ => none

theorem rawLiteral_eq (f : Flavour) (s : Chars) : rawLiteral f s = withSuffix (rawBody f s) := by
  fun_cases rawBody f s <;> simp_all [rawLiteral, withSuffix]

theorem scans_rawBody (f : Flavour) : Scans (fun _ => True) (rawBody f) := by
  intro s a r h
  obtain ⟨marks, t, hrun, rfl, hmarks, ht⟩ := run_eq (· == '#') s
  obtain ⟨h₁, h₂⟩ := Prod.mk.inj hrun
  rw [rawBody, h₁, h₂] at h
  split at h
  · split at h
    · rename_i hle
      obtain ⟨b, rfl, rfl, hb⟩ := ScansAt.before (scans_rawRest f _ _) h
      refine ⟨by simp, fun s' hs' => ?_⟩
      have hstop : Stops (· == '#') ('"' :: (b ++ s')) := by rintro c ⟨⟩; rfl
      obtain ⟨h₁, h₂⟩ := Prod.mk.inj (run_append hmarks hstop)
      have hform : marks ++ ['"'] ++ b ++ s' = marks ++ '"' :: (b ++ s') := by simp
      rw [rawBody, hform, h₁, h₂]
      simp only [if_pos hle]
      exact hb s' hs'
    · cases h
  · cases h

theorem scans_escapeRest (f : Flavour) (st : QuoteState) :
    Scans (fun _ => True) (escapeRest f st) := by
  intro s
  induction s generalizing st with
  | nil => exact fun _ _ h => by cases h
  | cons c s ih =>
    intro a r h
    unfold escapeRest at h
    split at h
    · cases h
      exact ⟨rfl, fun s' _ => by rw [List.singleton_append, escapeRest, ‹st.step f '\'' c = _›]⟩
    · cases h
    · rename_i st' hplain hcont hs
      obtain ⟨b, rfl, rfl, hb⟩ := ScansAt.before (ih st') h
      refine ⟨rfl, fun s' hs' => ?_⟩
      have run (t : Chars) : escapeRest f st (c :: t) = Scan.before [c] (escapeRest f st' t) := by
        conv_lhs => rw [escapeRest, hs]
        cases st' <;> first | rfl | simp_all
      rw [List.append_assoc, List.singleton_append, run]
      exact hb s' hs'
    · cases h

/-- A character between single quotes without its suffix. -/
def singleBody (f : Flavour) : Chars → Scan
  | '\\' :: r =>
    match escapeRest f .afterBackslash r with
    | some (a, '\'' :: t) => some ('\\' :: a ++ ['\''], t)
    | _ => none
  | c :: '\'' :: r => if f = .bytes ∧ 0x80 ≤ c.toNat then none else some ([c, '\''], r)
  | _ => none

theorem singleQuoted_eq (f : Flavour) (s : Chars) :
    singleQuoted f s = withSuffix (singleBody f s) := by
  fun_cases singleBody f s <;> simp_all [singleQuoted, withSuffix]

theorem scans_singleBody (f : Flavour) : Scans (fun _ => True) (singleBody f) := by
  intro s a r h
  unfold singleBody at h
  split at h
  · split at h
    · rename_i b t hb
      cases h
      obtain ⟨rfl, hbs⟩ := scans_escapeRest f _ _ _ _ hb
      refine ⟨by simp, fun s' _ => ?_⟩
      have := hbs ('\'' :: s') trivial
      simp [singleBody, this]
    · cases h
  · rename_i c t hc
    split at h
    · cases h
    · cases h
      refine ⟨rfl, fun s' _ => ?_⟩
      unfold singleBody
      split
      · cases ‹_ = '\\' :: _›
        exact absurd rfl hc
      · cases ‹_ = _ :: '\'' :: _›
        exact if_neg ‹_›
      · exact absurd rfl (‹∀ c r, _ = c :: '\'' :: r → False› c s')
  · cases h

/-- A literal between quotes without its suffix. -/
def quotedBody : Chars → Scan
  | '"' :: r => Scan.before ['"'] (quotedRest .text .plain r)
  | 'r' :: r => Scan.before ['r'] (rawBody .text r)
  | 'b' :: '"' :: r => Scan.before ['b', '"'] (quotedRest .bytes .plain r)
  | 'b' :: 'r' :: r => Scan.before ['b', 'r'] (rawBody .bytes r)
  | 'c' :: '"' :: r => Scan.before ['c', '"'] (quotedRest .cText .plain r)
  | 'c' :: 'r' :: r => Scan.before ['c', 'r'] (rawBody .cText r)
  | 'b' :: '\'' :: r => Scan.before ['b', '\''] (singleBody .bytes r)
  | '\'' :: r => Scan.before ['\''] (singleBody .text r)
  | _ => none

theorem scans_quotedBody : Scans (fun _ => True) quotedBody := by
  intro s a r h
  unfold quotedBody at h
  split at h
  case h_9 => cases h
  case h_1 => obtain ⟨b, rfl, rfl, hb⟩ := ScansAt.before (scans_quotedRest _ _ _) h; exact ⟨rfl, hb⟩
  case h_2 => obtain ⟨b, rfl, rfl, hb⟩ := ScansAt.before (scans_rawBody _ _) h; exact ⟨rfl, hb⟩
  case h_3 => obtain ⟨b, rfl, rfl, hb⟩ := ScansAt.before (scans_quotedRest _ _ _) h; exact ⟨rfl, hb⟩
  case h_4 => obtain ⟨b, rfl, rfl, hb⟩ := ScansAt.before (scans_rawBody _ _) h; exact ⟨rfl, hb⟩
  case h_5 => obtain ⟨b, rfl, rfl, hb⟩ := ScansAt.before (scans_quotedRest _ _ _) h; exact ⟨rfl, hb⟩
  case h_6 => obtain ⟨b, rfl, rfl, hb⟩ := ScansAt.before (scans_rawBody _ _) h; exact ⟨rfl, hb⟩
  case h_7 => obtain ⟨b, rfl, rfl, hb⟩ := ScansAt.before (scans_singleBody _ _) h; exact ⟨rfl, hb⟩
  case h_8 => obtain ⟨b, rfl, rfl, hb⟩ := ScansAt.before (scans_singleBody _ _) h; exact ⟨rfl, hb⟩

end KeyedRecord.Source.Lexer
