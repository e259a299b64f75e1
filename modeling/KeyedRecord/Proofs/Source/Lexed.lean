import KeyedRecord.Proofs.Source.Leaves
import KeyedRecord.Proofs.Source.StringLiteral

/-!
# Lexed sources are sound

Every token that the lexer takes from a text is one that it reads again, a joint character is
followed by what made it joint, and brackets pair up.

Principal result: `sound_of_lex`.
-/

set_option autoImplicit false

namespace KeyedRecord.Source

namespace Lexer

open KeyedRecord.Text

variable {a b r s t w : Chars}

/-! ## Kinds of tokens -/

/-- The kinds of tokens that are no brackets, by how the lexer gets to them. -/
inductive LeafKind (s : Chars) : Token → Chars → Chars → Prop
  | literal {a r : Chars} (h : literal s = some (a, r)) :
    LeafKind s (.literal (String.ofList a)) a r
  | lifetime {a r : Chars} (hs : s = '\'' :: (a ++ r)) (h : ident (a ++ r) = some (a, r)) :
    LeafKind s (.lifetime (String.ofList ('\'' :: a))) ('\'' :: a) r
  | quote {r : Chars} (hs : s = '\'' :: r) (h : leaf s = some (.punct '\'' true, ['\''], r))
    (hq : leaf.lifetimeOrQuote r = some (.punct '\'' true, ['\''], r))
      (hi : ∃ w u, anyIdent r = some (w, u)) : LeafKind s (.punct '\'' true) ['\''] r
  | punct {c : Char} {r : Chars} (hs : s = c :: r) (hc : c ≠ '\'')
    (h : startsPunctuation s = true) :
    LeafKind s (.punct c (startsPunctuation r)) [c] r
  | ident {a r : Chars} (h : ident s = some (a, r)) : LeafKind s (.ident (String.ofList a)) a r

theorem leafKind_of_lifetimeOrQuote {x : Token} (hs : s = '\'' :: t)
    (hi : ∃ w u, anyIdent t = some (w, u))
    (hleaf : leaf s = some (x, a, r)) (h : leaf.lifetimeOrQuote t = some (x, a, r)) :
      LeafKind s x a r := by
  have hself := h
  unfold leaf.lifetimeOrQuote at h
  split at h
  · rename_i b u _ hb
    cases h
    obtain ⟨-, rfl, -⟩ := exists_of_ident hb
    exact .lifetime hs hb
  · cases h
    exact .quote hs hleaf hself hi

theorem leafKind_of_leaf {x : Token} (h : leaf s = some (x, a, r)) : LeafKind s x a r := by
  have hleaf := h
  unfold leaf at h
  split at h
  · cases h
    exact .literal ‹_›
  · split at h
    · rename_i t _
      cases hany : anyIdent t with
      | none =>
        rw [hany] at h
        cases h
      | some v =>
        rw [hany] at h
        have hi : ∃ w u, anyIdent t = some (w, u) := ⟨_, _, hany⟩
        split at h
        · cases h
        · split at h
          · exact leafKind_of_lifetimeOrQuote rfl hi hleaf h
          · cases h
        · exact leafKind_of_lifetimeOrQuote rfl hi hleaf h
        · cases ‹some v = none›
    · rename_i c t hc _
      split at h
      · cases h
        exact .punct rfl (fun hq => hc hq) ‹_›
      · split at h
        · cases h
          exact .ident ‹_›
        · cases h
    · cases h

theorem isPunctuation_of_starts {c : Char} (h : startsPunctuation (c :: s) = true) :
    isPunctuation c = true := by
  cases hp : isPunctuation c with
  | true => rfl
  | false => rw [startsPunctuation_cons hp] at h; cases h

theorem LeafKind.lexable {x : Token} (h : LeafKind s x a r) (htrivia : trivia s = none) :
    x.Lexable := by
  cases h with
  | literal h => exact lexable_of_literal h htrivia
  | lifetime _ h =>
    obtain ⟨hi, -, hagain⟩ := exists_of_ident h
    exact lexable_lifetime hi hagain
  | quote => exact ⟨by decide, fun _ => rfl⟩
  | punct hs hc h =>
    subst hs
    exact ⟨isPunctuation_of_starts h, fun hq => absurd hq hc⟩
  | ident h => exact lexable_of_ident h htrivia

theorem LeafKind.no_bracket {x : Token} (h : LeafKind s x a r) (d : Delimiter) :
    x ≠ .opening d ∧ x ≠ .closing d := by
  cases h <;> simp

/-! ## Behind a quote -/

/-- No literal starts at a quote with a word behind it, whatever follows the next character. -/
theorem literal_quote_word {c d : Char} {w t : Chars} (hc : c ≠ '\\')
    (h : literal ('\'' :: (c :: w ++ d :: s)) = none) :
    literal ('\'' :: (c :: w ++ d :: t)) = none := by
  rw [literal_quote] at h ⊢
  rcases w with _ | ⟨c', w⟩ <;> exact (singleBody_second hc _).mpr ((singleBody_second hc _).mp h)

/-- The mark of a raw word is told by what stands up to the mark. -/
theorem rawMark_eq (c : Char) (w y u r : Chars) :
    "r#".toList.isPrefixOf (c :: w ++ ('#' :: y ++ u)) =
    "r#".toList.isPrefixOf (c :: w ++ ('#' :: y ++ r)) := by
  rcases w with _ | ⟨c', w⟩ <;> simp [List.isPrefixOf]

/-- Behind a quote and a word, a second quote is not read, nor a mark that makes nothing raw. -/
def Rejects (w : Chars) (c : Char) (y : Chars) : Prop :=
  c = '\'' ∨ c = '#' ∧ "r#".toList.isPrefixOf (w ++ c :: y) = false

theorem leaf_quote_word {c : Char} {w y : Chars} (hnone : literal ('\'' :: (w ++ c :: y)) = none)
    (hany : anyIdent (w ++ c :: y) = some (w, c :: y)) :
    (Rejects w c y → leaf ('\'' :: (w ++ c :: y)) = none) ∧
      (¬Rejects w c y → leaf ('\'' :: (w ++ c :: y)) = leaf.lifetimeOrQuote (w ++ c :: y)) := by
  rw [leaf_quote _ hnone, hany]
  by_cases hc : c = '\''
  · subst hc
    exact ⟨fun _ => rfl, fun h => absurd (.inl rfl) h⟩
  by_cases hmark : c = '#'
  · subst hmark
    show (Rejects w '#' y → (if "r#".toList.isPrefixOf (w ++ '#' :: y) = true then
      leaf.lifetimeOrQuote (w ++ '#' :: y) else none) = none) ∧ (¬Rejects w '#' y →
        (if "r#".toList.isPrefixOf (w ++ '#' :: y) = true then
          leaf.lifetimeOrQuote (w ++ '#' :: y) else none) = leaf.lifetimeOrQuote (w ++ '#' :: y))
    refine ⟨fun h => if_neg ?_, fun h => if_pos ?_⟩
    · rw [(h.resolve_left hc).2]
      exact Bool.false_ne_true
    · by_contra hr
      exact h (.inr ⟨rfl, Bool.eq_false_iff.mpr hr⟩)
  · refine ⟨fun h => absurd h (by simp [Rejects, hc, hmark]), fun _ => ?_⟩
    split
    · cases ‹some _ = some _›
      exact absurd rfl hc
    · cases ‹some _ = some _›
      exact absurd rfl hmark
    · rfl
    · cases ‹some _ = none›

/-- The literal behind a quote that is a token of its own. -/
theorem standsBehindQuote (h : leaf ('\'' :: s) = some (.punct '\'' true, ['\''], s))
    (hl : literal s = some (a, r)) :
    StandsBehindQuote (String.ofList a) := by
  intro u hu
  have hnone : literal ('\'' :: s) = none := by
    cases hs : literal ('\'' :: s) with
    | none => rfl
    | some v => rw [leaf_of_literal (a := v.1) (r := v.2) hs] at h; cases h
  cases hany : anyIdent s with
  | none => rw [leaf_quote _ hnone, hany] at h; cases h
  | some v =>
    obtain ⟨w, t⟩ := v
    obtain ⟨hi, rfl, hstop, hmark⟩ := exists_of_anyIdent hany
    obtain ⟨y, rfl, hy, rfl⟩ := literal_behind_ident hi hl
    obtain ⟨c, y, rfl⟩ := List.exists_cons_of_ne_nil hy
    rw [List.cons_append] at h hnone hany
    obtain ⟨-, hagain⟩ := scans_literal _ _ _ hl
    have hany' : anyIdent (w ++ c :: (y ++ u)) = some (w, c :: (y ++ u)) :=
      anyIdent_append hi (fun x hx => hstop x hx) fun hw x hx => hmark hw x hx
    have hlit : literal (w ++ c :: (y ++ u)) = some (w ++ c :: y, u) := by
      have := hagain u hu
      rwa [List.append_assoc] at this
    obtain ⟨c₁, w, rfl, hc₁⟩ := isIdent_head hi
    have hslash : c₁ ≠ '\\' := by
      rintro rfl
      exact absurd hc₁ (by decide)
    have haccepts : ¬Rejects (c₁ :: w) c (y ++ u) := by
      intro hr
      have hr : Rejects (c₁ :: w) c (y ++ r) := hr.imp_right fun ⟨hc, hp⟩ => by
        subst hc
        exact ⟨rfl, (rawMark_eq c₁ w y r u).trans hp⟩
      have hnot := (leaf_quote_word hnone hany).1 hr
      rw [hnot] at h
      cases h
    have hform (t : Chars) : '\'' :: (String.ofList (c₁ :: w ++ c :: y)).toList ++ t =
      '\'' :: (c₁ :: w ++ c :: (y ++ t)) := by simp
    have hrest : (String.ofList (c₁ :: w ++ c :: y)).toList ++ u = c₁ :: w ++ c :: (y ++ u) := by
      simp
    rw [hform, hrest, (leaf_quote_word (literal_quote_word hslash hnone) hany').2 haccepts,
      leaf.lifetimeOrQuote, hlit]

/-! ## Steps of the lexer -/

/-- What the lexer does at one place of a text. -/
inductive Step (fuel : Nat) (p : Position) (stack : List (Delimiter × Position)) (s : Chars)
    (ts : List Placed) : Prop
  | skip {a r : Chars} {q : Position} (h : trivia s = some (a, r))
    (hr : lexFrom fuel q stack r = .ok ts)
  | doc {text a r : Chars} {inner : Bool} {q : Position} {us : List Placed}
    (h : docComment s = some (text, inner, a, r))
    (ht : tokensOf ts = docTokens text inner ++ tokensOf us) (hr : lexFrom fuel q stack r = .ok us)
  | done (hs : s = []) (hstack : stack = []) (ht : ts = [])
  | opening {c : Char} {r : Chars} {d : Delimiter} {us : List Placed} {sp : Span} {q : Position}
    (hs : s = c :: r) (hc : opens? c = some d) (ht : ts = ⟨.opening d, sp⟩ :: us)
      (hr : lexFrom fuel q ((d, p) :: stack) r = .ok us)
  | closing {c : Char} {r : Chars} {d : Delimiter} {us : List Placed} {sp : Span} {q p' : Position}
    {stack' : List (Delimiter × Position)} (hs : s = c :: r) (hc : closes? c = some d)
      (hstack : stack = (d, p') :: stack')
    (ht : ts = ⟨.closing d, sp⟩ :: us) (hr : lexFrom fuel q stack' r = .ok us)
  | leaf {x : Token} {a r : Chars} {us : List Placed} {sp : Span} {q : Position}
    (htrivia : trivia s = none)
    (h : leaf s = some (x, a, r)) (ht : ts = ⟨x, sp⟩ :: us) (hr : lexFrom fuel q stack r = .ok us)

theorem exists_of_map_ok {ε α β : Type} {f : α → β} {o : Except ε α} {b : β} (h : f <$> o = .ok b) :
    ∃ a, o = .ok a ∧ b = f a := by
  cases o with
  | error e => cases h
  | ok a => cases h; exact ⟨a, rfl, rfl⟩

theorem step_of_lexFrom {fuel : Nat} {p : Position} {stack : List (Delimiter × Position)}
    {ts : List Placed} (h : lexFrom (fuel + 1) p stack s = .ok ts) : Step fuel p stack s ts := by
  unfold lexFrom at h
  split at h
  · exact .skip ‹_› h
  · split at h
    · rename_i hdoc
      dsimp only at h
      split at h
      · cases h
      · obtain ⟨us, hr, rfl⟩ := exists_of_map_ok h
        exact .doc hdoc (by simp [tokensOf, Function.comp_def]) hr
    · split at h
      · split at h
        · cases h
          exact .done rfl rfl rfl
        · cases h
      · split at h
        · obtain ⟨us, hr, rfl⟩ := exists_of_map_ok h
          exact .opening rfl ‹_› rfl hr
        · split at h
          · split at h
            · rename_i hd
              subst hd
              obtain ⟨us, hr, rfl⟩ := exists_of_map_ok h
              exact .closing rfl ‹_› rfl rfl hr
            · cases h
          · cases h
        · split at h
          · obtain ⟨us, hr, rfl⟩ := exists_of_map_ok h
            exact .leaf ‹_› ‹_› rfl hr
          · cases h

/-! ## Where a step starts -/

theorem isBlank_of_punctuation {c : Char} (h : isPunctuation c = true) : isBlank c = false := by
  have hall : ("~!@#$%^&*-=+|;:,<.>/?'".toList.all fun c => !isBlank c) = true := by decide
  simpa using List.all_eq_true.mp hall c (List.contains_iff_mem.mp h)

/-- Punctuation starts neither a blank nor a comment. -/
theorem trivia_of_punctuation (h : startsPunctuation s = true) :
    trivia s = none ∧ docComment s = none := by
  rcases s with _ | ⟨c, s⟩
  · cases h
  have hblank := isBlank_of_punctuation (isPunctuation_of_starts h)
  by_cases hc : c = '/'
  · subst hc
    have hsecond : ∀ t, s ≠ '/' :: t ∧ s ≠ '*' :: t := by
      refine fun t => ⟨?_, ?_⟩ <;> (rintro rfl; cases h)
    constructor
    · unfold trivia
      split <;> rename_i heq
      case h_11 => cases heq
      case h_10 =>
        cases heq
        rw [hblank]
        rfl
      all_goals
        obtain ⟨-, rfl⟩ := List.cons.inj heq
        first | exact absurd rfl (hsecond _).1 | exact absurd rfl (hsecond _).2
    · unfold docComment
      dsimp only
      split <;> rename_i heq
      case h_7 => rfl
      all_goals
        obtain ⟨-, rfl⟩ := List.cons.inj heq
        first | exact absurd rfl (hsecond _).1 | exact absurd rfl (hsecond _).2
  · exact trivia_none hc hblank s

theorem isBlank_of_wordStart {c : Char} (h : isWordStart c = true) : isBlank c = false := by
  cases hb : isBlank c with
  | false => rfl
  | true =>
    have hblank : ∀ n ∈ [0x20, 0x09, 0x0A, 0x0B, 0x0C, 0x0D, 0x85, 0xA0, 0x1680, 0x2000, 0x2001,
        0x2002, 0x2003, 0x2004, 0x2005, 0x2006, 0x2007, 0x2008, 0x2009, 0x200A, 0x200E, 0x200F,
        0x2028, 0x2029, 0x202F, 0x205F, 0x3000], isWordStart (Char.ofNat n) = false := by
      simp only [isWordStart_eq]
      decide +kernel
    have hmem : c.toNat ∈ [0x20, 0x09, 0x0A, 0x0B, 0x0C, 0x0D, 0x85, 0xA0, 0x1680, 0x2000, 0x2001,
        0x2002, 0x2003, 0x2004, 0x2005, 0x2006, 0x2007, 0x2008, 0x2009, 0x200A, 0x200E, 0x200F,
        0x2028, 0x2029, 0x202F, 0x205F, 0x3000] := by
      simp only [isBlank, Bool.or_eq_true, Bool.and_eq_true, beq_iff_eq, decide_eq_true_eq] at hb
      simp only [List.mem_cons, List.not_mem_nil, or_false]
      omega
    have := hblank _ hmem
    rw [Char.ofNat_toNat, h] at this
    cases this

theorem slash_not_wordStart {c : Char} (h : isWordStart c = true) : c ≠ '/' := by
  rintro rfl
  exact absurd h (by decide)

/-- A bracket is neither punctuation nor the start of a word. -/
theorem no_bracket_of_head {c : Char} (h : isPunctuation c = true ∨ isWordStart c = true) :
    opens? c = none ∧ closes? c = none := by
  have hopen : ∀ d, opens? c = some d → c ∈ ['(', '[', '\x7b'] := fun d hd => by
    unfold opens? at hd
    split at hd <;> first | (cases hd; simp) | cases hd
  have hclose : ∀ d, closes? c = some d → c ∈ [')', ']', '\x7d'] := fun d hd => by
    unfold closes? at hd
    split at hd <;> first | (cases hd; simp) | cases hd
  have hno : (['(', '[', '\x7b', ')', ']', '\x7d'].all fun c =>
    !isPunctuation c && !isWordStart c) = true := by decide
  have absurd' (hc : c ∈ ['(', '[', '\x7b', ')', ']', '\x7d']) : False := by
    have := List.all_eq_true.mp hno c hc
    rcases h with h | h <;> simp [h] at this
  refine ⟨Option.eq_none_iff_forall_ne_some.mpr fun d hd => ?_,
    Option.eq_none_iff_forall_ne_some.mpr fun d hd => ?_⟩
  · have := hopen d hd
    exact absurd' (by simp only [List.mem_cons, List.not_mem_nil, or_false] at this ⊢; tauto)
  · have := hclose d hd
    exact absurd' (by simp only [List.mem_cons, List.not_mem_nil, or_false] at this ⊢; tauto)

/-- Where punctuation or a word starts, the next token is no bracket and no comment. -/
theorem leaf_of_lexFrom {fuel : Nat} {p : Position} {stack : List (Delimiter × Position)}
    {ts : List Placed} {c : Char} (htrivia : trivia (c :: s) = none ∧ docComment (c :: s) = none)
      (hc : isPunctuation c = true ∨ isWordStart c = true)
    (h : lexFrom fuel p stack (c :: s) = .ok ts) :
    ∃ x a r sp us, leaf (c :: s) = some (x, a, r) ∧ ts = ⟨x, sp⟩ :: us := by
  cases fuel with
  | zero => cases h
  | succ fuel =>
    obtain ⟨hopen, hclose⟩ := no_bracket_of_head hc
    cases step_of_lexFrom h with
    | skip h => rw [htrivia.1] at h; cases h
    | doc h => rw [htrivia.2] at h; cases h
    | done hs => cases hs
    | opening hs h => cases hs; rw [hopen] at h; cases h
    | closing hs h => cases hs; rw [hclose] at h; cases h
    | leaf _ h ht => exact ⟨_, _, _, _, _, h, ht⟩

/-! ## Behind joint characters -/

/-- The token that begins with punctuation may follow a joint character. -/
theorem adjacent_of_punctuation {fuel : Nat} {p : Position} {stack : List (Delimiter × Position)}
    {ts : List Placed} {c : Char}
    (hc : c ≠ '\'') (hs : startsPunctuation (c :: s) = true) (hjoint : startsPunctuation s = true)
    (h : lexFrom fuel p stack s = .ok ts) : ∀ y ∈ (tokensOf ts).head?, Adjacent
      (.punct c true) y := by
  rcases s with _ | ⟨c', s⟩
  · cases hjoint
  have hp := isPunctuation_of_starts hjoint
  obtain ⟨x, a, r, sp, us, hleaf, rfl⟩ := leaf_of_lexFrom (trivia_of_punctuation hjoint) (.inl hp) h
  rintro y ⟨⟩
  have hword : isWordStart c' = false := by
    cases hw : isWordStart c' with
    | false => rfl
    | true => rw [not_punctuation hw] at hp; cases hp
  cases leafKind_of_leaf hleaf with
  | literal hl =>
    obtain ⟨c₁, t, rfl, hq⟩ := literal_head (q := fun c => !isPunctuation c || c == '\'') hl
      (by decide) (by decide +kernel)
    obtain ⟨heq, -⟩ := scans_literal _ _ _ hl
    obtain ⟨rfl, -⟩ := List.cons.inj heq
    have hquote : c' = '\'' := by simpa [hp] using hq
    exact .inl ⟨hc, by simp [hquote]⟩
  | lifetime => exact ⟨hc, by simp⟩
  | quote => exact ⟨hc, by rintro ⟨-, h | h⟩ <;> cases h⟩
  | punct heq =>
    obtain ⟨rfl, rfl⟩ := List.cons.inj heq
    refine ⟨hc, ?_⟩
    rintro ⟨rfl, rfl | rfl⟩ <;> cases hs
  | ident hi =>
    obtain ⟨hi, heq, -⟩ := exists_of_ident hi
    obtain ⟨c₁, t, rfl, hc₁⟩ := isIdent_head hi
    obtain ⟨rfl, -⟩ := List.cons.inj heq
    rw [hword] at hc₁
    cases hc₁

/-- Behind a quote that is a token of its own stands a literal. -/
theorem adjacent_of_quote {fuel : Nat} {p : Position} {stack : List (Delimiter × Position)}
    {ts : List Placed} (hquote : leaf ('\'' :: s) = some (.punct '\'' true, ['\''], s))
    (hq : leaf.lifetimeOrQuote s = some (.punct '\'' true, ['\''], s))
      (hi : ∃ w u, anyIdent s = some (w, u))
    (h : lexFrom fuel p stack s = .ok ts) : ∀ y ∈ (tokensOf ts).head?, Adjacent
      (.punct '\'' true) y := by
  obtain ⟨w, u, hany⟩ := hi
  obtain ⟨hi, rfl, -, -⟩ := exists_of_anyIdent hany
  obtain ⟨c, w, rfl, hc⟩ := isIdent_head hi
  obtain ⟨x, a, r, sp, us, hleaf, rfl⟩ :=
    leaf_of_lexFrom (trivia_none (slash_not_wordStart hc) (isBlank_of_wordStart hc) _)
    (.inr hc) h
  rintro y ⟨⟩
  have hquoteless : c ≠ '\'' := by
    rintro rfl
    exact absurd hc (by decide)
  cases leafKind_of_leaf hleaf with
  | literal hl => exact .inr ⟨rfl, standsBehindQuote hquote hl⟩
  | lifetime heq => exact absurd (List.cons.inj heq).1 hquoteless
  | quote heq => exact absurd (List.cons.inj heq).1 hquoteless
  | punct _ _ hp =>
    have := isPunctuation_of_starts hp
    rw [not_punctuation hc] at this
    cases this
  | ident hident =>
    have hnone : literal (c :: w ++ u) = none := by
      cases hl : literal (c :: w ++ u) with
      | none => rfl
      | some v =>
        have hleaf' : leaf (c :: w ++ u) = some (.ident (String.ofList a), a, r) := hleaf
        rw [leaf_of_literal (a := v.1) (r := v.2) hl] at hleaf'
        cases hleaf'
    have hident : ident (c :: w ++ u) = some (a, r) := hident
    rw [leaf.lifetimeOrQuote, hnone, hident] at hq
    cases hq

/-- What follows a token in a source may follow it. -/
theorem LeafKind.adjacent {fuel : Nat} {p : Position} {stack : List (Delimiter × Position)}
    {ts : List Placed} {x : Token} (hk : LeafKind s x a r) (h : lexFrom fuel p stack r = .ok ts) :
      ∀ y ∈ (tokensOf ts).head?, Adjacent x y := by
  cases hk with
  | literal => exact fun y _ => by simp [Adjacent]
  | lifetime => exact fun y _ => by simp [Adjacent]
  | ident => exact fun y _ => by simp [Adjacent]
  | quote hs hquote hq hi => exact adjacent_of_quote (hs ▸ hquote) hq hi h
  | @punct c r hs hc hp =>
    subst hs
    cases hjoint : startsPunctuation r with
    | false => exact fun y _ => by simp [Adjacent]
    | true => exact adjacent_of_punctuation hc hp hjoint h

/-! ## Whole texts -/

theorem fit_docTokens (text : Chars) (inner : Bool) : Fit (docTokens text inner) := by
  have sign {c : Char} (hc : isPunctuation c = true) (hq : c ≠ '\'') : Fit [Token.punct c false] :=
    .singleton ⟨hc, fun h => absurd h hq⟩ rfl (by simp)
  have hdoc : (Token.ident "doc").Lexable := lexable_of_ident (s := "doc".toList) (r := [])
    (by decide) (by decide)
  have hliteral (x : String) : (Token.literal (Text.literal x)).Lexable := by
    have := lexable_of_literal (StringLiteral.literal_literal x
      (show Lexer.word [] = none from rfl)) (by
      rw [StringLiteral.toList_literal]
      exact (trivia_none (by decide) (by decide) _).1)
    simpa using this
  have hbody : Fit ([Token.ident "doc"] ++ [.punct '=' false] ++
      [.literal (Text.literal (String.ofList text))]) :=
    ((Fit.singleton hdoc trivial (by simp)).append (sign (by decide) (by decide))).append
      (.singleton (hliteral _) trivial (by simp))
  have hinner : Fit (if inner then [Token.punct '!' false] else []) := by
    cases inner
    · exact .nil
    · exact sign (by decide) (by decide)
  exact ((sign (by decide) (by decide)).append hinner).append (hbody.bracketed .bracket)

/-- Tokens that were lexed inside these brackets. -/
structure SoundInside (σ : List Delimiter) (ts : List Token) : Prop where
  lexable : ∀ t ∈ ts, t.Lexable
  adjacent : ts.IsChain Adjacent
  closed : openBehind σ ts = some []

theorem SoundInside.behind {σ : List Delimiter} {us ts : List Token} (h : SoundInside σ ts)
    (hu : Fit us) :
    SoundInside σ (us ++ ts) where
  lexable t ht := (List.mem_append.mp ht).elim (hu.lexable t) (h.lexable t)
  adjacent := List.isChain_append.mpr ⟨hu.adjacent, h.adjacent, fun x hx y _ =>
    (hu.settled x hx).adjacent y⟩
  closed := by rw [openBehind_append, hu.paired, Option.bind_some, h.closed]

theorem soundInside_of_lexFrom {fuel : Nat} {p : Position} {stack : List (Delimiter × Position)}
    {ts : List Placed}
    (h : lexFrom fuel p stack s = .ok ts) : SoundInside (stack.map Prod.fst) (tokensOf ts) := by
  induction fuel generalizing p stack s ts with
  | zero => cases h
  | succ fuel ih =>
    cases step_of_lexFrom h with
    | skip _ hr => exact ih hr
    | doc _ ht hr => rw [ht]; exact (ih hr).behind (fit_docTokens ..)
    | done _ hstack ht =>
      subst hstack ht
      exact ⟨by simp [tokensOf], .nil, rfl⟩
    | opening _ _ ht hr =>
      subst ht
      obtain ⟨h₁, h₂, h₃⟩ := ih hr
      refine ⟨fun t ht => ?_, h₂.cons fun y _ => by simp [Adjacent], h₃⟩
      rcases List.mem_cons.mp ht with rfl | ht
      · trivial
      · exact h₁ t ht
    | closing _ _ hstack ht hr =>
      subst hstack ht
      obtain ⟨h₁, h₂, h₃⟩ := ih hr
      refine ⟨fun t ht => ?_, h₂.cons fun y _ => by simp [Adjacent], ?_⟩
      · rcases List.mem_cons.mp ht with rfl | ht
        · trivial
        · exact h₁ t ht
      · simpa [tokensOf, openBehind] using h₃
    | leaf htrivia hleaf ht hr =>
      subst ht
      obtain ⟨h₁, h₂, h₃⟩ := ih hr
      have hk := leafKind_of_leaf hleaf
      refine ⟨fun t ht => ?_, h₂.cons (hk.adjacent hr), ?_⟩
      · rcases List.mem_cons.mp ht with rfl | ht
        · exact hk.lexable htrivia
        · exact h₁ t ht
      · rw [tokensOf, List.map_cons, openBehind_leaf hk.no_bracket]
        exact h₃

end Lexer

/-- **The tokens of a text are sound.** -/
theorem sound_of_lex {text : String} {ts : List Placed} (h : lex text = .ok ts) :
    Sound (tokensOf ts) := by
  have sound {fuel : Nat} {p : Position} {s : Chars} (h : Lexer.lexFrom fuel p [] s = .ok ts) :
      Sound (tokensOf ts) := by
    obtain ⟨h₁, h₂, h₃⟩ := Lexer.soundInside_of_lexFrom h
    exact ⟨h₁, h₂, [], h₃⟩
  unfold lex at h
  split at h <;> exact sound h

end KeyedRecord.Source
