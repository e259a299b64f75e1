import Mathlib.Data.List.Chain
import KeyedRecord.Source.Lexer
import KeyedRecord.Source.Phrase
import KeyedRecord.Source.Reader

/-!
# Tokens that their text gives back

A list of tokens prints as a text, and the text is lexed again.  The tokens come back if each of
them does on its own, if what follows a joint character is what made it joint, and if the brackets
pair up.

A source that was lexed is `Sound`, from any place on.  A phrase is `Fit` if besides its brackets
close inside it and its last character is not joint, so that phrases may be put one after another.
-/

set_option autoImplicit false

namespace KeyedRecord.Source

open Lexer

/-! ## Single tokens and neighbours -/

/-- What stands behind a token in a canonical text, unless the token is joint: nothing, a blank, or
one of the brackets that hug what they close. -/
def Breaks : Chars → Prop
  | [] => True
  | c :: _ => c = ' ' ∨ c = ')' ∨ c = ']'

/-- The characters are lexed as the token, whatever breaks the text behind them. -/
def LexedAs (cs : Chars) (t : Token) : Prop :=
  ∀ s, Breaks s → trivia (cs ++ s) = none ∧ docComment (cs ++ s) = none ∧
    leaf (cs ++ s) = some (t, cs, s)

/-- The token is one that the lexer can read. -/
def Token.Lexable : Token → Prop
  | punct c joint => isPunctuation c = true ∧ (c = '\'' → joint = true)
  | opening _ | closing _ => True
  | ident name => LexedAs name.toList (ident name) ∧ name.toList ≠ []
  | lifetime name => LexedAs name.toList (lifetime name) ∧ name.toList ≠ []
  | literal text => LexedAs text.toList (literal text) ∧ text.toList ≠ []

/-- A single quote before the literal is a token of its own. -/
def StandsBehindQuote (text : String) : Prop :=
  ∀ s, Breaks s →
    leaf ('\'' :: text.toList ++ s) = some (.punct '\'' true, ['\''], text.toList ++ s)

/-- The second token may follow the first.  A joint character is followed by what begins with
punctuation, but does not begin a comment. -/
def Adjacent : Token → Token → Prop
  | .punct c true, .punct c' _ => c ≠ '\'' ∧ ¬(c = '/' ∧ (c' = '/' ∨ c' = '*'))
  | .punct c true, .lifetime name => c ≠ '\'' ∧ name.toList.head? = some '\''
  | .punct c true, .literal text =>
    (c ≠ '\'' ∧ text.toList.head? = some '\'') ∨ (c = '\'' ∧ StandsBehindQuote text)
  | .punct _ true, _ => False
  | _, _ => True

/-- The token does not ask for a neighbour. -/
def Token.Settled : Token → Prop
  | punct _ joint => joint = false
  | _ => True

theorem Token.Settled.adjacent {t : Token} (h : t.Settled) (t' : Token) : Adjacent t t' := by
  cases t with
  | punct c joint => cases joint <;> simp_all [Settled, Adjacent]
  | _ => simp [Adjacent]

/-! ## Brackets -/

/-- The brackets that are open behind the tokens, the innermost first; none if one does not fit. -/
def openBehind : List Delimiter → List Token → Option (List Delimiter)
  | σ, [] => some σ
  | σ, .opening d :: r => openBehind (d :: σ) r
  | [], .closing _ :: _ => none
  | d' :: σ, .closing d :: r => if d' = d then openBehind σ r else none
  | σ, _ :: r => openBehind σ r

theorem openBehind_append (σ : List Delimiter) (a b : List Token) :
    openBehind σ (a ++ b) = (openBehind σ a).bind (openBehind · b) := by
  induction a generalizing σ with
  | nil => rfl
  | cons t a ih =>
    cases t with
    | closing d =>
      cases σ with
      | nil => rfl
      | cons d' σ =>
        simp only [List.cons_append, openBehind]
        split
        · exact ih σ
        · rfl
    | _ => simpa [openBehind] using ih _

/-- A token that is no bracket leaves open what was open. -/
theorem openBehind_leaf {t : Token} (h : ∀ d, t ≠ .opening d ∧ t ≠ .closing d)
    (σ : List Delimiter) (r : List Token) : openBehind σ (t :: r) = openBehind σ r := by
  cases t with
  | opening d => exact absurd rfl (h d).1
  | closing d => exact absurd rfl (h d).2
  | _ => simp [openBehind]

/-! ## Sources and phrases -/

/-- Tokens that were lexed, from some place on. -/
structure Sound (ts : List Token) : Prop where
  lexable : ∀ t ∈ ts, t.Lexable
  adjacent : ts.IsChain Adjacent
  closed : ∃ σ, openBehind σ ts = some []

/-- Tokens that may stand between any others. -/
structure Fit (ts : List Token) : Prop where
  lexable : ∀ t ∈ ts, t.Lexable
  adjacent : ts.IsChain Adjacent
  settled : ∀ t ∈ ts.getLast?, t.Settled
  paired : ∀ σ, openBehind σ ts = some σ

theorem Sound.suffix {ts r : List Token} (h : Sound ts) (hr : r <:+ ts) : Sound r := by
  obtain ⟨a, rfl⟩ := hr
  obtain ⟨σ, hσ⟩ := h.closed
  rw [openBehind_append] at hσ
  obtain ⟨τ, -, hτ⟩ := Option.bind_eq_some_iff.mp hσ
  exact ⟨fun t ht => h.lexable t (List.mem_append_right a ht), h.adjacent.right_of_append, τ, hτ⟩

namespace Fit

variable {a b : List Token}

theorem nil : Fit [] := ⟨by simp, .nil, by simp, fun _ => rfl⟩

theorem append (ha : Fit a) (hb : Fit b) : Fit (a ++ b) where
  lexable t ht := (List.mem_append.mp ht).elim (ha.lexable t) (hb.lexable t)
  adjacent := List.isChain_append.mpr ⟨ha.adjacent, hb.adjacent, fun x hx y _ =>
    (ha.settled x hx).adjacent y⟩
  settled t ht := by
    cases b with
    | nil => exact ha.settled t (by simpa using ht)
    | cons u b => exact hb.settled t (by simpa [List.getLast?_append] using ht)
  paired σ := by rw [openBehind_append, ha.paired, Option.bind_some, hb.paired]

/-- A single token that is neither a bracket nor joint. -/
theorem singleton {t : Token} (h : t.Lexable) (hs : t.Settled)
    (hb : ∀ d, t ≠ .opening d ∧ t ≠ .closing d) : Fit [t] where
  lexable := by simpa using h
  adjacent := .singleton t
  settled := by simpa using hs
  paired σ := by rw [openBehind_leaf hb]; rfl

theorem bracketed (h : Fit a) (d : Delimiter) : Fit (.opening d :: a ++ [.closing d]) where
  lexable t ht := by
    simp only [List.cons_append, List.mem_cons, List.mem_append, List.not_mem_nil, or_false] at ht
    rcases ht with rfl | ht | rfl
    · trivial
    · exact h.lexable t ht
    · trivial
  adjacent := by
    rw [List.cons_append, List.isChain_cons]
    refine ⟨fun y _ => by simp [Adjacent], List.isChain_append.mpr ⟨h.adjacent, .singleton _, ?_⟩⟩
    exact fun x hx y _ => (h.settled x hx).adjacent y
  settled t ht := by
    rw [List.getLast?_append] at ht
    obtain rfl : t = .closing d := by simpa using ht.symm
    trivial
  paired σ := by
    rw [List.cons_append, openBehind, openBehind_append, h.paired, Option.bind_some, openBehind,
      if_pos rfl]
    rfl

/-- Paired tokens that a closing bracket follows in a source. -/
theorem of_sound {d : Delimiter} (h : Sound (a ++ .closing d :: b))
    (hp : ∀ σ, openBehind σ a = some σ) : Fit a where
  lexable t ht := h.lexable t (List.mem_append_left _ ht)
  adjacent := h.adjacent.left_of_append
  settled t ht := by
    have := (List.isChain_append.mp h.adjacent).2.2 t ht (.closing d) (by simp)
    cases t with
    | punct c joint => cases joint <;> simp_all [Adjacent, Token.Settled]
    | _ => trivial
  paired := hp

end Fit

/-! ## Operators -/

/-- The text is that of an operator. -/
def IsOperatorText (cs : List Char) : Prop :=
  cs ≠ [] ∧ (∀ c ∈ cs, isPunctuation c = true ∧ c ≠ '\'') ∧
    cs.IsChain fun c c' => ¬(c = '/' ∧ (c' = '/' ∨ c' = '*'))

instance (cs : List Char) : Decidable (IsOperatorText cs) :=
  have : Decidable (∀ c ∈ cs, isPunctuation c = true ∧ c ≠ '\'') := List.decidableBAll _ _
  inferInstanceAs (Decidable (_ ∧ _))

theorem fit_operatorTokens {l : List Char} (h : IsOperatorText l) : Fit (operatorTokens l) := by
  obtain ⟨-, hp, hc⟩ := h
  induction l with
  | nil => exact .nil
  | cons c l ih =>
    have hlex (joint : Bool) : (Token.punct c joint).Lexable :=
      ⟨(hp c (by simp)).1, fun he => absurd he (hp c (by simp)).2⟩
    cases l with
    | nil => exact .singleton (hlex false) rfl (by simp)
    | cons c' l =>
      have hr := ih (fun x hx => hp x (by simp [hx])) hc.of_cons
      have hne : operatorTokens (c' :: l) ≠ [] := by cases l <;> simp [operatorTokens]
      refine ⟨?_, ?_, ?_, fun σ => ?_⟩
      · simpa [operatorTokens] using ⟨hlex true, hr.lexable⟩
      · rw [operatorTokens, List.isChain_cons]
        · refine ⟨fun y hy => ?_, hr.adjacent⟩
          obtain ⟨joint, rfl⟩ : ∃ joint, y = .punct c' joint := by
            cases l <;> simp [operatorTokens] at hy <;> exact ⟨_, hy.symm⟩
          exact ⟨(hp c (by simp)).2, (List.isChain_cons_cons.mp hc).1⟩
        · simp
      · rw [operatorTokens, List.getLast?_cons_of_ne_nil hne]
        · exact hr.settled
        · simp
      · rw [operatorTokens, openBehind_leaf (by simp)]
        · exact hr.paired σ
        · simp

end KeyedRecord.Source
