import KeyedRecord.Source.Phrase

/-!
# Statements of a body

A body is a list of tokens between braces.  It falls into statements at the semicolons that stand
outside of all brackets, and what follows the last of them is the result of the body.

Tokens are `Sealed` if they can stand anywhere inside a statement: their brackets pair up, and no
semicolon stands outside of them.  Tokens are `Paired` if at least their brackets pair up; between
brackets that is enough.  Principal results: `Body.read_statement` and `Body.read_result`, by which
a body of sealed statements is read back statement by statement, and `Sealed.bracketed`.
-/

set_option autoImplicit false

namespace KeyedRecord.Source

namespace Token

/-- How deep in brackets the next token stands. -/
def depthBehind (depth : Nat) : Token → Nat
  | opening _ => depth + 1
  | closing _ => depth - 1
  | _ => depth

/-- The token ends a statement, unless it stands in brackets. -/
def isSemicolon : Token → Bool
  | punct c _ => c == ';'
  | _ => false

/-- The token is neither a bracket nor a semicolon. -/
def isPlain : Token → Bool
  | opening _ | closing _ => false
  | t => !t.isSemicolon

end Token

/-- A body: its statements, each without the semicolon behind it, and its result. -/
structure Body where
  statements : List (List Token)
  result : List Token
  deriving DecidableEq, Repr

namespace Body

/-- The body with tokens put before everything else. -/
def before (ts : List Token) (b : Body) : Body :=
  match b.statements with
  | [] => ⟨[], ts ++ b.result⟩
  | s :: ss => ⟨(ts ++ s) :: ss, b.result⟩

/-- Read a body that starts at a depth of brackets. -/
def read : Nat → List Token → Body
  | _, [] => ⟨[], []⟩
  | depth, t :: r =>
    if depth = 0 ∧ t.isSemicolon = true then
      let b := read 0 r
      ⟨[] :: b.statements, b.result⟩
    else (read (t.depthBehind depth) r).before [t]

theorem before_nil (b : Body) : b.before [] = b := by
  obtain ⟨ss, r⟩ := b
  cases ss <;> rfl

theorem before_before (a b : List Token) (c : Body) :
    (c.before b).before a = c.before (a ++ b) := by
  obtain ⟨ss, r⟩ := c
  cases ss <;> simp [before]

end Body

/-! ## Tokens that stand inside a statement -/

/-- From a depth on, the tokens end no statement and leave the depth as it is. -/
def SealedFrom (n : Nat) (ts : List Token) : Prop :=
  ∀ depth, n ≤ depth → ∀ rest, Body.read depth (ts ++ rest) = (Body.read depth rest).before ts

namespace SealedFrom

variable {n : Nat}

theorem nil : SealedFrom n [] := by
  intro depth _ rest
  rw [List.nil_append, Body.before_nil]

theorem append {a b : List Token} (ha : SealedFrom n a) (hb : SealedFrom n b) :
    SealedFrom n (a ++ b) := by
  intro depth hd rest
  rw [List.append_assoc, ha depth hd, hb depth hd, Body.before_before]

theorem flatMap {α : Type} {f : α → List Token} {as : List α} (h : ∀ a ∈ as, SealedFrom n (f a)) :
    SealedFrom n (as.flatMap f) := by
  induction as with
  | nil => exact nil
  | cons a as ih =>
    rw [List.flatMap_cons]
    exact (h a (by simp)).append (ih fun b hb => h b (by simp [hb]))

theorem plain {t : Token} (h : t.isPlain = true) : SealedFrom n [t] := by
  intro depth _ rest
  cases t <;> simp_all [Body.read, Token.isPlain, Token.isSemicolon, Token.depthBehind]

theorem semicolon {t : Token} (h : t.isSemicolon = true) : SealedFrom 1 [t] := by
  intro depth hd rest
  have : t.depthBehind depth =
    depth := by cases t <;> simp_all [Token.isSemicolon, Token.depthBehind]
  rw [List.singleton_append, Body.read, if_neg (by omega), this]

theorem mono {m : Nat} {ts : List Token} (h : SealedFrom n ts) (hm : n ≤ m) : SealedFrom m ts :=
  fun depth hd rest => h depth (by omega) rest

/-- Brackets make what they hold sealed. -/
theorem bracketed {ts : List Token} (h : SealedFrom 1 ts) (d d' : Delimiter) :
    SealedFrom 0 (.opening d :: ts ++ [.closing d']) := by
  intro depth _ rest
  have hc : Body.read (depth + 1) (.closing d' :: rest) =
      (Body.read depth rest).before [.closing d'] := by
    rw [Body.read, if_neg (by omega)]
    rfl
  calc Body.read depth (.opening d :: ts ++ [.closing d'] ++ rest)
      = (Body.read (depth + 1) (ts ++ .closing d' :: rest)).before [.opening d] := by
        simp [Body.read, Token.isSemicolon, Token.depthBehind]
    _ = (Body.read depth rest).before (.opening d :: ts ++ [.closing d']) := by
        rw [h _ (by omega), hc, Body.before_before, Body.before_before]
        simp

/-- The tokens of an operator without a semicolon. -/
theorem operatorTokens {cs : List Char} (h : ';' ∉ cs) :
    SealedFrom n (Source.operatorTokens cs) := by
  induction cs with
  | nil => exact nil
  | cons c cs ih =>
    simp only [List.mem_cons, not_or] at h
    have hp (joint : Bool) : SealedFrom n [.punct c joint] :=
      plain (by simpa [Token.isPlain, Token.isSemicolon] using Ne.symm h.1)
    cases cs with
    | nil => exact hp false
    | cons c' cs => exact (hp true).append (ih h.2)

end SealedFrom

/-- The tokens can stand anywhere inside a statement. -/
def Sealed (ts : List Token) : Prop := SealedFrom 0 ts

/-- The brackets of the tokens pair up. -/
def Paired (ts : List Token) : Prop := SealedFrom 1 ts

theorem Sealed.paired {ts : List Token} (h : Sealed ts) : Paired ts := h.mono (by omega)

namespace Body

/-- **A sealed statement is read whole**, whatever follows its semicolon. -/
theorem read_statement {s : List Token} (h : Sealed s) (rest : List Token) :
    read 0 (s ++ .punct ';' false :: rest) =
      ⟨s :: (read 0 rest).statements, (read 0 rest).result⟩ := by
  rw [h 0 (Nat.le_refl 0), read, if_pos ⟨rfl, rfl⟩]
  simp [before]

/-- Sealed tokens without a semicolon behind them are the result of their body. -/
theorem read_result {ts : List Token} (h : Sealed ts) : read 0 ts = ⟨[], ts⟩ := by
  have := h 0 (Nat.le_refl 0) []
  rw [List.append_nil] at this
  rw [this]
  simp [read, before]

/-- A body that is written as sealed statements and a sealed result. -/
theorem read_statements {ss : List (List Token)} {result : List Token} (h : ∀ s ∈ ss, Sealed s)
    (hr : Sealed result) :
    read 0 (ss.flatMap (· ++ [.punct ';' false]) ++ result) = ⟨ss, result⟩ := by
  induction ss with
  | nil => exact read_result hr
  | cons s ss ih =>
    rw [List.flatMap_cons, List.append_assoc, List.append_assoc, List.singleton_append,
      read_statement (h s (by simp)), ih fun s' hs => h s' (by simp [hs])]

end Body

end KeyedRecord.Source
