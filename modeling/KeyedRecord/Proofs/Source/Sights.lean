import KeyedRecord.Proofs.Source.EchoLists
import KeyedRecord.Source.Grammar.Expression

/-!
# What a place tells

Readers ask questions about the place where they start and, to find out whether they go on, about
the place where they end.  This module names what must be known of a place in a source and the place
in a print that stands for it, so that all these questions have the same answer: at the start of any
phrase (`Onset`), and at the end of a path, a type and an expression.

At an end it is enough that the print denies whatever the source denies, for a reader that goes on
in the source takes what makes it go on.
-/

set_option autoImplicit false

namespace KeyedRecord.Source

open Grammar

/-! ## Tokens at both places -/

namespace OnToken

variable {t : Token} {M W : Sight} {ts u : List Placed}

theorem mono (h : OnToken t M ts u) (hM : ∀ r v, M r v → W r v) : OnToken t W ts u := by
  obtain ⟨s, r, s', v, rfl, rfl, h⟩ := h
  exact ⟨s, r, s', v, rfl, rfl, hM r v h⟩

theorem anything (h : OnToken t M ts u) : OnToken t .any ts u := h.mono fun _ _ _ => trivial

theorem behind (h : OnToken t M ts u) : M (ts.drop 1) (u.drop 1) := by
  obtain ⟨s, r, s', v, rfl, rfl, h⟩ := h
  exact h

end OnToken

namespace OnOperator

variable {s : String} {M : Sight} {ts u : List Placed}

theorem anything (h : OnOperator s M ts u) : OnOperator s .any ts u := h.mono fun _ _ => trivial

/-- Both places begin with the same character. -/
theorem head {c : Char} {l : List Char} (hs : s.toList = c :: l) (h : OnOperator s M ts u) :
    ∃ j sp r j' sp' v, ts = ⟨.punct c j, sp⟩ :: r ∧ u = ⟨.punct c j', sp'⟩ :: v := by
  have hts : Front.isOperator [c] ts = true :=
    isOperator_of_start (o := s.toList) h.1 (by rw [hs]; simp)
  have hu : Front.isOperator [c] u = true :=
    isOperator_of_start (o := s.toList) (h.op_self (by rw [hs]; simp)) (by rw [hs]; simp)
  rcases ts with _ | ⟨⟨t, sp⟩, r⟩
  · cases hts
  rcases u with _ | ⟨⟨t', sp'⟩, v⟩
  · cases hu
  cases t <;> simp only [Front.isOperator, Bool.false_eq_true, beq_iff_eq] at hts
  cases t' <;> simp only [Front.isOperator, Bool.false_eq_true, beq_iff_eq] at hu
  subst hts hu
  exact ⟨_, _, _, _, _, _, rfl, rfl⟩

end OnOperator

/-! ## Starts of phrases -/

/-- The characters with which a phrase may begin. -/
def startChars : List Char := "&*!-#|.:<?".toList

/-- The operator may begin a phrase, whatever follows it. -/
def beginsPhrase (cs : List Char) : Bool :=
  match cs with
  | [] => false
  | c :: _ => startChars.contains c && c != '-' && c != '#' &&
      (c != ':' || "::".toList.isPrefixOf cs) && (c != '.' || "..".toList.isPrefixOf cs)

/-- Both places begin with the same token, up to what a character is joint with, and the token may
begin a phrase. -/
inductive Alike : Sight
  | leaf {t : Token} {s s' : Span} {r v : List Placed} (hc : ∀ d, t ≠ .closing d)
      (hp : ∀ c j, t ≠ .punct c j) : Alike (⟨t, s⟩ :: r) (⟨t, s'⟩ :: v)
  | sign {c : Char} {j j' : Bool} {s s' : Span} {r v : List Placed} (hc : c ∈ startChars) :
      Alike (⟨.punct c j, s⟩ :: r) (⟨.punct c j', s'⟩ :: v)

/-- The start of a phrase in a source and in print. -/
structure Onset (ts u : List Placed) : Prop where
  alike : Alike ts u
  /-- No operator stands in print that does not stand in the source. -/
  operator : ∀ cs, Front.isOperator cs u = true → Front.isOperator cs ts = true
  colons : Front.op "::" ts = true → Front.op "::" u = true
  dots : Front.op ".." ts = true → Front.op ".." u = true
  literal : Front.literal u = Front.literal ts
  /-- Only attributes start with this sign. -/
  pound : Front.op "#" ts = true → Front.opening .bracket (ts.drop 1) = true

namespace Onset

variable {ts u : List Placed}

theorem op_false (h : Onset ts u) {s : String} (hs : Front.op s ts = false) :
    Front.op s u = false := by
  cases hu : Front.op s u with
  | false => rfl
  | true => rw [← hs]; exact (h.operator _ hu).symm

theorem word (h : Onset ts u) (w : String) : Front.word w u = Front.word w ts := by
  cases h.alike with
  | @leaf t _ _ _ _ hc hp => cases t <;> rfl
  | sign => rfl

theorem anyWord (h : Onset ts u) : Front.anyWord u = Front.anyWord ts := by
  cases h.alike with
  | @leaf t _ _ _ _ hc hp => cases t <;> rfl
  | sign => rfl

theorem identifier (h : Onset ts u) : Front.identifier u = Front.identifier ts := by
  cases h.alike with
  | @leaf t _ _ _ _ hc hp => cases t <;> rfl
  | sign => rfl

theorem lifetime (h : Onset ts u) : Front.lifetime u = Front.lifetime ts := by
  cases h.alike with
  | @leaf t _ _ _ _ hc hp => cases t <;> rfl
  | sign => rfl

theorem opening (h : Onset ts u) (d : Delimiter) : Front.opening d u = Front.opening d ts := by
  cases h.alike with
  | @leaf t _ _ _ _ hc hp => cases t <;> rfl
  | sign => rfl

theorem ends_left (h : Onset ts u) : Front.ends ts = false := by
  cases h.alike with
  | @leaf t _ _ _ _ hc hp => cases t <;> simp_all [Front.ends]
  | sign => rfl

theorem ends_right (h : Onset ts u) : Front.ends u = false := by
  cases h.alike with
  | @leaf t _ _ _ _ hc hp => cases t <;> simp_all [Front.ends]
  | sign => rfl

/-- A single character has the same answer. -/
theorem sign (h : Onset ts u) {s : String} {c : Char} (hs : s.toList = [c]) :
    Front.op s u = Front.op s ts := by
  unfold Front.op
  rw [hs]
  cases h.alike with
  | @leaf t _ _ _ _ hc hp => cases t <;> rfl
  | sign => rfl

/-- No phrase starts with another character. -/
theorem no_sign (h : Onset ts u) {s : String} {c : Char} (hs : s.toList.head? = some c)
    (hc : c ∉ startChars) : Front.op s ts = false := by
  unfold Front.op
  obtain ⟨cs, hcs⟩ : ∃ cs, s.toList = c :: cs := by
    cases hl : s.toList with
    | nil => simp [hl] at hs
    | cons c' cs => rw [hl] at hs; cases hs; exact ⟨cs, rfl⟩
  rw [hcs]
  cases h.alike with
  | @leaf t _ _ _ _ _ hp => cases t <;> (cases cs <;> simp_all [Front.isOperator])
  | sign hc' =>
    have (c') (hc' : c' ∈ startChars) : (c == c') = false := by
      rw [beq_eq_false_iff_ne]; rintro rfl; exact hc hc'
    cases cs <;> simp [Front.isOperator, this _ hc']

theorem colons_eq (h : Onset ts u) : Front.op "::" u = Front.op "::" ts :=
  Bool.eq_iff_iff.mpr ⟨h.operator _, h.colons⟩

theorem dots_eq (h : Onset ts u) : Front.op ".." u = Front.op ".." ts :=
  Bool.eq_iff_iff.mpr ⟨h.operator _, h.dots⟩

theorem startsPath (h : Onset ts u) : startsPath u = startsPath ts := by
  simp only [Grammar.startsPath, h.identifier, h.word, h.colons_eq, h.sign (s := "<") rfl]

theorem startsFunction (h : Onset ts u) : startsFunction u = startsFunction ts := by
  simp only [Grammar.startsFunction, h.word]

theorem followsBinder (h : Onset ts u) : followsBinder u = followsBinder ts := by
  simp only [Grammar.followsBinder, h.startsFunction, h.identifier, h.word]

theorem startsBound (h : Onset ts u) (const : Bool) :
    startsBound const u = startsBound const ts := by
  simp only [Grammar.startsBound, h.anyWord, h.colons_eq, h.sign (s := "?") rfl,
    h.lifetime, h.opening]

theorem startsKeywordSegment (h : Onset ts u) :
    startsKeywordSegment u = startsKeywordSegment ts := by
  simp only [Grammar.startsKeywordSegment, h.word]

/-- A value of the source is one in print. -/
theorem startsValue (h : Onset ts u) (hts : startsValue ts = true) : startsValue u = true := by
  have deny {s : String} (hs : Front.op s ts = false) : Front.op s u = false := h.op_false hs
  simp only [Grammar.startsValue, Bool.or_eq_true, Bool.and_eq_true, Bool.not_eq_true'] at hts ⊢
  simp only [h.anyWord, h.opening, h.literal, h.lifetime, h.colons_eq, h.dots_eq,
    h.sign (s := "#") rfl, h.sign (s := "!") rfl, h.sign (s := "*") rfl, h.sign (s := "-") rfl,
    h.sign (s := "|") rfl, h.sign (s := "&") rfl, h.sign (s := "<") rfl]
  grind

/-- A token that is neither a sign nor a closing bracket. -/
theorem of_token {t : Token} {M : Sight} (hc : ∀ d, t ≠ .closing d) (hp : ∀ c j, t ≠ .punct c j)
    (h : OnToken t M ts u) : Onset ts u := by
  obtain ⟨s, r, s', v, rfl, rfl, -⟩ := h
  have hop (sp : Span) (w : List Placed) (cs : List Char) (hcs : cs ≠ []) :
      Front.isOperator cs (⟨t, sp⟩ :: w) = false := by
    cases t <;> (rcases cs with _ | ⟨c, _ | ⟨c', cs⟩⟩ <;> simp_all [Front.isOperator])
  have hno (sp : Span) (w : List Placed) (s : String) (hs : s.toList ≠ []) :
      Front.op s (⟨t, sp⟩ :: w) = false := hop sp w _ hs
  refine ⟨.leaf hc hp, fun cs => ?_, ?_, ?_, ?_, ?_⟩
  · by_cases hcs : cs = []
    · subst hcs; exact fun _ => rfl
    · simp [hop _ _ _ hcs]
  · simp [hno _ _ "::" (by decide)]
  · simp [hno _ _ ".." (by decide)]
  · cases t <;> first | rfl | exact absurd rfl (hp _ _)
  · simp [hno _ _ "#" (by decide)]

/-- A sign.  What follows it matters only behind a minus, which may belong to a number, and behind
the sign of an attribute. -/
theorem of_sign {s : String} {M : Sight} {c : Char} {rest : List Char} (hs : s.toList = c :: rest)
    (hc : c ∈ startChars) (h : OnOperator s M ts u) (hcolon : c = ':' → "::".toList <+: s.toList)
    (hdot : c = '.' → "..".toList <+: s.toList) (hlit : Front.literal u = Front.literal ts)
    (hpound : c = '#' → Front.opening .bracket (ts.drop 1) = true) : Onset ts u := by
  have hne : s.toList ≠ [] := by simp [hs]
  have hop (l : List Char) (hu : Front.isOperator l u = true) : l <+: s.toList := by
    obtain ⟨-, us, v, rfl, hus, -⟩ := h
    rw [isOperator_print hne hus v] at hu
    exact List.isPrefixOf_iff_prefix.mp hu
  have hself : Front.isOperator s.toList u = true := h.op_self hne
  obtain ⟨j, sp, r, j', sp', v, rfl, rfl⟩ := h.head hs
  have first {o : String} {e : Char} {l : List Char} (hs' : o.toList = e :: l)
      (h' : Front.op o (⟨.punct c j, sp⟩ :: r) = true) : c = e := by
    have := isOperator_of_start (l := [e]) h' (by rw [hs']; simp)
    exact (beq_iff_eq.mp this).symm
  refine ⟨.sign hc, fun l hu => isOperator_of_start h.1 (hop l hu), fun hts => ?_,
    fun hts => ?_, hlit, fun hts => ?_⟩
  · exact isOperator_of_start hself (hcolon (first (e := ':') (l := [':']) rfl hts))
  · exact isOperator_of_start hself (hdot (first (e := '.') (l := ['.']) rfl hts))
  · exact hpound (first (e := '#') (l := []) rfl hts)

/-- A sign that does not depend on what follows. -/
theorem of_operator {s : String} {M : Sight} (hs : beginsPhrase s.toList = true)
    (h : OnOperator s M ts u) : Onset ts u := by
  cases hl : s.toList with
  | nil => simp [hl, beginsPhrase] at hs
  | cons c cs =>
    rw [hl] at hs
    simp only [beginsPhrase, Bool.and_eq_true, Bool.or_eq_true, bne_iff_ne, ne_eq,
      List.contains_iff_mem, List.isPrefixOf_iff_prefix] at hs
    obtain ⟨⟨⟨⟨hc, hminus⟩, hpound⟩, hcolon⟩, hdot⟩ := hs
    rw [← hl] at hcolon hdot
    refine of_sign hl hc h (fun hc => hcolon.resolve_left (by simp [hc]))
      (fun hc => hdot.resolve_left (by simp [hc])) ?_ (fun hc => absurd hc hpound)
    obtain ⟨j, sp, r, j', sp', v, rfl, rfl⟩ := h.head hl
    have hno (j : Bool) (sp : Span) (w : List Placed) :
        Front.literal (⟨.punct c j, sp⟩ :: w) = false := by
      unfold Front.literal
      split
      all_goals simp_all
    rw [hno, hno]

/-- A minus before a phrase. -/
theorem of_minus (h : OnOperator "-" Onset ts u) : Onset ts u := by
  have hb := h.behind
  refine of_sign (c := '-') rfl (by decide) h (by decide) (by decide) ?_ (by simp)
  obtain ⟨j, sp, r, j', sp', v, rfl, rfl⟩ := h.head (c := '-') (l := []) rfl
  have hb : Onset r v := hb
  cases hb.alike with
  | @leaf t _ _ _ _ hc hp => cases t <;> rfl
  | sign => rfl

/-- An attribute. -/
theorem of_pound {M : Sight} (h : OnOperator "#" (OnToken (.opening .bracket) M) ts u) :
    Onset ts u := by
  have hb := h.behind
  refine of_sign (c := '#') rfl (by decide) h (by decide) (by decide) ?_ fun _ => ?_
  · obtain ⟨j, sp, r, j', sp', v, rfl, rfl⟩ := h.head (c := '#') (l := []) rfl
    simp [Front.literal]
  · obtain ⟨s, r, s', v, hr, -⟩ := hb
    have hr : ts.drop 1 = _ := hr
    simp [hr, Front.opening]

end Onset

/-! ## Ends of phrases -/

/-- The print denies what the source denies. -/
def Denies (P : List Placed → Bool) : Sight := fun ts u => P ts = false → P u = false

/-- The end of a path. -/
structure PathEnd (inExpression : Bool) (ts u : List Placed) : Prop where
  arguments : Denies (startsArguments inExpression) ts u
  colons : Denies (Front.op "::") ts u
  segment : Denies (fun ts => Front.op "::" ts && !Front.opening .paren (ts.drop 2)) ts u

/-- The end of a type or a bound. -/
structure TypeEnd (ts u : List Placed) : Prop extends PathEnd false ts u where
  call : Denies (fun ts => Front.op "!" ts && !Front.op "!=" ts) ts u
  plus : Denies (Front.op "+") ts u
  arrow : Denies (Front.op "->") ts u
  parenthesized : Denies startsParenthesized ts u
  bound : ∀ const, Denies (startsBound const) ts u

/-- The end of an expression; `braces` says whether a structure may stand at its end. -/
structure ExprEnd (braces : Bool) (ts u : List Placed) : Prop where
  type : TypeEnd ts u
  path : PathEnd true ts u
  brace : Denies (fun ts => braces && Front.opening .brace ts) ts u
  paren : Denies (Front.opening .paren) ts u
  bracket : Denies (Front.opening .bracket) ts u
  dot : Denies (fun ts => Front.op "." ts && !Front.op ".." ts) ts u
  question : Denies (Front.op "?") ts u
  cast : Denies (Front.word "as") ts u
  range : Denies (Front.op "..") ts u
  value : Denies startsValue ts u
  plainValue : Denies (fun ts => startsValue ts && (braces || !Front.opening .brace ts)) ts u
  lifetime : Denies Front.lifetime ts u
  colon : Denies (Front.op ":") ts u
  otherwise : Denies (Front.word "else") ts u
  pointee : Denies (fun ts => Front.word "mut" ts || Front.word "const" ts) ts u
  operator : operator? u = none ∨ operator? u = operator? ts

theorem Denies.of_eq {P : List Placed → Bool} {ts u : List Placed} (h : P u = P ts) :
    Denies P ts u :=
  fun hts => h.trans hts

theorem Denies.of_false {P : List Placed → Bool} {ts u : List Placed} (h : P u = false) :
    Denies P ts u :=
  fun _ => h

/-! A token that is no sign gives the same answers at both places. -/

section Token

variable {t : Token} {M : Sight} {ts u : List Placed}

/-- No operator stands where a token stands that is no sign. -/
theorem op_of_leaf (hp : ∀ c j, t ≠ .punct c j) {s : String} (hs : s.toList ≠ []) (sp : Span)
    (r : List Placed) : Front.op s (⟨t, sp⟩ :: r) = false := by
  unfold Front.op
  cases hl : s.toList with
  | nil => exact absurd hl hs
  | cons c cs => cases t <;> (cases cs <;> simp_all [Front.isOperator])

theorem operator?_eq_none (h : ∀ s : String, s.toList ≠ [] → Front.op s ts = false) :
    operator? ts = none := by
  have hfind : operators.find? (fun o => Front.op o.1 ts) = none := by
    rw [List.find?_eq_none]
    intro o ho
    have : ∀ o ∈ operators, o.1.toList ≠ [] := by decide
    simp [h _ (this o ho)]
  simp [operator?, hfind, h "=" (by decide)]

theorem PathEnd.of_no_op (h : ∀ s : String, s.toList ≠ [] → Front.op s u = false) (b : Bool) :
    PathEnd b ts u where
  arguments := .of_false
    (by simp [startsArguments, behindColons, h "<" (by decide), h "::" (by decide)])
  colons := .of_false (h "::" (by decide))
  segment := .of_false (by simp [h "::" (by decide)])

theorem TypeEnd.of_token (hc : ∀ d, t ≠ .closing d) (hp : ∀ c j, t ≠ .punct c j)
    (h : OnToken t M ts u) : TypeEnd ts u := by
  have hO : Onset ts u := .of_token hc hp h
  obtain ⟨s, r, s', v, rfl, rfl, -⟩ := h
  have hu (s : String) (hs : s.toList ≠ []) := op_of_leaf hp hs s' v
  have hts (x : String) (hx : x.toList ≠ []) := op_of_leaf hp hx s r
  exact {
    toPathEnd := .of_no_op hu _
    call := .of_false (by simp [hu "!" (by decide)])
    plus := .of_false (hu "+" (by decide))
    arrow := .of_false (hu "->" (by decide))
    parenthesized := .of_eq (by
      simp [startsParenthesized, behindColons, hu "::" (by decide), hts "::" (by decide),
      hO.opening])
    bound := fun const => .of_eq (hO.startsBound const) }

theorem ExprEnd.of_token (hc : ∀ d, t ≠ .closing d) (hp : ∀ c j, t ≠ .punct c j)
    (h : OnToken t M ts u) (b : Bool) : ExprEnd b ts u := by
  have hO : Onset ts u := .of_token hc hp h
  have hT : TypeEnd ts u := .of_token hc hp h
  obtain ⟨s, r, s', v, rfl, rfl, -⟩ := h
  have hu (s : String) (hs : s.toList ≠ []) := op_of_leaf hp hs s' v
  have hts (x : String) (hx : x.toList ≠ []) := op_of_leaf hp hx s r
  have hvalue : startsValue (⟨t, s'⟩ :: v) = startsValue (⟨t, s⟩ :: r) := by
    simp [startsValue, hO.anyWord, hO.opening, hO.literal, hO.lifetime, hu _ _, hts _ _]
  exact {
    type := hT
    path := .of_no_op hu _
    brace := .of_eq (by simp [hO.opening])
    paren := .of_eq (hO.opening _)
    bracket := .of_eq (hO.opening _)
    dot := .of_false (by simp [hu "." (by decide)])
    question := .of_false (hu "?" (by decide))
    cast := .of_eq (hO.word _)
    range := .of_false (hu ".." (by decide))
    value := .of_eq hvalue
    plainValue := .of_eq (by simp [hvalue, hO.opening])
    lifetime := .of_eq hO.lifetime
    colon := .of_false (hu ":" (by decide))
    otherwise := .of_eq (hO.word _)
    pointee := .of_eq (by simp [hO.word])
    operator := .inl (operator?_eq_none hu) }

end Token

/-! Where a stretch ends, a print denies everything. -/

section Ends

variable {ts u : List Placed}

theorem OnClosing.ends_left (h : OnClosing ts u) : Front.ends ts = true := by
  obtain ⟨d, s, r, d', s', v, rfl, rfl⟩ := h
  rfl

theorem OnClosing.ends_right (h : OnClosing ts u) : Front.ends u = true := by
  obtain ⟨d, s, r, d', s', v, rfl, rfl⟩ := h
  rfl

theorem eq_of_ends (h : Front.ends u = true) : u = [] ∨ ∃ d sp v, u = ⟨.closing d, sp⟩ :: v := by
  rcases u with _ | ⟨⟨t, sp⟩, v⟩
  · exact .inl rfl
  · cases t with
    | closing d => exact .inr ⟨d, sp, v, rfl⟩
    | _ => simp [Front.ends] at h

theorem op_of_ends (h : Front.ends u = true) (s : String) (hs : s.toList ≠ []) :
    Front.op s u = false := by
  obtain ⟨c, cs, hl⟩ := List.exists_cons_of_ne_nil hs
  obtain rfl | ⟨d, sp, v, rfl⟩ := eq_of_ends h
  · unfold Front.op
    rw [hl]
    cases cs <;> rfl
  · exact op_of_leaf (by simp) hs sp v

theorem word_of_ends (h : Front.ends u = true) (w : String) : Front.word w u = false := by
  obtain rfl | ⟨d, sp, v, rfl⟩ := eq_of_ends h <;> rfl

theorem opening_of_ends (h : Front.ends u = true) (d : Delimiter) : Front.opening d u = false := by
  obtain rfl | ⟨d, sp, v, rfl⟩ := eq_of_ends h <;> rfl

theorem lifetime_of_ends (h : Front.ends u = true) : Front.lifetime u = false := by
  obtain rfl | ⟨d, sp, v, rfl⟩ := eq_of_ends h <;> rfl

theorem anyWord_of_ends (h : Front.ends u = true) : Front.anyWord u = false := by
  obtain rfl | ⟨d, sp, v, rfl⟩ := eq_of_ends h <;> rfl

theorem literal_of_ends (h : Front.ends u = true) : Front.literal u = false := by
  obtain rfl | ⟨d, sp, v, rfl⟩ := eq_of_ends h <;> rfl

theorem startsBound_of_ends (h : Front.ends u = true) (const : Bool) :
    startsBound const u = false := by
  simp [startsBound, op_of_ends h "::" (by decide), op_of_ends h "?" (by decide), anyWord_of_ends h,
    lifetime_of_ends h, opening_of_ends h]

theorem startsValue_of_ends (h : Front.ends u = true) : startsValue u = false := by
  simp [startsValue, op_of_ends h "::" (by decide), op_of_ends h "#" (by decide),
    op_of_ends h ".." (by decide), op_of_ends h "!" (by decide), op_of_ends h "*" (by decide),
    op_of_ends h "-" (by decide), op_of_ends h "|" (by decide), op_of_ends h "&" (by decide),
    op_of_ends h "<" (by decide), anyWord_of_ends h, lifetime_of_ends h, opening_of_ends h,
    literal_of_ends h]

theorem TypeEnd.of_ends (h : Front.ends u = true) : TypeEnd ts u where
  toPathEnd := .of_no_op (op_of_ends h) _
  call := .of_false (by simp [op_of_ends h "!" (by decide)])
  plus := .of_false (op_of_ends h _ (by decide))
  arrow := .of_false (op_of_ends h _ (by decide))
  parenthesized := .of_false (by
    simp [startsParenthesized, behindColons, op_of_ends h "::" (by decide), opening_of_ends h])
  bound const := .of_false (startsBound_of_ends h const)

theorem ExprEnd.of_ends (h : Front.ends u = true) (b : Bool) : ExprEnd b ts u where
  type := .of_ends h
  path := .of_no_op (op_of_ends h) _
  brace := .of_false (by simp [opening_of_ends h])
  paren := .of_false (opening_of_ends h _)
  bracket := .of_false (opening_of_ends h _)
  dot := .of_false (by simp [op_of_ends h "." (by decide)])
  question := .of_false (op_of_ends h _ (by decide))
  cast := .of_false (word_of_ends h _)
  range := .of_false (op_of_ends h _ (by decide))
  value := .of_false (startsValue_of_ends h)
  plainValue := .of_false (by simp [startsValue_of_ends h])
  lifetime := .of_false (lifetime_of_ends h)
  colon := .of_false (op_of_ends h _ (by decide))
  otherwise := .of_false (word_of_ends h _)
  pointee := .of_false (by simp [word_of_ends h])
  operator := .inl (operator?_eq_none (op_of_ends h))

end Ends

/-! Signs that no type and no expression goes on with. -/

section Signs

variable {s : String} {M : Sight} {ts u : List Placed}

theorem OnOperator.no_leaf (hs : s.toList ≠ []) (h : OnOperator s M ts u) :
    Front.anyWord u = false ∧ Front.lifetime u = false ∧ (∀ d, Front.opening d u = false) ∧
      (∀ w, Front.word w u = false) ∧ Front.ends u = false ∧ Front.identifier u = false := by
  obtain ⟨c, cs, hl⟩ := List.exists_cons_of_ne_nil hs
  obtain ⟨j, sp, r, j', sp', v, rfl, rfl⟩ := h.head hl
  exact ⟨rfl, rfl, fun _ => rfl, fun _ => rfl, rfl, rfl⟩

/-- No operator stands in print that does not stand in the source. -/
theorem OnOperator.denies (hs : s.toList ≠ []) (h : OnOperator s M ts u) (x : String) :
    Denies (Front.op x) ts u := by
  intro hx
  cases hu : Front.op x u with
  | false => rfl
  | true =>
    rw [h.op hs, List.isPrefixOf_iff_prefix] at hu
    rw [← hx]
    exact (isOperator_of_start h.1 hu).symm

theorem OnOperator.startsBound (hs : s.toList ≠ []) (h : OnOperator s M ts u) (const : Bool) :
    Denies (startsBound const) ts u := by
  obtain ⟨hw, hl, ho, -, -, -⟩ := h.no_leaf hs
  intro hts
  simp only [Grammar.startsBound, Bool.or_eq_false_iff] at hts
  simp [Grammar.startsBound, hw, hl, ho, h.denies hs "::" (by simp [hts]),
    h.denies hs "?" (by simp [hts])]

/-- A sign in print that is not the beginning of what a path goes on with. -/
theorem PathEnd.of_operator (hs : s.toList ≠ [])
    (hno : ∀ x ∈ ["::", "<"], x.toList.isPrefixOf s.toList = false)
    (h : OnOperator s M ts u) (b : Bool) : PathEnd b ts u where
  arguments := .of_false (by
    simp [startsArguments, behindColons, (h.op hs "<").trans (hno _ (by simp)),
      (h.op hs "::").trans (hno _ (by simp))])
  colons := .of_false ((h.op hs _).trans (hno _ (by simp)))
  segment := .of_false (by simp [(h.op hs "::").trans (hno _ (by simp))])

/-- A sign in print that is not the beginning of what a type goes on with. -/
theorem TypeEnd.of_operator (hs : s.toList ≠ [])
    (hno : ∀ x ∈ ["::", "<", "!"], x.toList.isPrefixOf s.toList = false)
    (h : OnOperator s M ts u) : TypeEnd ts u := by
  have hop (x : String) (hx : x ∈ ["::", "<", "!"]) : Front.op x u = false :=
    (h.op hs x).trans (hno x hx)
  obtain ⟨hw, hl, ho, -, -, -⟩ := h.no_leaf hs
  have hcolons := hop "::" (by decide)
  exact {
    arguments := .of_false (by simp [startsArguments, behindColons, hop "<" (by decide), hcolons])
    colons := .of_false hcolons
    segment := .of_false (by simp [hcolons])
    call := .of_false (by simp [hop "!" (by decide)])
    plus := h.denies hs _
    arrow := h.denies hs _
    parenthesized := .of_false (by simp [startsParenthesized, behindColons, ho, hcolons])
    bound := h.startsBound hs }

theorem TypeEnd.of_plus (h : OnOperator "+" M ts u) : TypeEnd ts u :=
  .of_operator (by decide) (by decide) h

end Signs

/-! ## Lists between brackets -/

/-- The end of an item of a list between brackets. -/
def ItemEnd : Sight := fun ts u => OnOperator "," .any ts u ∨ OnClosing ts u

theorem ItemEnd.type {ts u : List Placed} (h : ItemEnd ts u) : TypeEnd ts u :=
  h.elim (.of_operator (by decide) (by decide)) fun h => .of_ends h.ends_right

/-- A list of items with commas, up to a closing bracket. -/
theorem EchoAt.commas {α : Type} {L : Nat} {F : Form α} {I : Sight} {item item' : Reader α}
    (hitem : ∀ ts, EchoAt L F [] I (fun _ => ItemEnd) item item' ts)
    (hI : ∀ ts u, I ts u → Front.ends u = false) (ts : List Placed) :
    EchoAt L (.list "," F) [] (fun ts u => I ts u ∨ OnClosing ts u) (fun _ => OnClosing)
      (Reader.listUntil Front.ends "," item) (Reader.listUntil Front.ends "," item') ts :=
  .listUntil (by decide) hitem (fun _ _ h _ => hI _ _ h) (fun _ _ h _ => h.ends_right)
    (fun _ _ _ h => .inr h) fun _ _ _ _ h => ⟨(h.no_leaf (by decide)).2.2.2.2.1, .inl h⟩

end KeyedRecord.Source
