import KeyedRecord.Proofs.Source.EchoSorted

/-!
# Paths and bounds echo

A path is read for as long as it goes on, so what stands behind its first name is either more of it
or what stands behind all of it.  Whoever reads a path may say what that is, and then knows it of
the place behind the first name, too.

Principal results: `path_echo` and `qualifiedPath_echo`.
-/

set_option autoImplicit false

namespace KeyedRecord.Source

namespace Grammar

variable {g g' : Nesting} {K J L : Nat} {ts : List Placed} {E : Sight} {inExpression : Bool}

/-! ## Arguments between parentheses -/

theorem returnType_echo (h : g.Echo g' K J) (hE : ∀ r w, E r w → TypeEnd r w) :
    EchoAt (K + 2) .phrase [] .any (fun _ => E) (returnType g) (returnType g') ts := by
  unfold returnType
  refine .op? (M := .any) (by decide) (fun _ => ?_) (fun _ => .pure rfl rfl fun _ h => h)
    (fun _ _ => trivial) fun hts u hu => ⟨(hE _ _ hu).arrow hts, trivial⟩
  exact ((h.typeWithoutPlus hE).weaken fun _ _ => trivial).last (by simp [operatorTokens])
    (by simp [Form.phrase]) fun _ => rfl

theorem parenthesizedArguments_echo (h : g.Echo g' K J) (hE : ∀ r w, E r w → TypeEnd r w) :
    EchoAt (K + 2) .phrase [] (OnToken (.opening .paren) .any) (fun _ => E)
      (parenthesizedArguments g) (parenthesizedArguments g') ts := by
  unfold parenthesizedArguments
  refine .bind (M := fun _ => .any) (Nat.le_add_right _ _)
    (.inside (T := .any) fun _ _ _ => (EchoAt.commas (fun _ => h.anyType fun _ _ => ItemEnd.type)
      (fun _ _ h => h.ends_right) _).weaken fun _ _ => trivial) fun items r _ => ?_
  exact (returnType_echo h hE).last (by omega)
    (by simp [Form.phrase, Form.inside, Phrase.printed_separated])
    (by simp [Form.phrase, Form.inside, Phrase.canonical_separated])

/-! ## Segments -/

/-- What stands behind the first name of a path. -/
def AfterName (inExpression : Bool) (E : Sight) : Sight := fun ts u =>
  E ts u ∨ OnOperator "::" .any ts u ∨ (inExpression = false ∧ OnOperator "<" .any ts u)

/-- A name of a path. -/
def NameStart (inExpression : Bool) (E : Sight) : Sight := fun ts u =>
  ∃ w, OnToken (.ident w) (AfterName inExpression E) ts u

theorem NameStart.onset {u : List Placed} (h : NameStart inExpression E ts u) : Onset ts u :=
  h.elim fun _ h => .of_token (by simp) (by simp) h

/-- Two signs that begin differently do not stand at one place. -/
theorem op_exclusive {s o : String} {c c' : Char} (hs : s.toList.head? = some c)
    (hs' : o.toList.head? = some c') (hc : c ≠ c') (h : Front.op s ts = true) :
    Front.op o ts = false := by
  obtain ⟨cs, hl⟩ := List.head?_eq_some_iff.mp hs
  obtain ⟨cs', hl'⟩ := List.head?_eq_some_iff.mp hs'
  have h₁ : Front.isOperator [c] ts = true := isOperator_of_start h (by simp [hl])
  cases h₂ : Front.op o ts with
  | false => rfl
  | true =>
    have h₂ : Front.isOperator [c'] ts = true := isOperator_of_start h₂ (by simp [hl'])
    rcases ts with _ | ⟨⟨t, s⟩, r⟩
    · cases h₁
    · cases t <;> simp_all [Front.isOperator]

theorem AngleStart.startsArguments {u : List Placed} (h : AngleStart ts u)
    (hts : startsArguments inExpression ts = true) : startsArguments inExpression u = true := by
  rcases h with h | h
  · have := h.behind.op_self (by decide)
    have hc := h.op_self (by decide)
    simp only [Grammar.startsArguments, behindColons, hc, Bool.true_and, Bool.or_eq_true]
    exact .inr this
  · have hno := op_exclusive (s := "<") (o := "::") rfl rfl (by decide) h.1
    simp only [Grammar.startsArguments, behindColons, hno, Bool.false_and, Bool.or_false,
      Bool.and_eq_true] at hts
    simp [Grammar.startsArguments, hts.1.1, h.op (by decide)]

theorem AngleStart.afterName {u : List Placed} (h : AngleStart ts u)
    (hts : Grammar.startsArguments inExpression ts = true) : AfterName inExpression E ts u := by
  refine .inr (h.imp OnOperator.anything fun h => ⟨?_, h⟩)
  cases inExpression with
  | false => rfl
  | true =>
    have hno := op_exclusive (s := "<") (o := "::") rfl rfl (by decide) h.1
    simp [Grammar.startsArguments, behindColons, hno] at hts

/-- What stands behind the name of a segment. -/
def segmentRest (g : Nesting) (inExpression : Bool) (name : String) : Reader (Phrase × Bool) := do
  if ← Reader.front (startsArguments inExpression) then
    return (.word name ++ (← angleArguments g), false)
  else return (.word name, true)

theorem segmentRest_echo (h : g.Echo g' K J)
    (hE : ∀ r w, E r w → Denies (startsArguments inExpression) r w) (name : String) :
    EchoAt (K + 1) (.flagged .phrase) [.ident name] (AfterName inExpression E) (fun _ => E)
      (segmentRest g inExpression name) (segmentRest g' inExpression name) ts := by
  unfold segmentRest
  refine .ask (Y := AngleStart) (N := E) (fun _ => ?_) (fun _ => .pure rfl rfl fun _ h => h)
    (fun hts u hu => ⟨hu.startsArguments hts, hu.afterName hts⟩) fun hts u hu =>
      ⟨hE _ _ hu hts, .inl hu⟩
  exact (angleArguments_echo h).last (Nat.le_add_right _ _) (by simp [Form.flagged, Form.phrase])
    fun _ => rfl

theorem segment_echo (h : g.Echo g' K J)
    (hE : ∀ r w, E r w → Denies (startsArguments inExpression) r w) :
    EchoAt (K + 1) (.flagged .phrase) [] (NameStart inExpression E) (fun _ => E)
      (segment g inExpression)
      (segment g' inExpression) ts := by
  have run (g : Nesting) : segment g inExpression = (do
      if ← Reader.front startsKeywordSegment then
        return (.word (← Reader.anyWord), true)
      else if ← Reader.front (Front.word "Self") then
        Reader.anyWord >>= segmentRest g inExpression
      else Reader.identifier >>= segmentRest g inExpression) := rfl
  rw [run, run]
  refine .ask_eq (fun u hu => hu.onset.startsKeywordSegment) (fun _ => ?_) fun _ => ?_
  · refine .bind (M := fun _ => E) (Nat.le_add_right _ _)
      (EchoAt.anyWord.weaken fun u ⟨w, hu⟩ => ⟨w, hu.mono fun _ _ => .inl⟩) fun w r _ => ?_
    exact .pure rfl rfl fun _ h => h
  · refine .ask_eq (fun u hu => hu.onset.word _) (fun _ => ?_) fun _ => ?_
    · exact .bind (Nat.le_add_right _ _) .anyWord fun w r _ => segmentRest_echo h hE w
    · exact .bind (Nat.le_add_right _ _) (EchoAt.identifier.weaken fun u ⟨w, _, hu⟩ => ⟨w, hu⟩)
        fun w r _ => segmentRest_echo h hE w

/-! ## Paths -/

/-- A double colon with a segment behind it. -/
def OnSegment : Sight := OnOperator "::" fun ts u => ∃ w, OnToken (.ident w) .any ts u

namespace OnSegment

variable {u : List Placed}

theorem arguments (h : OnSegment ts u) (b : Bool) : startsArguments b u = false := by
  have hlt : Front.op "<" u = false := (h.op (by decide) _).trans (by decide)
  obtain ⟨w, s, r, s', v, -, hu, -⟩ := h.behind
  have hname : Front.op "<" (u.drop 2) = false :=
    (congrArg (Front.op "<") hu).trans (op_of_leaf (by simp) (by decide) s' v)
  simp [startsArguments, behindColons, hlt, hname]

theorem no_paren (h : OnSegment ts u) :
    (Front.op "::" ts && !Front.opening .paren (ts.drop 2)) = true ∧
      (Front.op "::" u && !Front.opening .paren (u.drop 2)) = true := by
  obtain ⟨w, s, r, s', v, hts, hu, -⟩ := h.behind
  have hts : ts.drop 2 = ⟨.ident w, s⟩ :: r := hts
  have hu : u.drop 2 = ⟨.ident w, s'⟩ :: v := hu
  simp [h.1, h.op_self (by decide), hts, hu, Front.opening]

theorem pathEnd (h : OnSegment ts u) (b : Bool) : PathEnd b ts u where
  arguments := .of_false (h.arguments b)
  colons := fun hts => absurd h.1 (by simp [hts])
  segment := fun hts => absurd h.no_paren.1 (by simp [hts])

theorem of_name {b : Bool} {E : Sight} (h : OnOperator "::" (NameStart b E) ts u) :
    OnSegment ts u :=
  h.mono fun _ ⟨w, hw⟩ => ⟨w, hw.anything⟩

end OnSegment

/-- What stands behind a segment that more may follow. -/
def MoreOr (E : Sight) : Sight := fun ts u => OnSegment ts u ∨ E ts u

theorem MoreOr.arguments (hE : ∀ r w, E r w → PathEnd inExpression r w) {r w : List Placed}
    (h : MoreOr E r w) : Denies (startsArguments inExpression) r w :=
  h.elim (fun h => (h.pathEnd _).arguments) fun h => (hE _ _ h).arguments

theorem NameStart.more {u : List Placed} (h : NameStart inExpression (MoreOr E) ts u) :
    NameStart inExpression E ts u := by
  obtain ⟨w, h⟩ := h
  refine ⟨w, h.mono fun r v hr => ?_⟩
  rcases hr with (hr | hr) | hr
  · exact .inr (.inl hr.anything)
  · exact .inl hr
  · exact .inr hr

theorem moreSegmentsFuel_echo (h : g.Echo g' K J) (hE : ∀ r w, E r w → PathEnd inExpression r w)
    (n m : Nat) (p : PathPhrase) (ts : List Placed) :
    EchoAt (min (K + 1) (m + p.phrase.printed.length)) .path p.phrase.printed
      (MoreOr E) (fun _ => E) (moreSegmentsFuel g inExpression n p)
      (moreSegmentsFuel g' inExpression m { p with phrase := p.phrase.canonical }) ts := by
  induction n generalizing m p ts with
  | zero => exact .failWith _
  | succ n ih =>
    refine EchoAt.rounds_from (k := fun m => moreSegmentsFuel g' inExpression m
      { p with phrase := p.phrase.canonical }) (fun m => ?_) m
    unfold moreSegmentsFuel
    refine .ask (Y := OnSegment) (N := E) (fun _ => ?_) (fun _ => .pure rfl rfl fun _ h => h)
      (fun _ u hu => ⟨hu.no_paren.2, .inl hu⟩) fun hts u hu => ⟨(hE _ _ hu).segment hts, .inr hu⟩
    refine EchoAt.weaken (.op_then (M := NameStart inExpression (MoreOr E)) (by decide) fun _ => ?_)
      fun u hu => .of_name hu
    refine .bind (D := K + 1) (by omega) (segment_echo h fun _ _ => MoreOr.arguments hE)
      fun s r _ => ?_
    · obtain ⟨s, bare⟩ := s
      have hpre : (p.push (.operator "::" ++ s) bare).phrase.printed =
          p.phrase.printed ++ operatorTokens "::".toList ++ s.printed := by
        simp [PathPhrase.push]
      have := ih m (p.push (.operator "::" ++ s) bare) r
      rw [hpre] at this
      refine this.mono ?_ (fun _ => id) fun _ _ _ _ => id
      simp only [List.length_append, length_operatorTokens]
      have : "::".toList.length = 2 := rfl
      omega

theorem moreSegments_echo (h : g.Echo g' K J) (hE : ∀ r w, E r w → PathEnd inExpression r w)
    (p : PathPhrase) :
    EchoAt (K + 1) .path p.phrase.printed (MoreOr E) (fun _ => E)
      (moreSegments g inExpression p)
      (moreSegments g' inExpression { p with phrase := p.phrase.canonical }) ts :=
  EchoAt.counted_from (f := fun n => moreSegmentsFuel g inExpression n p)
    (k := fun m => moreSegmentsFuel g' inExpression m { p with phrase := p.phrase.canonical })
    fun n m => moreSegmentsFuel_echo h hE n m p ts

/-- A path behind the double colon that it may start with. -/
def pathRest (g : Nesting) (inExpression : Bool) (leading : Option Phrase) : Reader PathPhrase := do
  let (s, bare) ← segment g inExpression
  moreSegments g inExpression
    { phrase := Phrase.ofOption leading ++ s
      count := 1
      leading := leading.isSome
      qualified := false
      lastIsBare := bare
      allBare := bare }

/-- The start of a path that starts from no type. -/
def PathStart (inExpression : Bool) (E : Sight) : Sight := fun ts u =>
  OnSegment ts u ∨ NameStart inExpression E ts u

theorem PathStart.onset {u : List Placed} (h : PathStart inExpression E ts u) : Onset ts u :=
  h.elim (.of_operator (by decide)) NameStart.onset

theorem pathRest_echo (h : g.Echo g' K J) (hE : ∀ r w, E r w → PathEnd inExpression r w)
    {leading : Option Phrase} {pre : List Token} (hpre : (Phrase.ofOption leading).printed = pre)
    (hleading : (Phrase.ofOption leading).canonical = Phrase.ofOption leading) :
    EchoAt (K + 1) .path pre (NameStart inExpression E) (fun _ => E)
      (pathRest g inExpression leading)
      (pathRest g' inExpression leading) ts := by
  unfold pathRest
  refine .bind (M := fun _ => MoreOr E) (Nat.le_add_right _ _)
    (EchoAt.weaken (segment_echo h fun _ _ => MoreOr.arguments hE) fun _ => NameStart.more)
      fun s r _ => ?_
  obtain ⟨s, bare⟩ := s
  have : EchoAt _ _ _ _ _ _ _ r := moreSegments_echo h hE
    ⟨Phrase.ofOption leading ++ s, 1, leading.isSome, false, bare, bare⟩
  rw [Phrase.printed_append, hpre, Phrase.canonical_append, hleading] at this
  exact this

theorem path_echo (h : g.Echo g' K J) (hE : ∀ r w, E r w → PathEnd inExpression r w) :
    EchoAt (K + 1) .path [] (PathStart inExpression E) (fun _ => E) (path g inExpression)
      (path g' inExpression)
      ts := by
  have run (g : Nesting) : path g inExpression = Reader.op? "::" >>= pathRest g inExpression := rfl
  rw [run, run]
  refine .op? (M := NameStart inExpression E) (by decide) (fun _ => pathRest_echo h hE rfl rfl)
    (fun _ => pathRest_echo h hE rfl rfl)
    (fun u hu => .inl (.of_name hu)) fun hts u hu => ⟨hu.onset.colons_eq.trans hts, .inr hu⟩

theorem everySegmentFuel_echo (h : g.Echo g' K J) (hE : ∀ r w, E r w → PathEnd inExpression r w)
    (n m : Nat) (p : PathPhrase) (ts : List Placed) :
    EchoAt (min (K + 1) (m + p.phrase.printed.length)) .path p.phrase.printed
      (NameStart inExpression E)
      (fun _ => E) (everySegmentFuel g inExpression n p)
      (everySegmentFuel g' inExpression m { p with phrase := p.phrase.canonical }) ts := by
  induction n generalizing m p ts with
  | zero => exact .failWith _
  | succ n ih =>
    refine EchoAt.rounds_from (k := fun m => everySegmentFuel g' inExpression m
      { p with phrase := p.phrase.canonical }) (fun m => ?_) m
    unfold everySegmentFuel
    refine .bind (D := K + 1) (M := fun _ => MoreOr E) (by omega)
      (EchoAt.weaken (segment_echo h fun _ _ => MoreOr.arguments hE) fun _ => NameStart.more)
      fun s r _ => ?_
    obtain ⟨s, bare⟩ := s
    refine .op? (N := E) (M := NameStart inExpression E) (by decide) (fun _ => ?_)
      (fun _ => .pure rfl rfl fun _ h => h) (fun u hu => .inl (.of_name hu))
      fun hts u hu => ⟨(hE _ _ hu).colons hts, .inr hu⟩
    have := ih m { p.push s bare with phrase := (p.push s bare).phrase ++ .operator "::" }
      (r.drop "::".length)
    rw [Phrase.printed_append] at this
    refine this.mono ?_ (fun _ => id) fun _ _ _ _ => id
    have hlen : (operatorTokens "::".toList).length = 2 := rfl
    simp only [List.length_append, PathPhrase.push, Phrase.printed_append,
      Phrase.printed_operator, hlen]
    omega

/-- The trait that a path from a type belongs to. -/
def qualifier? (g : Nesting) : Reader (Option Phrase) := do
  if ← Reader.front (Front.word "as") then
    let w ← Reader.word "as"
    let p ← path g false
    return some (w ++ p.phrase)
  else return none

/-- What follows the type that a path starts from. -/
def QualifierStart : Sight := fun ts u =>
  OnToken (.ident "as") .any ts u ∨ OnOperator ">" .any ts u

theorem QualifierStart.type {ts u : List Placed} (h : QualifierStart ts u) : TypeEnd ts u :=
  h.elim (.of_token (by simp) (by simp)) (.of_operator (by decide) (by decide))

theorem qualifier?_echo (h : g.Echo g' K J) {M : Sight} :
    EchoAt (K + 1) (.option .phrase) [] QualifierStart (fun _ => OnOperator ">" M) (qualifier? g)
      (qualifier? g') ts := by
  unfold qualifier?
  refine .ask (Y := OnToken (.ident "as") .any) (N := OnOperator ">" M) (fun _ => ?_)
    (fun _ => .pure rfl rfl fun _ h => h) (fun _ u hu => ⟨?_, .inl hu⟩)
    fun _ u hu => ⟨(hu.no_leaf (by decide)).2.2.2.1 _, .inr hu.anything⟩
  · refine .word_then fun s r _ => ?_
    exact ((path_echo h fun _ _ hr =>
      (TypeEnd.of_operator (by decide) (by decide) hr).toPathEnd).weaken
      fun _ _ => trivial).last (by omega) (by simp [Form.option, Form.phrase, Form.path]) fun _ =>
      rfl
  · obtain ⟨s, r, s', v, rfl, rfl, -⟩ := hu
    rfl

/-- The start of a path. -/
def QualifiedStart (inExpression : Bool) (E : Sight) : Sight := fun ts u =>
  PathStart inExpression E ts u ∨ OnOperator "<" Onset ts u

theorem qualifiedPath_eq (g : Nesting) (inExpression : Bool) : qualifiedPath g inExpression = (do
    if ← Reader.front (Front.op "<") then
      let lt ← Reader.op "<"
      let self ← g.anyType
      let as? ← qualifier? g
      let gt ← Reader.op ">"
      let colons ← Reader.op "::"
      fun ts => everySegmentFuel g inExpression (ts.length + 1)
        ⟨lt ++ self ++ Phrase.ofOption as? ++ gt ++ colons, 0, false, true, true, true⟩ ts
    else path g inExpression) := by
  unfold qualifiedPath qualifier?
  simp only [Reader.ite_bind, bind_assoc, pure_bind]

theorem qualifiedPath_echo (h : g.Echo g' K J) (hE : ∀ r w, E r w → PathEnd inExpression r w) :
    EchoAt (K + 1) .path [] (QualifiedStart inExpression E) (fun _ => E)
      (qualifiedPath g inExpression)
      (qualifiedPath g' inExpression) ts := by
  rw [qualifiedPath_eq, qualifiedPath_eq]
  refine .ask (Y := OnOperator "<" Onset) (N := PathStart inExpression E) (fun _ => ?_)
    (fun _ => path_echo h hE) (fun _ u hu => ⟨hu.op_self (by decide), .inr hu⟩)
    fun hts u hu => ⟨(hu.onset.sign rfl).trans hts, .inl hu⟩
  refine .op_then (by decide) fun _ => ?_
  refine .bind (D := K) (M := fun _ => QualifierStart) (by simp [operatorTokens])
    ((h.anyType fun _ _ => QualifierStart.type).weaken fun _ hu => hu.toOnset) fun self r _ => ?_
  refine .bind (D := K + 1) (by omega)
    (qualifier?_echo h (M := OnOperator "::" (NameStart inExpression E))) fun as? r _ => ?_
  refine .op_then (by decide) fun _ => ?_
  refine .op_then (by decide) fun _ => ?_
  have hprinted : (Phrase.operator "<" ++ self ++ Phrase.ofOption as? ++ .operator ">" ++
      .operator "::").printed = [] ++ operatorTokens "<".toList ++ Form.phrase.tokens self ++
        (Form.option .phrase).tokens as? ++ operatorTokens ">".toList ++
          operatorTokens "::".toList := by
    cases as? <;> simp [Form.phrase, Form.option, Phrase.ofOption]
  have : EchoAt _ _ _ _ _ _ _ (r.drop 1 |>.drop 2) :=
    EchoAt.counted_from (f := fun n => everySegmentFuel g inExpression n _)
    (k := fun m => everySegmentFuel g' inExpression m _) fun n m =>
      everySegmentFuel_echo h hE n m ⟨.operator "<" ++ self ++ Phrase.ofOption as? ++
        .operator ">" ++
        .operator "::", 0, false, true, true, true⟩ _
  rw [hprinted] at this
  simp only [Phrase.canonical_append, Phrase.canonical_ofOption, Phrase.canonical_operator] at this
  exact this

end Grammar

end KeyedRecord.Source
