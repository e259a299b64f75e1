import KeyedRecord.Proofs.Source.EchoAttributes

/-!
# Generic arguments echo

An argument between angle brackets is a lifetime, a literal, a block, or what starts with a type: a
type alone, a name that is given a value, and a name with bounds.  Where a type starts and how a
name in an argument ends is the same in print, so the print is read by the same branch.

Principal result: `genericArgument_echo`.
-/

set_option autoImplicit false

namespace KeyedRecord.Source

open Grammar

/-! ## Lists between angle brackets -/

/-- What follows an item of a list between angle brackets; a print need not have the sign there that
its source has. -/
def ArgumentEnd : Sight := fun _ u => ∃ c s v, (c = ',' ∨ c = '>') ∧ u = ⟨.punct c false, s⟩ :: v

namespace ArgumentEnd

variable {ts u : List Placed} {M : Sight}

theorem of_comma (h : OnOperator "," M ts u) : ArgumentEnd ts u := by
  obtain ⟨-, us, v, rfl, hu, -⟩ := h
  obtain ⟨⟨t, s⟩, rfl, ht⟩ := List.map_eq_singleton_iff.mp hu
  obtain rfl : t = .punct ',' false := ht
  exact ⟨',', s, v, .inl rfl, rfl⟩

theorem of_close (h : OnOperator ">" M ts u) : ArgumentEnd ts u := by
  obtain ⟨-, us, v, rfl, hu, -⟩ := h
  obtain ⟨⟨t, s⟩, rfl, ht⟩ := List.map_eq_singleton_iff.mp hu
  obtain rfl : t = .punct '>' false := ht
  exact ⟨'>', s, v, .inr rfl, rfl⟩

/-- No operator stands there but the one sign. -/
theorem op_eq_false (h : ArgumentEnd ts u) {s : String} (hs : s ≠ "," ∧ s ≠ ">" ∧ s ≠ "") :
    Front.op s u = false := by
  obtain ⟨c, sp, v, hc, rfl⟩ := h
  unfold Front.op
  have : s.toList ≠ [','] ∧ s.toList ≠ ['>'] ∧ s.toList ≠ [] := by
    refine ⟨fun h => hs.1 ?_, fun h => hs.2.1 ?_, fun h => hs.2.2 ?_⟩ <;>
      exact String.ext (by simpa using h)
  rcases hl : s.toList with _ | ⟨d, _ | ⟨d', ds⟩⟩
  · exact absurd hl this.2.2
  · rw [hl] at this
    rcases hc with rfl | rfl <;> simp_all [Front.isOperator]
  · simp [Front.isOperator]

theorem type (h : ArgumentEnd ts u) : TypeEnd ts u where
  arguments := .of_false
    (by simp [startsArguments, behindColons, h.op_eq_false (s := "<") (by decide),
    h.op_eq_false (s := "::") (by decide)])
  colons := .of_false (h.op_eq_false (by decide))
  segment := .of_false (by simp [h.op_eq_false (s := "::") (by decide)])
  call := .of_false (by simp [h.op_eq_false (s := "!") (by decide)])
  plus := .of_false (h.op_eq_false (by decide))
  arrow := .of_false (h.op_eq_false (by decide))
  parenthesized := .of_false (by
    have := h.op_eq_false (s := "::") (by decide)
    obtain ⟨c, sp, v, hc, rfl⟩ := h
    simp [startsParenthesized, behindColons, this, Front.opening])
  bound const := .of_false (by
    have h₁ := h.op_eq_false (s := "::") (by decide)
    have h₂ := h.op_eq_false (s := "?") (by decide)
    obtain ⟨c, sp, v, hc, rfl⟩ := h
    simp [startsBound, h₁, h₂, Front.anyWord, Front.lifetime, Front.opening])

theorem closes (h : ArgumentEnd ts u) : (Front.op "," u || Front.op ">" u) = true := by
  obtain ⟨c, s, v, rfl | rfl, rfl⟩ := h <;> simp [Front.op, Front.isOperator]

end ArgumentEnd

/-- No phrase starts with an angle bracket that closes. -/
theorem Onset.not_close {ts u : List Placed} (h : Onset ts u) : Front.op ">" u = false :=
  h.op_false (h.no_sign (c := '>') rfl (by decide))

/-- A list of items with commas, up to an angle bracket. -/
theorem EchoAt.angles {α : Type} {L : Nat} {F : Form α} {I M : Sight} {item item' : Reader α}
    (hitem : ∀ ts, EchoAt L F [] I (fun _ => ArgumentEnd) item item' ts)
    (hI : ∀ ts u, I ts u → Front.op ">" u = false) (ts : List Placed) :
    EchoAt L (.list "," F) [] (fun ts u => I ts u ∨ OnOperator ">" M ts u)
      (fun _ => OnOperator ">" M) (Reader.listUntil (Front.op ">") "," item)
      (Reader.listUntil (Front.op ">") "," item') ts :=
  .listUntil (by decide) hitem (fun _ _ h _ => hI _ _ h) (fun _ _ h _ => h.op_self (by decide))
    (fun _ _ _ h => .of_close h)
    fun _ _ _ _ h => ⟨(h.op (by decide) _).trans (by decide), .of_comma h⟩

namespace Grammar

variable {g g' : Nesting} {K J L : Nat} {ts : List Placed}

/-! ## Binders -/

/-- A lifetime in a list between angle brackets. -/
def LifetimeStart : Sight := fun ts u => ∃ name, OnToken (.lifetime name) ArgumentEnd ts u

/-- A binder with the lifetimes that it names. -/
def OnBinder : Sight :=
  OnToken (.ident "for") (OnOperator "<" fun ts u => Attribute.Start LifetimeStart ts u ∨
    OnOperator ">" .any ts u)

/-- The start of a binder, or else what `M` says. -/
def BinderStart (M : Sight) : Sight := fun ts u => OnBinder ts u ∨
    (Front.word "for" ts = false ∧ M ts u)

theorem binder?_echo (h : g.Echo g' K J) {M W : Sight}
    (hM : ∀ ts u, M ts u → Denies (Front.word "for") ts u) :
    EchoAt (K + 2) (.option .phrase) [] (BinderStart M) (fun b => b.elim M fun _ => W)
      (binder? g) (binder? g') ts := by
  unfold binder?
  refine .ask (Y := OnBinder)
    (N := fun ts u => Front.word "for" ts = false ∧ M ts u) (fun _ => ?_)
    (fun hts => .pure rfl rfl fun _ h => ⟨hts, h⟩) (fun _ u hu => ⟨?_, .inl hu⟩)
    fun hts u hu => ⟨hM _ _ hu.2 hts, .inr hu⟩
  · refine .word_then fun s r hr => ?_
    refine .op_then (by decide) fun _ => ?_
    refine .bind (D := K + 2) (G := .list "," .phrase) (M := fun _ => OnOperator ">" W)
      (Nat.le_add_right _ _)
        ((EchoAt.angles (I := Attribute.Start LifetimeStart) (fun ts => ?_)
        (fun ts u hu => ?_) _).weaken
        fun _ hu => hu.imp_right OnOperator.anything) fun items r _ => ?_
    · refine .bind (D := K + 3) (by simp) (Attribute.attributes_echo h (M := LifetimeStart) ?_)
        fun attrs r _ => ?_
      · exact fun ts u ⟨name, hu⟩ =>
          .of_eq ((Onset.of_token (by simp) (by simp) hu).sign (c := '#') rfl)
      · refine .bind (D := K + 3) (M := fun _ => ArgumentEnd) (by omega) .lifetime
          fun life r _ => ?_
        exact .pure (by simp [Form.phrase]) rfl fun _ h => h
    · rcases hu with hu | ⟨-, name, hu⟩
      · exact (hu.op (by decide) _).trans (by decide)
      · exact (Onset.of_token (by simp) (by simp) hu).not_close
    · refine .op_then (by decide) fun _ => ?_
      exact .pure (by simp [Form.phrase, Form.option, Phrase.printed_separated])
        (by simp [Form.phrase, Form.option, Phrase.canonical_separated]) fun _ h => h
  · obtain ⟨s, r, s', v, rfl, rfl, -⟩ := hu
    rfl

/-! ## Arguments between angle brackets -/

theorem boundsPhrase_printed (bounds : List ((BoundKind × Phrase) × Bool)) :
    (boundsPhrase bounds).printed = (Form.list "+" (.marked .phrase)).tokens bounds := by
  rw [boundsPhrase, Phrase.printed_separated]
  simp [Form.list, Form.marked, Form.phrase, List.flatMap_map]

theorem boundsPhrase_canonical (bounds : List ((BoundKind × Phrase) × Bool)) :
    (boundsPhrase bounds).canonical = boundsPhrase
      ((Form.list "+" (.marked .phrase)).canon bounds) := by
  rw [boundsPhrase, Phrase.canonical_separated]
  simp [boundsPhrase, Form.list, Form.marked, Form.phrase, Function.comp_def]

/-- What follows the name of a generic argument. -/
def ArgumentNameEnd : Sight := fun ts u =>
  OnOperator "=" .any ts u ∨ OnOperator ":" .any ts u ∨ ArgumentEnd ts u

theorem ArgumentNameEnd.type {ts u : List Placed} (h : ArgumentNameEnd ts u) : TypeEnd ts u := by
  rcases h with h | h | h
  · exact .of_operator (by decide) (by decide) h
  · exact .of_operator (by decide) (by decide) h
  · exact h.type

/-- The type that a generic argument names. -/
def argumentValue (g : Nesting) : Reader Phrase := do
  if ← Reader.front Front.literal then literalPhrase
  else if ← Reader.front (Front.opening .brace) then g.block
  else g.anyType

theorem argumentValue_echo (h : g.Echo g' K J) :
    EchoAt K .phrase [] .any (fun _ => ArgumentEnd) (argumentValue g) (argumentValue g') ts := by
  unfold argumentValue
  refine .ask (Y := LiteralStart) (N := fun ts u => Onset ts u) (fun _ => literalPhrase_echo)
    (fun _ => ?_) (fun hts u hu => ⟨hu.1.literal.trans hts, trivial⟩) fun hts u hu =>
      ⟨hu.literal.trans hts, trivial⟩
  refine .ask_eq (fun u hu => hu.opening _) (fun _ => ?_) fun _ => ?_
  · exact ((h.block ts).mono h.le (fun u hu => .of_token (by simp) (by simp) hu) fun _ _ _ _ _ =>
      trivial)
  · exact (h.anyType fun r w => ArgumentEnd.type).weaken fun u hu => hu.toOnset

/-- The bounds of a generic argument. -/
def argumentBounds (g : Nesting) : Reader Phrase := do
  return boundsPhrase
    (← Reader.chain (fun ts => Front.op "," ts || Front.op ">" ts) "+" (g.bound ⟨false, true⟩))

theorem argumentBounds_echo (h : g.Echo g' K J) :
    EchoAt K .phrase [] .any (fun _ => ArgumentEnd) (argumentBounds g) (argumentBounds g') ts := by
  unfold argumentBounds
  refine .bind (M := fun _ => ArgumentEnd) (Nat.le_add_right _ _)
    (EchoAt.weaken (.chain (F := .marked .phrase)
    (by decide) (fun ts _ => (h.anyBound _ fun _ _ => id).mono h.le (fun _ => id) fun _ _ _ _ => id)
    (fun ts u hu _ => ?_) (fun ts u hu _ => ?_)
    (fun ts u hu _ => hu.op_eq_false (by decide)) (fun _ _ _ => ArgumentEnd.type)
    fun _ _ _ => .of_operator (by decide) (by decide)) fun _ _ => trivial) fun bounds r _ => ?_
  · simp [hu.not_close, hu.op_false (hu.no_sign (s := ",") (c := ',') rfl (by decide))]
  · exact hu.closes
  · exact .pure (by simp [Form.phrase, boundsPhrase_printed])
      (by simp [Form.phrase, boundsPhrase_canonical]) fun _ h => h

/-- A type with the constraint on the name that it may be. -/
def typedArgument (g : Nesting) : Reader (Bool × Phrase) := do
  let t ← g.type true
  match t.form with
  | .name =>
    match ← Reader.op? "=" with
    | some eq => return (false, t.phrase ++ eq ++ (← argumentValue g))
    | none =>
      match ← Reader.op? ":" with
      | some colon => return (false, t.phrase ++ colon ++ (← argumentBounds g))
      | none => return (false, t.phrase)
  | _ => return (false, t.phrase)

theorem genericArgument_eq (g : Nesting) : genericArgument g = (do
    if ← Reader.front fun ts => Front.lifetime ts && !Front.op "+" (ts.drop 1) then
      return (true, ← Reader.lifetime)
    else if ← Reader.front Front.literal then
      return (false, ← literalPhrase)
    else if ← Reader.front (Front.opening .brace) then
      return (false, ← g.block)
    else typedArgument g) := by
  refine bind_congr fun isLifetime => ?_
  cases isLifetime with
  | true => rfl
  | false =>
  refine bind_congr fun isLiteral => ?_
  cases isLiteral with
  | true => rfl
  | false =>
  refine bind_congr fun isBlock => ?_
  cases isBlock with
  | true => rfl
  | false =>
  refine bind_congr fun t => ?_
  cases t.form with
  | name =>
    refine bind_congr fun eq => ?_
    cases eq with
    | some eq => simp only [argumentValue, Reader.ite_bind, bind_assoc]
    | none =>
      refine bind_congr fun colon => ?_
      cases colon with
      | some colon => simp only [argumentBounds, bind_assoc, pure_bind]
      | none => rfl
  | _ => rfl

theorem typedArgument_echo (h : g.Echo g' K J) :
    EchoAt K (.marked .phrase) [] (TypeStart ArgumentNameEnd) (fun _ => ArgumentEnd)
      (typedArgument g)
      (typedArgument g') ts := by
  unfold typedArgument
  refine .bind (Nat.le_add_right _ _) (h.type true _ (fun _ _ => ArgumentNameEnd.type) ts)
    fun t r _ => ?_
  have whole : EchoAt K (.marked .phrase) (Form.type.tokens t) ArgumentNameEnd
    (fun _ => ArgumentEnd)
      (Pure.pure (false, t.phrase)) (Pure.pure (false, t.phrase.canonical)) r :=
    .pure rfl rfl fun _ hu => .inr (.inr hu)
  show EchoAt K _ _ _ _ _ (match t.form with | .name => _ | _ => _) r
  cases hf : t.form with
  | name =>
    refine .op? (N := fun ts u => OnOperator ":" .any ts u ∨ ArgumentEnd ts u) (M := .any)
      (by decide) (fun _ => ?_) (fun _ => ?_) (fun _ => .inl) fun _ u hu => ⟨?_, .inr hu⟩
    · refine .bind (D := K) (by omega) (argumentValue_echo h) fun v r _ => ?_
      exact .pure (by simp [Form.phrase, Form.marked, Form.type]) rfl fun _ hu => hu
    · refine .op? (N := ArgumentEnd) (M := .any) (by decide) (fun _ => ?_)
        (fun _ => .pure rfl rfl fun _ h => h)
        (fun _ => .inl) fun _ u hu => ⟨hu.op_eq_false (by decide), .inr hu⟩
      refine .bind (D := K) (by omega) (argumentBounds_echo h) fun v r _ => ?_
      exact .pure (by simp [Form.phrase, Form.marked, Form.type]) rfl fun _ hu => hu
    · rcases hu with hu | hu
      · exact (hu.op (by decide) _).trans (by decide)
      · exact hu.op_eq_false (by decide)
  | path => exact whole
  | bound => exact whole
  | other => exact whole

theorem exists_of_lifetime (h : Front.lifetime ts = true) :
    ∃ name s r, ts = ⟨.lifetime name, s⟩ :: r := by
  rcases ts with _ | ⟨⟨t, s⟩, r⟩
  · cases h
  · cases t <;> first | exact ⟨_, _, _, rfl⟩ | cases h

theorem genericArgument_echo (h : g.Echo g' K J) :
    EchoAt K (.marked .phrase) [] Onset (fun _ => ArgumentEnd) (genericArgument g)
      (genericArgument g')
      ts := by
  rw [genericArgument_eq, genericArgument_eq]
  refine .ask (Y := LifetimeStart) (N := fun ts u => Onset ts u ∧
      (Front.lifetime u = true → Front.op "+" (u.drop 1) = true)) (fun _ => ?_) (fun _ => ?_)
    (fun _ u ⟨name, hu⟩ => ⟨?_, .of_token (by simp) (by simp) hu⟩) fun _ u ⟨hu, hsum⟩ => ⟨?_, hu⟩
  · refine .bind (Nat.le_add_right _ _) .lifetime fun life r _ => ?_
    exact .pure (by simp [Form.phrase, Form.marked]) rfl fun _ h => h
  · refine .ask_eq (fun u hu => hu.1.literal) (fun hlit => ?_) fun _ => ?_
    · refine .bind (M := fun _ => ArgumentEnd) (Nat.le_add_right _ _)
        (EchoAt.weaken literalPhrase_echo fun u hu => ⟨hu.1, fun hl => ?_⟩) fun p r _ => ?_
      · rw [hu.1.lifetime] at hl
        obtain ⟨name, s, r, rfl⟩ := exists_of_lifetime hl
        cases hlit
      · exact .pure (by simp [Form.phrase, Form.marked]) rfl fun _ h => h
    · refine .ask_eq (fun u hu => hu.1.opening _) (fun _ => ?_) fun _ => ?_
      · refine .bind (M := fun _ => ArgumentEnd) (Nat.le_add_right _ _)
          ((h.block ts).mono h.le (fun u hu => ⟨.of_token (by simp) (by simp) hu, fun hl => ?_⟩)
            fun _ _ _ _ _ => trivial) fun p r _ => ?_
        · obtain ⟨s, r, s', v, rfl, rfl, -⟩ := hu
          cases hl
        · exact .pure (by simp [Form.phrase, Form.marked]) rfl fun _ h => h
      · exact (typedArgument_echo h).weaken fun u hu => ⟨hu.toOnset, hu.summed⟩
  · obtain ⟨s, r, s', v, rfl, rfl, hv⟩ := hu
    have : Front.op "+" v = false := hv.op_eq_false (by decide)
    simp [Front.lifetime, this]
  · cases hl : Front.lifetime u with
    | false => rfl
    | true => rw [hsum hl]; rfl

end Grammar

end KeyedRecord.Source
