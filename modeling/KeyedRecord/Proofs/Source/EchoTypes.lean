import KeyedRecord.Proofs.Source.EchoFunctions

/-!
# Types echo

The kinds of types are told apart by their first tokens, and so are their prints.  Where a plus sign
is allowed a type may turn out to be the first bound of a sum; it is read as one again, since the
sign is printed behind it.

Principal result: `type_echo`.
-/

set_option autoImplicit false

namespace KeyedRecord.Source

namespace Grammar

variable {g g' : Nesting} {K J L : Nat} {ts : List Placed} {E : Sight}

/-! ## The forms in brackets -/

/-- What stands between the brackets of a type in parentheses. -/
def InnerStart : Sight := fun ts u => Onset ts u ∨ OnClosing ts u

theorem InnerStart.question {u : List Placed} (h : InnerStart ts u) :
    Front.op "?" u = Front.op "?" ts := by
  rcases h with h | h
  · exact h.sign rfl
  · rw [op_of_ends h.ends_right _ (by decide), op_of_ends h.ends_left _ (by decide)]

theorem parenthesizedType_echo (h : g.Echo g' K J) (hL : L ≤ K) :
    EchoAt L (.flagged .phrase) [] InnerStart (fun _ => OnClosing) (parenthesizedType g)
      (parenthesizedType g') ts := by
  unfold parenthesizedType
  refine .ask (Y := OnClosing) (N := Onset) (fun _ => .pure rfl rfl fun _ h => h) (fun _ => ?_)
    (fun _ u hu => ⟨hu.ends_right, .inr hu⟩) fun _ u hu => ⟨hu.ends_right, .inl hu⟩
  refine .ask_eq (fun u hu => hu.lifetime) (fun _ => ?_) fun _ => ?_
  · have := h.le
    exact (objectBounds_echo h (fun _ _ hr => .of_ends hr.ends_right) true).last (by omega)
      (by simp [Form.flagged, Form.phrase, boundsPhrase_printed])
      (by simp [Form.flagged, Form.phrase, boundsPhrase_canonical])
  · refine .bind (D := K) (by omega) ((h.type true ItemEnd (fun _ _ => ItemEnd.type) ts).weaken
      fun u hu => hu.toOnset) fun first r _ => ?_
    refine .op? (N := OnClosing) (M := .any) (by decide) (fun _ => ?_)
      (fun _ => .pure rfl rfl fun _ h => h)
      (fun u => .inl) fun _ u hu => ⟨op_of_ends hu.ends_right _ (by decide), .inr hu⟩
    refine EchoAt.last (D := K) ((EchoAt.commas (fun ts => h.anyType fun _ _ => ItemEnd.type)
      (fun ts u hu => hu.ends_right) _).weaken fun _ _ => trivial) (by omega) ?_ ?_
    · simp [Form.flagged, Form.type, Form.phrase, Phrase.printed_separated]
    · simp [Form.flagged, Form.type, Form.phrase, Phrase.canonical_separated]

/-- The bounds that may follow a type in parentheses. -/
def groupedRest (g : Nesting) (grouped : Phrase) (isBound : Bool) : Reader TypePhrase := do
  if isBound && (← Reader.front (Front.op "+")) then return ⟨grouped ++ (← plusBounds g), .other⟩
  else return ⟨grouped, .other⟩

theorem groupedRest_echo (h : g.Echo g' K J) (hL : L ≤ J) (hE : ∀ r w, E r w → TypeEnd r w)
    (grouped : Phrase) (isBound : Bool) :
    EchoAt L .type grouped.printed .any (fun _ => E) (groupedRest g grouped isBound)
      (groupedRest g' grouped.canonical isBound) ts := by
  unfold groupedRest
  cases isBound
  · simp only [Bool.false_and, Bool.false_eq_true, if_false, Reader.front_ignored]
    exact .pure rfl rfl fun _ _ => trivial
  · simp only [Bool.true_and]
    refine .ask (Y := PlusOr E) (N := E) (fun _ => ?_) (fun _ => .pure rfl rfl fun _ h => h)
      (fun hts u hu => ⟨?_, trivial⟩) fun hts u hu => ⟨(hE _ _ hu).plus hts, trivial⟩
    · exact (plusBounds_echo h hE).last (by omega) (by simp [Form.type, Form.phrase]) fun _ => rfl
    · exact hu.elim (fun hu => hu.op_self (by decide)) fun hu => absurd hts (by simp [hu.1])

theorem parenType_echo (h : g.Echo g' K J) (hL : L ≤ K + 1) (hJ : L ≤ J)
    (hE : ∀ r w, E r w → TypeEnd r w) (allowPlus : Bool) :
    EchoAt L .type [] (TypeStart E) (fun _ => E) (parenType g allowPlus)
      (parenType g' allowPlus) ts := by
  have run (g : Nesting) : parenType g allowPlus = (do
      if ← Reader.front fun ts => Front.op "?" (ts.drop 1) then
        let p ← Reader.inside .paren (traitBound g false)
        let more ← plusBounds g
        return ⟨.bracketed .paren p ++ more, .other⟩
      else
        let p ← Reader.inside .paren (parenthesizedType g)
        groupedRest g (.bracketed .paren p.1) (p.2 && allowPlus)) := rfl
  rw [run, run]
  refine .ask (Y := OnToken (.opening .paren) Onset) (N := OnToken (.opening .paren) InnerStart)
    (fun _ => ?_) (fun _ => ?_) (fun hts u hu => ⟨?_, .of_opening hu⟩) fun hts u hu =>
      ⟨?_, .of_opening hu⟩
  · refine .bind (D := K + 1) (G := .inside .paren .phrase) (M := fun _ => PlusOr E) (by omega)
      ((EchoAt.inside fun _ _ _ => traitBound_echo h (fun _ _ hw => .of_ends hw.ends_right)
        false).mono (by omega) (fun _ => id) fun _ _ _ _ => id) fun p r _ => ?_
    exact (plusBounds_echo h hE).last (by omega) (by simp [Form.type, Form.phrase, Form.inside])
      fun _ => rfl
  · refine .bind (D := K + 1) (G := .inside .paren (.flagged .phrase))
      (M := fun _ => .any) (by omega)
      ((EchoAt.inside fun _ _ _ => parenthesizedType_echo h le_rfl).mono (by omega) (fun _ => id)
        fun _ _ _ _ => id) fun p r _ => ?_
    obtain ⟨p, isBound⟩ := p
    exact groupedRest_echo h hJ hE (.bracketed .paren p) (isBound && allowPlus)
  · obtain ⟨s, r, s', v, rfl, rfl, hv⟩ := hu
    exact (hv.sign rfl).trans hts
  · obtain ⟨s, r, s', v, rfl, rfl, hv⟩ := hu
    exact hv.question.trans hts

theorem bracketType_echo (h : g.Echo g' K J) (hL : L ≤ K + 1) :
    EchoAt L .type [] (TypeStart E) (fun _ => E) (bracketType g) (bracketType g') ts := by
  unfold bracketType
  refine EchoAt.last (D := K + 1) (G := .inside .bracket .phrase)
    ((EchoAt.inside (T := .any) fun _ _ _ => ?_).mono
    (Nat.le_succ (K + 1)) (fun _ hu => .of_opening hu) fun _ _ _ _ => id) (by omega)
    (by simp [Form.type, Form.inside, Form.phrase]) fun _ => rfl
  refine .bind (D := K) (M := fun _ ts u => OnOperator ";" .any ts u ∨ OnClosing ts u) (by omega)
    ((h.anyType fun r w hr => ?_).weaken fun _ _ => trivial) fun element r _ => ?_
  · exact hr.elim (.of_operator (by decide) (by decide)) fun hr => .of_ends hr.ends_right
  · refine .op? (N := OnClosing) (M := .any) (by decide) (fun _ => ?_)
      (fun _ => .pure rfl rfl fun _ h => h)
      (fun u => .inl) fun _ u hu => ⟨op_of_ends hu.ends_right _ (by decide), .inr hu⟩
    exact ((h.expr true _).mono le_rfl (fun _ _ => trivial) fun _ _ _ _ hw =>
      .of_ends hw.ends_right _).last
      (by omega) (by simp [Form.phrase]) fun _ => rfl

/-! ## Signs and words before a type -/

/-- What a pointer allows. -/
def pointerKind : Reader Phrase := do
  if ← Reader.front (Front.word "const") then Reader.word "const"
  else if ← Reader.front (Front.word "mut") then Reader.word "mut"
  else Reader.missing [.word "const", .word "mut"]

theorem pointerKind_echo : EchoAt L .phrase [] .any (fun _ => .any) pointerKind pointerKind ts := by
  unfold pointerKind
  refine EchoAt.weaken (S := fun ts u => Onset ts u)
    (.ask_eq (fun u hu => hu.word _) (fun _ => ?_) fun _ =>
    .ask_eq (fun u hu => hu.word _) (fun _ => ?_) fun _ => .missing _) fun _ _ => trivial
  all_goals exact EchoAt.word.weaken fun u => .of_token (by simp) (by simp)

theorem pointerType_echo (h : g.Echo g' K J) (hE : ∀ r w, E r w → TypeEnd r w) :
    EchoAt (K + 1) .type [] (TypeStart E) (fun _ => E) (pointerType g) (pointerType g') ts := by
  have run (g : Nesting) : pointerType g = (do
      let star ← Reader.op "*"
      let kind ← pointerKind
      return ⟨star ++ kind ++ (← g.typeWithoutPlus), .other⟩) := by
    unfold pointerType pointerKind
    simp only [Reader.ite_bind, bind_assoc, Reader.front_late]
  rw [run, run]
  refine EchoAt.weaken (.op_then (M := .any) (by decide) fun _ => ?_) fun u =>
    .of_operator (by decide)
  refine .bind (D := K + 1) (M := fun _ => .any) (by omega) pointerKind_echo fun kind r _ => ?_
  exact ((h.typeWithoutPlus hE).weaken fun _ _ => trivial).last (by simp [operatorTokens])
    (by simp [Form.type, Form.phrase]) fun _ => rfl

theorem referenceType_echo (h : g.Echo g' K J) (hE : ∀ r w, E r w → TypeEnd r w) :
    EchoAt (K + 1) .type [] (TypeStart E) (fun _ => E) (referenceType g) (referenceType g') ts := by
  have run (g : Nesting) : referenceType g = (do
      let amp ← Reader.op "&"
      let life ← lifetime?
      let mutability ← word? "mut"
      return ⟨amp ++ life ++ mutability ++ (← g.typeWithoutPlus), .other⟩) := by
    unfold referenceType lifetime?
    simp only [Reader.ite_bind, bind_assoc, pure_bind]
  rw [run, run]
  refine EchoAt.weaken (.op_then (M := .any) (by decide) fun _ => ?_) fun u =>
    .of_operator (by decide)
  refine .bind (D := K + 1) (M := fun _ ts u => OnToken (.ident "mut") (TypeStart E) ts u ∨
    TypeStart E ts u) (by omega) (EchoAt.weaken (lifetime?_echo fun ts u hu => ?_)
    fun _ _ => trivial) fun life r _ => ?_
  · exact .of_eq (hu.elim (fun hu => (Onset.of_token (by simp) (by simp) hu).lifetime) fun hu =>
      hu.lifetime)
  refine .bind (D := K + 1) (by omega) (word?_echo fun ts u hu => .of_false hu.immutable)
    fun mutability r _ => ?_
  exact (h.typeWithoutPlus hE).last (by simp [operatorTokens]) (by simp [Form.type, Form.phrase])
    fun _ => rfl

theorem objectType_echo (h : g.Echo g' K J) (hE : ∀ r w, E r w → TypeEnd r w) (allowPlus : Bool) :
    EchoAt (J + 1) .type [] (TypeStart E) (fun _ => E) (objectType g allowPlus)
      (objectType g' allowPlus) ts := by
  unfold objectType
  refine EchoAt.weaken (.word_then (M := .any) fun s r _ => ?_) fun u =>
    .of_word (by decide) (by decide)
  refine .bind (D := J + 1) (M := fun _ => Onset) (by omega)
    (.optional (by decide) (fun _ _ => trivial)
    fun hts u hu => ⟨(hu.sign rfl).trans hts, trivial⟩) fun star r _ => ?_
  exact (objectBounds_echo h hE _).last (by simp)
    (by simp [Form.type, Form.phrase, boundsPhrase_printed, Phrase.printed_ofOption])
    (by simp [Form.type, Form.phrase, boundsPhrase_canonical, Form.option])

theorem hiddenType_echo (h : g.Echo g' K J) (hE : ∀ r w, E r w → TypeEnd r w) (allowPlus : Bool) :
    EchoAt (J + 1) .type [] (TypeStart E) (fun _ => E) (hiddenType g allowPlus)
      (hiddenType g' allowPlus) ts := by
  unfold hiddenType
  refine EchoAt.weaken (.word_then (M := .any) fun s r _ => ?_) fun u =>
    .of_word (by decide) (by decide)
  refine .bind (D := J) (by simp) ((boundSum_echo h hE _ _).weaken fun _ _ => trivial)
    fun bounds r _ => ?_
  rw [namesTrait_canon]
  split
  · exact .pure (by simp [Form.type, boundsPhrase_printed])
      (by simp [Form.type, boundsPhrase_canonical]) fun _ h => h
  · exact .breaks _

/-! ## Paths as types -/

/-- The sum that a path may be the first trait of. -/
def pathSum (g : Nesting) (allowPlus : Bool) (binder : Option Phrase) (p : PathPhrase) :
    Reader TypePhrase := do
  if binder.isSome || (allowPlus && (← Reader.front (Front.op "+"))) then
    let first := Phrase.ofOption binder ++ p.phrase
    if allowPlus then sumRest g first else return ⟨first, .bound⟩
  else return ⟨p.phrase, p.form⟩
where
  /-- The bounds behind a first trait. -/
  sumRest (g : Nesting) (first : Phrase) : Reader TypePhrase := do
    match ← Reader.op? "+" with
    | none => return ⟨first, .bound⟩
    | some plus =>
      let more ← Reader.chain (fun ts => !startsBound false ts) "+" (g.bound ⟨false, false⟩)
      return ⟨first ++ plus ++ boundsPhrase more, .other⟩

theorem sumRest_echo (h : g.Echo g' K J) (hL : L ≤ J) (hE : ∀ r w, E r w → TypeEnd r w)
    (first : Phrase) :
    EchoAt L .type first.printed (PlusOr E) (fun _ => E) (pathSum.sumRest g first)
      (pathSum.sumRest g' first.canonical) ts := by
  unfold pathSum.sumRest
  refine .op? (N := E) (M := .any) (by decide) (fun _ => ?_) (fun _ => .pure rfl rfl fun _ h => h)
    (fun u => .inl) fun hts u hu => ⟨(hE _ _ hu).plus hts, .inr ⟨hts, hu⟩⟩
  exact ((moreBounds_echo h hE ⟨false, false⟩).weaken fun _ _ => trivial).last (by omega)
    (by simp [Form.type, boundsPhrase_printed]) (by simp [Form.type, boundsPhrase_canonical])

/-- What follows the path of a type. -/
def PathTypeEnd (E : Sight) : Sight := fun ts u =>
  OnOperator "!" (fun ts u => ∃ d, OnToken (.opening d) .any ts u) ts u ∨
    OnOperator "+" .any ts u ∨ E ts u

theorem pathSum_echo (h : g.Echo g' K J) (hL : L ≤ J) (hE : ∀ r w, E r w → TypeEnd r w)
    (allowPlus : Bool) (binder : Option Phrase) (p : PathPhrase) :
    EchoAt L .type ((Form.option .phrase).tokens binder ++ p.phrase.printed)
      (fun ts u => OnOperator "+" .any ts u ∨ E ts u) (fun _ => E) (pathSum g allowPlus binder p)
      (pathSum g' allowPlus (binder.map Phrase.canonical) { p with phrase := p.phrase.canonical })
        ts := by
  have hfirst : (Form.option .phrase).tokens binder ++ p.phrase.printed =
      (Phrase.ofOption binder ++ p.phrase).printed := by simp [Phrase.printed_ofOption]
  have hcanon : Phrase.ofOption (binder.map Phrase.canonical) ++ p.phrase.canonical =
      (Phrase.ofOption binder ++ p.phrase).canonical := by simp
  have hplus {ts u : List Placed} (hu : PlusOr E ts u) :
    OnOperator "+" .any ts u ∨ E ts u := hu.imp id And.right
  unfold pathSum
  simp only [Option.isSome_map, hcanon]
  cases allowPlus with
  | false =>
    simp only [Bool.false_and, Bool.or_false, Reader.front_ignored, Bool.false_eq_true, if_false]
    cases binder with
    | none => exact .pure rfl rfl fun _ hu => .inr hu
    | some b => exact .pure rfl rfl fun _ hu => .inr hu
  | true =>
    simp only [Bool.true_and, if_true]
    cases binder with
    | none =>
      simp only [Option.isSome_none, Bool.false_or]
      refine .ask (Y := PlusOr E) (N := E) (fun _ => ?_) (fun _ => .pure rfl rfl fun _ h => h)
        (fun hts u hu => ⟨?_, hplus hu⟩) fun hts u hu => ⟨(hE _ _ hu).plus hts, .inr hu⟩
      · rw [hfirst]
        exact sumRest_echo h hL hE _
      · exact hu.elim (fun hu => hu.op_self (by decide)) fun hu => absurd hts (by simp [hu.1])
    | some b =>
      simp only [Option.isSome_some, Bool.true_or, if_true, Reader.front_ignored]
      rw [hfirst]
      exact (sumRest_echo h hL hE _).weaken fun _ => hplus

theorem PathTypeEnd.path (hE : ∀ r w, E r w → TypeEnd r w) {r w : List Placed}
    (h : PathTypeEnd E r w) :
    PathEnd false r w := by
  rcases h with h | h | h
  · exact .of_operator (by decide) (by decide) h _
  · exact (TypeEnd.of_plus h).toPathEnd
  · exact (hE _ _ h).toPathEnd

theorem not_mut_of_startsPath (h : startsPath ts = true) : Front.word "mut" ts = false := by
  cases hw : Front.word "mut" ts with
  | false => rfl
  | true =>
    rcases ts with _ | ⟨⟨t, s⟩, r⟩
    · cases hw
    · cases t <;> try cases hw
      obtain rfl := beq_iff_eq.mp hw
      cases h

theorem typeStart_of_path (hts : startsPath ts = true) {u : List Placed}
    (h : QualifiedStart false (PathTypeEnd E) ts u) :
    TypeStart E ts u := by
  rcases h with (h | ⟨w, h⟩) | h
  · exact .of_operator (by decide) h
  · have hO : Onset ts u := .of_token (by simp) (by simp) h
    refine ⟨hO, fun _ => ?_, (hO.word _).trans (not_mut_of_startsPath hts), fun hl => ?_⟩
    · obtain ⟨s, r, s', v, rfl, rfl, hv⟩ := h
      rcases hv with (hv | hv | hv) | hv | ⟨-, hv⟩
      · exact .inr ⟨"!", by simp, hv.anything⟩
      · exact .inr ⟨"+", by simp, hv⟩
      · exact .inl hv
      · exact .inr ⟨"::", by simp, hv⟩
      · exact .inr ⟨"<", by simp, hv⟩
    · obtain ⟨s, r, s', v, rfl, rfl, hv⟩ := h
      cases hl
  · exact .of_operator (by decide) h

theorem pathType_echo (h : g.Echo g' K J) (hL : L ≤ K + 1) (hJ : L ≤ J)
    (hE : ∀ r w, E r w → TypeEnd r w)
    (allowPlus : Bool) (binder : Option Phrase) (hts : startsPath ts = true) :
    EchoAt L .type ((Form.option .phrase).tokens binder) (TypeStart E) (fun _ => E)
      (pathType g allowPlus binder) (pathType g' allowPlus (binder.map Phrase.canonical)) ts := by
  have run (g : Nesting) (binder : Option Phrase) : pathType g allowPlus binder = (do
      let p ← qualifiedPath g false
      if p.qualified then return ⟨Phrase.ofOption binder ++ p.phrase, .other⟩
      else if p.allBare && (← Reader.front fun ts => Front.op "!" ts && !Front.op "!=" ts) then
        let bang ← Reader.op "!"
        return ⟨Phrase.ofOption binder ++ p.phrase ++ bang ++ (← Reader.unreadGroup), .other⟩
      else pathSum g allowPlus binder p) := rfl
  rw [run, run]
  refine .bind (D := K + 1) (M := fun _ => PathTypeEnd E) (by omega)
    ((qualifiedPath_echo h fun _ _ => PathTypeEnd.path hE).weaken
    fun u => typeStart_of_path hts) fun p r _ => ?_
  have hprinted : (Form.option .phrase).tokens binder ++ Form.path.tokens p =
      (Phrase.ofOption binder ++ p.phrase).printed := by simp [Phrase.printed_ofOption, Form.path]
  show EchoAt L _ _ _ _ (if p.qualified = true then _ else _)
    (if p.qualified = true then _ else _) r
  cases p.qualified
  · show EchoAt L _ _ _ _ (Reader.front _ >>= fun b => if (p.allBare && b) = true then _ else _)
      (Reader.front _ >>= fun b => if (p.allBare && b) = true then _ else _) r
    cases p.allBare
    · simp only [Bool.false_and, Bool.false_eq_true, if_false, Reader.front_ignored]
      exact (pathSum_echo h hJ hE allowPlus binder p).weaken fun _ => .inr
    · simp only [Bool.true_and]
      refine .ask (Y := OnOperator "!" fun ts u => ∃ d, OnToken (.opening d) .any ts u)
        (N := fun ts u => OnOperator "+" .any ts u ∨ E ts u) (fun _ => ?_)
          (fun _ => pathSum_echo h hJ hE allowPlus binder p)
        (fun hr u hu => ⟨?_, .inl hu⟩) fun hr u hu => ⟨?_, .inr hu⟩
      · rw [hprinted]
        refine .op_then (by decide) fun _ => ?_
        exact EchoAt.unreadGroup.last (D := L) (by omega) (by simp [Form.type, Form.phrase])
          (by simp [Form.type, Form.phrase, Form.path])
      · have hno : Front.op "!=" u = false := (hu.op (by decide) _).trans (by decide)
        simp [hu.op_self (by decide), hno]
      · rcases hu with hu | hu
        · have hno : Front.op "!" u = false := (hu.op (by decide) _).trans (by decide)
          simp [hno]
        · exact (hE _ _ hu).call hr
  · exact .pure hprinted.symm (by simp [Form.type, Form.path]) fun _ hu => .inr (.inr hu)

/-! ## All types -/

/-- A type behind the binder that it may start with. -/
def typeBody (g : Nesting) (allowPlus : Bool) (binder : Option Phrase) : Reader TypePhrase := do
  if ← Reader.front (Front.opening .paren) then parenType g allowPlus
  else if ← Reader.front startsFunction then
    return ⟨Phrase.ofOption binder ++ (← functionType g), .other⟩
  else if ← Reader.front startsPath then pathType g allowPlus binder
  else if ← Reader.front (Front.word "dyn") then objectType g allowPlus
  else if ← Reader.front (Front.opening .bracket) then bracketType g
  else if ← Reader.front (Front.op "*") then pointerType g
  else if ← Reader.front (Front.op "&") then referenceType g
  else if ← Reader.front (Front.op "!") then return ⟨← Reader.op "!", .other⟩
  else if ← Reader.front (Front.word "impl") then hiddenType g allowPlus
  else if ← Reader.front (Front.word "_") then return ⟨← Reader.word "_", .other⟩
  else if ← Reader.front Front.lifetime then
    return ⟨boundsPhrase (← objectBounds g true), .other⟩
  else Reader.missing typeStarts

theorem functionType_bound_echo (h : g.Echo g' K J) (hL : L ≤ K + 1)
    (hE : ∀ r w, E r w → TypeEnd r w) (binder : Option Phrase) :
    EchoAt L .type ((Form.option .phrase).tokens binder) (TypeStart E) (fun _ => E)
      (functionType g >>= fun t => pure ⟨Phrase.ofOption binder ++ t, .other⟩)
      (functionType g' >>= fun t => pure ⟨Phrase.ofOption (binder.map Phrase.canonical) ++ t,
        .other⟩) ts :=
  (functionType_echo h hE).last (by omega)
    (by simp [Form.type, Form.phrase, Phrase.printed_ofOption]) (by simp [Form.type, Form.phrase])

/-- The start of a type that is a sum of bounds, the first of which is a lifetime. -/
theorem objectBounds_lifetime (hts : Front.lifetime ts = true) (h : g.Echo g' K J) (hL : L ≤ J)
    (hE : ∀ r w, E r w → TypeEnd r w) :
    EchoAt L (.list "+" (.marked .phrase)) [] (TypeStart E) (fun _ => E) (objectBounds g true)
      (objectBounds g' true) ts := by
  have run (g : Nesting) : objectBounds g true = (do
      let first ← g.bound ⟨false, false⟩
      match ← Reader.op? "+" with
      | none =>
        if namesTrait [(first, false)] then return [(first, false)]
        else Reader.breaks .objectNeedsTrait
      | some _ =>
        let more ← Reader.chain (fun ts => !startsBound false ts) "+" (g.bound ⟨false, false⟩)
        if namesTrait ((first, true) :: more) then return (first, true) :: more
        else Reader.breaks .objectNeedsTrait) := by
    unfold objectBounds boundSum
    simp only [bind_assoc, Bool.not_true, Bool.false_eq_true, if_false]
    refine bind_congr fun first => bind_congr fun o => ?_
    cases o with
    | none => rfl
    | some plus => exact bind_assoc ..
  rw [run, run]
  refine .bind (M := fun _ => OnOperator "+" .any) (Nat.le_add_right _ _)
    ((h.bound _ _ (fun _ _ => .of_plus) ts).mono hL
    (fun u hu => ?_) fun _ _ _ _ => id) fun first r hfirst => ?_
  · obtain ⟨name, s, r, rfl⟩ := exists_of_lifetime hts
    obtain ⟨s', v, rfl⟩ : ∃ s' v, u = ⟨.lifetime name, s'⟩ :: v := by
      cases hu.alike with
      | leaf => exact ⟨_, _, rfl⟩
    have hplus : OnOperator "+" .any r v := hu.alone rfl
    refine ⟨hu.toOnset, fun h => ?_, rfl, fun _ => hplus.op_self (by decide)⟩
    rcases h with h | h | h <;> cases h
  · refine .op? (N := fun _ _ => False) (M := .any) (by decide) (fun _ => ?_) (fun _ => ?_)
      (fun _ => id) fun _ u hu => hu.elim
    · refine .bind (D := L) (M := fun _ => E) (by omega)
        (((moreBounds_echo h hE ⟨false, false⟩).weaken fun _ _ => trivial).mono hL
        (fun _ => id) fun _ _ _ _ => id) fun more r _ => ?_
      have hcanon := namesTrait_canon ((first, true) :: more)
      simp only [Form.list, List.map_cons] at hcanon
      simp only [Form.list, hcanon]
      split
      · exact .pure (by simp) (by simp) fun _ h => h
      · exact .breaks _
    · have : namesTrait [(first, false)] = false := by
        obtain ⟨kind, p⟩ := first
        obtain rfl : kind = .lifetime := h.lifetimeBound _ _ _ _ hts hfirst
        rfl
      rw [this]
      exact .breaks _

theorem typeBody_echo (h : g.Echo g' K J) (hL : L ≤ K + 1) (hJ : L ≤ J)
    (hE : ∀ r w, E r w → TypeEnd r w) (allowPlus : Bool) :
    EchoAt L .type [] (TypeStart E) (fun _ => E) (typeBody g allowPlus none)
      (typeBody g' allowPlus none) ts := by
  unfold typeBody
  refine .ask_eq (fun u hu => hu.opening _) (fun _ => parenType_echo h hL hJ hE _) fun _ => ?_
  refine .ask_eq (fun u hu => hu.startsFunction) (fun _ => functionType_bound_echo h hL hE none)
    fun _ => ?_
  refine .ask_eq (fun u hu => hu.startsPath) (fun hts => pathType_echo h hL hJ hE _ none hts)
    fun _ => ?_
  refine .ask_eq (fun u hu => hu.word _) (fun _ =>
    (objectType_echo h hE _).mono (by omega) (fun _ => id) fun _ _ _ _ => id) fun _ => ?_
  refine .ask_eq (fun u hu => hu.opening _) (fun _ => bracketType_echo h hL) fun _ => ?_
  refine .ask_eq (fun u hu => hu.sign rfl) (fun _ => (pointerType_echo h hE).mono hL (fun _ => id)
    fun _ _ _ _ => id) fun _ => ?_
  refine .ask_eq (fun u hu => hu.sign rfl) (fun _ => (referenceType_echo h hE).mono hL (fun _ => id)
    fun _ _ _ _ => id) fun _ => ?_
  refine .ask_eq (fun u hu => hu.sign rfl) (fun _ => ?_) fun _ => ?_
  · exact ((EchoAt.op (by decide)).weaken fun u => .of_operator (by decide)).last
      (Nat.le_add_right L _) (by simp [Form.type, Form.phrase]) fun _ => rfl
  refine .ask_eq (fun u hu => hu.word _) (fun _ =>
    (hiddenType_echo h hE _).mono (by omega) (fun _ => id) fun _ _ _ _ => id) fun _ => ?_
  refine .ask_eq (fun u hu => hu.word _) (fun _ => ?_) fun _ => ?_
  · refine (EchoAt.word.weaken fun u hu =>
      ⟨.of_token (by simp) (by simp) hu, fun _ => .inl hu.behind, ?_, ?_⟩).last
      (Nat.le_add_right L _) (by simp [Form.type, Form.phrase]) fun _ => rfl
    all_goals obtain ⟨s, r, s', v, -, rfl, -⟩ := hu
    · rfl
    · intro hts
      cases hts
  refine .ask_eq (fun u hu => hu.lifetime) (fun hts => ?_) fun _ => .missing _
  exact (objectBounds_lifetime hts h hJ hE).last (by omega)
    (by simp [Form.type, boundsPhrase_printed]) (by simp [Form.type, boundsPhrase_canonical])

theorem boundTypeBody_echo (h : g.Echo g' K J) (hL : L ≤ K + 1) (hJ : L ≤ J)
    (hE : ∀ r w, E r w → TypeEnd r w) (allowPlus : Bool) (binder : Phrase)
      (hts : followsBinder ts = true) :
    EchoAt L .type binder.printed (TypeStart E) (fun _ => E) (typeBody g allowPlus (some binder))
      (typeBody g' allowPlus (some binder.canonical)) ts := by
  unfold typeBody
  refine .ask_eq (fun u hu => hu.opening _) (fun h => ?_) fun _ => ?_
  · obtain ⟨s, r, rfl⟩ := exists_of_opening h
    cases hts
  refine .ask_eq (fun u hu => hu.startsFunction) (fun _ =>
    functionType_bound_echo h hL hE (some binder)) fun hf => ?_
  refine .ask_eq (fun u hu => hu.startsPath) (fun hts =>
    pathType_echo h hL hJ hE _ (some binder) hts) fun hp => ?_
  simp only [followsBinder, hf] at hts
  simp only [startsPath, Bool.or_eq_false_iff] at hp
  simp [hp] at hts

theorem type_eq (g : Nesting) (allowPlus : Bool) : type g allowPlus = (do
    let binder ← binder? g
    if binder.isSome && !(← Reader.front followsBinder) then Reader.missing binderFollowers
    else typeBody g allowPlus binder) := rfl

theorem type_echo (h : g.Echo g' K J) (hL : L ≤ K + 1) (hJ : L ≤ J)
    (hE : ∀ r w, E r w → TypeEnd r w) (allowPlus : Bool) :
    EchoAt L .type [] (TypeStart E) (fun _ => E) (type g allowPlus) (type g' allowPlus) ts := by
  have hstart {ts u : List Placed} (hu : BinderStart (TypeStart E) ts u) : TypeStart E ts u :=
    hu.elim (.of_word (by decide) (by decide)) And.right
  rw [type_eq, type_eq]
  refine .bind (D := K + 2) (M := fun _ => TypeStart E) (by omega)
    ((binder?_echo h (M := TypeStart E) (W := TypeStart E) fun ts u hu => .of_eq (hu.word _)).mono
      le_rfl (fun _ => hstart)
      fun b _ _ _ hw => by cases b <;> exact hw) fun binder r _ => ?_
  cases binder with
  | none =>
    simp only [Form.option, Option.map_none, Option.isSome_none, Bool.false_and, Bool.false_eq_true,
      if_false, Reader.front_ignored]
    exact typeBody_echo h hL hJ hE allowPlus
  | some binder =>
    simp only [Form.option, Option.map_some, Option.isSome_some, Bool.true_and, Reader.ask_not]
    exact .ask_eq (fun u hu => hu.followsBinder) (fun hr =>
      boundTypeBody_echo h hL hJ hE allowPlus binder hr)
      fun _ => .missing _

end Grammar

end KeyedRecord.Source
