import KeyedRecord.Proofs.Source.EchoPaths

/-!
# Bounds echo

A bound is a lifetime, a trait with what stands before it, a list of captured names, or any of these
in parentheses.  Each starts with a token that no other starts with.

Principal result: `bound_echo`.
-/

set_option autoImplicit false

namespace KeyedRecord.Source

namespace Grammar

variable {g g' : Nesting} {K J L : Nat} {ts : List Placed} {E : Sight}

/-! ## The parts of a trait with its modifiers -/

/-- The word that says where a trait holds, with its brackets. -/
def constness (allowConst : Bool) : Reader Phrase := do
  if ← Reader.front (Front.opening .bracket) then
    let w ← Reader.inside .bracket (Reader.word "const")
    if !allowConst then Reader.breaks .conditionalConst else return .bracketed .bracket w
  else if ← Reader.front (Front.word "const") then
    let w ← Reader.word "const"
    if !allowConst then Reader.breaks .unconditionalConst else return w
  else return .empty

/-- A binder, where one may stand. -/
def binderIf (g : Nesting) (allowed : Bool) : Reader (Option Phrase) :=
  if allowed then binder? g else pure none

/-- The arguments of a trait between parentheses; the double colon before them is not kept. -/
def traitArguments (g : Nesting) (bare : Bool) : Reader Phrase :=
  if bare then do
    if ← Reader.front startsParenthesized then
      let _ ← Reader.op? "::"
      parenthesizedArguments g
    else return .empty
  else return .empty

theorem traitBound_eq (g : Nesting) (allowConst : Bool) : traitBound g allowConst = (do
    let binder ← binder? g
    let const ← constness allowConst
    let relaxed ← Reader.op? "?"
    let inner ← binderIf g (binder.isNone && relaxed.isSome)
    let p ← path g false
    let args ← traitArguments g p.lastIsBare
    if (binder.isSome || inner.isSome) && relaxed.isSome then Reader.breaks .relaxedBinder
    else return Phrase.ofOption binder ++ const ++ Phrase.ofOption relaxed ++
    p.phrase ++ args) := by
  unfold traitBound constness binderIf traitArguments
  simp only [Reader.ite_bind, bind_assoc, pure_bind, Reader.front_late]

theorem constness_echo {allowConst : Bool} :
    EchoAt L .phrase [] Onset (fun _ => Onset) (constness allowConst)
      (constness allowConst) ts := by
  unfold constness
  refine .ask_eq (fun u hu => hu.opening _) (fun _ => ?_) fun _ =>
    .ask_eq (fun u hu => hu.word _) (fun _ => ?_)
    fun _ => .pure rfl rfl fun _ h => h
  · refine .bind (M := fun _ => Onset) (Nat.le_add_right L _)
      (EchoAt.mono (.inside (fun s r _ => .word))
      (Nat.le_add_right L 2) (fun _ => .of_token (by simp) (by simp)) fun _ _ _ _ => id)
      fun w r _ => ?_
    cases allowConst
    · exact .breaks _
    · exact .pure (by simp [Form.inside, Form.phrase]) rfl fun _ h => h
  · refine .bind (M := fun _ => Onset) (Nat.le_add_right L _)
      (EchoAt.word.weaken fun _ => .of_token (by simp) (by simp)) fun w r _ => ?_
    cases allowConst
    · exact .breaks _
    · exact .pure rfl rfl fun _ h => h

theorem binderIf_echo (h : g.Echo g' K J) (allowed : Bool) :
    EchoAt (K + 2) (.option .phrase) [] Onset (fun _ => Onset) (binderIf g allowed)
      (binderIf g' allowed) ts := by
  unfold binderIf
  cases allowed
  · exact .pure rfl rfl fun _ h => h
  · refine ((binder?_echo h (M := Onset) (W := Onset) fun ts u hu => .of_eq (hu.word _)).mono le_rfl
      (fun u hu => ?_) fun a r w _ hw => ?_)
    · exact hu.elim (.of_token (by simp) (by simp)) And.right
    · cases a <;> exact hw

/-- What stands in print behind the path of a trait. -/
def TraitEnd (E : Sight) : Sight := fun ts u => E ts u ∨ Front.opening .paren u = true

theorem exists_of_opening {d : Delimiter} {u : List Placed} (h : Front.opening d u = true) :
    ∃ s v, u = ⟨.opening d, s⟩ :: v := by
  rcases u with _ | ⟨⟨t, s⟩, v⟩
  · cases h
  · cases t <;> simp only [Front.opening, Bool.false_eq_true, beq_iff_eq] at h
    subst h
    exact ⟨s, v, rfl⟩

theorem TraitEnd.path (hE : ∀ r w, E r w → TypeEnd r w) {u : List Placed} (h : TraitEnd E ts u) :
    PathEnd false ts u := by
  rcases h with h | h
  · exact (hE _ _ h).toPathEnd
  · obtain ⟨s, v, rfl⟩ := exists_of_opening h
    exact .of_no_op (fun _ hs => op_of_leaf (by simp) hs s v) _

theorem traitArguments_echo (h : g.Echo g' K J) (hE : ∀ r w, E r w → TypeEnd r w) (bare : Bool) :
    EchoAt (K + 2) .phrase [] (TraitEnd E) (fun _ => E) (traitArguments g bare)
      (traitArguments g' bare)
      ts := by
  unfold traitArguments
  cases bare
  · exact .pure rfl rfl fun _ => .inl
  · refine .ask (Y := fun _ u => Front.opening .paren u = true) (N := E) (fun _ => ?_)
      (fun _ => .pure rfl rfl fun _ h => h) (fun _ u hu =>
        ⟨by simp [startsParenthesized, hu], .inr hu⟩)
      fun hts u hu => ⟨(hE _ _ hu).parenthesized hts, .inl hu⟩
    refine .op?_dropped (fun u hu => ?_) fun ts =>
      (parenthesizedArguments_echo h hE).weaken fun u hu => ?_
    · obtain ⟨s, v, rfl⟩ := exists_of_opening hu
      exact op_of_leaf (by simp) (by decide) s v
    · obtain ⟨s, r, s', v, -, rfl, -⟩ := hu
      rfl

theorem traitBound_echo (h : g.Echo g' K J) (hE : ∀ r w, E r w → TypeEnd r w) (allowConst : Bool) :
    EchoAt (K + 1) .phrase [] Onset (fun _ => E) (traitBound g allowConst)
      (traitBound g' allowConst) ts := by
  rw [traitBound_eq, traitBound_eq]
  refine .bind (M := fun _ => Onset) (by simp) (binderIf_echo h true) fun binder r _ => ?_
  refine .bind (M := fun _ => Onset) (Nat.le_add_right _ _) constness_echo fun const r _ => ?_
  refine .bind (M := fun _ => Onset) (Nat.le_add_right _ _) (.optional (by decide)
    (fun u => .of_operator (by decide)) fun hts u hu => ⟨(hu.sign rfl).trans hts, hu⟩)
    fun relaxed r _ => ?_
  simp only [Form.option, Option.isNone_map, Option.isSome_map]
  refine .bind (D := K + 2) (M := fun _ => Onset) (by omega) (binderIf_echo h _)
    fun inner r hinner => ?_
  refine .bind (D := K + 1) (M := fun _ => TraitEnd E) (by omega)
    ((path_echo h fun _ _ => TraitEnd.path hE).weaken
    fun _ => PathStart.onset) fun p r _ => ?_
  refine .bind (D := K + 2) (M := fun _ => E) (by omega) (traitArguments_echo h hE _)
    fun args r _ => ?_
  simp only [Form.option, Option.isSome_map]
  split
  · exact .breaks _
  · rename_i hallowed
    obtain rfl : inner = none := by
      cases relaxed with
      | none =>
        simp only [binderIf, Option.isSome_none, Bool.and_false, Bool.false_eq_true,
          if_false] at hinner
        cases hinner
        rfl
      | some p => exact (show binder = none ∧ inner = none by simpa using hallowed).2
    exact .pure (by simp [Form.phrase, Form.path, Form.option, Phrase.printed_ofOption])
      (by simp [Form.phrase, Form.path]) fun _ h => h

/-! ## All bounds -/

theorem preciseCapture_echo : EchoAt L .phrase [] (OnToken (.ident "use") .any) (fun _ => E)
    preciseCapture preciseCapture ts := by
  unfold preciseCapture
  refine .word_then fun s r _ => ?_
  refine EchoAt.weaken (.op_then (M := .any) (by decide) fun _ => ?_) fun _ _ => trivial
  refine .bind (D := L) (G := .list "," .phrase) (M := fun _ => OnOperator ">" E) (by simp)
    ((EchoAt.angles (I := Onset) (fun ts => ?_) (fun ts u hu => hu.not_close) _).weaken fun _ _ =>
      trivial)
    fun items r _ => ?_
  · refine .ask_eq (fun u hu => hu.lifetime) (fun _ => ?_) fun _ => .ask_eq (fun u hu => hu.word _)
      (fun _ => ?_) fun _ => ?_
    · exact EchoAt.lifetime.weaken fun u ⟨name, hu⟩ => .of_token (by simp) (by simp) hu
    · exact EchoAt.last (F := .phrase) (EchoAt.anyWord.weaken fun u ⟨w, hu⟩ =>
        .of_token (by simp) (by simp) hu)
        (Nat.le_add_right _ _) (fun _ => rfl) fun _ => rfl
    · exact EchoAt.last (F := .phrase) (EchoAt.identifier.weaken fun u ⟨w, _, hu⟩ =>
        .of_token (by simp) (by simp) hu)
        (Nat.le_add_right _ _) (fun _ => rfl) fun _ => rfl
  · refine .op_then (by decide) fun _ => ?_
    exact .pure (by simp [Form.phrase, Phrase.printed_separated])
      (by simp [Form.phrase, Phrase.canonical_separated]) fun _ h => h

theorem bound_echo (h : g.Echo g' K J) (hE : ∀ r w, E r w → TypeEnd r w) (rules : BoundRules) :
    EchoAt (K + 1) (.marked .phrase) [] (BoundStart E) (fun _ => E) (bound g rules) (bound g' rules)
      ts := by
  unfold bound
  refine .ask_eq (fun u hu => hu.lifetime) (fun _ => ?_) fun hlife => ?_
  · exact (EchoAt.lifetime.weaken fun u ⟨name, hu⟩ =>
      ⟨.of_token (by simp) (by simp) hu, fun _ => hu.behind⟩).last
      (Nat.le_add_right _ _) (fun _ => rfl) fun _ => rfl
  refine EchoAt.weaken (S := Onset) (.ask_eq (fun u hu => hu.word _) (fun _ => ?_) fun _ =>
    .ask_eq (fun u hu => hu.opening _) (fun _ => ?_) fun _ => ?_) fun u hu => ⟨hu, fun hl => ?_⟩
  · refine .bind (M := fun _ => E) (Nat.le_add_right _ _)
      (preciseCapture_echo.weaken fun _ => .of_token (by simp) (by simp)) fun p r _ => ?_
    cases rules.capture
    · exact .breaks _
    · exact .pure rfl rfl fun _ h => h
  · have inner (r : List Placed) : EchoAt (K + 1) .phrase [] _ (fun _ => OnClosing)
        (traitBound g rules.const) (traitBound g' rules.const) r :=
      traitBound_echo h (fun _ _ hw => .of_ends hw.ends_right) rules.const
    exact ((EchoAt.inside fun _ r _ => inner r).mono (Nat.le_add_right _ _)
      (fun u hu => .of_token (by simp) (by simp) hu) fun _ _ _ _ => id).last
      (by simp) (by simp [Form.marked, Form.inside, Form.phrase]) fun _ => rfl
  · exact (traitBound_echo h hE _).last (Nat.le_add_right _ _) (fun _ => rfl) fun _ => rfl
  · rw [hu.lifetime, hlife] at hl
    cases hl

end Grammar

end KeyedRecord.Source
