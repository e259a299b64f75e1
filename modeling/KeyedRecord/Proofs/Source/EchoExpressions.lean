import KeyedRecord.Proofs.Source.EchoOperands

/-!
# Expressions echo

What goes on behind an operand is decided by the sign that stands there.  The print shows the same
sign, and where the source shows none the print shows none.

Principal result: `expr_echo`.
-/

set_option autoImplicit false

namespace KeyedRecord.Source

open Grammar

variable {g g' : Nesting} {K J L : Nat} {M E : Sight} {ts u : List Placed} {b f : Bool}

/-- Readers may be replaced by ones that do the same here and where the print stands for it. -/
theorem EchoAt.replace {α : Type} {F : Form α} {pre : List Token} {S : Sight} {E : α → Sight}
    {p q p₀ q₀ : Reader α}
    (h : EchoAt L F pre S E p₀ q₀ ts) (hp : p ts = p₀ ts) (hq : ∀ u, S ts u → q u = q₀ u) :
    EchoAt L F pre S E p q ts := by
  intro hs a r hr
  obtain ⟨hsuf, out, ho, hf, h⟩ := h hs a r (hp ▸ hr)
  refine ⟨hsuf, out, ho, hf, fun us w hu he => ?_⟩
  obtain ⟨hS, hq₀⟩ := h us w hu he
  exact ⟨hS, fun hl => (hq _ hS).trans (hq₀ hl)⟩

/-- What follows an operand and is not empty ends as an expression does. -/
theorem EchoAt.notEmpty {S : Sight} {p q : Reader Phrase}
    (h : EchoAt L .phrase [] S (fun _ => ExprEnd b) p q ts)
    (hS : ∀ u, S ts u → u ≠ []) : EchoAt L .phrase [] S
      (fun more => LooseEnd b (f && more.printed.isEmpty)) p q ts := by
  refine .of_sound fun hsound => h.mono le_rfl (fun _ => id) fun more r w hp hw => LooseEnd.expr ?_
  have hne : more.printed ≠ [] := h.printed_ne hsound hp (.of_ends rfl b) fun hnil => hS _ hnil rfl
  rwa [List.isEmpty_eq_false_iff.mpr hne, Bool.and_false] at hw

namespace Grammar

/-! ## Operators -/

/-- An operator with the operand behind it. -/
def afterOperator (g : Nesting) (allowStruct : Bool) (s : String) (rest : Reader Phrase) :
    Reader Phrase := do
  let o ← Reader.op s
  let (p, _) ← operand g allowStruct
  return o ++ p ++ (← rest)

/-- A cast. -/
def afterCast (g : Nesting) (rest : Reader Phrase) : Reader Phrase := do
  let w ← Reader.word "as"
  let t ← g.typeWithoutPlus
  return w ++ t ++ (← rest)

/-- The end of a range. -/
def rangeEnd (g : Nesting) (allowStruct : Bool) (rest : Reader Phrase) (dots : Phrase) :
    Reader Phrase := do
  let (p, _) ← operand g allowStruct
  return dots ++ p ++ (← rest)

/-- No end of a range stands here. -/
def isOpen (allowStruct : Bool) (ts : List Placed) :
    Bool := !startsValue ts || (!allowStruct && Front.opening .brace ts)

/-- A range, which may be open behind two dots. -/
def range (g : Nesting) (allowStruct : Bool) (rest : Reader Phrase) : Reader Phrase := do
  if ← Reader.front (Front.op "..=") then Reader.op "..=" >>= rangeEnd g allowStruct rest
  else
    let dots ← Reader.op ".."
    if ← Reader.front (isOpen allowStruct) then return dots else rangeEnd g allowStruct rest dots

/-- What stands behind an operand where no operator does. -/
def withoutOperator (g : Nesting) (allowStruct inRange : Bool) (rest ending : Reader Phrase) :
    Reader Phrase := do
  if ← Reader.front (Front.word "as") then afterCast g rest
  else if ← Reader.front fun ts => !inRange && Front.op ".." ts then range g allowStruct ending
  else return .empty

/-- A comparison stands before what follows an operator. -/
def comparedBehind (kind : OperatorKind) (compared : Bool) : Bool :=
  match kind with
  | .tight => compared
  | .comparison => true
  | _ => false

variable {n : Nat} {compared inRange : Bool} {s : String} {kind : OperatorKind}

theorem front_apply {α : Type} (P : List Placed → Bool) (k : Bool → Reader α) (ts : List Placed) :
    (Reader.front P >>= k) ts = k (P ts) ts := rfl

theorem operatorsFuel_some (h : operator? ts = some (s, kind)) :
    operatorsFuel g b (n + 1) compared inRange ts =
      (if kind == .comparison && compared then Reader.breaks .chainedComparison
      else if kind == .assignment && inRange then return .empty
      else afterOperator g b s (operatorsFuel g b n (comparedBehind kind compared) inRange))
      ts := by
  rw [operatorsFuel]
  refine (Reader.bind_of_ok (a := ts) (r := ts) rfl).trans ?_
  simp only [h]
  rfl

theorem operatorsFuel_none (h : operator? ts = none) :
    operatorsFuel g b (n + 1) compared inRange ts =
      withoutOperator g b inRange (operatorsFuel g b n compared inRange)
        (operatorsFuel g b n false true) ts := by
  rw [operatorsFuel]
  refine (Reader.bind_of_ok (a := ts) (r := ts) rfl).trans ?_
  simp only [h]
  unfold withoutOperator
  rw [Reader.ask_apply, Reader.ask_apply]
  split
  · rfl
  · rw [Reader.ask_apply, front_apply]
    split
    · rw [range, Reader.ask_apply, front_apply]
      cases Front.op "..=" ts <;> rfl
    · rfl

/-- The start of a range. -/
def RangeStart : Sight := fun ts u => OnOperator "..=" AtomStart ts u ∨ OnOperator ".." .any ts u

theorem RangeStart.atom (h : RangeStart ts u) : AtomStart ts u :=
  h.elim (.of_operator (by decide)) (.of_operator (by decide))

theorem RangeStart.expr (h : RangeStart ts u) (b : Bool) : ExprEnd b ts u :=
  h.elim (fun h => .of_sign (by decide) h (by simp) b) fun h => .of_sign (by decide) h (by simp) b

/-- No word stands where an operator does. -/
theorem word_of_op (hs : s.toList ≠ []) (h : Front.op s ts = true) (w : String) :
    Front.word w ts = false := by
  rcases ts with _ | ⟨⟨t, sp⟩, r⟩
  · rfl
  · cases t with
    | ident x => exact absurd h (by simp [op_of_leaf (t := .ident x) (by simp) hs])
    | _ => rfl

/-- Where a range ends before an assignment in the source, it ends in print. -/
theorem operatorsFuel_ends (h : operator? ts = some (s, kind))
    (hassigned : (kind == .assignment && inRange) = true)
    (hchained : ¬(kind == .comparison && compared) = true) (hu : ExprEnd b ts u) :
    operatorsFuel g b (n + 1) compared inRange u = (pure .empty : Reader Phrase) u := by
  obtain rfl : inRange = true := (Bool.and_eq_true_iff.mp hassigned).2
  rcases hu.operator with hnone | heq
  · rw [operatorsFuel_none hnone, withoutOperator, Reader.ask_apply,
      if_neg (by simp [hu.cast (word_of_op (isOperatorText_of_operator? h).1
      (op_of_operator? h) _)])]
    rfl
  · rw [operatorsFuel_some (heq.trans h), if_neg hchained, if_pos hassigned]

section Rest

variable {rest rest' : Reader Phrase} {m : Nat}
  (hrest : ∀ ts, EchoAt (min L m) .phrase [] (ExprEnd b) (fun _ => ExprEnd b) rest rest' ts)

include hrest

theorem afterOperator_echo (h : g.Echo g' K J) (hL : L ≤ K + 1) (hJ : L ≤ J)
    (hs : IsOperatorText s.toList) :
    EchoAt (min L (m + 1)) .phrase [] (OnOperator s AtomStart) (fun _ => ExprEnd b)
      (afterOperator g b s rest)
      (afterOperator g' b s rest') ts := by
  have hpos : 0 < (operatorTokens s.toList).length := by
    rw [length_operatorTokens]
    exact List.length_pos_of_ne_nil hs.1
  unfold afterOperator
  refine .op_then hs fun _ => ?_
  refine .bind (D := L) (M := fun a => LooseEnd b a.2) (by omega) (operand_echo h hL hJ)
    fun a r _ => ?_
  refine EchoAt.weaken (.last (hrest r) ?_ (by simp [Form.phrase, Form.flagged]) fun _ =>
    by simp [Form.phrase, Form.flagged])
    fun u hu => .inl hu
  simp only [List.nil_append, List.length_append]
  omega

theorem afterCast_echo (h : g.Echo g' K J) (hL : L ≤ K + 1) :
    EchoAt (min L (m + 1)) .phrase [] (OnToken (.ident "as") .any) (fun _ => ExprEnd b)
      (afterCast g rest)
      (afterCast g' rest') ts := by
  unfold afterCast
  refine .word_then fun s r _ => ?_
  refine .bind (D := K) (M := fun _ => ExprEnd b) (by simp; omega)
    ((h.typeWithoutPlus fun _ _ hw => hw.type).weaken fun _ _ => trivial) fun t r _ => ?_
  exact (hrest r).last (by simp; omega) (by simp [Form.phrase]) fun _ => by simp [Form.phrase]

theorem rangeEnd_echo (h : g.Echo g' K J) (hL : L ≤ K + 1) (hJ : L ≤ J) {dots : Phrase}
    (hdots : 0 < dots.printed.length) :
    EchoAt (min L (m + 1)) .phrase dots.printed AtomStart (fun _ => ExprEnd b)
      (rangeEnd g b rest dots)
      (rangeEnd g' b rest' dots.canonical) ts := by
  unfold rangeEnd
  refine .bind (D := L) (M := fun a => LooseEnd b a.2) (by omega) (operand_echo h hL hJ)
    fun a r _ => ?_
  refine EchoAt.weaken (.last (hrest r) ?_ (by simp [Form.phrase, Form.flagged]) fun _ =>
    by simp [Form.phrase, Form.flagged])
    fun u hu => .inl hu
  rw [List.length_append]
  omega

theorem range_echo (h : g.Echo g' K J) (hL : L ≤ K + 1) (hJ : L ≤ J) :
    EchoAt (min L (m + 1)) .phrase [] RangeStart (fun _ => ExprEnd b) (range g b rest)
      (range g' b rest') ts := by
  unfold range
  refine .ask (Y := OnOperator "..=" AtomStart) (N := OnOperator ".." .any) (fun _ => ?_)
    (fun _ => ?_) (fun _ u hu => ⟨hu.op_self (by decide), .inl hu⟩) fun hts u hu =>
      ⟨(hu.op (by decide) _).trans (by decide), .inr hu⟩
  · exact .op_then (by decide) fun _ => rangeEnd_echo hrest h hL hJ (by decide)
  · refine .op_then (by decide) fun _ => ?_
    refine .ask (Y := ExprEnd b) (N := AtomStart) (fun _ =>
      .pure (by simp [Form.phrase]) rfl fun _ h => h)
      (fun _ => rangeEnd_echo hrest h hL hJ (by decide)) (fun hts u hu => ⟨?_, trivial⟩)
        fun hts u hu => ⟨?_, trivial⟩
    · have := hu.plainValue
      simp only [Denies, isOpen] at this hts ⊢
      grind
    · have hvalue := hu.startsValue
      simp only [isOpen, hu.opening] at hts ⊢
      grind

end Rest

section Operators

variable {n m : Nat} {compared inRange f : Bool}
  (hrest : ∀ compared inRange ts, EchoAt (min L m) .phrase [] (ExprEnd b) (fun _ => ExprEnd b)
    (operatorsFuel g b n compared inRange) (operatorsFuel g' b m compared inRange) ts)

theorem noOperators_echo : EchoAt (min L (m + 1)) .phrase [] (LooseEnd b f)
    (fun more => LooseEnd b (f && more.printed.isEmpty)) (pure .empty) (pure .empty) ts :=
  .pure rfl rfl fun u hu => by simpa using hu

include hrest

/-- An operator behind an operand, which ends a range if it is an assignment. -/
theorem operatorsFuel_echo_some (h : g.Echo g' K J) (hL : L ≤ K + 1) (hJ : L ≤ J)
    (hf : inRange = true → f = false) (hop : operator? ts = some (s, kind)) :
    EchoAt (min L (m + 1)) .phrase [] (LooseEnd b f)
      (fun more => LooseEnd b (f && more.printed.isEmpty))
      (operatorsFuel g b (n + 1) compared inRange) (operatorsFuel g' b (m + 1) compared inRange)
      ts := by
  have hs := isOperatorText_of_operator? hop
  by_cases hchained : (kind == .comparison && compared) = true
  · exact .of_error fun a r hr => by rw [operatorsFuel_some hop, if_pos hchained] at hr; cases hr
  by_cases hassigned : (kind == .assignment && inRange) = true
  · obtain rfl := hf (Bool.and_eq_true_iff.mp hassigned).2
    refine .replace noOperators_echo
      (by rw [operatorsFuel_some hop, if_neg hchained, if_pos hassigned]) fun u hu => ?_
    exact operatorsFuel_ends hop hassigned hchained hu.expr
  · refine EchoAt.weaken (S := OnOperator s AtomStart) (.replace
      ((afterOperator_echo (hrest (comparedBehind kind compared) inRange) h hL hJ hs).notEmpty
      fun u hu => ?_) ?_ fun u hu => ?_) fun u hu => ?_
    · rintro rfl
      exact absurd (hu.op_self hs.1) (by simp [op_of_ends (u := []) rfl s hs.1])
    · rw [operatorsFuel_some hop, if_neg hchained, if_neg hassigned]
    · have hu := hu.mono (W := Onset) fun _ hw => hw.toOnset
      rw [operatorsFuel_some ((operator?_eq hop hu).trans hop), if_neg hchained,
        if_neg hassigned]
    · exact .inl (.of_operator? hop (hu.mono fun _ hw => hw.toOnset) b)

/-- A cast, a range or the end of the expression behind an operand. -/
theorem operatorsFuel_echo_none (h : g.Echo g' K J) (hL : L ≤ K + 1) (hJ : L ≤ J)
    (hop : operator? ts = none) :
    EchoAt (min L (m + 1)) .phrase [] (LooseEnd b f)
      (fun more => LooseEnd b (f && more.printed.isEmpty))
      (operatorsFuel g b (n + 1) compared inRange) (operatorsFuel g' b (m + 1) compared inRange)
      ts := by
  refine .replace ?_ (operatorsFuel_none hop) fun u hu => operatorsFuel_none (hu.operator hop)
  unfold withoutOperator
  refine .ask (Y := OnToken (.ident "as") .any) (N := LooseEnd b f)
    (fun _ => (afterCast_echo (hrest compared inRange) h hL).notEmpty fun u hu => ?_)
      (fun _ => ?_)
    (fun _ u hu => ⟨?_, .inl (.of_word hu _)⟩) fun hts u hu => ⟨hu.cast hts, hu⟩
  · obtain ⟨s, r, s', v, -, rfl, -⟩ := hu
    simp
  · refine .ask (Y := RangeStart) (N := LooseEnd b f)
      (fun _ => (range_echo (hrest false true) h hL hJ).notEmpty fun u hu => ?_)
      (fun _ => noOperators_echo) (fun hts u hu => ⟨?_, .inl (hu.expr b)⟩)
      fun hts u hu => ⟨?_, hu⟩
    · rintro rfl
      exact Bool.false_ne_true (hu.atom.ends_right.symm.trans rfl)
    · have hdots : Front.op ".." u = true := by
        rcases hu with hu | hu
        · exact (hu.op (by decide) _).trans (by decide)
        · exact hu.op_self (by decide)
      simpa [hdots] using (Bool.and_eq_true_iff.mp hts).1
    · cases inRange with
      | true => rfl
      | false => exact hu.range hts
  · obtain ⟨s, r, s', v, -, rfl, -⟩ := hu
    simp [Front.word]

end Operators

/-- **What stands behind an operand echoes.**  Behind a range nothing but its end may follow, so
that the range is no statement of its own. -/
theorem operatorsFuel_echo (h : g.Echo g' K J) (hL : L ≤ K + 1) (hJ : L ≤ J) (n m : Nat)
    {compared inRange f : Bool} (hf : inRange = true → f = false) (ts : List Placed) :
    EchoAt (min L m) .phrase [] (LooseEnd b f) (fun more => LooseEnd b (f && more.printed.isEmpty))
      (operatorsFuel g b n compared inRange) (operatorsFuel g' b m compared inRange) ts := by
  induction n generalizing m compared inRange f ts with
  | zero => exact .failWith _
  | succ n ih =>
    refine .rounds (k := fun m => operatorsFuel g' b m compared inRange) (fun m => ?_) m
    have hrest (compared inRange : Bool) (ts : List Placed) :
      EchoAt (min L m) .phrase [] (ExprEnd b) (fun _ => ExprEnd b)
        (operatorsFuel g b n compared inRange) (operatorsFuel g' b m compared inRange) ts :=
      (ih m (f := false) (fun _ => rfl) ts).mono le_rfl (fun _ hu => hu.expr) fun _ _ _ _ hw =>
        .inl hw
    cases hop : operator? ts with
    | some o => exact operatorsFuel_echo_some hrest h hL hJ hf hop
    | none => exact operatorsFuel_echo_none hrest h hL hJ hop

/-- The rest of an expression behind an operand. -/
def operatorsBehind (g : Nesting) (allowStruct : Bool) : Reader Phrase := fun ts =>
  operatorsFuel g allowStruct (ts.length + 1) false false ts

theorem operatorsBehind_echo (h : g.Echo g' K J) (hL : L ≤ K + 1) (hJ : L ≤ J) :
    EchoAt L .phrase [] (LooseEnd b f) (fun more => LooseEnd b (f && more.printed.isEmpty))
      (operatorsBehind g b)
      (operatorsBehind g' b) ts :=
  .counted fun n m => operatorsFuel_echo h hL hJ n m (by simp) ts

/-- Dots are no operator, and no other operator begins with one. -/
theorem operator?_of_dots (h : Front.op ".." ts = true) : operator? ts = none := by
  cases hop : operator? ts with
  | none => rfl
  | some o =>
    obtain ⟨s, kind⟩ := o
    have hno : ∀ s ∈ "=" :: operatorTexts, ¬s.toList <+: "..".toList ∧
      ¬"..".toList <+: s.toList := by decide +kernel
    obtain ⟨hs, hdots⟩ := hno s (texts_of_operator? hop)
    exact absurd (isOperator_total (op_of_operator? hop) h) (not_or.mpr ⟨hs, hdots⟩)

theorem operatorsFuel_dots (h : Front.op ".." ts = true) :
    operatorsFuel g b (n + 1) compared false ts = range g b
      (operatorsFuel g b n false true) ts := by
  rw [operatorsFuel_none (operator?_of_dots h), withoutOperator, Reader.ask_apply,
    if_neg (by simp [word_of_op (by decide) h]), Reader.ask_apply, if_pos (by simpa using h)]

/-- A range may start an expression. -/
theorem openRange_echo (h : g.Echo g' K J) (hL : L ≤ K + 1) (hJ : L ≤ J)
    (hts : Front.op ".." ts = true) :
    EchoAt L .phrase [] RangeStart (fun _ => ExprEnd b) (operatorsBehind g b)
      (operatorsBehind g' b) ts := by
  refine .counted (f := fun n => operatorsFuel g b n false false)
    (k := fun m => operatorsFuel g' b m false false) fun n m => ?_
  cases n with
  | zero => exact .failWith _
  | succ n =>
    refine .rounds (k := fun m => operatorsFuel g' b m false false) (fun m => ?_) m
    have hrest (ts : List Placed) : EchoAt (min L m) .phrase [] (ExprEnd b) (fun _ => ExprEnd b)
        (operatorsFuel g b n false true) (operatorsFuel g' b m false true) ts :=
      (operatorsFuel_echo h hL hJ n m (f := false) (fun _ => rfl) ts).mono le_rfl
        (fun _ hu => hu.expr) fun _ _ _ _ hw => .inl hw
    refine .replace (range_echo hrest h hL hJ) (operatorsFuel_dots hts) fun u hu =>
      operatorsFuel_dots ?_
    exact hu.atom.dots_eq.trans hts

/-! ## Expressions -/

theorem exprPhrase_eq (g : Nesting) (allowStruct : Bool) : exprPhrase g allowStruct = (do
    if ← Reader.front (Front.op "..") then return (← operatorsBehind g allowStruct, false)
    else
      let (p, isStatement) ← operand g allowStruct
      let more ← operatorsBehind g allowStruct
      return (p ++ more, isStatement && more.printed.isEmpty)) := rfl

theorem exprPhrase_echo (h : g.Echo g' K J) (hL : L ≤ K + 1) (hJ : L ≤ J) :
    EchoAt L (.flagged .phrase) [] AtomStart (fun a => LooseEnd b a.2) (exprPhrase g b)
      (exprPhrase g' b) ts := by
  rw [exprPhrase_eq, exprPhrase_eq]
  refine .ask_eq (fun u hu => hu.dots_eq) (fun hts => ?_) fun _ => ?_
  · refine .bind (D := L) (M := fun _ => ExprEnd b) (by simp)
      ((openRange_echo h hL hJ hts).weaken fun _ hu => hu.atom)
      fun p r _ => .pure rfl rfl fun _ hu => hu.expr
  · refine .bind (D := L) (M := fun a => LooseEnd b a.2) (by simp) (operand_echo h hL hJ)
      fun a r _ => ?_
    exact .bind (D := L) (by omega) (operatorsBehind_echo h hL hJ) fun more r _ =>
      .pure (by simp [Form.flagged, Form.phrase]) (by simp [Form.flagged, Form.phrase]) fun _ hu =>
        hu

theorem expr_echo (h : g.Echo g' K J) (hL : L ≤ K + 1) (hJ : L ≤ J) :
    EchoAt L .phrase [] ExprStart (fun _ => ExprEnd b) (expr g b) (expr g' b) ts :=
  .bind (M := fun a => LooseEnd b a.2) (Nat.le_add_right _ _)
    ((exprPhrase_echo h hL hJ).weaken fun _ hu => hu.toExprStart)
    fun _ _ _ => .pure rfl rfl fun _ hu => .inl hu

end Grammar

end KeyedRecord.Source
