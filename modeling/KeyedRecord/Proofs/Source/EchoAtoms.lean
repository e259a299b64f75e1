import KeyedRecord.Proofs.Source.EchoClosures

/-!
# Expressions without signs echo

Literals, paths with their structures and macro calls, brackets, blocks and the words that begin an
expression.  The print starts with what the source starts with, and only a path can go on.

Principal result: `atom_echo`.
-/

set_option autoImplicit false

namespace KeyedRecord.Source

open Grammar

variable {g g' : Nesting} {K J L : Nat} {M E : Sight} {ts u : List Placed} {b : Bool}

namespace Grammar

/-! ## Lists of expressions -/

theorem exprList_echo (h : g.Echo g' K J) (d : Delimiter) :
    EchoAt (K + 2) .phrase [] (OnToken (.opening d) .any) (fun _ => E) (exprList g d)
      (exprList g' d) ts := by
  unfold exprList
  exact .last (.inside (T := .any) fun _ _ _ =>
    (EchoAt.commas (fun ts => (h.expr true ts).mono le_rfl (fun _ => id)
    fun _ _ _ _ (hw : ItemEnd _ _) => hw.expr _) (fun _ _ hu => hu.ends_right) _).weaken fun _ _ =>
    trivial)
    (by simp) (by simp [Form.phrase, Form.inside, Phrase.printed_separated])
    (by simp [Form.phrase, Form.inside, Phrase.canonical_separated])

/-- What stands between the brackets of an array. -/
def arrayBody (g : Nesting) : Reader Phrase := do
  if ← Reader.front Front.ends then return .empty
  let first ← g.expr true
  match ← Reader.op? ";" with
  | some semi => return first ++ semi ++ (← g.expr true)
  | none =>
    match ← Reader.op? "," with
    | some comma =>
      let more ← Reader.listUntil Front.ends "," (g.expr true)
      return first ++ comma ++ .separated "," more
    | none =>
      if ← Reader.front Front.ends then return first
      else Reader.missing [.operator ",", .operator ";"]

theorem arrayExpr_eq (g : Nesting) : arrayExpr g = (do
    let p ← Reader.inside .bracket (arrayBody g)
    return .bracketed .bracket p) := rfl

theorem arrayBody_echo (h : g.Echo g' K J) :
    EchoAt K .phrase [] .any (fun _ => OnClosing) (arrayBody g) (arrayBody g') ts := by
  have hlist (ts : List Placed) :=
    EchoAt.commas (fun ts => (h.expr true ts).mono le_rfl (fun _ => id)
    fun _ _ _ _ (hw : ItemEnd _ _) => hw.expr _) (fun _ _ hu => hu.ends_right) ts
  unfold arrayBody
  refine .ask (Y := OnClosing) (N := ExprStart) (fun _ => .pure rfl rfl fun _ h => h) (fun _ => ?_)
    (fun _ u hu => ⟨hu.ends_right, trivial⟩) fun _ u hu => ⟨hu.ends_right, trivial⟩
  refine .bind (D := K) (M := fun _ ts u => OnOperator ";" .any ts u ∨ ItemEnd ts u) (by simp)
    ((h.expr true ts).mono le_rfl (fun _ => id) fun _ _ _ _ hw => ?_) fun first r _ => ?_
  · exact hw.elim (fun hw => .of_sign (by decide) hw (by simp) _) (·.expr _)
  refine .op? (M := .any) (N := ItemEnd) (by decide) (fun _ => ?_) (fun _ => ?_)
    (fun u hu => .inl hu) fun _ u hu => ⟨?_, .inr hu⟩
  · refine ((h.expr true _).mono le_rfl (fun _ _ => trivial) fun _ _ _ _ hw =>
      .of_ends hw.ends_right _).last (by simp)
      (by simp [Form.phrase]) fun _ => rfl
  · refine .op? (M := .any) (N := OnClosing) (by decide) (fun _ => ?_) (fun _ => ?_)
      (fun u hu => .inl hu) fun _ u hu => ⟨op_of_ends hu.ends_right _ (by decide), .inr hu⟩
    · exact ((hlist _).weaken fun _ _ => trivial).last (by simp)
        (by simp [Form.phrase, Phrase.printed_separated])
        (by simp [Form.phrase, Phrase.canonical_separated])
    · exact .ask_eq (fun u hu => by rw [hu.ends_left, hu.ends_right])
        (fun _ => .pure (by simp [Form.phrase]) rfl fun _ h => h) fun _ => .missing _
  · rcases hu with hu | hu
    · exact (hu.op (by decide) _).trans (by decide)
    · exact op_of_ends hu.ends_right _ (by decide)

theorem arrayExpr_echo (h : g.Echo g' K J) :
    EchoAt (K + 2) .phrase [] (OnToken (.opening .bracket) .any) (fun _ => E) (arrayExpr g)
      (arrayExpr g') ts := by
  rw [arrayExpr_eq, arrayExpr_eq]
  exact .last (.inside (T := .any) fun _ _ _ => arrayBody_echo h) (by simp)
    (by simp [Form.phrase, Form.inside]) (by simp [Form.phrase, Form.inside])

/-! ## Structures -/

/-- A field of a structure behind its attributes. -/
def memberValue (g : Nesting) (attrs : Phrase) : Reader Phrase := do
  let name ← member
  match ← Reader.op? ":" with
  | some colon => return attrs ++ name ++ colon ++ (← g.expr true)
  | none => return attrs ++ name

/-- A field of a structure. -/
def fieldValue (g : Nesting) : Reader Phrase := do
  match ← Reader.op? ".." with
  | some dots => if ← Reader.front Front.ends then return dots else return dots ++ (← g.expr true)
  | none => g.attributes >>= memberValue g

theorem structFields_eq (g : Nesting) : structFields g = (do
    let items ← Reader.inside .brace (Reader.listUntil Front.ends "," (fieldValue g))
    return .bracketed .brace (.separated "," items)) := rfl

theorem memberValue_echo (h : g.Echo g' K J) (attrs : Phrase) :
    EchoAt K .phrase attrs.printed Onset (fun _ => ItemEnd) (memberValue g attrs)
      (memberValue g' attrs.canonical) ts := by
  unfold memberValue
  refine .bind (D := K) (M := fun _ ts u => OnOperator ":" .any ts u ∨ ItemEnd ts u) (by omega)
    (member_echo.weaken fun _ => onset_of_member) fun name r _ => ?_
  refine .op? (M := .any) (N := ItemEnd) (by decide) (fun _ => ?_)
    (fun _ => .pure (by simp [Form.phrase]) rfl fun _ h => h)
    (fun u hu => .inl hu) fun _ u hu => ⟨hu.not_colon, .inr hu⟩
  exact ((h.expr true _).mono le_rfl (fun _ _ => trivial) fun _ _ _ _ hw =>
    hw.expr _).last (by omega)
    (by simp [Form.phrase]) fun _ => by simp [Form.phrase]

theorem fieldValue_echo (h : g.Echo g' K J) :
    EchoAt K .phrase [] Onset (fun _ => ItemEnd) (fieldValue g) (fieldValue g') ts := by
  unfold fieldValue
  refine .op? (M := .any) (N := Onset) (by decide) (fun _ => ?_) (fun _ => ?_)
    (fun u hu => .of_operator (by decide) hu) fun hts u hu => ⟨hu.op_false hts, hu⟩
  · refine .ask (Y := ItemEnd) (N := ExprStart) (fun _ =>
      .pure (by simp [Form.phrase]) rfl fun _ h => h) (fun _ => ?_)
      (fun hts u hu => ⟨hu.ends.trans hts, trivial⟩) fun _ u hu => ⟨hu.ends_right, trivial⟩
    exact ((h.expr true _).mono le_rfl (fun _ => id) fun _ _ _ _ hw => hw.expr _).last (by simp)
      (by simp [Form.phrase]) fun _ => rfl
  · refine .bind (D := K + 3) (M := fun _ => Onset) (by simp)
      ((Attribute.attributes_echo h fun ts u hu => .of_eq (hu.sign rfl)).weaken
      fun u hu => hu.elim .of_pound And.right) fun attrs r _ => ?_
    exact memberValue_echo h attrs

theorem structFields_echo (h : g.Echo g' K J) :
    EchoAt (K + 2) .phrase [] (OnToken (.opening .brace) .any) (fun _ => E) (structFields g)
      (structFields g') ts := by
  rw [structFields_eq, structFields_eq]
  exact .last (.inside (T := .any) fun _ _ _ => (EchoAt.commas (fun _ => fieldValue_echo h)
      (fun _ _ hu => hu.ends_right) _).weaken fun _ _ => trivial) (by simp)
    (by simp [Form.phrase, Form.inside, Phrase.printed_separated])
      (by simp [Form.phrase, Form.inside, Phrase.canonical_separated])

/-! ## Paths -/

/-- What stands behind a path. -/
def AfterPath (b : Bool) : Sight := fun ts u => OnCall ts u ∨ OnToken (.opening .brace) .any ts u ∨
    ExprEnd b ts u

theorem AfterPath.pathEnd (h : AfterPath b ts u) : PathEnd true ts u := by
  rcases h with h | h | h
  · exact .of_no_colons ((OnOperator.op (by decide) h _).trans (by decide))
  · obtain ⟨s, r, s', v, rfl, rfl, -⟩ := h
    exact .of_no_op (fun x hx => op_of_leaf (by simp) hx s' v) true
  · exact h.path

theorem AfterPath.no_pointee (h : AfterPath b ts u) :
    Denies (fun ts => Front.word "mut" ts || Front.word "const" ts) ts u := by
  rcases h with h | h | h
  · exact .of_false (by simp [(OnOperator.no_leaf (by decide) h).2.2.2.1])
  · obtain ⟨s, r, s', v, rfl, rfl, -⟩ := h
    exact .of_false rfl
  · exact h.pointee

/-- A call of a macro with its arguments. -/
def macroCall (p : Phrase) : Reader ExprPhrase := do
  let bang ← Reader.op "!"
  let isBraced ← Reader.front (Front.opening .brace)
  return (p ++ bang ++ (← Reader.unreadGroup), isBraced)

/-- A path, or a structure. -/
def structExpr (g : Nesting) (allowStruct : Bool) (p : Phrase) : Reader ExprPhrase := do
  if ← Reader.front fun ts => allowStruct && Front.opening .brace ts then
    return (p ++ (← structFields g), false)
  else return (p, false)

theorem pathExpr_eq (g : Nesting) (allowStruct : Bool) : pathExpr g allowStruct = (do
    let p ← qualifiedPath g true
    if !p.qualified && p.allBare then
      if ← Reader.front startsMacro then macroCall p.phrase else structExpr g allowStruct p.phrase
    else structExpr g allowStruct p.phrase) := by
  unfold pathExpr
  refine bind_congr fun p => ?_
  cases p.qualified <;> cases p.allBare <;> rfl

theorem macroCall_echo (p : Phrase) :
    EchoAt L (.flagged .phrase) p.printed OnCall (fun _ => E) (macroCall p)
      (macroCall p.canonical) ts := by
  unfold macroCall
  refine EchoAt.weaken (.op_then (M := fun ts u => ∃ d, OnToken (.opening d) .any ts u) (by decide)
    fun _ => ?_) fun _ => id
  refine .front (fun u ⟨d, hu⟩ => Onset.opening (.of_token (by simp) (by simp) hu) _) ?_
  exact EchoAt.unreadGroup.last (Nat.le_add_right _ _) (by simp [Form.phrase, Form.flagged])
    fun _ => rfl

theorem structExpr_echo (h : g.Echo g' K J) (p : Phrase) (hL : L ≤ K + 2) :
    EchoAt L (.flagged .phrase) p.printed (fun ts u => OnToken (.opening .brace) .any ts u ∨
      ExprEnd b ts u)
      (fun _ => ExprEnd b) (structExpr g b p) (structExpr g' b p.canonical) ts := by
  unfold structExpr
  refine .ask (Y := OnToken (.opening .brace) .any) (N := ExprEnd b) (fun _ => ?_)
    (fun _ => .pure rfl rfl fun _ h => h)
    (fun hts u hu => ⟨?_, .inl hu⟩) fun hts u hu => ⟨hu.brace hts, .inr hu⟩
  · exact (structFields_echo h).last (by omega) (by simp [Form.phrase, Form.flagged]) fun _ => rfl
  · obtain ⟨s, r, s', v, -, rfl, -⟩ := hu
    simpa [Front.opening] using (Bool.and_eq_true_iff.mp hts).1

theorem structExpr_flag {p : Phrase} {a : ExprPhrase} {r : List Placed}
    (h : structExpr g b p ts = .ok (a, r)) : a.2 = false := by
  unfold structExpr at h
  rw [Reader.ask_apply] at h
  split at h
  · obtain ⟨_, _, -, h⟩ := Reader.bind_eq_ok h
    cases h
    rfl
  · cases h
    rfl

theorem pathExpr_echo (h : g.Echo g' K J) :
    EchoAt (K + 1) (.flagged .phrase) [] (QualifiedStart true (AfterPath b))
      (fun a => LooseEnd b a.2) (pathExpr g b)
      (pathExpr g' b) ts := by
  rw [pathExpr_eq, pathExpr_eq]
  refine .bind (D := K + 1) (M := fun _ => AfterPath b) (by simp)
    (qualifiedPath_echo h fun _ _ => AfterPath.pathEnd) fun p r _ => ?_
  have hstruct : EchoAt (K + 1) (.flagged .phrase) p.phrase.printed
    (fun ts u => OnToken (.opening .brace) .any ts u ∨ ExprEnd b ts u)
      (fun a => LooseEnd b a.2) (structExpr g b p.phrase) (structExpr g' b p.phrase.canonical) r :=
    (structExpr_echo h p.phrase (by omega)).mono le_rfl (fun _ => id) fun a _ _ ha hw => by
      rw [structExpr_flag ha] at hw
      exact hw.expr
  show EchoAt (K + 1) _ _ _ _ (if (!p.qualified && p.allBare) = true then _ else _)
    (if (!p.qualified && p.allBare) = true then _ else _) r
  cases !p.qualified && p.allBare with
  | false => exact hstruct.weaken fun _ => .inr
  | true =>
    refine .ask (Y := OnCall) (fun _ => ?_) (fun _ => hstruct) (fun _ u hu => ⟨?_, .inl hu⟩)
      fun hts u hu => ⟨?_, .inr hu⟩
    · exact (macroCall_echo (E := .any) p.phrase).mono le_rfl (fun _ => id) fun _ _ _ _ _ => trivial
    · simp [startsMacro, OnOperator.op (by decide) hu]
    · rcases hu with hu | hu
      · obtain ⟨s, r, s', v, rfl, rfl, -⟩ := hu
        simp [startsMacro, op_of_leaf (t := .opening .brace) (by simp) (s := "!") (by decide)]
      · exact hu.type.call hts

/-- A path starts no other expression. -/
theorem QualifiedStart.atom (h : QualifiedStart true (AfterPath b) ts u)
    (hts : startsPath ts = true) : AtomStart ts u := by
  rcases h with (h | ⟨w, h⟩) | h
  · exact .of_operator (by decide) h
  · have hO : Onset ts u := .of_token (by simp) (by simp) h
    obtain ⟨s, r, s', v, rfl, rfl, hrest⟩ := h
    refine .of_onset hO (fun hraw => ?_) fun x hx => ?_
    · simp only [Bool.and_eq_false_iff, List.drop_succ_cons, List.drop_zero] at hraw ⊢
      refine hraw.imp id fun hraw => ?_
      rcases hrest with hrest | hrest | hrest
      · exact hrest.no_pointee hraw
      · simp [(hrest.no_leaf (by decide)).2.2.2.1]
      · cases hrest.1
    · have hleaf (x : String) (hx : x.toList ≠ []) : Front.op x (⟨.ident w, s⟩ :: r) = false :=
        op_of_leaf (by simp) hx s r
      show (w == x) = false
      rw [beq_eq_false_iff_ne]
      rintro rfl
      have hcases : ∀ y ∈ leadingWords, (!Front.reserved.contains y || y == "super" || y ==
          "self" || y == "Self" || y == "crate") = false := by
        decide
      have : (!Front.reserved.contains w || w == "super" || w == "self" || w == "Self" || w ==
          "crate") = true := by
        simpa [startsPath, Front.identifier, Front.word, hleaf] using hts
      rw [hcases w hx] at this
      cases this
  · exact .of_operator (by decide) h

end Grammar

/-! ## Atoms -/

/-- A value that needs a semicolon. -/
theorem EchoAt.value {S : Sight} {p q : Reader Phrase}
    (hp : EchoAt L .phrase [] S (fun _ => ExprEnd b) p q ts) :
    EchoAt L (.flagged .phrase) [] S (fun a => LooseEnd b a.2) (do return (← p, false))
      (do return (← q, false)) ts :=
  .bind (Nat.le_add_right _ _) hp fun _ _ _ => .pure rfl rfl fun _ hu => hu.expr

/-- An expression that ends with a block. -/
theorem EchoAt.block {S : Sight} {p q : Reader Phrase}
    (hp : EchoAt L .phrase [] S (fun _ => LooseEnd b true) p q ts) :
    EchoAt L (.flagged .phrase) [] S (fun a => LooseEnd b a.2) (do return (← p, true))
      (do return (← q, true)) ts :=
  .bind (Nat.le_add_right _ _) hp fun _ _ _ => .pure rfl rfl fun _ hu => hu

theorem AtomStart.of_wordBlock {w : String} (hw : w ≠ "raw" ∧ w ≠ "async" ∧ w ≠ "for")
    (h : OnToken (.ident w) (OnToken (.opening .brace) .any) ts u) : AtomStart ts u := by
  refine .of_word hw.1 h ?_ (fun h => absurd h hw.2.1) ?_
  all_goals obtain ⟨s, r, s', v, rfl, rfl, s₁, r₁, s₂, v₁, rfl, rfl, -⟩ := h
  · rfl
  · have : (w == "for") = false := beq_eq_false_iff_ne.mpr hw.2.2
    simp [startsClosureBinder, Front.word, this]

theorem AtomStart.of_literal (h : LiteralStart ts u) : AtomStart ts u := by
  have hword (w : String) (hw : w ≠ "true" ∧ w ≠ "false") : Front.word w u = false := by
    have hlit : Front.literal u = true := h.1.literal.trans h.2
    rcases u with _ | ⟨⟨t, s⟩, v⟩
    · rfl
    · cases t with
      | ident x =>
        simp only [Front.literal, Bool.or_eq_true, beq_iff_eq] at hlit
        refine beq_eq_false_iff_ne.mpr ?_
        rintro rfl
        exact hlit.elim hw.1 hw.2
      | _ => rfl
  refine .of_onset h.1 (.of_false (by simp [hword "raw"])) fun w hw => hword w ⟨?_, ?_⟩
  all_goals
    rintro rfl
    revert hw
    decide

namespace Grammar

theorem atom_echo (h : g.Echo g' K J) (hL : L ≤ K + 1) (hJ : L ≤ J) :
    EchoAt L (.flagged .phrase) [] AtomStart (fun a => LooseEnd b a.2) (atom g b)
      (atom g' b) ts := by
  have hle := h.le
  have hwordBlock (w : String) (hw : w ≠ "raw" ∧ w ≠ "async" ∧ w ≠ "for") (ts : List Placed) :
      EchoAt L .phrase [] AtomStart (fun _ => LooseEnd b true) (wordBlock g w)
        (wordBlock g' w) ts :=
    (wordBlock_echo h w).mono (by omega) (fun _ hu => .of_wordBlock hw hu) fun _ _ _ _ => id
  unfold atom
  refine .ask_eq (fun u hu => hu.literal) (fun _ =>
    .value (literalPhrase_echo.weaken fun _ => .of_literal)) fun _ => ?_
  refine .ask_eq (fun u hu => hu.asyncBlock) (fun _ =>
    .value ((asyncBlock_echo h).mono (by omega) (fun _ hu => hu.atom)
    fun _ _ _ _ => id)) fun _ => ?_
  refine .ask_eq (fun u hu => hu.wordBlock "try" (by decide))
    (fun _ => .block (hwordBlock "try" (by decide) ts)) fun _ => ?_
  refine .ask_eq (fun u hu => hu.closure) (fun hts =>
    .value ((closure_echo h).mono hL (fun _ hu => hu.atom hts)
    fun _ _ _ _ => id)) fun _ => ?_
  refine .ask_eq (fun u hu => hu.startsPath) (fun hts =>
    (pathExpr_echo h).mono hL (fun _ hu => hu.atom hts) fun _ _ _ _ => id) fun _ => ?_
  refine .ask_eq (fun u hu => hu.opening _) (fun _ =>
    .value ((exprList_echo h _).mono (by omega) (fun _ hu => .of_opening hu)
    fun _ _ _ _ => id)) fun _ => ?_
  refine .ask_eq (fun u hu => hu.word _) (fun _ =>
    .value ((leavingLoop_echo h).mono hL (fun _ hu => .of_plain_word (by decide) hu)
    fun _ _ _ _ => id)) fun _ => ?_
  refine .ask_eq (fun u hu => hu.word _) (fun _ =>
    .value (continuing_echo.weaken fun _ hu => .of_plain_word (by decide) hu)) fun _ => ?_
  refine .ask_eq (fun u hu => hu.word _) (fun _ =>
    .value ((leaving_echo h _).mono hL (fun _ hu => .of_plain_word (by decide) hu)
    fun _ _ _ _ => id)) fun _ => ?_
  refine .ask_eq (fun u hu => hu.word _) (fun _ =>
    .value ((leaving_echo h _).mono hL (fun _ hu => .of_plain_word (by decide) hu)
    fun _ _ _ _ => id)) fun _ => ?_
  refine .ask_eq (fun u hu => hu.opening _) (fun _ =>
    .value ((arrayExpr_echo h).mono (by omega) (fun _ hu => .of_opening hu)
    fun _ _ _ _ => id)) fun _ => ?_
  refine .ask_eq (fun u hu => hu.word _) (fun _ => .value ((patternCondition_echo h).mono hL
    (fun _ hu => .of_plain_word (by decide) hu) fun _ _ _ _ => id)) fun _ => ?_
  refine .ask_eq (fun u hu => hu.word _) (fun _ =>
    .block ((branch_echo h fun _ _ hw => LooseEnd.otherwise hw).mono hL
    (fun _ hu => .of_plain_word (by decide) hu) fun _ _ _ _ => id)) fun _ => ?_
  refine .ask_eq (fun u hu => hu.word _) (fun _ =>
    .block ((choice_echo h).mono hL (fun _ hu => .of_plain_word (by decide) hu)
    fun _ _ _ _ => id)) fun _ => ?_
  refine .ask_eq (fun u hu => hu.word _) (fun _ => .block (hwordBlock "unsafe" (by decide) ts))
    fun _ => ?_
  refine .ask_eq (fun u hu => hu.word _) (fun _ => .block (hwordBlock "const" (by decide) ts))
    fun _ => ?_
  refine .ask_eq (fun u hu => hu.labelled) (fun _ =>
    .block ((loopOrBlock_echo h hL hJ).weaken fun _ hu => hu.atom)) fun _ => ?_
  refine .ask_eq (fun u hu => hu.lifetime) (fun _ =>
    .block ((labelled_echo h hL hJ).weaken fun u ⟨name, hu⟩ => ?_)) fun _ => ?_
  · refine .of_no_word (.of_token (by simp) (by simp) hu) ?_
    obtain ⟨s, r, s', v, -, rfl, -⟩ := hu
    rfl
  exact .ask_eq (fun u hu => hu.word _) (fun _ =>
    .value (EchoAt.word.weaken fun u hu => .of_plain_word (by decide) hu))
    fun _ => .missing _

end Grammar

end KeyedRecord.Source
