import KeyedRecord.Proofs.Source.EchoControl

/-!
# Closures and words that leave echo

The words before a closure's arguments also start other phrases.  What follows them decides, and it
is the same in print.

Principal results: `closure_echo` and `leaving_echo`.
-/

set_option autoImplicit false

namespace KeyedRecord.Source

open Grammar

namespace Grammar

variable {g g' : Nesting} {K J L : Nat} {s : String} {M E : Sight} {ts u : List Placed} {b : Bool}

/-! ## Arguments -/

/-- The end of an argument of a closure. -/
def ClosureArgumentEnd : Sight := fun ts u => OnOperator "," .any ts u ∨ OnOperator "|" .any ts u

theorem ClosureArgumentEnd.no_colon (h : ClosureArgumentEnd ts u) : Front.op ":" u = false :=
  h.elim (fun h => (h.op (by decide) _).trans (by decide)) fun h =>
    (h.op (by decide) _).trans (by decide)

theorem closureArgument_echo (h : g.Echo g' K J) :
    EchoAt (K + 1) .phrase [] Onset (fun _ => ClosureArgumentEnd) (closureArgument g)
      (closureArgument g') ts := by
  unfold closureArgument
  refine .bind (D := K + 3) (M := fun _ => PatternStart) (by simp)
    ((Attribute.attributes_echo h fun ts u hu => .of_eq (hu.sign rfl)).weaken fun u hu =>
      hu.elim .of_pound (·.2.toOnset))
    fun attrs r _ => ?_
  refine .bind (D := K + 1) (M := fun _ ts u => OnOperator ":" .any ts u ∨
    ClosureArgumentEnd ts u) (by omega)
    (pattern_echo h _ (fun r w hw => ?_) _) fun p r _ => ?_
  · rcases hw with hw | hw | hw <;> exact .of_operator (by decide) (by decide) (by decide) hw
  refine .op? (M := .any) (N := ClosureArgumentEnd) (by decide) (fun _ => ?_)
    (fun _ => .pure (by simp [Form.phrase]) rfl fun _ h => h)
    (fun u hu => .inl hu) fun _ u hu => ⟨hu.no_colon, .inr hu⟩
  refine ((h.anyType fun r w hw => ?_).weaken fun _ _ => trivial).last
    (by simp [operatorTokens]; omega) (by simp [Form.phrase]) fun _ => rfl
  rcases hw with hw | hw <;> exact .of_operator (by decide) (by decide) hw

theorem closureArguments_echo (h : g.Echo g' K J) :
    EchoAt (K + 1) (.list "," .phrase) [] (fun ts u => Onset ts u ∨ OnOperator "|" .any ts u)
      (fun _ => OnOperator "|" .any)
      (Reader.listUntil (Front.op "|") "," (closureArgument g))
        (Reader.listUntil (Front.op "|") "," (closureArgument g')) ts :=
  .listUntil (by decide) (fun _ => closureArgument_echo h)
    (fun _ _ hu hts => (hu.sign rfl).trans hts)
    (fun _ _ hu _ => hu.op_self (by decide)) (fun _ _ _ hu => .inr hu)
    fun _ _ _ _ hu => ⟨(hu.op (by decide) _).trans (by decide), .inl hu⟩

/-! ## Closures -/

/-- The bar before the arguments. -/
def OnBar : Sight := OnOperator "|" .any

/-- One of the words before the arguments, or what `M` says. -/
def WordOr (w : String) (M : Sight) : Sight := fun ts u => OnToken (.ident w) M ts u ∨ M ts u

/-- A closure behind its binder. -/
def ClosureHead : Sight := WordOr "const" (WordOr "static" (WordOr "async" (WordOr "move" OnBar)))

theorem WordOr.onset {w : String} (hM : ∀ ts u, M ts u → Onset ts u) (h : WordOr w M ts u) :
    Onset ts u :=
  h.elim (.of_token (by simp) (by simp)) (hM _ _)

theorem OnBar.onset (h : OnBar ts u) : Onset ts u := .of_operator (by decide) h

theorem WordOr.word?_echo {w : String} (hM : ∀ ts u, M ts u → Onset ts u) :
    EchoAt L .phrase [] (WordOr w M) (fun _ => M) (word? w) (word? w) ts :=
  Grammar.word?_echo fun ts u hu => .of_eq ((hM ts u hu).word _)

/-- The end of a closure behind its arguments. -/
def closureBody (g : Nesting) (allowStruct : Bool) (head : Phrase) : Reader Phrase := do
  match ← Reader.op? "->" with
  | some arrow =>
    let result ← g.anyType
    return head ++ arrow ++ result ++ (← g.block)
  | none => return head ++ (← g.expr allowStruct)

/-- A closure behind its binder. -/
def closureRest (g : Nesting) (allowStruct : Bool) (binder : Option Phrase) : Reader Phrase := do
  let const ← word? "const"
  let static ← word? "static"
  let async ← word? "async"
  let move ← word? "move"
  let left ← Reader.op "|"
  let arguments ← Reader.listUntil (Front.op "|") "," (closureArgument g)
  let right ← Reader.op "|"
  closureBody g allowStruct (Phrase.ofOption binder ++ const ++ static ++ async ++ move ++ left ++
    .separated "," arguments ++ right)

theorem closure_eq (g : Nesting) (allowStruct : Bool) :
    closure g allowStruct = binder? g >>= closureRest g allowStruct := rfl

theorem closureBody_echo (h : g.Echo g' K J) (head : Phrase) (hL : L ≤ K + head.printed.length) :
    EchoAt L .phrase head.printed .any (fun _ => ExprEnd b) (closureBody g b head)
      (closureBody g' b head.canonical) ts := by
  have hle := h.le
  unfold closureBody
  refine .op? (M := .any) (N := ExprStart) (by decide) (fun _ => ?_) (fun _ => ?_)
    (fun _ _ => trivial) fun hts u hu => ⟨hu.op_false hts, trivial⟩
  · refine .bind (D := K) (M := fun _ => OnToken (.opening .brace) .any) (by simp; omega)
      ((h.anyType fun _ _ hw => .of_token (by simp) (by simp) hw).weaken fun _ _ => trivial)
        fun result r _ => ?_
    exact ((h.block r).mono le_rfl (fun _ => id) fun _ _ _ _ _ => trivial).last (by simp; omega)
      (by simp [Form.phrase]) fun _ => rfl
  · exact (h.expr b _).last (by omega) (by simp [Form.phrase]) fun _ => rfl

theorem closureRest_echo (h : g.Echo g' K J) (binder : Option Phrase) :
    EchoAt (K + 1) .phrase (Phrase.ofOption binder).printed ClosureHead (fun _ => ExprEnd b)
      (closureRest g b binder)
      (closureRest g' b (binder.map Phrase.canonical)) ts := by
  have h₄ (ts u : List Placed) (hu : WordOr "move" OnBar ts u) :
    Onset ts u := hu.onset fun _ _ => OnBar.onset
  have h₃ (ts u : List Placed) (hu : WordOr "async" (WordOr "move" OnBar) ts u) :
    Onset ts u := hu.onset h₄
  have h₂ (ts u : List Placed) (hu : WordOr "static" (WordOr "async" (WordOr "move" OnBar)) ts u) :
    Onset ts u := hu.onset h₃
  unfold closureRest
  refine .bind (Nat.le_add_right _ _) (WordOr.word?_echo h₂) fun const r _ => ?_
  refine .bind (Nat.le_add_right _ _) (WordOr.word?_echo h₃) fun static r _ => ?_
  refine .bind (Nat.le_add_right _ _) (WordOr.word?_echo h₄) fun async r _ => ?_
  refine .bind (Nat.le_add_right _ _) (WordOr.word?_echo fun _ _ => OnBar.onset) fun move r _ => ?_
  refine EchoAt.weaken (.op_then (M := .any) (by decide) fun _ => ?_) fun _ => id
  refine .bind (D := K + 1) (by omega) ((closureArguments_echo h).weaken fun _ _ => trivial)
    fun arguments r _ => ?_
  refine .op_then (by decide) fun _ => ?_
  have : EchoAt (K + 1) _ _ _ _ _ _ (r.drop "|".length) :=
    closureBody_echo (b := b) h (Phrase.ofOption binder ++ const ++ static ++ async ++
    move ++ .operator "|" ++ .separated "," arguments ++ .operator "|")
    (by simp [operatorTokens]; omega)
  simp only [Phrase.printed_append, Phrase.canonical_append, Phrase.printed_separated,
    Phrase.canonical_separated,
    Phrase.canonical_ofOption, Phrase.printed_operator, Phrase.canonical_operator] at this
  exact this

theorem ClosureHead.onset (h : ClosureHead ts u) : Onset ts u :=
  WordOr.onset (fun _ _ h => WordOr.onset (fun _ _ h =>
    WordOr.onset (fun _ _ h => WordOr.onset (fun _ _ => OnBar.onset) h) h) h) h

theorem closure_echo (h : g.Echo g' K J) :
    EchoAt (K + 1) .phrase [] (BinderStart ClosureHead) (fun _ => ExprEnd b) (closure g b)
      (closure g' b) ts := by
  rw [closure_eq, closure_eq]
  refine .bind (D := K + 2) (M := fun _ => ClosureHead) (by simp)
    ((binder?_echo h (M := ClosureHead) (W := ClosureHead) fun ts u hu =>
      .of_eq (hu.onset.word _)).mono le_rfl
      (fun _ => id) fun o _ _ _ hw => by cases o <;> exact hw) fun binder r _ => ?_
  have : EchoAt _ _ _ _ _ _ _ r := closureRest_echo (b := b) h binder
  rw [Phrase.printed_ofOption] at this
  exact this

/-- No bracket opens at a place. -/
def NoBracket : Sight := fun ts u => ∀ d, Front.opening d ts = false ∧ Front.opening d u = false

theorem NoBracket.of_operator {s : String} (hs : s.toList ≠ []) (h : OnOperator s M ts u) :
    NoBracket ts u := by
  obtain ⟨c, cs, hl⟩ := List.exists_cons_of_ne_nil hs
  obtain ⟨j, sp, r, j', sp', v, rfl, rfl⟩ := h.head hl
  exact fun _ => ⟨rfl, rfl⟩

theorem WordOr.noBracket {w : String} (hM : ∀ ts u, M ts u → NoBracket ts u) (h : WordOr w M ts u) :
    NoBracket ts u := by
  rcases h with h | h
  · obtain ⟨s, r, s', v, rfl, rfl, -⟩ := h
    exact fun _ => ⟨rfl, rfl⟩
  · exact hM _ _ h

/-- The start of a closure tells that it is one. -/
theorem BinderStart.atom (h : BinderStart ClosureHead ts u) (hts : startsClosure ts = true) :
    AtomStart ts u := by
  have hbar (ts u : List Placed) (h : OnBar ts u) : NoBracket ts u := .of_operator (by decide) h
  rcases h with h | ⟨-, h | h | h | h | h⟩
  · have hO : Onset ts u := .of_token (by simp) (by simp) h
    have hbinder : startsClosureBinder ts = true := by
      obtain ⟨s, r, s', v, rfl, rfl, -⟩ := h
      simpa [startsClosure, Front.word, op_of_leaf (t := .ident "for") (by simp) (s := "|")
        (by decide)] using hts
    refine .of_word (by decide) h ?_ (fun hw => absurd hw (by decide)) ?_
    · have := NoBracket.of_operator (by decide)
        (show OnOperator "<" _ (ts.drop 1) (u.drop 1) from h.behind)
      rw [(this _).1, (this _).2]
    · rw [hbinder]
      have hbehind : OnOperator "<" _ (ts.drop 1) (u.drop 1) := h.behind
      simp only [startsClosureBinder, Bool.and_eq_true, Bool.or_eq_true] at hbinder ⊢
      refine ⟨⟨(hO.word _).trans hbinder.1.1, hbehind.op_self (by decide)⟩, ?_⟩
      have hitems : Attribute.Start LifetimeStart (ts.drop 2) (u.drop 2) ∨
          OnOperator ">" .any (ts.drop 2) (u.drop 2) := by
        have := hbehind.behind
        rwa [List.drop_drop, List.drop_drop] at this
      rcases hitems with (hu | ⟨-, name, hu⟩) | hu
      · rcases hbinder.2 with hlife | hgt
        · have : Onset (ts.drop 2) (u.drop 2) := .of_pound hu
          obtain ⟨j, sp, r, j', sp', v, hr, -⟩ := hu.head (c := '#') (l := []) rfl
          rw [hr] at hlife
          cases hlife
        · exact absurd hgt (by simp [op_exclusive (s := "#") (o := ">") rfl rfl (by decide) hu.1])
      · obtain ⟨s, r, s', v, -, hv, -⟩ := hu
        exact .inl (by rw [hv]; rfl)
      · exact .inr (hu.op_self (by decide))
  · have hrest : NoBracket (ts.drop 1) (u.drop 1) := by
      have := h.behind
      exact WordOr.noBracket (fun _ _ => WordOr.noBracket fun _ _ => WordOr.noBracket hbar) this
    refine .of_word (by decide) h ?_ (fun hw => absurd hw (by decide)) ?_
    · rw [(hrest _).1, (hrest _).2]
    · obtain ⟨s, r, s', v, rfl, rfl, -⟩ := h
      rfl
  · exact .of_plain_word (by decide) h
  · have hmove : WordOr "move" OnBar (ts.drop 1) (u.drop 1) := h.behind
    have hO : Onset (ts.drop 1) (u.drop 1) := hmove.onset fun _ _ => OnBar.onset
    refine .of_word (by decide) h (hO.opening _) (fun _ => ⟨hO.sign rfl, hO.word _, ?_⟩) ?_
    · rcases hmove with hmove | hmove
      · have : NoBracket ((ts.drop 1).drop 1) ((u.drop 1).drop 1) := hbar _ _ hmove.behind
        simp only [startsWordBlock, hO.word, (this _).1, (this _).2]
      · have : Front.word "move" (u.drop 1) = false :=
          (OnOperator.no_leaf (by decide) hmove).2.2.2.1 _
        simp only [startsWordBlock, this, (hO.word _).symm.trans this, Bool.false_and]
    · obtain ⟨s, r, s', v, rfl, rfl, -⟩ := h
      rfl
  · exact .of_plain_word (by decide) h
  · exact .of_operator (by decide) h

/-! ## Blocks that run later -/

/-- A block that runs later. -/
def OnAsyncBlock :
    Sight := OnToken (.ident "async") (WordOr "move" (OnToken (.opening .brace) .any))

theorem asyncBlock_echo (h : g.Echo g' K J) :
    EchoAt (J + 1) .phrase [] OnAsyncBlock (fun _ => E) (asyncBlock g) (asyncBlock g') ts := by
  unfold asyncBlock
  refine .word_then fun s r _ => ?_
  refine .bind (Nat.le_add_right _ _) (WordOr.word?_echo fun ts u hu =>
    .of_token (by simp) (by simp) hu) fun move r _ => ?_
  exact ((h.block r).mono le_rfl (fun _ => id) fun _ _ _ _ _ => trivial).last (by simp)
    (by simp [Form.phrase]) fun _ => rfl

theorem OnAsyncBlock.atom (h : OnAsyncBlock ts u) : AtomStart ts u := by
  have hrest : WordOr "move" (OnToken (.opening .brace) .any) (ts.drop 1) (u.drop 1) := h.behind
  have hO : Onset (ts.drop 1) (u.drop 1) := hrest.onset fun _ _ hu =>
    .of_token (by simp) (by simp) hu
  refine .of_word (by decide) h (hO.opening _) (fun _ => ⟨hO.sign rfl, hO.word _, ?_⟩) ?_
  · rcases hrest with hrest | hrest
    · have : Onset ((ts.drop 1).drop 1) ((u.drop 1).drop 1) :=
        .of_token (by simp) (by simp) hrest.behind
      simp only [startsWordBlock, hO.word, this.opening]
    · have : Front.word "move" (u.drop 1) = false := by
        obtain ⟨s, r, s', v, -, hv, -⟩ := hrest
        rw [hv]
        rfl
      simp only [startsWordBlock, this, (hO.word _).symm.trans this, Bool.false_and]
  · obtain ⟨s, r, s', v, rfl, rfl, -⟩ := h
    rfl

/-! ## Words that leave -/

theorem leaving_echo (h : g.Echo g' K J) (w : String) :
    EchoAt (K + 1) .phrase [] (OnToken (.ident w) .any) (fun _ => ExprEnd b) (leaving g b w)
      (leaving g' b w) ts := by
  unfold leaving
  refine .word_then fun s r _ => ?_
  refine .ask (Y := ExprStart) (N := ExprEnd b) (fun _ => ?_)
    (fun _ => .pure (by simp [Form.phrase]) rfl fun _ h => h)
    (fun hts u hu => ⟨hu.startsValue hts, trivial⟩) fun hts u hu => ⟨hu.value hts, trivial⟩
  exact (h.expr b r).last (by simp) (by simp [Form.phrase]) fun _ => rfl

/-- The value with which a loop or a block is left. -/
def leavingValue (g : Nesting) (allowStruct : Bool) (p : Phrase) : Reader Phrase := do
  if ← Reader.front fun ts => startsValue ts && (allowStruct || !Front.opening .brace ts) then
    return p ++ (← g.expr allowStruct)
  else return p

theorem leavingLoop_eq (g : Nesting) (allowStruct : Bool) : leavingLoop g allowStruct = (do
    let w ← Reader.word "break"
    let label ← lifetime?
    if label.printed.isEmpty then leavingValue g allowStruct (w ++ label)
    else if ← Reader.front (Front.op ":") then Reader.breaks .labelledBreak
    else leavingValue g allowStruct (w ++ label)) := by
  unfold leavingLoop lifetime? leavingValue
  simp only [Reader.ask_bind]
  refine bind_congr fun w => bind_congr fun b => ?_
  cases b
  · rfl
  · simp only [if_true]
    refine bind_congr fun label => ?_
    cases label.printed.isEmpty
    · refine bind_congr fun b => ?_
      cases b <;> rfl
    · rfl

theorem leavingValue_echo (h : g.Echo g' K J) (p : Phrase) (hL : L ≤ K + p.printed.length) :
    EchoAt L .phrase p.printed (fun ts u => (ExprStart ts u ∨ ExprEnd b ts u)) (fun _ => ExprEnd b)
      (leavingValue g b p)
      (leavingValue g' b p.canonical) ts := by
  unfold leavingValue
  refine .ask (Y := ExprStart) (N := ExprEnd b) (fun _ => ?_) (fun _ => .pure rfl rfl fun _ h => h)
    (fun hts u hu => ⟨?_, .inl hu⟩) fun hts u hu => ⟨hu.plainValue hts, .inr hu⟩
  · exact (h.expr b _).last (by omega) (by simp [Form.phrase]) fun _ => rfl
  · simp only [Bool.and_eq_true] at hts ⊢
    exact ⟨hu.startsValue hts.1, by rw [hu.opening]; exact hts.2⟩

theorem leavingLoop_echo (h : g.Echo g' K J) :
    EchoAt (K + 1) .phrase [] (OnToken (.ident "break") .any) (fun _ => ExprEnd b) (leavingLoop g b)
      (leavingLoop g' b) ts := by
  rw [leavingLoop_eq, leavingLoop_eq]
  refine .word_then fun s r _ => ?_
  refine .bind (D := K + 1) (M := fun _ ts u => ExprStart ts u ∨ ExprEnd b ts u) (by simp)
    ((lifetime?_echo fun ts u hu => ?_).weaken fun _ _ => trivial) fun label r _ => ?_
  · exact hu.elim (fun hu => .of_eq hu.lifetime) (·.lifetime)
  have hvalue : EchoAt (K + 1) _ _ _ _ _ _ r :=
    leavingValue_echo (b := b) h (.word "break" ++ label) (by simp)
  show EchoAt (K + 1) _ _ _ _ (if label.printed.isEmpty = true then _ else _)
    (if label.printed.isEmpty = true then _ else _) r
  cases label.printed.isEmpty with
  | true => exact hvalue
  | false =>
    exact .ask (Y := fun _ _ => False) (fun _ => .breaks _) (fun _ => hvalue)
      (fun _ _ hu => hu.elim) fun hts u hu => ⟨hu.elim (·.op_false hts) (·.colon hts), hu⟩

theorem continuing_echo :
    EchoAt L .phrase [] (OnToken (.ident "continue") .any)
      (fun _ => ExprEnd b) continuing continuing ts := by
  unfold continuing
  refine .word_then fun s r _ => ?_
  refine .ask (Y := fun ts u => ∃ name, OnToken (.lifetime name) (ExprEnd b) ts u) (N := ExprEnd b)
    (fun _ => ?_) (fun _ => .pure (by simp [Form.phrase]) rfl fun _ h => h)
    (fun hts u hu => ⟨?_, trivial⟩) fun hts u hu => ⟨hu.lifetime hts, trivial⟩
  · exact (EchoAt.lifetime (L := L)).last (by simp) (by simp [Form.phrase]) fun _ => rfl
  · obtain ⟨name, s, r, s', v, -, rfl, -⟩ := hu
    rfl

end Grammar

end KeyedRecord.Source
