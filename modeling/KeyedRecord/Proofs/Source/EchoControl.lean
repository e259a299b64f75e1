import KeyedRecord.Proofs.Source.EchoSigns

/-!
# Control flow echoes

Branches, loops, choices and closures echo.  Where a word has several uses, what stands behind it
decides which one is meant, so the start of such a phrase tells about two tokens.

Principal results: `branch_echo`, `choice_echo` and `labelled_echo`.
-/

set_option autoImplicit false

namespace KeyedRecord.Source

open Grammar

variable {s : String} {M E : Sight} {ts u : List Placed} {b f : Bool}

/-! ## Ends of statements -/

theorem ItemEnd.expr (h : ItemEnd ts u) (b : Bool) : ExprEnd b ts u :=
  h.elim (fun h => .of_sign (by decide) h (by simp) b) fun h => .of_ends h.ends_right b

theorem ExprEnd.of_brace {d : Delimiter} (h : OnToken (.opening d) M ts u) (b : Bool) :
    ExprEnd b ts u :=
  .of_token (by simp) (by simp) h b

theorem ExprEnd.of_word {w : String} (h : OnToken (.ident w) M ts u) (b : Bool) : ExprEnd b ts u :=
  .of_token (by simp) (by simp) h b

namespace LooseEnd

theorem expr (h : LooseEnd b false ts u) : ExprEnd b ts u :=
  h.elim id fun h => absurd h.1 (by decide)

theorem loosen {f' : Bool} (h : LooseEnd b f ts u) (hf : f = true → f' = true) :
    LooseEnd b f' ts u :=
  h.imp_right fun h => ⟨hf h.1, h.2⟩

theorem otherwise (h : LooseEnd b f ts u) : Denies (Front.word "else") ts u :=
  h.elim (·.otherwise) fun h => .of_eq (h.2.word _)

theorem paren (h : LooseEnd b f ts u) : Denies (Front.opening .paren) ts u :=
  h.elim (·.paren) fun h => .of_eq (h.2.opening _)

theorem bracket (h : LooseEnd b f ts u) : Denies (Front.opening .bracket) ts u :=
  h.elim (·.bracket) fun h => .of_eq (h.2.opening _)

theorem dot (h : LooseEnd b f ts u) :
    Denies (fun ts => Front.op "." ts && !Front.op ".." ts) ts u :=
  h.elim (·.dot) fun h => .of_eq (by rw [h.2.sign (s := ".") rfl, h.2.dots_eq])

theorem question (h : LooseEnd b f ts u) : Denies (Front.op "?") ts u :=
  h.elim (·.question) fun h => h.2.op_false

theorem colons (h : LooseEnd b f ts u) : Denies (Front.op "::") ts u :=
  h.elim (·.path.colons) fun h => h.2.op_false

theorem cast (h : LooseEnd b f ts u) : Denies (Front.word "as") ts u :=
  h.elim (·.cast) fun h => .of_eq (h.2.word _)

theorem range (h : LooseEnd b f ts u) : Denies (Front.op "..") ts u :=
  h.elim (·.range) fun h => h.2.op_false

theorem continues (h : LooseEnd b f ts u) : Denies continues ts u := fun hts => by
  simp only [Grammar.continues, Bool.or_eq_false_iff] at hts ⊢
  exact ⟨h.dot hts.1, h.question hts.2⟩

/-- Where no operator goes on in the source none does in print. -/
theorem operator (h : LooseEnd b f ts u) (hts : operator? ts = none) : operator? u = none := by
  rcases h with h | h
  · exact h.operator.elim id fun h => h.trans hts
  · have hnone : operators.find? (fun o => Front.op o.1 u) = none := by
      refine List.find?_eq_none.mpr fun o ho hop => ?_
      have hop : Front.op o.1 u = true := hop
      have hts' : Front.op o.1 ts = true := h.2.operator _ hop
      unfold operator? at hts
      split at hts
      · cases hts
      · rename_i hnone
        exact List.find?_eq_none.mp hnone o ho hts'
    have heq : Front.op "=" u = false := h.2.op_false (h.2.no_sign (c := '=') rfl (by decide))
    simp [operator?, hnone, heq]

end LooseEnd

/-! ## Starts of atoms -/

/-- The words that have several meanings. -/
def leadingWords : List String := ["async", "try", "unsafe", "const", "for"]

/-- The start of an expression without signs before it. -/
structure AtomStart (ts u : List Placed) : Prop extends ExprStart ts u where
  asyncBlock : startsAsyncBlock u = startsAsyncBlock ts
  wordBlock : ∀ w ∈ leadingWords, startsWordBlock w u = startsWordBlock w ts
  closure : startsClosure u = startsClosure ts
  loop : startsFor u = startsFor ts

namespace AtomStart

theorem labelled (h : AtomStart ts u) : startsLabelled u = startsLabelled ts := by
  simp [startsLabelled, h.loop, h.word, h.opening]

theorem block (h : AtomStart ts u) : startsBlock u = startsBlock ts := by
  simp [startsBlock, h.word, h.labelled, h.lifetime, h.wordBlock "unsafe" (by decide),
    h.wordBlock "const" (by decide),
    h.wordBlock "try" (by decide)]

theorem statement (h : AtomStart ts u) : StatementStart ts u := ⟨h.toOnset, h.block⟩

/-- A phrase that starts with none of the words. -/
theorem of_onset (h : Onset ts u) (hraw : Denies (fun ts =>
      Front.word "raw" ts && (Front.word "mut" (ts.drop 1) || Front.word "const" (ts.drop 1))) ts u)
    (hw : ∀ w ∈ leadingWords, Front.word w u = false) : AtomStart ts u := by
  have hts (w : String) (h' : w ∈ leadingWords) :
    Front.word w ts = false := (h.word w).symm.trans (hw w h')
  refine ⟨⟨h, hraw⟩, ?_, fun w hmem => ?_, ?_, ?_⟩
  · simp [startsAsyncBlock, startsWordBlock, hw "async" (by decide), hts "async" (by decide)]
  · simp [startsWordBlock, hw w hmem, hts w hmem]
  · simp [startsClosure, startsClosureBinder, hw "for" (by decide), hts "for" (by decide),
      hw "const" (by decide),
      hts "const" (by decide), hw "async" (by decide), hts "async" (by decide),
      h.sign (s := "|") rfl, h.word]
  · simp [startsFor, hw "for" (by decide), hts "for" (by decide)]

theorem of_no_word (h : Onset ts u) (hw : Front.anyWord u = false) : AtomStart ts u := by
  have hno (w : String) : Front.word w u = false := by
    rcases u with _ | ⟨⟨t, s⟩, v⟩
    · rfl
    · cases t <;> simp_all [Front.word, Front.anyWord]
  exact of_onset h (.of_false (by simp [hno])) fun w _ => hno w

theorem of_operator {s : String} (hs : beginsPhrase s.toList = true) (h : OnOperator s M ts u) :
    AtomStart ts u := by
  refine of_no_word (.of_operator hs h) (h.no_leaf ?_).1
  rintro h'
  simp [h', beginsPhrase] at hs

theorem of_opening {d : Delimiter} (h : OnToken (.opening d) M ts u) : AtomStart ts u := by
  refine of_no_word (.of_token (by simp) (by simp) h) ?_
  obtain ⟨s, r, s', v, -, rfl, -⟩ := h
  rfl

theorem of_plain_word {w : String} (hw : w ∉ "raw" :: leadingWords)
    (h : OnToken (.ident w) M ts u) : AtomStart ts u := by
  refine of_onset (.of_token (by simp) (by simp) h) (.of_false ?_) fun x hx => ?_
  all_goals obtain ⟨s, r, s', v, -, rfl, -⟩ := h
  · have : w ≠ "raw" := by rintro rfl; exact hw List.mem_cons_self
    simp [Front.word, this]
  · have : w ≠ x := by rintro rfl; exact hw (List.mem_cons_of_mem _ hx)
    simp [Front.word, this]

/-- A word of several meanings with the same follower at both places. -/
theorem of_word {w : String} (hraw : w ≠ "raw") (h : OnToken (.ident w) M ts u)
    (hbrace : Front.opening .brace (u.drop 1) = Front.opening .brace (ts.drop 1))
    (hbar : w = "async" → Front.op "|" (u.drop 1) = Front.op "|" (ts.drop 1) ∧
      Front.word "move" (u.drop 1) = Front.word "move" (ts.drop 1) ∧
      startsWordBlock "move" (u.drop 1) = startsWordBlock "move" (ts.drop 1))
    (hfor : startsClosureBinder u = startsClosureBinder ts) : AtomStart ts u := by
  have hO : Onset ts u := .of_token (by simp) (by simp) h
  have hblock (x : String) : startsWordBlock x u = startsWordBlock x ts := by
    simp only [startsWordBlock, hO.word, hbrace]
  have hword : Front.word "async" u = true → w = "async" := by
    obtain ⟨s, r, s', v, -, rfl, -⟩ := h
    exact fun h => beq_iff_eq.mp h
  refine ⟨⟨hO, .of_false ?_⟩, ?_, fun x _ => hblock x, ?_, by simp [startsFor, hO.word, hfor]⟩
  · obtain ⟨s, r, s', v, -, rfl, -⟩ := h
    simp [Front.word, hraw]
  · cases ha : Front.word "async" u with
    | false => simp [startsAsyncBlock, hblock, ha, (hO.word _).symm.trans ha]
    | true => simp only [startsAsyncBlock, hblock, hO.word, (hbar (hword ha)).2.2]
  · cases ha : Front.word "async" u with
    | false =>
      simp only [startsClosure, ha, (hO.word _).symm.trans ha, hO.word, hO.sign (s := "|") rfl,
        hfor, hbrace,
        Bool.false_and]
    | true =>
      obtain ⟨h₁, h₂, -⟩ := hbar (hword ha)
      simp only [startsClosure, hO.word, hO.sign (s := "|") rfl, hfor, hbrace, h₁, h₂]

end AtomStart

namespace Grammar

variable {g g' : Nesting} {K J L : Nat}

/-! ## Branches and loops -/

theorem wordBlock_echo (h : g.Echo g' K J) (w : String) :
    EchoAt (J + 1) .phrase [] (OnToken (.ident w) (OnToken (.opening .brace) .any)) (fun _ => E)
      (wordBlock g w)
      (wordBlock g' w) ts := by
  unfold wordBlock
  refine .word_then fun s r _ => ?_
  exact ((h.block r).mono le_rfl (fun _ => id) fun _ _ _ _ _ => trivial).last (by simp)
    (by simp [Form.phrase]) fun _ => rfl

theorem branchFuel_echo (h : g.Echo g' K J) (hE : ∀ r w, E r w →
    Denies (Front.word "else") r w) (n m : Nat)
    (ts : List Placed) :
    EchoAt (min (K + 1) m) .phrase [] (OnToken (.ident "if") .any) (fun _ => E) (branchFuel g n)
      (branchFuel g' m) ts := by
  induction n generalizing m ts with
  | zero => exact .failWith _
  | succ n ih =>
    have hle := h.le
    refine EchoAt.rounds (fun m => ?_) m
    unfold branchFuel
    refine .word_then fun s r _ => ?_
    refine .bind (D := K) (M := fun _ => OnToken (.opening .brace) .any) (by simp)
      ((h.expr false r).mono le_rfl (fun _ _ => trivial) fun _ _ _ _ hw => .of_brace hw _)
        fun cond r _ => ?_
    refine .bind (D := J) (M := fun _ ts u => OnToken (.ident "else") .any ts u ∨ E ts u)
      (by simp; omega)
      ((h.block r).mono le_rfl (fun _ => id) fun _ _ _ _ _ => trivial) fun body r _ => ?_
    refine .ask (Y := OnToken (.ident "else") .any) (N := E) (fun _ => ?_)
      (fun _ => .pure (by simp [Form.phrase]) rfl fun _ h => h) (fun _ u hu => ⟨?_, .inl hu⟩)
      fun hts u hu => ⟨hE _ _ hu hts, .inr hu⟩
    · refine .word_then fun s r _ => ?_
      refine .ask (Y := OnToken (.ident "if") .any) (N := OnToken (.opening .brace) .any)
        (fun _ => ?_) (fun _ => ?_) (fun _ u hu => ⟨?_, trivial⟩) fun _ u hu => ⟨?_, trivial⟩
      · exact (ih m r).last (by simp; omega) (by simp [Form.phrase]) fun _ => rfl
      · exact ((h.block r).mono le_rfl (fun _ => id) fun _ _ _ _ _ => trivial).last (by simp; omega)
          (by simp [Form.phrase]) fun _ => rfl
      all_goals obtain ⟨s, r, s', v, -, rfl, -⟩ := hu; rfl
    · obtain ⟨s, r, s', v, -, rfl, -⟩ := hu
      rfl

theorem branch_echo (h : g.Echo g' K J) (hE : ∀ r w, E r w → Denies (Front.word "else") r w) :
    EchoAt (K + 1) .phrase [] (OnToken (.ident "if") .any) (fun _ => E) (branch g) (branch g') ts :=
  .counted fun n m => branchFuel_echo h hE n m ts

theorem PatternsEnd.of_operator {s : String} (hs : s.toList ≠ [])
    (hno : ∀ x ∈ ["::", "<", "!", "..", "@", "|"], x.toList.isPrefixOf s.toList = false)
    (hrange : ∃ x ∈ ["|", "=", ":", ",", ";"], x.toList.isPrefixOf s.toList = true)
    (h : OnOperator s M ts u) : PatternsEnd ts u where
  toPatternEnd := .of_operator hs (fun x hx => hno x (by
    simp only [List.mem_cons, List.not_mem_nil, or_false] at hx ⊢
    tauto)) hrange h
  bar := .of_false (by simp [startsAlternative, (h.op hs "|").trans (hno _ (by simp))])

theorem PatternsEnd.of_word {w : String} (h : OnToken (.ident w) M ts u) : PatternsEnd ts u where
  toPatternEnd := .of_word h
  bar := by
    obtain ⟨s, r, s', v, -, rfl, -⟩ := h
    exact .of_false (by
      simp [startsAlternative, op_of_leaf (t := .ident w) (by simp) (s := "|") (by decide)])

theorem patternCondition_echo (h : g.Echo g' K J) :
    EchoAt (K + 1) .phrase [] (OnToken (.ident "let") .any) (fun _ => ExprEnd b)
      (patternCondition g b)
      (patternCondition g' b) ts := by
  unfold patternCondition
  refine .word_then fun s r _ => ?_
  refine .bind (D := K + 1) (M := fun _ => OnOperator "=" .any) (by simp)
    ((patterns_echo h fun _ _ hw => .of_operator (by decide) (by decide) (by decide) hw).weaken
      fun _ _ => trivial)
    fun p r _ => ?_
  refine .op_then (by decide) fun _ => ?_
  exact ((h.expr b _).weaken fun _ _ => trivial).last (by simp) (by simp [Form.phrase]) fun _ => rfl

/-- The start of a loop or a block. -/
def LoopStart : Sight := fun ts u =>
  OnToken (.ident "for") PatternStart ts u ∨ OnToken (.ident "while") .any ts u ∨
    OnToken (.ident "loop") (OnToken (.opening .brace) .any) ts u ∨
      OnToken (.opening .brace) .any ts u

/-- A pattern behind the word of a loop looks like a binder at both places or at none. -/
theorem startsClosureBinder_eq (h : OnToken (.ident "for") PatternStart ts u) :
    startsClosureBinder u = startsClosureBinder ts := by
  obtain ⟨s, r, s', v, rfl, rfl, hp⟩ := h
  have hlt : Front.op "<" v = Front.op "<" r := hp.sign rfl
  simp only [startsClosureBinder, List.drop_succ_cons, List.drop_zero, hlt]
  cases hr : Front.op "<" r with
  | false => simp
  | true =>
    have hangle : Onset (r.drop 1) (v.drop 1) := hp.angle (hlt.trans hr)
    have hgt : Front.op ">" (r.drop 1) = false := hangle.no_sign (c := '>') rfl (by decide)
    rw [hangle.lifetime, hgt, hangle.op_false hgt]
    rfl

theorem LoopStart.loop (h : LoopStart ts u) : startsFor u = startsFor ts := by
  rcases h with h | h | h | h
  · have hO : Onset ts u := .of_token (by simp) (by simp) h
    simp only [startsFor, startsClosureBinder_eq h, hO.word]
  all_goals
    obtain ⟨s, r, s', v, rfl, rfl, -⟩ := h
    rfl

theorem LoopStart.atom (h : LoopStart ts u) : AtomStart ts u := by
  rcases h with h | h | h | h
  · refine .of_word (by decide) h ?_ (fun hw => absurd hw (by decide)) (startsClosureBinder_eq h)
    obtain ⟨s, r, s', v, rfl, rfl, hp⟩ := h
    exact hp.opening _
  · exact .of_plain_word (by decide) h
  · exact .of_plain_word (by decide) h
  · exact .of_opening h

theorem loopOrBlock_echo (h : g.Echo g' K J) (hL : L ≤ K + 1) (hJ : L ≤ J) :
    EchoAt L .phrase [] LoopStart (fun _ => E) (loopOrBlock g) (loopOrBlock g') ts := by
  have hle := h.le
  have hblock {pre : List Token} {p : Phrase} (ts : List Placed) (hpre : p.printed = pre) :
      EchoAt L .phrase pre (OnToken (.opening .brace) .any) (fun _ => E)
        (do return p ++ (← g.block)) (do return p.canonical ++ (← g'.block)) ts :=
    ((h.block ts).mono le_rfl (fun _ => id) fun _ _ _ _ _ => trivial).last (by omega)
      (by simp [Form.phrase, hpre]) fun _ => rfl
  unfold loopOrBlock
  refine .ask (Y := OnToken (.ident "for") PatternStart)
    (N := fun ts u => OnToken (.ident "while") .any ts u ∨
      OnToken (.ident "loop") (OnToken (.opening .brace) .any) ts u ∨
      OnToken (.opening .brace) .any ts u)
    (fun _ => ?_) (fun _ => ?_) (fun hts u hu => ⟨?_, .inl hu⟩) fun hts u hu => ⟨?_, .inr hu⟩
  · refine .word_then fun s r _ => ?_
    refine .bind (D := K + 1) (M := fun _ => OnToken (.ident "in") .any) (by simp; omega)
      (patterns_echo h fun _ _ hw => .of_word hw) fun p r _ => ?_
    refine .word_then fun s r _ => ?_
    refine .bind (D := K) (M := fun _ => OnToken (.opening .brace) .any) (by simp; omega)
      ((h.expr false r).mono le_rfl (fun _ _ => trivial) fun _ _ _ _ hw => .of_brace hw _)
        fun items r _ => ?_
    exact hblock r (by simp [Form.phrase])
  · refine .ask (Y := OnToken (.ident "while") .any) (N := fun ts u =>
        OnToken (.ident "loop") (OnToken (.opening .brace) .any) ts u ∨
        OnToken (.opening .brace) .any ts u)
      (fun _ => ?_) (fun _ => ?_) (fun hts u hu => ⟨?_, .inl hu⟩) fun hts u hu => ⟨?_, .inr hu⟩
    · refine .word_then fun s r _ => ?_
      refine .bind (D := K) (M := fun _ => OnToken (.opening .brace) .any) (by simp; omega)
        ((h.expr false r).mono le_rfl (fun _ _ => trivial) fun _ _ _ _ hw => .of_brace hw _)
          fun cond r _ => ?_
      exact hblock r (by simp [Form.phrase])
    · refine .ask (Y := OnToken (.ident "loop") (OnToken (.opening .brace) .any))
        (N := OnToken (.opening .brace) .any)
        (fun _ => (wordBlock_echo h "loop").mono (by omega) (fun _ => id) fun _ _ _ _ => id)
        (fun _ => (h.block ts).mono hJ (fun _ => id) fun _ _ _ _ _ => trivial)
        (fun hts u hu => ⟨?_, .inl hu⟩) fun hts u hu => ⟨?_, .inr hu⟩
      all_goals obtain ⟨s, r, s', v, -, rfl, -⟩ := hu; rfl
    · obtain ⟨s, r, s', v, -, rfl, -⟩ := hu
      rfl
    · rcases hu with hu | hu <;> obtain ⟨s, r, s', v, -, rfl, -⟩ := hu <;> rfl
  · exact (LoopStart.loop (.inl hu)).trans hts
  · exact (LoopStart.loop (.inr hu)).trans hts

theorem labelled_echo (h : g.Echo g' K J) (hL : L ≤ K + 1) (hJ : L ≤ J) :
    EchoAt L .phrase [] (fun ts u => ∃ name, OnToken (.lifetime name) (OnOperator ":" .any) ts u)
      (fun _ => E)
      (labelled g) (labelled g') ts := by
  unfold labelled
  refine .bind (M := fun _ => OnOperator ":" .any) (Nat.le_add_right _ _) .lifetime
    fun label r _ => ?_
  refine EchoAt.weaken (.op_then (M := LoopStart) (by decide) fun _ => ?_) fun _ hu => hu.anything
  refine .ask_eq (fun u hu => hu.atom.labelled) (fun _ => ?_) fun _ => .breaks _
  exact (loopOrBlock_echo h hL hJ).last (Nat.le_add_right _ _) (by simp [Form.phrase]) fun _ => rfl

/-! ## Choices -/

/-- The condition of an arm, if it has one. -/
def guard? (g : Nesting) : Reader Phrase := do
  if ← Reader.front (Front.word "if") then
    let w ← Reader.word "if"
    return w ++ (← g.expr true)
  else return .empty

/-- The comma behind an arm, which may be left out behind a block and at the end. -/
def comma (isBlock : Bool) : Reader Phrase := do
  if isBlock || (← Reader.front Front.ends) then Phrase.ofOption <$> Reader.op? ","
  else Reader.op ","

/-- An arm of a choice. -/
def arm (g : Nesting) : Reader Phrase := do
  let attrs ← g.attributes
  let p ← patterns g
  let guard ← guard? g
  let arrow ← Reader.op "=>"
  let isBlock ← Reader.front startsBlock
  let (body, isStatement) ← g.statement
  let comma ← comma (isBlock && isStatement)
  return attrs ++ p ++ guard ++ arrow ++ body ++ comma

theorem arm?_eq (g : Nesting) : arm? g = (do
    if ← Reader.front Front.ends then return none
    else return some (← arm g)) := by
  unfold arm? arm guard? comma
  simp only [Reader.ite_bind, bind_assoc, pure_bind]

theorem comma_eq (isBlock : Bool) : comma isBlock = (do
    if ← Reader.front fun ts => isBlock || Front.ends ts then Phrase.ofOption <$> Reader.op? ","
    else Reader.op ",") := rfl

/-- What stands behind an arm. -/
def ArmEnd : Sight := fun ts u => Onset ts u ∨ OnClosing ts u

theorem ArmEnd.ends (h : ArmEnd ts u) : Front.ends u = Front.ends ts := by
  rcases h with h | h
  · rw [h.ends_left, h.ends_right]
  · rw [h.ends_left, h.ends_right]

theorem ArmEnd.no_comma (h : ArmEnd ts u) : Front.op "," u = false := by
  rcases h with h | h
  · exact h.op_false (h.no_sign (c := ',') rfl (by decide))
  · exact op_of_ends h.ends_right _ (by decide)

/-- What stands behind what an arm leads to. -/
def BodyEnd (isBlock : Bool) : Sight := fun ts u =>
  OnOperator "," .any ts u ∨ ((isBlock || Front.ends ts) = true ∧ ArmEnd ts u)

theorem BodyEnd.loose {isBlock isStatement : Bool} (h : BodyEnd (isBlock && isStatement) ts u) :
    LooseEnd true isStatement ts u := by
  rcases h with h | ⟨hblock, h | h⟩
  · exact .inl (.of_sign (by decide) h (by simp) _)
  · rw [h.ends_left, Bool.or_false] at hblock
    exact .inr ⟨(Bool.and_eq_true_iff.mp hblock).2, h⟩
  · exact .inl (.of_ends h.ends_right _)

theorem comma_echo (isBlock : Bool) :
    EchoAt L .phrase [] (BodyEnd isBlock) (fun _ => ArmEnd) (comma isBlock) (comma isBlock) ts := by
  have hends {ts u : List Placed} (hu : BodyEnd isBlock ts u) :
      (isBlock || Front.ends u) = (isBlock || Front.ends ts) := by
    rcases hu with hu | ⟨-, hu⟩
    · obtain ⟨j, sp, r, j', sp', v, rfl, rfl⟩ := hu.head (c := ',') (l := []) rfl
      rfl
    · rw [hu.ends]
  rw [comma_eq]
  refine .ask_eq (fun u hu => hends hu) (fun hts => ?_) fun hts => ?_
  · show EchoAt L _ _ _ _ (Reader.op? "," >>= fun o => pure (Phrase.ofOption o))
      (Reader.op? "," >>= fun o => pure (Phrase.ofOption o)) ts
    refine .op? (M := ArmEnd) (N := ArmEnd) (by decide)
      (fun _ => .pure (by simp [Form.phrase, Phrase.ofOption]) rfl fun _ h => h)
      (fun _ => .pure rfl rfl fun _ h => h) (fun u hu => .inl hu.anything) fun _ u hu =>
        ⟨hu.no_comma, .inr ⟨hts, hu⟩⟩
  · exact (EchoAt.op (by decide)).weaken fun u hu => .inl (OnOperator.anything hu)

theorem guard?_echo (h : g.Echo g' K J) :
    EchoAt (K + 1) .phrase [] (fun ts u => OnToken (.ident "if") .any ts u ∨
      OnOperator "=>" .any ts u)
      (fun _ => OnOperator "=>" .any) (guard? g) (guard? g') ts := by
  unfold guard?
  refine .ask (Y := OnToken (.ident "if") .any) (N := OnOperator "=>" .any) (fun _ => ?_)
    (fun _ => .pure rfl rfl fun _ h => h) (fun _ u hu => ⟨?_, .inl hu⟩) fun hts u hu =>
      ⟨?_, .inr hu⟩
  · refine .word_then fun s r _ => ?_
    exact ((h.expr true r).mono le_rfl (fun _ _ => trivial) fun _ _ _ _ hw =>
      .of_sign (s := "=>") (by decide) hw (by simp) _).last
      (by simp) (by simp [Form.phrase]) fun _ => rfl
  · obtain ⟨s, r, s', v, -, rfl, -⟩ := hu
    rfl
  · exact (hu.no_leaf (by decide)).2.2.2.1 _

theorem arm_echo (h : g.Echo g' K J) :
    EchoAt (K + 1) .phrase [] Onset (fun _ => ArmEnd) (arm g) (arm g') ts := by
  unfold arm
  refine .bind (D := K + 3) (M := fun _ => PatternStart) (by simp)
    ((Attribute.attributes_echo h fun ts u hu => .of_eq (hu.sign rfl)).weaken fun u hu =>
      hu.elim .of_pound (·.2.toOnset))
    fun attrs r _ => ?_
  refine .bind (D := K + 1) (M := fun _ ts u => OnToken (.ident "if") .any ts u ∨
    OnOperator "=>" .any ts u) (by omega)
    (patterns_echo h fun _ _ hw =>
      hw.elim .of_word (.of_operator (by decide) (by decide) (by decide))) fun p r _ => ?_
  refine .bind (D := K + 1) (M := fun _ => OnOperator "=>" .any) (by omega) (guard?_echo h)
    fun guard r _ => ?_
  refine EchoAt.weaken (.op_then (M := StatementStart) (by decide) fun _ => ?_) fun _ hu =>
    hu.anything
  refine .front (fun u hu => hu.block) ?_
  refine .bind (D := K) (M := fun a => BodyEnd (startsBlock (r.drop "=>".length) && a.2))
    (by simp [operatorTokens]; omega)
    ((h.statement _).mono le_rfl (fun _ => id) fun a _ _ _ hw => hw.loose) fun body r' _ => ?_
  exact (comma_echo (L := K + 1) _).last (by omega) (by simp [Form.phrase, Form.flagged]) fun _ =>
    rfl

theorem printed_of_arm {r : List Placed} {p : Phrase} (h : arm g ts = .ok (p, r)) :
    p.printed ≠ [] := by
  unfold arm at h
  obtain ⟨_, _, -, h⟩ := Reader.bind_eq_ok h
  obtain ⟨_, _, -, h⟩ := Reader.bind_eq_ok h
  obtain ⟨_, _, -, h⟩ := Reader.bind_eq_ok h
  rw [Reader.op_bind] at h
  obtain ⟨_, _, -, h⟩ := Reader.bind_eq_ok h
  obtain ⟨_, _, -, h⟩ := Reader.bind_eq_ok h
  obtain ⟨_, _, -, h⟩ := Reader.bind_eq_ok h
  obtain ⟨_, _, -, h⟩ := Reader.bind_eq_ok h
  cases h
  simp [operatorTokens]

theorem choice_echo (h : g.Echo g' K J) :
    EchoAt (K + 1) .phrase [] (OnToken (.ident "match") .any) (fun _ => E) (choice g)
      (choice g') ts := by
  have harm (ts : List Placed) :
      EchoAt (K + 1) (.option .phrase) [] ArmEnd (fun _ => ArmEnd) (arm? g) (arm? g') ts := by
    rw [arm?_eq, arm?_eq]
    refine .ask_eq (fun u hu => hu.ends) (fun _ => .pure rfl rfl fun _ h => h) fun _ => ?_
    exact ((arm_echo h).weaken fun _ => .inl).last (Nat.le_add_right _ _)
      (by simp [Form.option, Form.phrase]) fun _ => rfl
  unfold choice
  refine .word_then fun s r _ => ?_
  refine .bind (D := K) (M := fun _ => OnToken (.opening .brace) .any) (by simp)
    ((h.expr false r).mono le_rfl (fun _ _ => trivial) fun _ _ _ _ hw => .of_brace hw _)
      fun subject r _ => ?_
  refine .last (D := K + 3) (.inside (T := .any) fun s r _ =>
    (EchoAt.mono (.many harm ?_) le_rfl (fun _ _ => trivial)
    fun _ _ _ _ hw => .inr hw)) (by omega) (by simp [Form.phrase, Form.inside])
    (by simp [Form.phrase, Form.inside])
  intro ts p r _ hp
  rw [arm?_eq, Reader.ask_apply] at hp
  split at hp
  · cases hp
  · obtain ⟨q, _, hq, hp⟩ := Reader.bind_eq_ok hp
    cases hp
    exact printed_of_arm hq

end Grammar

end KeyedRecord.Source
