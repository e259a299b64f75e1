import KeyedRecord.Proofs.Source.EchoExpressions

/-!
# Statements and blocks echo

An expression that ends with its own block ends a statement, unless a sign goes on with it.  The
print shows that sign too, since it is the first that the rest of the expression prints.

Principal result: `block_echo`.
-/

set_option autoImplicit false

namespace KeyedRecord.Source

open Grammar

variable {g g' : Nesting} {K J L : Nat} {M E : Sight} {ts u : List Placed} {b f : Bool}

/-- What every result shows of its start is known where the print stands for it. -/
theorem EchoAt.and_of_result {α : Type} {F : Form α} {S : Sight} {E : α → Sight} {p q : Reader α}
    {Q : List Placed → Prop}
    (h : EchoAt L F [] S E p q ts) (hT : ∀ a r us w, p ts = .ok (a, r) → tokensOf us = F.tokens a →
      Q (us ++ w)) :
    EchoAt L F [] (fun ts u => S ts u ∧ Q u) E p q ts := by
  intro hs a r hp
  obtain ⟨hr, out, ho, hf, h⟩ := h hs a r hp
  rw [List.nil_append] at ho
  refine ⟨hr, out, ho, hf, fun us w hu he => ?_⟩
  obtain ⟨hS, hq⟩ := h us w hu he
  exact ⟨⟨hS, hT a r us w hp (hu.trans ho.symm)⟩, hq⟩

namespace Grammar

/-! ## Expressions that end with a block -/

/-- The words with which an expression may start that ends with a block. -/
theorem word_of_startsBlock {w : String} {s : Span} {r : List Placed}
    (h : startsBlock (⟨.ident w, s⟩ :: r) = true) :
    w ∈ ["if", "match", "while", "loop"] ∨
      (w = "for" ∧ startsClosureBinder (⟨.ident w, s⟩ :: r) = false) ∨
      (w ∈ ["unsafe", "const", "try"] ∧ Front.opening .brace r = true) := by
  simp only [startsBlock, startsLabelled, startsFor, startsWordBlock, Front.word, Front.lifetime,
    Front.opening, Bool.or_eq_true,
    Bool.and_eq_true, beq_iff_eq, Bool.not_eq_true', List.drop_succ_cons, List.drop_zero,
    Bool.false_eq_true, or_false] at h
  simp only [List.mem_cons, List.not_mem_nil, or_false]
  tauto

/-- What starts with a block starts no expression of another kind. -/
theorem startsBlock_excludes (h : startsBlock ts = true) :
    Front.literal ts = false ∧ startsAsyncBlock ts = false ∧
    (startsWordBlock "try" ts = true ∨ startsClosure ts = false ∧ startsPath ts = false) ∧
    Front.opening .paren ts = false ∧ Front.opening .bracket ts = false ∧
    ∀ w ∈ ["break", "continue", "return", "yield", "let"], Front.word w ts = false := by
  rcases ts with _ | ⟨⟨t, s⟩, r⟩
  · cases h
  have hop (x : String) (hx : x.toList ≠ []) (hp : ∀ c j, t ≠ .punct c j) :
    Front.op x (⟨t, s⟩ :: r) = false := op_of_leaf hp hx s r
  cases t with
  | ident w =>
    have hop (x : String) (hx : x.toList ≠ []) := hop x hx (by simp)
    have hopening (d : Delimiter) : Front.opening d (⟨.ident w, s⟩ :: r) = false := rfl
    rcases word_of_startsBlock h with hw | ⟨rfl, hbinder⟩ | ⟨hw, hbrace⟩
    · simp only [List.mem_cons, List.not_mem_nil, or_false] at hw
      rcases hw with rfl | rfl | rfl | rfl <;>
        simp +decide [Front.literal, startsAsyncBlock, startsWordBlock, startsClosure,
          startsClosureBinder, startsPath,
          Front.identifier, Front.word, hopening, hop]
    · simp +decide [Front.literal, startsAsyncBlock, startsWordBlock, startsClosure, hbinder,
        startsPath, Front.identifier,
        Front.word, hopening, hop]
    · simp only [List.mem_cons, List.not_mem_nil, or_false] at hw
      rcases hw with rfl | rfl | rfl <;>
        simp +decide [Front.literal, startsAsyncBlock, startsWordBlock, startsClosure,
          startsClosureBinder, startsPath,
          Front.identifier, Front.word, hopening, hop, hbrace]
  | opening d =>
    have hop (x : String) (hx : x.toList ≠ []) := hop x hx (by simp)
    obtain rfl : .brace = d := by
      simpa [startsBlock, startsLabelled, startsFor, startsWordBlock, Front.word, Front.lifetime,
        Front.opening] using h
    simp +decide [Front.literal, startsAsyncBlock, startsWordBlock, startsClosure,
      startsClosureBinder, startsPath,
      Front.identifier, Front.word, Front.opening, hop]
  | lifetime name =>
    have hop (x : String) (hx : x.toList ≠ []) := hop x hx (by simp)
    simp +decide [Front.literal, startsAsyncBlock, startsWordBlock, startsClosure,
      startsClosureBinder, startsPath,
      Front.identifier, Front.word, Front.opening, hop]
  | _ =>
    simp [startsBlock, startsLabelled, startsFor, startsWordBlock, Front.word, Front.lifetime,
      Front.opening] at h

/-- An expression that starts with a block ends with one. -/
theorem atom_flag {a : ExprPhrase} {r : List Placed} (hts : startsBlock ts = true)
    (h : atom g b ts = .ok (a, r)) : a.2 = true := by
  have hblock {p : Reader Phrase} (h : (do return (← p, true) : Reader ExprPhrase) ts =
      .ok (a, r)) : a.2 = true := by
    obtain ⟨_, _, -, h⟩ := Reader.bind_eq_ok h
    cases h
    rfl
  obtain ⟨hliteral, hasync, hplain, hparen, hbracket, hword⟩ := startsBlock_excludes hts
  unfold atom at h
  simp only [Reader.ask_apply, hliteral, hasync, hparen, hbracket, hword "break" (by simp),
    hword "continue" (by simp),
    hword "return" (by simp), hword "yield" (by simp), hword "let" (by simp), Bool.false_eq_true,
    if_false] at h
  split at h
  · exact hblock h
  obtain ⟨hclosure, hpath⟩ := hplain.resolve_left ‹_›
  simp only [hclosure, hpath, Bool.false_eq_true, if_false] at h
  -- the words in turn, each of which is followed by a block
  iterate 6
    split at h
    · exact hblock h
  simp_all [startsBlock, startsWordBlock]

/-! ## The start of a statement -/

theorem opening_of_op {s : String} (hs : s.toList ≠ []) (h : Front.op s ts = true) (d : Delimiter) :
    Front.opening d ts = false := by
  rcases ts with _ | ⟨⟨t, sp⟩, r⟩
  · rfl
  · cases t with
    | opening d' => exact absurd h (by simp [op_of_leaf (t := .opening d') (by simp) hs])
    | _ => rfl

/-- A sign that goes on with a block is read, and stands alone in print. -/
theorem trailer_of_continues {o : Option Phrase} {r : List Placed} (hts : continues ts = true)
    (h : trailer g ts = .ok (o, r)) :
    ∃ p c out, o = some p ∧ p.printed = .punct c false :: out ∧ (c = '.' ∨ c = '?') := by
  have hopening (d : Delimiter) : Front.opening d ts = false := by
    simp only [continues, Bool.or_eq_true, Bool.and_eq_true] at hts
    exact hts.elim (fun h => opening_of_op (by decide) h.1 d) fun h => opening_of_op (by decide) h d
  rw [trailer_eq, Reader.ask_apply, if_neg (by simp [hopening]), Reader.ask_apply] at h
  split at h
  · rw [Reader.op_bind] at h
    obtain ⟨_, _, -, h⟩ := Reader.bind_eq_ok h
    obtain ⟨p, _, -, h⟩ := Reader.bind_eq_ok h
    cases h
    exact ⟨_, '.', p.printed, rfl, by simp [operatorTokens], .inl rfl⟩
  · rename_i hdot
    have hquestion : Front.op "?" ts = true := (Bool.or_eq_true_iff.mp hts).resolve_left hdot
    rw [Reader.ask_apply, if_neg (by simp [hopening]), Reader.ask_apply, if_pos hquestion,
      Reader.op_bind] at h
    obtain ⟨_, _, -, h⟩ := Reader.bind_eq_ok h
    cases h
    exact ⟨_, '?', [], rfl, by simp [operatorTokens], .inr rfl⟩

/-- The sign that goes on with a block is the first one that the rest prints. -/
theorem continues_of_trailers {p : Phrase} {r us : List Placed} (hts : continues ts = true)
    (h : Reader.many (trailer g) ts = .ok (p, r)) (hus : tokensOf us = p.printed)
      (w : List Placed) :
    continues (us ++ w) = true := by
  unfold Reader.many Reader.manyFuel at h
  obtain ⟨o, s, ho, h⟩ := Reader.bind_eq_ok h
  obtain ⟨q, c, out, rfl, hq, hc⟩ := trailer_of_continues hts ho
  obtain ⟨q', _, -, h⟩ := Reader.bind_eq_ok h
  cases h
  rw [Phrase.printed_append, hq, List.cons_append] at hus
  obtain ⟨⟨t, sp⟩, us, rfl, rfl, -⟩ := List.map_eq_cons_iff.mp hus
  rcases hc with rfl | rfl <;> simp [continues, Front.op, Front.isOperator]

/-- An expression with a block of its own, and what goes on with it. -/
def blockExpr (g : Nesting) (attrs : Phrase) : Reader ExprPhrase := do
  let (p, _) ← atom g true
  if ← Reader.front continues then
    let behind ← Reader.many (trailer g)
    let more ← operatorsBehind g true
    return (attrs ++ p ++ behind ++ more, false)
  else return (attrs ++ p, true)

/-- An expression behind its attributes, where a statement starts. -/
def behindAttributes (g : Nesting) (attrs : Phrase) : Reader ExprPhrase := do
  if ← Reader.front startsBlock then blockExpr g attrs
  else
    let (p, isStatement) ← exprPhrase g true
    return (attrs ++ p, isStatement)

theorem statementExpr_eq (g : Nesting) : statementExpr g = (do
    let attrs ← g.attributes
    behindAttributes g attrs) := rfl

theorem blockExpr_echo (h : g.Echo g' K J) (hL : L ≤ K + 1) (hJ : L ≤ J)
    (hts : startsBlock ts = true) (attrs : Phrase) :
    EchoAt L (.flagged .phrase) attrs.printed AtomStart (fun a => LooseEnd true a.2)
      (blockExpr g attrs)
      (blockExpr g' attrs.canonical) ts := by
  unfold blockExpr
  refine .bind (D := L) (M := fun _ => LooseEnd true true) (by omega)
    ((atom_echo h hL hJ).mono le_rfl (fun _ => id)
    fun a r w ha hw => by rw [atom_flag hts ha]; exact hw) fun a r _ => ?_
  refine .ask (Y := fun ts u => LooseEnd true false ts u ∧ continues u = true)
    (N := LooseEnd true true) (fun hcont => ?_)
    (fun _ => .pure (by simp [Form.flagged, Form.phrase]) (by simp [Form.flagged, Form.phrase])
      fun _ hu => hu)
    (fun _ u hu => ⟨hu.2, hu.1.loosen (by simp)⟩) fun hcont u hu => ⟨hu.continues hcont, hu⟩
  refine .bind (D := K + 1) (M := fun _ => LooseEnd true false) (by omega)
    ((trailers_echo h).and_of_result fun p r us w hp hus => continues_of_trailers hcont hp hus w)
      fun behind r _ => ?_
  exact .bind (D := L) (M := fun _ => ExprEnd true) (by omega)
    ((operatorsBehind_echo h hL hJ).mono le_rfl (fun _ => id)
    fun _ _ _ _ hw => .inl hw) fun more r _ =>
    .pure (by simp [Form.flagged, Form.phrase]) (by simp [Form.flagged, Form.phrase]) fun _ hu =>
      hu.expr

theorem statementExpr_echo (h : g.Echo g' K J) (hL : L ≤ K + 1) (hJ : L ≤ J) :
    EchoAt L (.flagged .phrase) [] StatementStart (fun a => LooseEnd true a.2) (statementExpr g)
      (statementExpr g') ts := by
  rw [statementExpr_eq, statementExpr_eq]
  refine .bind (D := K + 3) (M := fun _ => AtomStart) (by simp; omega)
    ((Attribute.attributes_echo h fun ts u hu => .of_eq (hu.sign rfl)).weaken fun u hu => ?_)
      fun attrs r _ => ?_
  · exact hu.elim (fun hu =>
      (AtomStart.of_no_word (.of_pound hu) (hu.no_leaf (by decide)).1).statement) fun hu =>
      hu.2.statement
  unfold behindAttributes
  refine .ask_eq (fun u hu => hu.block) (fun hts => blockExpr_echo h hL hJ hts attrs) fun _ => ?_
  exact .bind (D := L) (M := fun a => LooseEnd true a.2) (by omega) (exprPhrase_echo h hL hJ)
    fun a r _ =>
    .pure (by simp [Form.flagged, Form.phrase]) (by simp [Form.flagged, Form.phrase]) fun _ hu => hu

/-! ## Bindings -/

/-- The type of a binding, if it has one. -/
def bindingType (g : Nesting) : Reader Phrase := do
  match ← Reader.op? ":" with
  | some colon => return colon ++ (← g.anyType)
  | none => return .empty

/-- What happens if the pattern of a binding does not fit. -/
def bindingElse (g : Nesting) (eq value : Phrase) : Reader Phrase := do
  if ← Reader.front fun ts => !endsWithBrace value && Front.word "else" ts then
    return eq ++ value ++ (← wordBlock g "else")
  else return eq ++ value

/-- The value of a binding, if it has one. -/
def bindingValue (g : Nesting) : Reader Phrase := do
  match ← Reader.op? "=" with
  | some eq => g.expr true >>= bindingElse g eq
  | none => return .empty

theorem bindingElse_bind {α : Type} (g : Nesting) (eq value : Phrase) (k : Phrase → Reader α) :
    bindingElse g eq value >>= k = (do
      let b ← Reader.front (Front.word "else")
      if (!endsWithBrace value && b) = true then
        wordBlock g "else" >>= fun other => k (eq ++ value ++ other)
      else k (eq ++ value)) := by
  unfold bindingElse
  rw [Reader.ask_bind]
  funext ts
  rw [Reader.ask_apply, front_apply]
  split <;> simp only [bind_assoc, pure_bind]

theorem binding_eq (g : Nesting) : binding g = (do
    let w ← Reader.word "let"
    let p ← pattern g
    let type ← bindingType g
    let value ← bindingValue g
    return w ++ p ++ type ++ value ++ (← Reader.op ";")) := by
  unfold binding bindingType bindingValue
  refine bind_congr fun w => bind_congr fun p => ?_
  rw [bind_assoc]
  refine bind_congr fun o => ?_
  cases o with
  | none =>
    simp only [pure_bind, bind_assoc]
    refine bind_congr fun o => ?_
    cases o with
    | none => rfl
    | some eq => simp only [bind_assoc, bindingElse_bind]
  | some colon =>
    simp only [pure_bind, bind_assoc]
    refine bind_congr fun type => bind_congr fun o => ?_
    cases o with
    | none => rfl
    | some eq => simp only [bind_assoc, bindingElse_bind]

/-- What stands behind the type of a binding. -/
def BehindType : Sight := fun ts u => OnOperator "=" .any ts u ∨ OnOperator ";" .any ts u

theorem BehindType.type (h : BehindType ts u) : TypeEnd ts u :=
  h.elim (.of_operator (by decide) (by decide)) (.of_operator (by decide) (by decide))

/-- What stands behind the pattern of a binding. -/
def BehindPattern : Sight := fun ts u => OnOperator ":" .any ts u ∨ BehindType ts u

theorem BehindPattern.pattern (h : BehindPattern ts u) : PatternEnd ts u := by
  rcases h with h | h | h <;> exact .of_operator (by decide) (by decide) (by decide) h

theorem bindingType_echo (h : g.Echo g' K J) :
    EchoAt (K + 1) .phrase [] BehindPattern (fun _ => BehindType) (bindingType g)
      (bindingType g') ts := by
  unfold bindingType
  refine .op? (M := .any) (N := BehindType) (by decide) (fun _ => ?_)
    (fun _ => .pure rfl rfl fun _ hu => hu) (fun u hu => .inl hu) fun _ u hu => ⟨?_, .inr hu⟩
  · exact ((h.anyType fun _ _ hw => hw.type).weaken fun _ _ => trivial).last
      (by simp [operatorTokens]) (by simp [Form.phrase]) fun _ => by simp [Form.phrase]
  · rcases hu with hu | hu <;> exact (hu.op (by decide) _).trans (by decide)

theorem bindingElse_echo (h : g.Echo g' K J) (eq value : Phrase)
    (hL : L ≤ J + 1 + eq.printed.length) :
    EchoAt L .phrase (eq.printed ++ value.printed) (fun ts u => OnToken (.ident "else") .any ts u ∨
      OnOperator ";" .any ts u)
      (fun _ => OnOperator ";" .any) (bindingElse g eq value)
        (bindingElse g' eq.canonical value.canonical) ts := by
  unfold bindingElse
  refine .ask (Y := OnToken (.ident "else") (OnToken (.opening .brace) .any))
    (N := OnOperator ";" .any) (fun _ => ?_)
    (fun _ => .pure (by simp [Form.phrase]) rfl fun _ hu => hu)
      (fun hts u hu => ⟨?_, .inl hu.anything⟩)
    fun hts u hu => ⟨?_, .inr hu⟩
  · exact (wordBlock_echo h "else").last (by rw [List.length_append]; omega) (by simp [Form.phrase])
      fun _ => by simp [Form.phrase]
  · obtain ⟨s, r, s', v, -, rfl, -⟩ := hu
    simpa [Front.word, endsWithBrace] using (Bool.and_eq_true_iff.mp hts).1
  · simp [(hu.no_leaf (by decide)).2.2.2.1]

theorem bindingValue_echo (h : g.Echo g' K J) :
    EchoAt (K + 1) .phrase [] BehindType (fun _ => OnOperator ";" .any) (bindingValue g)
      (bindingValue g') ts := by
  have hle := h.le
  unfold bindingValue
  refine .op? (M := .any) (N := OnOperator ";" .any) (by decide) (fun _ => ?_)
    (fun _ => .pure rfl rfl fun _ hu => hu)
    (fun u hu => .inl hu) fun _ u hu => ⟨(hu.op (by decide) _).trans (by decide), .inr hu⟩
  refine .bind (D := K) (M := fun _ ts u => OnToken (.ident "else") .any ts u ∨
    OnOperator ";" .any ts u)
    (by simp [operatorTokens]) ((h.expr true _).mono le_rfl (fun _ _ => trivial) fun _ _ _ _ hw =>
      ?_) fun value r _ =>
    bindingElse_echo h (.operator "=") value (by simp [operatorTokens]; omega)
  exact hw.elim (.of_word · _) fun hw => .of_sign (by decide) hw (by simp) _

theorem binding_echo (h : g.Echo g' K J) :
    EchoAt (K + 1) .phrase [] (OnToken (.ident "let") .any) (fun _ => E) (binding g)
      (binding g') ts := by
  rw [binding_eq, binding_eq]
  refine .word_then fun s r _ => ?_
  refine .bind (D := K + 1) (M := fun _ => BehindPattern) (by simp)
    ((pattern_echo h _ (fun _ _ hw => hw.pattern) r).weaken fun _ _ => trivial) fun p r _ => ?_
  refine .bind (D := K + 1) (M := fun _ => BehindType) (by omega) (bindingType_echo h)
    fun type r _ => ?_
  refine .bind (D := K + 1) (M := fun _ => OnOperator ";" .any) (by omega) (bindingValue_echo h)
    fun value r _ => ?_
  refine EchoAt.weaken (.last (D := K + 1) (EchoAt.op (M := E) (by decide)) (by omega)
    (by simp [Form.phrase]) fun _ => by simp [Form.phrase]) fun _ hu => hu.anything

/-! ## Statements -/

/-- What stands behind a statement. -/
def StatementEnd : Sight := fun ts u => Onset ts u ∨ OnClosing ts u ∨ OnOperator ";" .any ts u

/-- What stands behind the expression of a statement. -/
def BehindExpr (isStatement : Bool) : Sight := fun ts u =>
  OnOperator ";" StatementEnd ts u ∨ (StatementEnd ts u ∧ (isStatement || Front.ends ts) = true)

/-- The sign behind the expression of a statement, which may be left out behind a block and at the
end. -/
def behindExpr (p : Phrase) (isStatement : Bool) : Reader (Option Phrase) := do
  match ← Reader.op? ";" with
  | some semi => return some (p ++ semi)
  | none =>
    if ← Reader.front fun ts => isStatement || Front.ends ts then return some p
    else Reader.breaks .statementEnd

/-- A statement behind its attributes. -/
def plainStatement (g : Nesting) (attrs : Phrase) : Reader (Option Phrase) := do
  if ← Reader.front (Front.word "let") then return some (attrs ++ (← binding g))
  else
    let (p, isStatement) ← statementExpr g
    behindExpr (attrs ++ p) isStatement

theorem statement?_eq (g : Nesting) : statement? g = (do
    if ← Reader.front Front.ends then return none
    else if ← Reader.front (Front.op ";") then return some (← Reader.op ";")
    else g.attributes >>= plainStatement g) := rfl

theorem StatementEnd.ends (h : StatementEnd ts u) : Front.ends u = Front.ends ts := by
  rcases h with h | h | h
  · rw [h.ends_left, h.ends_right]
  · rw [h.ends_left, h.ends_right]
  · obtain ⟨j, sp, r, j', sp', v, rfl, rfl⟩ := h.head (c := ';') (l := []) rfl
    rfl

theorem StatementEnd.semi (h : StatementEnd ts u) : Front.op ";" u = Front.op ";" ts := by
  rcases h with h | h | h
  · exact h.sign rfl
  · rw [op_of_ends h.ends_right _ (by decide), op_of_ends h.ends_left _ (by decide)]
  · rw [h.op_self (by decide), h.1]

theorem BehindExpr.loose (h : BehindExpr f ts u) : LooseEnd true f ts u := by
  rcases h with h | ⟨h | h | h, hf⟩
  · exact .inl (.of_sign (by decide) h (by simp) _)
  · rw [h.ends_left, Bool.or_false] at hf
    exact .inr ⟨hf, h⟩
  · exact .inl (.of_ends h.ends_right _)
  · exact .inl (.of_sign (by decide) h (by simp) _)

theorem behindExpr_echo (p : Phrase) (isStatement : Bool) :
    EchoAt L (.option .phrase) p.printed (BehindExpr isStatement) (fun _ => StatementEnd)
      (behindExpr p isStatement)
      (behindExpr p.canonical isStatement) ts := by
  unfold behindExpr
  refine .op? (M := StatementEnd) (N := fun ts u => StatementEnd ts u ∧
    (isStatement || Front.ends ts) = true) (by decide)
    (fun _ => .pure (by simp [Form.option, Form.phrase]) (by simp [Form.option, Form.phrase])
      fun _ hu => hu) (fun _ => ?_)
    (fun u hu => .inl hu) fun hts u hu => ⟨hu.1.semi.trans hts, .inr hu⟩
  refine .ask (Y := StatementEnd) (N := fun _ _ => False)
    (fun _ => .pure (by simp [Form.option, Form.phrase]) rfl fun _ hu => hu)
    (fun _ => .breaks _) (fun hts u hu => ⟨by rw [hu.ends]; exact hts, hu, hts⟩) fun _ _ hu =>
      hu.elim

theorem plainStatement_echo (h : g.Echo g' K J) (hL : L ≤ K + 1) (hJ : L ≤ J) (attrs : Phrase) :
    EchoAt L (.option .phrase) attrs.printed StatementStart (fun _ => StatementEnd)
      (plainStatement g attrs)
      (plainStatement g' attrs.canonical) ts := by
  unfold plainStatement
  refine .ask_eq (fun u hu => hu.word _) (fun _ => ?_) fun _ => ?_
  · exact ((binding_echo h).weaken fun u hu =>
      (AtomStart.of_plain_word (by decide) hu).statement).last (by omega)
      (by simp [Form.option, Form.phrase]) fun _ => by simp [Form.option, Form.phrase]
  · refine .bind (D := L) (M := fun a => BehindExpr a.2) (by omega)
      ((statementExpr_echo h hL hJ).mono le_rfl (fun _ => id) fun _ _ _ _ hw => hw.loose)
        fun a r _ => ?_
    exact behindExpr_echo (attrs ++ a.1) a.2

theorem statement?_echo (h : g.Echo g' K J) (hL : L ≤ K + 1) (hJ : L ≤ J) :
    EchoAt L (.option .phrase) [] StatementEnd (fun _ => StatementEnd) (statement? g)
      (statement? g') ts := by
  rw [statement?_eq, statement?_eq]
  refine .ask_eq (fun u hu => hu.ends) (fun _ => .pure rfl rfl fun _ hu => hu) fun _ => ?_
  refine .ask_eq (fun u hu => hu.semi) (fun _ => ?_) fun _ => ?_
  · exact ((EchoAt.op (M := StatementEnd) (by decide)).weaken fun u hu =>
      .inr (.inr hu.anything)).last (Nat.le_add_right _ _)
      (by simp [Form.option, Form.phrase]) fun _ => rfl
  · refine .bind (D := K + 3) (M := fun _ => StatementStart) (by simp; omega)
      ((Attribute.attributes_echo h fun ts u hu => .of_eq (hu.sign rfl)).weaken fun u hu => .inl ?_)
        fun attrs r _ =>
      plainStatement_echo h hL hJ attrs
    exact hu.elim .of_pound (·.2.toOnset)

theorem printed_of_statementExpr (h : g.Echo g' K J) (hs : Sound (tokensOf ts)) {a : ExprPhrase}
    {r : List Placed} (ha : statementExpr g ts = .ok (a, r)) : a.1.printed ≠ [] := by
  refine (statementExpr_echo (L := 0) h (by omega) (by omega)).printed_ne hs ha
    (.inl (.of_ends rfl _)) fun hS => ?_
  exact Bool.false_ne_true (hS.ends_right.symm.trans rfl)

theorem printed_of_statement (h : g.Echo g' K J) (hs : Sound (tokensOf ts)) {p : Phrase}
    {r : List Placed} (hp : statement? g ts = .ok (some p, r)) : p.printed ≠ [] := by
  rw [statement?_eq, Reader.ask_apply] at hp
  split at hp
  · cases hp
  rw [Reader.ask_apply] at hp
  split at hp
  · obtain ⟨_, _, ho, hp⟩ := Reader.bind_eq_ok hp
    cases hp
    exact printed_of_op (by decide) ho
  obtain ⟨attrs, s, hattrs, hp⟩ := Reader.bind_eq_ok hp
  have hsuffix : s <:+ ts :=
    ((Attribute.attributes_echo (M := StatementStart) h fun ts u hu => .of_eq (hu.sign rfl)) hs
    attrs s hattrs).1
  rw [plainStatement, Reader.ask_apply] at hp
  split at hp
  · obtain ⟨q, _, hq, hp⟩ := Reader.bind_eq_ok hp
    cases hp
    rw [binding_eq] at hq
    obtain ⟨_, _, -, hq⟩ := Reader.bind_eq_ok hq
    obtain ⟨_, _, -, hq⟩ := Reader.bind_eq_ok hq
    obtain ⟨_, _, -, hq⟩ := Reader.bind_eq_ok hq
    obtain ⟨_, _, -, hq⟩ := Reader.bind_eq_ok hq
    obtain ⟨_, _, hsemi, hq⟩ := Reader.bind_eq_ok hq
    cases hq
    simp [printed_of_op (by decide) hsemi]
  · obtain ⟨a, s', ha, hp⟩ := Reader.bind_eq_ok hp
    have hne := printed_of_statementExpr h (hs.suffix (tokensOf_suffix hsuffix)) ha
    obtain ⟨o, _, -, hp⟩ := Reader.bind_eq_ok hp
    cases o with
    | some semi =>
      cases hp
      simp [hne]
    | none =>
      simp only [Reader.ask_apply] at hp
      split at hp
      · cases hp
        simp [hne]
      · cases hp

theorem block_echo (h : g.Echo g' K J) :
    EchoAt (K + 1) .phrase [] (OnToken (.opening .brace) .any) (fun _ => .any) (block g)
      (block g') ts := by
  have hle := h.le
  unfold block
  refine .last (D := K + 2) (.inside (T := .any) fun s r _ =>
    EchoAt.mono (.many (fun ts => statement?_echo (L := K) h (by omega) hle)
    fun ts p r hs hp => printed_of_statement h hs hp) le_rfl (fun _ _ => trivial) fun _ _ _ _ hw =>
    .inr (.inl hw)) (by simp)
    (by simp [Form.phrase, Form.inside]) (by simp [Form.phrase, Form.inside])

end Grammar

end KeyedRecord.Source
