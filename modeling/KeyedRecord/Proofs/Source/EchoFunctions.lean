import KeyedRecord.Proofs.Source.EchoBounds

/-!
# Sums of bounds and function types echo

A sum goes on while a plus sign stands behind a bound, and ends at a sign that its reader names.  A
function type may begin with a binder, a word and a string, each of which may be missing.

Principal results: `boundSum_echo` and `functionType_echo`.
-/

set_option autoImplicit false

namespace KeyedRecord.Source

namespace Phrase

theorem append_assoc (p q r : Phrase) : p ++ q ++ r = p ++ (q ++ r) :=
  congrArg₂ Phrase.mk (List.append_assoc ..) (List.append_assoc ..)

theorem empty_append (p : Phrase) : empty ++ p = p := rfl

end Phrase

open Grammar

/-! ## Starts of types -/

section Starts

variable {ts u : List Placed} {E : Sight}

namespace TypeStart

/-- A type that starts with no word and no lifetime. -/
theorem of_no_word (h : Onset ts u) (hw : Front.anyWord u = false) (hl : Front.lifetime u = false) :
    TypeStart E ts u := by
  have hword (w : String) : Front.word w u = false := by
    rcases u with _ | ⟨⟨t, s⟩, v⟩
    · rfl
    · cases t <;> first | rfl | cases hw
  have hident : Front.identifier u = false := by
    rcases u with _ | ⟨⟨t, s⟩, v⟩
    · rfl
    · cases t <;> first | rfl | cases hw
  exact ⟨h, by simp [hword, hident], hword _, by simp [hl]⟩

theorem of_operator {s : String} {M : Sight} (hs : beginsPhrase s.toList = true)
    (h : OnOperator s M ts u) :
    TypeStart E ts u := by
  have hne : s.toList ≠ [] := by rintro h; simp [h, beginsPhrase] at hs
  exact of_no_word (.of_operator hs h) (h.no_leaf hne).1 (h.no_leaf hne).2.1

theorem of_opening {d : Delimiter} {M : Sight} (h : OnToken (.opening d) M ts u) :
    TypeStart E ts u := by
  refine of_no_word (.of_token (by simp) (by simp) h) ?_ ?_ <;>
  · obtain ⟨s, r, s', v, -, rfl, -⟩ := h
    rfl

/-- A word that is no name. -/
theorem of_word {w : String} {M : Sight} (hw : Front.reserved.contains w = true)
    (hno : w ≠ "_" ∧ w ≠ "self" ∧ w ≠ "mut") (h : OnToken (.ident w) M ts u) :
      TypeStart E ts u := by
  have hO : Onset ts u := .of_token (by simp) (by simp) h
  obtain ⟨s, r, s', v, rfl, rfl, -⟩ := h
  refine ⟨hO, ?_, ?_, by simp [Front.lifetime]⟩
  · rintro (h | h | h)
    · simp only [Front.identifier, hw] at h
      cases h
    · exact absurd (beq_iff_eq.mp h) hno.1
    · exact absurd (beq_iff_eq.mp h) hno.2.1
  · exact beq_eq_false_iff_ne.mpr hno.2.2

end TypeStart

theorem ItemEnd.not_colon (h : ItemEnd ts u) : Front.op ":" u = false :=
  h.elim (fun h => (h.op (by decide) _).trans (by decide)) fun h =>
    op_of_ends h.ends_right _ (by decide)

/-- What follows the first name of a type is no colon with a type behind it. -/
theorem Continues.not_named (h : Continues ItemEnd ts u) :
    Front.op ":" u = true → Front.op "::" u = true := by
  intro hu
  rcases h with h | ⟨s, hs, h⟩
  · rw [h.not_colon] at hu
    cases hu
  · simp only [List.mem_cons, List.not_mem_nil, or_false] at hs
    rcases hs with rfl | rfl | rfl | rfl
    · exact h.op_self (by decide)
    all_goals
      rw [h.op (by decide)] at hu
      cases hu

theorem TypeStart.not_named (h : TypeStart ItemEnd ts u) (isFirst : Bool) :
    ((startsArgumentName u || (isFirst && Front.word "self" u)) && namedArgument u) = false := by
  cases hname : startsArgumentName u || (isFirst && Front.word "self" u) with
  | false => rfl
  | true =>
    have hcont : Continues ItemEnd (ts.drop 1) (u.drop 1) := h.named (by
      simp only [startsArgumentName, Bool.or_eq_true, Bool.and_eq_true] at hname
      rcases hname with (hname | hname) | ⟨-, hname⟩
      · exact .inl hname
      · exact .inr (.inl hname)
      · exact .inr (.inr hname))
    cases hcolon : Front.op ":" (u.drop 1) with
    | false => simp only [namedArgument, hcolon, Bool.false_and, Bool.and_false]
    | true => simp only [namedArgument, hcont.not_named hcolon, Bool.not_true, Bool.and_false]

/-- No dots stand behind a double colon. -/
theorem not_dots_of_colons (h : Front.op "::" u = true) : Front.op "..." (u.drop 1) = false := by
  change Front.isOperator [':', ':'] u = true at h
  change Front.isOperator ['.', '.', '.'] (u.drop 1) = false
  rcases u with _ | ⟨⟨t, s⟩, _ | ⟨⟨t', s'⟩, v⟩⟩
  · cases h
  · rfl
  · cases t' <;> try rfl
    cases t <;> simp only [Front.isOperator, Bool.false_eq_true, Bool.and_eq_true, beq_iff_eq] at h
    simp [Front.isOperator, ← h.2]

theorem TypeStart.not_variadic (h : TypeStart ItemEnd ts u) (hts : startsVariadic ts = false) :
    startsVariadic u = false := by
  simp only [startsVariadic, Bool.or_eq_false_iff] at hts ⊢
  refine ⟨h.op_false hts.1, ?_⟩
  cases hname : startsArgumentName u with
  | false => rfl
  | true =>
    have hcont : Continues ItemEnd (ts.drop 1) (u.drop 1) := h.named (by
      simp only [startsArgumentName, Bool.or_eq_true] at hname
      exact hname.imp id .inl)
    cases hcolon : Front.op ":" (u.drop 1) with
    | false => rfl
    | true =>
      have := not_dots_of_colons (hcont.not_named hcolon)
      rw [List.drop_drop] at this
      simpa using this

end Starts

namespace Grammar

variable {g g' : Nesting} {K J L : Nat} {ts : List Placed} {E : Sight}

/-! ## Sums of bounds -/

/-- Bounds behind a plus sign. -/
theorem moreBounds_echo (h : g.Echo g' K J) (hE : ∀ r w, E r w → TypeEnd r w) (rules : BoundRules) :
    EchoAt J (.list "+" (.marked .phrase)) [] (fun ts u => Onset ts u ∨ E ts u) (fun _ => E)
      (Reader.chain (fun ts => !startsBound rules.const ts) "+" (g.bound rules))
      (Reader.chain (fun ts => !startsBound rules.const ts) "+" (g'.bound rules)) ts := by
  refine .chain (by decide) (fun ts _ => h.anyBound rules fun _ _ => id) (fun ts u hu hts => ?_)
    (fun ts u hu hts => ?_)
    (fun ts u hu => (hE _ _ hu).plus) (fun _ ts u hu => hE _ _ hu) fun _ ts u hu => .of_plus hu
  · rw [← hts, hu.startsBound]
  · simpa using (hE _ _ hu).bound rules.const (by simpa using hts)

theorem boundSum_echo (h : g.Echo g' K J) (hE : ∀ r w, E r w → TypeEnd r w) (rules : BoundRules)
    (allowPlus : Bool) :
    EchoAt J (.list "+" (.marked .phrase)) [] Onset (fun _ => E) (boundSum g rules allowPlus)
      (boundSum g' rules allowPlus) ts := by
  unfold boundSum
  refine .bind (M := fun _ => TypeEnd) (Nat.le_add_right _ _) (h.anyBound rules fun _ _ => id)
    fun first r _ => ?_
  cases allowPlus
  · exact .pure (by simp [Form.list]) rfl fun u hu => hE _ _ hu
  · refine .op? (N := E) (M := .any) (by decide) (fun _ => ?_)
      (fun _ => .pure (by simp [Form.list]) rfl fun _ h => h) (fun u hu => .of_plus hu)
      fun hts u hu => ⟨(hE _ _ hu).plus hts, hE _ _ hu⟩
    exact ((moreBounds_echo h hE rules).weaken fun _ _ => trivial).last (Nat.le_add_right _ _)
      (by simp [Form.list]) fun _ => rfl

theorem namesTrait_canon (bounds : List ((BoundKind × Phrase) × Bool)) :
    namesTrait ((Form.list "+" (.marked .phrase)).canon bounds) = namesTrait bounds := by
  simp [namesTrait, Form.list, Form.marked, Function.comp_def]

theorem objectBounds_echo (h : g.Echo g' K J) (hE : ∀ r w, E r w → TypeEnd r w) (allowPlus : Bool) :
    EchoAt J (.list "+" (.marked .phrase)) [] Onset (fun _ => E) (objectBounds g allowPlus)
      (objectBounds g' allowPlus) ts := by
  unfold objectBounds
  refine .bind (Nat.le_add_right _ _) (boundSum_echo h hE _ _) fun bounds r _ => ?_
  rw [namesTrait_canon]
  split
  · exact .pure rfl rfl fun _ h => h
  · exact .breaks _

/-- A plus sign, or what follows a sum. -/
def PlusOr (E : Sight) : Sight := fun ts u =>
  OnOperator "+" .any ts u ∨ (Front.op "+" ts = false ∧ E ts u)

theorem PlusOr.type (hE : ∀ r w, E r w → TypeEnd r w) {u : List Placed} (h : PlusOr E ts u) :
    TypeEnd ts u :=
  h.elim .of_plus fun h => hE _ _ h.2

theorem plusBounds_echo (h : g.Echo g' K J) (hE : ∀ r w, E r w → TypeEnd r w) :
    EchoAt J .phrase [] (PlusOr E) (fun _ => E) (plusBounds g) (plusBounds g') ts := by
  unfold plusBounds
  refine EchoAt.mono (.many (R := PlusOr E) (fun ts => ?_) fun ts p r hs hp => ?_) le_rfl
    (fun _ => id) fun p r w hp hw => .inr ⟨Reader.many_ends (P := fun r => Front.op "+" r = false)
      (fun ts r hr => ?_) hp, hw⟩
  · refine .op? (N := PlusOr E) (M := .any) (by decide) (fun _ => ?_)
      (fun _ => .pure rfl rfl fun _ h => h) (fun u => .inl) fun hts u hu => ⟨?_, hu⟩
    · exact ((h.anyBound _ fun _ _ => PlusOr.type hE).weaken fun _ _ => trivial).last (by simp)
        (by simp [Form.option, Form.marked, Form.phrase]) fun _ => rfl
    · exact hu.elim (fun hu => absurd hu.1 (by simp [hts])) fun hu => (hE _ _ hu.2).plus hts
  · rw [Reader.op?_apply] at hp
    split at hp
    · obtain ⟨b, s, -, hp⟩ := Reader.bind_eq_ok hp
      cases hp
      simp [operatorTokens]
    · cases hp
  · rw [Reader.op?_apply] at hr
    split at hr
    · obtain ⟨b, s, -, hr⟩ := Reader.bind_eq_ok hr
      cases hr
    · rename_i hno
      cases hr
      exact Bool.eq_false_iff.mpr hno

/-! ## Arguments of functions -/

/-- The name of an argument with its colon, if it has one. -/
def argumentName (isFirst : Bool) : Reader Phrase := do
  if ← Reader.front fun ts =>
      (startsArgumentName ts || (isFirst && Front.word "self" ts)) && namedArgument ts then
    let n ← Reader.anyWord
    return .word n ++ (← Reader.op ":")
  else return .empty

/-- The type of an argument, which of the first one may be `mut self`. -/
def argumentType (g : Nesting) (isFirst : Bool) : Reader Phrase := do
  if ← Reader.front fun ts => isFirst && Front.word "mut" ts && Front.word "self" (ts.drop 1) then
    let m ← Reader.word "mut"
    return m ++ (← Reader.word "self")
  else g.anyType

/-- The dots of a function with any number of arguments. -/
def variadic : Reader Phrase := do
  if ← Reader.front startsArgumentName then
    let n ← Reader.anyWord
    let colon ← Reader.op ":"
    return .word n ++ colon ++ (← Reader.op "...")
  else Reader.op "..."

theorem functionArgument_eq (g : Nesting) (isFirst : Bool) : functionArgument g isFirst = (do
    let attrs ← g.attributes
    if ← Reader.front startsVariadic then return attrs ++ (← variadic)
    else if ← Reader.front fun ts =>
        isFirst && Front.word "mut" ts && Front.word "self" (ts.drop 1) then
      let m ← Reader.word "mut"
      let name ← argumentName isFirst
      if name.printed.isEmpty then return attrs ++ m ++ (← Reader.word "self")
      else return attrs ++ m ++ name ++ (← argumentType g isFirst)
    else
      let name ← argumentName isFirst
      return attrs ++ name ++ (← argumentType g isFirst)) := by
  unfold functionArgument argumentName argumentType variadic
  simp only [Reader.ite_bind, bind_assoc, pure_bind, Phrase.append_assoc, Phrase.empty_append]
  refine bind_congr fun attrs => bind_congr fun isVariadic => ?_
  split
  · rfl
  · refine bind_congr fun mutSelf => ?_
    cases mutSelf <;> simp

/-- The dots of a function with any number of arguments, possibly named. -/
def VariadicStart : Sight := fun ts u =>
  OnOperator "..." ItemEnd ts u ∨
    ∃ w, OnToken (.ident w) (OnOperator ":" (OnOperator "..." ItemEnd)) ts u

/-- A name with its colon. -/
def NamedStart (M : Sight) : Sight := fun ts u => ∃ w, OnToken (.ident w) (OnOperator ":" M) ts u

/-- The start of what `argumentType` reads. -/
def ArgumentTypeStart : Sight := fun ts u =>
  OnToken (.ident "mut") (OnToken (.ident "self") ItemEnd) ts u ∨ TypeStart ItemEnd ts u

theorem variadic_echo :
    EchoAt L .phrase [] VariadicStart (fun _ => ItemEnd) variadic variadic ts := by
  have honset {ts u : List Placed} (h : VariadicStart ts u) : Onset ts u :=
    h.elim (.of_operator (by decide)) fun ⟨w, h⟩ => .of_token (by simp) (by simp) h
  unfold variadic
  refine .ask_eq (fun u hu => ?_) (fun _ => ?_) fun _ =>
    (EchoAt.op (by decide)).weaken fun _ => .inl
  · simp only [startsArgumentName, (honset hu).identifier, (honset hu).word]
  · refine .bind (M := fun _ => OnOperator ":" (OnOperator "..." ItemEnd)) (Nat.le_add_right _ _)
      (EchoAt.anyWord.weaken fun u => .inr) fun n r _ => .op_then (by decide) fun _ => ?_
    exact (EchoAt.op (by decide)).last (Nat.le_add_right _ _) (by simp [Form.phrase, Form.name])
      fun _ => rfl

theorem argumentName_echo {isFirst : Bool} {M W : Sight} (hM : ∀ ts u, M ts u →
      ((startsArgumentName u || (isFirst && Front.word "self" u)) && namedArgument u) = false) :
    EchoAt L .phrase [] (fun ts u => NamedStart W ts u ∨ M ts u)
      (fun p => if p.printed.isEmpty then M else W) (argumentName isFirst)
        (argumentName isFirst) ts := by
  unfold argumentName
  refine .ask (Y := NamedStart W) (N := M) (fun _ => ?_) (fun _ => .pure rfl rfl fun _ h => h)
    (fun hts u ⟨w, hu⟩ => ⟨?_, .inl ⟨w, hu⟩⟩) fun _ u hu => ⟨hM _ _ hu, .inr hu⟩
  · refine .bind (M := fun _ => OnOperator ":" W) (Nat.le_add_right _ _) .anyWord fun n r _ => ?_
    refine .bind (M := fun _ => W) (Nat.le_add_right _ _) (.op (by decide)) fun colon r _ => ?_
    exact .pure (by simp [Form.phrase, Form.name]) rfl fun u hu => by simpa using hu
  · have hO : Onset ts u := .of_token (by simp) (by simp) hu
    obtain ⟨s, r, s', v, rfl, rfl, hv⟩ := hu
    have h₁ : Front.op ":" v = true := hv.op_self (by decide)
    have h₂ : Front.op "::" v = false := (hv.op (by decide) _).trans (by decide)
    simp only [startsArgumentName, hO.identifier, hO.word, namedArgument, List.drop_succ_cons,
      List.drop_zero,
      h₁, h₂] at hts ⊢
    simp only [Bool.and_eq_true] at hts
    simp [hts.1]

theorem argumentType_echo (h : g.Echo g' K J) (isFirst : Bool) :
    EchoAt K .phrase [] ArgumentTypeStart (fun _ => ItemEnd) (argumentType g isFirst)
      (argumentType g' isFirst) ts := by
  unfold argumentType
  refine .ask (Y := OnToken (.ident "mut") (OnToken (.ident "self") ItemEnd))
    (N := TypeStart ItemEnd)
    (fun _ => ?_) (fun _ => h.anyType fun _ _ => ItemEnd.type) (fun hts u hu => ⟨?_, .inl hu⟩)
    fun _ u hu => ⟨by simp [hu.immutable], .inr hu⟩
  · exact .word_then fun s r _ => EchoAt.word.last (Nat.le_add_right _ _) (by simp [Form.phrase])
      fun _ => rfl
  · obtain ⟨s, r, s', v, rfl, rfl, s₂, r₂, s₂', v₂, rfl, rfl, -⟩ := hu
    exact hts

/-- What follows `mut` where it stands before the first argument. -/
def MutableStart : Sight := fun ts u =>
  NamedStart ArgumentTypeStart ts u ∨ OnToken (.ident "self") ItemEnd ts u

/-- The start of an argument that may have no dots. -/
def PlainArgumentStart : Sight := fun ts u =>
  OnToken (.ident "mut") MutableStart ts u ∨ NamedStart ArgumentTypeStart ts u ∨
    ArgumentTypeStart ts u

section Starts

variable {u : List Placed}

theorem ArgumentTypeStart.onset (h : ArgumentTypeStart ts u) : Onset ts u :=
  h.elim (.of_token (by simp) (by simp)) TypeStart.toOnset

theorem VariadicStart.onset (h : VariadicStart ts u) : Onset ts u :=
  h.elim (.of_operator (by decide)) fun ⟨_, h⟩ => .of_token (by simp) (by simp) h

theorem PlainArgumentStart.onset (h : PlainArgumentStart ts u) : Onset ts u := by
  rcases h with h | ⟨w, h⟩ | h
  · exact .of_token (by simp) (by simp) h
  · exact .of_token (by simp) (by simp) h
  · exact h.onset

theorem MutableStart.onset (h : MutableStart ts u) : Onset ts u :=
  h.elim (fun ⟨_, h⟩ => .of_token (by simp) (by simp) h) (.of_token (by simp) (by simp))

theorem VariadicStart.variadic (h : VariadicStart ts u) (hts : startsVariadic ts = true) :
    startsVariadic u = true := by
  have hO := h.onset
  rcases h with h | ⟨w, s, r, s', v, rfl, rfl, h⟩
  · simp [startsVariadic, h.op_self (by decide)]
  · have h₁ := h.op_self (by decide)
    have h₂ : Front.op "..." (v.drop 1) = true := h.behind.op_self (by decide)
    have hno : Front.op "..." (⟨.ident w, s⟩ :: r) = false := op_of_leaf (by simp) (by decide) s r
    simp only [startsVariadic, startsArgumentName, hO.identifier, hO.word, hno, List.drop_succ_cons,
      List.drop_zero, Bool.false_or, h₁, Bool.and_true, Bool.and_eq_true, Bool.or_eq_true] at hts ⊢
    exact .inr ⟨hts.1.1, h₂⟩

/-- A word that is no name starts no dots. -/
theorem not_variadic_of_word {w : String} {s : Span} {v : List Placed}
    (hw : Front.reserved.contains w = true) (hno : w ≠ "_") :
      startsVariadic (⟨.ident w, s⟩ :: v) = false := by
  have h₁ : Front.op "..." (⟨.ident w, s⟩ :: v) = false := op_of_leaf (by simp) (by decide) s v
  have h₂ : Front.identifier (⟨.ident w, s⟩ :: v) = false := by
    simp only [Front.identifier, hw, Bool.not_true]
  have h₃ : Front.word "_" (⟨.ident w, s⟩ :: v) = false := beq_eq_false_iff_ne.mpr hno
  simp [startsVariadic, startsArgumentName, h₁, h₂, h₃]

theorem PlainArgumentStart.not_variadic (h : PlainArgumentStart ts u)
    (hts : startsVariadic ts = false) :
    startsVariadic u = false := by
  rcases h with h | ⟨w, h⟩ | h | h
  · obtain ⟨s, r, s', v, rfl, rfl, -⟩ := h
    exact not_variadic_of_word (by decide) (by decide)
  · have hO : Onset ts u := .of_token (by simp) (by simp) h
    obtain ⟨s, r, s', v, rfl, rfl, h⟩ := h
    have h₁ : Front.op ":" r = true := h.1
    have h₂ : Front.op "..." (⟨.ident w, s'⟩ :: v) = false := op_of_leaf (by simp) (by decide) s' v
    have h₃ : Front.op "..." (r.drop 1) = false → Front.op "..." (v.drop 1) = false :=
      h.behind.onset.op_false
    simp only [startsVariadic, startsArgumentName, hO.identifier, hO.word, h₂, List.drop_succ_cons,
      h₁, List.drop_zero, Bool.or_eq_false_iff, Bool.and_true] at hts ⊢
    refine ⟨trivial, ?_⟩
    cases hname : Front.identifier (⟨.ident w, s⟩ :: r) || Front.word "_" (⟨.ident w, s⟩ :: r) with
    | false => rfl
    | true =>
      rw [hname, Bool.true_and] at hts
      rw [h₃ hts.2, Bool.and_false]
  · obtain ⟨s, r, s', v, rfl, rfl, -⟩ := h
    exact not_variadic_of_word (by decide) (by decide)
  · exact h.not_variadic hts

end Starts

theorem functionArgument_echo (h : g.Echo g' K J) (isFirst : Bool) :
    EchoAt K .phrase [] (Attribute.Start fun ts u => VariadicStart ts u ∨ PlainArgumentStart ts u)
      (fun _ => ItemEnd) (functionArgument g isFirst) (functionArgument g' isFirst) ts := by
  rw [functionArgument_eq, functionArgument_eq]
  refine .bind (M := fun _ ts u => VariadicStart ts u ∨ PlainArgumentStart ts u) (by simp)
    (Attribute.attributes_echo h fun ts u hu => .of_eq ?_) fun attrs r _ => ?_
  · exact (hu.elim VariadicStart.onset PlainArgumentStart.onset).sign rfl
  refine .ask (Y := VariadicStart) (N := PlainArgumentStart) (fun _ => ?_) (fun _ => ?_)
    (fun hts u hu => ⟨hu.variadic hts, .inl hu⟩) fun hts u hu => ⟨hu.not_variadic hts, .inr hu⟩
  · exact variadic_echo.last (Nat.le_add_right _ _) (by simp [Form.phrase]) fun _ => rfl
  refine .ask (Y := OnToken (.ident "mut") MutableStart)
    (N := fun ts u => NamedStart ArgumentTypeStart ts u ∨ ArgumentTypeStart ts u)
    (fun _ => ?_) (fun _ => ?_) (fun hts u hu => ⟨?_, .inl hu⟩) fun hts u hu => ⟨?_, .inr hu⟩
  · refine .word_then fun s r _ => ?_
    refine .bind (D := K) (by omega) (argumentName_echo fun ts u hu => ?_) fun name r _ => ?_
    · obtain ⟨s, r, s', v, rfl, rfl, hv⟩ := hu
      simp [namedArgument, hv.not_colon]
    · show EchoAt K _ _ _ _ (if name.printed.isEmpty = true then _ else _)
        (if name.printed.isEmpty = true then _ else _) r
      cases hname : name.printed.isEmpty
      · exact (argumentType_echo h _).last (by omega) (by simp [Form.phrase]) fun _ => rfl
      · have : name.printed = [] := List.isEmpty_iff.mp hname
        exact EchoAt.word.last (Nat.le_add_right _ _) (by simp [Form.phrase, this]) fun _ => rfl
  · refine .bind (D := K) (M := fun _ => ArgumentTypeStart) (by omega)
      (EchoAt.mono (argumentName_echo (M := ArgumentTypeStart)
      (W := ArgumentTypeStart) fun ts u hu => ?_) le_rfl (fun _ => id) fun p _ _ _ => ?_)
      fun name r _ => ?_
    · rcases hu with hu | hu
      · obtain ⟨s, r, s', v, rfl, rfl, -⟩ := hu
        have : startsArgumentName (⟨.ident "mut", s'⟩ :: v) = false := rfl
        simp [this, Front.word]
      · exact hu.not_named _
    · exact fun hw => by split <;> exact hw
    · exact (argumentType_echo h _).last (by omega) (by simp [Form.phrase]) fun _ => rfl
  · obtain ⟨s, r, s', v, rfl, rfl, hv⟩ := hu
    rw [← hts]
    simp only [List.drop_succ_cons, List.drop_zero, hv.onset.word]
    rfl
  · rcases hu with ⟨w, s, r, s', v, rfl, rfl, hv⟩ | hu | hu
    · have := (hv.no_leaf (by decide)).2.2.2.1 "self"
      simp [this]
    · obtain ⟨s, r, s', v, rfl, rfl, s₂, r₂, s₂', v₂, rfl, rfl, -⟩ := hu
      exact hts
    · simp [hu.immutable]

/-! ## Function types -/

theorem functionArguments_echo (h : g.Echo g' K J) :
    EchoAt K .phrase [] .any (fun _ => OnClosing) (functionArguments g)
      (functionArguments g') ts := by
  have honset {ts u : List Placed}
    (hu : Attribute.Start (fun ts u => VariadicStart ts u ∨ PlainArgumentStart ts u) ts u) :
      Onset ts u := by
    rcases hu with hu | ⟨-, hu | hu⟩
    · exact .of_pound hu
    · exact hu.onset
    · exact hu.onset
  unfold functionArguments
  refine .ask (Y := OnClosing) (N := Onset) (fun _ => .pure rfl rfl fun _ h => h) (fun _ => ?_)
    (fun _ u hu => ⟨hu.ends_right, trivial⟩) fun _ u hu => ⟨hu.ends_right, trivial⟩
  refine .bind (M := fun _ => ItemEnd) (Nat.le_add_right _ _)
    ((functionArgument_echo h true).weaken fun _ => honset) fun first r _ => ?_
  refine .op? (N := OnClosing) (M := .any) (by decide) (fun _ => ?_)
    (fun _ => .pure rfl rfl fun _ h => h) (fun u => .inl)
    fun _ u hu => ⟨op_of_ends hu.ends_right _ (by decide), .inr hu⟩
  refine EchoAt.last (D := K)
    ((EchoAt.commas (fun ts => (functionArgument_echo h false).weaken fun _ => honset)
    (fun ts u hu => hu.ends_right) _).weaken fun _ _ => trivial) (by omega) ?_ ?_
  · simp [Form.phrase, Phrase.printed_separated]
  · simp [Form.phrase, Phrase.canonical_separated]

/-- The name of a calling convention, if there is one before the word `fn`. -/
theorem string?_echo {M : Sight} :
    EchoAt L .phrase [] Onset (fun _ => OnToken (.ident "fn") M) string? string? ts := by
  by_cases h : ∃ text s r, ts = ⟨.literal text, s⟩ :: r ∧ isStringLiteral text = true
  · obtain ⟨text, s, r, rfl, htext⟩ := h
    have run (s : Span) (r : List Placed) :
        string? (⟨.literal text, s⟩ :: r) = .ok (.ofToken (.literal text), r) := by
          simp [string?, htext]
    exact .token (a := .ofToken (.literal text)) (run s r) run rfl trivial (by simp)
      fun u hu => .of_token (by simp) (by simp) hu
  · have hnone : string? ts = .ok (.empty, ts) := by
      unfold string?
      split
      · rename_i text s r
        rw [if_neg fun htext => h ⟨text, s, r, rfl, htext⟩]
      · rfl
    intro _ p r hp
    rw [hnone] at hp
    cases hp
    refine ⟨List.suffix_rfl, [], rfl, .nil, fun us w hu hw => ?_⟩
    obtain rfl : us = [] := List.map_eq_nil_iff.mp hu
    refine ⟨.of_token (by simp) (by simp) hw, fun _ => ?_⟩
    obtain ⟨s, r, s', v, -, rfl, -⟩ := hw
    rfl

/-- A word, if it stands here. -/
theorem word?_echo {w : String} {M : Sight} (hM : ∀ ts u, M ts u → Denies (Front.word w) ts u) :
    EchoAt L .phrase [] (fun ts u => OnToken (.ident w) M ts u ∨ M ts u) (fun _ => M)
      (word? w) (word? w)
      ts := by
  unfold word?
  refine .ask (Y := OnToken (.ident w) M) (N := M) (fun _ => .word)
    (fun _ => .pure rfl rfl fun _ h => h)
    (fun _ u hu => ⟨?_, .inl hu⟩) fun hts u hu => ⟨hM _ _ hu hts, .inr hu⟩
  obtain ⟨s, r, s', v, -, rfl, -⟩ := hu
  simp [Front.word]

/-- A lifetime, if one stands here. -/
def lifetime? : Reader Phrase := do
  if ← Reader.front Front.lifetime then Reader.lifetime else return .empty

theorem lifetime?_echo {M : Sight} (hM : ∀ ts u, M ts u → Denies Front.lifetime ts u) :
    EchoAt L .phrase [] (fun ts u => (∃ name, OnToken (.lifetime name) M ts u) ∨ M ts u)
      (fun _ => M)
      lifetime? lifetime? ts := by
  unfold lifetime?
  refine .ask (Y := fun ts u => ∃ name, OnToken (.lifetime name) M ts u) (N := M)
    (fun _ => .lifetime)
    (fun _ => .pure rfl rfl fun _ h => h) (fun _ u ⟨name, hu⟩ => ⟨?_, .inl ⟨name, hu⟩⟩)
    fun hts u hu => ⟨hM _ _ hu hts, .inr hu⟩
  obtain ⟨s, r, s', v, -, rfl, -⟩ := hu
  rfl

/-- The calling convention of a function type. -/
def abi : Reader Phrase := do
  if ← Reader.front (Front.word "extern") then
    let w ← Reader.word "extern"
    return w ++ (← string?)
  else return .empty

theorem functionType_eq (g : Nesting) : functionType g = (do
    let unsafety ← word? "unsafe"
    let convention ← abi
    let fn ← Reader.word "fn"
    let args ← Reader.inside .paren (functionArguments g)
    return unsafety ++ convention ++ fn ++ .bracketed .paren args ++ (← returnType g)) := by
  unfold functionType abi
  simp only [Reader.ite_bind, bind_assoc, pure_bind]

theorem abi_echo {M : Sight} :
    EchoAt L .phrase [] (fun ts u => OnToken (.ident "extern") .any ts u ∨
      OnToken (.ident "fn") .any ts u)
      (fun _ => OnToken (.ident "fn") M) abi abi ts := by
  unfold abi
  refine .ask (Y := OnToken (.ident "extern") .any) (N := OnToken (.ident "fn") M) (fun _ => ?_)
    (fun _ => .pure rfl rfl fun _ h => h) (fun _ u hu => ⟨?_, .inl hu⟩) fun _ u hu =>
      ⟨?_, .inr hu.anything⟩
  · refine .word_then fun s r _ => ?_
    exact (string?_echo.weaken fun _ _ => trivial).last (Nat.le_add_right _ _)
      (by simp [Form.phrase]) fun _ => rfl
  all_goals
    obtain ⟨s, r, s', v, -, rfl, -⟩ := hu
    rfl

/-- The start of a function type behind the word `unsafe`. -/
def SafeFunctionStart : Sight := fun ts u =>
  OnToken (.ident "extern") .any ts u ∨ OnToken (.ident "fn") .any ts u

theorem functionType_echo (h : g.Echo g' K J) (hE : ∀ r w, E r w → TypeEnd r w) :
    EchoAt (K + 1) .phrase [] (TypeStart E) (fun _ => E) (functionType g) (functionType g') ts := by
  rw [functionType_eq, functionType_eq]
  refine .bind (M := fun _ => SafeFunctionStart) (Nat.le_add_right _ _)
    (EchoAt.weaken (word?_echo fun ts u hu => ?_) fun u hu => ?_) fun unsafety r _ => ?_
  · rcases hu with hu | hu <;> exact .of_eq ((Onset.of_token (by simp) (by simp) hu).word _)
  · rcases hu with hu | hu | hu <;> exact .of_word (by decide) (by decide) hu
  refine .bind (M := fun _ => OnToken (.ident "fn") .any) (Nat.le_add_right _ _) abi_echo
    fun convention r _ => ?_
  refine .word_then fun s r _ => ?_
  refine .bind (D := K + 2) (M := fun _ => .any) (by omega)
    (EchoAt.weaken (.inside fun _ _ _ => functionArguments_echo h) fun _ _ => trivial)
      fun args r _ => ?_
  exact (returnType_echo h hE).last (by omega) (by simp [Form.phrase, Form.inside])
    (by simp [Form.phrase, Form.inside])

end Grammar

end KeyedRecord.Source
