import Mathlib.Data.List.Find
import KeyedRecord.Proofs.Source.EchoPatterns

/-!
# Signs behind an expression

An expression may end before any sign, because a larger one goes on with it.  Whatever was asked
about the sign in the source has the same answer in print, as long as the sign is the longest one
that stands there.
-/

set_option autoImplicit false

namespace KeyedRecord.Source

open Grammar

variable {s : String} {kind : OperatorKind} {M : Sight} {ts u : List Placed}

/-! ## Operators -/

/-- Of two operators at one place one begins the other. -/
theorem isOperator_total {a b : List Char} (ha : Front.isOperator a ts = true)
    (hb : Front.isOperator b ts = true) :
    a <+: b ∨ b <+: a := by
  induction a generalizing b ts with
  | nil => exact .inl (List.nil_prefix)
  | cons c a ih =>
    rcases b with _ | ⟨c', b⟩
    · exact .inr List.nil_prefix
    rcases ts with _ | ⟨⟨t, sp⟩, r⟩
    · cases a <;> cases ha
    cases t with
    | punct d j =>
      have hfirst {x : Char} {l : List Char}
        (h : Front.isOperator (x :: l) (⟨.punct d j, sp⟩ :: r) = true) :
          x = d ∧ (l = [] ∨ Front.isOperator l r = true) := by
        cases l with
        | nil => exact ⟨beq_iff_eq.mp h, .inl rfl⟩
        | cons y l =>
          simp only [Front.isOperator, Bool.and_eq_true, beq_iff_eq] at h
          exact ⟨h.1.1, .inr h.2⟩
      obtain ⟨rfl, ha'⟩ := hfirst ha
      obtain ⟨rfl, hb'⟩ := hfirst hb
      simp only [List.cons_prefix_cons, true_and]
      rcases ha' with rfl | ha'
      · exact .inl List.nil_prefix
      rcases hb' with rfl | hb'
      · exact .inr List.nil_prefix
      exact ih ha' hb'
    | _ => cases a <;> simp [Front.isOperator] at ha

/-- The texts of the operators. -/
def operatorTexts : List String := operators.map Prod.fst

/-- A longer operator stands before its beginnings. -/
theorem longer_first : ∀ o ∈ operators, ∀ x ∈ operators, o.1.toList <+: x.1.toList → o.1 ≠ x.1 →
    x ∈ operators.takeWhile fun y => decide (y.1 ≠ o.1) := by
  decide +kernel

theorem operator?_cases (h : operator? ts = some (s, kind)) :
    ((s, kind) ∈ operators ∧ operators.find? (fun o => Front.op o.1 ts) = some (s, kind)) ∨
      (s = "=" ∧ operators.find? (fun o => Front.op o.1 ts) = none ∧ Front.op "=>" ts = false) := by
  unfold operator? at h
  split at h
  · rename_i o ho
    cases h
    exact .inl ⟨List.mem_of_find?_eq_some ho, ho⟩
  · rename_i hnone
    split at h
    · rename_i heq
      cases h
      simp only [Bool.and_eq_true, Bool.not_eq_true'] at heq
      exact .inr ⟨rfl, hnone, heq.2⟩
    · cases h

theorem op_of_operator? (h : operator? ts = some (s, kind)) : Front.op s ts = true := by
  unfold operator? at h
  split at h
  · rename_i o ho
    cases h
    exact List.find?_some (p := fun o : String × OperatorKind => Front.op o.1 ts) ho
  · split at h
    · rename_i heq
      cases h
      exact (Bool.and_eq_true_iff.mp heq).1
    · cases h

theorem not_of_mem_takeWhile {α : Type} [DecidableEq α] {p : α → Bool} {f : α → String} {l : List α}
    {o x : α} (h : l.find? p = some o)
    (hx : x ∈ l.takeWhile fun y => decide (f y ≠ f o)) : p x = false := by
  induction l with
  | nil => cases hx
  | cons y l ih =>
    rw [List.takeWhile_cons] at hx
    split at hx
    · rename_i hy
      rw [List.find?_cons] at h
      split at h
      · cases h
        simp at hy
      · rcases List.mem_cons.mp hx with rfl | hx
        · assumption
        · exact ih h hx
    · cases hx

/-- Of the operators only beginnings of the one that stands here do. -/
theorem prefix_of_operator? (h : operator? ts = some (s, kind)) {x : String}
    (hx : x ∈ operatorTexts) (hop : Front.op x ts = true) : x.toList <+: s.toList := by
  obtain ⟨⟨y, k⟩, hy, rfl⟩ := List.mem_map.mp hx
  rcases operator?_cases h with ⟨hmem, hfind⟩ | ⟨-, hnone, -⟩
  · rcases isOperator_total hop (op_of_operator? h) with hp | hp
    · exact hp
    · by_cases heq : s = y
      · simp [heq]
      · have := not_of_mem_takeWhile (f := Prod.fst) hfind (longer_first _ hmem _ hy hp heq)
        exact absurd hop (by simp [this])
  · exact absurd hop (List.find?_eq_none.mp hnone _ hy)

theorem texts_of_operator? (h : operator? ts = some (s, kind)) : s ∈ "=" :: operatorTexts := by
  rcases operator?_cases h with ⟨hmem, -⟩ | ⟨rfl, -, -⟩
  · exact List.mem_cons_of_mem _ (List.mem_map_of_mem hmem)
  · exact List.mem_cons_self

/-- The texts of operators are such, and begin with no other signs that are asked for. -/
theorem operatorTexts_signs : ∀ s ∈ "=" :: operatorTexts, IsOperatorText s.toList ∧
    (∀ x ∈ ["::", ":", "#", ".", "..", "?", "->", "=>"], x.toList.isPrefixOf s.toList = false) ∧
    ("!".toList.isPrefixOf s.toList = true → "!=".toList.isPrefixOf s.toList = true) := by
  decide +kernel

theorem isOperatorText_of_operator? (h : operator? ts = some (s, kind)) : IsOperatorText s.toList :=
  (operatorTexts_signs s (texts_of_operator? h)).1

/-- The second sign of an arrow stands behind the first. -/
theorem op_of_behind (h : Front.op "->" ts = true) : Front.op ">" (ts.drop 1) = true := by
  rcases ts with _ | ⟨⟨t, sp⟩, r⟩
  · cases h
  cases t with
  | punct c j =>
    simp only [Front.op] at h
    have : Front.isOperator ['-', '>'] (⟨.punct c j, sp⟩ :: r) = true := h
    simp only [Front.isOperator, Bool.and_eq_true] at this
    exact this.2
  | _ => cases h

/-- The sign of a number. -/
theorem minus_of_literal {c : Char} {j : Bool} {sp : Span} {v : List Placed}
    (h : Front.literal (⟨.punct c j, sp⟩ :: v) = true) :
    Front.op "-" (⟨.punct c j, sp⟩ :: v) = true ∧
      Front.op "-=" (⟨.punct c j, sp⟩ :: v) = false := by
  unfold Front.literal at h
  split at h
  · cases ‹_ :: _ = _ :: _›
  · cases ‹_ :: _ = _ :: _›
  · cases ‹_ :: _ = _ :: _›
    simp [Front.op, Front.isOperator]
  · cases h

section Operator

variable (h : operator? ts = some (s, kind)) (hu : OnOperator s Onset ts u)

include h hu

theorem op_eq_of_operator? {x : String} (hx : x ∈ operatorTexts) :
    Front.op x u = Front.op x ts := by
  have hne := (isOperatorText_of_operator? h).1
  cases hts : Front.op x ts with
  | true =>
    rw [hu.op hne, List.isPrefixOf_iff_prefix]
    exact prefix_of_operator? h hx hts
  | false => exact hu.denies hne x hts

theorem op_eq_false_of_operator? {x : String}
    (hx : x ∈ ["::", ":", "#", ".", "..", "?", "->", "=>"]) :
    Front.op x u = false :=
  (hu.op (isOperatorText_of_operator? h).1 x).trans
    ((operatorTexts_signs s (texts_of_operator? h)).2.1 x hx)

/-- The same operator stands in print. -/
theorem operator?_eq : operator? u = operator? ts := by
  have hfind : operators.find? (fun o => Front.op o.1 u) =
      operators.find? (fun o => Front.op o.1 ts) :=
    List.find?_congr fun o ho => op_eq_of_operator? h hu (List.mem_map_of_mem ho)
  have hne := (isOperatorText_of_operator? h).1
  rw [h]
  rcases operator?_cases h with ⟨hmem, hts⟩ | ⟨rfl, hts, -⟩
  · simp only [operator?, hfind, hts]
  · have := op_of_operator? h
    have hno := op_eq_false_of_operator? h hu (x := "=>") (by simp)
    unfold operator? at h
    rw [hts] at h
    simp only [operator?, hfind, hts, hu.op_self hne, hno]
    simp only [this, Bool.true_and, Bool.not_eq_true', Option.ite_none_right_eq_some] at h
    simpa using h.2

/-- No arrow stands where an operator does: the phrase behind a minus does not start with a sign of
comparison. -/
theorem no_arrow_of_operator? : Front.op "->" ts = false := by
  cases hts : Front.op "->" ts with
  | false => rfl
  | true =>
    have hminus : s = "-" := by
      rcases isOperator_total hts (op_of_operator? h) with hp | hp
      · have := (operatorTexts_signs s (texts_of_operator? h)).2.1 "->" (by simp)
        rw [List.isPrefixOf_iff_prefix.mpr hp] at this
        cases this
      · have htexts : ∀ x ∈ "=" :: operatorTexts, x.toList <+: "->".toList → x = "-" := by
          decide +kernel
        exact htexts s (texts_of_operator? h) hp
    subst hminus
    have hbehind := op_of_behind hts
    have : Onset (ts.drop 1) (u.drop 1) := hu.behind
    rw [this.no_sign (c := '>') rfl (by decide)] at hbehind
    cases hbehind

/-- An operator that begins like a macro call is a comparison. -/
theorem no_call_of_operator? : (Front.op "!" u && !Front.op "!=" u) = false := by
  have hne := (isOperatorText_of_operator? h).1
  cases hb : Front.op "!" u with
  | false => rfl
  | true =>
    rw [hu.op hne] at hb
    rw [hu.op hne, (operatorTexts_signs s (texts_of_operator? h)).2.2 hb]
    rfl

/-- A value starts in print only where one starts in the source. -/
theorem startsValue_of_operator? : Denies startsValue ts u := by
  have hne := (isOperatorText_of_operator? h).1
  have hno {x : String} (hx : x ∈ ["::", ":", "#", ".", "..", "?", "->", "=>"]) :
      Front.op x u = false := op_eq_false_of_operator? h hu hx
  have heq {x : String} (hx : x ∈ operatorTexts) : Front.op x u = Front.op x ts :=
    op_eq_of_operator? h hu hx
  have harrow := no_arrow_of_operator? h hu
  obtain ⟨hw, hl, ho, -, -, -⟩ := hu.no_leaf hne
  intro hts
  cases hv : startsValue u with
  | false => rfl
  | true =>
    refine absurd ?_ (Bool.eq_false_iff.mp hts)
    cases hlit : Front.literal u with
    | true =>
      obtain ⟨hminus, hassign⟩ : Front.op "-" u = true ∧ Front.op "-=" u = false := by
        obtain ⟨c, cs, hs⟩ := List.exists_cons_of_ne_nil hne
        obtain ⟨j, sp, r, j', sp', v, -, rfl⟩ := hu.head hs
        exact minus_of_literal hlit
      rw [heq (by decide)] at hminus hassign
      simp [startsValue, hminus, hassign, harrow]
    | false =>
      simp only [startsValue, hw, ho, hl, hlit, no_call_of_operator? h hu,
        hno (x := "::") (by simp), hno (x := "#") (by simp), hno (x := "..") (by simp), hno (x := "->") (by simp),
        heq (x := "*") (by decide), heq (x := "*=") (by decide), heq (x := "-") (by decide),
        heq (x := "-=") (by decide), heq (x := "|") (by decide), heq (x := "|=") (by decide),
        heq (x := "&") (by decide), heq (x := "&=") (by decide), heq (x := "<") (by decide),
        heq (x := "<=") (by decide), heq (x := "<<=") (by decide), Bool.false_or,
        Bool.or_eq_true, Bool.not_false, Bool.and_true] at hv
      simp only [startsValue, harrow, Bool.not_false, Bool.and_true, Bool.or_eq_true]
      tauto

/-- A type may end before any operator. -/
theorem TypeEnd.of_operator? : TypeEnd ts u := by
  have hne := (isOperatorText_of_operator? h).1
  have hcolons : Front.op "::" u = false := op_eq_false_of_operator? h hu (by simp)
  exact {
    arguments := fun hts => by
      simp only [startsArguments, Bool.or_eq_false_iff] at hts ⊢
      rw [op_eq_of_operator? h hu (x := "<") (by decide),
        op_eq_of_operator? h hu (x := "<=") (by decide),
        op_eq_of_operator? h hu (x := "<<=") (by decide)]
      exact ⟨hts.1, by simp [behindColons, hcolons]⟩
    colons := .of_false hcolons
    segment := .of_false (by simp [hcolons])
    call := .of_false (no_call_of_operator? h hu)
    plus := hu.denies hne _
    arrow := hu.denies hne _
    parenthesized := .of_false (by
      simp [startsParenthesized, behindColons, (hu.no_leaf hne).2.2.1, hcolons])
    bound := hu.startsBound hne }

end Operator

/-! ## Ends before signs -/

/-- No bracket opens where an operator stands in the source. -/
theorem OnOperator.no_opening (hs : s.toList ≠ []) (h : OnOperator s M ts u) (d : Delimiter) :
    Front.opening d ts = false := by
  obtain ⟨c, cs, hcs⟩ := List.exists_cons_of_ne_nil hs
  obtain ⟨j, sp, r, j', sp', v, rfl, -⟩ := h.head hcs
  rfl

/-- A path of an expression goes on with a double colon only. -/
theorem PathEnd.of_no_colons (h : Front.op "::" u = false) : PathEnd true ts u where
  arguments := .of_false (by simp [startsArguments, behindColons, h])
  colons := .of_false h
  segment := .of_false (by simp [h])

/-- An expression may end before any operator. -/
theorem ExprEnd.of_operator? (h : operator? ts = some (s, kind)) (hu : OnOperator s Onset ts u)
    (b : Bool) : ExprEnd b ts u := by
  have hne := (isOperatorText_of_operator? h).1
  have hno {x : String} (hx : x ∈ ["::", ":", "#", ".", "..", "?", "->", "=>"]) :
      Front.op x u = false := op_eq_false_of_operator? h hu hx
  have hvalue := startsValue_of_operator? h hu
  obtain ⟨hw, hl, ho, hword, hends, hid⟩ := hu.no_leaf hne
  exact {
    type := .of_operator? h hu
    path := .of_no_colons (hno (by simp))
    brace := .of_false (by simp [ho])
    paren := .of_false (ho _)
    bracket := .of_false (ho _)
    dot := .of_false (by simp [hno (x := ".") (by simp)])
    question := hu.denies hne _
    cast := .of_false (hword _)
    range := hu.denies hne _
    value := hvalue
    plainValue := fun hts => by
      rw [Bool.and_eq_false_iff] at hts
      rcases hts with hts | hts
      · simp [hvalue hts]
      · simp [hu.no_opening hne] at hts
    lifetime := .of_false hl
    colon := .of_false (hno (by simp))
    otherwise := .of_false (hword _)
    pointee := .of_false (by simp [hword])
    operator := .inr (operator?_eq h hu) }

/-- The signs that are no operators, before which an expression may end. -/
def endSigns : List String := [",", ";", "=>", "?", ".", "..", "..=", ":"]

theorem endSigns_signs : ∀ s ∈ endSigns, IsOperatorText s.toList ∧
    (∀ x ∈ ["::", "<", "!", "*", "-", "|", "&", "#"], x.toList.isPrefixOf s.toList = false) ∧
    (∀ x ∈ operatorTexts, x.toList.isPrefixOf s.toList = false) ∧
    ("=".toList.isPrefixOf s.toList = true → "=>".toList.isPrefixOf s.toList = true) ∧
    (".".toList.isPrefixOf s.toList = true → s = "." ∨ "..".toList.isPrefixOf s.toList = true) := by
  decide +kernel

section Sign

variable (hs : s ∈ endSigns) (hu : OnOperator s M ts u)

include hs hu

theorem op_eq_false_of_sign {x : String} (hx : x ∈ ["::", "<", "!", "*", "-", "|", "&", "#"]) :
    Front.op x u = false :=
  have ⟨⟨hne, _⟩, hsigns, _⟩ := endSigns_signs s hs
  (hu.op hne x).trans (hsigns x hx)

theorem literal_of_sign : Front.literal u = false := by
  obtain ⟨c, cs, hcs⟩ := List.exists_cons_of_ne_nil (endSigns_signs s hs).1.1
  have hminus := op_eq_false_of_sign hs hu (x := "-") (by simp)
  obtain ⟨j, sp, r, j', sp', v, rfl, rfl⟩ := hu.head hcs
  cases hlit : Front.literal (⟨.punct c j', sp'⟩ :: v) with
  | false => rfl
  | true => rw [(minus_of_literal hlit).1] at hminus; cases hminus

/-- Only two dots can start a value, and they stand in print where they do in the source. -/
theorem startsValue_of_sign : Denies startsValue ts u := by
  have hne := (endSigns_signs s hs).1.1
  obtain ⟨hw, hl, ho, -, -, -⟩ := hu.no_leaf hne
  have hno {x : String} := op_eq_false_of_sign hs hu (x := x)
  intro hts
  simp only [startsValue, Bool.or_eq_false_iff] at hts
  have hrange : Front.op ".." ts = false := by tauto
  simp [startsValue, hw, hl, ho, literal_of_sign hs hu, hno (x := "::") (by simp),
    hno (x := "#") (by simp), hno (x := "!") (by simp), hno (x := "*") (by simp),
    hno (x := "-") (by simp), hno (x := "|") (by simp), hno (x := "&") (by simp),
    hno (x := "<") (by simp), hu.denies hne _ hrange]

/-- None of the signs is taken for an operator. -/
theorem operator?_of_sign : operator? u = none := by
  obtain ⟨⟨hne, -⟩, -, htexts, heq, -⟩ := endSigns_signs s hs
  have hfind : operators.find? (fun o => Front.op o.1 u) = none := by
    refine List.find?_eq_none.mpr fun o ho => ?_
    rw [hu.op hne, htexts _ (List.mem_map_of_mem ho)]
    simp
  have hassign : (Front.op "=" u && !Front.op "=>" u) = false := by
    rw [hu.op hne, hu.op hne]
    cases hp : "=".toList.isPrefixOf s.toList with
    | false => rfl
    | true => rw [heq hp]; rfl
  simp [operator?, hfind, hassign]

/-- A single dot is found in print only where one stands in the source. -/
theorem dot_of_sign (hdot : s = "." → Front.op ".." ts = false) :
    Denies (fun ts => Front.op "." ts && !Front.op ".." ts) ts u := by
  obtain ⟨⟨hne, -⟩, -, -, -, hdots⟩ := endSigns_signs s hs
  intro hts
  show (Front.op "." u && !Front.op ".." u) = false
  rw [hu.op hne, hu.op hne]
  cases hp : ".".toList.isPrefixOf s.toList with
  | false => rfl
  | true =>
    rcases hdots hp with rfl | hp
    · have hrange := hdot rfl
      have hfront := hu.1
      simp_all
    · rw [hp]
      rfl

end Sign

/-- An expression may end before any of these signs; a dot must not be one of two. -/
theorem ExprEnd.of_sign (hs : s ∈ endSigns) (hu : OnOperator s M ts u)
    (hdot : s = "." → Front.op ".." ts = false) (b : Bool) : ExprEnd b ts u := by
  obtain ⟨⟨hne, -⟩, hsigns, -⟩ := endSigns_signs s hs
  have hno {x : String} := op_eq_false_of_sign hs hu (x := x)
  have hvalue := startsValue_of_sign hs hu
  have hoperator := operator?_of_sign hs hu
  obtain ⟨hw, hl, ho, hword, hends, hid⟩ := hu.no_leaf hne
  have htype : TypeEnd ts u :=
    .of_operator hne (fun x hx => hsigns x (by
      simp only [List.mem_cons, List.not_mem_nil, or_false] at hx ⊢
      tauto)) hu
  exact {
    type := htype
    path := .of_no_colons (hno (by simp))
    brace := .of_false (by simp [ho])
    paren := .of_false (ho _)
    bracket := .of_false (ho _)
    dot := dot_of_sign hs hu hdot
    question := hu.denies hne _
    cast := .of_false (hword _)
    range := hu.denies hne _
    value := hvalue
    plainValue := fun hts => by
      rw [Bool.and_eq_false_iff] at hts
      rcases hts with hts | hts
      · simp [hvalue hts]
      · simp [hu.no_opening hne] at hts
    lifetime := .of_false hl
    colon := hu.denies hne _
    otherwise := .of_false (hword _)
    pointee := .of_false (by simp [hword])
    operator := .inl hoperator }

end KeyedRecord.Source
