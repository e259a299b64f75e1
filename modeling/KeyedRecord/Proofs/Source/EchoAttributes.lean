import KeyedRecord.Proofs.Source.EchoNesting
import KeyedRecord.Proofs.Source.AttributePhrases

/-!
# Attributes echo

A value that is a literal is read as such only where the attribute ends behind it, so the print of
an expression could be taken for a literal.  It is one then, for its brackets pair up.

Principal result: `attributes_echo`.
-/

set_option autoImplicit false

namespace KeyedRecord.Source

open Grammar

variable {L : Nat} {ts : List Placed}

namespace PlainPath

/-- What follows a plain path is neither a word nor a further segment. -/
def End : Sight := fun _ u => Front.op "::" u = false ∧ Front.anyWord u = false

theorem not_startsSegment {u : List Placed} (h : Front.anyWord u = false) :
    startsSegment u = false := by
  rcases u with _ | ⟨⟨t, s⟩, u⟩
  · rfl
  · cases t <;> first | rfl | cases h

theorem segment_echo (hts : startsSegment ts = true) :
    EchoAt L .token [] Onset (fun _ => .any) Reader.nextToken Reader.nextToken ts := by
  rcases ts with _ | ⟨⟨t, s⟩, r⟩
  · cases hts
  cases t with
  | ident w =>
    exact .token (a := .ident w) rfl (fun _ _ => rfl) rfl trivial (by simp)
      fun u h => .of_token (by simp) (by simp) h
  | _ => cases hts

theorem readSegments_echo {leading : Option Phrase} {pre : List Token}
    (hpre : (Phrase.ofOption leading).printed = pre)
    (hlead : (Phrase.ofOption leading).canonical = Phrase.ofOption leading) :
    EchoAt L .phrase pre (fun ts u => Onset ts u ∨ End ts u) (fun _ => End) (readSegments leading)
      (readSegments leading) ts := by
  unfold readSegments
  refine .bind (M := fun _ => End) (Nat.le_add_right _ _)
    (.chain (by decide) (I := Onset) (H := fun _ => .any)
      (fun ts hts => segment_echo (by simpa using hts))
      (fun ts u h hts => by simpa [startsSegment, h.identifier, h.word] using hts)
      (fun ts u h hts => by simp [not_startsSegment h.2])
      (fun ts u h hts => h.1) (fun _ _ _ _ => trivial) fun _ _ _ _ => trivial)
      fun segments r h => ?_
  have hcanon : (Form.list "::" .token).canon segments = segments := by
    simp [Form.list, Form.token]
  rw [hcanon]
  cases segments.getLast? with
  | none => exact .missing _
  | some t =>
    obtain ⟨t, more⟩ := t
    cases more with
    | true => exact .missing _
    | false =>
      refine .pure ?_ ?_ fun _ h => h
      · simp [Form.phrase, Form.list, Form.token, Phrase.printed_separated, hpre, List.flatMap_map]
      · simp [Form.phrase, Form.list, Phrase.canonical_separated, hlead, Function.comp_def]

theorem readPhrase_echo : EchoAt L .phrase [] (fun ts u => Denies (Front.word "unsafe") ts u)
    (fun _ => End) readPhrase readPhrase ts := by
  unfold readPhrase
  have hword {u : List Placed} (h : Front.anyWord u = false) : Front.word "unsafe" u = false := by
    rcases u with _ | ⟨⟨t, s⟩, u⟩
    · rfl
    · cases t <;> first | rfl | cases h
  refine .op? (M := .any) (by decide)
    (fun _ => (readSegments_echo rfl rfl).weaken fun _ _ => trivial)
    (fun _ => readSegments_echo rfl rfl) (fun u h => .of_false ((h.no_leaf (by decide)).2.2.2.1 _))
      fun hts u h => ?_
  rcases h with h | h
  · exact ⟨h.colons_eq.trans hts, .of_eq (h.word _)⟩
  · exact ⟨h.1, .of_false (hword h.2)⟩

end PlainPath

namespace Attribute

theorem readPath_echo : EchoAt L .phrase [] .any (fun _ => PlainPath.End) readPath readPath ts := by
  unfold readPath
  refine .ask (Y := OnToken (.ident "unsafe") PlainPath.End) (N := Denies (Front.word "unsafe"))
    (fun _ => .word) (fun _ => ?_) (fun _ u h => ?_) fun hts u h => ⟨h hts, trivial⟩
  · exact PlainPath.readPhrase_echo.of_ok (fun v h => PlainPath.read_eq_ok.mp h)
      fun u v h => PlainPath.read_eq_ok.mpr h
  · obtain ⟨s, r, s', v, rfl, rfl, -⟩ := h
    exact ⟨by simp [Front.word], trivial⟩

/-- What is read as a literal. -/
theorem exists_of_literal_print {r : List Placed} {lit : Placed}
    (h : Reader.literal ts = .ok (lit, r)) :
    ∃ k, ts = k ++ r ∧ (∀ t ∈ k, ∀ d, t.token ≠ .opening d ∧ t.token ≠ .closing d) ∧
      (Fit (tokensOf k) → Phrase.literal lit.token = .ofTokens (tokensOf k)) := by
  rcases exists_of_literal h with ⟨rfl, hlit⟩ | ⟨j, s, text, s', rfl, hnumber, hlit⟩
  · refine ⟨[lit], rfl, by simpa using hlit.leaf.1, fun hf => ?_⟩
    exact literal_of_isLiteral hlit (hf.lexable _ (by simp [tokensOf]))
  · refine ⟨[⟨.punct '-' j, s⟩, ⟨.literal text, s'⟩], rfl, by simp, fun hf => ?_⟩
    have hj := (List.isChain_cons_cons.mp hf.adjacent).1
    cases j with
    | true =>
      have : text.toList.head? = some '\'' := by simpa [Adjacent] using hj
      unfold Front.isNumber at hnumber
      cases hl : text.toList with
      | nil => simp [hl] at this
      | cons c cs =>
        obtain rfl : c = '\'' := by simpa [hl] using this
        simp [hl] at hnumber
    | false =>
      rw [hlit, literal_negative]
      rfl

/-- Paired tokens before a place where a stretch ends are all that stands before any such place that
no bracket comes before. -/
theorem eq_of_ends_behind {us w k r : List Placed} (h : us ++ w = k ++ r) (hw : Front.ends w = true)
    (hr : Front.ends r = true) (hus : openBehind [] (tokensOf us) = some [])
    (hk : ∀ t ∈ k, ∀ d, t.token ≠ .opening d ∧ t.token ≠ .closing d) : us = k ∧ w = r := by
  rcases List.append_eq_append_iff.mp h with ⟨_ | ⟨⟨t, s⟩, a⟩, rfl,
    rfl⟩ | ⟨_ | ⟨⟨t, s⟩, a⟩, rfl, rfl⟩
  · simp
  · have := fun d => (hk ⟨t, s⟩ (by simp) d).2
    cases t <;> simp_all [Front.ends]
  · simp
  · have hleaf : openBehind [] (tokensOf k) = some [] := by
      clear hus h
      induction k with
      | nil => rfl
      | cons t k ih =>
        rw [tokensOf, List.map_cons, openBehind_leaf (hk t (by simp))]
        exact ih fun t ht => hk t (by simp [ht])
    rw [tokensOf, List.map_append, openBehind_append] at hus
    rw [tokensOf] at hleaf
    rw [hleaf] at hus
    cases t <;> simp_all [Front.ends, openBehind]

/-- The literal that a value is, is all that stands in the print. -/
theorem readValue_print {expr : Reader Phrase} {us w : List Placed} {p : Phrase}
    (hf : Fit (tokensOf us)) (hw : Front.ends w = true)
    (hsharp : Front.op "#" (us ++ w) = true → Front.opening .bracket ((us ++ w).drop 1) = false)
    (he : expr (us ++ w) = .ok (p, w)) (hp : p = .ofTokens (tokensOf us)) :
    readValue expr (us ++ w) = .ok (p, w) := by
  unfold readValue
  split
  · rename_i lit r hl
    split
    · obtain ⟨k, h, hk, hlit⟩ := exists_of_literal_print hl
      obtain ⟨rfl, rfl⟩ := eq_of_ends_behind h hw ‹_› (hf.paired []) hk
      rw [hp, hlit hf]
    · exact he
  · rw [if_neg]
    · exact he
    · simpa using hsharp

/-- A value that is an expression. -/
theorem readValue_expr {g g' : Nesting} {K J : Nat} (h : g.Echo g' K J)
    (hp : ∀ v, readValue (g.expr true) ts = .ok v → g.expr true ts = .ok v)
    (hsharp : Front.op "#" ts = true → Front.opening .bracket (ts.drop 1) = false) :
    EchoAt K .phrase [] .any (fun _ => OnClosing) (readValue (g.expr true))
      (readValue (g'.expr true)) ts := by
  intro hs p r hr
  obtain ⟨hsuf, out, ho, hf, h⟩ := h.expr true ts hs p r (hp _ hr)
  refine ⟨hsuf, out, ho, hf, fun us w hu he => ⟨trivial, fun hl => ?_⟩⟩
  obtain ⟨hS, hq⟩ := h us w hu (.of_ends he.ends_right _)
  rw [List.nil_append] at ho
  subst ho
  refine readValue_print (hu ▸ hf) he.ends_right (fun hts => ?_) (hq hl) (by rw [hu]; rfl)
  rw [hS.sign (c := '#') rfl] at hts
  exact absurd (hS.pound hts) (by rw [hsharp hts]; exact Bool.false_ne_true)

theorem readValue_echo {g g' : Nesting} {K J : Nat} (h : g.Echo g' K J) :
    EchoAt K .phrase [] .any (fun _ => OnClosing) (readValue (g.expr true))
      (readValue (g'.expr true)) ts := by
  cases hl : Reader.literal ts with
  | error e =>
    by_cases hsharp : (Front.op "#" ts && Front.opening .bracket (ts.drop 1)) = true
    · refine .of_error fun p r hp => ?_
      simp only [readValue, hl, hsharp, if_true] at hp
      cases hp
    · refine readValue_expr h (fun v hv => ?_) (by simpa using hsharp)
      simpa only [readValue, hl, hsharp, Bool.false_eq_true, if_false] using hv
  | ok v =>
    obtain ⟨lit, r⟩ := v
    cases hr : Front.ends r with
    | true =>
      have run {u r : List Placed} {lit : Placed} (hu : Reader.literal u = .ok (lit, r))
          (hr : Front.ends r = true) (expr : Reader Phrase) :
          readValue expr u = .ok (.literal lit.token, r) := by simp [readValue, hu, hr]
      have hlit : literalPhrase ts = .ok (.literal lit.token, r) := by
        simp [literalPhrase_eq, hl, Except.map]
      intro hs p r' hp
      rw [run hl hr] at hp
      cases hp
      obtain ⟨hsuf, out, ho, hf, h⟩ :=
        (literalPhrase_echo (L := K) (E := fun _ => OnClosing)) hs _ _ hlit
      refine ⟨hsuf, out, ho, hf, fun us w hu he => ⟨trivial, fun hlen => ?_⟩⟩
      have hq := (h us w hu he).2 hlen
      rw [literalPhrase_eq] at hq
      cases hlu : Reader.literal (us ++ w) with
      | error e => simp [hlu, Except.map] at hq
      | ok v =>
        obtain ⟨lit', w'⟩ := v
        simp only [hlu, Except.map, Except.ok.injEq, Prod.mk.injEq] at hq
        obtain ⟨hcanon, rfl⟩ := hq
        rw [run hlu he.ends_right, hcanon]
    | false =>
      refine readValue_expr h (fun v hv => ?_) fun hts => ?_
      · simpa only [readValue, hl, hr, Bool.false_eq_true, if_false] using hv
      · rcases exists_of_literal hl with ⟨rfl, hlit⟩ | ⟨j, s, text, s', rfl, -, -⟩
        · obtain ⟨t, s⟩ := lit
          rw [op_of_leaf hlit.leaf.2.1 (by decide)] at hts
          cases hts
        · simp [Front.op, Front.isOperator] at hts

theorem readBody_echo {g g' : Nesting} {K J : Nat} (h : g.Echo g' K J) :
    EchoAt K .phrase [] (fun _ => PlainPath.End ts) (fun _ => OnClosing) (readBody (g.expr true))
      (readBody (g'.expr true)) ts := by
  unfold readBody
  have hopen {t : Token} {d : Delimiter} (hd : t = .opening d) {u : List Placed}
    (h : OnToken t .any ts u) :
      (Front.opening .paren u || Front.opening .bracket u || Front.opening .brace u) = true ∧
        PlainPath.End ts u := by
    obtain ⟨s, r, s', v, rfl, rfl, -⟩ := h
    subst hd
    refine ⟨by cases d <;> rfl, op_of_leaf (by simp) (by decide) s' v, rfl⟩
  refine .ask (Y := fun ts u => ∃ d, OnToken (.opening d) .any ts u)
    (N := fun ts u => OnOperator "=" .any ts u ∨ OnClosing ts u) (fun _ => .unreadGroup)
    (fun _ => ?_) (fun _ u ⟨d, h⟩ => hopen rfl h) fun _ u hu => ?_
  · refine .ask (Y := OnOperator "=" .any) (N := OnClosing) (fun _ => ?_)
      (fun _ => .pure rfl rfl fun _ h => h) (fun _ u hu => ⟨hu.op_self (by decide), .inl hu⟩)
      (fun _ u hu => ⟨op_of_ends hu.ends_right _ (by decide), .inr hu⟩)
    refine .op_then (by decide) fun _ => ?_
    refine .bind (M := fun _ => OnClosing) (Nat.le_add_right _ _) (readValue_echo h) fun v r _ => ?_
    exact .pure (by simp [Form.phrase]) rfl fun _ h => h
  · rcases hu with hu | hu
    · obtain ⟨hword, -, ho, -, -, -⟩ := hu.no_leaf (by decide)
      exact ⟨by simp [ho], (hu.op (by decide) _).trans (by decide), hword⟩
    · exact ⟨by simp [opening_of_ends hu.ends_right], op_of_ends hu.ends_right _ (by decide),
        anyWord_of_ends hu.ends_right⟩

/-- One attribute. -/
theorem readPhrase_echo {g g' : Nesting} {K J : Nat} (h : g.Echo g' K J) {E : Sight} :
    EchoAt (K + 3) .phrase [] (OnOperator "#" (OnToken (.opening .bracket) .any)) (fun _ => E)
      (readPhrase (g.expr true)) (readPhrase (g'.expr true)) ts := by
  unfold readPhrase
  refine .op_then (by decide) fun _ => ?_
  refine .bind (D := K + 2) (G := .inside .bracket .phrase) (M := fun _ => E)
    (by simp [operatorTokens]) (.inside (T := .any) fun s r _ => ?_) fun p r _ => ?_
  · refine .bind (M := fun _ => PlainPath.End) (Nat.le_add_right _ _) readPath_echo
      fun path r _ => ?_
    refine .bind (M := fun _ => OnClosing) (Nat.le_add_right _ _) (readBody_echo h)
      fun body r _ => ?_
    exact .pure (by simp [Form.phrase]) rfl fun _ h => h
  · exact .pure (by simp [Form.phrase, Form.inside]) rfl fun _ h => h

/-- The start of an attribute, or else what `M` says. -/
def Start (M : Sight) : Sight := fun ts u =>
  OnOperator "#" (OnToken (.opening .bracket) .any) ts u ∨ (Front.op "#" ts = false ∧ M ts u)

theorem readPhrase?_echo {g g' : Nesting} {K J : Nat} (h : g.Echo g' K J) {M : Sight}
    (hM : ∀ ts u, M ts u → Denies (Front.op "#") ts u) :
    EchoAt (K + 3) (.option .phrase) [] (Start M) (fun _ => Start M)
      (readPhrase? (g.expr true)) (readPhrase? (g'.expr true)) ts := by
  unfold readPhrase?
  refine .ask (fun _ => ?_) (fun hts => ?_)
    (Y := OnOperator "#" (OnToken (.opening .bracket) .any)) (N := Start M)
    (fun _ u h => ⟨h.op_self (by decide), .inl h⟩) fun hts u h => ?_
  · refine .bind (M := fun _ => Start M) (Nat.le_add_right _ _) (readPhrase_echo h) fun p r _ => ?_
    exact .pure (by simp [Form.option]) rfl fun _ h => h
  · exact .pure rfl rfl fun _ h => h
  · rcases h with h | ⟨-, h⟩
    · exact absurd h.1 (by simp [hts])
    · exact ⟨hM _ _ h hts, .inr ⟨hts, h⟩⟩

theorem readPhrase?_eq_none {expr : Reader Phrase} {r : List Placed}
    (h : readPhrase? expr ts = .ok (none, r)) : Front.op "#" r = false := by
  unfold readPhrase? at h
  rw [Reader.ask_apply] at h
  split at h
  · obtain ⟨p, s, -, h⟩ := Reader.bind_eq_ok h
    cases h
  · rename_i hno
    cases h
    exact Bool.eq_false_iff.mpr hno

theorem readPhrase?_eq_some {expr : Reader Phrase} {p : Phrase} {r : List Placed}
    (h : readPhrase? expr ts = .ok (some p, r)) : readPhrase expr ts = .ok (p, r) := by
  unfold readPhrase? at h
  rw [Reader.ask_apply] at h
  split at h
  · obtain ⟨p, s, hp, h⟩ := Reader.bind_eq_ok h
    cases h
    exact hp
  · cases h

/-- The attributes that stand somewhere. -/
theorem attributes_echo {g g' : Nesting} {K J : Nat} (h : g.Echo g' K J) {M : Sight}
    (hM : ∀ ts u, M ts u → Denies (Front.op "#") ts u) :
    EchoAt (K + 3) .phrase [] (Start M) (fun _ => M) g.attributes g'.attributes ts := by
  rw [attributes_eq, attributes_eq]
  refine EchoAt.mono (.many (fun ts => readPhrase?_echo h hM) fun ts p r hs hp => ?_) le_rfl
    (fun _ => id) fun p r w hp hw => .inr ⟨?_, hw⟩
  · refine EchoAt.printed_ne (E := fun _ => .any) (readPhrase_echo h) hs
      (readPhrase?_eq_some hp) trivial fun hS => ?_
    have := hS.op_self (by decide)
    simp [Front.op, Front.isOperator] at this
  · exact Reader.many_ends (fun _ _ => readPhrase?_eq_none) hp

end Attribute

end KeyedRecord.Source
