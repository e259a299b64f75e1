import KeyedRecord.Proofs.Lists
import KeyedRecord.Proofs.Derive.Arguments

/-!
# Helper attributes

What attributes say, from what their arguments say: each list of arguments is read on its own, and
the entries of all of them follow one another.  The arguments of an attribute that was read and
accepted can be told apart.

Principal results: `entriesOf_eq_ok_iff`, `written_of_allEntries` and `arguments_of_readList`.
-/

set_option autoImplicit false

namespace KeyedRecord.Derive

open Source

/-! ## Attributes -/

section

variable {α : Type} {entry : PlainPath → Reading α} {W : List Placed → α → Prop}

/-- An entry is never written as nothing. -/
theorem Reads.ne_nil (h : Reads entry W) {us : List Placed} {a : α} (hw : W us a) : us ≠ [] := by
  rintro rfl
  have hread := (h [] a [] (.inl rfl)).mpr ⟨[], rfl, hw⟩
  obtain ⟨key, s, hkey, -⟩ := Reader.bind_eq_ok hread
  cases hkey

/-- No entries are written as nothing, and no others are. -/
theorem Arguments.eq_nil_iff (h : Reads entry W) {inner : List Placed} {as : List α}
    (ha : Arguments W inner as) : inner = [] ↔ as = [] := by
  obtain ⟨args, hsep, hargs⟩ := ha
  cases hsep with
  | nil =>
    cases hargs
    simp
  | last us =>
    obtain - | ⟨hus, -⟩ := hargs
    simp [h.ne_nil hus]
  | cons =>
    obtain - | ⟨-, -⟩ := hargs
    simp

/-- What a list of arguments says, if there is any argument. -/
theorem entriesOf_eq_ok_iff (h : Reads entry W) {a : Attribute}
    (hp : a.path.isIdent "objdict" = true) {d : Delimiter} {inner : List Placed} {close : Placed}
    (hb : a.body = .list d inner close) (hne : inner ≠ []) {es : List α} :
    entriesOf entry a = .ok es ↔ es ≠ [] ∧ ∃ written r, inner ++ [close] = written ++ r ∧
      Front.ends r = true ∧ Arguments W written es := by
  have hentries : entriesOf entry a = (entries entry (inner ++ [close])).map (·.1) := by
    simp [entriesOf, hp, hb, hne]
  rw [hentries]
  constructor
  · intro he
    cases hv : entries entry (inner ++ [close]) with
    | error e => rw [hv] at he; cases he
    | ok v =>
      rw [hv] at he
      cases he
      obtain ⟨hends, hne, written, hw, hargs⟩ := (entries_eq_ok_iff h).mp hv
      exact ⟨hne, written, v.2, hw, hends, hargs⟩
  · rintro ⟨hes, written, r, hw, hends, hargs⟩
    rw [(entries_eq_ok_iff h).mpr ⟨hends, hes, written, hw, hargs⟩]
    rfl

theorem entriesOf_nil {a : Attribute} {d : Delimiter} {close : Placed}
    (hb : a.body = .list d [] close) : entriesOf entry a = .ok [] := by
  simp [entriesOf, hb]

/-- A list of arguments is read as the entries that it is written as. -/
theorem entriesOf_of_arguments (h : Reads entry W) {a : Attribute}
    (hp : a.path.isIdent "objdict" = true) {d : Delimiter} {inner : List Placed} {close : Placed}
    (hb : a.body = .list d inner close) (hc : Front.ends [close] = true) {es : List α}
    (ha : Arguments W inner es) : entriesOf entry a = .ok es := by
  by_cases hi : inner = []
  · rw [hi] at hb
    rw [(ha.eq_nil_iff h).mp hi]
    exact entriesOf_nil hb
  · exact (entriesOf_eq_ok_iff h hp hb hi).mpr
      ⟨fun hes => hi ((ha.eq_nil_iff h).mpr hes), inner, [close], rfl, hc, ha⟩

/-- Attributes are read one after the other. -/
theorem allEntries_cons_iff {a : Attribute} {as : List Attribute} {es : List α} :
    allEntries entry (a :: as) = .ok es ↔
      ∃ es₁ es₂, entriesOf entry a = .ok es₁ ∧ allEntries entry as = .ok es₂ ∧ es = es₁ ++ es₂ := by
  unfold allEntries
  cases ha : entriesOf entry a with
  | error e =>
    rw [mapM_cons_error ha]
    constructor
    · intro h
      cases h
    · rintro ⟨es₁, es₂, h, -⟩
      cases h
  | ok es₁ =>
    rw [mapM_cons_ok ha]
    cases as.mapM (entriesOf entry) with
    | error e =>
      constructor
      · intro h
        cases h
      · rintro ⟨es₁, es₂, -, h, -⟩
        cases h
    | ok lists =>
      constructor
      · intro h
        cases h
        exact ⟨es₁, lists.flatten, rfl, rfl, rfl⟩
      · rintro ⟨es₁', es₂, h, h', rfl⟩
        cases h
        cases h'
        rfl

/-- Where all attributes are accepted, each of them is. -/
theorem exists_entriesOf_of_allEntries {as : List Attribute} {es : List α}
    (h : allEntries entry as = .ok es) : ∀ a ∈ as, ∃ es, entriesOf entry a = .ok es := by
  induction as generalizing es with
  | nil => simp
  | cons a as ih =>
    obtain ⟨es₁, es₂, h₁, h₂, -⟩ := allEntries_cons_iff.mp h
    exact List.forall_mem_cons.mpr ⟨⟨es₁, h₁⟩, ih h₂⟩

/-- What is read as an entry is written as one. -/
theorem written_of_entriesOf (h : Reads entry W) {a : Attribute} {es : List α}
    (he : entriesOf entry a = .ok es) : ∀ e ∈ es, ∃ us, W us e := by
  unfold entriesOf at he
  split at he
  · cases he
    simp
  split at he
  · cases he
  · cases he
  split at he
  · cases he
    simp
  · rename_i inner close _ _
    cases hv : entries entry (inner ++ [close]) with
    | error e => rw [hv] at he; cases he
    | ok v =>
      rw [hv] at he
      cases he
      obtain ⟨-, -, written, -, args, -, hargs⟩ := (entries_eq_ok_iff h).mp hv
      intro e hmem
      obtain ⟨us, -, hus⟩ := exists_mem_of_forall₂ hargs.flip hmem
      exact ⟨us, hus⟩

theorem written_of_allEntries (h : Reads entry W) {as : List Attribute} {es : List α}
    (he : allEntries entry as = .ok es) : ∀ e ∈ es, ∃ us, W us e := by
  induction as generalizing es with
  | nil =>
    cases he
    simp
  | cons a as ih =>
    obtain ⟨es₁, es₂, h₁, h₂, rfl⟩ := allEntries_cons_iff.mp he
    exact List.forall_mem_append.mpr ⟨written_of_entriesOf h h₁, ih h₂⟩

end

/-! ## Attributes that were read -/

/-- Each bracket that the tokens open they close again, so reading up to the end of brackets goes
past them. -/
def Whole (us : List Placed) : Prop :=
  ∀ depth r, Reader.splitClosing depth (us ++ r) =
    (us ++ (Reader.splitClosing depth r).1, (Reader.splitClosing depth r).2)

namespace Whole

theorem nil : Whole [] := fun _ _ => rfl

theorem append {us vs : List Placed} (h : Whole us) (h' : Whole vs) : Whole (us ++ vs) := by
  intro depth r
  rw [List.append_assoc, h, h', List.append_assoc]

theorem cons {t : Placed} {us : List Placed} (ho : ∀ d, t.token ≠ .opening d)
    (hc : ∀ d, t.token ≠ .closing d) (h : Whole us) : Whole (t :: us) := by
  obtain ⟨token, span⟩ := t
  intro depth r
  cases token with
  | opening d => exact absurd rfl (ho d)
  | closing d => exact absurd rfl (hc d)
  | ident | lifetime | punct | literal => simp [Reader.splitClosing, h depth r]

theorem bracketed {us : List Placed} (d d' : Delimiter) (span span' : Span) (h : Whole us) :
    Whole (⟨.opening d, span⟩ :: (us ++ [⟨.closing d', span'⟩])) := by
  intro depth r
  have hinner := h (depth + 1) (⟨.closing d', span'⟩ :: r)
  simp [Reader.splitClosing, hinner]

end Whole

theorem IsFlag.whole {w : String} {us : List Placed} (h : IsFlag w us) : Whole us := by
  obtain ⟨span, rfl⟩ := h
  exact Whole.nil.cons (by simp) (by simp)

theorem IsValue.whole {w : String} {s : StringLiteral} {us : List Placed} (h : IsValue w s us) :
    Whole us := by
  obtain ⟨span, joint, eq, lit, rfl, hs⟩ := h
  obtain ⟨text, place, rfl⟩ := literal_of_ofPlaced hs
  exact ((Whole.nil.cons (by simp) (by simp)).cons (by simp) (by simp)).cons (by simp) (by simp)

theorem IsGroup.whole {w : String} {inner us : List Placed} (h : IsGroup w inner us)
    (hi : Whole inner) : Whole us := by
  obtain ⟨span, opens, d, closes, rfl⟩ := h
  exact (hi.bracketed .paren d opens closes).cons (by simp) (by simp)

theorem Separated.whole {args : List (List Placed)} {inner : List Placed} (h : Separated args inner)
    (hargs : ∀ us ∈ args, Whole us) : Whole inner := by
  induction h with
  | nil => exact .nil
  | last us => exact hargs us List.mem_cons_self
  | cons joint span _ ih =>
    obtain ⟨hus, hargs⟩ := List.forall_mem_cons.mp hargs
    exact hus.append ((ih hargs).cons (by simp) (by simp))

theorem Arguments.whole {α : Type} {W : List Placed → α → Prop} (hW : ∀ us a, W us a → Whole us)
    {inner : List Placed} {as : List α} (h : Arguments W inner as) : Whole inner := by
  obtain ⟨args, hsep, hargs⟩ := h
  have hboth := hargs.imp fun us a h => And.intro (hW us a h) h
  exact hsep.whole ((List.forall₂_and_left _ _).mp hboth).1

theorem PropertyEntry.whole_of_written {us : List Placed} {e : PropertyEntry}
    (h : PropertyEntry.Written us e) : Whole us := by
  cases e with
  | name s => exact IsValue.whole h
  | type | getter | setter | visibility =>
    obtain ⟨s, hs, -⟩ := h
    exact hs.whole
  | included | ignored => exact IsFlag.whole h

theorem ContainerEntry.whole_of_written {us : List Placed} {e : ContainerEntry}
    (h : ContainerEntry.Written us e) : Whole us := by
  cases e with
  | nameSpace | crate =>
    obtain ⟨s, hs, -⟩ := h
    exact hs.whole
  | property p =>
    obtain ⟨inner, es, hgroup, -, hargs, -⟩ := h
    exact hgroup.whole (hargs.whole fun _ _ => PropertyEntry.whole_of_written)

/-- A token at which brackets do not end is taken, and reading goes on at some depth. -/
theorem splitClosing_cons (depth : Nat) (t : Placed) :
    (depth = 0 ∧ ∃ d, t.token = .closing d) ∨ ∃ depth', ∀ r, Reader.splitClosing depth (t :: r) =
      (t :: (Reader.splitClosing depth' r).1, (Reader.splitClosing depth' r).2) := by
  obtain ⟨token, span⟩ := t
  cases token with
  | closing d =>
    cases depth with
    | zero => exact .inl ⟨rfl, d, rfl⟩
    | succ depth => exact .inr ⟨depth, fun _ => rfl⟩
  | opening d => exact .inr ⟨depth + 1, fun _ => rfl⟩
  | ident | lifetime | punct | literal => exact .inr ⟨depth, fun _ => rfl⟩

/-- What stands before the end of brackets is read again before any end of brackets. -/
theorem splitClosing_again {depth : Nat} {ts inner r : List Placed} {t : Placed}
    (h : Reader.splitClosing depth ts = (inner, t :: r)) (d : Delimiter) (span : Span) :
    Reader.splitClosing depth (inner ++ [⟨.closing d, span⟩]) = (inner, [⟨.closing d, span⟩]) := by
  induction ts generalizing depth inner with
  | nil => cases h
  | cons u us ih =>
    rcases splitClosing_cons depth u with ⟨rfl, d', hu⟩ | ⟨depth', hu⟩
    · rw [Reader.splitClosing] at h
      simp only [hu] at h
      cases h
      rfl
    · rw [hu] at h
      cases hrec : Reader.splitClosing depth' us with
      | mk rest left =>
        rw [hrec] at h
        cases h
        rw [List.cons_append, hu, ih hrec]

theorem splitClosing_of_ends {r : List Placed} (h : Front.ends r = true) :
    Reader.splitClosing 0 r = ([], r) := by
  obtain - | ⟨⟨token, span⟩, t⟩ := r
  · rfl
  · cases token with
    | closing d => rfl
    | ident | lifetime | punct | literal | opening => simp [Front.ends] at h

/-- What stands in the brackets of an attribute ends where they do. -/
theorem readList_eq_ok {ts r : List Placed} {body : AttributeBody}
    (h : Attribute.readList ts = .ok (body, r)) : ∃ d inner span,
      body = .list d inner ⟨.closing d, span⟩ ∧
      Reader.splitClosing 0 (inner ++ [⟨.closing d, span⟩]) = (inner, [⟨.closing d, span⟩]) := by
  obtain ⟨d, s₁, -, h⟩ := Reader.bind_eq_ok h
  obtain ⟨opens, s₂, -, h⟩ := Reader.bind_eq_ok h
  obtain ⟨inner, s₃, hunread, h⟩ := Reader.bind_eq_ok h
  obtain ⟨closes, s₄, hclose, h⟩ := Reader.bind_eq_ok h
  cases h
  obtain ⟨d', rfl⟩ := closing_eq_ok (source_eq_ok_iff.mpr hclose)
  exact ⟨d, inner, closes, rfl, splitClosing_again (Except.ok.inj hunread) d closes⟩

section

variable {α : Type} {entry : PlainPath → Reading α} {W : List Placed → α → Prop}

/-- **The arguments of an attribute that was read and accepted can be told apart.** -/
theorem arguments_of_readList (h : Reads entry W) (hW : ∀ us a, W us a → Whole us) {a : Attribute}
    (hp : a.path.isIdent "objdict" = true) {ts r : List Placed}
    (hread : Attribute.readList ts = .ok (a.body, r)) {es : List α}
    (he : entriesOf entry a = .ok es) :
    ∃ d inner close, a.body = .list d inner close ∧ Front.ends [close] = true ∧
      Arguments W inner es := by
  obtain ⟨d, inner, span, hb, hsplit⟩ := readList_eq_ok hread
  refine ⟨d, inner, ⟨.closing d, span⟩, hb, rfl, ?_⟩
  by_cases hi : inner = []
  · subst hi
    cases (entriesOf_nil hb).symm.trans he
    exact ⟨[], .nil, .nil⟩
  · obtain ⟨-, written, r', hw, hends, hargs⟩ := (entriesOf_eq_ok_iff h hp hb hi).mp he
    have hwhole := hargs.whole hW 0 r'
    rw [← hw, hsplit, splitClosing_of_ends hends, List.append_nil] at hwhole
    rw [(Prod.mk.inj hwhole).1]
    exact hargs

end

end KeyedRecord.Derive
