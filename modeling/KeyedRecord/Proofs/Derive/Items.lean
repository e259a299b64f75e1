import KeyedRecord.Proofs.Derive.Placement

/-!
# Items between commas

An item is what a writer puts between two commas, well formed or not: some tokens whose brackets
pair up, with no comma outside of brackets.  Where the commas stand is then known, so a list in
brackets falls into its items in one way: `Separated.unique`.  Each entry is written as one item,
and a list of items is read exactly if each of them is the writing of an entry, whatever attributes
the list is spread over: `LaysOut.allEntries_eq_ok_iff`.
-/

set_option autoImplicit false

namespace KeyedRecord.Derive

open Source

/-! ## Depth -/

/-- How deep in brackets the next token stands; none if a bracket closes that was not opened. -/
def depthAfter : Nat → List Placed → Option Nat
  | depth, [] => some depth
  | depth, t :: r =>
    match t.token with
    | .opening _ => depthAfter (depth + 1) r
    | .closing _ => if depth = 0 then none else depthAfter (depth - 1) r
    | _ => depthAfter depth r

theorem depthAfter_append (us vs : List Placed) (depth : Nat) :
    depthAfter depth (us ++ vs) = (depthAfter depth us).bind (depthAfter · vs) := by
  induction us generalizing depth with
  | nil => rfl
  | cons t us ih =>
    obtain ⟨token, span⟩ := t
    cases token with
    | closing d =>
      by_cases h : depth = 0
      · simp [depthAfter, h]
      · simp [depthAfter, h, ih]
    | ident | lifetime | punct | literal | opening => simp [depthAfter, ih]

theorem depthAfter_add {us : List Placed} {depth k : Nat} (h : depthAfter depth us = some k)
    (n : Nat) : depthAfter (depth + n) us = some (k + n) := by
  induction us generalizing depth with
  | nil =>
    cases h
    rfl
  | cons t us ih =>
    obtain ⟨token, span⟩ := t
    cases token with
    | closing d =>
      by_cases hd : depth = 0
      · simp [depthAfter, hd] at h
      · have hrest : depthAfter (depth - 1) us = some k := by simpa [depthAfter, hd] using h
        have hsub : depth + n - 1 = depth - 1 + n := by omega
        simp [depthAfter, hd, hsub, ih hrest]
    | opening d =>
      have hrest : depthAfter (depth + 1) us = some k := h
      have := ih hrest
      rwa [Nat.add_right_comm] at this
    | ident | lifetime | punct | literal => exact ih h

/-- Up to a depth that is known, brackets do not end. -/
theorem splitClosing_append {us : List Placed} {depth k : Nat} (h : depthAfter depth us = some k)
    (r : List Placed) : Reader.splitClosing depth (us ++ r) =
      (us ++ (Reader.splitClosing k r).1, (Reader.splitClosing k r).2) := by
  induction us generalizing depth with
  | nil =>
    cases h
    rfl
  | cons t us ih =>
    obtain ⟨token, span⟩ := t
    cases token with
    | closing d =>
      by_cases hd : depth = 0
      · simp [depthAfter, hd] at h
      · have hrest : depthAfter (depth - 1) us = some k := by simpa [depthAfter, hd] using h
        simp [Reader.splitClosing, hd, ih hrest]
    | ident | lifetime | punct | literal | opening => simp [Reader.splitClosing, ih h]

/-- Where the depth is lost, brackets have ended. -/
theorem splitClosing_of_none {us : List Placed} {depth : Nat} (h : depthAfter depth us = none) :
    (Reader.splitClosing depth us).2 ≠ [] := by
  induction us generalizing depth with
  | nil => cases h
  | cons t us ih =>
    obtain ⟨token, span⟩ := t
    cases token with
    | closing d =>
      by_cases hd : depth = 0
      · simp [Reader.splitClosing, hd]
      · have hrest : depthAfter (depth - 1) us = none := by simpa [depthAfter, hd] using h
        simpa [Reader.splitClosing, hd] using ih hrest
    | ident | lifetime | punct | literal | opening => simpa [Reader.splitClosing] using ih h

theorem whole_iff {us : List Placed} : Whole us ↔ depthAfter 0 us = some 0 := by
  constructor
  · intro h
    cases hd : depthAfter 0 us with
    | none =>
      have hend := h 0 []
      rw [List.append_nil] at hend
      exact absurd (congrArg Prod.snd hend) (splitClosing_of_none hd)
    | some k =>
      -- a closing bracket tells whether one is still open
      let close : Placed := ⟨.closing .paren, nowhere⟩
      have hclose := (splitClosing_append hd [close]).symm.trans (h 0 [close])
      by_cases hk : k = 0
      · rw [hk]
      · simp [close, Reader.splitClosing, hk] at hclose
  · intro h depth r
    have hd := depthAfter_add h depth
    rw [Nat.zero_add] at hd
    exact splitClosing_append hd r

/-! ## Items -/

/-- Some tokens whose brackets pair up, with no comma outside of brackets. -/
structure IsItem (us : List Placed) : Prop where
  ne_nil : us ≠ []
  whole : Whole us
  /-- Before a comma some bracket is open. -/
  commas : ∀ before joint span after,
    us = before ++ ⟨.punct ',' joint, span⟩ :: after → ¬Whole before

namespace IsItem

/-- Tokens without brackets and commas are an item. -/
theorem of_plain {us : List Placed} (hne : us ≠ []) (hw : Whole us)
    (hcomma : ∀ joint, ∀ t ∈ us, t.token ≠ .punct ',' joint) : IsItem us where
  ne_nil := hne
  whole := hw
  commas before joint span after h _ := by
    refine hcomma joint ⟨.punct ',' joint, span⟩ ?_ rfl
    rw [h]
    exact List.mem_append_right before List.mem_cons_self

/-- Of two items before a comma, none is longer. -/
theorem eq_of_append {us us' r r' : List Placed} {joint joint' : Bool} {span span' : Span}
    (h : IsItem us) (h' : IsItem us')
    (he : us ++ ⟨.punct ',' joint, span⟩ :: r = us' ++ ⟨.punct ',' joint', span'⟩ :: r') :
    us = us' ∧ r = r' := by
  rcases List.append_eq_append_iff.mp he with ⟨m, rfl, hm⟩ | ⟨m, rfl, hm⟩
  · cases m with
    | nil => exact ⟨(List.append_nil us).symm, (List.cons.inj hm).2⟩
    | cons t m =>
      obtain ⟨rfl, -⟩ := List.cons.inj hm
      exact absurd h.whole (h'.commas us joint span m rfl)
  · cases m with
    | nil => exact ⟨List.append_nil us', (List.cons.inj hm).2.symm⟩
    | cons t m =>
      obtain ⟨rfl, -⟩ := List.cons.inj hm
      exact absurd h'.whole (h.commas us' joint' span' m rfl)

end IsItem

/-- A list of stretches has none, ends with its first, or has a comma behind it. -/
theorem Separated.split {items : List (List Placed)} {inner : List Placed}
    (h : Separated items inner) : (items = [] ∧ inner = []) ∨ items = [inner] ∨
      ∃ us joint span rest later, items = us :: later ∧
        inner = us ++ ⟨.punct ',' joint, span⟩ :: rest ∧ Separated later rest := by
  cases h with
  | nil => exact .inl ⟨rfl, rfl⟩
  | last => exact .inr (.inl rfl)
  | cons joint span hrest => exact .inr (.inr ⟨_, joint, span, _, _, rfl, rfl, hrest⟩)

/-- **A list falls into items in one way.** -/
theorem Separated.unique {items items' : List (List Placed)} {inner : List Placed}
    (h : Separated items inner) (h' : Separated items' inner) (hi : ∀ us ∈ items, IsItem us)
    (hi' : ∀ us ∈ items', IsItem us) : items = items' := by
  induction h generalizing items' with
  | nil =>
    rcases h'.split with ⟨rfl, -⟩ | rfl | ⟨us, joint, span, rest, later, rfl, hnil, -⟩
    · rfl
    · exact absurd rfl (hi' [] List.mem_cons_self).ne_nil
    · simp at hnil
  | last us =>
    have hus := hi us List.mem_cons_self
    rcases h'.split with ⟨-, rfl⟩ | rfl | ⟨us', joint, span, rest, later, rfl, rfl, -⟩
    · exact absurd rfl hus.ne_nil
    · rfl
    · exact absurd (hi' us' List.mem_cons_self).whole (hus.commas us' joint span rest rfl)
  | @cons us rest items joint span hsep ih =>
    obtain ⟨hus, hi⟩ := List.forall_mem_cons.mp hi
    rcases h'.split with ⟨-, hnil⟩ | rfl | ⟨us', joint', span', rest', later, rfl, he, hrest⟩
    · simp at hnil
    · exact absurd hus.whole ((hi' _ List.mem_cons_self).commas us joint span rest rfl)
    · obtain ⟨hus', hlater⟩ := List.forall_mem_cons.mp hi'
      obtain ⟨rfl, rfl⟩ := hus.eq_of_append hus' he
      rw [ih hrest hi hlater]

/-! ## Entries -/

theorem IsFlag.isItem {w : String} {us : List Placed} (h : IsFlag w us) : IsItem us := by
  obtain ⟨span, rfl⟩ := id h
  exact .of_plain (by simp) h.whole (by simp)

theorem IsValue.isItem {w : String} {s : StringLiteral} {us : List Placed} (h : IsValue w s us) :
    IsItem us := by
  obtain ⟨span, joint, eq, lit, rfl, hs⟩ := id h
  obtain ⟨text, place, rfl⟩ := literal_of_ofPlaced hs
  exact .of_plain (by simp) h.whole (by simp)

/-- The commas of a group stand behind its opening bracket. -/
theorem IsGroup.isItem {w : String} {inner us : List Placed} (h : IsGroup w inner us)
    (hi : Whole inner) : IsItem us := by
  obtain ⟨word, opens, d, closes, rfl⟩ := id h
  refine ⟨by simp, h.whole hi, ?_⟩
  intro before joint span after hus hbefore
  obtain - | ⟨t, - | ⟨t', before⟩⟩ := before
  · simp at hus
  · simp at hus
  simp only [List.cons_append, List.cons.injEq] at hus
  obtain ⟨rfl, rfl, hus⟩ := hus
  have hinner : ∃ rest, inner = before ++ rest := by
    rcases List.append_eq_append_iff.mp hus with ⟨m, rfl, hm⟩ | ⟨m, rfl, -⟩
    · obtain - | ⟨t, m⟩ := m
      · exact ⟨[], by simp⟩
      · simp at hm
    · exact ⟨m, rfl⟩
  obtain ⟨rest, rfl⟩ := hinner
  have hdepth := whole_iff.mp hi
  rw [depthAfter_append] at hdepth
  obtain ⟨k, hk, -⟩ := Option.bind_eq_some_iff.mp hdepth
  have hopen : depthAfter 0 (⟨.ident w, word⟩ :: ⟨.opening .paren, opens⟩ :: before) =
      some (k + 1) :=
    depthAfter_add hk 1
  have hzero := hopen.symm.trans (whole_iff.mp hbefore)
  simp at hzero

theorem FieldEntry.isItem_of_written {us : List Placed} {e : FieldEntry}
    (h : FieldEntry.Written us e) : IsItem us := by
  cases e with
  | included | ignored => exact IsFlag.isItem h

theorem PropertyEntry.isItem_of_written {us : List Placed} {e : PropertyEntry}
    (h : PropertyEntry.Written us e) : IsItem us := by
  cases e with
  | name s => exact IsValue.isItem h
  | type | getter | setter | visibility =>
    obtain ⟨s, hs, -⟩ := h
    exact hs.isItem
  | included | ignored => exact IsFlag.isItem h

theorem ContainerEntry.isItem_of_written {us : List Placed} {e : ContainerEntry}
    (h : ContainerEntry.Written us e) : IsItem us := by
  cases e with
  | nameSpace | crate =>
    obtain ⟨s, hs, -⟩ := h
    exact hs.isItem
  | property p =>
    obtain ⟨inner, es, hgroup, -, hargs, -⟩ := h
    exact hgroup.isItem (hargs.whole fun _ _ => PropertyEntry.whole_of_written)

/-! ## The last of a kind -/

/-- Among the entries that `kind` makes, the last is made of `b`. -/
def IsLast {α β : Type} (kind : β → α) (b : β) (es : List α) : Prop :=
  ∃ before after, es = before ++ kind b :: after ∧ ∀ b', kind b' ∉ after

theorem lastOf_eq_some_iff {α β : Type} {f : α → Option β} {kind : β → α}
    (hf : ∀ e b, f e = some b ↔ e = kind b) {es : List α} {b : β} :
    lastOf f es = some b ↔ IsLast kind b es := by
  have hnone : ∀ after : List α, after.filterMap f = [] ↔ ∀ b', kind b' ∉ after := by
    intro after
    rw [List.filterMap_eq_nil_iff]
    constructor
    · intro h b' hmem
      cases (h _ hmem).symm.trans ((hf _ _).mpr rfl)
    · intro h e he
      cases hfe : f e with
      | none => rfl
      | some b' => exact absurd ((hf e b').mp hfe ▸ he) (h b')
  unfold lastOf
  rw [List.getLast?_eq_some_iff]
  constructor
  · rintro ⟨bs, hbs⟩
    obtain ⟨before, rest, rfl, -, hrest⟩ := List.filterMap_eq_append_iff.mp hbs
    obtain ⟨skipped, e, after, rfl, -, he, hafter⟩ := List.filterMap_eq_cons_iff.mp hrest
    obtain rfl := (hf e b).mp he
    exact ⟨before ++ skipped, after, by simp, (hnone after).mp hafter⟩
  · rintro ⟨before, after, rfl, hafter⟩
    refine ⟨before.filterMap f, ?_⟩
    rw [List.filterMap_append, List.filterMap_cons_some ((hf _ _).mpr rfl),
      (hnone after).mpr hafter]

theorem lastOf_eq_none_iff {α β : Type} {f : α → Option β} {kind : β → α}
    (hf : ∀ e b, f e = some b ↔ e = kind b) {es : List α} :
    lastOf f es = none ↔ ∀ b, kind b ∉ es := by
  unfold lastOf
  rw [List.getLast?_eq_none_iff, List.filterMap_eq_nil_iff]
  constructor
  · intro h b hmem
    cases (h _ hmem).symm.trans ((hf _ _).mpr rfl)
  · intro h e he
    cases hfe : f e with
    | none => rfl
    | some b => exact absurd ((hf e b).mp hfe ▸ he) (h b)

/-! ## Lists of items -/

section

variable {α : Type} {entry : PlainPath → Reading α} {W : List Placed → α → Prop}

/-- The items of a list are the writings of its entries. -/
theorem Arguments.forall₂_of_separated (hW : ∀ us a, W us a → IsItem us)
    {items : List (List Placed)} {inner : List Placed} (h : Separated items inner)
    (hi : ∀ us ∈ items, IsItem us) {as : List α} :
    Arguments W inner as ↔ List.Forall₂ W items as := by
  constructor
  · rintro ⟨args, hsep, hargs⟩
    have hboth := hargs.imp fun us a h => And.intro (hW us a h) h
    have hitems := ((List.forall₂_and_left _ _).mp hboth).1
    rwa [h.unique hsep hi hitems]
  · exact fun hargs => ⟨items, h, hargs⟩

/-- The attributes say the items one after the other: each attribute of the path `objdict` is a list
of items, possibly empty, and other attributes may stand anywhere. -/
inductive LaysOut : List (List Placed) → List Attribute → Prop
  | nil : LaysOut [] []
  | foreign {items : List (List Placed)} {a : Attribute} {as : List Attribute} :
    a.path.isIdent "objdict" = false → LaysOut items as → LaysOut items (a :: as)
  | list {here items : List (List Placed)} {a : Attribute} {as : List Attribute} {d d' : Delimiter}
      {inner : List Placed} {span : Span} :
    a.path.isIdent "objdict" = true → a.body = .list d inner ⟨.closing d', span⟩ →
      Separated here inner → LaysOut items as → LaysOut (here ++ items) (a :: as)

/-- What a list of items says. -/
theorem entriesOf_eq_ok_of_separated (h : Reads entry W) (hW : ∀ us a, W us a → IsItem us)
    {a : Attribute} (hp : a.path.isIdent "objdict" = true) {d d' : Delimiter} {inner : List Placed}
    {span : Span} (hb : a.body = .list d inner ⟨.closing d', span⟩) {items : List (List Placed)}
    (hsep : Separated items inner) (hi : ∀ us ∈ items, IsItem us) {es : List α} :
    entriesOf entry a = .ok es ↔ List.Forall₂ W items es := by
  have hargs : Arguments W inner es ↔ List.Forall₂ W items es :=
    Arguments.forall₂_of_separated hW hsep hi
  constructor
  · intro he
    by_cases hinner : inner = []
    · subst hinner
      cases (entriesOf_nil hb).symm.trans he
      exact hargs.mp ⟨[], .nil, .nil⟩
    · obtain ⟨-, written, r, hw, hends, hwritten⟩ := (entriesOf_eq_ok_iff h hp hb hinner).mp he
      have hwhole := hwritten.whole (fun us a h => (hW us a h).whole) 0 r
      have hwhole' := hsep.whole (fun us h => (hi us h).whole) 0 [⟨.closing d', span⟩]
      rw [splitClosing_of_ends hends, List.append_nil, ← hw, hwhole'] at hwhole
      have hin : inner = written := by simpa [Reader.splitClosing] using congrArg Prod.fst hwhole
      exact hargs.mp (hin ▸ hwritten)
  · exact fun he => entriesOf_of_arguments h hp hb rfl (hargs.mpr he)

/-- **However items are laid out, they are read exactly if each is the writing of an entry**, and as
these entries in order. -/
theorem LaysOut.allEntries_eq_ok_iff (h : Reads entry W) (hW : ∀ us a, W us a → IsItem us)
    {items : List (List Placed)} {as : List Attribute} (hl : LaysOut items as)
    (hi : ∀ us ∈ items, IsItem us) {es : List α} :
    allEntries entry as = .ok es ↔ List.Forall₂ W items es := by
  induction hl generalizing es with
  | nil =>
    rw [List.forall₂_nil_left_iff]
    constructor
    · intro he
      cases he
      rfl
    · rintro rfl
      rfl
  | @foreign items a as hp _ ih =>
    have ha : entriesOf entry a = .ok [] := by simp [entriesOf, hp]
    rw [allEntries_cons_iff, ← ih hi]
    constructor
    · rintro ⟨es₁, es₂, h₁, h₂, rfl⟩
      cases ha.symm.trans h₁
      exact h₂
    · exact fun he => ⟨[], es, ha, he, rfl⟩
  | @list here items a as d d' inner span hp hb hsep _ ih =>
    have hhere : ∀ us ∈ here, IsItem us := fun us hus => hi us (List.mem_append_left items hus)
    have hrest : ∀ us ∈ items, IsItem us := fun us hus => hi us (List.mem_append_right here hus)
    rw [allEntries_cons_iff]
    constructor
    · rintro ⟨es₁, es₂, h₁, h₂, rfl⟩
      have h₁ := (entriesOf_eq_ok_of_separated h hW hp hb hsep hhere).mp h₁
      exact List.rel_append h₁ ((ih hrest).mp h₂)
    · intro he
      have h₁ := List.forall₂_take here.length he
      have h₂ := List.forall₂_drop here.length he
      rw [List.take_left] at h₁
      rw [List.drop_left] at h₂
      exact ⟨_, _, (entriesOf_eq_ok_of_separated h hW hp hb hsep hhere).mpr h₁, (ih hrest).mpr h₂,
        (List.take_append_drop here.length es).symm⟩

end

end KeyedRecord.Derive
