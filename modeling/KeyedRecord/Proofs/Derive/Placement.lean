import KeyedRecord.Proofs.Derive.HelperAttributes

/-!
# Where tokens stand

A token keeps the place that it was read from, and messages point there.  What a helper attribute
says does not depend on these places: if its tokens stand elsewhere it is read in the same way, and
only the places in what is read differ.

Principal results: `containerEntry_moves` and `allEntries_moved`.
-/

set_option autoImplicit false

namespace KeyedRecord.Derive

open Source

/-- The same tokens, possibly at other places. -/
def Moved (ts ts' : List Placed) : Prop := tokensOf ts' = tokensOf ts

namespace Moved

theorem of_nil {us : List Placed} (h : Moved [] us) : us = [] := List.map_eq_nil_iff.mp h

theorem of_cons {t : Placed} {ts us : List Placed} (h : Moved (t :: ts) us) :
    ∃ span ts', us = ⟨t.token, span⟩ :: ts' ∧ Moved ts ts' := by
  obtain ⟨⟨token, span⟩, ts', rfl, rfl, ht⟩ := List.map_eq_cons_iff.mp h
  exact ⟨span, ts', rfl, ht⟩

theorem of_append {ts ts' us : List Placed} (h : Moved (ts ++ ts') us) :
    ∃ vs vs', us = vs ++ vs' ∧ Moved ts vs ∧ Moved ts' vs' := by
  have h : us.map Placed.token = ts.map Placed.token ++ ts'.map Placed.token := by
    rw [← List.map_append]
    exact h
  obtain ⟨vs, vs', rfl, hv, hv'⟩ := List.map_eq_append_iff.mp h
  exact ⟨vs, vs', rfl, hv, hv'⟩

theorem of_singleton {t : Placed} {us : List Placed} (h : Moved [t] us) :
    ∃ span, us = [⟨t.token, span⟩] := by
  obtain ⟨span, ts', rfl, hts⟩ := of_cons h
  exact ⟨span, by rw [of_nil hts]⟩

theorem append {ts ts' us us' : List Placed} (h : Moved ts us) (h' : Moved ts' us') :
    Moved (ts ++ ts') (us ++ us') := by
  simp only [Moved, tokensOf, List.map_append] at h h' ⊢
  rw [h, h']

theorem length_eq {ts us : List Placed} (h : Moved ts us) : us.length = ts.length := by
  simpa [tokensOf] using congrArg List.length h

theorem ends_eq {ts us : List Placed} (h : Moved ts us) : Front.ends us = Front.ends ts := by
  cases ts with
  | nil => rw [of_nil h]
  | cons t ts =>
    obtain ⟨token, span⟩ := t
    obtain ⟨span', ts', rfl, -⟩ := of_cons h
    cases token <;> rfl

end Moved

/-! ## What is read, without places -/

/-- A stretch of no text at the start. -/
def nowhere : Span := ⟨.start, .start⟩

/-- The literal without its place. -/
def unplacedLiteral (s : StringLiteral) : StringLiteral := { s with span := nowhere }

/-- The entry without its place. -/
def PropertyEntry.unplaced : PropertyEntry → PropertyEntry
  | name s => name (unplacedLiteral s)
  | e => e

/-- The property without its place. -/
def PropertyAttributes.unplaced (p : PropertyAttributes) : PropertyAttributes :=
  { p with nameSpan := nowhere }

/-- The entry without its place. -/
def ContainerEntry.unplaced : ContainerEntry → ContainerEntry
  | property p => property p.unplaced
  | e => e

/-- A stretch that stands elsewhere is written as the same entry, up to places. -/
def Moves {α : Type} (W : List Placed → α → Prop) (u : α → α) : Prop :=
  ∀ ⦃us us' a⦄, Moved us us' → W us a → ∃ a', W us' a' ∧ u a' = u a

/-! ## Arguments -/

theorem Separated.moved {args : List (List Placed)} {inner inner' : List Placed}
    (h : Separated args inner) (hm : Moved inner inner') :
    ∃ args', Separated args' inner' ∧ List.Forall₂ Moved args args' := by
  induction h generalizing inner' with
  | nil =>
    rw [hm.of_nil]
    exact ⟨[], .nil, .nil⟩
  | last us => exact ⟨[inner'], .last inner', .cons hm .nil⟩
  | cons joint span _ ih =>
    obtain ⟨us', rest, rfl, hus, hcomma⟩ := hm.of_append
    obtain ⟨span', rest', rfl, hrest⟩ := hcomma.of_cons
    obtain ⟨args', hsep, hargs⟩ := ih hrest
    exact ⟨us' :: args', .cons joint span' hsep, .cons hus hargs⟩

/-- Stretches that stand elsewhere are written as the same entries, up to places. -/
theorem Moves.forall₂ {α : Type} {W : List Placed → α → Prop} {u : α → α} (hW : Moves W u)
    {args args' : List (List Placed)} (hm : List.Forall₂ Moved args args') {as : List α}
    (h : List.Forall₂ W args as) :
    ∃ as', List.Forall₂ W args' as' ∧ as'.map u = as.map u := by
  induction hm generalizing as with
  | nil =>
    cases h
    exact ⟨[], .nil, rfl⟩
  | cons hm _ ih =>
    obtain - | ⟨ha, has⟩ := h
    obtain ⟨as', has', hu⟩ := ih has
    obtain ⟨a', ha', hua⟩ := hW hm ha
    exact ⟨a' :: as', .cons ha' has', by rw [List.map_cons, List.map_cons, hua, hu]⟩

/-- Arguments that stand elsewhere are the same, up to places. -/
theorem Arguments.moved {α : Type} {W : List Placed → α → Prop} {u : α → α} (hW : Moves W u)
    {inner inner' : List Placed} {as : List α} (h : Arguments W inner as)
      (hm : Moved inner inner') :
    ∃ as', Arguments W inner' as' ∧ as'.map u = as.map u := by
  obtain ⟨args, hsep, hargs⟩ := h
  obtain ⟨args', hsep', hm⟩ := hsep.moved hm
  obtain ⟨as', hargs', hu⟩ := hW.forall₂ hm hargs
  exact ⟨as', ⟨args', hsep', hargs'⟩, hu⟩

/-! ## Entries -/

theorem IsFlag.moved {w : String} {us us' : List Placed} (h : IsFlag w us) (hm : Moved us us') :
    IsFlag w us' := by
  obtain ⟨span, rfl⟩ := h
  exact hm.of_singleton

theorem ofPlaced?_moved {token : Token} {span span' : Span} {s : StringLiteral}
    (h : StringLiteral.ofPlaced? ⟨token, span⟩ = some s) :
    ∃ s', StringLiteral.ofPlaced? ⟨token, span'⟩ = some s' ∧
      unplacedLiteral s' = unplacedLiteral s := by
  cases token with
  | literal text =>
    obtain ⟨⟨value, suffix⟩, hd, rfl⟩ := Option.map_eq_some_iff.mp h
    exact ⟨⟨value, suffix, span'⟩, Option.map_eq_some_iff.mpr ⟨_, hd, rfl⟩, rfl⟩
  | ident | lifetime | punct | opening | closing => cases h

theorem IsValue.moved {w : String} {s : StringLiteral} {us us' : List Placed} (h : IsValue w s us)
    (hm : Moved us us') : ∃ s', IsValue w s' us' ∧ unplacedLiteral s' = unplacedLiteral s := by
  obtain ⟨span, joint, eq, lit, rfl, hs⟩ := h
  obtain ⟨span', rest, rfl, hrest⟩ := hm.of_cons
  obtain ⟨eq', rest', rfl, hlit⟩ := hrest.of_cons
  obtain ⟨place, rfl⟩ := hlit.of_singleton
  obtain ⟨s', hs', hu⟩ := ofPlaced?_moved hs
  exact ⟨s', ⟨span', joint, eq', _, rfl, hs'⟩, hu⟩

theorem IsGroup.moved {w : String} {inner us us' : List Placed} (h : IsGroup w inner us)
    (hm : Moved us us') : ∃ inner', IsGroup w inner' us' ∧ Moved inner inner' := by
  obtain ⟨span, opens, d, closes, rfl⟩ := h
  obtain ⟨span', rest, rfl, hrest⟩ := hm.of_cons
  obtain ⟨opens', rest', rfl, hrest'⟩ := hrest.of_cons
  obtain ⟨inner', last, rfl, hinner, hclose⟩ := hrest'.of_append
  obtain ⟨closes', rfl⟩ := hclose.of_singleton
  exact ⟨inner', ⟨span', opens', d, closes', rfl⟩, hinner⟩

/-- The text of a literal is read in the same way wherever the literal stands. -/
theorem read_of_unplaced {α : Type} {s s' : StringLiteral} {p : Reader α} {a : α}
    (hu : unplacedLiteral s' = unplacedLiteral s) (h : s.read p = .ok a) : s'.read p = .ok a := by
  obtain ⟨hvalue, hsuffix, -⟩ := StringLiteral.mk.inj hu
  rw [read_eq_ok_iff] at h ⊢
  rwa [hvalue, hsuffix]

theorem source_moved {α : Type} {w : String} {p : Reader α} {a : α} {us us' : List Placed}
    (h : ∃ s, IsValue w s us ∧ s.read p = .ok a) (hm : Moved us us') :
    ∃ s, IsValue w s us' ∧ s.read p = .ok a := by
  obtain ⟨s, hs, hread⟩ := h
  obtain ⟨s', hs', hu⟩ := hs.moved hm
  exact ⟨s', hs', read_of_unplaced hu hread⟩

theorem fieldEntry_moves : Moves FieldEntry.Written id := by
  intro us us' e hm h
  cases e with
  | included => exact ⟨.included, IsFlag.moved h hm, rfl⟩
  | ignored => exact ⟨.ignored, IsFlag.moved h hm, rfl⟩

theorem propertyEntry_moves : Moves PropertyEntry.Written PropertyEntry.unplaced := by
  intro us us' e hm h
  cases e with
  | name s =>
    obtain ⟨s', hs', hu⟩ := IsValue.moved h hm
    exact ⟨.name s', hs', congrArg PropertyEntry.name hu⟩
  | type p => exact ⟨.type p, source_moved h hm, rfl⟩
  | getter n => exact ⟨.getter n, source_moved h hm, rfl⟩
  | setter n => exact ⟨.setter n, source_moved h hm, rfl⟩
  | visibility v => exact ⟨.visibility v, source_moved h hm, rfl⟩
  | included => exact ⟨.included, IsFlag.moved h hm, rfl⟩
  | ignored => exact ⟨.ignored, IsFlag.moved h hm, rfl⟩

/-! ## Properties -/

namespace PropertyEntry

/-- The name that the entry gives. -/
def name? : PropertyEntry → Option StringLiteral
  | name s => some s
  | _ => none

/-- The type that the entry gives. -/
def type? : PropertyEntry → Option Phrase
  | type p => some p
  | _ => none

/-- The method to read with that the entry gives. -/
def getter? : PropertyEntry → Option String
  | getter n => some n
  | _ => none

/-- The method to write with that the entry gives. -/
def setter? : PropertyEntry → Option String
  | setter n => some n
  | _ => none

/-- The visibility that the entry gives. -/
def visibility? : PropertyEntry → Option Visibility
  | visibility v => some v
  | _ => none

end PropertyEntry

/-- What the entries of a property say together, if they give a name and a type. -/
theorem ofEntries_eq_ok_iff {es : List PropertyEntry} {p : PropertyAttributes} :
    PropertyAttributes.ofEntries es = .ok p ↔
      ∃ s type, lastOf PropertyEntry.name? es = some s ∧ lastOf PropertyEntry.type? es = some type ∧
        p = {
          name := s.value
          nameSpan := s.span
          type
          getter := lastOf PropertyEntry.getter? es
          setter := lastOf PropertyEntry.setter? es
          visibility := (lastOf PropertyEntry.visibility? es).getD .unrestricted
          included := es.contains .included
          ignored := es.contains .ignored } := by
  constructor
  · intro h
    unfold PropertyAttributes.ofEntries at h
    split at h
    · rename_i type ht
      split at h
      · rename_i s hs
        cases h
        exact ⟨s, type, hs, ht, rfl⟩
      · cases h
    · split at h <;> cases h
  · rintro ⟨s, type, hs, ht, rfl⟩
    unfold PropertyAttributes.ofEntries
    split
    · rename_i type' ht'
      cases ht'.symm.trans ht
      split
      · rename_i s' hs'
        cases hs'.symm.trans hs
        rfl
      · rename_i hs'
        cases hs'.symm.trans hs
    · rename_i ht'
      cases ht'.symm.trans ht

section

variable {es es' : List PropertyEntry}
  (hu : es'.map PropertyEntry.unplaced = es.map PropertyEntry.unplaced)

include hu in
/-- The last value that entries give is the same, up to what they give at other places. -/
theorem lastOf_map_eq {β : Type} {f : PropertyEntry → Option β} {g : β → β}
    (hf : ∀ e : PropertyEntry, f e.unplaced = (f e).map g) :
    (lastOf f es').map g = (lastOf f es).map g := by
  have hlast : ∀ es : List PropertyEntry,
      (lastOf f es).map g = lastOf f (es.map PropertyEntry.unplaced) := by
    intro es
    rw [lastOf, lastOf, ← List.getLast?_map, List.map_filterMap, List.filterMap_map]
    exact congrArg (fun f => (es.filterMap f).getLast?) (funext fun e => (hf e).symm)
  rw [hlast, hlast, hu]

include hu in
theorem lastOf_eq {β : Type} {f : PropertyEntry → Option β}
    (hf : ∀ e : PropertyEntry, f e.unplaced = f e) : lastOf f es' = lastOf f es := by
  simpa using lastOf_map_eq hu (f := f) (g := id) (by simpa using hf)

include hu in
theorem contains_eq {x : PropertyEntry} (hx : ∀ e : PropertyEntry, (x == e.unplaced) = (x == e)) :
    es'.contains x = es.contains x := by
  have hcontains : ∀ es : List PropertyEntry,
      es.contains x = (es.map PropertyEntry.unplaced).contains x := by
    intro es
    rw [List.contains_eq_any_beq, List.contains_eq_any_beq, List.any_map]
    exact congrArg es.any (funext fun e => (hx e).symm)
  rw [hcontains, hcontains es, hu]

include hu in
/-- Properties whose entries differ in their places differ in the place of the name. -/
theorem ofEntries_moved {p : PropertyAttributes} (h : PropertyAttributes.ofEntries es = .ok p) :
    ∃ p', PropertyAttributes.ofEntries es' = .ok p' ∧ p'.unplaced = p.unplaced := by
  obtain ⟨s, type, hs, ht, rfl⟩ := ofEntries_eq_ok_iff.mp h
  have hname : (lastOf PropertyEntry.name? es').map unplacedLiteral = some (unplacedLiteral s) := by
    rw [lastOf_map_eq hu (by rintro (_ | _) <;> rfl), hs]
    rfl
  obtain ⟨s', hs', hss⟩ := Option.map_eq_some_iff.mp hname
  have ht' : lastOf PropertyEntry.type? es' = some type :=
    (lastOf_eq hu (by rintro (_ | _) <;> rfl)).trans ht
  refine ⟨_, ofEntries_eq_ok_iff.mpr ⟨s', type, hs', ht', rfl⟩, ?_⟩
  -- flags, the names of methods and the visibility have no place
  have hg := lastOf_eq hu (f := PropertyEntry.getter?) (by rintro (_ | _) <;> rfl)
  have hset := lastOf_eq hu (f := PropertyEntry.setter?) (by rintro (_ | _) <;> rfl)
  have hv := lastOf_eq hu (f := PropertyEntry.visibility?) (by rintro (_ | _) <;> rfl)
  have hi := contains_eq hu (x := .included) (by rintro (_ | _) <;> rfl)
  have hig := contains_eq hu (x := .ignored) (by rintro (_ | _) <;> rfl)
  simp only [PropertyAttributes.unplaced, (StringLiteral.mk.inj hss).1, hg, hset, hv, hi, hig]

end

theorem containerEntry_moves : Moves ContainerEntry.Written ContainerEntry.unplaced := by
  intro us us' e hm h
  cases e with
  | nameSpace n =>
    obtain ⟨s, hs, rfl⟩ := h
    obtain ⟨s', hs', hu⟩ := hs.moved hm
    exact ⟨.nameSpace s'.value, ⟨s', hs', rfl⟩, by rw [(StringLiteral.mk.inj hu).1]⟩
  | crate c => exact ⟨.crate c, source_moved h hm, rfl⟩
  | property p =>
    obtain ⟨inner, es, hgroup, hne, hargs, hes⟩ := h
    obtain ⟨inner', hgroup', hinner⟩ := hgroup.moved hm
    obtain ⟨es', hargs', hu⟩ := hargs.moved propertyEntry_moves hinner
    obtain ⟨p', hes', hp⟩ := ofEntries_moved hu hes
    have hne' : es' ≠ [] := fun h => hne (List.map_eq_nil_iff.mp (by rw [← hu, h]; rfl))
    exact ⟨.property p', ⟨inner', es', hgroup', hne', hargs', hes'⟩,
      congrArg ContainerEntry.property hp⟩

/-! ## Attributes -/

/-- The same path, possibly at another place. -/
def PathMoved (p p' : PlainPath) : Prop := p'.leading = p.leading ∧ Moved p.segments p'.segments

/-- The same body, possibly at another place. -/
inductive BodyMoved : AttributeBody → AttributeBody → Prop
  | bare : BodyMoved .bare .bare
  | value (eq eq' : Span) (v : Phrase) : BodyMoved (.value eq v) (.value eq' v)
  | list (d : Delimiter) {inner inner' : List Placed} {close close' : Placed} :
    Moved inner inner' → close'.token = close.token →
      BodyMoved (.list d inner close) (.list d inner' close')

/-- The same attribute, possibly at another place. -/
structure AttributeMoved (a a' : Attribute) : Prop where
  path : PathMoved a.path a'.path
  body : BodyMoved a.body a'.body

theorem isIdent_eq_of_moved (leading : Bool) {segments segments' : List Placed} (w : String)
    (h : Moved segments segments') :
    PlainPath.isIdent ⟨leading, segments'⟩ w = PlainPath.isIdent ⟨leading, segments⟩ w := by
  match segments, h with
  | [], h => rw [h.of_nil]
  | [s], h =>
    obtain ⟨span, rfl⟩ := h.of_singleton
    cases leading <;> rfl
  | s :: t :: segments, h =>
    obtain ⟨span, rest, rfl, hrest⟩ := h.of_cons
    obtain ⟨span', rest, rfl, -⟩ := hrest.of_cons
    cases leading <;> rfl

theorem PathMoved.isIdent_eq {p p' : PlainPath} (h : PathMoved p p') (w : String) :
    p'.isIdent w = p.isIdent w := by
  obtain ⟨leading, segments⟩ := p
  obtain ⟨leading', segments'⟩ := p'
  obtain ⟨rfl, hm⟩ := h
  exact isIdent_eq_of_moved leading' w hm

section

variable {α : Type} {entry : PlainPath → Reading α} {W : List Placed → α → Prop} {u : α → α}

/-- A list of arguments that stands elsewhere says the same, up to places. -/
theorem entriesOf_list_moved (h : Reads entry W) (hW : Moves W u) {a a' : Attribute}
    (hp : a.path.isIdent "objdict" = true) (hp' : a'.path.isIdent "objdict" = true)
    {d : Delimiter} {inner inner' : List Placed} {close close' : Placed}
    (hb : a.body = .list d inner close) (hb' : a'.body = .list d inner' close')
    (hm : Moved inner inner') (hc : close'.token = close.token) {es : List α}
    (he : entriesOf entry a = .ok es) :
    ∃ es', entriesOf entry a' = .ok es' ∧ es'.map u = es.map u := by
  by_cases hi : inner = []
  · subst hi
    rw [hm.of_nil] at hb'
    rw [entriesOf_nil hb] at he
    cases he
    exact ⟨[], entriesOf_nil hb', rfl⟩
  · have hi' : inner' ≠ [] := by
      rwa [ne_eq, ← List.length_eq_zero_iff, hm.length_eq, List.length_eq_zero_iff]
    obtain ⟨hne, written, r, hw, hends, hargs⟩ := (entriesOf_eq_ok_iff h hp hb hi).mp he
    have hall : Moved (inner ++ [close]) (inner' ++ [close']) := hm.append (congrArg ([·]) hc)
    rw [hw] at hall
    obtain ⟨written', r', hw', hwritten, hr⟩ := hall.of_append
    obtain ⟨es', hargs', hu⟩ := hargs.moved hW hwritten
    have hne' : es' ≠ [] := fun h => hne (List.map_eq_nil_iff.mp (by rw [← hu, h]; rfl))
    exact ⟨es', (entriesOf_eq_ok_iff h hp' hb' hi').mpr
      ⟨hne', written', r', hw', hr.ends_eq.trans hends, hargs'⟩, hu⟩

/-- An attribute that stands elsewhere says the same, up to places. -/
theorem AttributeMoved.entriesOf_ok (h : Reads entry W) (hW : Moves W u) {a a' : Attribute}
    (hm : AttributeMoved a a') {es : List α} (he : entriesOf entry a = .ok es) :
    ∃ es', entriesOf entry a' = .ok es' ∧ es'.map u = es.map u := by
  have hpath := hm.path.isIdent_eq "objdict"
  by_cases hp : a.path.isIdent "objdict" = true
  · have hbody := hm.body
    generalize hb : a.body = body at hbody
    generalize hb' : a'.body = body' at hbody
    cases hbody with
    | bare => simp [entriesOf, hp, hb] at he
    | value => simp [entriesOf, hp, hb] at he
    | list d hinner hclose =>
      exact entriesOf_list_moved h hW hp (hpath.trans hp) hb hb' hinner hclose he
  · rw [Bool.not_eq_true] at hp
    have hother : ∀ a : Attribute, a.path.isIdent "objdict" = false → entriesOf entry a = .ok [] :=
      fun a ha => by simp [entriesOf, ha]
    rw [hother a hp] at he
    cases he
    exact ⟨[], hother a' (hpath.trans hp), rfl⟩

/-- Attributes that stand elsewhere say the same, up to places. -/
theorem allEntries_moved (h : Reads entry W) (hW : Moves W u) {as as' : List Attribute}
    (hm : List.Forall₂ AttributeMoved as as') {es : List α} (he : allEntries entry as = .ok es) :
    ∃ es', allEntries entry as' = .ok es' ∧ es'.map u = es.map u := by
  induction hm generalizing es with
  | nil =>
    cases he
    exact ⟨[], rfl, rfl⟩
  | cons hm _ ih =>
    obtain ⟨es₁, es₂, h₁, h₂, rfl⟩ := allEntries_cons_iff.mp he
    obtain ⟨es₁', h₁', hu₁⟩ := hm.entriesOf_ok h hW h₁
    obtain ⟨es₂', h₂', hu₂⟩ := ih h₂
    exact ⟨es₁' ++ es₂', allEntries_cons_iff.mpr ⟨es₁', es₂', h₁', h₂', rfl⟩,
      by rw [List.map_append, List.map_append, hu₁, hu₂]⟩

end

end KeyedRecord.Derive
