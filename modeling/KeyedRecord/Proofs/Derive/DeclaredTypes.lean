import KeyedRecord.Derive.Pipeline
import KeyedRecord.Proofs.Derive.Keys
import KeyedRecord.Proofs.Derive.Placement
import KeyedRecord.Proofs.Source.TypeTexts

/-!
# Types of selected members

A descriptor keeps the type of a member as text, and code is generated from the type that is read
back from it.  For a declaration that was read from a text each of these texts is that of the
declared type again, in canonical order, so nothing but a malformed attribute keeps it from being
generated.

There is one exception.  The name `_` lets fields between braces stand where the type of a field
does, and their text is not one of a type.

Principal results: `TypeDecl.hasReadTypes_of_ofText`, for the table of every declaration that was
read; `generate_eq_ok_iff`; and `declared_types_read_back`, with `inline_body_is_refused` for the
exception.
-/

set_option autoImplicit false

namespace KeyedRecord.Derive

open Source

/-! ## Where declared types come from -/

/-- The types of the members are types, or fields between braces in place of one. -/
def TypeDecl.HasReadTypes (decl : TypeDecl) : Prop :=
  ∀ m ∈ decl.members, IsType m.type ∨ m.type.standsInline = true

/-- The type that a property declares was read from a string. -/
theorem isType_of_property {ts : List Placed} {p : PropertyAttributes}
    (h : ContainerEntry.Written ts (.property p)) : IsType p.type := by
  obtain ⟨inner, es, -, -, ⟨args, -, hargs⟩, hes⟩ := h
  obtain ⟨-, t, -, ht, rfl⟩ := ofEntries_eq_ok_iff.mp hes
  obtain ⟨e, he, het⟩ := List.mem_filterMap.mp (List.mem_of_getLast? ht)
  obtain ⟨us, -, hus⟩ := exists_mem_of_forall₂ hargs.flip he
  cases e <;> cases het
  obtain ⟨s, -, hread⟩ := hus
  obtain ⟨ts, hlex, hread, -⟩ := read_eq_ok_iff.mp hread
  exact isType_of_lex hlex hread

/-- Only structures have a descriptor. -/
theorem TypeDecl.exists_fields_of_descriptor {item : Item} {decl : TypeDecl}
    (h : TypeDecl.ofItem item = .ok decl) {d : TypeDescriptor} (hd : decl.descriptor = some d) :
    ∃ fields, item.data = .struct fields := by
  obtain ⟨kind, hkind, -⟩ := TypeDecl.of_descriptor hd
  rw [(TypeDecl.head_of_ofItem h).2] at hkind
  cases hdata : item.data with
  | struct fields => exact ⟨fields, rfl⟩
  | enumeration | union => rw [hdata] at hkind; cases hkind

/-- **The types of a structure that was read are types, or fields between braces.** -/
theorem TypeDecl.hasReadTypes_of_ofText {text : String} {item : Item}
    (htext : Item.ofText text = .ok item)
    {decl : TypeDecl} (h : TypeDecl.ofItem item = .ok decl) {d : TypeDescriptor}
    (hd : decl.descriptor = some d) : decl.HasReadTypes := by
  obtain ⟨fields, hdata⟩ := TypeDecl.exists_fields_of_descriptor h hd
  obtain ⟨entries, fieldTable, he, hf, -, -, -, hm⟩ := TypeDecl.of_ofItem hdata h
  intro m hmem
  rw [hm, TypeDecl.table] at hmem
  rcases List.mem_append.mp hmem with hmem | hmem
  · obtain ⟨p, hp, rfl⟩ := List.mem_map.mp hmem
    obtain ⟨e, hentry, hep⟩ := List.mem_filterMap.mp hp
    obtain ⟨us, hus⟩ := written_of_allEntries containerEntry_reads he e hentry
    split at hep <;> cases hep
    exact .inl (isType_of_property hus)
  · rw [fieldMembers_eq_mapM] at hf
    obtain ⟨q, hq, hqm⟩ := exists_of_mem_mapM_ok hf hmem
    have hfield : q.1 ∈ fields.toList := by
      rw [← List.zipIdx_map_fst 0 fields.toList]
      exact List.mem_map_of_mem hq
    rw [(of_fieldMember hqm).2.1]
    exact (((Item.wasRead_of_ofText htext).fields fields hdata).parts q.1 hfield).type

/-! ## What is generated -/

theorem exists_ofMember_iff {m : MemberDescriptor} :
    (∃ slot, Slot.ofMember m = .ok slot) ↔ ∃ p, readText readType m.declaredType = .ok p := by
  unfold Slot.ofMember
  cases readText readType m.declaredType <;> simp [bind, Except.bind, pure, Except.pure]

/-- Code is rendered exactly if all types are read back. -/
theorem exists_render_iff {d : TypeDescriptor} (crate : Phrase) :
    (∃ code, render d crate = .ok code) ↔
      ∀ m ∈ d.members, ∃ p, readText readType m.declaredType = .ok p := by
  have hslots : (∃ code, render d crate = .ok code) ↔
      ∃ slots, d.members.mapM Slot.ofMember = .ok slots := by
    unfold render Conversion.ofDescriptor
    cases d.members.mapM Slot.ofMember <;> simp [bind, Except.bind, pure, Except.pure]
  rw [hslots, exists_mapM_eq_ok]
  exact forall₂_congr fun _ _ => exists_ofMember_iff

/-- A declaration is generated, under the name of its descriptor, exactly if its code is rendered.
-/
theorem generate_eq_ok_iff {item : Item} {decl : TypeDecl} (h : TypeDecl.ofItem item = .ok decl)
    {d : TypeDescriptor} (hd : decl.descriptor = some d) (s : UnitList) :
    (generate item s).1 = .ok (some d.unitName) ↔ ∃ code, render d decl.crate = .ok code := by
  obtain ⟨events, hscan⟩ : ∃ events, decl.scan = (some d, events) := ⟨decl.scan.2, Prod.ext hd rfl⟩
  unfold generate unitOf
  simp only [h, hscan]
  cases render d decl.crate <;> simp

/-- A declared type is read back from its text exactly if it is one. -/
theorem exists_readText_iff {t : Phrase} (h : IsType t ∨ t.standsInline = true) :
    (∃ p, readText readType t.text = .ok p) ↔ t.standsInline = false := by
  cases hinline : t.standsInline with
  | true => simp [not_readText_of_standsInline hinline]
  | false => simpa using ⟨_, (h.resolve_right (by simp [hinline])).readText_eq⟩

/-- What is read back from a descriptor prints as it stands there. -/
theorem TypeDecl.HasReadTypes.text_eq {decl : TypeDecl} (h : decl.HasReadTypes) :
    ∀ md ∈ decl.selected, ∀ t, readText readType md.declaredType = .ok t →
      t.text = md.declaredType := by
  intro md hmem t ht
  obtain ⟨m, hm, hmd⟩ := List.mem_filterMap.mp hmem
  rw [(MemberDecl.of_select hmd).2.1] at ht ⊢
  have hinline := (exists_readText_iff (h m hm)).mp ⟨t, ht⟩
  rw [((h m hm).resolve_right (by simp [hinline])).readText_eq] at ht
  cases ht
  rfl

/-- **The declared types of a declaration are read back from its descriptor.**  The text of each
selected member is read as a type of the same print, so it prints as the same text, unless fields
between braces stand in place of the type.  Where no selected member has such, and only there, code
is rendered and the declaration is generated. -/
theorem declared_types_read_back {text : String} {item : Item} (htext : Item.ofText text = .ok item)
    {decl : TypeDecl} (h : TypeDecl.ofItem item = .ok decl) {d : TypeDescriptor}
    (hd : decl.descriptor = some d) (s : UnitList) :
    (∀ m ∈ decl.members, ∀ md, m.select = some md → m.type.standsInline = false →
      ∃ p, readText readType md.declaredType = .ok p ∧ p.printed = m.type.printed ∧
        p.text = md.declaredType) ∧
    ((∃ code, render d decl.crate = .ok code) ↔
      ∀ m ∈ decl.members, m.select.isSome = true → m.type.standsInline = false) ∧
    ((generate item s).1 = .ok (some d.unitName) ↔
      ∀ m ∈ decl.members, m.select.isSome = true → m.type.standsInline = false) := by
  have htypes := TypeDecl.hasReadTypes_of_ofText htext h hd
  obtain ⟨kind, -, hmembers⟩ := TypeDecl.of_descriptor hd
  have hrender : (∃ code, render d decl.crate = .ok code) ↔
      ∀ m ∈ decl.members, m.select.isSome = true → m.type.standsInline = false := by
    rw [exists_render_iff, hmembers]
    constructor
    · intro hread m hm hselect
      obtain ⟨md, hmd⟩ := Option.isSome_iff_exists.mp hselect
      have hback := hread md (List.mem_filterMap.mpr ⟨m, hm, hmd⟩)
      rw [(MemberDecl.of_select hmd).2.1] at hback
      exact (exists_readText_iff (htypes m hm)).mp hback
    · intro hnone md hmem
      obtain ⟨m, hm, hmd⟩ := List.mem_filterMap.mp hmem
      rw [(MemberDecl.of_select hmd).2.1]
      exact (exists_readText_iff (htypes m hm)).mpr (hnone m hm (by simp [hmd]))
  refine ⟨fun m hm md hmd hinline => ?_, hrender, (generate_eq_ok_iff h hd s).trans hrender⟩
  have htype := (htypes m hm).resolve_right (by simp [hinline])
  rw [(MemberDecl.of_select hmd).2.1]
  exact ⟨m.type.canonical, htype.readText_eq, rfl, rfl⟩

/-- What is declared in a text: the declaration, its table, and its descriptor. -/
def declared? (text : String) : Option (Item × TypeDecl × TypeDescriptor) :=
  (Item.ofText text).toOption.bind fun item =>
    (TypeDecl.ofItem item).toOption.bind fun decl => decl.descriptor.map fun d => (item, decl, d)

theorem eq_ok_of_toOption {ε α : Type} {x : Except ε α} {a : α} (h : x.toOption = some a) :
    x = .ok a := by
  cases x with
  | error e => cases h
  | ok b => exact congrArg Except.ok (Option.some.inj h)

theorem of_declared? {text : String} {item : Item} {decl : TypeDecl} {d : TypeDescriptor}
    (h : declared? text = some (item, decl, d)) :
    Item.ofText text = .ok item ∧ TypeDecl.ofItem item = .ok decl ∧ decl.descriptor = some d := by
  obtain ⟨item', hitem, h⟩ := Option.bind_eq_some_iff.mp h
  obtain ⟨decl', hdecl, h⟩ := Option.bind_eq_some_iff.mp h
  obtain ⟨d', hd, h⟩ := Option.map_eq_some_iff.mp h
  cases h
  exact ⟨eq_ok_of_toOption hitem, eq_ok_of_toOption hdecl, hd⟩

/-- A structure whose types need more than a name, with a property whose arguments stand in another
order in its text. -/
def shelfText : String :=
  "#[objdict(property(name = \"spine\", ty = \"Cow<str, 'a>\", get = \"spine\", " ++
    "set = \"set_spine\"))]" ++
  "pub struct Shelf<'a> \x7b pub rows: Vec<Vec<u8>>, pub label: &'static str, " ++
    "pub grid: [u8; SIZE.0.1 - 1], pub sort: for<'b> fn(&'b [u8], by: u8) -> " ++
    "Box<dyn Fn(u8) -> bool + Send>, _hidden: fn() \x7d"

theorem declared_types_read_back_shelf :
    ∃ item decl d, Item.ofText shelfText = .ok item ∧ TypeDecl.ofItem item = .ok decl ∧
      decl.descriptor = some d ∧
      d.members.map MemberDescriptor.declaredType = ["Cow < 'a , str , >", "Vec < Vec < u8 > >",
        "& 'static str", "[u8 ; SIZE . 0 . 1 - 1]",
        "for < 'b > fn (& 'b [u8] , by : u8) -> Box < dyn Fn (u8) -> bool + Send >"] ∧
      (∀ m ∈ decl.members, ∀ md, m.select = some md →
        ∃ p, readText readType md.declaredType = .ok p ∧
        p.printed = m.type.printed ∧ p.text = md.declaredType) ∧
      (generate item .empty).1 = .ok (some d.unitName) := by
  have hshelf : (declared? shelfText).map (fun s =>
      (s.2.2.members.map MemberDescriptor.declaredType, s.2.1.members.any (·.type.standsInline))) =
      some (["Cow < 'a , str , >", "Vec < Vec < u8 > >", "& 'static str", "[u8 ; SIZE . 0 . 1 - 1]",
        "for < 'b > fn (& 'b [u8] , by : u8) -> Box < dyn Fn (u8) -> bool + Send >"], false) := by
    decide +kernel
  obtain ⟨⟨item, decl, d⟩, hdeclared, hshelf⟩ := Option.map_eq_some_iff.mp hshelf
  obtain ⟨htext, hdecl, hd⟩ := of_declared? hdeclared
  obtain ⟨htypes, hinline⟩ := Prod.mk.inj hshelf
  have hinline : ∀ m ∈ decl.members, m.type.standsInline = false := by simpa using hinline
  obtain ⟨hback, -, hgenerate⟩ := declared_types_read_back htext hdecl hd .empty
  exact ⟨item, decl, d, htext, hdecl, hd, htypes, fun m hm md hmd =>
    hback m hm md hmd (hinline m hm),
    hgenerate.mpr fun m hm _ => hinline m hm⟩

/-- The types of the selected members of a declaration, and whether it is generated. -/
def typesAndAnswer (text : String) : Option (List String × Bool) :=
  (Item.ofText text).toOption.bind fun item =>
    (TypeDecl.ofItem item).toOption.map fun decl =>
      (decl.selected.map MemberDescriptor.declaredType, (generate item .empty).1.toOption.isSome)

/-- Fields between braces may stand in place of a type, and are none. -/
theorem inline_body_is_refused :
    typesAndAnswer "pub struct S \x7b pub _: struct \x7b a: u8 \x7d \x7d" =
      some (["struct \x7b a : u8 \x7d"], false) := by
  decide +kernel

end KeyedRecord.Derive
