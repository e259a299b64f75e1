import KeyedRecord.Proofs.Table
import KeyedRecord.Proofs.Derive.MemberTable
import KeyedRecord.Proofs.Derive.RenderedConversion

/-!
# No key is lost

The names of a table are distinct, also those of members that are left out later.  So the keys of
the descriptor are distinct, no insert of the rendered code takes the place of an earlier one, and
the dictionary of every value has exactly the keys of the list.

Principal result: `struct_keys`.
-/

set_option autoImplicit false

namespace KeyedRecord.Derive

open Source

/-! ## Selected members -/

/-- A selected member keeps its name, its type and its place. -/
theorem MemberDecl.of_select {m : MemberDecl} {md : MemberDescriptor} (h : m.select = some md) :
    md.name = m.name ∧ md.declaredType = m.type.text ∧ m.access? = some md.access := by
  unfold select at h
  split at h
  · rename_i ha
    cases h
    exact ⟨rfl, rfl, ha⟩
  · cases h

theorem MemberDecl.kind_of_access {m : MemberDecl} {place : Place}
    (h : m.access? = some (.field place)) : m.kind = .field place := by
  unfold access? at h
  split at h
  · rename_i hk
    cases h
    exact hk
  · cases h
  · cases h

namespace TypeDecl

/-- A table with a shape has a descriptor, whose members are the selected ones. -/
theorem descriptor_of_kind {d : TypeDecl} {kind : TypeKind} (h : d.kind = some kind) :
    ∃ desc, d.descriptor = some desc ∧ desc.members = d.selected := by
  unfold descriptor scan
  rw [h]
  exact ⟨_, rfl, rfl⟩

/-- A descriptor is that of a table with a shape. -/
theorem of_descriptor {d : TypeDecl} {desc : TypeDescriptor} (h : d.descriptor = some desc) :
    ∃ kind, d.kind = some kind ∧ desc.members = d.selected := by
  unfold descriptor scan at h
  cases hk : d.kind with
  | none =>
    rw [hk] at h
    cases h
  | some kind =>
    rw [hk] at h
    cases h
    exact ⟨kind, rfl, rfl⟩

theorem names_selected_sublist (d : TypeDecl) :
    (d.selected.map MemberDescriptor.name).Sublist (namesOf d.members) :=
  filterMap_names_sublist (fun _ _ h => (MemberDecl.of_select h).1) d.members

/-- A selected field has the name and the type of the field that is declared at its position. -/
theorem field_of_selected {entries : List ContainerEntry} {fs : List Field}
    {fieldTable : List MemberDecl} (hf : fieldMembers 0 fs = .ok fieldTable)
    {md : MemberDescriptor} (hm : md ∈ (table entries fieldTable).filterMap MemberDecl.select)
    {place : Place} (ha : md.access = .field place) :
    ∃ (index : Nat) (f : Field), fs[index]? = some f ∧ fieldName f index = (md.name, place) ∧
      md.declaredType = f.type.text := by
  obtain ⟨m, hm, hs⟩ := List.mem_filterMap.mp hm
  obtain ⟨hname, htype, haccess⟩ := MemberDecl.of_select hs
  rw [ha] at haccess
  have hkind := MemberDecl.kind_of_access haccess
  rcases List.mem_append.mp hm with hm | hm
  · obtain ⟨p, -, rfl⟩ := List.mem_map.mp hm
    cases hkind
  · rw [fieldMembers_eq_mapM] at hf
    obtain ⟨⟨f, index⟩, hq, hfm⟩ := exists_of_mem_mapM_ok hf hm
    obtain ⟨hn, ht, hk⟩ := of_fieldMember hfm
    refine ⟨index, f, List.mem_zipIdx_iff_getElem?.mp hq, ?_, ?_⟩
    · rw [hkind] at hk
      rw [hname, hn, MemberKind.field.inj hk]
    · rw [htype, ht]

end TypeDecl

/-! ## Dictionaries of rendered code -/

/-- The dictionary that slots are gathered in has the slots' keys, if these are distinct. -/
theorem keys_insertSlots {R : Registry} {σ Θ : Type} (rt : Runtime R σ Θ) (s : σ)
    {slots : List Slot}
    (h : (slots.map Slot.key).Nodup) :
    (slots.foldl (rt.insertSlot s) .empty).keys = slots.map Slot.key := by
  have hfold : slots.foldl (rt.insertSlot s) .empty =
      Table.ofList (slots.map fun c => (c.key, rt.toValue (rt.read s c.access.operand))) := by
    rw [Table.ofList, List.foldl_map]
    rfl
  have hkeys : (slots.map fun c => (c.key, rt.toValue (rt.read s c.access.operand))).map Prod.fst =
      slots.map Slot.key := by
    rw [List.map_map]
    rfl
  rw [hfold, Table.keys_ofList (hkeys ▸ h), hkeys]

/-- Where the keys are distinct, the rendered code gathers a value under each of them. -/
theorem exists_dict_of_render {d : TypeDescriptor} {crate : Phrase} (hc : IsCratePath crate)
    {code : List Token} (hr : render d crate = .ok code) (hn : d.keys.Nodup) :
    ∃ (keys toDict fromDict : List Token) (parameter : String) (P : Program),
      code = unitFrame d crate keys toDict parameter fromDict ∧ readKeys keys = some d.keys ∧
      Program.read crate.printed toDict = some P ∧
      ∀ (R : Registry) (σ Θ : Type) (rt : Runtime R σ Θ) (s : σ), ∃ dict, P.toDict rt s =
        some dict ∧
        dict.keys = d.keys ∧ dict.size = d.keys.length := by
  obtain ⟨slots, hslots⟩ := exists_slots_of_render hr
  obtain ⟨keys, toDict, fromDict, parameter, P, -, hof, hcode, hkeys, hP, hg, -⟩ :=
    converts_of_slots hc hslots
  have hk : slots.map Slot.key = d.keys := keys_of_slots hof
  refine ⟨keys, toDict, fromDict, parameter, P, Except.ok.inj (hr.symm.trans hcode), hkeys, hP,
    fun R σ Θ rt s => ⟨_, hg.result rt s, ?_⟩⟩
  have hdict := (keys_insertSlots rt s (hk ▸ hn)).trans hk
  exact ⟨hdict, by rw [Table.size_eq_length_keys, hdict]⟩

/-! ## The main result -/

/-- **No key is lost to a collision.**  A structure has a table exactly if its attributes can be
read, the attributes of all its fields can, and no two of its names are equal.  What is refused is
refused for the attributes of the type, or else for those of the first such field, or else for the
first name that repeats one before it.  The keys of the descriptor are distinct and some of the
declared names in their order, and the rendered code makes a dictionary of exactly these keys of
every value. -/
theorem struct_keys (item : Item) (fields : Fields) (hd : item.data = .struct fields) :
    ((∃ decl, TypeDecl.ofItem item = .ok decl) ↔
      ∃ entries, allEntries containerEntry item.attributes = .ok entries ∧
        (∀ f ∈ fields.toList, FieldReads f) ∧ (declaredNames entries fields.toList).Nodup) ∧
    (∀ r, allEntries containerEntry item.attributes = .error r → TypeDecl.ofItem item = .error r) ∧
    (∀ entries r, allEntries containerEntry item.attributes = .ok entries →
      FirstUnreadField fields.toList r → TypeDecl.ofItem item = .error r) ∧
    (∀ entries fieldTable, allEntries containerEntry item.attributes = .ok entries →
      fieldMembers 0 fields.toList = .ok fieldTable →
      ¬ (declaredNames entries fields.toList).Nodup →
      ∃ m, FirstRepeated (TypeDecl.table entries fieldTable) m ∧
        TypeDecl.ofItem item = .error ⟨.duplicate m.name, m.span⟩) ∧
    (∀ decl, TypeDecl.ofItem item = .ok decl → ∃ entries d,
      allEntries containerEntry item.attributes = .ok entries ∧ decl.descriptor = some d ∧
      d.keys.Nodup ∧ d.keys.Sublist (declaredNames entries fields.toList) ∧
      (∀ m ∈ d.members, ∀ place, m.access = .field place →
        ∃ (index : Nat) (f : Field), fields.toList[index]? = some f ∧
          fieldName f index = (m.name, place) ∧ m.declaredType = f.type.text) ∧
      ∀ code, render d decl.crate = .ok code →
        ∃ (keys toDict fromDict : List Token) (parameter : String) (P : Program),
          code = unitFrame d decl.crate keys toDict parameter fromDict ∧
          readKeys keys = some d.keys ∧ Program.read decl.crate.printed toDict = some P ∧
          ∀ (R : Registry) (σ Θ : Type) (rt : Runtime R σ Θ) (s : σ), ∃ dict, P.toDict rt s =
          some dict ∧
            dict.keys = d.keys ∧ dict.size = d.keys.length) := by
  refine ⟨TypeDecl.exists_ofItem hd, fun r h => TypeDecl.ofItem_container_error h,
    fun entries r he hf => TypeDecl.ofItem_field_error hd he hf,
    fun entries fieldTable he hf hn => TypeDecl.ofItem_repeated hd he hf hn, fun decl h => ?_⟩
  obtain ⟨entries, fieldTable, he, hf, hn, hkind, hcrate, hmembers⟩ := TypeDecl.of_ofItem hd h
  obtain ⟨d, hdesc, hmem⟩ := TypeDecl.descriptor_of_kind hkind
  have hsub : d.keys.Sublist (declaredNames entries fields.toList) := by
    rw [← TypeDecl.namesOf_table hf, ← hmembers, TypeDescriptor.keys, hmem]
    exact TypeDecl.names_selected_sublist decl
  have hnodup : d.keys.Nodup := hsub.nodup hn
  have hc : IsCratePath decl.crate := by
    rw [hcrate]
    exact isCratePath_of_entries he
  refine ⟨entries, d, he, hdesc, hnodup, hsub, fun m hm place ha => ?_,
    fun code hr => exists_dict_of_render hc hr hnodup⟩
  rw [hmem, TypeDecl.selected, hmembers] at hm
  exact TypeDecl.field_of_selected hf hm ha

/-- Two positions, the first of which is left out. -/
def testPairFields : List Field :=
  [⟨[], .inherited, none, .word "i32", none⟩, ⟨[], .unrestricted, none, .word "String", none⟩]

/-- A tuple of these. -/
def testPair : Item where
  attributes := []
  visibility := .unrestricted
  name := "Pair"
  generics := .empty
  data := .struct (.unnamed testPairFields)

theorem fieldReads_testPairFields : ∀ f ∈ testPairFields, FieldReads f := by
  intro f hf
  refine ⟨⟨false, false⟩, ?_⟩
  rcases List.mem_pair.mp hf with rfl | rfl
  · rfl
  · rfl

/-- The second position keeps its number when the first is left out. -/
theorem struct_keys_testPair :
    testPair.data = .struct (.unnamed testPairFields) ∧
    ∃ decl d, TypeDecl.ofItem testPair = .ok decl ∧ decl.descriptor = some d ∧
      d.keys = ["1"] ∧ d.keys.Nodup ∧ d.keys.Sublist ["0", "1"] := by
  obtain ⟨hexists, -, -, -, htable⟩ := struct_keys testPair _ rfl
  obtain ⟨decl, hdecl⟩ := hexists.mpr ⟨[], rfl, fieldReads_testPairFields, by decide⟩
  obtain ⟨entries, d, he, hd, hn, hs, -⟩ := htable decl hdecl
  cases he
  cases hdecl
  cases hd
  exact ⟨rfl, _, _, rfl, rfl, rfl, hn, hs⟩

/-- A field is known by its name without `r#`. -/
example :
    (Item.ofText "#[objdict(property(name = \"type\", ty = \"u8\"))] struct P \x7b r#type: u8 \x7d"
      |>.toOption.bind fun item =>
        match TypeDecl.ofItem item with
        | .error r => some r.fault
        | .ok _ => none) = some (.duplicate "type") := by
  decide +kernel

end KeyedRecord.Derive
