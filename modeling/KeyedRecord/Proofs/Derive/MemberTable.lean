import KeyedRecord.Derive.Descriptor
import KeyedRecord.Proofs.Lists

/-!
# The table of a structure

When a structure has a table, why it has none, and what the table holds.  The names of all members
come from three sources: the texts of properties, the names of fields, and the positions of fields.
The table exists exactly if everything that is said about the members can be read and no two of
these names are equal; what is wrong with the type is reported before what is wrong with a field,
and that before two equal names.

Principal results: `TypeDecl.ofItem_eq`, `TypeDecl.exists_ofItem` and `TypeDecl.of_ofItem`.
-/

set_option autoImplicit false

namespace KeyedRecord.Derive

open Source

/-! ## Equal names -/

/-- The names of members. -/
def namesOf (ms : List MemberDecl) : List String := ms.map MemberDecl.name

/-- The first member whose name another member before it has. -/
def FirstRepeated (ms : List MemberDecl) (m : MemberDecl) : Prop :=
  ∃ before after, ms = before ++ m :: after ∧ (namesOf before).Nodup ∧ m.name ∈ namesOf before

theorem firstDuplicate_eq_none {seen : List String} {ms : List MemberDecl}
    (h : firstDuplicate seen ms = none) :
    (namesOf ms).Nodup ∧ ∀ name ∈ namesOf ms, name ∉ seen := by
  induction ms generalizing seen with
  | nil => simp [namesOf]
  | cons m ms ih =>
    rw [firstDuplicate] at h
    split at h
    · cases h
    · rename_i hs
      have hm : m.name ∉ seen := by simpa using hs
      obtain ⟨hn, hd⟩ := ih h
      refine ⟨List.nodup_cons.mpr ⟨fun hmem => hd _ hmem (by simp), hn⟩, ?_⟩
      intro name hname
      rcases List.mem_cons.mp hname with rfl | hname
      · exact hm
      · exact fun h' => hd name hname (by simp [h'])

theorem firstDuplicate_eq_some {seen : List String} {ms : List MemberDecl} {m : MemberDecl}
    (h : firstDuplicate seen ms = some m) :
    ∃ before after, ms = before ++ m :: after ∧ (namesOf before).Nodup ∧
      (∀ name ∈ namesOf before, name ∉ seen) ∧ (m.name ∈ seen ∨ m.name ∈ namesOf before) := by
  induction ms generalizing seen with
  | nil => cases h
  | cons m' ms ih =>
    rw [firstDuplicate] at h
    split at h
    · rename_i hs
      cases h
      exact ⟨[], ms, rfl, List.nodup_nil, by simp [namesOf], .inl (by simpa using hs)⟩
    · rename_i hs
      have hm' : m'.name ∉ seen := by simpa using hs
      obtain ⟨before, after, rfl, hn, hd, hm⟩ := ih h
      refine ⟨m' :: before, after, rfl, ?_, ?_, ?_⟩
      · exact List.nodup_cons.mpr ⟨fun hmem => hd _ hmem (by simp), hn⟩
      · intro name hname
        rcases List.mem_cons.mp hname with rfl | hname
        · exact hm'
        · exact fun h' => hd name hname (by simp [h'])
      · rcases hm with hm | hm
        · rcases List.mem_cons.mp hm with hm | hm
          · exact .inr (by rw [hm]; exact List.mem_cons_self)
          · exact .inl hm
        · exact .inr (List.mem_cons_of_mem _ hm)

/-- Some member repeats a name exactly if the names are not distinct. -/
theorem firstDuplicate_nil_eq_none_iff {ms : List MemberDecl} :
    firstDuplicate [] ms = none ↔ (namesOf ms).Nodup := by
  constructor
  · exact fun h => (firstDuplicate_eq_none h).1
  · intro hn
    cases h : firstDuplicate [] ms with
    | none => rfl
    | some m =>
      obtain ⟨before, after, rfl, -, -, hm⟩ := firstDuplicate_eq_some h
      have hm : m.name ∈ namesOf before := hm.resolve_left List.not_mem_nil
      rw [namesOf, List.map_append, List.map_cons] at hn
      exact absurd rfl ((List.nodup_append.mp hn).2.2 _ hm _ List.mem_cons_self)

theorem firstRepeated_of_firstDuplicate {ms : List MemberDecl} {m : MemberDecl}
    (h : firstDuplicate [] ms = some m) : FirstRepeated ms m := by
  obtain ⟨before, after, hs, hn, -, hm⟩ := firstDuplicate_eq_some h
  exact ⟨before, after, hs, hn, hm.resolve_left List.not_mem_nil⟩

/-! ## Fields -/

/-- The attributes of the field can be read. -/
def FieldReads (f : Field) : Prop := ∃ a, FieldAttributes.ofAttributes f.attributes = .ok a

/-- The first field whose attributes cannot be read is refused for this. -/
def FirstUnreadField (fs : List Field) (r : Refusal) : Prop :=
  ∃ before f after, fs = before ++ f :: after ∧ (∀ b ∈ before, FieldReads b) ∧
    FieldAttributes.ofAttributes f.attributes = .error r

theorem fieldMembers_eq_mapM (n : Nat) (fs : List Field) :
    fieldMembers n fs = (fs.zipIdx n).mapM fun q => fieldMember q.1 q.2 := by
  induction fs generalizing n with
  | nil => rfl
  | cons f fs ih => rw [fieldMembers, List.zipIdx_cons, List.mapM_cons, ih]

theorem fieldMember_eq (f : Field) (index : Nat) :
    fieldMember f index = (FieldAttributes.ofAttributes f.attributes).map fun attrs =>
      { name := (fieldName f index).1
        span := f.span
        type := f.type
        visibility := f.visibility
        included := attrs.included
        ignored := attrs.ignored
        kind := .field (fieldName f index).2 } := by
  rw [fieldMember]
  cases FieldAttributes.ofAttributes f.attributes <;> rfl

theorem exists_fieldMember {f : Field} {index : Nat} :
    (∃ m, fieldMember f index = .ok m) ↔ FieldReads f := by
  rw [fieldMember_eq, FieldReads]
  cases FieldAttributes.ofAttributes f.attributes <;> simp [Except.map]

theorem fieldMember_error {f : Field} {r : Refusal} (index : Nat)
    (h : FieldAttributes.ofAttributes f.attributes = .error r) : fieldMember f index =
      .error r := by
  rw [fieldMember_eq, h]
  rfl

theorem exists_fieldMembers {n : Nat} {fs : List Field} :
    (∃ ms, fieldMembers n fs = .ok ms) ↔ ∀ f ∈ fs, FieldReads f := by
  have hfst : (fs.zipIdx n).map Prod.fst = fs := List.zipIdx_map_fst n fs
  rw [fieldMembers_eq_mapM, exists_mapM_eq_ok]
  constructor
  · intro h f hf
    rw [← hfst] at hf
    obtain ⟨q, hq, rfl⟩ := List.mem_map.mp hf
    exact exists_fieldMember.mp (h q hq)
  · intro h q hq
    refine exists_fieldMember.mpr (h q.1 ?_)
    rw [← hfst]
    exact List.mem_map_of_mem hq

theorem fieldMembers_error {n : Nat} {fs : List Field} {r : Refusal} (h : FirstUnreadField fs r) :
    fieldMembers n fs = .error r := by
  obtain ⟨before, f, after, rfl, hb, hf⟩ := h
  rw [fieldMembers_eq_mapM, List.zipIdx_append, List.zipIdx_cons, mapM_eq_error_iff]
  refine ⟨before.zipIdx n, _, _, rfl, fun q hq => exists_fieldMember.mpr (hb q.1 ?_),
    fieldMember_error _ hf⟩
  rw [← List.zipIdx_map_fst n before]
  exact List.mem_map_of_mem hq

/-- A field's member: its name, its type and its place. -/
theorem of_fieldMember {f : Field} {index : Nat} {m : MemberDecl}
    (h : fieldMember f index = .ok m) :
    m.name = (fieldName f index).1 ∧ m.type = f.type ∧ m.kind = .field (fieldName f index).2 := by
  rw [fieldMember_eq] at h
  cases ha : FieldAttributes.ofAttributes f.attributes with
  | error r => rw [ha] at h; cases h
  | ok a =>
    rw [ha] at h
    cases h
    exact ⟨rfl, rfl, rfl⟩

/-- The names of fields from a position on. -/
def fieldNames (n : Nat) (fs : List Field) : List String :=
  (fs.zipIdx n).map fun q => (fieldName q.1 q.2).1

theorem namesOf_fieldMembers {n : Nat} {fs : List Field} {ms : List MemberDecl}
    (h : fieldMembers n fs = .ok ms) : namesOf ms = fieldNames n fs := by
  rw [fieldMembers_eq_mapM, mapM_eq_ok_iff] at h
  unfold namesOf fieldNames
  generalize fs.zipIdx n = qs at h ⊢
  induction h with
  | nil => rfl
  | cons h _ ih => rw [List.map_cons, List.map_cons, ih, (of_fieldMember h).1]

/-! ## Tables -/

/-- The names that a structure declares: those of its properties, as they stand in all of the
entries of its attributes, and then those of its fields. -/
def declaredNames (entries : List ContainerEntry) (fs : List Field) : List String :=
  (ContainerAttributes.ofEntries entries).properties.map PropertyAttributes.name ++ fieldNames 0 fs

namespace TypeDecl

variable {item : Item} {fields : Fields} {entries : List ContainerEntry}

/-- What is wrong with the attributes of the type is reported before anything else. -/
theorem ofItem_container_error {r : Refusal}
    (h : allEntries containerEntry item.attributes = .error r) : ofItem item = .error r := by
  simp only [ofItem, ContainerAttributes.ofAttributes, h]
  rfl

/-- What is wrong with the attributes of a field is reported next. -/
theorem ofItem_field_error (hd : item.data = .struct fields)
    (he : allEntries containerEntry item.attributes = .ok entries) {r : Refusal}
    (h : FirstUnreadField fields.toList r) : ofItem item = .error r := by
  simp only [ofItem, ContainerAttributes.ofAttributes, he, hd, shape, fieldMembers_error h]
  rfl

/-- The members of a structure, properties before fields. -/
def table (entries : List ContainerEntry) (fieldTable : List MemberDecl) : List MemberDecl :=
  (ContainerAttributes.ofEntries entries).properties.map PropertyAttributes.member ++ fieldTable

theorem namesOf_table {fs : List Field} {fieldTable : List MemberDecl}
    (h : fieldMembers 0 fs = .ok fieldTable) :
    namesOf (table entries fieldTable) = declaredNames entries fs := by
  rw [table, namesOf, List.map_append, List.map_map, declaredNames, ← namesOf_fieldMembers h]
  rfl

variable {fieldTable : List MemberDecl}

/-- A repeated name is reported where all attributes can be read. -/
theorem ofItem_repeated (hd : item.data = .struct fields)
    (he : allEntries containerEntry item.attributes = .ok entries)
    (hf : fieldMembers 0 fields.toList = .ok fieldTable)
    (hn : ¬ (declaredNames entries fields.toList).Nodup) :
    ∃ m, FirstRepeated (table entries fieldTable) m ∧
      ofItem item = .error ⟨.duplicate m.name, m.span⟩ := by
  rw [← namesOf_table hf, ← firstDuplicate_nil_eq_none_iff] at hn
  obtain ⟨m, hm⟩ := Option.ne_none_iff_exists'.mp hn
  refine ⟨m, firstRepeated_of_firstDuplicate hm, ?_⟩
  simp only [table] at hm
  simp only [ofItem, ContainerAttributes.ofAttributes, he, hd, shape, hf, hm, bind,
    Except.bind, pure,
    Except.pure]
  rfl

/-- The table of a structure, where all attributes can be read and no name is repeated. -/
theorem ofItem_eq (hd : item.data = .struct fields)
    (he : allEntries containerEntry item.attributes = .ok entries)
    (hf : fieldMembers 0 fields.toList = .ok fieldTable)
    (hn : (declaredNames entries fields.toList).Nodup) :
    ofItem item = .ok {
      name := item.name
      kind := some (.ofFields fields)
      visibility := item.visibility
      nameSpace := (ContainerAttributes.ofEntries entries).nameSpace.getD ""
      crate := (ContainerAttributes.ofEntries entries).crate.getD defaultCrate
      generics := item.generics
      members := table entries fieldTable } := by
  rw [← namesOf_table hf, ← firstDuplicate_nil_eq_none_iff, table] at hn
  simp only [ofItem, ContainerAttributes.ofAttributes, he, hd, shape, hf, hn, bind,
    Except.bind, pure,
    Except.pure]
  rfl

/-- Where all attributes can be read and no name is repeated there is a table. -/
theorem ofItem_ok (hd : item.data = .struct fields)
    (he : allEntries containerEntry item.attributes = .ok entries)
    (hf : fieldMembers 0 fields.toList = .ok fieldTable)
    (hn : (declaredNames entries fields.toList).Nodup) :
    ∃ d, ofItem item = .ok d ∧ d.kind = some (.ofFields fields) ∧
      d.crate = (ContainerAttributes.ofEntries entries).crate.getD defaultCrate ∧
      d.members = table entries fieldTable :=
  ⟨_, ofItem_eq hd he hf hn, rfl, rfl, rfl⟩

/-- **When a structure has a table.** -/
theorem exists_ofItem (hd : item.data = .struct fields) :
    (∃ d, ofItem item = .ok d) ↔ ∃ entries, allEntries containerEntry item.attributes =
      .ok entries ∧
      (∀ f ∈ fields.toList, FieldReads f) ∧ (declaredNames entries fields.toList).Nodup := by
  constructor
  · rintro ⟨d, h⟩
    cases he : allEntries containerEntry item.attributes with
    | error r =>
      rw [ofItem_container_error he] at h
      cases h
    | ok entries =>
      cases hf : fieldMembers 0 fields.toList with
      | error r =>
        simp only [ofItem, ContainerAttributes.ofAttributes, he, hd, shape, hf, bind, Except.bind,
          pure, Except.pure] at h
        cases h
      | ok fieldTable =>
        refine ⟨entries, rfl, exists_fieldMembers.mp ⟨fieldTable, hf⟩, ?_⟩
        by_contra hn
        obtain ⟨m, -, hm⟩ := ofItem_repeated hd he hf hn
        rw [hm] at h
        cases h
  · rintro ⟨entries, he, hf, hn⟩
    obtain ⟨fieldTable, hf⟩ := exists_fieldMembers.mpr hf
    obtain ⟨d, h, -⟩ := ofItem_ok hd he hf hn
    exact ⟨d, h⟩

/-- What a table of a structure holds. -/
theorem of_ofItem (hd : item.data = .struct fields) {d : TypeDecl} (h : ofItem item = .ok d) :
    ∃ entries fieldTable, allEntries containerEntry item.attributes = .ok entries ∧
      fieldMembers 0 fields.toList = .ok fieldTable ∧
      (declaredNames entries fields.toList).Nodup ∧ d.kind = some (.ofFields fields) ∧
      d.crate = (ContainerAttributes.ofEntries entries).crate.getD defaultCrate ∧
      d.members = table entries fieldTable := by
  obtain ⟨entries, he, hf, hn⟩ := (exists_ofItem hd).mp ⟨d, h⟩
  obtain ⟨fieldTable, hf⟩ := exists_fieldMembers.mpr hf
  obtain ⟨d', h', hk, hc, hm⟩ := ofItem_ok hd he hf hn
  rw [h] at h'
  cases h'
  exact ⟨entries, fieldTable, he, hf, hn, hk, hc, hm⟩

/-- A table has the name and the shape of its declaration, whatever is declared. -/
theorem head_of_ofItem {d : TypeDecl} (h : ofItem item = .ok d) :
    d.name = item.name ∧ d.kind = (shape item.data).1 := by
  unfold ofItem at h
  cases hc : ContainerAttributes.ofAttributes item.attributes with
  | error r => rw [hc] at h; cases h
  | ok container =>
    cases hf : fieldMembers 0 (shape item.data).2 with
    | error r => simp only [hc, hf, bind, Except.bind] at h; cases h
    | ok fieldTable =>
      simp only [hc, hf, bind, Except.bind] at h
      split at h <;> cases h
      exact ⟨rfl, rfl⟩

end TypeDecl

end KeyedRecord.Derive
