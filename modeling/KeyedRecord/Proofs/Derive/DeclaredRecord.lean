import KeyedRecord.Record.Schema
import KeyedRecord.Proofs.Derive.Execution
import KeyedRecord.Proofs.Derive.MemberTable

/-!
# The record of a declaration

The table of a declaration names its members, their types and their accessors.  What the names stand
for is a `Meaning`: types are known by their canonical text, methods by their names, and every
getter and setter fits the type that is declared for its property.

Such a declaration is a record type (`Meaning.schema`), and what its generated code calls and
reaches is known (`Meaning.runtime`): a place is found by its token, a method by its name, and a
cast goes to the type whose tokens stand in the code.

Principal results: `Meaning.keys_eq`, `Meaning.index?_eq` and `Meaning.field_eq`, for a table whose
fields stand in the order of their positions (`TypeDecl.Arranged`).
-/

set_option autoImplicit false

namespace KeyedRecord.Derive

open Source

/-! ## Fields and properties of a table -/

namespace MemberDecl

/-- The place of a field. -/
def place? (m : MemberDecl) : Option Place :=
  match m.kind with
  | .field place => some place
  | .property _ _ => none

/-- The getter of a property. -/
def getter? (m : MemberDecl) : Option String :=
  match m.kind with
  | .field _ => none
  | .property getter _ => getter

/-- The setter of a property. -/
def setter? (m : MemberDecl) : Option String :=
  match m.kind with
  | .field _ => none
  | .property _ setter => setter

theorem kind_eq {m : MemberDecl} {place : Place} (h : m.place? = some place) :
    m.kind = .field place := by
  unfold place? at h
  split at h <;> cases h
  assumption

/-- Which properties are selected. -/
theorem select_of_property {m : MemberDecl} (h : m.place? = none) :
    m.select =
      match m.getter?, m.setter? with
      | some g, some s =>
        match m.policy.exclusion true with
        | none => some ⟨m.name, m.type.text, .property g s⟩
        | some _ => none
      | _, _ => none := by
  obtain ⟨name, span, type, visibility, included, ignored, kind⟩ := m
  cases kind with
  | field place => cases h
  | property getter setter =>
    cases getter with
    | none => cases setter <;> simp [select, access?, getter?]
    | some g =>
      cases setter with
      | none => simp [select, access?, setter?]
      | some s =>
        simp only [select, exclusion, access?, getter?, setter?, Option.isSome_some]
        cases policy _ |>.exclusion true <;> rfl

/-- Which fields are selected. -/
theorem select_of_field {m : MemberDecl} {place : Place} (h : m.kind = .field place) :
    m.select =
      match m.policy.exclusion true with
      | none => some ⟨m.name, m.type.text, .field place⟩
      | some _ => none := by
  simp only [select, exclusion, access?, h, Option.isSome_some]
  cases m.policy.exclusion true <;> rfl

end MemberDecl

/-- The name of the member at a place. -/
def Place.name : Place → String
  | named ident => unraw ident
  | position index => toString index

/-- Places that are named by one token have one name. -/
theorem Place.name_eq_of_token {p q : Place} (h : p.token = q.token) : p.name = q.name := by
  cases p <;> cases q <;> simp only [Place.token, Token.ident.injEq, Token.literal.injEq,
    reduceCtorEq] at h
  · exact congrArg unraw h
  · exact h

namespace TypeDecl

/-- The declared properties. -/
def propertyDecls (d : TypeDecl) : List MemberDecl := d.members.filter (·.place?.isNone)

/-- The declared fields. -/
def fieldDecls (d : TypeDecl) : List MemberDecl := d.members.filter (·.place?.isSome)

/-- The order of a table: properties before fields, every field named after its place, and no name
twice. -/
structure Arranged (d : TypeDecl) : Prop where
  members_eq : d.members = d.propertyDecls ++ d.fieldDecls
  name_eq : ∀ m ∈ d.members, ∀ place, m.kind = .field place → m.name = place.name
  nodup : (namesOf d.members).Nodup

theorem name_of_fieldName (f : Field) (index : Nat) :
    (fieldName f index).1 = (fieldName f index).2.name := by
  unfold fieldName
  cases f.name <;> rfl

/-- Properties in front of fields stand where the order of a table has them. -/
theorem members_eq_of_split {ps fs : List MemberDecl} (hp : ∀ m ∈ ps, m.place? = none)
    (hf : ∀ m ∈ fs, m.place?.isSome = true) :
    ps ++ fs = (ps ++ fs).filter (·.place?.isNone) ++ (ps ++ fs).filter (·.place?.isSome) := by
  have hps : ps.filter (·.place?.isNone) = ps :=
    List.filter_eq_self.mpr fun m hm => by rw [hp m hm]; rfl
  have hps' : ps.filter (·.place?.isSome) = [] :=
    List.filter_eq_nil_iff.mpr fun m hm => by rw [hp m hm]; exact Bool.false_ne_true
  have hfs : fs.filter (·.place?.isNone) = [] :=
    List.filter_eq_nil_iff.mpr fun m hm => by
      rw [← Option.not_isSome, hf m hm]
      exact Bool.false_ne_true
  have hfs' : fs.filter (·.place?.isSome) = fs := List.filter_eq_self.mpr hf
  rw [List.filter_append, List.filter_append, hps, hps', hfs, hfs', List.append_nil,
    List.nil_append]

/-- The member of a field has the name of its place. -/
theorem placed_of_fieldMembers {n : Nat} {fs : List Field} {ms : List MemberDecl}
    (h : fieldMembers n fs = .ok ms) : ∀ m ∈ ms, ∃ place, m.kind = .field place ∧
      m.name = place.name := by
  intro m hm
  rw [fieldMembers_eq_mapM] at h
  obtain ⟨q, -, hq⟩ := exists_of_mem_mapM_ok h hm
  obtain ⟨hname, -, hkind⟩ := of_fieldMember hq
  exact ⟨_, hkind, hname.trans (name_of_fieldName q.1 q.2)⟩

/-- Every table is in order. -/
theorem arranged_of_ofItem {item : Item} {d : TypeDecl} (h : ofItem item = .ok d) : d.Arranged := by
  unfold ofItem at h
  cases hc : ContainerAttributes.ofAttributes item.attributes with
  | error r => rw [hc] at h; cases h
  | ok container =>
    cases hf : fieldMembers 0 (shape item.data).2 with
    | error r => simp only [hc, hf, bind, Except.bind] at h; cases h
    | ok fieldTable =>
      simp only [hc, hf, bind, Except.bind] at h
      split at h
      · cases h
      · rename_i hn
        cases h
        have hplaced := placed_of_fieldMembers hf
        refine ⟨members_eq_of_split ?_ ?_, ?_, firstDuplicate_nil_eq_none_iff.mp hn⟩
        · intro m hm
          obtain ⟨p, -, rfl⟩ := List.mem_map.mp hm
          rfl
        · intro m hm
          obtain ⟨place, hk, -⟩ := hplaced m hm
          rw [MemberDecl.place?, hk]
          rfl
        · intro m hm place hk
          rcases List.mem_append.mp hm with hm | hm
          · obtain ⟨p, -, rfl⟩ := List.mem_map.mp hm
            cases hk
          · obtain ⟨place', hk', hname⟩ := hplaced m hm
            rw [hk'] at hk
            cases hk
            exact hname

/-- No two fields have places of one token. -/
theorem Arranged.index_eq {d : TypeDecl} (hd : d.Arranged) {i j : Nat} {m m' : MemberDecl}
    {place place' : Place} (hi : d.fieldDecls[i]? = some m) (hj : d.fieldDecls[j]? = some m')
    (hm : m.kind = .field place) (hm' : m'.kind = .field place') (h : place.token = place'.token) :
    i = j := by
  have hname : ∀ {k : Nat} {m : MemberDecl} {place : Place}, d.fieldDecls[k]? = some m →
      m.kind = .field place → (namesOf d.fieldDecls)[k]? = some place.name := by
    intro k m place hk hm
    have hmem : m ∈ d.members := List.mem_of_mem_filter (List.mem_of_getElem? hk)
    rw [namesOf, List.getElem?_map, hk, Option.map_some, hd.name_eq m hmem place hm]
  have hnodup : (namesOf d.fieldDecls).Nodup :=
    hd.nodup.sublist (List.Sublist.map _ List.filter_sublist)
  have hlt : i < (namesOf d.fieldDecls).length := by
    rw [namesOf, List.length_map]
    exact (List.getElem?_eq_some_iff.mp hi).1
  refine (List.getElem?_inj hlt hnodup).mp ?_
  rw [hname hi hm, hname hj hm', Place.name_eq_of_token h]

end TypeDecl

/-! ## What names stand for -/

section

variable {R : Registry} {τ : Type} [MemberTypes R τ]

/-- The field that a member is, if texts of types stand for these types. -/
def MemberDecl.field (type : String → τ) (m : MemberDecl) : Record.Field τ :=
  ⟨m.name, type m.type.text, m.policy⟩

/-- The fields that a table declares. -/
def TypeDecl.recordFields (d : TypeDecl) (type : String → τ) : List (Record.Field τ) :=
  d.fieldDecls.map (MemberDecl.field type)

/-- What the names in a declaration stand for. -/
structure Meaning {R : Registry} (τ : Type) [MemberTypes R τ] (d : TypeDecl) where
  /-- The type of a text. -/
  type : String → τ
  /-- The type of what a method returns. -/
  returns : String → τ
  getter (method : String) :
    Record.State (d.recordFields type) → MemberTypes.Carrier (returns method)
  /-- The type of what a method takes. -/
  takes : String → τ
  setter (method : String) : MemberTypes.Carrier (takes method) →
    Record.State (d.recordFields type) → Record.State (d.recordFields type)
  returns_eq : ∀ m ∈ d.members, ∀ g, m.getter? = some g → returns g = type m.type.text
  takes_eq : ∀ m ∈ d.members, ∀ g, m.setter? = some g → takes g = type m.type.text

/-- A thing of a type as one of the same type. -/
def recast {t u : τ} (h : t = u) (x : MemberTypes.Carrier t) : MemberTypes.Carrier u := h ▸ x

theorem toValue_recast {t u : τ} (h : t = u) (x : MemberTypes.Carrier t) :
    MemberTypes.toValue u (recast h x) = MemberTypes.toValue t x := by
  subst h
  rfl

/-- A thing of some type. -/
structure Typed {R : Registry} (τ : Type) [MemberTypes R τ] where
  type : τ
  thing : MemberTypes.Carrier type

namespace Typed

/-- The value of the thing. -/
def value (x : Typed τ) : Value R := MemberTypes.toValue x.type x.thing

/-- The thing, if it is of the type. -/
def as? [DecidableEq τ] (t : τ) (x : Typed τ) : Option (MemberTypes.Carrier t) :=
  if h : x.type = t then some (recast h x.thing) else none

theorem as?_mk [DecidableEq τ] {t u : τ} (h : t = u) (x : MemberTypes.Carrier u) :
    (⟨u, x⟩ : Typed τ).as? t = some (recast h.symm x) := dif_pos h.symm

end Typed

namespace Meaning

variable {d : TypeDecl} (M : Meaning τ d)

/-- The fields of the record. -/
abbrev fields : List (Record.Field τ) := d.recordFields M.type

/-! ### The record type -/

/-- The getter of a member, if it has one. -/
def getterOf (m : {m // m ∈ d.members}) : (name : Option String) → m.1.getter? = name →
    Option (Record.State M.fields → MemberTypes.Carrier (M.type m.1.type.text))
  | some g, h => some fun s => recast (M.returns_eq m.1 m.2 g h) (M.getter g s)
  | none, _ => none

/-- The setter of a member, if it has one. -/
def setterOf (m : {m // m ∈ d.members}) : (name : Option String) → m.1.setter? = name →
    Option (MemberTypes.Carrier (M.type m.1.type.text) → Record.State M.fields →
      Record.State M.fields)
  | some g, h => some fun x => M.setter g (recast (M.takes_eq m.1 m.2 g h).symm x)
  | none, _ => none

/-- The property that a member is. -/
def property (m : {m // m ∈ d.members}) : Record.Property M.fields where
  key := m.1.name
  type := M.type m.1.type.text
  policy := m.1.policy
  getter := M.getterOf m m.1.getter? rfl
  setter := M.setterOf m m.1.setter? rfl

theorem getter_property {m : {m // m ∈ d.members}} {name : Option String} (h : m.1.getter? = name) :
    (M.property m).getter = M.getterOf m name h := by
  subst h
  rfl

theorem setter_property {m : {m // m ∈ d.members}} {name : Option String} (h : m.1.setter? = name) :
    (M.property m).setter = M.setterOf m name h := by
  subst h
  rfl

/-- The properties of the record. -/
def properties : List (Record.Property M.fields) :=
  d.propertyDecls.attach.map fun m => M.property ⟨m.1, List.mem_of_mem_filter m.2⟩

theorem keys_eq (hd : d.Arranged) :
    M.properties.map Record.Property.key ++ M.fields.map Record.Field.name = namesOf d.members := by
  have h₁ : M.properties.map Record.Property.key = namesOf d.propertyDecls := by
    rw [properties, List.map_map]
    exact List.attach_map_val (f := MemberDecl.name)
  have h₂ : M.fields.map Record.Field.name = namesOf d.fieldDecls := List.map_map
  rw [h₁, h₂, namesOf, namesOf, namesOf, ← List.map_append, ← hd.members_eq]

/-- The record type. -/
def schema (hd : d.Arranged) : Record.Schema τ where
  fields := M.fields
  properties := M.properties
  keys_nodup := M.keys_eq hd ▸ hd.nodup

/-! ### The runtime -/

/-- The position of the field whose place the token names. -/
def index? (place : Token) : Option (Fin M.fields.length) :=
  (List.finRange M.fields.length).find? fun i =>
    (d.fieldDecls[i.val]?.bind MemberDecl.place?).map Place.token == some place

/-- The position of a field is found by the token of its place. -/
theorem index?_eq (hd : d.Arranged) {i : Fin M.fields.length} {m : MemberDecl}
    {place : Place} (hm : d.fieldDecls[i.val]? = some m) (hk : m.kind = .field place) :
    M.index? place.token = some i := by
  have hi : ((d.fieldDecls[i.val]?.bind MemberDecl.place?).map Place.token == some place.token) =
      true := by
    simp [hm, MemberDecl.place?, hk]
  unfold index?
  cases h : (List.finRange M.fields.length).find? fun i =>
      (d.fieldDecls[i.val]?.bind MemberDecl.place?).map Place.token == some place.token with
  | none => exact absurd hi (List.find?_eq_none.mp h i (List.mem_finRange i))
  | some j =>
    have hj := List.find?_some h
    rw [beq_iff_eq] at hj
    obtain ⟨place', hp, ht⟩ := Option.map_eq_some_iff.mp hj
    obtain ⟨m', hm', hk'⟩ := Option.bind_eq_some_iff.mp hp
    exact congrArg some (Fin.ext (hd.index_eq hm' hm (MemberDecl.kind_eq hk') hk ht))

variable [DecidableEq τ]

/-- What generated code calls and reaches.  What is not there is nothing, and nothing is written to
it. -/
def runtime : Runtime R (Record.State M.fields) (Option (Typed τ)) where
  cast type v :=
    (MemberTypes.cast (M.type (canonicalText type)) v).map fun x =>
      some ⟨M.type (canonicalText type), x⟩
  toValue x := (x.map Typed.value).getD .undefined
  field place s := (M.index? place).map fun i => ⟨Record.FieldType M.fields i, s.get i⟩
  setField place x s :=
    match M.index? place with
    | some i => ((x.bind (Typed.as? (Record.FieldType M.fields i))).map (s.set i)).getD s
    | none => s
  getter method s := some ⟨M.returns method, M.getter method s⟩
  setter method x s :=
    ((x.bind (Typed.as? (M.takes method))).map fun x => M.setter method x s).getD s

variable {place : Token} {i : Fin M.fields.length}

theorem field_eq (h : M.index? place = some i) (s : Record.State M.fields) :
    M.runtime.field place s = some ⟨Record.FieldType M.fields i, s.get i⟩ := by
  simp only [runtime, h, Option.map_some]

theorem setField_eq (h : M.index? place = some i) (x : Option (Typed τ))
    (s : Record.State M.fields) :
    M.runtime.setField place x s =
      ((x.bind (Typed.as? (Record.FieldType M.fields i))).map (s.set i)).getD s := by
  simp only [runtime, h]

end Meaning

end

end KeyedRecord.Derive
