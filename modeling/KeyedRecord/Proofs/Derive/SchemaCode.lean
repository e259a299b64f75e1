import KeyedRecord.Record.Convertible
import KeyedRecord.Proofs.Derive.DeclaredRecord
import KeyedRecord.Proofs.Derive.DeclaredTypes

/-!
# The code of a schema

The conversion of a schema is what rendered code does for a runtime that reaches the schema's
members through the slots of the code: `toDict_eq` and `fromDict_eq`.

The rest of the module takes this to declarations.  `Methods` are the four methods of a unit,
`to_dict` and `from_dict` with the accessors `as_dict` and `set_as_dict` that only delegate, and
what they do when they are run.  For the record type of a declaration (`Meaning.schema`) and the
runtime of the names in it, `render_implements` says that the four methods of the rendered unit are
the conversion of that type. So what is proved of schemas holds of the code that is rendered for
declarations.
-/

set_option autoImplicit false

namespace KeyedRecord.Derive

open Record (Assignment Member Schema)
open Source Code

section

variable {R : Registry} {τ : Type} [MemberTypes R τ] {fields : List (Record.Field τ)} {Θ : Type}
  {rt : Runtime R (Record.State fields) Θ}

/-- Through the slot the runtime reads, casts and writes the member. -/
structure Slot.Reaches (rt : Runtime R (Record.State fields) Θ) (c : Slot) (m : Member fields) :
    Prop where
  key : c.key = m.key
  value (s : Record.State fields) : rt.toValue (rt.read s c.access.operand) = m.value s
  writes (v : Value R) :
    (rt.cast c.type.printed v).map (rt.write c.access) = (MemberTypes.cast m.type v).map m.set

/-! ## Slot by slot -/

theorem error_of_map_eq {ε α β γ : Type} {x : Except ε α} {y : Except ε β} {f : α → γ} {g : β → γ}
    {e : ε} (h : x.map f = y.map g) (hx : x = .error e) : y = .error e := by
  subst hx
  cases y with
  | error e' =>
    cases h
    rfl
  | ok b => cases h

theorem exists_ok_of_map_eq {ε α β γ : Type} {x : Except ε α} {y : Except ε β}
    {f : α → γ} {g : β → γ}
    {a : α} (h : x.map f = y.map g) (hx : x = .ok a) : ∃ b, y = .ok b ∧ f a = g b := by
  subst hx
  cases y with
  | error e => cases h
  | ok b => exact ⟨b, rfl, Except.ok.inj h⟩

/-- The dictionary holds for a slot what it says is to be written to the member. -/
theorem Slot.Reaches.map_getSlot {c : Slot} {m : Member fields} (h : c.Reaches rt m) (d : Dict R) :
    (rt.getSlot d c).map (rt.write c.access) =
      (m.read d).map fun a s => Assignment.apply s a := by
  have hw := h.writes
  unfold Runtime.getSlot Runtime.getAs Member.read Dict.getAs
  rw [h.key]
  cases d.get? m.key with
  | none => rfl
  | some v =>
    cases hc : rt.cast c.type.printed v with
    | error e =>
      have hm := error_of_map_eq (hw v) hc
      simp only [hc, hm]
      rfl
    | ok x =>
      obtain ⟨y, hm, he⟩ := exists_ok_of_map_eq (hw v) hc
      simp only [hc, hm, Except.mapError, Except.map, he]
      rfl

/-- What is to be written to the members is what the dictionary holds for the slots. -/
theorem map_mapM_getSlot {slots : List Slot} {ms : List (Member fields)}
    (h : List.Forall₂ (Slot.Reaches rt) slots ms) (d : Dict R) :
    (slots.mapM (rt.getSlot d)).map (fun xs s => rt.writeSlots slots xs s) =
      (ms.mapM (Member.read d)).map fun as s => as.foldl Assignment.apply s := by
  induction h with
  | nil => rfl
  | @cons c m slots ms h _ ih =>
    have hcm := h.map_getSlot d
    cases hc : rt.getSlot d c with
    | error e =>
      rw [mapM_cons_error hc, mapM_cons_error (error_of_map_eq hcm hc)]
      rfl
    | ok x =>
      obtain ⟨a, hm, hw⟩ := exists_ok_of_map_eq hcm hc
      rw [mapM_cons_ok hc, mapM_cons_ok hm]
      cases hs : slots.mapM (rt.getSlot d) with
      | error e => rw [error_of_map_eq ih hs]; rfl
      | ok xs =>
        obtain ⟨as, hms, hrest⟩ := exists_ok_of_map_eq ih hs
        rw [hms]
        refine congrArg Except.ok (funext fun s => ?_)
        show rt.writeSlots slots xs (rt.write c.access x s) = as.foldl Assignment.apply _
        rw [hw]
        exact congrFun hrest _

end

/-! ## Whole programs -/

section

variable {R : Registry} {τ : Type} [MemberTypes R τ] {Θ : Type} {S : Schema τ}
  {rt : Runtime R S.State Θ} {slots : List Slot} {P : Program}

/-- The code gathers the dictionary that the schema makes. -/
theorem toDict_eq (h : List.Forall₂ (Slot.Reaches rt) slots S.members) (hP : Gathers slots P)
    (s : S.State) : P.toDict rt s = some (S.toDict s) := by
  rw [hP.result, Schema.toDict, Table.ofList, List.foldl_map]
  congr 1
  clear hP
  generalize Table.empty = d
  generalize S.members = ms at h ⊢
  induction h generalizing d with
  | nil => rfl
  | cons h _ ih =>
    rw [List.foldl_cons, List.foldl_cons, ih]
    simp only [Runtime.insertSlot, h.key, h.value]

/-- The code answers as the schema does, and leaves the same state. -/
theorem fromDict_eq {parameter : String} (h : List.Forall₂ (Slot.Reaches rt) slots S.members)
    (hP : Scatters parameter slots P) (d : Dict R) (s : S.State) :
    P.fromDict rt parameter d s = some (S.fromDict d s) := by
  have hd := map_mapM_getSlot h d
  rw [Schema.fromDict, Schema.assignments]
  cases hs : slots.mapM (rt.getSlot d) with
  | error e =>
    obtain ⟨before, c, after, hsplit, hb, he⟩ := mapM_eq_error_iff.mp hs
    rw [error_of_map_eq hd hs]
    exact hP.fails rt d s before c after e hsplit hb he
  | ok xs =>
    obtain ⟨as, has, hw⟩ := exists_ok_of_map_eq hd hs
    rw [has, hP.succeeds rt d s xs (mapM_eq_ok_iff.mp hs)]
    exact congrArg (fun u => some (Except.ok (), u)) (congrFun hw s)

end

/-! ## Members of a declared record -/

section

variable {R : Registry} {τ : Type} [MemberTypes R τ] [DecidableEq τ] {d : TypeDecl}
    (M : Meaning τ d)

/-- The member is what the runtime reaches through the slot of the descriptor, if the slot's type
prints the text of the descriptor. -/
def Meaning.Stands (desc : MemberDescriptor) (m : Member M.fields) : Prop :=
  ∀ c : Slot, c.Of desc → c.type.text = desc.declaredType → c.Reaches M.runtime m

/-- A cast goes to the type whose text is in the code, and what it yields is written. -/
theorem Meaning.map_write_cast {c : Slot} {text : String} (hc : c.type.text = text) {t : τ}
    (ht : M.type text = t)
    {set : MemberTypes.Carrier t → Record.State M.fields → Record.State M.fields}
    (hset : ∀ x s, M.runtime.write c.access (some ⟨M.type text, x⟩) s = set (recast ht x) s)
    (v : Value R) :
    (M.runtime.cast c.type.printed v).map (M.runtime.write c.access) =
      (MemberTypes.cast t v).map set := by
  subst hc ht
  show ((MemberTypes.cast (M.type c.type.text) v).map _).map _ = _
  cases MemberTypes.cast (M.type c.type.text) v with
  | error e => rfl
  | ok x => exact congrArg Except.ok (funext (hset x))

/-! ### Properties -/

/-- A property that is selected is read by its getter and written by its setter. -/
theorem Meaning.property_rel (m : {m // m ∈ d.members}) (hm : m.1.place? = none) :
    Option.Rel M.Stands m.1.select (M.property m).select := by
  rw [MemberDecl.select_of_property hm, Record.Property.select]
  cases hg : m.1.getter? with
  | none =>
    rw [M.getter_property hg]
    exact .none
  | some g =>
    cases hs : m.1.setter? with
    | none =>
      rw [M.getter_property hg, M.setter_property hs]
      exact .none
    | some f =>
      rw [M.getter_property hg, M.setter_property hs]
      rw [show (M.property m).policy = m.1.policy from rfl]
      cases m.1.policy.exclusion true with
      | some e => exact .none
      | none =>
        refine .some fun c hc ht => ⟨hc.1, fun s => ?_, fun v => ?_⟩
        · rw [hc.2.2]
          exact (toValue_recast (M.returns_eq m.1 m.2 g hg) (M.getter g s)).symm
        · refine M.map_write_cast ht rfl (fun x s => ?_) v
          rw [hc.2.2]
          show (((Typed.mk _ x).as? (M.takes f)).map fun x => M.setter f x s).getD s = _
          rw [Typed.as?_mk (M.takes_eq m.1 m.2 f hs)]
          rfl

/-! ### Fields -/

/-- A field that is selected is read and written at its place. -/
theorem Meaning.field_rel (hd : d.Arranged) (i : Fin M.fields.length) {m : MemberDecl}
    (hm : d.fieldDecls[i.val]? = some m) :
    Option.Rel M.Stands m.select (Record.Field.select M.fields i) := by
  have hplace : m.place?.isSome = true := by
    have hmem := List.mem_of_getElem? hm
    exact (List.mem_filter.mp hmem).2
  obtain ⟨place, hp⟩ := Option.isSome_iff_exists.mp hplace
  have hk := MemberDecl.kind_eq hp
  have hget : M.fields.get i = m.field M.type := by
    refine Option.some.inj ((List.getElem?_eq_getElem i.isLt).symm.trans ?_)
    show (d.fieldDecls.map (MemberDecl.field M.type))[i.val]? = _
    rw [List.getElem?_map, hm]
    rfl
  have ht : M.type m.type.text = Record.FieldType M.fields i := by
    rw [Record.FieldType, hget]
    rfl
  have hpolicy : (M.fields.get i).policy = m.policy := by rw [hget]; rfl
  have hname : (M.fields.get i).name = m.name := by rw [hget]; rfl
  have hi := M.index?_eq hd hm hk
  rw [MemberDecl.select_of_field hk, Record.Field.select, hpolicy, hname]
  cases m.policy.exclusion true with
  | some e => exact .none
  | none =>
    refine .some fun c hc htext => ⟨hc.1, fun s => ?_, fun v => ?_⟩
    · rw [hc.2.2]
      show M.runtime.toValue (M.runtime.field place.token s) = _
      rw [M.field_eq hi]
      rfl
    · refine M.map_write_cast htext ht (fun x s => ?_) v
      rw [hc.2.2]
      rw [Runtime.write, M.setField_eq hi, Option.bind_some, Typed.as?_mk ht.symm]
      rfl

/-! ### All members -/

/-- The selected members are those of the record type. -/
theorem Meaning.stands_members (hd : d.Arranged) :
    List.Forall₂ M.Stands d.selected (M.schema hd).members := by
  have hproperties : List.Forall₂ M.Stands (d.propertyDecls.filterMap MemberDecl.select)
      (M.properties.filterMap Record.Property.select) := by
    have h : List.Forall₂ (fun m q => m = q.1) d.propertyDecls d.propertyDecls.attach := by
      rw [← List.forall₂_map_right_iff (f := Subtype.val), List.attach_map_subtype_val,
        List.forall₂_eq_eq_eq]
    rw [Meaning.properties, List.filterMap_map]
    refine forall₂_filterMap h fun m q hq => ?_
    subst hq
    exact M.property_rel ⟨q.1, List.mem_of_mem_filter q.2⟩
      (Option.isNone_iff_eq_none.mp (List.mem_filter.mp q.2).2)
  have hfields : List.Forall₂ M.Stands (d.fieldDecls.filterMap MemberDecl.select)
      ((List.finRange M.fields.length).filterMap (Record.Field.select M.fields)) := by
    have hlength : M.fields.length = d.fieldDecls.length := List.length_map _
    have h : List.Forall₂ (fun m (i : Fin M.fields.length) => d.fieldDecls[i.val]? = some m)
        d.fieldDecls (List.finRange M.fields.length) := by
      rw [List.forall₂_iff_get]
      refine ⟨by rw [List.length_finRange, hlength], fun i h₁ h₂ => ?_⟩
      simp
    exact forall₂_filterMap h fun m i hm => M.field_rel hd i hm
  rw [TypeDecl.selected, hd.members_eq, List.filterMap_append]
  exact List.rel_append hproperties hfields

end

/-! ## Accessors -/

/-- The body of an accessor: a call of a conversion. -/
inductive Delegation where
  /-- `ObjDict::to_dict(self)` -/
  | toDict
  /-- `ObjDict::from_dict(self, dict)` -/
  | fromDict (dict : String)
  deriving DecidableEq, Repr

/-- The conversion that the tokens of a body call. -/
def Delegation.read (crate ts : List Token) : Option Delegation :=
  match ts.dropPrefix? (crate ++ absolute ["ObjDict"] ++ p "::") with
  | some [.ident "to_dict", .opening .paren, .ident "self", .closing .paren] => some .toDict
  | some [.ident "from_dict", .opening .paren, .ident "self", .punct ',' false, .ident dict,
      .closing .paren] => some (.fromDict dict)
  | _ => none

/-- The accessors around their bodies. -/
def accessorFrame (crate : Phrase) (asDict setAsDict : List Token) : List Token :=
  toDictHead crate "as_dict" ++ brace asDict ++
    fromDictHead crate "set_as_dict" "dict" ++ brace setAsDict

theorem exists_accessorTokens_eq (crate : Phrase) : ∃ asDict setAsDict,
    accessorTokens crate = accessorFrame crate asDict setAsDict ∧
    Delegation.read crate.printed asDict = some .toDict ∧
    Delegation.read crate.printed setAsDict = some (.fromDict "dict") := by
  have split (method : String) (arguments : List Token) :
      inCrate crate ["ObjDict", method] ++ paren arguments =
        (crate.printed ++ absolute ["ObjDict"] ++ p "::") ++
          (.ident method :: .opening .paren :: arguments ++ [.closing .paren]) := by
    simp [inCrate, absolute, paren, w]
  refine ⟨_, _, rfl, ?_, ?_⟩
  · rw [split, Delegation.read, dropPrefix?_append]
    rfl
  · rw [split, Delegation.read, dropPrefix?_append]
    rfl

/-- The methods of a conversion, read from its unit. -/
structure Methods where
  toDict : Program
  fromDict : Program
  /-- The name that the dictionary has in the body of `fromDict`. -/
  parameter : String
  asDict : Delegation
  setAsDict : Delegation

namespace Methods

/-- The unit of a descriptor has these methods. -/
def Of (U : Methods) (desc : TypeDescriptor) (crate : Phrase) (code : List Token) : Prop :=
  ∃ keys toDict fromDict asDict setAsDict : List Token,
    code = unitFrame desc crate keys toDict U.parameter fromDict ∧
    Program.read crate.printed toDict = some U.toDict ∧
    Program.read crate.printed fromDict = some U.fromDict ∧
    accessorTokens crate = accessorFrame crate asDict setAsDict ∧
    Delegation.read crate.printed asDict = some U.asDict ∧
    Delegation.read crate.printed setAsDict = some U.setAsDict

variable {R : Registry} {σ Θ : Type} (rt : Runtime R σ Θ) (U : Methods)

/-- The dictionary of a value, in either style. -/
def read (s : σ) : Record.Style → Option (Dict R)
  | .conversion => U.toDict.toDict rt s
  | .asAttribute =>
    match U.asDict with
    | .toDict => U.toDict.toDict rt s
    | .fromDict _ => none

/-- The answer to a dictionary, in either style, and the value that is left. -/
def write (d : Dict R) (s : σ) : Record.Style → Option (Except DictError Unit × σ)
  | .conversion => U.fromDict.fromDict rt U.parameter d s
  | .asAttribute =>
    match U.setAsDict with
    | .fromDict "dict" => U.fromDict.fromDict rt U.parameter d s
    | _ => none

end Methods

/-! ## The main result -/

/-- **The code of a declaration is the conversion of its record type.**  Whatever types and methods
the names in a declaration that was read from a text stand for, the code that is rendered for it
does with every value and every dictionary what the conversion of the record type does, by its own
names and as an attribute. -/
theorem render_implements {text : String} {item : Item} (htext : Item.ofText text = .ok item)
    {d : TypeDecl} (h : TypeDecl.ofItem item = .ok d) {desc : TypeDescriptor}
    (hdesc : d.descriptor = some desc) {code : List Token} (hr : render desc d.crate = .ok code) :
    ∃ U : Methods, U.Of desc d.crate code ∧
      ∀ (R : Registry) (τ : Type) [MemberTypes R τ] [DecidableEq τ] (M : Meaning τ d)
        (r : Record.Instance (M.schema (TypeDecl.arranged_of_ofItem h))) (style : Record.Style),
        U.read M.runtime r.state style = some (Record.Convertible.read r style) ∧
        ∀ dict : Dict R,
          U.write M.runtime dict r.state style =
            some ((Record.Convertible.write dict r style).1,
              (Record.Convertible.write dict r style).2.state) := by
  obtain ⟨slots, hslots⟩ := exists_slots_of_render hr
  obtain ⟨keys, toDict, fromDict, parameter, P, Q, hof, hcode, -, hP, hgathers, hQ, hscatters⟩ :=
    converts_of_slots (isCratePath_of_ofItem h) hslots
  obtain ⟨asDict, setAsDict, hframe, has, hset⟩ := exists_accessorTokens_eq d.crate
  refine ⟨⟨P, Q, parameter, .toDict, .fromDict "dict"⟩, ⟨keys, toDict, fromDict, asDict, setAsDict,
    Except.ok.inj (hr.symm.trans hcode), hP, hQ, hframe, has, hset⟩, ?_⟩
  intro R τ _ _ M r style
  obtain ⟨kind, -, hmembers⟩ := TypeDecl.of_descriptor hdesc
  rw [hmembers] at hof
  have htypes := (TypeDecl.hasReadTypes_of_ofText htext h hdesc).text_eq
  have hreach : List.Forall₂ (Slot.Reaches M.runtime) slots
      (M.schema (TypeDecl.arranged_of_ofItem h)).members :=
    forall₂_comp ((List.forall₂_and_left _ _).mpr ⟨htypes, hof⟩) (M.stands_members _)
      fun m c member hm hstands => hstands c hm.2 (hm.1 c.type hm.2.2.1)
  have hto := toDict_eq hreach hgathers r.state
  have hfrom := fun dict => fromDict_eq hreach hscatters dict r.state
  cases style with
  | conversion => exact ⟨hto, hfrom⟩
  | asAttribute => exact ⟨hto, hfrom⟩

end KeyedRecord.Derive
