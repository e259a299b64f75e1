import KeyedRecord.Derive.Pipeline
import KeyedRecord.Proofs.Derive.MemberTable
import KeyedRecord.Proofs.Derive.Removal

/-!
# Members that are left out

A member that is ignored, or neither public nor included, or a property that cannot be both read and
written, takes no part in the conversion.  So its declaration can be removed: what remains is
accepted if the whole was, and its descriptor and its unit are the same.

A removal thins every list on the way, from the arguments of the attributes to the members of the
table, and of the others it changes nothing but the places.  The names that are left are some of
those there were, so no two are equal, and selecting goes past what was removed.

Principal result: `generate_trimmed`.
-/

set_option autoImplicit false

namespace KeyedRecord.Derive

open Source

/-! ## What the attributes of the type say -/

/-- The entry is a property that takes no part in the conversion. -/
def EntryLeftOut (e : ContainerEntry) : Prop := ∃ p, e = .property p ∧ p.LeftOut

/-- The same entry, up to places. -/
def EntrySame (e e' : ContainerEntry) : Prop := e'.unplaced = e.unplaced

theorem ArgumentsTrimmed.entries {inner inner' : List Placed} (h : ArgumentsTrimmed inner inner') :
    ∃ es es', Arguments ContainerEntry.Written inner es ∧
      Arguments ContainerEntry.Written inner' es' ∧ Thinned EntryLeftOut EntrySame es es' := by
  obtain ⟨args, args', hsep, hsep', hwritten, hthin⟩ := h
  obtain ⟨es, hes⟩ := exists_forall₂ hwritten
  have hdrop : ∀ ts e, ArgumentLeftOut ts → ContainerEntry.Written ts e → EntryLeftOut e := by
    rintro ts e ⟨p, hp, hout⟩ he
    exact ⟨p, containerEntry_reads.unique he hp, hout⟩
  obtain ⟨es', hes', ht⟩ := hthin.forall₂ (V := ContainerEntry.Written) hes hdrop
    fun _ _ _ hm he => containerEntry_moves hm he
  exact ⟨es, es', ⟨args, hsep, hes⟩, ⟨args', hsep', hes'⟩, ht⟩

theorem AttributesTrimmed.allEntries {as as' : List Attribute} (h : AttributesTrimmed as as')
    {es : List ContainerEntry} (he : allEntries containerEntry as = .ok es) :
    ∃ es', Derive.allEntries containerEntry as' = .ok es' ∧
      Thinned EntryLeftOut EntrySame es es' := by
  induction h generalizing es with
  | nil =>
    cases he
    exact ⟨[], rfl, .nil⟩
  | keep hm _ ih =>
    obtain ⟨es₁, es₂, h₁, h₂, rfl⟩ := allEntries_cons_iff.mp he
    obtain ⟨es₁', h₁', hu⟩ := hm.entriesOf_ok containerEntry_reads containerEntry_moves h₁
    obtain ⟨es₂', h₂', ht⟩ := ih h₂
    exact ⟨es₁' ++ es₂', allEntries_cons_iff.mpr ⟨es₁', es₂', h₁', h₂', rfl⟩,
      (Thinned.of_map_eq hu).append ht⟩
  | shorten hp hpath hb hb' hc hc' htrim _ ih =>
    obtain ⟨es₁, es₂, h₁, h₂, rfl⟩ := allEntries_cons_iff.mp he
    obtain ⟨es₁', es₁'', hargs, hargs', ht₁⟩ := htrim.entries
    -- the attribute was accepted with the entries that its arguments are written as, and no others
    have hread := entriesOf_of_arguments containerEntry_reads hp hb hc hargs
    have hp' := (hpath.isIdent_eq "objdict").trans hp
    have hread' := entriesOf_of_arguments containerEntry_reads hp' hb' hc' hargs'
    cases h₁.symm.trans hread
    obtain ⟨es₂', h₂', ht⟩ := ih h₂
    exact ⟨es₁'' ++ es₂', allEntries_cons_iff.mpr ⟨es₁'', es₂', hread', h₂', rfl⟩, ht₁.append ht⟩
  | remove hp hb hc htrim _ ih =>
    obtain ⟨es₁, es₂, h₁, h₂, rfl⟩ := allEntries_cons_iff.mp he
    obtain ⟨es₁', es₁'', hargs, hargs', ht₁⟩ := htrim.entries
    have hread := entriesOf_of_arguments containerEntry_reads hp hb hc hargs
    cases h₁.symm.trans hread
    cases (hargs'.eq_nil_iff containerEntry_reads).mp rfl
    obtain ⟨es₂', h₂', ht⟩ := ih h₂
    exact ⟨es₂', h₂', ht₁.append ht⟩

/-! ## Tables -/

/-- The member takes no part in the conversion. -/
def MemberLeftOut (m : MemberDecl) : Prop := m.select = none

/-- The same member, up to its place. -/
def MemberSame (m m' : MemberDecl) : Prop := m' = { m with span := m'.span }

theorem MemberSame.name_eq {m m' : MemberDecl} (h : MemberSame m m') : m'.name = m.name := by
  rw [h]

theorem MemberSame.select_eq {m m' : MemberDecl} (h : MemberSame m m') : m'.select = m.select := by
  rw [h]
  rfl

theorem exclusion_ne_none_iff {p : Policy} {readWrite : Bool} :
    p.exclusion readWrite ≠ none ↔
      p.ignored = true ∨ (p.isPublic = false ∧ p.included = false) ∨ readWrite = false := by
  obtain ⟨isPublic, included, ignored⟩ := p
  revert isPublic included ignored readWrite
  decide

/-- **Which members take no part in the conversion.** -/
theorem memberLeftOut_iff {m : MemberDecl} :
    MemberLeftOut m ↔ m.ignored = true ∨ (m.visibility.isPublic = false ∧ m.included = false) ∨
      m.access? = none := by
  have hselect : MemberLeftOut m ↔ m.exclusion ≠ none ∨ m.access? = none := by
    unfold MemberLeftOut MemberDecl.select
    cases m.exclusion <;> cases m.access? <;> simp
  rw [hselect, MemberDecl.exclusion, exclusion_ne_none_iff, Option.isSome_eq_false_iff,
    Option.isNone_iff_eq_none]
  exact ⟨fun h => h.elim id fun h => .inr (.inr h), .inl⟩

theorem PropertyAttributes.LeftOut.member {p : PropertyAttributes} (h : p.LeftOut) :
    MemberLeftOut p.member := by
  refine memberLeftOut_iff.mpr (h.imp_right (Or.imp_right fun h => ?_))
  unfold MemberDecl.access? PropertyAttributes.member
  rcases h with h | h
  · rw [h]
  · rw [h]
    cases p.getter <;> rfl

theorem FieldLeftOut.member {f : Field} (h : FieldLeftOut f) {index : Nat} {m : MemberDecl}
    (hm : fieldMember f index = .ok m) : MemberLeftOut m := by
  obtain ⟨a, ha, hout⟩ := h
  rw [fieldMember_eq, ha] at hm
  cases hm
  exact memberLeftOut_iff.mpr (hout.imp_right .inl)

theorem FieldMoved.ofAttributes {f f' : Field} (h : FieldMoved f f') {a : FieldAttributes}
    (ha : FieldAttributes.ofAttributes f.attributes = .ok a) :
    FieldAttributes.ofAttributes f'.attributes = .ok a := by
  unfold FieldAttributes.ofAttributes at ha ⊢
  cases hes : allEntries fieldEntry f.attributes with
  | error r => rw [hes] at ha; cases ha
  | ok es =>
    rw [hes] at ha
    obtain ⟨es', hes', hu⟩ := allEntries_moved fieldEntry_reads fieldEntry_moves h.attributes hes
    rw [List.map_id, List.map_id] at hu
    rw [hes', hu]
    exact ha

theorem FieldMoved.member {f f' : Field} (h : FieldMoved f f') {index index' : Nat}
    (hname : fieldName f' index' = fieldName f index) {m : MemberDecl}
    (hm : fieldMember f index = .ok m) :
    ∃ m', fieldMember f' index' = .ok m' ∧ MemberSame m m' := by
  rw [fieldMember_eq] at hm ⊢
  cases ha : FieldAttributes.ofAttributes f.attributes with
  | error r => rw [ha] at hm; cases hm
  | ok a =>
    rw [ha] at hm
    cases hm
    rw [h.ofAttributes ha, hname, h.visibility, h.type]
    exact ⟨_, rfl, rfl⟩

theorem EntrySame.eq_or {e e' : ContainerEntry} (h : EntrySame e e') :
    e' = e ∨ ∃ p p', e = .property p ∧ e' = .property p' ∧ p'.unplaced = p.unplaced := by
  unfold EntrySame at h
  cases e <;> cases e' <;> simp_all [ContainerEntry.unplaced]

theorem memberSame_of_unplaced {p p' : PropertyAttributes} (h : p'.unplaced = p.unplaced) :
    MemberSame p.member p'.member := by
  obtain ⟨⟩ := p
  obtain ⟨⟩ := p'
  simp_all [PropertyAttributes.unplaced, MemberSame, PropertyAttributes.member]

/-- What entries say together, where some properties were removed. -/
theorem container_of_thinned {es es' : List ContainerEntry}
    (h : Thinned EntryLeftOut EntrySame es es') :
    (ContainerAttributes.ofEntries es').nameSpace = (ContainerAttributes.ofEntries es).nameSpace ∧
    (ContainerAttributes.ofEntries es').crate = (ContainerAttributes.ofEntries es).crate ∧
    Thinned MemberLeftOut MemberSame
      ((ContainerAttributes.ofEntries es).properties.map PropertyAttributes.member)
      ((ContainerAttributes.ofEntries es').properties.map PropertyAttributes.member) := by
  have hlast : ∀ {β : Type} (f : ContainerEntry → Option β), (∀ p, f (.property p) = none) →
      lastOf f es' = lastOf f es := by
    intro β f hf
    refine congrArg List.getLast? (h.filterMap_eq ?_ fun e e' hs => ?_).symm
    · rintro e ⟨p, rfl, -⟩
      exact hf p
    · rcases hs.eq_or with rfl | ⟨p, p', rfl, rfl, -⟩
      · rfl
      · rw [hf, hf]
  refine ⟨hlast _ fun _ => rfl, hlast _ fun _ => rfl, ?_⟩
  refine (h.filterMap (Q := PropertyAttributes.LeftOut)
    (T := fun p p' => p'.unplaced = p.unplaced) ?_ fun e e' hs => ?_).map
    (fun p hp => hp.member) fun p p' => memberSame_of_unplaced
  · rintro e p ⟨p', rfl, hout⟩ hp
    cases hp
    exact hout
  · rcases hs.eq_or with rfl | ⟨p, p', rfl, rfl, hu⟩
    · cases e' with
      | nameSpace | crate => exact .none
      | property p => exact .some rfl
    · exact .some hu

/-! ## Fields -/

/-- The name and the place of a field in braces are those it has, whatever stands before it. -/
theorem fieldName_eq {f f' : Field} (hs : f.name.isSome = true) (h : f'.name = f.name)
    (index index' : Nat) : fieldName f' index' = fieldName f index := by
  obtain ⟨name, hname⟩ := Option.isSome_iff_exists.mp hs
  rw [fieldName, fieldName, h, hname]

/-- Fields and their positions, where some fields were removed. -/
def PlacedSame (q q' : Field × Nat) : Prop :=
  FieldMoved q.1 q'.1 ∧ fieldName q'.1 q'.2 = fieldName q.1 q.2

theorem zipIdx_named {fs fs' : List Field} (hs : ∀ f ∈ fs, f.name.isSome = true)
    (h : Thinned FieldLeftOut FieldMoved fs fs') (n n' : Nat) :
    Thinned (fun q => FieldLeftOut q.1) PlacedSame (fs.zipIdx n) (fs'.zipIdx n') := by
  induction h generalizing n n' with
  | nil => exact .nil
  | keep hm _ ih =>
    obtain ⟨hf, hs⟩ := List.forall_mem_cons.mp hs
    exact .keep ⟨hm, fieldName_eq hf hm.name _ _⟩ (ih hs _ _)
  | drop hout _ ih => exact .drop hout (ih (List.forall_mem_cons.mp hs).2 _ _)

theorem zipIdx_unnamed {fs fs' last : List Field} (h : List.Forall₂ FieldMoved fs fs')
    (hlast : ∀ f ∈ last, FieldLeftOut f) (n : Nat) :
    Thinned (fun q => FieldLeftOut q.1) PlacedSame ((fs ++ last).zipIdx n) (fs'.zipIdx n) := by
  induction h generalizing n with
  | nil => exact .of_forall fun q hq => hlast q.1 (List.fst_mem_of_mem_zipIdx hq)
  | @cons f f' _ _ hm _ ih =>
    have hname : fieldName f' n = fieldName f n := by rw [fieldName, fieldName, hm.name]
    exact .keep ⟨hm, hname⟩ (ih _)

/-- The members of the fields that remain, where the others were removed. -/
theorem FieldsTrimmed.members {fields fields' : Fields} (h : FieldsTrimmed fields fields')
    {ms : List MemberDecl} (hm : fieldMembers 0 fields.toList = .ok ms) :
    ∃ ms', fieldMembers 0 fields'.toList = .ok ms' ∧ Thinned MemberLeftOut MemberSame ms ms' := by
  rw [fieldMembers_eq_mapM, mapM_eq_ok_iff] at hm
  have hthin : Thinned (fun q => FieldLeftOut q.1) PlacedSame
      (fields.toList.zipIdx 0) (fields'.toList.zipIdx 0) := by
    cases h with
    | named hs h => exact zipIdx_named hs h 0 0
    | unnamed h hlast => exact zipIdx_unnamed h hlast 0
    | unit => exact .nil
  obtain ⟨ms', hms', ht⟩ := hthin.forall₂ (V := fun q m => fieldMember q.1 q.2 = .ok m) hm
    (fun _ _ hq hm => hq.member hm) (fun _ _ _ hq hm => hq.1.member hq.2 hm)
  exact ⟨ms', by rw [fieldMembers_eq_mapM, mapM_eq_ok_iff]; exact hms', ht⟩

theorem FieldsTrimmed.kind_eq {fields fields' : Fields} (h : FieldsTrimmed fields fields') :
    TypeKind.ofFields fields' = TypeKind.ofFields fields := by
  cases h <;> rfl

/-! ## The main result -/

/-- The unit comes from the descriptor and the path of the library alone. -/
theorem unitOf_congr {item item' : Item} {decl decl' : TypeDecl}
    (h : TypeDecl.ofItem item = .ok decl) (h' : TypeDecl.ofItem item' = .ok decl')
    (hd : decl'.descriptor = decl.descriptor) (hc : decl'.crate = decl.crate) :
    (unitOf item').1 = (unitOf item).1 := by
  have hunit : ∀ {item : Item} {decl : TypeDecl}, TypeDecl.ofItem item = .ok decl →
      (unitOf item).1 = match decl.descriptor with
        | none => .ok none
        | some d => (render d decl.crate).map fun code => some ⟨d.unitName, code⟩ := by
    intro item decl h
    unfold unitOf TypeDecl.descriptor
    simp only [h]
    rcases decl.scan with ⟨- | d, events⟩
    · rfl
    · simp only
      cases render d decl.crate <;> rfl
  rw [hunit h', hunit h, hd, hc]

section

variable {item item' : Item} (h : (unitOf item').1 = (unitOf item).1)

include h in
/-- Where the units are the same, so are the answer and what is collected. -/
theorem generate_congr (s : UnitList) :
    (generate item' s).1 = (generate item s).1 ∧ (generate item' s).2.1 =
      (generate item s).2.1 := by
  unfold generate
  revert h
  generalize unitOf item = u, unitOf item' = u'
  obtain ⟨r, events⟩ := u
  obtain ⟨r', events'⟩ := u'
  rintro rfl
  rcases r' with e | - | u <;> exact ⟨rfl, rfl⟩

include h in
/-- Where the units are the same, so are the answer and what is written. -/
theorem generateInto_congr {σ : Type} [Files.FileSystem σ] (d : ExpandDir) (fs : σ) :
    (generateInto item' d fs).1 = (generateInto item d fs).1 ∧
      (generateInto item' d fs).2.1 = (generateInto item d fs).2.1 := by
  unfold generateInto
  revert h
  generalize unitOf item = u, unitOf item' = u'
  obtain ⟨r, events⟩ := u
  obtain ⟨r', events'⟩ := u'
  rintro rfl
  rcases r' with e | - | u <;> exact ⟨rfl, rfl⟩

end

/-- **Members that take no part in the conversion do not matter.**  Where declarations of such
members are removed from a structure that is accepted, from a tuple only the last fields, what
remains is accepted, and its descriptor and its unit are those of the whole. -/
theorem generate_trimmed {item item' : Item} (h : ItemTrimmed item item') {decl : TypeDecl}
    (hdecl : TypeDecl.ofItem item = .ok decl) :
    ∃ decl', TypeDecl.ofItem item' = .ok decl' ∧ decl'.descriptor = decl.descriptor ∧
      (unitOf item').1 = (unitOf item).1 ∧
      (∀ s, (generate item' s).1 = (generate item s).1 ∧
        (generate item' s).2.1 = (generate item s).2.1) ∧
      ∀ {σ : Type} [Files.FileSystem σ] (d : ExpandDir) (fs : σ),
        (generateInto item' d fs).1 = (generateInto item d fs).1 ∧
        (generateInto item' d fs).2.1 = (generateInto item d fs).2.1 := by
  obtain ⟨fields, fields', hd, hd', hfields⟩ := h.data
  obtain ⟨entries, fieldTable, he, hf, hn, -⟩ := TypeDecl.of_ofItem hd hdecl
  obtain ⟨entries', he', hentries⟩ := h.attributes.allEntries he
  obtain ⟨fieldTable', hf', htable⟩ := hfields.members hf
  obtain ⟨hnameSpace, hcrate, hproperties⟩ := container_of_thinned hentries
  have hthin : Thinned MemberLeftOut MemberSame (TypeDecl.table entries fieldTable)
      (TypeDecl.table entries' fieldTable') := hproperties.append htable
  -- fewer members never bring in an equal name
  have hn' : (declaredNames entries' fields'.toList).Nodup := by
    rw [← TypeDecl.namesOf_table hf] at hn
    rw [← TypeDecl.namesOf_table hf']
    exact (hthin.map_sublist fun _ _ hs => hs.name_eq.symm).nodup hn
  have hselected : (TypeDecl.table entries' fieldTable').filterMap MemberDecl.select =
      (TypeDecl.table entries fieldTable).filterMap MemberDecl.select :=
    (hthin.filterMap_eq (fun _ h => h) fun _ _ hs => hs.select_eq.symm).symm
  have hdecl' := TypeDecl.ofItem_eq hd' he' hf' hn'
  cases hdecl.symm.trans (TypeDecl.ofItem_eq hd he hf hn)
  have hdescriptor := congrArg some (TypeDescriptor.mk.injEq .. |>.mpr
    ⟨h.name, hfields.kind_eq, congrArg Accessibility.ofVisibility h.visibility,
      congrArg (Option.getD · "") hnameSpace, h.generics, hselected⟩)
  have hunit := unitOf_congr hdecl hdecl' hdescriptor (congrArg (Option.getD · defaultCrate) hcrate)
  exact ⟨_, hdecl', hdescriptor, hunit, generate_congr hunit, generateInto_congr hunit⟩

/-! ## A sample -/

/-- Tokens that all stand at one place. -/
def standing (span : Span) (ts : List Token) : List Placed := ts.map fun t => ⟨t, span⟩

/-- A helper attribute with these arguments. -/
def helper (span : Span) (inner : List Token) : Attribute where
  path := ⟨false, standing span [.ident "objdict"]⟩
  body := .list .paren (standing span inner) ⟨.closing .paren, span⟩

/-- The argument `namespace = "a.b"`. -/
def gaugeNameSpace : List Token := [.ident "namespace", .punct '=' false, .literal "\"a.b\""]

/-- The argument `property(name = "level", ty = "i32")`, which has no methods. -/
def gaugeLevel : List Token :=
  [.ident "property", .opening .paren, .ident "name", .punct '=' false, .literal "\"level\"",
    .punct ',' false, .ident "ty", .punct '=' false, .literal "\"i32\"", .closing .paren]

/-- A field that takes part. -/
def gaugeZero : Field := ⟨[], .unrestricted, some "zero", .word "f64", none⟩

/-- A structure with two fields and a property that take no part. -/
def gauge : Item where
  attributes := [helper nowhere (gaugeNameSpace ++ .punct ',' false :: gaugeLevel)]
  visibility := .unrestricted
  name := "Gauge"
  generics := .empty
  data := .struct (.named
    [⟨[helper nowhere [.ident "ignore"]], .unrestricted, some "cache", .word "u8", none⟩, gaugeZero,
      ⟨[], .inherited, some "raw", .word "u8", none⟩])

/-- What remains of the structure, at other places. -/
def bareGauge : Item where
  attributes := [helper ⟨⟨2, 0⟩, ⟨2, 1⟩⟩ gaugeNameSpace]
  visibility := .unrestricted
  name := "Gauge"
  generics := .empty
  data := .struct (.named [gaugeZero])

/-- What is read as an entry is written as it. -/
theorem written_of_read {ts : List Placed} {e : ContainerEntry}
    (h : (readKey >>= containerEntry) ts = .ok (e, [])) : ContainerEntry.Written ts e := by
  obtain ⟨us, hts, hw⟩ := (containerEntry_reads ts e [] (.inl rfl)).mp h
  rwa [hts, List.append_nil]

theorem argumentsTrimmed_gauge : ArgumentsTrimmed
    (standing nowhere (gaugeNameSpace ++ .punct ',' false :: gaugeLevel))
    (standing ⟨⟨2, 0⟩, ⟨2, 1⟩⟩ gaugeNameSpace) := by
  have hn : ContainerEntry.Written (standing nowhere gaugeNameSpace) (.nameSpace "a.b") :=
    written_of_read (by decide +kernel)
  have hl : ContainerEntry.Written (standing nowhere gaugeLevel) (.property
      ⟨"level", nowhere, .word "i32", none, none, .unrestricted, false, false⟩) :=
    written_of_read (by decide +kernel)
  refine ⟨[standing nowhere gaugeNameSpace, standing nowhere gaugeLevel],
    [standing ⟨⟨2, 0⟩, ⟨2, 1⟩⟩ gaugeNameSpace], .cons false nowhere (.last _), .last _, ?_,
    .keep rfl (.drop ⟨_, hl, .inr (.inr (.inl rfl))⟩ .nil)⟩
  simp only [List.mem_cons, List.not_mem_nil, or_false, forall_eq_or_imp, forall_eq]
  exact ⟨⟨_, hn⟩, ⟨_, hl⟩⟩

theorem itemTrimmed_gauge : ItemTrimmed gauge bareGauge where
  attributes := .shorten rfl ⟨rfl, rfl⟩ rfl rfl rfl rfl argumentsTrimmed_gauge .nil
  visibility := rfl
  name := rfl
  generics := rfl
  data := ⟨_, _, rfl, rfl, .named (by decide)
    (.drop ⟨⟨false, true⟩, by decide +kernel, .inl rfl⟩
      (.keep ⟨.nil, rfl, rfl, rfl⟩
        (.drop ⟨⟨false, false⟩, rfl, .inr ⟨rfl, rfl⟩⟩ .nil)))⟩

theorem generate_trimmed_gauge :
    ItemTrimmed gauge bareGauge ∧ (∃ decl, TypeDecl.ofItem gauge = .ok decl) ∧
    (generate bareGauge .empty).1 = .ok (some "objdict.a.b.Gauge.g") ∧
    (generate bareGauge .empty).2.1 = (generate gauge .empty).2.1 := by
  have hname : (generate gauge .empty).1 = .ok (some "objdict.a.b.Gauge.g") := by decide +kernel
  have haccepted : (TypeDecl.ofItem gauge).toOption.isSome = true := by decide +kernel
  cases hdecl : TypeDecl.ofItem gauge with
  | error r =>
    rw [hdecl] at haccepted
    cases haccepted
  | ok decl =>
    obtain ⟨_, -, -, -, hsame, -⟩ := generate_trimmed itemTrimmed_gauge hdecl
    obtain ⟨hanswer, hunits⟩ := hsame .empty
    exact ⟨itemTrimmed_gauge, ⟨decl, rfl⟩, hanswer.trans hname, hunits⟩

end KeyedRecord.Derive
