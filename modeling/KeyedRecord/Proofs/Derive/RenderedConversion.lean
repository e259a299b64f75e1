import KeyedRecord.Proofs.Derive.CratePath
import KeyedRecord.Proofs.Derive.Execution

/-!
# The rendered conversion

The unit of a descriptor is a fixed frame around three stretches of tokens: the keys, the body that
fills a dictionary, and the body that reads one.  The main result, `render_converts`, says what
these are: read back from the tokens alone and run, the first body inserts member after member, and
the second casts every member before it writes the first.
-/

set_option autoImplicit false

namespace KeyedRecord.Derive

open Source Code

/-! ## The frame -/

/-- The list of keys around what stands between its brackets. -/
def keysFrame (accessibility : Accessibility) (keys : List Token) : List Token :=
  p "#" ++ bracket (w "doc" ++ p "=" ++
    [.literal "r\" Keys written by `to_dict`, in declaration order.\""]) ++
  accessibility.tokens ++ w "const" ++ w "DICT_KEYS" ++ p ":" ++
  p "&" ++ [.lifetime "'static"] ++ bracket (p "&" ++ [.lifetime "'static"] ++ w "str") ++
  p "=" ++ p "&" ++ bracket keys ++ p ";"

/-- A unit around its keys and its two bodies, of which the second calls its dictionary by the name
of the parameter. -/
def unitFrame (d : TypeDescriptor) (crate : Phrase) (keys toDict : List Token) (parameter : String)
    (fromDict : List Token) : List Token :=
  derivedMark ++ w "impl" ++ d.generics.implForm.printed ++ typeTokens d ++
    brace (keysFrame d.accessibility keys) ++
  derivedMark ++ w "impl" ++ d.generics.implForm.printed ++ inCrate crate ["ObjDict"] ++ w "for" ++
    typeTokens d ++
    brace (accessorTokens crate ++ (toDictHead crate "to_dict" ++ brace toDict) ++
      (fromDictHead crate "from_dict" parameter ++ brace fromDict))

/-- The body that fills a dictionary. -/
def toDictBody (crate : Phrase) (c : Conversion) : List Token :=
  if c.keys.isEmpty then inCrate crate ["Dict", "new"] ++ paren []
  else freshBody crate (toString c.keys.length ++ "usize") ++ p ";" ++
    statementTokens crate c.toDict ++ w "ret"

/-- The name of the dictionary that the other body reads. -/
def fromDictParameter (c : Conversion) : String := if c.keys.isEmpty then "_dict" else "dict"

/-- The body that reads a dictionary. -/
def fromDictBody (crate : Phrase) (c : Conversion) : List Token :=
  statementTokens crate c.fromDict ++ success

theorem unitTokens_eq (d : TypeDescriptor) (crate : Phrase) (slots : List Slot) :
    unitTokens d crate (.ofSlots slots) =
      unitFrame d crate (commas ((slots.map Slot.key).map text)) (toDictBody crate (.ofSlots slots))
        (fromDictParameter (.ofSlots slots)) (fromDictBody crate (.ofSlots slots)) := by
  cases slots with
  | nil => rfl
  | cons c slots => rfl

/-! ## What can stand in a body -/

theorem sealed_of_readText {text : String} {t : Phrase} (h : readText readType text = .ok t) :
    t.Sealed := by
  obtain ⟨ts, -, hr⟩ := readText_eq_ok_iff.mp h
  exact sealed_of_readType hr

/-- A slot is made of its member, with the type that the member's text reads as. -/
def Slot.Of (m : MemberDescriptor) (c : Slot) : Prop :=
  c.key = m.name ∧ readText readType m.declaredType = .ok c.type ∧ c.access = m.access

theorem slot_of {m : MemberDescriptor} {c : Slot} (h : Slot.ofMember m = .ok c) : c.Of m := by
  unfold Slot.ofMember at h
  cases ht : readText readType m.declaredType with
  | error e => rw [ht] at h; cases h
  | ok t =>
    rw [ht] at h
    cases h
    exact ⟨rfl, ht, rfl⟩

theorem exists_ofMember {m : MemberDescriptor}
    (h : ∃ t, readText readType m.declaredType = .ok t) : ∃ c, Slot.ofMember m = .ok c := by
  obtain ⟨t, ht⟩ := h
  exact ⟨⟨m.name, t, m.access⟩, by rw [Slot.ofMember, ht]; rfl⟩

theorem sealed_of_slots {ms : List MemberDescriptor} {slots : List Slot}
    (h : List.Forall₂ (fun m c => c.Of m) ms slots) : ∀ c ∈ slots, c.type.Sealed := by
  induction h with
  | nil => simp
  | cons h _ ih => exact List.forall_mem_cons.mpr ⟨sealed_of_readText h.2.1, ih⟩

theorem keys_of_slots {ms : List MemberDescriptor} {slots : List Slot}
    (h : List.Forall₂ (fun m c => c.Of m) ms slots) :
    slots.map Slot.key = ms.map MemberDescriptor.name := by
  induction h with
  | nil => rfl
  | cons h _ ih => rw [List.map_cons, List.map_cons, h.1, ih]

/-! ## What the bodies do -/

/-- The program puts the member of each slot under the slot's key, in order. -/
structure Gathers (slots : List Slot) (P : Program) : Prop where
  instructions : slots = [] ∧ P.instructions = [] ∨
    P.instructions = .fresh :: slots.map fun c => .insert c.key c.access.operand
  result {R : Registry} {σ Θ : Type} (rt : Runtime R σ Θ) (s : σ) :
    P.toDict rt s = some (slots.foldl (rt.insertSlot s) .empty)

/-- The program casts all slots into locals of their own before it writes the first. -/
structure Scatters (parameter : String) (slots : List Slot) (P : Program) : Prop where
  instructions : ∃ names : List String, names.length = slots.length ∧ names.Nodup ∧
    P.instructions = castsInto names slots ++ writesFrom names slots
  /-- The first failure is answered, and the value is left alone. -/
  fails {R : Registry} {σ Θ : Type} (rt : Runtime R σ Θ) (d : Dict R) (s : σ)
    (before : List Slot) (c : Slot)
    (after : List Slot) (e : DictError) (hs : slots = before ++ c :: after)
    (hb : ∀ b ∈ before, ∃ x, rt.getSlot d b = .ok x) (he : rt.getSlot d c = .error e) :
    P.fromDict rt parameter d s = some (.error e, s)
  /-- Without a failure every slot is written, in order. -/
  succeeds {R : Registry} {σ Θ : Type} (rt : Runtime R σ Θ) (d : Dict R) (s : σ) (xs : List Θ)
    (hx : List.Forall₂ (fun c x => rt.getSlot d c = .ok x) slots xs) :
    P.fromDict rt parameter d s = some (.ok (), rt.writeSlots slots xs s)

section

variable {crate : Phrase} {slots : List Slot}

theorem map_instruction_toDict (slots : List Slot) :
    (Conversion.ofSlots slots).toDict.map Statement.instruction =
      slots.map fun c => .insert c.key c.access.operand := by
  simp [Conversion.toDict, Conversion.ofSlots, Statement.instruction]

theorem gathers_toDictBody (slots : List Slot) (hc : crate.Sealed) :
    ∃ P, Program.read crate.printed (toDictBody crate (.ofSlots slots)) = some P ∧
      Gathers slots P := by
  cases slots with
  | nil =>
    have hb : Sealed (inCrate crate ["Dict", "new"] ++ paren []) :=
      (sealed_inCrate hc _).append (sealed_paren .nil)
    have hnil : ∀ b ∈ ([] : List (List Token)), Sealed b := by simp
    refine ⟨⟨[], .fresh⟩, ?_, .inl ⟨rfl, rfl⟩, fun rt s => rfl⟩
    exact Program.read_bodies hnil hb rfl (Answer.read_new crate)
  | cons c slots =>
    have hs : ∀ s ∈ (Conversion.ofSlots (c :: slots)).toDict, s.Sealed := by
      intro s hs
      obtain ⟨c, -, rfl⟩ := List.mem_map.mp hs
      trivial
    have hP : Program.read crate.printed (toDictBody crate (.ofSlots (c :: slots))) =
        some ⟨.fresh :: (Conversion.ofSlots (c :: slots)).toDict.map Statement.instruction, .ret⟩ :=
      Program.read_fresh hc _ hs (sealed_w "ret") rfl
    rw [map_instruction_toDict] at hP
    refine ⟨_, hP, .inr rfl, fun rt s => ?_⟩
    have hr := Instruction.run_inserts rt (c :: slots)
      { Store.start s none with ret := some .empty } rfl
    simp only [Program.toDict, Instruction.run, Instruction.step, hr]
    rfl

theorem castsInto_localNames (k : Nat) (slots : List Slot) :
    castsInto (localNames k slots.length) slots =
      (numbered k slots).map fun q => (Statement.cast q.1 q.2.type q.2.key).instruction := by
  induction slots generalizing k with
  | nil => rfl
  | cons c slots ih => exact congrArg (_ :: ·) (ih (k + 1))

theorem writesFrom_localNames (k : Nat) (slots : List Slot) :
    writesFrom (localNames k slots.length) slots =
      (numbered k slots).map fun q => (Statement.write q.2.access q.1).instruction := by
  induction slots generalizing k with
  | nil => rfl
  | cons c slots ih => exact congrArg (_ :: ·) (ih (k + 1))

theorem map_instruction_fromDict (slots : List Slot) :
    (Conversion.ofSlots slots).fromDict.map Statement.instruction =
      castsInto (localNames 0 slots.length) slots ++
        writesFrom (localNames 0 slots.length) slots := by
  rw [castsInto_localNames, writesFrom_localNames, Conversion.fromDict, List.map_append]
  simp only [Conversion.ofSlots, List.map_map]
  rfl

theorem scatters_dict {names : List String} (hl : names.length = slots.length) (hn : names.Nodup) :
    Scatters "dict" slots ⟨castsInto names slots ++ writesFrom names slots, .success⟩ where
  instructions := ⟨names, hl, hn, rfl⟩
  fails rt d s before c after e hs hb he := by
    have hm := mapM_eq_error_iff.mpr ⟨before, c, after, hs, hb, he⟩
    obtain ⟨st, hr, hv⟩ := Instruction.run_castsInto_error (Store.dict?_start s "dict" d) hl hm
      (writesFrom names slots)
    simp only [Program.fromDict, hr, hv]
    rfl
  succeeds rt d s xs hx := by
    have hr := Instruction.run_castsInto_ok (Store.dict?_start s "dict" d) hl
      (mapM_eq_ok_iff.mpr hx) (writesFrom names slots)
    have hw := Instruction.run_writesFrom rt hl hx.length_eq.symm
      (Store.locals_bindAll (.start s (some ("dict", d))) hn)
    simp only [Program.fromDict, hr, hw, Store.value_bindAll]
    rfl

theorem scatters_nil (parameter : String) : Scatters parameter [] ⟨[], .success⟩ where
  instructions := ⟨[], rfl, List.nodup_nil, rfl⟩
  fails rt d s before c after e hs hb he := by simp at hs
  succeeds rt d s xs hx := by
    cases hx
    rfl

theorem mem_of_mem_numbered {α : Type} {k : Nat} {as : List α} {q : Nat × α}
    (h : q ∈ numbered k as) : q.2 ∈ as := by
  induction as generalizing k with
  | nil => cases h
  | cons a as ih =>
    rcases List.mem_cons.mp h with rfl | h
    · exact List.mem_cons_self
    · exact List.mem_cons_of_mem _ (ih h)

theorem sealed_fromDict (hs : ∀ c ∈ slots, c.type.Sealed) :
    ∀ s ∈ (Conversion.ofSlots slots).fromDict, s.Sealed := by
  intro s hmem
  rcases List.mem_append.mp hmem with hmem | hmem
  · obtain ⟨q, hq, rfl⟩ := List.mem_map.mp hmem
    exact hs q.2 (mem_of_mem_numbered hq)
  · obtain ⟨q, -, rfl⟩ := List.mem_map.mp hmem
    trivial

theorem sealed_success : Sealed success :=
  (sealed_absolute _).append (sealed_paren (sealed_paren .nil))

theorem scatters_fromDictBody (hc : crate.Sealed) (hs : ∀ c ∈ slots, c.type.Sealed) :
    ∃ P, Program.read crate.printed (fromDictBody crate (.ofSlots slots)) = some P ∧
      Scatters (fromDictParameter (.ofSlots slots)) slots P := by
  have hP := Program.read_statements hc (sealed_fromDict hs) sealed_success
    (Answer.read_success crate)
  rw [map_instruction_fromDict] at hP
  refine ⟨_, hP, ?_⟩
  cases slots with
  | nil => exact scatters_nil _
  | cons c slots => exact scatters_dict (length_localNames _ _) (nodup_localNames _ _)

end

/-! ## The main result -/

/-- The code of a descriptor whose slots are known. -/
theorem converts_of_slots {d : TypeDescriptor} {crate : Phrase} (hc : IsCratePath crate)
    {slots : List Slot} (hslots : d.members.mapM Slot.ofMember = .ok slots) :
    ∃ (keys toDict fromDict : List Token) (parameter : String) (toProgram fromProgram : Program),
      List.Forall₂ (fun m c => c.Of m) d.members slots ∧
      render d crate = .ok (unitFrame d crate keys toDict parameter fromDict) ∧
      readKeys keys = some d.keys ∧
      Program.read crate.printed toDict = some toProgram ∧ Gathers slots toProgram ∧
      Program.read crate.printed fromDict = some fromProgram ∧
      Scatters parameter slots fromProgram := by
  have hof : List.Forall₂ (fun m c => c.Of m) d.members slots :=
    (mapM_eq_ok_iff.mp hslots).imp fun _ _ h => slot_of h
  have hr : render d crate = .ok (unitTokens d crate (.ofSlots slots)) := by
    simp only [render, Conversion.ofDescriptor, hslots]
    rfl
  obtain ⟨toProgram, hto, hgathers⟩ := gathers_toDictBody slots hc.sealed
  obtain ⟨fromProgram, hfrom, hscatters⟩ := scatters_fromDictBody hc.sealed (sealed_of_slots hof)
  refine ⟨_, _, _, _, toProgram, fromProgram, hof, hr.trans (congrArg _ (unitTokens_eq ..)),
    ?_, hto, hgathers, hfrom, hscatters⟩
  rw [readKeys_commas, keys_of_slots hof]
  rfl

/-- Code is rendered only where every declared type is one. -/
theorem exists_slots_of_render {d : TypeDescriptor} {crate : Phrase} {code : List Token}
    (h : render d crate = .ok code) : ∃ slots, d.members.mapM Slot.ofMember = .ok slots := by
  unfold render Conversion.ofDescriptor at h
  cases hs : d.members.mapM Slot.ofMember with
  | error e => rw [hs] at h; cases h
  | ok slots => exact ⟨slots, rfl⟩

/-- **What the rendered code does.**  If every declared type is one, the unit is rendered, and its
tokens are read back as the keys of the members, a program that inserts each member under its key,
and a program that casts every member before it writes the first. -/
theorem render_converts (d : TypeDescriptor) (crate : Phrase) (hc : IsCratePath crate)
    (ht : ∀ m ∈ d.members, ∃ t, readText readType m.declaredType = .ok t) :
    ∃ (slots : List Slot) (keys toDict fromDict : List Token) (parameter : String)
      (toProgram fromProgram : Program),
      List.Forall₂ (fun m c => c.Of m) d.members slots ∧
      render d crate = .ok (unitFrame d crate keys toDict parameter fromDict) ∧
      readKeys keys = some d.keys ∧
      Program.read crate.printed toDict = some toProgram ∧ Gathers slots toProgram ∧
      Program.read crate.printed fromDict = some fromProgram ∧
      Scatters parameter slots fromProgram := by
  obtain ⟨slots, hslots⟩ := exists_mapM_eq_ok.mpr fun m hm => exists_ofMember (ht m hm)
  exact ⟨slots, converts_of_slots hc hslots⟩

/-- A descriptor with a property and two fields. -/
def testClass : TypeDescriptor where
  name := "TestClass"
  kind := .struct
  accessibility := .internal
  nameSpace := "Test"
  generics := .empty
  members := [⟨"A", "i32", .property "a" "set_a"⟩, ⟨"B", "f64", .field (.named "B")⟩,
    ⟨"_d", "String", .field (.named "_d")⟩]

theorem types_testClass :
    ∀ m ∈ testClass.members, ∃ t, readText readType m.declaredType = .ok t := by
  refine List.forall_mem_cons.mpr ⟨⟨.word "i32", by decide +kernel⟩, ?_⟩
  refine List.forall_mem_cons.mpr ⟨⟨.word "f64", by decide +kernel⟩, ?_⟩
  exact List.forall_mem_singleton.mpr ⟨.word "String", by decide +kernel⟩

/-- The sample class is rendered to code that converts. -/
theorem render_testClass_converts :
    IsCratePath defaultCrate ∧
    (∀ m ∈ testClass.members, ∃ t, readText readType m.declaredType = .ok t) ∧
    ∃ (slots : List Slot) (keys toDict fromDict : List Token) (parameter : String)
      (toProgram fromProgram : Program),
      List.Forall₂ (fun m c => c.Of m) testClass.members slots ∧
      render testClass defaultCrate =
        .ok (unitFrame testClass defaultCrate keys toDict parameter fromDict) ∧
      readKeys keys = some testClass.keys ∧
      Program.read defaultCrate.printed toDict = some toProgram ∧ Gathers slots toProgram ∧
      Program.read defaultCrate.printed fromDict = some fromProgram ∧
      Scatters parameter slots fromProgram :=
  ⟨isCratePath_defaultCrate, types_testClass,
    render_converts testClass defaultCrate isCratePath_defaultCrate types_testClass⟩

end KeyedRecord.Derive
