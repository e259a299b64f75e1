import KeyedRecord.Proofs.Derive.Items

/-!
# Grouping of helper attributes

What a type's or a field's attributes say is what their items say together.  The items may stand in
one attribute or be spread over several, with empty ones and attributes of other paths in between;
either every layout is refused, or all say the same: `ofAttributes_regrouped`.
-/

set_option autoImplicit false

namespace KeyedRecord.Derive

open Source

/-! ## Outcomes -/

/-- Both are refusals, or both are results, equal up to places. -/
def Agree {α : Type} (u : α → α) : Except Refusal α → Except Refusal α → Prop
  | .ok a, .ok b => u b = u a
  | .error _, .error _ => True
  | _, _ => False

theorem agree_of_ok {α : Type} {u : α → α} {x y : Except Refusal α}
    (h : ∀ a, x = .ok a → ∃ b, y = .ok b ∧ u b = u a) (h' : ∀ b, y = .ok b → ∃ a, x = .ok a) :
    Agree u x y := by
  cases x with
  | ok a =>
    obtain ⟨b, rfl, hu⟩ := h a rfl
    exact hu
  | error r =>
    cases y with
    | ok b =>
      obtain ⟨a, ha⟩ := h' b rfl
      cases ha
    | error r' => trivial

/-! ## Types -/

namespace ContainerEntry

/-- The namespace that the entry gives. -/
def nameSpace? : ContainerEntry → Option String
  | nameSpace n => some n
  | _ => none

/-- The path that the entry gives. -/
def crate? : ContainerEntry → Option Phrase
  | crate c => some c
  | _ => none

/-- The property that the entry declares. -/
def property? : ContainerEntry → Option PropertyAttributes
  | property p => some p
  | _ => none

end ContainerEntry

namespace ContainerAttributes

/-- What is said, without places. -/
def unplaced (c : ContainerAttributes) : ContainerAttributes :=
  { c with properties := c.properties.map PropertyAttributes.unplaced }

/-- The last namespace and the last crate count, and properties add up in order. -/
structure SaidBy (c : ContainerAttributes) (es : List ContainerEntry) : Prop where
  nameSpace : ∀ n, c.nameSpace = some n ↔ IsLast .nameSpace n es
  crate : ∀ p, c.crate = some p ↔ IsLast .crate p es
  properties : c.properties = es.filterMap ContainerEntry.property?

theorem saidBy_ofEntries (es : List ContainerEntry) : (ofEntries es).SaidBy es where
  nameSpace n := by
    have hf : ∀ e n, ContainerEntry.nameSpace? e = some n ↔ e = .nameSpace n := by
      rintro (_ | _) n <;> simp [ContainerEntry.nameSpace?]
    exact lastOf_eq_some_iff hf
  crate p := by
    have hf : ∀ e p, ContainerEntry.crate? e = some p ↔ e = .crate p := by
      rintro (_ | _) p <;> simp [ContainerEntry.crate?]
    exact lastOf_eq_some_iff hf
  properties := rfl

theorem SaidBy.unique {c c' : ContainerAttributes} {es : List ContainerEntry} (h : c.SaidBy es)
    (h' : c'.SaidBy es) : c = c' := by
  have hn : c.nameSpace = c'.nameSpace :=
    Option.ext fun n => (h.nameSpace n).trans (h'.nameSpace n).symm
  have hc : c.crate = c'.crate := Option.ext fun p => (h.crate p).trans (h'.crate p).symm
  exact ContainerAttributes.mk.injEq .. ▸ ⟨hn, hc, h.properties.trans h'.properties.symm⟩

/-- Entries that differ in their places say the same, up to places. -/
theorem unplaced_ofEntries (es : List ContainerEntry) :
    (ofEntries es).unplaced = ofEntries (es.map ContainerEntry.unplaced) := by
  have hlast : ∀ {β : Type} (f : ContainerEntry → Option β), (∀ e, f e.unplaced = f e) →
      lastOf f es = lastOf f (es.map ContainerEntry.unplaced) := by
    intro β f hf
    rw [lastOf, lastOf, List.filterMap_map]
    exact congrArg (fun f => (es.filterMap f).getLast?) (funext fun e => (hf e).symm)
  have hproperties : (es.filterMap ContainerEntry.property?).map PropertyAttributes.unplaced =
      (es.map ContainerEntry.unplaced).filterMap ContainerEntry.property? := by
    rw [List.map_filterMap, List.filterMap_map]
    refine congrArg (es.filterMap ·) (funext fun e => ?_)
    cases e <;> rfl
  have hn := hlast ContainerEntry.nameSpace? (by rintro (_ | _) <;> rfl)
  have hc := hlast ContainerEntry.crate? (by rintro (_ | _) <;> rfl)
  exact ContainerAttributes.mk.injEq .. ▸ ⟨hn, hc, hproperties⟩

theorem ofAttributes_eq_ok_iff {as : List Attribute} {c : ContainerAttributes} :
    ofAttributes as = .ok c ↔ ∃ es, allEntries containerEntry as = .ok es ∧ ofEntries es = c := by
  unfold ofAttributes
  cases allEntries containerEntry as <;> simp [bind, Except.bind, pure, Except.pure]

end ContainerAttributes

/-! ## Fields -/

namespace FieldAttributes

theorem ofAttributes_eq_ok_iff {as : List Attribute} {f : FieldAttributes} :
    ofAttributes as = .ok f ↔ ∃ es, allEntries fieldEntry as = .ok es ∧ ofEntries es = f := by
  unfold ofAttributes
  cases allEntries fieldEntry as <;> simp [bind, Except.bind, pure, Except.pure]

/-- Flags that occur among the entries are set. -/
structure SaidBy (f : FieldAttributes) (es : List FieldEntry) : Prop where
  included : f.included = true ↔ .included ∈ es
  ignored : f.ignored = true ↔ .ignored ∈ es

theorem saidBy_ofEntries (es : List FieldEntry) : (ofEntries es).SaidBy es where
  included := List.contains_iff_mem
  ignored := List.contains_iff_mem

theorem SaidBy.unique {f f' : FieldAttributes} {es es' : List FieldEntry} (h : f.SaidBy es)
    (h' : f'.SaidBy es') (hes : ∀ e, e ∈ es ↔ e ∈ es') : f' = f := by
  have hin : f'.included = f.included := by
    rw [Bool.eq_iff_iff, h.included, h'.included, hes]
  have hig : f'.ignored = f.ignored := by
    rw [Bool.eq_iff_iff, h.ignored, h'.ignored, hes]
  exact FieldAttributes.mk.injEq .. ▸ ⟨hin, hig⟩

end FieldAttributes

/-! ## Layouts -/

section

variable {α : Type} {W : List Placed → α → Prop} {u : α → α} {items items' : List (List Placed)}

/-- Items that are among those of a list, at other places, are written as entries of the list. -/
theorem Moves.exists_entries (hW : Moves W u) {es : List α} (h : List.Forall₂ W items es)
    (hsub : ∀ us' ∈ items', ∃ us ∈ items, Moved us us') :
    ∃ es', List.Forall₂ W items' es' ∧ ∀ e' ∈ es', ∃ e ∈ es, u e' = u e := by
  have hone : ∀ us' ∈ items', ∃ e', W us' e' ∧ ∃ e ∈ es, u e' = u e := by
    intro us' hus'
    obtain ⟨us, hus, hm⟩ := hsub us' hus'
    obtain ⟨e, he, hw⟩ := exists_mem_of_forall₂ h hus
    obtain ⟨e', hw', hu⟩ := hW hm hw
    exact ⟨e', hw', e, he, hu⟩
  obtain ⟨es', hes'⟩ := exists_forall₂ hone
  refine ⟨es', hes'.imp fun _ _ hboth => hboth.1, fun e' he' => ?_⟩
  obtain ⟨us', -, -, he⟩ := exists_mem_of_forall₂ hes'.flip he'
  exact he

/-- Items are the writings of one list of entries. -/
theorem Reads.unique_list {entry : PlainPath → Reading α} (h : Reads entry W) {es es' : List α}
    (he : List.Forall₂ W items es) (he' : List.Forall₂ W items es') : es = es' := by
  have hW : Relator.RightUnique W := fun _ _ _ hw hw' => h.unique hw hw'
  exact List.right_unique_forall₂' hW he he'

/-- The same tokens occur as items. -/
def SameItems (items items' : List (List Placed)) : Prop :=
  ∀ tokens, tokens ∈ items'.map tokensOf ↔ tokens ∈ items.map tokensOf

theorem SameItems.exists_moved (h : SameItems items items') :
    ∀ us' ∈ items', ∃ us ∈ items, Moved us us' := by
  intro us' hus'
  obtain ⟨us, hus, htokens⟩ := List.mem_map.mp ((h _).mp (List.mem_map_of_mem hus'))
  exact ⟨us, hus, htokens.symm⟩

theorem SameItems.symm (h : SameItems items items') : SameItems items' items :=
  fun tokens => (h tokens).symm

/-- Flags are the same where the same items occur. -/
theorem SameItems.entries (h : SameItems items items') {es : List FieldEntry}
    (he : List.Forall₂ FieldEntry.Written items es) :
    ∃ es', List.Forall₂ FieldEntry.Written items' es' ∧ ∀ e, e ∈ es ↔ e ∈ es' := by
  obtain ⟨es', he', hsub⟩ := fieldEntry_moves.exists_entries he h.exists_moved
  obtain ⟨es'', he'', hsub'⟩ := fieldEntry_moves.exists_entries he' h.symm.exists_moved
  obtain rfl := fieldEntry_reads.unique_list he he''
  refine ⟨es', he', fun e => ⟨fun hmem => ?_, fun hmem => ?_⟩⟩
  · obtain ⟨e', he', rfl⟩ := hsub' e hmem
    exact he'
  · obtain ⟨e', he', rfl⟩ := hsub e hmem
    exact he'

/-- A layout of a type's items is accepted exactly if each item is the writing of an entry. -/
theorem ContainerAttributes.ofAttributes_laidOut (hi : ∀ us ∈ items, IsItem us)
    {as : List Attribute} (hl : LaysOut items as) (c : ContainerAttributes) :
    ofAttributes as = .ok c ↔ ∃ es, List.Forall₂ ContainerEntry.Written items es ∧ c.SaidBy es := by
  have hentries : ∀ es, allEntries containerEntry as = .ok es ↔ List.Forall₂ _ items es := fun _ =>
    hl.allEntries_eq_ok_iff containerEntry_reads (fun _ _ => ContainerEntry.isItem_of_written) hi
  rw [ofAttributes_eq_ok_iff]
  constructor
  · rintro ⟨es, he, rfl⟩
    exact ⟨es, (hentries es).mp he, saidBy_ofEntries es⟩
  · rintro ⟨es, he, hc⟩
    exact ⟨es, (hentries es).mpr he, (saidBy_ofEntries es).unique hc⟩

/-- A layout of a field's items is accepted exactly if each item is the writing of an entry. -/
theorem FieldAttributes.ofAttributes_laidOut (hi : ∀ us ∈ items, IsItem us)
    {as : List Attribute} (hl : LaysOut items as) (f : FieldAttributes) :
    ofAttributes as = .ok f ↔ ∃ es, List.Forall₂ FieldEntry.Written items es ∧ f.SaidBy es := by
  have hentries : ∀ es, allEntries fieldEntry as = .ok es ↔ List.Forall₂ _ items es := fun _ =>
    hl.allEntries_eq_ok_iff fieldEntry_reads (fun _ _ => FieldEntry.isItem_of_written) hi
  rw [ofAttributes_eq_ok_iff]
  constructor
  · rintro ⟨es, he, rfl⟩
    exact ⟨es, (hentries es).mp he, saidBy_ofEntries es⟩
  · rintro ⟨es, he, hf⟩
    exact ⟨es, (hentries es).mpr he, hf.unique (saidBy_ofEntries es) fun _ => .rfl⟩

/-- What is read from one layout is read from another, up to places. -/
theorem ContainerAttributes.exists_of_moved (hi : ∀ us ∈ items, IsItem us)
    (hi' : ∀ us ∈ items', IsItem us) {as as' : List Attribute} (hl : LaysOut items as)
    (hl' : LaysOut items' as') (hm : List.Forall₂ Moved items items') {c : ContainerAttributes}
    (h : ofAttributes as = .ok c) :
    ∃ c', ofAttributes as' = .ok c' ∧ c'.unplaced = c.unplaced := by
  obtain ⟨es, he, hc⟩ := (ofAttributes_laidOut hi hl c).mp h
  obtain ⟨es', he', hu⟩ := containerEntry_moves.forall₂ hm he
  refine ⟨ofEntries es', (ofAttributes_laidOut hi' hl' _).mpr ⟨es', he', saidBy_ofEntries es'⟩, ?_⟩
  rw [hc.unique (saidBy_ofEntries es), unplaced_ofEntries, unplaced_ofEntries, hu]

/-- What is read from one layout is read from another that has the same items. -/
theorem FieldAttributes.ofAttributes_of_sameItems (hi : ∀ us ∈ items, IsItem us)
    (hi' : ∀ us ∈ items', IsItem us) {as as' : List Attribute} (hl : LaysOut items as)
    (hl' : LaysOut items' as') (hs : SameItems items items') {f : FieldAttributes}
    (h : ofAttributes as = .ok f) : ofAttributes as' = .ok f := by
  obtain ⟨es, he, hf⟩ := (ofAttributes_laidOut hi hl f).mp h
  obtain ⟨es', he', hmem⟩ := hs.entries he
  obtain rfl := hf.unique (saidBy_ofEntries es') hmem
  exact (ofAttributes_laidOut hi' hl' _).mpr ⟨es', he', saidBy_ofEntries es'⟩

end

/-- **The grouping of helper attributes does not matter.**  Layouts of the same items are all
refused or say the same of a type; a layout is accepted exactly if each item is the writing of an
entry, and then says what these entries say.  Of a field layouts say the same even if items come in
another order or more often. -/
theorem ofAttributes_regrouped {items items' : List (List Placed)} (hi : ∀ us ∈ items, IsItem us)
    (hi' : ∀ us ∈ items', IsItem us) {as as' : List Attribute} (hl : LaysOut items as)
    (hl' : LaysOut items' as') :
    (List.Forall₂ Moved items items' → Agree ContainerAttributes.unplaced
      (ContainerAttributes.ofAttributes as) (ContainerAttributes.ofAttributes as')) ∧
    (∀ c, ContainerAttributes.ofAttributes as = .ok c ↔
      ∃ es, List.Forall₂ ContainerEntry.Written items es ∧ c.SaidBy es) ∧
    (SameItems items items' →
      Agree id (FieldAttributes.ofAttributes as) (FieldAttributes.ofAttributes as')) ∧
    (∀ f, FieldAttributes.ofAttributes as = .ok f ↔
      ∃ es, List.Forall₂ FieldEntry.Written items es ∧ f.SaidBy es) := by
  refine ⟨fun hm => ?_, ContainerAttributes.ofAttributes_laidOut hi hl, fun hs => ?_,
    FieldAttributes.ofAttributes_laidOut hi hl⟩
  · refine agree_of_ok (fun c hc => ContainerAttributes.exists_of_moved hi hi' hl hl' hm hc) ?_
    intro c' hc'
    have hback : List.Forall₂ Moved items' items := hm.flip.imp fun _ _ h => h.symm
    obtain ⟨c, hc, -⟩ := ContainerAttributes.exists_of_moved hi' hi hl' hl hback hc'
    exact ⟨c, hc⟩
  · refine agree_of_ok (fun f hf => ⟨f, ?_, rfl⟩) fun f hf => ⟨f, ?_⟩
    · exact FieldAttributes.ofAttributes_of_sameItems hi hi' hl hl' hs hf
    · exact FieldAttributes.ofAttributes_of_sameItems hi' hi hl' hl hs.symm hf

/-- A key with a string as an item. -/
def valueItem (key text : String) : List Placed :=
  [⟨.ident key, nowhere⟩, ⟨.punct '=' false, nowhere⟩, ⟨.literal text, nowhere⟩]

theorem isItem_valueItem (key : String) {text : String} {s : StringLiteral}
    (h : StringLiteral.ofPlaced? ⟨.literal text, nowhere⟩ = some s) : IsItem (valueItem key text) :=
  IsValue.isItem ⟨nowhere, false, nowhere, ⟨.literal text, nowhere⟩, rfl, h⟩

/-- An attribute of the path `objdict`. -/
def helperAttribute (inner : List Placed) : Attribute :=
  ⟨⟨false, [⟨.ident "objdict", nowhere⟩]⟩, .list .paren inner ⟨.closing .paren, nowhere⟩⟩

/-- Two namespaces. -/
def testNamespaces : List (List Placed) :=
  [valueItem "namespace" "\"a\"", valueItem "namespace" "\"b\""]

/-- Both in one attribute. -/
def testTogether : List Attribute :=
  [helperAttribute (valueItem "namespace" "\"a\"" ++
    ⟨.punct ',' false, nowhere⟩ :: valueItem "namespace" "\"b\"")]

/-- Each in one of its own, with an empty one and one of another path between. -/
def testApart : List Attribute :=
  [helperAttribute (valueItem "namespace" "\"a\"" ++ [⟨.punct ',' false, nowhere⟩]),
    helperAttribute [], ⟨⟨false, [⟨.ident "inline", nowhere⟩]⟩, .bare⟩,
    helperAttribute (valueItem "namespace" "\"b\"")]

theorem ofAttributes_regrouped_namespaces :
    (∀ us ∈ testNamespaces, IsItem us) ∧
    LaysOut testNamespaces testTogether ∧ LaysOut testNamespaces testApart ∧
    ContainerAttributes.ofAttributes testTogether = .ok ⟨some "b", none, []⟩ ∧
    Agree ContainerAttributes.unplaced (ContainerAttributes.ofAttributes testTogether)
      (ContainerAttributes.ofAttributes testApart) ∧
    Agree id (FieldAttributes.ofAttributes testTogether)
      (FieldAttributes.ofAttributes testApart) := by
  have hitem : ∀ us ∈ testNamespaces, IsItem us := by
    have ha : IsItem (valueItem "namespace" "\"a\"") :=
      isItem_valueItem _ (s := ⟨"a", "", nowhere⟩) (by decide)
    have hb : IsItem (valueItem "namespace" "\"b\"") :=
      isItem_valueItem _ (s := ⟨"b", "", nowhere⟩) (by decide)
    simp [testNamespaces, ha, hb]
  have htogether : LaysOut testNamespaces testTogether :=
    .list rfl rfl (.cons false nowhere (.last _)) .nil
  have hapart : LaysOut testNamespaces testApart := by
    have hb : LaysOut [valueItem "namespace" "\"b\""]
        [helperAttribute (valueItem "namespace" "\"b\"")] := .list rfl rfl (.last _) .nil
    exact .list rfl rfl (.cons false nowhere .nil) (.list rfl rfl .nil (.foreign (by decide) hb))
  obtain ⟨hcontainer, -, hfield, -⟩ := ofAttributes_regrouped hitem hitem htogether hapart
  exact ⟨hitem, htogether, hapart, by decide, hcontainer (.cons rfl (.cons rfl .nil)),
    hfield fun _ => .rfl⟩

end KeyedRecord.Derive
