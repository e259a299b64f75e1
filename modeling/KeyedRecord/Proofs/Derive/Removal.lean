import KeyedRecord.Proofs.Derive.MemberTable
import KeyedRecord.Proofs.Derive.Placement
import KeyedRecord.Proofs.Source.Origins

/-!
# Removing declarations of members

A structure from which declarations were removed: fields, and properties, which are arguments of
attributes.  Only members that take no part in the conversion are removed.  What remains may stand
at other places of the text than before.

Removing properties may leave an attribute without arguments, or be the removal of the attribute.
Fields of a tuple are known by their positions, so there only the last ones are removed.  What is
asked of a structure for this is so for every one that was read: its arguments can be told apart,
and the fields between braces have names.

Principal result: `removable_of_ofText`.
-/

set_option autoImplicit false

namespace KeyedRecord.Derive

open Source

/-! ## What is removed -/

/-- The property takes no part in the conversion. -/
def PropertyAttributes.LeftOut (p : PropertyAttributes) : Prop :=
  p.ignored = true ∨ (p.visibility.isPublic = false ∧ p.included = false) ∨
    p.getter = none ∨ p.setter = none

/-- The argument declares a property that takes no part in the conversion. -/
def ArgumentLeftOut (ts : List Placed) : Prop :=
  ∃ p, ContainerEntry.Written ts (.property p) ∧ p.LeftOut

/-- The field takes no part in the conversion. -/
def FieldLeftOut (f : Field) : Prop :=
  ∃ a, FieldAttributes.ofAttributes f.attributes = .ok a ∧
    (a.ignored = true ∨ (f.visibility.isPublic = false ∧ a.included = false))

/-- The same field, possibly at another place. -/
structure FieldMoved (f f' : Field) : Prop where
  attributes : List.Forall₂ AttributeMoved f.attributes f'.attributes
  visibility : f'.visibility = f.visibility
  name : f'.name = f.name
  type : f'.type = f.type

/-- The arguments without some properties that take no part in the conversion. -/
def ArgumentsTrimmed (inner inner' : List Placed) : Prop :=
  ∃ args args', Separated args inner ∧ Separated args' inner' ∧
    (∀ ts ∈ args, ∃ e, ContainerEntry.Written ts e) ∧ Thinned ArgumentLeftOut Moved args args'

/-- The attributes without some properties that take no part in the conversion.  An attribute of
nothing but such properties may be removed itself. -/
inductive AttributesTrimmed : List Attribute → List Attribute → Prop
  | nil : AttributesTrimmed [] []
  | keep {a a' : Attribute} {as as' : List Attribute} :
    AttributeMoved a a' → AttributesTrimmed as as' → AttributesTrimmed (a :: as) (a' :: as')
  | shorten {a a' : Attribute} {as as' : List Attribute} {d d' : Delimiter}
    {inner inner' : List Placed} {close close' : Placed} :
    a.path.isIdent "objdict" = true → PathMoved a.path a'.path →
    a.body = .list d inner close → a'.body = .list d' inner' close' →
    Front.ends [close] = true → Front.ends [close'] = true → ArgumentsTrimmed inner inner' →
    AttributesTrimmed as as' → AttributesTrimmed (a :: as) (a' :: as')
  | remove {a : Attribute} {as as' : List Attribute} {d : Delimiter} {inner : List Placed}
    {close : Placed} :
    a.path.isIdent "objdict" = true → a.body = .list d inner close → Front.ends [close] = true →
    ArgumentsTrimmed inner [] → AttributesTrimmed as as' → AttributesTrimmed (a :: as) as'

/-- The fields without some that take no part in the conversion; in a tuple these are the last. -/
inductive FieldsTrimmed : Fields → Fields → Prop
  | named {fs fs' : List Field} : (∀ f ∈ fs, f.name.isSome = true) →
    Thinned FieldLeftOut FieldMoved fs fs' → FieldsTrimmed (.named fs) (.named fs')
  | unnamed {fs fs' last : List Field} : List.Forall₂ FieldMoved fs fs' →
    (∀ f ∈ last, FieldLeftOut f) → FieldsTrimmed (.unnamed (fs ++ last)) (.unnamed fs')
  | unit : FieldsTrimmed .unit .unit

/-- The structure without some declarations of members that take no part in the conversion. -/
structure ItemTrimmed (item item' : Item) : Prop where
  attributes : AttributesTrimmed item.attributes item'.attributes
  visibility : item'.visibility = item.visibility
  name : item'.name = item.name
  generics : item'.generics = item.generics
  data : ∃ fields fields', item.data = .struct fields ∧ item'.data = .struct fields' ∧
    FieldsTrimmed fields fields'

/-! ## What was read -/

/-- Each helper attribute that was accepted has a list of arguments. -/
theorem exists_list_of_entriesOf {α : Type} {entry : PlainPath → Reading α} {a : Attribute}
    (hp : a.path.isIdent "objdict" = true) {es : List α} (he : entriesOf entry a = .ok es) :
    ∃ d inner close, a.body = .list d inner close := by
  unfold entriesOf at he
  cases hb : a.body with
  | bare | value => simp [hp, hb] at he
  | list d inner close => exact ⟨d, inner, close, rfl⟩

/-- From an attribute that was read and accepted, whichever of these properties can be removed. -/
theorem argumentsTrimmed_of_wasRead {a : Attribute} (hread : a.WasRead)
    (hp : a.path.isIdent "objdict" = true) {es : List ContainerEntry}
    (he : entriesOf containerEntry a = .ok es) :
    ∃ d inner close args, a.body = .list d inner close ∧ Front.ends [close] = true ∧
      Separated args inner ∧ ∀ args' inner', Thinned ArgumentLeftOut Moved args args' →
        Separated args' inner' → ArgumentsTrimmed inner inner' := by
  obtain ⟨d, inner, close, hb⟩ := exists_list_of_entriesOf hp he
  obtain ⟨ts, r, hlist⟩ := hread d inner close hb
  obtain ⟨d, inner, close, hb, hc, args, hsep, hargs⟩ := arguments_of_readList
    containerEntry_reads (fun _ _ => ContainerEntry.whole_of_written) hp hlist he
  have hwritten : ∀ us ∈ args, ∃ e, ContainerEntry.Written us e :=
    ((List.forall₂_and_left _ _).mp (hargs.imp fun us e hw => ⟨⟨e, hw⟩, hw⟩)).1
  exact ⟨d, inner, close, args, hb, hc, hsep, fun args' inner' hthin hsep' =>
    ⟨args, args', hsep, hsep', hwritten, hthin⟩⟩

/-- **From a declaration that was read from a text and accepted, any member that takes no part in
the conversion can be removed.**  The arguments of its helper attributes can be told apart, so each
of those that declare such a property can be left away, and so can each such field between braces.
-/
theorem removable_of_ofText {text : String} {item : Item} (htext : Item.ofText text = .ok item)
    {decl : TypeDecl} (h : TypeDecl.ofItem item = .ok decl) :
    (∀ a ∈ item.attributes, a.path.isIdent "objdict" = true →
      ∃ d inner close args, a.body = .list d inner close ∧ Front.ends [close] = true ∧
        Separated args inner ∧ ∀ args' inner', Thinned ArgumentLeftOut Moved args args' →
          Separated args' inner' → ArgumentsTrimmed inner inner') ∧
    ∀ fs fs', item.data = .struct (.named fs) → Thinned FieldLeftOut FieldMoved fs fs' →
      FieldsTrimmed (.named fs) (.named fs') := by
  have hread := Item.wasRead_of_ofText htext
  refine ⟨fun a ha hp => ?_, fun fs fs' hdata => .named ((hread.fields _ hdata).names fs rfl)⟩
  cases hentries : allEntries containerEntry item.attributes with
  | error r =>
    rw [TypeDecl.ofItem_container_error hentries] at h
    cases h
  | ok entries =>
    obtain ⟨es, he⟩ := exists_entriesOf_of_allEntries hentries a ha
    exact argumentsTrimmed_of_wasRead (hread.attributes a ha) hp he

end KeyedRecord.Derive
