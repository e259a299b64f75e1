import KeyedRecord.Catalogue.Computed
import KeyedRecord.Catalogue.Types
import KeyedRecord.Proofs.Table
import KeyedRecord.Proofs.Record.Writes

/-!
# From a record to another by way of a dictionary

A record that is changed from the dictionary of another takes over its selected fields, and keeps
its own in all others.  Properties may write to the fields of other members, and may be coarser than
these; but properties come first, so what a property spoils a field repairs.  What no field repairs,
no property may touch.

Principal result: `fromDict_toDict`.
-/

set_option autoImplicit false

namespace KeyedRecord.Record

variable {R : Registry} {τ : Type} [MemberTypes R τ]

namespace Schema

variable {S : Schema τ}

/-- The policy selects the field. -/
def Selected (S : Schema τ) (i : Fin S.fields.length) : Prop :=
  ∃ m, Field.select S.fields i = some m

/-- The setters of selected properties write to nothing but selected fields. -/
def SettersKeepUnselected (S : Schema τ) : Prop :=
  ∀ p ∈ S.properties, ∀ m, p.select = some m → ∀ x s i, ¬ S.Selected i →
    (m.set x s).get i = s.get i

/-! ## What is read back -/

/-- The dictionary of a state has the value of every selected member under its key. -/
theorem get?_toDict (s : S.State) {m : Member S.fields} (hm : m ∈ S.members) :
    (S.toDict s).get? m.key = some (m.value s) := by
  have hn : ((S.members.map fun m => (m.key, m.value s)).map Prod.fst).Nodup := by
    rw [List.map_map]
    exact S.nodup_keys
  exact Table.get?_ofList hn (List.mem_map_of_mem hm)

/-- What is to be written from the dictionary of a state are the things that it was made of. -/
theorem assignments_toDict {s : S.State}
    (hs : ∀ m ∈ S.members, MemberTypes.cast m.type (m.value s) = .ok (m.get s)) :
    S.assignments (S.toDict s) = .ok (S.members.map fun m => ⟨m, m.get s⟩) := by
  rw [assignments, mapM_eq_ok_iff, List.forall₂_map_right_iff, List.forall₂_same]
  intro m hm
  simp only [Member.read, Dict.getAs, get?_toDict s hm, hs m hm]
  rfl

/-! ## What is written -/

/-- Write the things that members have in a state. -/
def writeBack (s : S.State) (ms : List (Member S.fields)) (t : S.State) : S.State :=
  ms.foldl (fun t m => m.set (m.get s) t) t

/-- Properties leave unselected fields alone. -/
theorem writeBack_properties (hp : S.SettersKeepUnselected) (s t : S.State)
    {ps : List (Property S.fields)} (hps : ∀ p ∈ ps, p ∈ S.properties) {i : Fin S.fields.length}
    (hi : ¬ S.Selected i) :
    (writeBack s (ps.filterMap Property.select) t).get i = t.get i := by
  induction ps generalizing t with
  | nil => rfl
  | cons p ps ih =>
    have hrest : ∀ q ∈ ps, q ∈ S.properties := fun q hq => hps q (by simp [hq])
    cases hm : p.select with
    | none =>
      rw [List.filterMap_cons_none hm]
      exact ih t hrest
    | some m =>
      rw [List.filterMap_cons_some hm]
      exact (ih (m.set (m.get s) t) hrest).trans (hp p (hps p (by simp)) m hm _ t i hi)

theorem select_eq_none {i : Fin S.fields.length} (h : ¬ S.Selected i) :
    Field.select S.fields i = none :=
  Option.eq_none_iff_forall_ne_some.mpr fun m hm => h ⟨m, hm⟩

/-- A field that is not written, or not selected, is left alone. -/
theorem writeBack_fields_keeps (s t : S.State) {is : List (Fin S.fields.length)}
    {i : Fin S.fields.length} (hi : i ∉ is ∨ ¬ S.Selected i) :
    (writeBack s (is.filterMap (Field.select S.fields)) t).get i = t.get i :=
  writeAll_fields_keeps (fun m => m.get s) t (hi.imp_right select_eq_none)

/-- A selected field that is written takes over what the state holds. -/
theorem writeBack_fields_takes (s t : S.State) {is : List (Fin S.fields.length)}
    {i : Fin S.fields.length} (hmem : i ∈ is) (hi : S.Selected i) :
    (writeBack s (is.filterMap (Field.select S.fields)) t).get i = s.get i := by
  obtain ⟨m, hm⟩ := hi
  exact writeAll_fields_takes (fun m => m.get s) t hmem hm

/-- Writing back all members, the last of which are the fields. -/
theorem writeBack_members (s t : S.State) :
    writeBack s S.members t =
      writeBack s ((List.finRange S.fields.length).filterMap (Field.select S.fields))
        (writeBack s (S.properties.filterMap Property.select) t) :=
  List.foldl_append

/-- **The round trip.**  If what the selected members hold in a state survives the way through a
value, any other state that is changed from its dictionary takes over the selected fields, and keeps
what it held in the others. -/
theorem fromDict_toDict (S : Schema τ) (hp : S.SettersKeepUnselected) (s t : S.State)
    (hs : ∀ m ∈ S.members, MemberTypes.cast m.type (m.value s) = .ok (m.get s)) :
    ∃ u, S.fromDict (S.toDict s) t = (.ok (), u) ∧
      ∀ i, (S.Selected i → u.get i = s.get i) ∧ (¬ S.Selected i → u.get i = t.get i) := by
  refine ⟨writeBack s S.members t, ?_, fun i => ⟨fun hi => ?_, fun hi => ?_⟩⟩
  · rw [fromDict, assignments_toDict hs]
    simp only [List.foldl_map]
    rfl
  · rw [writeBack_members]
    exact writeBack_fields_takes s _ (List.mem_finRange i) hi
  · rw [writeBack_members, writeBack_fields_keeps s _ (.inr hi)]
    exact writeBack_properties hp s t (fun _ h => h) hi

/-! ## A sample -/

open Catalogue (types urls initialState)

/-- The sample class. -/
abbrev sampleClass : Catalogue.Sample types urls := Catalogue.testClass

/-- The setter of the sample class writes the public field that it shares its state with. -/
theorem sampleClass_settersKeep : sampleClass.schema.SettersKeepUnselected := by
  intro p hp m hm x s i hi
  obtain rfl := List.mem_singleton.mp hp
  cases hm
  refine State.get_set_of_ne (i := Catalogue.TestClass.a) s x ?_
  rintro rfl
  exact hi ⟨_, rfl⟩

theorem sampleClass_survives : ∀ m ∈ sampleClass.schema.members,
    MemberTypes.cast m.type (m.value sampleClass.start) = .ok (m.get sampleClass.start) := by
  refine List.forall_mem_cons.mpr ⟨rfl, ?_⟩
  refine List.forall_mem_cons.mpr ⟨rfl, ?_⟩
  refine List.forall_mem_cons.mpr ⟨rfl, ?_⟩
  exact List.forall_mem_singleton.mpr rfl

/-- The sample class comes back, but for its ignored character and its hidden flag. -/
theorem fromDict_toDict_testClass :
    sampleClass.schema.SettersKeepUnselected ∧
    (∀ m ∈ sampleClass.schema.members,
      MemberTypes.cast m.type (m.value sampleClass.start) = .ok (m.get sampleClass.start)) ∧
    ∃ u, sampleClass.schema.fromDict (sampleClass.schema.toDict sampleClass.start)
        (initialState sampleClass.schema.fields) = (.ok (), u) ∧
      ∀ i, (sampleClass.schema.Selected i → u.get i = sampleClass.start.get i) ∧
        (¬ sampleClass.schema.Selected i →
          u.get i = (initialState sampleClass.schema.fields).get i) :=
  ⟨sampleClass_settersKeep, sampleClass_survives,
    fromDict_toDict _ sampleClass_settersKeep _ _ sampleClass_survives⟩

end Schema

end KeyedRecord.Record
