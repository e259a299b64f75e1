import KeyedRecord.Catalogue.Plain
import KeyedRecord.Catalogue.Types
import KeyedRecord.Proofs.Record.Atomicity
import KeyedRecord.Proofs.Record.RoundTrip

/-!
# What was put is what is got

Where all selected members are fields, a change from a dictionary puts into every selected field
what the dictionary says of it and leaves all other fields alone.  So the dictionary that is got
afterwards has the same things under the keys, each in the form in which its type stores it, and of
two changes in a row the first leaves no trace.

Principal results: `fromDict_put`, `fromDict_toDict_self_iff` and `eq_of_fromDict`.
-/

set_option autoImplicit false

namespace KeyedRecord.Record

variable {R : Registry} {τ : Type} [MemberTypes R τ]

namespace Schema

variable {S : Schema τ} {d : Dict R} {s t u : S.State}

/-- No property is selected. -/
def OnlyFields (S : Schema τ) : Prop := ∀ p ∈ S.properties, p.select = none

/-- The members are the selected fields. -/
theorem members_eq_fields (ho : S.OnlyFields) :
    S.members = (List.finRange S.fields.length).filterMap (Field.select S.fields) := by
  rw [members, List.filterMap_eq_nil_iff.mpr ho, List.nil_append]

theorem exists_selected_of_mem (ho : S.OnlyFields) {m : Member S.fields} (hm : m ∈ S.members) :
    ∃ i, Field.select S.fields i = some m := by
  rw [members_eq_fields ho] at hm
  obtain ⟨i, -, hi⟩ := List.mem_filterMap.mp hm
  exact ⟨i, hi⟩

theorem mem_of_select {i : Fin S.fields.length} {m : Member S.fields}
    (h : Field.select S.fields i = some m) : m ∈ S.members :=
  List.mem_append_right _ (List.mem_filterMap.mpr ⟨i, List.mem_finRange i, h⟩)

/-! ## What a dictionary says -/

/-- What a dictionary says of a member; what the member holds if it says nothing. -/
def said (d : Dict R) (s : S.State) (m : Member S.fields) : m.Carrier :=
  match d.getAs m.type m.key with
  | .ok x => x
  | .error _ => m.get s

theorem read_eq_ok {m : Member S.fields} {a : Assignment S.fields} (h : m.read d = .ok a)
    (s : S.State) : d.getAs m.type m.key = .ok (said d s m) ∧ a = ⟨m, said d s m⟩ := by
  unfold Member.read at h
  unfold said
  cases hg : d.getAs m.type m.key with
  | error e => rw [hg] at h; cases h
  | ok x =>
    rw [hg] at h
    cases h
    exact ⟨rfl, rfl⟩

/-- A change that succeeds finds something under the key of every member. -/
theorem getAs_of_fromDict (h : S.fromDict d s = (.ok (), u)) {m : Member S.fields}
    (hm : m ∈ S.members) : d.getAs m.type m.key = .ok (said d s m) := by
  have hfit : m.Fits d := fromDict_ok_iff.mp (congrArg Prod.fst h) m hm
  obtain ⟨a, ha⟩ := Member.read_ok_iff.mpr hfit
  exact (read_eq_ok ha s).1

/-- A change that succeeds writes to every member what the dictionary says of it. -/
theorem state_of_fromDict (h : S.fromDict d s = (.ok (), u)) :
    u = writeAll (said d s) S.members s := by
  unfold fromDict at h
  cases ha : S.assignments d with
  | error e => rw [ha] at h; cases h
  | ok as =>
    rw [ha] at h
    cases h
    have has : as = S.members.map fun m => ⟨m, said d s m⟩ := by
      rw [assignments, mapM_eq_ok_iff] at ha
      generalize S.members = ms at ha
      induction ha with
      | nil => rfl
      | cons h _ ih => rw [(read_eq_ok h s).2, ih, List.map_cons]
    rw [has, List.foldl_map]
    rfl

/-- What a change answers does not depend on the state. -/
theorem result_of_fromDict (d : Dict R) (s t : S.State) :
    (S.fromDict d s).1 = (S.fromDict d t).1 := by
  unfold fromDict
  cases S.assignments d <;> rfl

/-! ## Fields after a change -/

/-- A selected field holds what the dictionary says of it. -/
theorem getAs_of_selected (ho : S.OnlyFields) (h : S.fromDict d s = (.ok (), u))
    {i : Fin S.fields.length} {m : Member S.fields} (hi : Field.select S.fields i = some m) :
    d.getAs (FieldType S.fields i) (S.fields.get i).name = .ok (u.get i) := by
  have hu : u.get i = said d s (Field.member S.fields i) := by
    rw [state_of_fromDict h, members_eq_fields ho]
    exact writeAll_fields_takes (said d s) s (List.mem_finRange i) hi
  have hm := getAs_of_fromDict h (mem_of_select hi)
  rw [Field.eq_member_of_select hi] at hm
  rw [hu]
  exact hm

/-- A field that is not selected is left alone, whether the change succeeds or not. -/
theorem get_of_not_selected (ho : S.OnlyFields) (d : Dict R) (s : S.State) {i : Fin S.fields.length}
    (hi : ¬ S.Selected i) : (S.fromDict d s).2.get i = s.get i := by
  cases hr : (S.fromDict d s).1 with
  | error e => rw [state_of_fromDict_error hr]
  | ok v =>
    have hu := state_of_fromDict (S := S) (d := d) (s := s) (u := (S.fromDict d s).2)
      (Prod.ext hr rfl)
    rw [hu, members_eq_fields ho]
    exact writeAll_fields_keeps (said d s) s (.inr (select_eq_none hi))

/-- Two states that agree on the fields that are not selected agree after the same change. -/
theorem eq_of_fromDict (ho : S.OnlyFields) {s' u' : S.State} (h : S.fromDict d s = (.ok (), u))
    (h' : S.fromDict d s' = (.ok (), u')) (hs : ∀ i, ¬ S.Selected i → s.get i = s'.get i) :
    u = u' := by
  refine State.ext fun i => ?_
  by_cases hi : S.Selected i
  · obtain ⟨m, hm⟩ := hi
    have hu := getAs_of_selected ho h hm
    rw [getAs_of_selected ho h' hm] at hu
    exact (Except.ok.inj hu).symm
  · have hu := get_of_not_selected ho d s hi
    have hu' := get_of_not_selected ho d s' hi
    rw [h] at hu
    rw [h'] at hu'
    rw [hu, hs i hi, hu']

/-! ## The dictionary after a change -/

theorem keys_toDict (s : S.State) : (S.toDict s).keys = S.keys := by
  have hk : (S.members.map fun m => (m.key, m.value s)).map Prod.fst = S.keys := by
    rw [List.map_map]
    rfl
  have hn : ((S.members.map fun m => (m.key, m.value s)).map Prod.fst).Nodup := by
    rw [hk]
    exact S.nodup_keys
  rw [toDict, Table.keys_ofList hn, hk]

/-- Under the key of a member stands the stored form of what was put there. -/
theorem get?_toDict_of_fromDict (ho : S.OnlyFields) (h : S.fromDict d s = (.ok (), u))
    {m : Member S.fields} (hm : m ∈ S.members) :
    ∃ v x, d.get? m.key = some v ∧ MemberTypes.cast m.type v = .ok x ∧
      (S.toDict u).get? m.key = some (MemberTypes.toValue m.type x) := by
  obtain ⟨v, x, hv, hx⟩ : m.Fits d := fromDict_ok_iff.mp (congrArg Prod.fst h) m hm
  refine ⟨v, x, hv, hx, ?_⟩
  obtain ⟨i, hi⟩ := exists_selected_of_mem ho hm
  have hget := getAs_of_selected ho h hi
  rw [get?_toDict u hm]
  obtain rfl := Field.eq_member_of_select hi
  have hxu : x = u.get i := by
    change d.get? (S.fields.get i).name = some v at hv
    change MemberTypes.cast (FieldType S.fields i) v = .ok x at hx
    rw [Dict.getAs, hv] at hget
    simp only [hx, Except.mapError] at hget
    exact Except.ok.inj hget
  rw [hxu]
  rfl

/-! ## The laws -/

/-- **What was put is got, and the last change counts.**  Where all selected members are fields, a
change that succeeds leaves a record whose dictionary has exactly the keys of the selected members,
and under each of them the stored form of what the value in the given dictionary casts to.  A change
after another has the outcome that it has without the other, and where both succeed it leads to the
same state.  Fields that are not selected stay as they are throughout. -/
theorem fromDict_put (S : Schema τ) (ho : S.OnlyFields) (s : S.State) :
    (∀ d u, S.fromDict d s = (.ok (), u) →
      (S.toDict u).keys = S.keys ∧
      (∀ m ∈ S.members, ∃ v x, d.get? m.key = some v ∧ MemberTypes.cast m.type v = .ok x ∧
        (S.toDict u).get? m.key = some (MemberTypes.toValue m.type x)) ∧
      ∀ i, ¬ S.Selected i → u.get i = s.get i) ∧
    ∀ d₁ d₂ t, S.fromDict d₁ s = (.ok (), t) →
      (S.fromDict d₂ t).1 = (S.fromDict d₂ s).1 ∧
      ((S.fromDict d₂ s).1 = .ok () → (S.fromDict d₂ t).2 = (S.fromDict d₂ s).2) ∧
      ∀ i, ¬ S.Selected i → t.get i = s.get i ∧ (S.fromDict d₂ t).2.get i = s.get i := by
  have keeps {d : Dict R} {u : S.State} (h : S.fromDict d s = (.ok (), u)) (i : Fin S.fields.length)
      (hi : ¬ S.Selected i) : u.get i = s.get i := by
    have := get_of_not_selected ho d s hi
    rwa [h] at this
  refine ⟨fun d u h => ⟨keys_toDict u, fun m hm => get?_toDict_of_fromDict ho h hm, keeps h⟩,
    fun d₁ d₂ t h => ⟨result_of_fromDict d₂ t s, fun h₂ => ?_, fun i hi => ⟨keeps h i hi, ?_⟩⟩⟩
  · have ht : (S.fromDict d₂ t).1 = .ok () := (result_of_fromDict d₂ t s).trans h₂
    exact eq_of_fromDict ho (Prod.ext ht rfl) (Prod.ext h₂ rfl) (keeps h)
  · rw [get_of_not_selected ho d₂ t hi, keeps h i hi]

/-! ## A record changed from its own dictionary -/

/-- The dictionary of a state says of a selected field what the cast makes of its value. -/
theorem getAs_toDict (s : S.State) {i : Fin S.fields.length} {m : Member S.fields}
    (hi : Field.select S.fields i = some m) :
    (S.toDict s).getAs (FieldType S.fields i) (S.fields.get i).name =
      (MemberTypes.cast (FieldType S.fields i)
        (MemberTypes.toValue (FieldType S.fields i) (s.get i))).mapError
        (.typeMismatch (S.fields.get i).name) := by
  have hget := get?_toDict s (mem_of_select hi)
  rw [Field.eq_member_of_select hi] at hget
  change (S.toDict s).get? (S.fields.get i).name =
    some (MemberTypes.toValue (FieldType S.fields i) (s.get i)) at hget
  rw [Dict.getAs, hget]

/-- **A record can be changed from its own dictionary, and stays as it is, exactly if what every
selected field holds survives the way through a value.** -/
theorem fromDict_toDict_self_iff (ho : S.OnlyFields) :
    S.fromDict (S.toDict s) s = (.ok (), s) ↔
      ∀ i, S.Selected i → MemberTypes.cast (FieldType S.fields i)
        (MemberTypes.toValue (FieldType S.fields i) (s.get i)) =
        .ok (s.get i) := by
  constructor
  · rintro h i ⟨m, hi⟩
    have hget := getAs_of_selected ho h hi
    rw [getAs_toDict s hi] at hget
    cases hc : MemberTypes.cast (FieldType S.fields i)
      (MemberTypes.toValue (FieldType S.fields i) (s.get i)) with
    | error e => rw [hc] at hget; cases hget
    | ok x => rw [hc] at hget; exact congrArg Except.ok (Except.ok.inj hget)
  · intro hs
    have hok : S.assignments (S.toDict s) = .ok (S.members.map fun m => ⟨m, m.get s⟩) := by
      refine assignments_toDict fun m hm => ?_
      obtain ⟨i, hi⟩ := exists_selected_of_mem ho hm
      obtain rfl := Field.eq_member_of_select hi
      exact hs i ⟨_, hi⟩
    have hres : (S.fromDict (S.toDict s) s).1 = .ok () := by
      rw [fromDict, hok]
    refine Prod.ext hres (State.ext fun i => ?_)
    by_cases hi : S.Selected i
    · have hsi := hs i hi
      obtain ⟨m, hm⟩ := hi
      have hget := getAs_of_selected (u := (S.fromDict (S.toDict s) s).2) ho (Prod.ext hres rfl) hm
      rw [getAs_toDict s hm, hsi] at hget
      exact (Except.ok.inj hget).symm
    · exact get_of_not_selected ho _ s hi

/-! ## A sample -/

open Catalogue (types urls)

namespace Meter

/-- A serial number, a level that takes integers, and a hidden mark. -/
abbrev fields : List (Field (MemberType types urls)) :=
  [⟨"serial", .int .u64, Catalogue.published⟩,
    ⟨"level", .double, Catalogue.include_ Catalogue.hidden⟩,
    ⟨"checked", .boolean, Catalogue.hidden⟩]

/-- A meter. -/
def schema : Schema (MemberType types urls) := ⟨fields, [], by decide⟩

/-- The place of the mark. -/
abbrev checked : Fin fields.length := ⟨2, by decide⟩

/-- A meter with the mark. -/
def start : schema.State := (Catalogue.initialState fields).set checked true

/-- The serial number as a payload, the level as an integer, and a key too many. -/
def given : Dict types :=
  .ofList [("checked", .boolean false), ("level", .integer (.wrap .i64 3)),
    ("serial", .ofThing (.number (.wrap .u64 5)))]

/-- A serial number beyond the integers that a value holds, and a level that is one. -/
def later : Dict types :=
  .ofList [("serial", .ofThing (.number (.wrap .u64 18446744073709551615))),
    ("level", .real (.ofInt .double 1))]

end Meter

/-- A meter stores the payload and the integer that it was given in the forms of their types, keeps
its mark, and forgets them when it is given others. -/
theorem fromDict_put_meter :
    Meter.schema.OnlyFields ∧ ∃ t, Meter.schema.fromDict Meter.given Meter.start = (.ok (), t) ∧
      (Meter.schema.toDict t).keys = ["serial", "level"] ∧
      (Meter.schema.toDict t).get? "serial" = some (.integer (.wrap .i64 5)) ∧
      (Meter.schema.toDict t).get? "level" = some (.real (.ofInt .double 3)) ∧
      t.get Meter.checked = true ∧
      (Meter.schema.fromDict Meter.later t).2 =
        (Meter.schema.fromDict Meter.later Meter.start).2 := by
  have ho : Meter.schema.OnlyFields := fun p hp => nomatch hp
  obtain ⟨hput, hlast⟩ := fromDict_put Meter.schema ho Meter.start
  have hg : Meter.schema.fromDict Meter.given Meter.start =
    (.ok (), (Meter.schema.fromDict Meter.given Meter.start).2) := rfl
  have hhidden : ¬ Meter.schema.Selected Meter.checked := fun ⟨_, hm⟩ => nomatch hm
  obtain ⟨hkeys, hvalues, hkeeps⟩ := hput _ _ hg
  obtain ⟨-, hagain, -⟩ := hlast _ Meter.later _ hg
  refine ⟨ho, _, hg, hkeys, ?_, ?_, hkeeps Meter.checked hhidden, hagain rfl⟩
  · obtain ⟨v, x, hv, hx, hs⟩ := hvalues (Field.member Meter.fields ⟨0, by decide⟩) (.head _)
    cases hv
    cases hx
    exact hs
  · obtain ⟨v, x, hv, hx, hs⟩ := hvalues (Field.member Meter.fields ⟨1, by decide⟩)
      (.tail _ (.head _))
    cases hv
    cases hx
    exact hs

end Schema

end KeyedRecord.Record
