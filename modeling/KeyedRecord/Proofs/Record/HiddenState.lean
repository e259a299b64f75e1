import KeyedRecord.Proofs.Record.Laws

/-!
# Hidden state

Where all selected members are fields, what conversions answer depends on the selected fields alone,
and they leave all others as they are.  So two records that agree on the selected fields cannot be
told apart by any run of conversions, not even by dictionaries that have more to say than the record
asks: `run_alike`.
-/

set_option autoImplicit false

namespace KeyedRecord.Record

variable {R : Registry} {τ : Type} [MemberTypes R τ]

/-! ## What looks alike -/

/-- The dictionaries have the same values under the keys, and whatever they like under others. -/
def AgreeOn (keys : List String) (d d' : Dict R) : Prop := ∀ key ∈ keys, d.get? key = d'.get? key

namespace AgreeOn

variable {keys : List String} {d d' : Dict R}

theorem refl (keys : List String) (d : Dict R) : AgreeOn keys d d := fun _ _ => rfl

/-- Putting values under a key, the same if the key counts. -/
theorem insert (h : AgreeOn keys d d') {key : String} {v v' : Value R} (hv : key ∈ keys → v = v') :
    AgreeOn keys (d.insert key v) (d'.insert key v') := by
  intro k hk
  rw [Table.get?_insert, Table.get?_insert]
  split
  · rename_i he
    rw [hv (he ▸ hk)]
  · exact h k hk

theorem erase (h : AgreeOn keys d d') (key : String) :
    AgreeOn keys (d.erase key) (d'.erase key) := by
  intro k hk
  rw [Table.get?_erase, Table.get?_erase]
  split
  · rfl
  · exact h k hk

end AgreeOn

/-! ## One conversion -/

namespace Schema

variable {S : Schema τ} {d d' : Dict R} {s t : S.State}

/-- The states agree on the selected fields. -/
def LookAlike (s t : S.State) : Prop := ∀ i, S.Selected i → s.get i = t.get i

/-- The dictionary of a state shows nothing but selected fields. -/
theorem toDict_eq_of_lookAlike (ho : S.OnlyFields) (h : LookAlike s t) :
    S.toDict s = S.toDict t := by
  have hvalue : ∀ m ∈ S.members, (m.key, m.value s) = (m.key, m.value t) := by
    intro m hm
    obtain ⟨i, hi⟩ := exists_selected_of_mem ho hm
    have hget : s.get i = t.get i := h i ⟨m, hi⟩
    obtain rfl := Field.eq_member_of_select hi
    exact congrArg (fun x => ((S.fields.get i).name, MemberTypes.toValue (FieldType S.fields i) x))
      hget
  rw [toDict, toDict, List.map_congr_left hvalue]

/-- What a dictionary says depends on nothing but the keys of the selected members. -/
theorem assignments_eq_of_agreeOn (h : AgreeOn S.keys d d') :
    S.assignments d = S.assignments d' := by
  refine mapM_congr fun m hm => ?_
  rw [Member.read, Member.read, Dict.getAs, Dict.getAs, h m.key (List.mem_map_of_mem hm)]

/-- A change answers the same. -/
theorem result_eq_of_agreeOn (h : AgreeOn S.keys d d') (s t : S.State) :
    (S.fromDict d s).1 = (S.fromDict d' t).1 := by
  rw [result_of_fromDict d s t, fromDict, fromDict, assignments_eq_of_agreeOn h]

/-- States that look alike still do after a change, whether it succeeds or not. -/
theorem lookAlike_fromDict (ho : S.OnlyFields) (h : LookAlike s t) (hd : AgreeOn S.keys d d') :
    LookAlike (S.fromDict d s).2 (S.fromDict d' t).2 := by
  have hresult := result_eq_of_agreeOn hd s t
  cases hr : (S.fromDict d s).1 with
  | error e =>
    rw [state_of_fromDict_error hr, state_of_fromDict_error (hresult.symm.trans hr)]
    exact h
  | ok _ =>
    -- A selected field now holds what its dictionary says under its name, a key that counts.
    rintro i ⟨m, hi⟩
    have hkey : (S.fields.get i).name ∈ S.keys := by
      rw [← key_of_field hi]
      exact List.mem_map_of_mem (mem_of_select hi)
    have hs := getAs_of_selected ho (Prod.ext hr rfl) hi
    have ht := getAs_of_selected ho (Prod.ext (hresult.symm.trans hr) rfl) hi
    rw [Dict.getAs, hd _ hkey, ← Dict.getAs, ht] at hs
    exact (Except.ok.inj hs).symm

end Schema

/-! ## One step -/

/-- The step writes no field but by a conversion. -/
def Step.Converts {S : Schema τ} : Step S → Prop
  | .restart _ | .assign _ _ => False
  | _ => True

/-- Two steps that do the same, with dictionaries and values that may differ under keys that no
selected member has.  Keeping and editing dictionaries for later is among them. -/
inductive Step.Alike {S : Schema τ} : Step S → Step S → Prop where
  | keys : Alike .keys .keys
  | toDict (call : Call) : Alike (.toDict call) (.toDict call)
  | fromGiven (call : Call) {d d' : Dict R} (h : AgreeOn S.keys d d') :
    Alike (.fromDict call (.given d)) (.fromDict call (.given d'))
  | fromKept (call : Call) (name : String) :
    Alike (.fromDict call (.kept name)) (.fromDict call (.kept name))
  | keep (call : Call) (name : String) : Alike (.keep call name) (.keep call name)
  | putKept (name key : String) {v v' : Value R} (h : key ∈ S.keys → v = v') :
    Alike (.putKept name key v) (.putKept name key v')
  | dropKept (name key : String) : Alike (.dropKept name key) (.dropKept name key)

theorem Step.Alike.converts {S : Schema τ} {t t' : Step S} (h : t.Alike t') :
    t.Converts ∧ t'.Converts := by
  cases h <;> exact ⟨trivial, trivial⟩

theorem converts_of_alike {S : Schema τ} {steps steps' : List (Step S)}
    (h : List.Forall₂ Step.Alike steps steps') :
    (∀ t ∈ steps, t.Converts) ∧ ∀ t ∈ steps', t.Converts := by
  induction h with
  | nil => exact ⟨List.forall_mem_nil _, List.forall_mem_nil _⟩
  | cons ht _ ih =>
    exact ⟨List.forall_mem_cons.mpr ⟨ht.converts.1, ih.1⟩,
      List.forall_mem_cons.mpr ⟨ht.converts.2, ih.2⟩⟩

namespace Session

variable {S : Schema τ}

/-- The records look alike, and so do the dictionaries at hand. -/
structure Alike (a b : Session S) : Prop where
  state : Schema.LookAlike a.state b.state
  kept : ∀ name, AgreeOn S.keys (a.dictOf (.kept name)) (b.dictOf (.kept name))

theorem dict_eq (session : Session S) (call : Call) :
    session.dict call = S.toDict session.state := by
  obtain ⟨style, boxed⟩ := call
  cases boxed <;> cases style <;> rfl

theorem dictOf_edit (session : Session S) (name other : String) (f : Dict R → Dict R) :
    (session.edit name f).dictOf (.kept other) =
      if other = name then f (session.dictOf (.kept name)) else session.dictOf (.kept other) := by
  change ((session.kept.insert name (f (session.dictOf (.kept name)))).get? other).getD .empty = _
  rw [Table.get?_insert]
  split <;> rfl

/-- Edits that keep dictionaries alike keep sessions alike. -/
theorem Alike.edit {a b : Session S} (h : Alike a b) (name : String) {f g : Dict R → Dict R}
    (hfg : AgreeOn S.keys (f (a.dictOf (.kept name))) (g (b.dictOf (.kept name)))) :
    Alike (a.edit name f) (b.edit name g) := by
  refine ⟨h.state, fun other => ?_⟩
  rw [dictOf_edit, dictOf_edit]
  split
  · exact hfg
  · exact h.kept other

theorem Alike.change (ho : S.OnlyFields) {a b : Session S} (h : Alike a b) (call : Call)
    {d d' : Dict R}
    (hd : AgreeOn S.keys d d') :
    (a.change call d).1 = (b.change call d').1 ∧
      Alike (a.change call d).2 (b.change call d').2 := by
  rw [change_eq, change_eq, Schema.result_eq_of_agreeOn hd a.state b.state]
  exact ⟨rfl, Schema.lookAlike_fromDict ho h.state hd, h.kept⟩

variable [OwnEquality R]

/-- **Alike steps of alike sessions are answered alike**, and leave them alike. -/
theorem Alike.step (ho : S.OnlyFields) {a b : Session S} (h : Alike a b) {t t' : Step S}
    (ht : t.Alike t') : (a.step t).1 = (b.step t').1 ∧ Alike (a.step t).2 (b.step t').2 := by
  have hdict (call : Call) : a.dict call = b.dict call := by
    rw [dict_eq, dict_eq, Schema.toDict_eq_of_lookAlike ho h.state]
  cases ht with
  | keys => exact ⟨rfl, h⟩
  | toDict call => exact ⟨congrArg Answer.dict (hdict call), h⟩
  | fromGiven call hd => exact h.change ho call hd
  | fromKept call name => exact h.change ho call (h.kept name)
  | keep call name =>
    refine ⟨rfl, h.edit name (f := fun _ => a.dict call) (g := fun _ => b.dict call) ?_⟩
    rw [hdict call]
    exact .refl S.keys _
  | putKept name key hv =>
    exact ⟨rfl, h.edit name (f := fun d => d.insert key _) (g := fun d => d.insert key _)
      ((h.kept name).insert hv)⟩
  | dropKept name key =>
    exact ⟨rfl, h.edit name (f := fun d => d.erase key) (g := fun d => d.erase key)
      ((h.kept name).erase key)⟩

/-- A conversion leaves the fields alone that are not selected. -/
theorem get_step_of_not_selected (ho : S.OnlyFields) (a : Session S) {t : Step S} (ht : t.Converts)
    {i : Fin S.fields.length} (hi : ¬ S.Selected i) : (a.step t).2.state.get i = a.state.get i := by
  cases t with
  | restart s => exact ht.elim
  | assign j x => exact ht.elim
  | fromDict call origin =>
    rw [step, change_eq]
    exact Schema.get_of_not_selected ho _ a.state hi
  | _ => rfl

/-! ## Whole runs -/

/-- What the steps of a run are answered. -/
def answers (session : Session S) : List (Step S) → List (Answer R)
  | [] => []
  | t :: ts => (session.step t).1 :: answers (session.step t).2 ts

section

variable (ho : S.OnlyFields) {a b : Session S} {steps steps' : List (Step S)}

include ho

theorem Alike.answers_eq (h : Alike a b) (hs : List.Forall₂ Step.Alike steps steps') :
    a.answers steps = b.answers steps' := by
  induction hs generalizing a b with
  | nil => rfl
  | cons ht _ ih =>
    obtain ⟨hanswer, hnext⟩ := h.step ho ht
    rw [answers, answers, hanswer, ih hnext]

theorem Alike.run (h : Alike a b) (hs : List.Forall₂ Step.Alike steps steps') :
    Alike (a.run steps) (b.run steps') := by
  induction hs generalizing a b with
  | nil => exact h
  | cons ht _ ih => exact ih (h.step ho ht).2

theorem get_run_of_not_selected (hs : ∀ t ∈ steps, t.Converts) {i : Fin S.fields.length}
    (hi : ¬ S.Selected i) : (a.run steps).state.get i = a.state.get i := by
  induction steps generalizing a with
  | nil => rfl
  | cons t ts ih =>
    obtain ⟨ht, hts⟩ := List.forall_mem_cons.mp hs
    rw [run_cons, ih hts, get_step_of_not_selected ho a ht hi]

/-- **Hidden state neither leaks nor is disturbed.**  Where all selected members are fields, take
two records that agree on the selected fields, and two runs of the same conversions on them, with
dictionaries that agree under the keys of the selected members.  The runs are answered alike step by
step, the records agree on the selected fields after every step, and in each run every other field
keeps what it held. -/
theorem run_alike (h : Alike a b) (hs : List.Forall₂ Step.Alike steps steps') :
    a.answers steps = b.answers steps' ∧
    ∀ n, Schema.LookAlike (a.run (steps.take n)).state (b.run (steps'.take n)).state ∧
      ∀ i, ¬ S.Selected i → (a.run (steps.take n)).state.get i = a.state.get i ∧
        (b.run (steps'.take n)).state.get i = b.state.get i := by
  refine ⟨h.answers_eq ho hs, fun n => ?_⟩
  have hn := List.forall₂_take n hs
  obtain ⟨hc, hc'⟩ := converts_of_alike hn
  exact ⟨(h.run ho hn).state, fun i hi =>
    ⟨get_run_of_not_selected ho hc hi, get_run_of_not_selected ho hc' hi⟩⟩

end

/-! ## A sample -/

namespace Gaps

open Catalogue (types urls)

/-- The sample type with gaps. -/
abbrev gaps : Catalogue.Sample types urls := Catalogue.gaps

/-- A record whose ignored and hidden fields hold the given numbers. -/
def start (ignored hidden : Int) : Session gaps.schema where
  state := (gaps.start.set ⟨0, by decide⟩ (.wrap .i8 ignored)).set ⟨2, by decide⟩
    (.wrap .i32 hidden)
  kept := .empty

/-- A dictionary that fits. -/
def given : Dict types := .ofList [("1", .integer (.wrap .i64 4)), ("3", .integer (.wrap .i64 5))]

/-- A change from a box that succeeds, one in the other style that fails, and the dictionary.  Both
changes have something to say of the ignored field too. -/
def steps (ignored : Value types) : List (Step gaps.schema) :=
  [.fromDict ⟨.conversion, true⟩ (.given (given.insert "0" ignored)),
    .fromDict ⟨.asAttribute, false⟩ (.given (Table.empty.insert "0" ignored)),
    .toDict ⟨.asAttribute, true⟩]

theorem agreeOn_ignored (d : Dict types) (v v' : Value types) :
    AgreeOn gaps.schema.keys (d.insert "0" v) (d.insert "0" v') :=
  (AgreeOn.refl _ d).insert fun h => absurd h (by decide)

/-- Two records with gaps differ in their ignored and hidden fields, and are told of the ignored
one. -/
theorem run_alike_gaps :
    gaps.schema.OnlyFields ∧ Alike (start 7 1) (start (-7) 2) ∧
    List.Forall₂ Step.Alike (steps (.boolean true)) (steps .undefined) ∧
    (start 7 1).answers (steps (.boolean true)) = (start (-7) 2).answers (steps .undefined) ∧
    ((start 7 1).run (steps (.boolean true))).state.get ⟨0, by decide⟩ = .wrap .i8 7 := by
  have ho : gaps.schema.OnlyFields := fun p hp => nomatch hp
  have hstart : Alike (start 7 1) (start (-7) 2) := by
    refine ⟨fun i hi => ?_, fun name => .refl _ _⟩
    match i with
    | ⟨1, _⟩ => rfl
    | ⟨3, _⟩ => rfl
    | ⟨0, _⟩ | ⟨2, _⟩ | ⟨4, _⟩ => exact nomatch hi.choose_spec
  have hsteps : List.Forall₂ Step.Alike (steps (.boolean true)) (steps .undefined) :=
    .cons (.fromGiven _ (agreeOn_ignored _ _ _)) (.cons (.fromGiven _ (agreeOn_ignored _ _ _))
      (.cons (.toDict _) .nil))
  obtain ⟨hanswers, hstates⟩ := run_alike ho hstart hsteps
  refine ⟨ho, hstart, hsteps, hanswers, ((hstates 3).2 ⟨0, by decide⟩ ?_).1.trans rfl⟩
  exact fun hi => nomatch hi.choose_spec

end Gaps

end Session

end KeyedRecord.Record
