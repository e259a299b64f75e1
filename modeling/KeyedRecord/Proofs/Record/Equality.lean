import KeyedRecord.Catalogue.Plain
import KeyedRecord.Proofs.Record.Laws
import KeyedRecord.Proofs.Value.Faithful

/-!
# Records compared by their dictionaries

Dictionaries are equal if they have equal values under the same keys.  So the dictionaries of two
states are equal exactly if every selected member holds equal things in them, where the types of the
members store different things as different values; and the dictionary of a state equals itself
exactly if no selected member bears a NaN: `equal_toDict_iff`.
-/

set_option autoImplicit false

namespace KeyedRecord

variable {R : Registry} {U : UrlFormat} [OwnEquality R]

/-- Equal dictionaries have equal values under the keys of either. -/
theorem Dict.equal_eq_true_iff {a b : Dict R} : Dict.equal a b = true ↔
    a.size = b.size ∧ ∀ key v, a.get? key = some v → ∃ w, b.get? key = some w ∧
      v.equal w = true := by
  unfold Dict.equal
  rw [Bool.and_eq_true, beq_iff_eq, List.all_eq_true]
  refine and_congr_right fun _ => ?_
  constructor
  · intro h key v hv
    have he := h (key, v) (Table.mem_entries_of_get? hv)
    dsimp only at he
    split at he
    · rename_i w hw
      exact ⟨w, hw, he⟩
    · cases he
  · rintro h ⟨key, v⟩ he
    obtain ⟨w, hw, hvw⟩ := h key v (Table.get?_of_mem he)
    simp only [hw]
    exact hvw

namespace Record.Schema

variable {τ : Type} [MemberTypes R τ] {S : Schema τ} {s t : S.State}

omit [OwnEquality R] in
/-- What stands under a key of the dictionary of a state is the value of the member with this key.
-/
theorem exists_member_of_get?_toDict {key : String} {v : Value R}
    (h : (S.toDict s).get? key = some v) :
    ∃ m ∈ S.members, m.key = key ∧ m.value s = v := by
  obtain ⟨before, after, hsplit, -⟩ := Table.get?_ofList_eq_some_iff.mp h
  have hmem : (key, v) ∈ S.members.map fun m => (m.key, m.value s) := by
    rw [hsplit]
    exact List.mem_append_right _ List.mem_cons_self
  obtain ⟨m, hm, he⟩ := List.mem_map.mp hmem
  exact ⟨m, hm, congrArg Prod.fst he, congrArg Prod.snd he⟩

/-- The dictionaries of two states are equal exactly if the values of all members are. -/
theorem equal_toDict_iff_values : Dict.equal (S.toDict s) (S.toDict t) = true ↔
    ∀ m ∈ S.members, (m.value s).equal (m.value t) = true := by
  rw [Dict.equal_eq_true_iff]
  constructor
  · rintro ⟨-, h⟩ m hm
    obtain ⟨w, hw, hvw⟩ := h m.key (m.value s) (get?_toDict s hm)
    rw [get?_toDict t hm] at hw
    cases hw
    exact hvw
  · intro h
    refine ⟨?_, fun key v hv => ?_⟩
    · rw [Table.size_eq_length_keys, Table.size_eq_length_keys, keys_toDict, keys_toDict]
    · obtain ⟨m, hm, rfl, rfl⟩ := exists_member_of_get?_toDict hv
      exact ⟨m.value t, get?_toDict t hm, h m hm⟩

/-- **Dictionaries decide whether members are equal.**  Two states have equal dictionaries exactly
if every selected member is equal in both, whatever the own equality of registered types is; and the
dictionary of a state equals itself exactly if no selected member bears a NaN, where the registered
types compare as well as values do. -/
theorem equal_toDict_iff [OwnNaN R] (S : Schema (MemberType R U))
    (hflat : ∀ m ∈ S.members, m.type.isFlat = true) :
    (∀ s t : S.State, Dict.equal (S.toDict s) (S.toDict t) = true ↔
      ∀ m ∈ S.members, m.type.equal (m.get s) (m.get t) = true) ∧
    (OwnEquality.IsLawful R → ∀ s : S.State,
      Dict.equal (S.toDict s) (S.toDict s) = true ↔
        ∀ m ∈ S.members, m.type.bearsNaN (m.get s) = false) := by
  have hvalues : ∀ s t : S.State, Dict.equal (S.toDict s) (S.toDict t) = true ↔
      ∀ m ∈ S.members, m.type.equal (m.get s) (m.get t) = true := by
    intro s t
    rw [equal_toDict_iff_values]
    refine forall₂_congr fun m hm => ?_
    rw [← MemberType.isFaithful_of_isFlat (hflat m hm)]
    rfl
  refine ⟨hvalues, fun hown s => ?_⟩
  rw [hvalues s s]
  exact forall₂_congr fun m _ => MemberType.equal_self_iff hown

/-! ## A sample -/

open Catalogue (types urls initialState published include_ reading bundle isLawful_types)

namespace Station

/-- A reading, a colour that may be missing, and any value; an exact reading is kept to itself. -/
abbrev fields : List (Field (MemberType types urls)) :=
  [⟨"level", .custom .reading, published⟩, ⟨"colour", .option (.custom .colour), published⟩,
    ⟨"more", .value, include_ Catalogue.hidden⟩, ⟨"exact", .custom .reading, Catalogue.hidden⟩]

/-- A station. -/
def schema : Schema (MemberType types urls) := ⟨fields, [], by decide⟩

/-- A station whose reading and bundle have these numbers in them. -/
def holding (level more : Double) : schema.State :=
  (initialState fields).set (0 : Fin 4) (reading "m" level)
    |>.set (2 : Fin 4) (Value.ofThing (bundle [.real more]))

end Station

/-- The sign of a zero in a payload does not change a dictionary, and neither does a reading that is
not selected.  A NaN in a payload makes a dictionary differ from itself, and so does one in a
bundle. -/
theorem equal_toDict_station :
    let zero := Binary.zero .double
    let nan := Binary.nan .double
    let exact := (Station.holding (zero true) (zero false)).set (3 : Fin 4) (reading "m" nan)
    (∀ m ∈ Station.schema.members, m.type.isFlat = true) ∧ OwnEquality.IsLawful types ∧
      Dict.equal (Station.schema.toDict exact)
        (Station.schema.toDict (Station.holding (zero false) (zero true))) = true ∧
      Dict.equal (Station.schema.toDict (Station.holding nan (zero true)))
        (Station.schema.toDict (Station.holding nan (zero true))) = false ∧
      Dict.equal (Station.schema.toDict (Station.holding (zero true) nan))
        (Station.schema.toDict (Station.holding (zero true) nan)) = false := by
  intro zero nan exact
  have hflat : ∀ m ∈ Station.schema.members, m.type.isFlat = true := by decide
  obtain ⟨hpair, hself⟩ := equal_toDict_iff Station.schema hflat
  refine ⟨hflat, isLawful_types, (hpair _ _).mpr (by decide), ?_, ?_⟩
  · rw [← Bool.not_eq_true, hself isLawful_types]
    decide
  · rw [← Bool.not_eq_true, hself isLawful_types]
    decide

end Record.Schema

end KeyedRecord
