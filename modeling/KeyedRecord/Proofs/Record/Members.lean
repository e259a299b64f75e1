import KeyedRecord.Record.Schema
import KeyedRecord.Proofs.Lists

/-!
# The selected members of a record

What a property or a field keeps when it is selected, and in which order the selected members stand.
-/

set_option autoImplicit false

namespace KeyedRecord.Record

variable {R : Registry} {τ : Type} [MemberTypes R τ]

namespace Schema

theorem key_of_property {fields : List (Field τ)} {p : Property fields} {m : Member fields}
    (h : p.select = some m) : m.key = p.key := by
  unfold Property.select at h
  split at h
  · split at h <;> cases h
    rfl
  · cases h

theorem key_of_field {fields : List (Field τ)} {i : Fin fields.length} {m : Member fields}
    (h : Field.select fields i = some m) : m.key = (fields.get i).name := by
  unfold Field.select at h
  split at h <;> cases h
  rfl

/-- Selected properties come before selected fields, each in the order of declaration. -/
theorem members_in_order (S : Schema τ) : ∃ ps fs, S.members = ps ++ fs ∧
    S.keys = ps.map Member.key ++ fs.map Member.key ∧
    (ps.map Member.key).Sublist (S.properties.map Property.key) ∧
    (fs.map Member.key).Sublist (S.fields.map Field.name) := by
  have names : (List.finRange S.fields.length).map (fun i => (S.fields.get i).name) =
      S.fields.map Field.name := List.ext_getElem (by simp) (by simp)
  refine ⟨S.properties.filterMap Property.select,
    (List.finRange S.fields.length).filterMap (Field.select S.fields), rfl,
    List.map_append, filterMap_names_sublist (fun _ _ => key_of_property) S.properties, ?_⟩
  rw [← names]
  exact filterMap_names_sublist (fun _ _ => key_of_field) (List.finRange S.fields.length)

/-- No two selected members have one key. -/
theorem nodup_keys (S : Schema τ) : S.keys.Nodup := by
  obtain ⟨ps, fs, -, hk, hp, hf⟩ := S.members_in_order
  rw [hk]
  exact S.keys_nodup.sublist (hp.append hf)

end Schema

end KeyedRecord.Record
