import KeyedRecord.Proofs.Record.Members

/-!
# Writing members one after the other

What a state holds when some of its members have been written in order.  A field that is not among
them keeps what it held, and a field that is among them holds what was written to it, whatever was
written before.

Principal results: `writeAll_fields_takes` and `writeAll_fields_keeps`.
-/

set_option autoImplicit false

namespace KeyedRecord.Record

variable {R : Registry} {τ : Type} [MemberTypes R τ] {fields : List (Field τ)}

/-- The field at a position as a member. -/
def Field.member (fields : List (Field τ)) (i : Fin fields.length) : Member fields :=
  ⟨(fields.get i).name, FieldType fields i, fun s => s.get i, fun x s => s.set i x⟩

theorem Field.eq_member_of_select {i : Fin fields.length} {m : Member fields}
    (h : Field.select fields i = some m) : m = Field.member fields i := by
  unfold Field.select at h
  split at h <;> cases h
  rfl

/-- The state after a thing has been written to each of some members. -/
def writeAll (thing : (m : Member fields) → m.Carrier) (ms : List (Member fields))
    (t : State fields) : State fields :=
  ms.foldl (fun t m => m.set (thing m) t) t

section

variable (thing : (m : Member fields) → m.Carrier) (t : State fields)

theorem writeAll_cons (m : Member fields) (ms : List (Member fields)) :
    writeAll thing (m :: ms) t = writeAll thing ms (m.set (thing m) t) := rfl

variable {is : List (Fin fields.length)} {i : Fin fields.length}

/-- A field that is not written, or not selected, is left alone. -/
theorem writeAll_fields_keeps (hi : i ∉ is ∨ Field.select fields i = none) :
    (writeAll thing (is.filterMap (Field.select fields)) t).get i = t.get i := by
  induction is generalizing t with
  | nil => rfl
  | cons j is ih =>
    have hrest : i ∉ is ∨ Field.select fields i = none :=
      hi.imp_left fun h hm => h (List.mem_cons_of_mem j hm)
    cases hm : Field.select fields j with
    | none =>
      rw [List.filterMap_cons_none hm]
      exact ih t hrest
    | some m =>
      have hne : j ≠ i := by
        rintro rfl
        rcases hi with hi | hi
        · exact hi List.mem_cons_self
        · rw [hm] at hi
          cases hi
      rw [List.filterMap_cons_some hm, writeAll_cons, ih _ hrest, Field.eq_member_of_select hm]
      exact State.get_set_of_ne t _ hne

/-- A selected field holds what is written to it. -/
theorem writeAll_fields_takes (hmem : i ∈ is) {m : Member fields}
    (hi : Field.select fields i = some m) :
    (writeAll thing (is.filterMap (Field.select fields)) t).get i =
      thing (Field.member fields i) := by
  induction is generalizing t with
  | nil => cases hmem
  | cons j is ih =>
    by_cases htail : i ∈ is
    · cases hj : Field.select fields j with
      | none =>
        rw [List.filterMap_cons_none hj]
        exact ih t htail
      | some n =>
        rw [List.filterMap_cons_some hj, writeAll_cons]
        exact ih _ htail
    · obtain rfl : i = j := (List.mem_cons.mp hmem).resolve_right htail
      rw [List.filterMap_cons_some hi, writeAll_cons,
        writeAll_fields_keeps thing _ (.inl htail), Field.eq_member_of_select hi]
      exact State.get_set_self t i _

end

end KeyedRecord.Record
