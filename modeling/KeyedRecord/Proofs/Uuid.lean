import KeyedRecord.Uuid
import KeyedRecord.Proofs.Text.Digits

/-!
# Identifiers that are read back

The written form of an identifier is the first of the forms that are read, group by group.

Principal result: `parse?_text`.
-/

set_option autoImplicit false

namespace KeyedRecord.Uuid

theorem digit?_hexDigit (d : Fin 16) : digit? (Text.hexDigit d.val) = some d := by
  unfold digit?
  rw [Text.hexValue?_hexDigit d.isLt]
  exact dif_pos d.isLt

/-- As many digits as there are, whatever follows. -/
theorem readDigits_append (ds : List (Fin 16)) (rest : List Char) :
    readDigits ds.length (ds.map (fun d => Text.hexDigit d.val) ++ rest) = some (ds, rest) := by
  induction ds with
  | nil => rfl
  | cons d ds ih =>
    rw [List.map_cons, List.cons_append, List.length_cons, readDigits, digit?_hexDigit, ih]
    rfl

/-- The first digits of a list. -/
theorem readDigits_take {n : Nat} {ds : List (Fin 16)} (h : n ≤ ds.length) (rest : List Char) :
    readDigits n ((ds.take n).map (fun d => Text.hexDigit d.val) ++ rest) =
      some (ds.take n, rest) := by
  have hlen : (ds.take n).length = n := by rw [List.length_take]; omega
  have := readDigits_append (ds.take n) rest
  rwa [hlen] at this

/-- Groups are read back if they have room for exactly the digits. -/
theorem readGrouped_grouped {sizes : List Nat} {ds : List (Fin 16)}
    (h : ds.length = sizes.foldr (· + ·) 0) : readGrouped sizes (grouped sizes ds) = some ds := by
  fun_induction grouped sizes ds with
  | case1 ds =>
    obtain rfl := List.eq_nil_of_length_eq_zero h
    rfl
  | case2 n ds =>
    have hn : n = ds.length := h.symm
    have hread := readDigits_take (Nat.le_of_eq hn) []
    rw [List.append_nil] at hread
    rw [readGrouped, hread, hn, List.take_length]
    rfl
  | case3 n sizes ds hne ih =>
    rw [List.foldr_cons] at h
    have hn : n ≤ ds.length := by omega
    have hrest : (ds.drop n).length = sizes.foldr (· + ·) 0 := by rw [List.length_drop]; omega
    rw [readGrouped, readDigits_take hn]
    · simp only [Option.bind_eq_bind, Option.bind_some, ih hrest, Option.pure_def,
        List.take_append_drop]
    · exact hne

/-- **Every identifier is read back from its written form.** -/
theorem parse?_text (u : Uuid) : parse? u.text = some u := by
  have hsize : u.digits.length = groupSizes.foldr (· + ·) 0 := u.size
  have hforms : readForms (grouped groupSizes u.digits) = some u.digits := by
    unfold readForms
    rw [readGrouped_grouped hsize]
    rfl
  unfold parse? text
  rw [String.toList_ofList, hforms]
  exact dif_pos u.size

end KeyedRecord.Uuid
