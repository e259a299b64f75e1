import Mathlib.Data.List.Induction
import KeyedRecord.Table

/-!
# Tables that are filled from lists

A table that is filled from a list has the keys of the list in the order in which they first came,
and under each of them what came last.  Where no key comes twice, these are exactly the entries of
the list, and the order in which they came does not matter for what stands under a key.

Principal results: `keys_ofList`, `get?_ofList` and `get?_ofList_perm`.
-/

set_option autoImplicit false

namespace KeyedRecord.Table

variable {α : Type}

/-- The table with entries put into it, one after the other. -/
def insertAll (t : Table α) (es : List (String × α)) : Table α :=
  es.foldl (fun t e => t.insert e.1 e.2) t

theorem ofList_eq (es : List (String × α)) : ofList es = empty.insertAll es := rfl

theorem keys_insertAll {t : Table α} {es : List (String × α)}
    (h : (t.keys ++ es.map Prod.fst).Nodup) : (t.insertAll es).keys = t.keys ++
      es.map Prod.fst := by
  induction es generalizing t with
  | nil => simp [insertAll]
  | cons e es ih =>
    have hnew : e.1 ∉ t.keys := by
      intro hmem
      exact (List.nodup_append.mp h).2.2 e.1 hmem e.1 (by simp) rfl
    have hkeys : (t.insert e.1 e.2).keys = t.keys ++ [e.1] := by
      rw [keys_insert, if_neg hnew]
    have hrest : ((t.insert e.1 e.2).keys ++ es.map Prod.fst).Nodup := by
      rw [hkeys, List.append_assoc]
      exact h
    calc (t.insertAll (e :: es)).keys = ((t.insert e.1 e.2).insertAll es).keys := rfl
      _ = (t.insert e.1 e.2).keys ++ es.map Prod.fst := ih hrest
      _ = t.keys ++ (e :: es).map Prod.fst := by rw [hkeys, List.append_assoc]; rfl

theorem get?_insertAll_of_not_mem {t : Table α} {es : List (String × α)} {key : String}
    (h : key ∉ es.map Prod.fst) : (t.insertAll es).get? key = t.get? key := by
  induction es generalizing t with
  | nil => rfl
  | cons e es ih =>
    simp only [List.map_cons, List.mem_cons, not_or] at h
    calc (t.insertAll (e :: es)).get? key = ((t.insert e.1 e.2).insertAll es).get? key := rfl
      _ = (t.insert e.1 e.2).get? key := ih h.2
      _ = t.get? key := by rw [get?_insert, if_neg h.1]

theorem get?_insertAll {t : Table α} {es : List (String × α)} (h : (es.map Prod.fst).Nodup)
    {e : String × α} (he : e ∈ es) : (t.insertAll es).get? e.1 = some e.2 := by
  induction es generalizing t with
  | nil => cases he
  | cons e' es ih =>
    rw [List.map_cons, List.nodup_cons] at h
    rcases List.mem_cons.mp he with rfl | he
    · have hlast : ((t.insert e.1 e.2).insertAll es).get? e.1 = (t.insert e.1 e.2).get? e.1 :=
        get?_insertAll_of_not_mem h.1
      rw [get?_insert, if_pos rfl] at hlast
      exact hlast
    · exact ih h.2 he

theorem keys_ofList {es : List (String × α)} (h : (es.map Prod.fst).Nodup) :
    (ofList es).keys = es.map Prod.fst := by
  rw [ofList_eq, keys_insertAll]
  · rfl
  · simpa using h

theorem get?_ofList {es : List (String × α)} (h : (es.map Prod.fst).Nodup) {e : String × α}
    (he : e ∈ es) : (ofList es).get? e.1 = some e.2 :=
  get?_insertAll h he

/-- Under the key of an entry of a table stands the thing of the entry. -/
theorem get?_of_mem {t : Table α} {e : String × α} (h : e ∈ t.entries) :
    t.get? e.1 = some e.2 := by
  obtain ⟨es, hn⟩ := t
  change es.lookup e.1 = some e.2
  change e ∈ es at h
  induction es with
  | nil => cases h
  | cons f es ih =>
    obtain ⟨hf, hn⟩ := List.nodup_cons.mp hn
    rw [Entries.lookup_cons]
    rcases List.mem_cons.mp h with rfl | h
    · rw [if_pos rfl]
    · have hne : e.1 ≠ f.1 := fun he => hf (he ▸ List.mem_map_of_mem h)
      rw [if_neg hne]
      exact ih hn h

theorem mem_entries_of_get? {t : Table α} {key : String} {a : α} (h : t.get? key = some a) :
    (key, a) ∈ t.entries := by
  obtain ⟨before, after, hsplit, -⟩ := List.lookup_eq_some_iff.mp h
  rw [hsplit]
  exact List.mem_append_right _ List.mem_cons_self

theorem mem_keys_of_get? {t : Table α} {key : String} {a : α} (h : t.get? key = some a) :
    key ∈ t.keys :=
  List.mem_map_of_mem (mem_entries_of_get? h)

/-! ## Keys that come again -/

theorem ofList_concat (es : List (String × α)) (e : String × α) :
    ofList (es ++ [e]) = (ofList es).insert e.1 e.2 :=
  List.foldl_append

/-- Keys stand in the order in which they first came. -/
theorem keys_ofList_eq (es : List (String × α)) :
    (ofList es).keys = (es.map Prod.fst).eraseDups := by
  induction es using List.reverseRecOn with
  | nil => rfl
  | append_singleton es e ih =>
    have hmem : e.1 ∈ (es.map Prod.fst).eraseDups ↔ e.1 ∈ es.map Prod.fst := List.mem_eraseDups
    rw [ofList_concat, keys_insert, ih, List.map_append, List.eraseDups_append]
    by_cases h : e.1 ∈ es.map Prod.fst
    · rw [if_pos (hmem.mpr h)]
      simp [List.removeAll, h]
    · rw [if_neg (mt hmem.mp h)]
      simp [List.removeAll, List.eraseDups_cons, h]

/-- Under a key stands what came last under it. -/
theorem get?_ofList_eq_some_iff {es : List (String × α)} {key : String} {a : α} :
    (ofList es).get? key = some a ↔
      ∃ before after, es = before ++ (key, a) :: after ∧ key ∉ after.map Prod.fst := by
  constructor
  · intro h
    induction es using List.reverseRecOn with
    | nil => cases h
    | append_singleton es e ih =>
      rw [ofList_concat, get?_insert] at h
      split at h
      · rename_i hk
        cases h
        exact ⟨es, [], by rw [hk], List.not_mem_nil⟩
      · rename_i hk
        obtain ⟨before, after, rfl, hlast⟩ := ih h
        refine ⟨before, after ++ [e], by rw [List.append_assoc, List.cons_append], ?_⟩
        rw [List.map_append, List.mem_append, not_or, List.map_singleton, List.mem_singleton]
        exact ⟨hlast, hk⟩
  · rintro ⟨before, after, rfl, hlast⟩
    have hsplit : ofList (before ++ (key, a) :: after) =
        ((ofList before).insert key a).insertAll after := List.foldl_append
    rw [hsplit, get?_insertAll_of_not_mem hlast, get?_insert, if_pos rfl]

/-- Where keys are distinct, what stands under a key does not depend on the order. -/
theorem get?_ofList_perm {es es' : List (String × α)} (h : es.Perm es')
    (hn : (es.map Prod.fst).Nodup) (key : String) :
    (ofList es).get? key = (ofList es').get? key := by
  have key_iff {fs : List (String × α)} (hf : (fs.map Prod.fst).Nodup) (a : α) :
      (ofList fs).get? key = some a ↔ (key, a) ∈ fs := by
    constructor
    · intro hget
      obtain ⟨before, after, rfl, -⟩ := get?_ofList_eq_some_iff.mp hget
      exact List.mem_append_right _ List.mem_cons_self
    · exact get?_ofList hf
  refine Option.ext fun a => ?_
  rw [key_iff hn, key_iff (hn.perm (h.map Prod.fst)), h.mem_iff]

end KeyedRecord.Table
