/-!
# Tables

A table holds a thing under each of its keys.  Keys are distinct and stay in the order in which they
first came; a thing that comes under a key again takes the place of the earlier one.

What a table answers after an operation is said by `get?_empty`, `get?_insert` and `get?_erase`, and
what its keys are by `keys_insert` and `keys_erase`.

A `Dict` is such a table (a `HashMap` from texts to values, whose order nobody may rely on), and so
are the `units` of a `TokenSink`, whose order is that of its output.
-/

set_option autoImplicit false

namespace KeyedRecord

/-! ## Lists of entries -/

namespace Entries

variable {α : Type}

/-- The keys of a list of entries. -/
def keys (es : List (String × α)) : List String := es.map Prod.fst

/-- The entries with a thing under a key, in place of one that is there. -/
def put (key : String) (a : α) : List (String × α) → List (String × α)
  | [] => [(key, a)]
  | (k, b) :: es => if k = key then (k, a) :: es else (k, b) :: put key a es

/-- The entries without those under a key. -/
def remove (key : String) (es : List (String × α)) : List (String × α) :=
  es.filter fun e => e.1 != key

theorem keys_put (key : String) (a : α) (es : List (String × α)) :
    keys (put key a es) = if key ∈ keys es then keys es else keys es ++ [key] := by
  induction es with
  | nil => simp [put, keys]
  | cons e es ih =>
    obtain ⟨k, b⟩ := e
    by_cases h : k = key
    · simp [put, keys, h]
    · have h' : ¬ key = k := fun e => h e.symm
      simp only [keys] at ih
      by_cases hm : key ∈ es.map Prod.fst <;> simp [put, keys, h, h', ih, hm]

theorem nodup_keys_put (key : String) (a : α) {es : List (String × α)} (h : (keys es).Nodup) :
    (keys (put key a es)).Nodup := by
  rw [keys_put]
  split
  · exact h
  · rename_i hk
    rw [List.nodup_append]
    exact ⟨h, by simp, fun a ha b hb => by
      rw [List.mem_singleton] at hb; subst hb; exact fun e => hk (e ▸ ha)⟩

theorem keys_remove (key : String) (es : List (String × α)) :
    keys (remove key es) = (keys es).filter (· != key) := by
  induction es with
  | nil => rfl
  | cons e es ih =>
    simp only [keys, remove, List.filter_cons, List.map_cons] at ih ⊢
    split <;> simp [ih]

theorem nodup_keys_remove (key : String) {es : List (String × α)} (h : (keys es).Nodup) :
    (keys (remove key es)).Nodup := by
  rw [keys_remove]
  exact h.filter _

theorem lookup_cons (k : String) (e : String × α) (es : List (String × α)) :
    (e :: es).lookup k = if k = e.1 then some e.2 else es.lookup k := by
  obtain ⟨j, b⟩ := e
  rw [List.lookup_cons]
  by_cases h : k = j
  · rw [beq_iff_eq.mpr h, if_pos h]
  · rw [beq_eq_false_iff_ne.mpr h, if_neg h]

theorem lookup_put (key k : String) (a : α) (es : List (String × α)) :
    (put key a es).lookup k = if k = key then some a else es.lookup k := by
  induction es with
  | nil => rw [put, lookup_cons]
  | cons e es ih =>
    obtain ⟨j, b⟩ := e
    unfold put
    split
    · rename_i h; subst h; simp only [lookup_cons]; split <;> rfl
    · rename_i h
      simp only [lookup_cons, ih]
      by_cases hk : k = j
      · subst hk; simp [h]
      · simp [hk]

theorem lookup_remove (key k : String) (es : List (String × α)) :
    (remove key es).lookup k = if k = key then none else es.lookup k := by
  induction es with
  | nil => simp [remove]
  | cons e es ih =>
    obtain ⟨j, b⟩ := e
    simp only [remove, List.filter_cons] at ih ⊢
    by_cases h : j = key
    · subst h
      simp only [bne_self_eq_false, Bool.false_eq_true, ↓reduceIte, ih, lookup_cons]
      by_cases hk : k = j <;> simp [hk]
    · simp only [bne_iff_ne, ne_eq, h, not_false_eq_true, ↓reduceIte, lookup_cons, ih]
      by_cases hk : k = j
      · subst hk; simp [h]
      · simp [hk]

end Entries

/-! ## Tables -/

/-- Things under distinct keys, in order. -/
structure Table (α : Type) where
  entries : List (String × α)
  nodup : (Entries.keys entries).Nodup
  deriving DecidableEq

namespace Table

variable {α : Type}

/-- No things. -/
def empty : Table α := ⟨[], List.nodup_nil⟩

instance : Inhabited (Table α) := ⟨empty⟩

/-- The keys, in order. -/
def keys (t : Table α) : List String := Entries.keys t.entries

/-- The number of keys. -/
def size (t : Table α) : Nat := t.entries.length

/-- The thing under a key. -/
def get? (t : Table α) (key : String) : Option α := t.entries.lookup key

/-- Put a thing under a key. -/
def insert (t : Table α) (key : String) (a : α) : Table α :=
  ⟨Entries.put key a t.entries, Entries.nodup_keys_put key a t.nodup⟩

/-- Take away what is under a key. -/
def erase (t : Table α) (key : String) : Table α :=
  ⟨Entries.remove key t.entries, Entries.nodup_keys_remove key t.nodup⟩

/-- The table of a list of entries, of which a later one takes the place of an earlier one. -/
def ofList (es : List (String × α)) : Table α := es.foldl (fun t e => t.insert e.1 e.2) empty

@[simp] theorem get?_empty (key : String) : (empty : Table α).get? key = none := rfl

@[simp] theorem keys_empty : (empty : Table α).keys = [] := rfl

theorem get?_insert (t : Table α) (key k : String) (a : α) :
    (t.insert key a).get? k = if k = key then some a else t.get? k :=
  Entries.lookup_put key k a t.entries

theorem get?_erase (t : Table α) (key k : String) :
    (t.erase key).get? k = if k = key then none else t.get? k :=
  Entries.lookup_remove key k t.entries

theorem keys_insert (t : Table α) (key : String) (a : α) :
    (t.insert key a).keys = if key ∈ t.keys then t.keys else t.keys ++ [key] :=
  Entries.keys_put key a t.entries

theorem keys_erase (t : Table α) (key : String) :
    (t.erase key).keys = t.keys.filter (· != key) :=
  Entries.keys_remove key t.entries

theorem size_eq_length_keys (t : Table α) : t.size = t.keys.length := by
  simp [size, keys, Entries.keys]

end Table

end KeyedRecord
