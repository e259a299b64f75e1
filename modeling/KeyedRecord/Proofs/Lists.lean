import Mathlib.Data.List.Forall2

/-!
# Lists that are gone through

A list that is gone through with a step that may fail: if no step fails the results are those of the
items one by one, and otherwise the failure is that of the first item whose step fails.  A list that
is gone through with a step that leaves items out keeps the order of the others.

Principal results: `mapM_eq_ok_iff` and `mapM_eq_error_iff`, and for lists of which one is thinned
out to the other `Thinned.filterMap_eq` and `Thinned.forall₂`.
-/

set_option autoImplicit false

namespace KeyedRecord

/-! ## Until something fails -/

section

variable {ε α β : Type} {f : α → Except ε β} {xs : List α}

theorem mapM_cons_ok {x : α} {y : β} (h : f x = .ok y) :
    (x :: xs).mapM f = (xs.mapM f).map (y :: ·) := by
  rw [List.mapM_cons, h]
  cases xs.mapM f <;> rfl

theorem mapM_cons_error {x : α} {e : ε} (h : f x = .error e) : (x :: xs).mapM f = .error e := by
  rw [List.mapM_cons, h]
  rfl

/-- No step fails exactly if the results are those of the items one by one. -/
theorem mapM_eq_ok_iff {ys : List β} :
    xs.mapM f = .ok ys ↔ List.Forall₂ (fun x y => f x = .ok y) xs ys := by
  induction xs generalizing ys with
  | nil => cases ys <;> simp [pure, Except.pure]
  | cons x xs ih =>
    cases hx : f x with
    | error e =>
      rw [mapM_cons_error hx]
      constructor
      · intro h
        cases h
      · intro h
        cases h with
        | cons h _ => rw [hx] at h; cases h
    | ok y =>
      rw [mapM_cons_ok hx]
      constructor
      · intro h
        cases hs : xs.mapM f with
        | error e => rw [hs] at h; cases h
        | ok zs =>
          rw [hs] at h
          cases h
          exact .cons hx (ih.mp hs)
      · intro h
        cases h with
        | cons h hs =>
          rw [ih.mpr hs]
          rw [hx] at h
          cases h
          rfl

/-- Steps that do the same with every item do the same with the list. -/
theorem mapM_congr {g : α → Except ε β} (h : ∀ x ∈ xs, f x = g x) : xs.mapM f = xs.mapM g := by
  induction xs with
  | nil => rfl
  | cons x xs ih =>
    rw [List.mapM_cons, List.mapM_cons, h x List.mem_cons_self,
      ih fun y hy => h y (List.mem_cons_of_mem x hy)]

/-- Every result is that of an item. -/
theorem exists_of_mem_mapM_ok {ys : List β} (h : xs.mapM f = .ok ys) {y : β} (hy : y ∈ ys) :
    ∃ x ∈ xs, f x = .ok y := by
  rw [mapM_eq_ok_iff] at h
  induction h with
  | nil => cases hy
  | cons h _ ih =>
    rcases List.mem_cons.mp hy with rfl | hy
    · exact ⟨_, List.mem_cons_self, h⟩
    · obtain ⟨x, hx, h⟩ := ih hy
      exact ⟨x, List.mem_cons_of_mem _ hx, h⟩

/-- **The first failure is the one that is reported.** -/
theorem mapM_eq_error_iff {e : ε} :
    xs.mapM f = .error e ↔ ∃ before x after, xs = before ++ x :: after ∧
      (∀ b ∈ before, ∃ y, f b = .ok y) ∧ f x = .error e := by
  induction xs with
  | nil => simp [pure, Except.pure]
  | cons x xs ih =>
    cases hx : f x with
    | error e' =>
      rw [mapM_cons_error hx]
      constructor
      · intro h
        cases h
        exact ⟨[], x, xs, rfl, by simp, hx⟩
      · rintro ⟨before, z, after, hs, hb, hz⟩
        cases before with
        | nil =>
          cases hs
          rw [hx] at hz
          cases hz
          rfl
        | cons b before =>
          cases hs
          obtain ⟨y, hy⟩ := hb x (by simp)
          rw [hx] at hy
          cases hy
    | ok y =>
      have hm : (xs.mapM f).map (y :: ·) = .error e ↔ xs.mapM f = .error e := by
        cases xs.mapM f <;> simp [Except.map]
      rw [mapM_cons_ok hx, hm, ih]
      constructor
      · rintro ⟨before, z, after, rfl, hb, hz⟩
        exact ⟨x :: before, z, after, rfl, List.forall_mem_cons.mpr ⟨⟨y, hx⟩, hb⟩, hz⟩
      · rintro ⟨before, z, after, hs, hb, hz⟩
        cases before with
        | nil =>
          cases hs
          rw [hx] at hz
          cases hz
        | cons b before =>
          cases hs
          exact ⟨before, z, after, rfl, fun b' hb' => hb b' (by simp [hb']), hz⟩

/-- Some result exists exactly if no step fails. -/
theorem exists_mapM_eq_ok : (∃ ys, xs.mapM f = .ok ys) ↔ ∀ x ∈ xs, ∃ y, f x = .ok y := by
  constructor
  · rintro ⟨ys, h⟩ x hx
    have hall := mapM_eq_ok_iff.mp h
    clear h
    induction hall with
    | nil => cases hx
    | cons h _ ih =>
      rcases List.mem_cons.mp hx with rfl | hx
      · exact ⟨_, h⟩
      · exact ih hx
  · intro h
    cases hs : xs.mapM f with
    | ok ys => exact ⟨ys, rfl⟩
    | error e =>
      obtain ⟨before, x, after, rfl, -, hx⟩ := mapM_eq_error_iff.mp hs
      obtain ⟨y, hy⟩ := h x (by simp)
      rw [hx] at hy
      cases hy

end

/-- If something belongs to each item, a list belongs to the items one by one. -/
theorem exists_forall₂ {α β : Type} {W : α → β → Prop} {as : List α} (h : ∀ a ∈ as, ∃ b, W a b) :
    ∃ bs, List.Forall₂ W as bs := by
  induction as with
  | nil => exact ⟨[], .nil⟩
  | cons a as ih =>
    obtain ⟨b, hb⟩ := h a List.mem_cons_self
    obtain ⟨bs, hbs⟩ := ih fun a' ha' => h a' (List.mem_cons_of_mem a ha')
    exact ⟨b :: bs, .cons hb hbs⟩

/-- What belongs to an item of a list is in the other list. -/
theorem exists_mem_of_forall₂ {α β : Type} {W : α → β → Prop} {as : List α} {bs : List β}
    (h : List.Forall₂ W as bs) {a : α} (ha : a ∈ as) : ∃ b ∈ bs, W a b := by
  induction h with
  | nil => cases ha
  | cons hab _ ih =>
    rcases List.mem_cons.mp ha with rfl | ha
    · exact ⟨_, List.mem_cons_self, hab⟩
    · obtain ⟨b, hb, hw⟩ := ih ha
      exact ⟨b, List.mem_cons_of_mem _ hb, hw⟩

/-- Lists that belong together through a third. -/
theorem forall₂_comp {α β γ : Type} {W : α → β → Prop} {V : α → γ → Prop} {T : β → γ → Prop}
    {as : List α} {bs : List β} {cs : List γ} (h : List.Forall₂ W as bs) (h' : List.Forall₂ V as cs)
    (hT : ∀ a b c, W a b → V a c → T b c) : List.Forall₂ T bs cs := by
  induction h generalizing cs with
  | nil =>
    cases h'
    exact .nil
  | cons hab _ ih =>
    cases h' with
    | cons hac h' => exact .cons (hT _ _ _ hab hac) (ih h')

/-- What is left of lists that belong together, where the same items are left out. -/
theorem forall₂_filterMap {α β γ δ : Type} {W : α → β → Prop} {T : γ → δ → Prop} {as : List α}
    {bs : List β} {f : α → Option γ} {g : β → Option δ} (h : List.Forall₂ W as bs)
    (hT : ∀ a b, W a b → Option.Rel T (f a) (g b)) :
    List.Forall₂ T (as.filterMap f) (bs.filterMap g) := by
  induction h with
  | nil => exact .nil
  | @cons a b as bs hab _ ih =>
    have hrel := hT a b hab
    generalize hfa : f a = c at hrel
    generalize hgb : g b = d at hrel
    cases hrel with
    | some hrel =>
      rw [List.filterMap_cons_some hfa, List.filterMap_cons_some hgb]
      exact .cons hrel ih
    | none =>
      rw [List.filterMap_cons_none hfa, List.filterMap_cons_none hgb]
      exact ih

/-! ## Leaving out -/

/-- If an item that is not left out keeps its name, the names that are left are some of all names,
in the same order. -/
theorem filterMap_names_sublist {α β γ : Type} {select : α → Option β} {name : α → γ}
    {name' : β → γ} (h : ∀ a b, select a = some b → name' b = name a) (as : List α) :
    ((as.filterMap select).map name').Sublist (as.map name) := by
  induction as with
  | nil => exact List.Sublist.slnil
  | cons a as ih =>
    cases hs : select a with
    | none =>
      rw [List.filterMap_cons_none hs]
      exact ih.cons _
    | some b =>
      rw [List.filterMap_cons_some hs, List.map_cons, List.map_cons, h a b hs]
      exact ih.cons_cons _

/-- The second list is the first without some items that `P` holds of, and with something in the
place of each other that `R` relates to it. -/
inductive Thinned {α β : Type} (P : α → Prop) (R : α → β → Prop) : List α → List β → Prop
  | nil : Thinned P R [] []
  | keep {a : α} {b : β} {as : List α} {bs : List β} :
    R a b → Thinned P R as bs → Thinned P R (a :: as) (b :: bs)
  | drop {a : α} {as : List α} {bs : List β} : P a → Thinned P R as bs → Thinned P R (a :: as) bs

namespace Thinned

variable {α β γ δ : Type} {P : α → Prop} {R : α → β → Prop} {as : List α} {bs : List β}

/-- Nothing is left out. -/
theorem of_forall₂ (h : List.Forall₂ R as bs) : Thinned P R as bs := by
  induction h with
  | nil => exact .nil
  | cons h _ ih => exact .keep h ih

/-- Nothing is left out, and only what `u` leaves out differs. -/
theorem of_map_eq {u : α → γ} {as' : List α} (h : as'.map u = as.map u) :
    Thinned P (fun a a' => u a' = u a) as as' := by
  have h : List.Forall₂ (· = ·) (as.map u) (as'.map u) := by
    rw [List.forall₂_eq_eq_eq]
    exact h.symm
  rw [List.forall₂_map_left_iff, List.forall₂_map_right_iff] at h
  exact of_forall₂ (h.imp fun _ _ h => h.symm)

/-- Everything is left out. -/
theorem of_forall (h : ∀ a ∈ as, P a) : Thinned P R as [] := by
  induction as with
  | nil => exact .nil
  | cons a as ih =>
    exact .drop (h a List.mem_cons_self) (ih fun b hb => h b (List.mem_cons_of_mem a hb))

theorem append {as' : List α} {bs' : List β} (h : Thinned P R as bs) (h' : Thinned P R as' bs') :
    Thinned P R (as ++ as') (bs ++ bs') := by
  induction h with
  | nil => exact h'
  | keep h _ ih => exact .keep h ih
  | drop h _ ih => exact .drop h ih

theorem map (h : Thinned P R as bs) {f : α → γ} {g : β → δ} {Q : γ → Prop} {T : γ → δ → Prop}
    (hP : ∀ a, P a → Q (f a)) (hR : ∀ a b, R a b → T (f a) (g b)) :
    Thinned Q T (as.map f) (bs.map g) := by
  induction h with
  | nil => exact .nil
  | keep h _ ih => exact .keep (hR _ _ h) ih
  | drop h _ ih => exact .drop (hP _ h) ih

theorem filterMap (h : Thinned P R as bs) {f : α → Option γ} {g : β → Option δ} {Q : γ → Prop}
    {T : γ → δ → Prop} (hP : ∀ a c, P a → f a = some c → Q c)
    (hR : ∀ a b, R a b → Option.Rel T (f a) (g b)) :
    Thinned Q T (as.filterMap f) (bs.filterMap g) := by
  induction h with
  | nil => exact .nil
  | @keep a b as bs h _ ih =>
    have hrel := hR a b h
    generalize hfa : f a = c at hrel
    generalize hgb : g b = d at hrel
    cases hrel with
    | some hrel =>
      rw [List.filterMap_cons_some hfa, List.filterMap_cons_some hgb]
      exact .keep hrel ih
    | none =>
      rw [List.filterMap_cons_none hfa, List.filterMap_cons_none hgb]
      exact ih
  | @drop a as bs h _ ih =>
    cases hfa : f a with
    | none =>
      rw [List.filterMap_cons_none hfa]
      exact ih
    | some c =>
      rw [List.filterMap_cons_some hfa]
      exact .drop (hP a c h hfa) ih

/-- What says nothing about the items left out, and the same about the others, says the same. -/
theorem filterMap_eq (h : Thinned P R as bs) {f : α → Option γ} {g : β → Option γ}
    (hP : ∀ a, P a → f a = none) (hR : ∀ a b, R a b → f a = g b) :
    as.filterMap f = bs.filterMap g := by
  induction h with
  | nil => rfl
  | keep h _ ih => rw [List.filterMap_cons, List.filterMap_cons, hR _ _ h, ih]
  | drop h _ ih => rw [List.filterMap_cons_none (hP _ h), ih]

/-- The names that are left stand in the order of all names. -/
theorem map_sublist (h : Thinned P R as bs) {f : α → γ} {g : β → γ}
    (hR : ∀ a b, R a b → f a = g b) :
    (bs.map g).Sublist (as.map f) := by
  induction h with
  | nil => exact .slnil
  | keep h _ ih =>
    rw [List.map_cons, List.map_cons, hR _ _ h]
    exact ih.cons_cons _
  | drop _ _ ih => exact ih.cons _

/-- What the items are read as is thinned with them. -/
theorem forall₂ (h : Thinned P R as bs) {W : α → γ → Prop} {V : β → δ → Prop} {Q : γ → Prop}
    {T : γ → δ → Prop} {cs : List γ} (hc : List.Forall₂ W as cs) (hP : ∀ a c, P a → W a c → Q c)
    (hR : ∀ a b c, R a b → W a c → ∃ d, V b d ∧ T c d) :
    ∃ ds, List.Forall₂ V bs ds ∧ Thinned Q T cs ds := by
  induction h generalizing cs with
  | nil =>
    cases hc
    exact ⟨[], .nil, .nil⟩
  | keep h _ ih =>
    cases hc with
    | cons hac hc =>
      obtain ⟨ds, hds, ht⟩ := ih hc
      obtain ⟨d, hd, hcd⟩ := hR _ _ _ h hac
      exact ⟨d :: ds, .cons hd hds, .keep hcd ht⟩
  | drop h _ ih =>
    cases hc with
    | cons hac hc =>
      obtain ⟨ds, hds, ht⟩ := ih hc
      exact ⟨ds, hds, .drop (hP _ _ h hac) ht⟩

end Thinned

end KeyedRecord
