import KeyedRecord.Proofs.Derive.Grouping

/-!
# The order of a property's items

A property is read exactly if each of its items is the writing of an entry and a name and a type are
among them.  Of each key with a value the last counts, and flags are set if they occur, so the order
matters only among items of one key: sorted by key, lists in both orders are the same
(`ofEntries_sorted`), and so is what is read from them.

Principal result: `readProperty_reordered`.
-/

set_option autoImplicit false

namespace KeyedRecord.Derive

open Source PropertyEntry

/-! ## What entries say -/

namespace PropertyEntry

theorem name?_eq_some_iff (e : PropertyEntry) (s : StringLiteral) :
    e.name? = some s ↔ e = .name s := by
  cases e <;> simp [name?]

theorem type?_eq_some_iff (e : PropertyEntry) (p : Phrase) : e.type? = some p ↔ e = .type p := by
  cases e <;> simp [type?]

theorem getter?_eq_some_iff (e : PropertyEntry) (n : String) :
    e.getter? = some n ↔ e = .getter n := by
  cases e <;> simp [getter?]

theorem setter?_eq_some_iff (e : PropertyEntry) (n : String) :
    e.setter? = some n ↔ e = .setter n := by
  cases e <;> simp [setter?]

theorem visibility?_eq_some_iff (e : PropertyEntry) (v : Visibility) :
    e.visibility? = some v ↔ e = .visibility v := by
  cases e <;> simp [visibility?]

end PropertyEntry

namespace PropertyAttributes

/-- The last value of each key counts, and flags that occur are set. -/
structure SaidBy (p : PropertyAttributes) (es : List PropertyEntry) : Prop where
  name : ∃ s, IsLast .name s es ∧ p.name = s.value ∧ p.nameSpan = s.span
  type : IsLast .type p.type es
  getter : ∀ n, p.getter = some n ↔ IsLast .getter n es
  setter : ∀ n, p.setter = some n ↔ IsLast .setter n es
  visibility : ∀ v, IsLast .visibility v es → p.visibility = v
  unrestricted : (∀ v, .visibility v ∉ es) → p.visibility = .unrestricted
  included : p.included = true ↔ .included ∈ es
  ignored : p.ignored = true ↔ .ignored ∈ es

theorem saidBy_of_ofEntries {es : List PropertyEntry} {p : PropertyAttributes}
    (h : ofEntries es = .ok p) : p.SaidBy es := by
  obtain ⟨s, type, hs, ht, rfl⟩ := ofEntries_eq_ok_iff.mp h
  refine {
    name := ⟨s, (lastOf_eq_some_iff name?_eq_some_iff).mp hs, rfl, rfl⟩
    type := (lastOf_eq_some_iff type?_eq_some_iff).mp ht
    getter := fun _ => lastOf_eq_some_iff getter?_eq_some_iff
    setter := fun _ => lastOf_eq_some_iff setter?_eq_some_iff
    visibility := fun v hv => ?_
    unrestricted := fun hnone => ?_
    included := List.contains_iff_mem
    ignored := List.contains_iff_mem }
  · rw [(lastOf_eq_some_iff visibility?_eq_some_iff).mpr hv]
    rfl
  · rw [(lastOf_eq_none_iff visibility?_eq_some_iff).mpr hnone]
    rfl

/-- A name and a type are enough. -/
theorem exists_ofEntries_iff {es : List PropertyEntry} :
    (∃ p, ofEntries es = .ok p) ↔ (∃ s, .name s ∈ es) ∧ ∃ t, .type t ∈ es := by
  have hlast : ∀ {β : Type} {f : PropertyEntry → Option β} {kind : β → PropertyEntry},
      (∀ e b, f e = some b ↔ e = kind b) → ((∃ b, lastOf f es = some b) ↔ ∃ b, kind b ∈ es) := by
    intro β f kind hf
    rw [← Option.isSome_iff_exists, ← Option.ne_none_iff_isSome, ne_eq, lastOf_eq_none_iff hf]
    simp
  rw [← hlast name?_eq_some_iff, ← hlast type?_eq_some_iff]
  constructor
  · rintro ⟨p, h⟩
    obtain ⟨s, type, hs, ht, -⟩ := ofEntries_eq_ok_iff.mp h
    exact ⟨⟨s, hs⟩, type, ht⟩
  · rintro ⟨⟨s, hs⟩, type, ht⟩
    exact ⟨_, ofEntries_eq_ok_iff.mpr ⟨s, type, hs, ht, rfl⟩⟩

end PropertyAttributes

/-! ## Items -/

section

variable {items : List (List Placed)} {inner : List Placed}

/-- A property in parentheses is read exactly if each item is the writing of an entry, and to the
end of the parentheses. -/
theorem readProperty_of_separated (hi : ∀ us ∈ items, IsItem us) (hs : Separated items inner)
    (key : PlainPath) (opens closes : Span) (d : Delimiter) {r r' : List Placed}
    {p : PropertyAttributes} :
    readProperty key (⟨.opening .paren, opens⟩ :: (inner ++ ⟨.closing d, closes⟩ :: r)) =
      .ok (p, r') ↔
    r' = r ∧ ∃ es, List.Forall₂ PropertyEntry.Written items es ∧
      PropertyAttributes.ofEntries es = .ok p := by
  have hargs : ∀ es, Arguments PropertyEntry.Written inner es ↔ List.Forall₂ _ items es := fun _ =>
    Arguments.forall₂_of_separated (fun _ _ => PropertyEntry.isItem_of_written) hs hi
  rw [readProperty_eq_ok_iff]
  constructor
  · rintro ⟨opens', d', closes', inner', es, he, -, hwritten, hes⟩
    -- both end where the brackets do
    have hwhole := hs.whole (fun us h => (hi us h).whole) 0 (⟨.closing d, closes⟩ :: r)
    have hwhole' := hwritten.whole (fun _ _ => PropertyEntry.whole_of_written) 0
      (⟨.closing d', closes'⟩ :: r')
    obtain ⟨-, he⟩ := List.cons.inj he
    rw [he, hwhole'] at hwhole
    have hparts : inner' = inner ∧ (d' = d ∧ closes' = closes) ∧ r' = r := by
      simpa [Reader.splitClosing] using hwhole
    obtain ⟨rfl, -, rfl⟩ := hparts
    exact ⟨rfl, es, (hargs es).mp hwritten, hes⟩
  · rintro ⟨rfl, es, hes, hp⟩
    have hne : es ≠ [] := by
      rintro rfl
      cases hp
    exact ⟨opens, d, closes, inner, es, rfl, hne, (hargs es).mpr hes, hp⟩

end

/-! ## Keys -/

namespace PropertyEntry

/-- The key of the entry. -/
def key : PropertyEntry → String
  | name _ => "name"
  | type _ => "ty"
  | getter _ => "get"
  | setter _ => "set"
  | visibility _ => "vis"
  | included => "include"
  | ignored => "ignore"

/-- An item starts with the key of its entry. -/
theorem head?_of_written {us : List Placed} {e : PropertyEntry} (h : Written us e) :
    (tokensOf us).head? = some (.ident e.key) := by
  have hvalue : ∀ {w : String} {s : StringLiteral}, IsValue w s us →
      (tokensOf us).head? = some (.ident w) := by
    rintro w s ⟨span, joint, eq, lit, rfl, -⟩
    rfl
  cases e with
  | name s => exact hvalue h
  | type | getter | setter | visibility =>
    obtain ⟨s, hs, -⟩ := h
    exact hvalue hs
  | included | ignored =>
    obtain ⟨span, rfl⟩ := h
    rfl

end PropertyEntry

/-- The keys of a property. -/
def propertyKeys : List String := ["name", "ty", "get", "set", "vis", "include", "ignore"]

/-- The entries of one key. -/
def ofKey (key : String) (es : List PropertyEntry) : List PropertyEntry :=
  es.filter (·.key == key)

/-- The entries sorted by key, those of one key in their order. -/
def sortedByKey (es : List PropertyEntry) : List PropertyEntry :=
  propertyKeys.flatMap (ofKey · es)

theorem mem_sortedByKey {e : PropertyEntry} {es : List PropertyEntry} :
    e ∈ sortedByKey es ↔ e ∈ es := by
  cases e <;> simp [sortedByKey, propertyKeys, ofKey, PropertyEntry.key]

/-- Entries of other keys give nothing for a key. -/
theorem filterMap_ofKey {β : Type} {f : PropertyEntry → Option β} {key : String}
    (hf : ∀ e, e.key ≠ key → f e = none) (key' : String) (es : List PropertyEntry) :
    (ofKey key' es).filterMap f = if key' = key then es.filterMap f else [] := by
  rw [ofKey, List.filterMap_filter]
  split
  · rename_i hkey
    refine congrArg (es.filterMap ·) (funext fun e => ?_)
    by_cases he : e.key = key'
    · simp [he]
    · simp [he, hf e (hkey ▸ he)]
  · rename_i hkey
    rw [List.filterMap_eq_nil_iff]
    intro e _
    by_cases he : e.key = key'
    · simp [he, hf e (he ▸ hkey)]
    · simp [he]

/-- The last value of a key is the last one of the sorted list. -/
theorem lastOf_sortedByKey {β : Type} {f : PropertyEntry → Option β} {kind : β → PropertyEntry}
    (hf : ∀ e b, f e = some b ↔ e = kind b) {key : String} (hkey : key ∈ propertyKeys)
    (hkind : ∀ b, (kind b).key = key) (es : List PropertyEntry) :
    lastOf f (sortedByKey es) = lastOf f es := by
  have hother : ∀ e, e.key ≠ key → f e = none := by
    intro e he
    cases hfe : f e with
    | none => rfl
    | some b => exact absurd ((hf e b).mp hfe ▸ hkind b) he
  have hsorted : (sortedByKey es).filterMap f = es.filterMap f := by
    rw [sortedByKey, List.filterMap_flatMap]
    simp only [filterMap_ofKey hother]
    simp only [propertyKeys, List.mem_cons, List.not_mem_nil, or_false] at hkey
    rcases hkey with rfl | rfl | rfl | rfl | rfl | rfl | rfl <;> simp [propertyKeys]
  rw [lastOf, hsorted, lastOf]

/-- **Sorted by key, entries say the same.** -/
theorem ofEntries_sortedByKey {es : List PropertyEntry} {p : PropertyAttributes} :
    PropertyAttributes.ofEntries (sortedByKey es) = .ok p ↔
      PropertyAttributes.ofEntries es = .ok p := by
  have hname := lastOf_sortedByKey name?_eq_some_iff (by simp [propertyKeys]) (fun _ => rfl) es
  have htype := lastOf_sortedByKey type?_eq_some_iff (by simp [propertyKeys]) (fun _ => rfl) es
  have hget := lastOf_sortedByKey getter?_eq_some_iff (by simp [propertyKeys]) (fun _ => rfl) es
  have hset := lastOf_sortedByKey setter?_eq_some_iff (by simp [propertyKeys]) (fun _ => rfl) es
  have hvis := lastOf_sortedByKey visibility?_eq_some_iff (by simp [propertyKeys]) (fun _ => rfl) es
  have hcontains : ∀ e, (sortedByKey es).contains e = es.contains e := by
    intro e
    rw [Bool.eq_iff_iff, List.contains_iff_mem, List.contains_iff_mem, mem_sortedByKey]
  simp only [ofEntries_eq_ok_iff, hname, htype, hget, hset, hvis, hcontains]

/-! ## Other orders -/

/-- The same items in another order, in which those that start alike keep theirs. -/
structure Rearranged (items items' : List (List Placed)) : Prop where
  perm : (items'.map tokensOf).Perm (items.map tokensOf)
  keyed : ∀ key, (items'.map tokensOf).filter (·.head? == some (.ident key)) =
    (items.map tokensOf).filter (·.head? == some (.ident key))

section

variable {items items' : List (List Placed)}

theorem Rearranged.symm (h : Rearranged items items') : Rearranged items' items :=
  ⟨h.perm.symm, fun key => (h.keyed key).symm⟩

theorem Rearranged.sameItems (h : Rearranged items items') : SameItems items items' :=
  fun _ => h.perm.mem_iff

theorem moved_of_map_tokensOf (h : items'.map tokensOf = items.map tokensOf) :
    List.Forall₂ Moved items items' := by
  induction items generalizing items' with
  | nil =>
    obtain rfl := List.map_eq_nil_iff.mp h
    exact .nil
  | cons us items ih =>
    obtain ⟨us', rest, rfl, hus, hrest⟩ := List.map_eq_cons_iff.mp h
    exact .cons hus (ih hrest)

/-- The items of one key are the writings of its entries. -/
theorem forall₂_ofKey {es : List PropertyEntry} (h : List.Forall₂ PropertyEntry.Written items es)
    (key : String) : List.Forall₂ PropertyEntry.Written
      (items.filter fun us => (tokensOf us).head? == some (.ident key)) (ofKey key es) := by
  refine List.rel_filter (fun us e hw => ?_) h
  show ((tokensOf us).head? == some (.ident key)) = true ↔ (e.key == key) = true
  rw [PropertyEntry.head?_of_written hw]
  simp

/-- Items in another order are written as the same entries of each key, up to places. -/
theorem Rearranged.exists_entries (h : Rearranged items items') {es : List PropertyEntry}
    (he : List.Forall₂ PropertyEntry.Written items es) :
    ∃ es', List.Forall₂ PropertyEntry.Written items' es' ∧
      (sortedByKey es').map PropertyEntry.unplaced =
        (sortedByKey es).map PropertyEntry.unplaced := by
  obtain ⟨es', he', -⟩ := propertyEntry_moves.exists_entries he h.sameItems.exists_moved
  refine ⟨es', he', ?_⟩
  have hkey : ∀ key, (ofKey key es').map PropertyEntry.unplaced =
      (ofKey key es).map PropertyEntry.unplaced := by
    intro key
    have hfilter := h.keyed key
    rw [List.filter_map, List.filter_map] at hfilter
    obtain ⟨es'', hes'', hu⟩ := propertyEntry_moves.forall₂ (moved_of_map_tokensOf hfilter)
      (forall₂_ofKey he key)
    rw [← hu, propertyEntry_reads.unique_list (forall₂_ofKey he' key) hes'']
  simp only [sortedByKey, List.map_flatMap, hkey]

/-- What is read in one order is read in the other, up to the place of the name. -/
theorem Rearranged.readProperty_ok (h : Rearranged items items') (hi : ∀ us ∈ items, IsItem us)
    (hi' : ∀ us ∈ items', IsItem us) {inner inner' : List Placed} (hs : Separated items inner)
    (hs' : Separated items' inner') (key key' : PlainPath) (opens opens' closes closes' : Span)
    (d d' : Delimiter) (r r' : List Placed) {p : PropertyAttributes} {rest : List Placed}
    (hp : readProperty key (⟨.opening .paren, opens⟩ :: (inner ++ ⟨.closing d, closes⟩ :: r)) =
      .ok (p, rest)) :
    ∃ p', readProperty key'
      (⟨.opening .paren, opens'⟩ :: (inner' ++ ⟨.closing d', closes'⟩ :: r')) =
      .ok (p', r') ∧ p'.unplaced = p.unplaced := by
  obtain ⟨-, es, hes, hread⟩ := (readProperty_of_separated hi hs key opens closes d).mp hp
  obtain ⟨es', hes', hu⟩ := h.exists_entries hes
  obtain ⟨p', hp', hplace⟩ := ofEntries_moved hu (ofEntries_sortedByKey.mpr hread)
  exact ⟨p', (readProperty_of_separated hi' hs' key' opens' closes' d').mpr
    ⟨rfl, es', hes', ofEntries_sortedByKey.mp hp'⟩, hplace⟩

end

theorem map_eq_ok {ε α β : Type} {f : α → β} {x : Except ε α} {b : β} :
    x.map f = .ok b ↔ ∃ a, x = .ok a ∧ f a = b := by
  cases x <;> simp [Except.map]

/-- **The order of a property's items does not matter.**  Where each item is the writing of an
entry, the property is read exactly if a name and a type occur, and says what the entries say; in
another order that keeps the items of each key in theirs it is read in the same way.  Where some
item is not, it is read in no order. -/
theorem readProperty_reordered {items items' : List (List Placed)} (hi : ∀ us ∈ items, IsItem us)
    (hi' : ∀ us ∈ items', IsItem us) {inner inner' : List Placed} (hs : Separated items inner)
    (hs' : Separated items' inner') (key key' : PlainPath) (opens opens' closes closes' : Span)
    (d d' : Delimiter) (r r' : List Placed) :
    let ts := ⟨.opening .paren, opens⟩ :: (inner ++ ⟨.closing d, closes⟩ :: r)
    let ts' := ⟨.opening .paren, opens'⟩ :: (inner' ++ ⟨.closing d', closes'⟩ :: r')
    (∀ es, List.Forall₂ PropertyEntry.Written items es →
      ((∃ p rest, readProperty key ts = .ok (p, rest)) ↔
        (∃ s, .name s ∈ es) ∧ ∃ t, .type t ∈ es) ∧
      ∀ p rest, readProperty key ts = .ok (p, rest) → rest = r ∧ p.SaidBy es) ∧
    (Rearranged items items' → Agree PropertyAttributes.unplaced
      ((readProperty key ts).map (·.1)) ((readProperty key' ts').map (·.1))) ∧
    ((∃ us ∈ items, ∀ e, ¬PropertyEntry.Written us e) →
      (items'.map tokensOf).Perm (items.map tokensOf) →
      (∀ p rest, readProperty key ts ≠ .ok (p, rest)) ∧
      ∀ p rest, readProperty key' ts' ≠ .ok (p, rest)) := by
  intro ts ts'
  have hread : ∀ {p rest}, readProperty key ts = .ok (p, rest) ↔ rest = r ∧ ∃ es, _ :=
    readProperty_of_separated hi hs key opens closes d
  have hread' : ∀ {p rest}, readProperty key' ts' = .ok (p, rest) ↔ rest = r' ∧ ∃ es, _ :=
    readProperty_of_separated hi' hs' key' opens' closes' d'
  refine ⟨fun es hes => ⟨?_, ?_⟩, fun h => agree_of_ok ?_ ?_, ?_⟩
  · rw [← PropertyAttributes.exists_ofEntries_iff]
    constructor
    · rintro ⟨p, rest, hp⟩
      obtain ⟨-, es', hes', hp⟩ := hread.mp hp
      exact ⟨p, propertyEntry_reads.unique_list hes hes' ▸ hp⟩
    · rintro ⟨p, hp⟩
      exact ⟨p, r, hread.mpr ⟨rfl, es, hes, hp⟩⟩
  · intro p rest hp
    obtain ⟨hrest, es', hes', hp⟩ := hread.mp hp
    obtain rfl := propertyEntry_reads.unique_list hes hes'
    exact ⟨hrest, PropertyAttributes.saidBy_of_ofEntries hp⟩
  · intro p hp
    obtain ⟨⟨_, rest⟩, hok, rfl⟩ := map_eq_ok.mp hp
    obtain ⟨p', hp', hu⟩ := h.readProperty_ok hi hi' hs hs' key key' opens opens' closes
      closes' d d'
      r r' hok
    exact ⟨p', map_eq_ok.mpr ⟨_, hp', rfl⟩, hu⟩
  · intro p' hp'
    obtain ⟨⟨_, rest⟩, hok, rfl⟩ := map_eq_ok.mp hp'
    obtain ⟨p, hp, -⟩ := h.symm.readProperty_ok hi' hi hs' hs key' key opens' opens
      closes' closes d'
      d r' r hok
    exact ⟨p, map_eq_ok.mpr ⟨_, hp, rfl⟩⟩
  · rintro ⟨us, hus, hbad⟩ hperm
    constructor
    · intro p rest hp
      obtain ⟨-, es, hes, -⟩ := hread.mp hp
      obtain ⟨e, -, hw⟩ := exists_mem_of_forall₂ hes hus
      exact hbad e hw
    · intro p rest hp
      obtain ⟨-, es, hes, -⟩ := hread'.mp hp
      obtain ⟨us', hus', htokens⟩ := List.mem_map.mp (hperm.mem_iff.mpr (List.mem_map_of_mem hus))
      obtain ⟨e, -, hw⟩ := exists_mem_of_forall₂ hes hus'
      obtain ⟨e', hw', -⟩ := propertyEntry_moves htokens.symm hw
      exact hbad e' hw'

/-- A key alone as an item. -/
def flagItem (key : String) : List Placed := [⟨.ident key, nowhere⟩]

/-- Items with commas between them. -/
def commaSeparated (items : List (List Placed)) : List Placed :=
  [⟨.punct ',' false, nowhere⟩].intercalate items

theorem separated_commaSeparated (items : List (List Placed)) :
    Separated items (commaSeparated items) := by
  induction items with
  | nil => exact .nil
  | cons us items ih =>
    cases items with
    | nil => simpa [commaSeparated] using Separated.last us
    | cons us' items => simpa [commaSeparated] using ih.cons false nowhere

/-- A property with two getters, of which the last counts. -/
def testItems : List (List Placed) :=
  [valueItem "get" "\"first\"", valueItem "name" "\"n\"", flagItem "include",
    valueItem "get" "\"last\"", valueItem "ty" "\"u8\""]

/-- The same items, the getters in their order. -/
def testReordered : List (List Placed) :=
  [valueItem "ty" "\"u8\"", valueItem "get" "\"first\"", valueItem "get" "\"last\"",
    flagItem "include", valueItem "name" "\"n\""]

/-- The items of a property between parentheses. -/
def testParentheses (items : List (List Placed)) : List Placed :=
  ⟨.opening .paren, nowhere⟩ :: (commaSeparated items ++ [⟨.closing .paren, nowhere⟩])

/-- The key of a property. -/
def testKey : PlainPath := ⟨false, [⟨.ident "property", nowhere⟩]⟩

theorem readProperty_reordered_getters :
    (∀ us ∈ testItems, IsItem us) ∧ (∀ us ∈ testReordered, IsItem us) ∧
    Rearranged testItems testReordered ∧
    readProperty testKey (testParentheses testItems) = .ok
      (⟨"n", nowhere, .word "u8", some "last", none, .unrestricted, true, false⟩, []) ∧
    Agree PropertyAttributes.unplaced
      ((readProperty testKey (testParentheses testItems)).map (·.1))
      ((readProperty testKey (testParentheses testReordered)).map (·.1)) := by
  have hflag : IsItem (flagItem "include") := IsFlag.isItem ⟨nowhere, rfl⟩
  have hname : IsItem (valueItem "name" "\"n\"") :=
    isItem_valueItem _ (s := ⟨"n", "", nowhere⟩) (by decide)
  have htype : IsItem (valueItem "ty" "\"u8\"") :=
    isItem_valueItem _ (s := ⟨"u8", "", nowhere⟩) (by decide)
  have hfirst : IsItem (valueItem "get" "\"first\"") :=
    isItem_valueItem _ (s := ⟨"first", "", nowhere⟩) (by decide)
  have hlast : IsItem (valueItem "get" "\"last\"") :=
    isItem_valueItem _ (s := ⟨"last", "", nowhere⟩) (by decide)
  have hi : ∀ us ∈ testItems, IsItem us := by simp [testItems, *]
  have hi' : ∀ us ∈ testReordered, IsItem us := by simp [testReordered, *]
  have horder : Rearranged testItems testReordered := by
    refine ⟨by decide, fun key => ?_⟩
    by_cases hkey : key ∈ propertyKeys
    · simp only [propertyKeys, List.mem_cons, List.not_mem_nil, or_false] at hkey
      rcases hkey with rfl | rfl | rfl | rfl | rfl | rfl | rfl <;> decide
    · have hne : ∀ w ∈ propertyKeys, (some (Token.ident w) == some (.ident key)) = false := by
        rintro w hw
        refine beq_false_of_ne fun he => hkey ?_
        cases he
        exact hw
      simp only [propertyKeys, List.forall_mem_cons] at hne
      simp [testItems, testReordered, valueItem, flagItem, tokensOf, hne]
  obtain ⟨-, hagree, -⟩ := readProperty_reordered hi hi' (separated_commaSeparated _)
    (separated_commaSeparated _) testKey testKey nowhere nowhere nowhere nowhere .paren .paren [] []
  exact ⟨hi, hi', horder, by decide +kernel, hagree horder⟩

end KeyedRecord.Derive
