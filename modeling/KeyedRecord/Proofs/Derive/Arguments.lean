import KeyedRecord.Proofs.Derive.ArgumentTokens

/-!
# The arguments of helper attributes

What may stand in a helper attribute, without the readers: an argument is a key alone, a key with a
string, or a key with arguments of its own in parentheses, and arguments have commas between them.
Each kind of entry has its `Written`, the stretches of tokens that it is written as.

The readers take exactly these stretches, before a comma as at the end of the brackets, so arguments
can be looked at one by one: `entries_eq_ok_iff`.
-/

set_option autoImplicit false

namespace KeyedRecord.Derive

open Source

/-! ## The grammar -/

/-- A key alone. -/
def IsFlag (w : String) (ts : List Placed) : Prop := ∃ span, ts = [⟨.ident w, span⟩]

/-- A key with a string. -/
def IsValue (w : String) (s : StringLiteral) (ts : List Placed) : Prop :=
  ∃ span joint eq lit, ts = [⟨.ident w, span⟩, ⟨.punct '=' joint, eq⟩, lit] ∧
    StringLiteral.ofPlaced? lit = some s

/-- A key with more in parentheses. -/
def IsGroup (w : String) (inner ts : List Placed) : Prop :=
  ∃ span opens d closes, ts =
    ⟨.ident w, span⟩ :: ⟨.opening .paren, opens⟩ :: (inner ++ [⟨.closing d, closes⟩])

/-- Stretches with commas between them, and possibly one behind the last. -/
inductive Separated : List (List Placed) → List Placed → Prop
  | nil : Separated [] []
  | last (ts : List Placed) : Separated [ts] ts
  | cons {ts inner : List Placed} {args : List (List Placed)} (joint : Bool) (span : Span) :
    Separated args inner → Separated (ts :: args) (ts ++ ⟨.punct ',' joint, span⟩ :: inner)

/-- Arguments that are written one by one, with commas between them. -/
def Arguments {α : Type} (W : List Placed → α → Prop) (inner : List Placed) (as : List α) : Prop :=
  ∃ args, Separated args inner ∧ List.Forall₂ W args as

/-- How an entry of a property is written. -/
def PropertyEntry.Written (ts : List Placed) : PropertyEntry → Prop
  | name s => IsValue "name" s ts
  | type p => ∃ s, IsValue "ty" s ts ∧ s.read readType = .ok p
  | getter n => ∃ s, IsValue "get" s ts ∧ s.read Reader.identifier = .ok n
  | setter n => ∃ s, IsValue "set" s ts ∧ s.read Reader.identifier = .ok n
  | visibility v => ∃ s, IsValue "vis" s ts ∧ s.read Visibility.read = .ok v
  | included => IsFlag "include" ts
  | ignored => IsFlag "ignore" ts

/-- How an entry of a type's attributes is written. -/
def ContainerEntry.Written (ts : List Placed) : ContainerEntry → Prop
  | nameSpace n => ∃ s, IsValue "namespace" s ts ∧ s.value = n
  | crate c => ∃ s, IsValue "crate" s ts ∧ s.read readPath = .ok c
  | property p => ∃ inner es, IsGroup "property" inner ts ∧ es ≠ [] ∧
      Arguments PropertyEntry.Written inner es ∧ PropertyAttributes.ofEntries es = .ok p

/-- How an entry of a field's attributes is written. -/
def FieldEntry.Written (ts : List Placed) : FieldEntry → Prop
  | included => IsFlag "include" ts
  | ignored => IsFlag "ignore" ts

/-! ## Entries -/

/-- Behind its key, and with it, an entry is read from exactly the stretches that it is written as.
-/
def Reads {α : Type} (entry : PlainPath → Reading α) (W : List Placed → α → Prop) : Prop :=
  ∀ ts a r, Stops r →
    ((readKey >>= entry) ts = .ok (a, r) ↔ ∃ us, ts = us ++ r ∧ W us a)

theorem isIdent_word (w w' : String) (span : Span) :
    PlainPath.isIdent ⟨false, [⟨.ident w, span⟩]⟩ w' = decide (w = w') := by
  rw [Bool.eq_iff_iff]
  simp [PlainPath.isIdent]

theorem IsFlag.key_read {w : String} {us r : List Placed} (h : IsFlag w us) (hr : Stops r) :
    ∃ span, readKey (us ++ r) = .ok (⟨false, [⟨.ident w, span⟩]⟩, r) := by
  obtain ⟨span, rfl⟩ := h
  exact ⟨span, readKey_word w span hr.noPath⟩

theorem IsValue.key_read {w : String} {s : StringLiteral} {us : List Placed} (h : IsValue w s us)
    (r : List Placed) : ∃ span rest, readKey (us ++ r) = .ok (⟨false, [⟨.ident w, span⟩]⟩, rest) ∧
      stringValue rest = .ok (s, r) := by
  obtain ⟨span, joint, eq, lit, rfl, hs⟩ := h
  exact ⟨span, _, readKey_word w span (noPath_of_ne fun _ => by simp),
    stringValue_eq_ok_iff.mpr ⟨joint, eq, lit, rfl, hs⟩⟩

theorem IsValue.source_read {w : String} {s : StringLiteral} {us : List Placed} (h : IsValue w s us)
    {β : Type} {p : Reader β} {b : β} (hb : s.read p = .ok b) (r : List Placed) :
    ∃ span rest, readKey (us ++ r) = .ok (⟨false, [⟨.ident w, span⟩]⟩, rest) ∧
      sourceValue p rest = .ok (b, r) := by
  obtain ⟨span, rest, hkey, hs⟩ := h.key_read r
  exact ⟨span, rest, hkey, sourceValue_eq_ok_iff.mpr ⟨s, hs, hb⟩⟩

theorem isFlag_of_readKey {key : PlainPath} {w : String} {ts r : List Placed}
    (h : readKey ts = .ok (key, r)) (hk : key.isIdent w = true) :
    ∃ us, ts = us ++ r ∧ IsFlag w us := by
  obtain ⟨span, rfl, -⟩ := readKey_eq_ok h hk
  exact ⟨[⟨.ident w, span⟩], rfl, span, rfl⟩

theorem isValue_of_readKey {key : PlainPath} {w : String} {ts rest r : List Placed}
    {s : StringLiteral} (h : readKey ts = .ok (key, rest)) (hk : key.isIdent w = true)
    (hs : stringValue rest = .ok (s, r)) : ∃ us, ts = us ++ r ∧ IsValue w s us := by
  obtain ⟨span, rfl, -⟩ := readKey_eq_ok h hk
  obtain ⟨joint, eq, lit, rfl, hlit⟩ := stringValue_eq_ok_iff.mp hs
  exact ⟨_, rfl, span, joint, eq, lit, rfl, hlit⟩

theorem isValue_of_readSource {key : PlainPath} {w : String} {ts rest r : List Placed}
    {α β : Type} {p : Reader β} {f : β → α} {a : α} (h : readKey ts = .ok (key, rest))
    (hk : key.isIdent w = true)
    (ha : (do return f (← sourceValue p) : Reading α) rest = .ok (a, r)) :
    ∃ us s b, ts = us ++ r ∧ IsValue w s us ∧ s.read p = .ok b ∧ a = f b := by
  obtain ⟨b, s₁, hp, ha⟩ := Reader.bind_eq_ok ha
  cases ha
  obtain ⟨s, hs, hb⟩ := sourceValue_eq_ok_iff.mp hp
  obtain ⟨us, rfl, hus⟩ := isValue_of_readKey h hk hs
  exact ⟨us, s, b, rfl, hus, hb, rfl⟩

theorem fieldEntry_reads : Reads fieldEntry FieldEntry.Written := by
  intro ts e r hr
  constructor
  · intro h
    obtain ⟨key, s, hkey, h⟩ := Reader.bind_eq_ok h
    unfold fieldEntry at h
    split at h
    · cases h
      exact isFlag_of_readKey hkey ‹_›
    · split at h
      · cases h
        exact isFlag_of_readKey hkey ‹_›
      · cases h
  · rintro ⟨us, rfl, hw⟩
    cases e with
    | included | ignored =>
      obtain ⟨span, hkey⟩ := IsFlag.key_read hw hr
      rw [bind_of_ok hkey]
      simp only [fieldEntry, isIdent_word]
      rfl

theorem propertyEntry_reads : Reads propertyEntry PropertyEntry.Written := by
  intro ts e r hr
  constructor
  · intro h
    obtain ⟨key, rest, hkey, h⟩ := Reader.bind_eq_ok h
    unfold propertyEntry at h
    split at h
    · obtain ⟨s, s₁, hs, h⟩ := Reader.bind_eq_ok h
      cases h
      exact isValue_of_readKey hkey ‹_› hs
    split at h
    · obtain ⟨us, s, b, rfl, hs, hb, rfl⟩ := isValue_of_readSource hkey ‹_› h
      exact ⟨us, rfl, s, hs, hb⟩
    split at h
    · obtain ⟨us, s, b, rfl, hs, hb, rfl⟩ := isValue_of_readSource hkey ‹_› h
      exact ⟨us, rfl, s, hs, hb⟩
    split at h
    · obtain ⟨us, s, b, rfl, hs, hb, rfl⟩ := isValue_of_readSource hkey ‹_› h
      exact ⟨us, rfl, s, hs, hb⟩
    split at h
    · obtain ⟨us, s, b, rfl, hs, hb, rfl⟩ := isValue_of_readSource hkey ‹_› h
      exact ⟨us, rfl, s, hs, hb⟩
    split at h
    · cases h
      exact isFlag_of_readKey hkey ‹_›
    split at h
    · cases h
      exact isFlag_of_readKey hkey ‹_›
    · cases h
  · rintro ⟨us, rfl, hw⟩
    cases e with
    | name s =>
      obtain ⟨span, rest, hkey, hs⟩ := IsValue.key_read hw r
      rw [bind_of_ok hkey]
      simp only [propertyEntry, isIdent_word]
      exact bind_of_ok hs
    | type p | getter n | setter n | visibility v =>
      obtain ⟨s, hs, hread⟩ := hw
      obtain ⟨span, rest, hkey, hval⟩ := hs.source_read hread r
      rw [bind_of_ok hkey]
      simp only [propertyEntry, isIdent_word]
      exact bind_of_ok hval
    | included | ignored =>
      obtain ⟨span, hkey⟩ := IsFlag.key_read hw hr
      rw [bind_of_ok hkey]
      simp only [propertyEntry, isIdent_word]
      rfl

/-! ## Lists of entries -/

theorem readKey_of_ends {ts : List Placed} (h : Front.ends ts = true) :
    ∃ e, readKey ts = .error e := by
  obtain - | ⟨⟨token, span⟩, t⟩ := ts
  · exact ⟨_, rfl⟩
  · cases token with
    | closing d => exact ⟨_, rfl⟩
    | ident | lifetime | punct | literal | opening => simp [Front.ends] at h

theorem Separated.length_le {args : List (List Placed)} {inner : List Placed}
    (h : Separated args inner) : args.length ≤ inner.length + 1 := by
  induction h with
  | nil | last => simp
  | cons _ _ _ ih =>
    simp only [List.length_cons, List.length_append]
    omega

section

variable {α : Type} {entry : PlainPath → Reading α} {W : List Placed → α → Prop}

/-- Two entries are not written as one stretch. -/
theorem Reads.unique (h : Reads entry W) {us : List Placed} {a b : α} (ha : W us a) (hb : W us b) :
    a = b := by
  have hread := fun a => h us a [] (.inl rfl)
  simp only [List.append_nil, exists_eq_left'] at hread
  exact (Prod.mk.inj (Except.ok.inj (((hread a).mpr ha).symm.trans ((hread b).mpr hb)))).1

theorem entriesFuel_eq_ok (h : Reads entry W) {fuel : Nat} {ts r : List Placed} {as : List α}
    (hr : entriesFuel entry fuel ts = .ok (as, r)) :
    Front.ends r = true ∧ as ≠ [] ∧ ∃ inner, ts = inner ++ r ∧ Arguments W inner as := by
  induction fuel generalizing ts as with
  | zero => cases hr
  | succ fuel ih =>
    obtain ⟨key, s₁, hkey, hr⟩ := Reader.bind_eq_ok hr
    obtain ⟨a, s₂, ha, hr⟩ := Reader.bind_eq_ok hr
    have hread : (readKey >>= entry) ts = .ok (a, s₂) := (bind_of_ok hkey).trans ha
    obtain ⟨b, s₃, hb, hr⟩ := Reader.bind_eq_ok hr
    cases hb
    split at hr
    · rename_i hends
      cases hr
      obtain ⟨us, rfl, hus⟩ := (h _ _ _ (.inl hends)).mp hread
      exact ⟨hends, by simp, us, rfl, [us], .last us, .cons hus .nil⟩
    obtain ⟨p, s₄, hcomma, htail⟩ := Reader.bind_eq_ok hr
    obtain ⟨b, s₅, hb, hlast⟩ := Reader.bind_eq_ok htail
    cases hb
    obtain ⟨joint, span, rfl⟩ := op_eq_ok (c := ',') rfl hcomma
    have hstops : Stops (⟨.punct ',' joint, span⟩ :: s₄) := stops_iff.mpr (.inr ⟨_, _, _, rfl⟩)
    obtain ⟨us, hts, hus⟩ := (h _ _ _ hstops).mp hread
    split at hlast
    · rename_i hends
      cases hlast
      exact ⟨hends, by simp, us ++ [⟨.punct ',' joint, span⟩], by simp [hts],
        [us], .cons joint span .nil, .cons hus .nil⟩
    obtain ⟨more, s₆, hmore, hlast⟩ := Reader.bind_eq_ok hlast
    cases hlast
    obtain ⟨hends, -, inner, rfl, args, hsep, hargs⟩ := ih hmore
    exact ⟨hends, by simp, us ++ ⟨.punct ',' joint, span⟩ :: inner, by simp [hts],
      us :: args, .cons joint span hsep, .cons hus hargs⟩

/-- One step: the entry and what follows it. -/
theorem entriesFuel_succ (h : Reads entry W) {us r : List Placed} {a : α} (hus : W us a)
    (hr : Stops r) (fuel : Nat) : entriesFuel entry (fuel + 1) (us ++ r) =
      (do
        if ← Reading.ends then return [a]
        let _ ← Reading.source (Reader.op ",")
        if ← Reading.ends then return [a]
        let as ← entriesFuel entry fuel
        return a :: as : Reading (List α)) r := by
  obtain ⟨key, s, hkey, hentry⟩ := Reader.bind_eq_ok ((h _ _ _ hr).mpr ⟨us, rfl, hus⟩)
  rw [entriesFuel, bind_of_ok hkey, bind_of_ok hentry]

/-- Where entries are read, something is left to read. -/
theorem ends_of_entriesFuel {fuel : Nat} {ts r : List Placed} {as : List α}
    (h : entriesFuel entry fuel ts = .ok (as, r)) : Front.ends ts = false := by
  by_contra hends
  obtain ⟨e, he⟩ := readKey_of_ends (by simpa using hends)
  cases fuel with
  | zero => cases h
  | succ fuel =>
    obtain ⟨key, s, hkey, -⟩ := Reader.bind_eq_ok h
    rw [he] at hkey
    cases hkey

/-- A list of stretches is read entry by entry, each with one step of the fuel. -/
theorem entriesFuel_of_separated (h : Reads entry W) {args : List (List Placed)}
    {inner r : List Placed} (hsep : Separated args inner) {as : List α}
    (hargs : List.Forall₂ W args as) (hne : as ≠ []) (hends : Front.ends r = true) {fuel : Nat}
    (hfuel : as.length ≤ fuel) : entriesFuel entry fuel (inner ++ r) = .ok (as, r) := by
  induction hsep generalizing as fuel with
  | nil =>
    cases hargs
    exact absurd rfl hne
  | last us =>
    obtain - | ⟨hus, hnil⟩ := hargs
    cases hnil
    obtain - | fuel := fuel
    · simp at hfuel
    rw [entriesFuel_succ h hus (.inl hends)]
    have hb : Reading.ends r = .ok (true, r) := by rw [ends_eq_ok, hends]
    exact bind_of_ok hb
  | @cons us inner args joint span hsep ih =>
    obtain - | ⟨hus, hargs⟩ := hargs
    rename_i a as
    obtain - | fuel := fuel
    · simp at hfuel
    have hstops : Stops (⟨.punct ',' joint, span⟩ :: (inner ++ r)) :=
      stops_iff.mpr (.inr ⟨_, _, _, rfl⟩)
    rw [List.append_assoc, List.cons_append, entriesFuel_succ h hus hstops]
    have hb : Reading.ends (⟨.punct ',' joint, span⟩ :: (inner ++ r)) = .ok (false, _) := rfl
    have hcomma : Reading.source (Reader.op ",") (⟨.punct ',' joint, span⟩ :: (inner ++ r)) =
      .ok (.operator ",", inner ++ r) := rfl
    rw [bind_of_ok hb]
    refine (bind_of_ok hcomma).trans ?_
    obtain - | ⟨ha', has⟩ := hargs
    · -- the comma stands behind the last entry
      obtain - | - := hsep
      have hb : Reading.ends r = .ok (true, r) := by rw [ends_eq_ok, hends]
      exact bind_of_ok hb
    · rename_i a' as
      have hmore := ih (.cons ha' has) (by simp) (by simpa using hfuel)
      have hb : Reading.ends (inner ++ r) = .ok (false, inner ++ r) := by
        rw [ends_eq_ok, ends_of_entriesFuel hmore]
      rw [bind_of_ok hb]
      exact bind_of_ok hmore

/-- **Entries are read from exactly the lists that they are written as**, up to the end of the
brackets. -/
theorem entries_eq_ok_iff (h : Reads entry W) {ts r : List Placed} {as : List α} :
    entries entry ts = .ok (as, r) ↔
      Front.ends r = true ∧ as ≠ [] ∧ ∃ inner, ts = inner ++ r ∧ Arguments W inner as := by
  constructor
  · exact entriesFuel_eq_ok h
  · rintro ⟨hends, hne, inner, rfl, args, hsep, hargs⟩
    refine entriesFuel_of_separated h hsep hargs hne hends ?_
    have hlength := hsep.length_le
    rw [← hargs.length_eq, List.length_append]
    omega

end

/-! ## Properties -/

theorem readProperty_eq_ok_iff {key : PlainPath} {ts r : List Placed} {p : PropertyAttributes} :
    readProperty key ts = .ok (p, r) ↔ ∃ opens d closes inner es,
      ts = ⟨.opening .paren, opens⟩ :: (inner ++ ⟨.closing d, closes⟩ :: r) ∧ es ≠ [] ∧
      Arguments PropertyEntry.Written inner es ∧ PropertyAttributes.ofEntries es = .ok p := by
  constructor
  · intro h
    obtain ⟨opens, s₁, hopen, hrest⟩ := Reader.bind_eq_ok h
    obtain ⟨es, s₂, hentries, hrest⟩ := Reader.bind_eq_ok hrest
    obtain ⟨closes, s₃, hclose, hrest⟩ := Reader.bind_eq_ok hrest
    cases hes : PropertyAttributes.ofEntries es with
    | error f => simp only [hes] at hrest; cases hrest
    | ok p' =>
      simp only [hes] at hrest
      cases hrest
      obtain ⟨-, hne, inner, rfl, hargs⟩ := (entries_eq_ok_iff propertyEntry_reads).mp hentries
      obtain ⟨d, rfl⟩ := closing_eq_ok hclose
      exact ⟨opens, d, closes, inner, es, opening_eq_ok hopen, hne, hargs, hes⟩
  · rintro ⟨opens, d, closes, inner, es, rfl, hne, hargs, hes⟩
    have hopen : Reading.source (Reader.opening .paren)
        (⟨.opening .paren, opens⟩ :: (inner ++ ⟨.closing d, closes⟩ :: r)) =
        .ok (opens, inner ++ ⟨.closing d, closes⟩ :: r) := rfl
    have hentries : entries propertyEntry (inner ++ ⟨.closing d, closes⟩ :: r) =
        .ok (es, ⟨.closing d, closes⟩ :: r) :=
      (entries_eq_ok_iff propertyEntry_reads).mpr ⟨rfl, hne, inner, rfl, hargs⟩
    have hclose : Reading.source (Reader.closing .paren) (⟨.closing d, closes⟩ :: r) =
        .ok (closes, r) := rfl
    rw [readProperty, bind_of_ok hopen, bind_of_ok hentries, bind_of_ok hclose]
    simp only [hes]
    rfl

theorem containerEntry_reads : Reads containerEntry ContainerEntry.Written := by
  intro ts e r hr
  constructor
  · intro h
    obtain ⟨key, rest, hkey, h⟩ := Reader.bind_eq_ok h
    unfold containerEntry at h
    split at h
    · obtain ⟨s, s₁, hs, h⟩ := Reader.bind_eq_ok h
      cases h
      obtain ⟨us, rfl, hus⟩ := isValue_of_readKey hkey ‹_› hs
      exact ⟨us, rfl, s, hus, rfl⟩
    split at h
    · obtain ⟨us, s, b, rfl, hs, hb, rfl⟩ := isValue_of_readSource hkey ‹_› h
      exact ⟨us, rfl, s, hs, hb⟩
    split at h
    · obtain ⟨p, s₁, hp, h⟩ := Reader.bind_eq_ok h
      cases h
      obtain ⟨span, rfl, -⟩ := readKey_eq_ok hkey ‹_›
      obtain ⟨opens, d, closes, inner, es, rfl, hne, hargs, hes⟩ := readProperty_eq_ok_iff.mp hp
      exact ⟨_ :: _ :: (inner ++ [⟨.closing d, closes⟩]), by simp, inner, es,
        ⟨span, opens, d, closes, rfl⟩, hne, hargs, hes⟩
    · cases h
  · rintro ⟨us, rfl, hw⟩
    cases e with
    | nameSpace n =>
      obtain ⟨s, hs, rfl⟩ := hw
      obtain ⟨span, rest, hkey, hval⟩ := hs.key_read r
      rw [bind_of_ok hkey]
      simp only [containerEntry, isIdent_word]
      exact bind_of_ok hval
    | crate c =>
      obtain ⟨s, hs, hread⟩ := hw
      obtain ⟨span, rest, hkey, hval⟩ := hs.source_read hread r
      rw [bind_of_ok hkey]
      simp only [containerEntry, isIdent_word]
      exact bind_of_ok hval
    | property p =>
      obtain ⟨inner, es, ⟨span, opens, d, closes, rfl⟩, hne, hargs, hes⟩ := hw
      have hword : NoPath (⟨.opening .paren, opens⟩ :: (inner ++ ⟨.closing d, closes⟩ :: r)) :=
        noPath_of_ne fun _ => by simp
      have hkey := readKey_word "property" span hword
      have hp : readProperty ⟨false, [⟨.ident "property", span⟩]⟩
          (⟨.opening .paren, opens⟩ :: (inner ++ ⟨.closing d, closes⟩ :: r)) = .ok (p, r) :=
        readProperty_eq_ok_iff.mpr ⟨opens, d, closes, inner, es, rfl, hne, hargs, hes⟩
      rw [List.cons_append, List.cons_append, List.append_assoc, List.singleton_append,
        bind_of_ok hkey]
      simp only [containerEntry, isIdent_word]
      exact bind_of_ok hp

end KeyedRecord.Derive
