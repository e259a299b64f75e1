import KeyedRecord.Proofs.Source.EchoLevels

/-!
# Where the parts of a declaration come from

Readers go forward through their source.  So whatever a declaration keeps was read by a reader of
its own at some place of the source: each attribute, each field, and the type of each field.  Only
fields between braces may stand in place of a type, behind the name `_`.

Principal result: `wasRead_of_ofText`, for every declaration that is read from a text.
-/

set_option autoImplicit false

namespace KeyedRecord.Source

namespace Reader

variable {α β : Type} {p q : Reader α} {P Q : α → Prop}

/-- Anywhere in a source the reader goes forward, and what it returns satisfies `P`. -/
def Yields (p : Reader α) (P : α → Prop) : Prop :=
  ∀ ts, Sound (tokensOf ts) → ∀ a r, p ts = .ok (a, r) → r <:+ ts ∧ P a

/-- The reader goes forward. -/
def Advances (p : Reader α) : Prop := Yields p fun _ => True

namespace Yields

theorem mono (h : Yields p P) (hP : ∀ a, P a → Q a) : Yields p Q :=
  fun ts hs a r hp => (h ts hs a r hp).imp_right (hP a)

theorem advances (h : Yields p P) : Advances p := h.mono fun _ _ => trivial

theorem pure {a : α} (h : P a) : Yields (Pure.pure a) P := by
  rintro ts - _ _ ⟨⟩
  exact ⟨List.suffix_rfl, h⟩

theorem bind {k : α → Reader β} {R : β → Prop} (h : Yields p P) (hk : ∀ a, P a → Yields (k a) R) :
    Yields (p >>= k) R := by
  intro ts hs b r hp
  obtain ⟨a, s, ha, hb⟩ := bind_eq_ok hp
  obtain ⟨hsuf, hP⟩ := h ts hs a s ha
  obtain ⟨hsuf', hR⟩ := hk a hP s (hs.suffix (tokensOf_suffix hsuf)) b r hb
  exact ⟨hsuf'.trans hsuf, hR⟩

/-- A step whose result is not kept. -/
theorem step {k : α → Reader β} {R : β → Prop} (h : Advances p) (hk : ∀ a, Yields (k a) R) :
    Yields (p >>= k) R :=
  bind h fun a _ => hk a

/-- The place where a result was read. -/
theorem place (h : Yields p P) : Yields p fun a => ∃ s r, Sound (tokensOf s) ∧ p s = .ok (a, r) :=
  fun ts hs a r hp => ⟨(h ts hs a r hp).1, ts, r, hs, hp⟩

theorem ask {c : List Placed → Bool} (h : Yields p P) (h' : Yields q P) :
    Yields (front c >>= fun b => if b = true then p else q) P := by
  intro ts hs a r hp
  rw [ask_apply] at hp
  split at hp
  · exact h ts hs a r hp
  · exact h' ts hs a r hp

theorem failWith (c : Bool → Cause) : Yields (failWith c) P := by
  rintro _ - _ _ ⟨⟩

theorem counted {f : Nat → Reader α} (h : ∀ n, Yields (f n) P) :
    Yields (fun ts => f (ts.length + 1) ts) P :=
  fun ts => h (ts.length + 1) ts

theorem inside {d : Delimiter} (h : Yields p P) : Yields (inside d p) P := by
  intro ts hs a r hp
  obtain ⟨s, ts', d', s', rfl, hinner⟩ := exists_of_inside hp
  obtain ⟨hsuf, hP⟩ := h ts' (hs.suffix (tokensOf_suffix (List.suffix_cons _ _))) a _ hinner
  exact ⟨(List.suffix_cons _ _).trans (hsuf.trans (List.suffix_cons _ _)), hP⟩

theorem spanned (h : Yields p P) : Yields (spanned p) fun a => P a.1 := by
  rintro ts hs ⟨a, span⟩ r hp
  unfold Reader.spanned at hp
  cases hrun : p ts with
  | error e => rw [hrun] at hp; cases hp
  | ok v =>
    simp only [hrun] at hp
    split at hp <;> cases hp <;> exact h ts hs v.1 v.2 hrun

end Yields

namespace Advances

theorem of_suffix (h : ∀ ts a r, p ts = .ok (a, r) → r <:+ ts) : Advances p :=
  fun ts _ a r hp => ⟨h ts a r hp, trivial⟩

theorem of_echo {L : Nat} {F : Form α} {S : Sight} {E : α → Sight}
    (h : ∀ ts, EchoAt L F [] S E p q ts) : Advances p :=
  fun ts hs a r hp => ⟨(h ts hs a r hp).1, trivial⟩

theorem front (c : List Placed → Bool) : Advances (front c) := by
  rintro ts - _ _ ⟨⟩
  exact ⟨List.suffix_rfl, trivial⟩

theorem op (s : String) : Advances (op s) := of_suffix fun ts _ _ h => by
  unfold Reader.op at h
  split at h <;> cases h
  exact List.drop_suffix _ _

theorem op? (s : String) : Advances (op? s) := of_suffix fun ts _ _ h => by
  unfold Reader.op? at h
  split at h <;> cases h
  · exact List.drop_suffix _ _
  · exact List.suffix_rfl

theorem word (w : String) : Advances (word w) := of_suffix fun ts _ _ h => by
  unfold Reader.word at h
  split at h <;> cases h
  exact List.drop_suffix _ _

theorem next : Advances next := of_suffix fun ts _ _ h => by
  cases ts <;> cases h
  exact List.suffix_cons _ _

theorem anyWord : Advances anyWord := of_suffix fun ts _ _ h => by
  unfold Reader.anyWord at h
  split at h <;> cases h
  exact List.suffix_cons _ _

theorem identifier : Advances identifier := of_suffix fun ts _ _ h => by
  unfold Reader.identifier at h
  split at h
  · split at h <;> cases h
    exact List.suffix_cons _ _
  · cases h

theorem lifetime : Advances lifetime := of_suffix fun ts _ _ h => by
  unfold Reader.lifetime at h
  split at h <;> cases h
  exact List.suffix_cons _ _

theorem opening (d : Delimiter) : Advances (opening d) := of_suffix fun ts _ _ h => by
  unfold Reader.opening at h
  split at h
  · split at h <;> cases h
    exact List.suffix_cons _ _
  · cases h

theorem closing (d : Delimiter) : Advances (closing d) := of_suffix fun ts _ _ h => by
  unfold Reader.closing at h
  split at h <;> cases h
  exact List.suffix_cons _ _

theorem anyDelimiter : Advances anyDelimiter := of_suffix fun ts _ _ h => by
  unfold Reader.anyDelimiter at h
  split at h <;> cases h
  exact List.suffix_rfl

theorem unread : Advances unread := of_suffix fun ts a r h => by
  obtain rfl : (splitClosing 0 ts).2 = r := congrArg Prod.snd (Except.ok.inj h)
  exact ⟨_, splitClosing_append 0 ts⟩

theorem literal : Advances literal := of_suffix fun ts t r h => by
  rcases Grammar.exists_of_literal h with ⟨rfl, -⟩ | ⟨j, s, text, s', rfl, -, -⟩
  · exact List.suffix_cons _ _
  · exact (List.suffix_cons _ _).trans (List.suffix_cons _ _)

end Advances

namespace Yields

/-! ## Lists -/

theorem listUntilFuel {stop : List Placed → Bool} {sep : String} (h : Yields p P) (n : Nat) :
    Yields (listUntilFuel stop sep p n) fun as => ∀ a ∈ as, P a.1 := by
  induction n with
  | zero => exact failWith _
  | succ n ih =>
    refine ask (pure (by simp)) (bind h fun a ha =>
      ask (pure (by simpa using ha)) (step (.op _) fun _ => ?_))
    exact bind ih fun as has => pure (List.forall_mem_cons.mpr ⟨ha, has⟩)

theorem listUntil {stop : List Placed → Bool} {sep : String} (h : Yields p P) :
    Yields (listUntil stop sep p) fun as => ∀ a ∈ as, P a.1 :=
  counted fun n => listUntilFuel h n

theorem chainFuel {stop : List Placed → Bool} {sep : String} (h : Yields p P) (n : Nat) :
    Yields (chainFuel stop sep p n) fun as => ∀ a ∈ as, P a.1 := by
  induction n with
  | zero => exact failWith _
  | succ n ih =>
    refine ask (pure (by simp)) (bind h fun a ha => step (.op? _) fun o => ?_)
    cases o with
    | none => exact pure (by simpa using ha)
    | some _ => exact bind ih fun as has => pure (List.forall_mem_cons.mpr ⟨ha, has⟩)

theorem chain {stop : List Placed → Bool} {sep : String} (h : Yields p P) :
    Yields (chain stop sep p) fun as => ∀ a ∈ as, P a.1 :=
  counted fun n => chainFuel h n

end Yields

end Reader

open Reader

/-! ## Levels -/

namespace Nesting

variable (n : Nat)

theorem advances_expr (b : Bool) : Advances ((levels n).expr b) := .of_echo fun ts =>
    (levels_echo n 0).expr b ts

theorem advances_block : Advances (levels n).block := .of_echo fun ts => (levels_echo n 0).block ts

theorem advances_anyType : Advances (levels n).anyType :=
  .of_echo fun _ => (levels_echo n 0).anyType (E := fun _ _ => False) fun _ _ => False.elim

theorem advances_bound (rules : BoundRules) : Advances ((levels n).bound rules) :=
  .of_echo fun _ => (levels_echo n 0).anyBound rules (E := fun _ _ => False) fun _ _ => False.elim

theorem advances_attributes : Advances (levels n).attributes :=
  .of_echo fun _ => Attribute.attributes_echo (levels_echo n 0) (M := fun _ _ => False) fun _ _ =>
    False.elim

theorem advances_binder? : Advances (Grammar.binder? (levels n)) :=
  .of_echo fun _ => Grammar.binder?_echo (levels_echo n 0) (M := fun _ _ => False) (W := .any)
    fun _ _ => False.elim

theorem advances_constantArgument : Advances (Grammar.constantArgument (levels n)) := by
  refine .ask (.step .literal fun _ => .pure trivial)
    (.ask (.step .identifier fun _ => .pure trivial) (.ask ?_ (.failWith _)))
  exact advances_block n

end Nesting

/-! ## Attributes -/

namespace PlainPath

theorem advances_read : Advances read := by
  refine .step (.op? _) fun leading => .step (Yields.chain Advances.next).advances
    fun segments => ?_
  split
  · exact .step .identifier fun _ => .pure trivial
  · exact .failWith _
  · exact .pure trivial

end PlainPath

namespace Attribute

/-- The brackets of an attribute, if it has any, were read unread. -/
def WasRead (a : Attribute) : Prop := ∀ d inner close, a.body = .list d inner close →
    ∃ ts r, readList ts = .ok (a.body, r)

/-- Read what follows the path of an attribute. -/
def behindPath (expr : Reader Phrase) (path : PlainPath) : Reader Attribute := do
  if ← Reader.front fun ts =>
      Front.opening .paren ts || Front.opening .bracket ts || Front.opening .brace ts then
    return ⟨path, ← readList⟩
  else if ← Reader.front (Front.op "=") then
    let eq ← Reader.next
    return ⟨path, .value eq.span (← readValue expr)⟩
  else return ⟨path, .bare⟩

theorem readMeta_eq (expr : Reader Phrase) : readMeta expr = (do
    if ← Reader.front (Front.word "unsafe") then
      Reader.next >>= fun w => behindPath expr ⟨false, [w]⟩
    else PlainPath.read >>= behindPath expr) := rfl

variable {expr : Reader Phrase} (h : Advances expr)

include h

theorem advances_readValue : Advances (readValue expr) := by
  intro ts hs a r hr
  unfold readValue at hr
  split at hr
  · rename_i lit r' hlit
    split at hr
    · cases hr
      exact ⟨(Advances.literal ts hs _ _ hlit).1, trivial⟩
    · exact h ts hs a r hr
  · split at hr
    · cases hr
    · exact h ts hs a r hr

theorem yields_behindPath (path : PlainPath) : Yields (behindPath expr path) WasRead := by
  have hlist : Advances readList :=
    .step .anyDelimiter fun d => .step (.opening d) fun _ => .step .unread fun _ =>
      .step (.closing d) fun _ => .pure trivial
  refine .ask (.bind (Yields.place hlist) fun body hbody => .pure ?_) (.ask ?_ (.pure ?_))
  · intro d inner close hb
    obtain ⟨s, r, -, hread⟩ := hbody
    exact ⟨s, r, hread⟩
  · exact .step .next fun _ => .step (advances_readValue h) fun _ =>
      .pure fun _ _ _ hb => by cases hb
  · exact fun _ _ _ hb => by cases hb

theorem yields_readMeta : Yields (readMeta expr) WasRead := by
  rw [readMeta_eq]
  exact .ask (.step .next fun _ => yields_behindPath h _) (.step PlainPath.advances_read fun _ =>
    yields_behindPath h _)

theorem yields_read : Yields (read expr) WasRead :=
  .step (.op _) fun _ => .inside (yields_readMeta h)

theorem yields_readAll : Yields (readAll expr) fun as => ∀ a ∈ as, a.WasRead := by
  refine .counted fun n => ?_
  induction n with
  | zero => exact .failWith _
  | succ n ih =>
    refine .ask (.bind (yields_read h) fun a ha => .bind ih fun as has => .pure ?_)
      (.pure (by simp))
    exact List.forall_mem_cons.mpr ⟨ha, has⟩

end Attribute

/-! ## What stands before the fields -/

namespace Visibility

theorem advances_restriction? : Advances restriction? := by
  intro ts hs o r h
  have hpath : Advances (some <$> inside .paren (word "in" >>= fun w => PlainPath.read >>= fun p =>
      pure (w ++ p.phrase))) := by
    rw [map_eq_pure_bind]
    exact .step (.inside (.step (.word _) fun _ => .step PlainPath.advances_read fun _ =>
      .pure trivial)) fun _ => .pure trivial
  unfold restriction? at h
  split at h
  · rename_i s s' r'
    cases hrun : (some <$> inside .paren (word "in" >>= fun w => PlainPath.read >>= fun p =>
      pure (w ++ p.phrase)) :
        Reader (Option Phrase)) (⟨.opening .paren, s⟩ :: ⟨.ident "in", s'⟩ :: r') with
    | error e =>
      rw [show Except.map _ _ = Except.map _ (Except.error e) from congrArg _ hrun] at h
      cases h
    | ok v =>
      rw [show Except.map _ _ = Except.map _ (Except.ok v) from congrArg _ hrun] at h
      cases h
      exact ⟨(hpath _ hs _ _ hrun).1, trivial⟩
  · split at h <;> cases h
    · exact ⟨((List.suffix_cons _ _).trans (List.suffix_cons _ _)).trans (List.suffix_cons _ _),
        trivial⟩
    · exact ⟨List.suffix_rfl, trivial⟩
  · cases h
    exact ⟨List.suffix_rfl, trivial⟩

theorem advances_read : Advances read := by
  refine .ask (.step (.word _) fun _ => .step advances_restriction? fun o => ?_) (.pure trivial)
  cases o <;> exact .pure trivial

end Visibility

variable (n : Nat)

namespace GenericParam

theorem advances_readLifetime (attrs : Phrase) : Advances (readLifetime attrs) := by
  refine .step .lifetime fun _ => .step (.op? _) fun o => ?_
  cases o with
  | none => exact .pure trivial
  | some _ => exact .step (Yields.chain Advances.lifetime).advances fun _ => .pure trivial

theorem advances_readType (attrs : Phrase) : Advances (readType (Nesting.levels n) attrs) := by
  refine .step .identifier fun name => .step (.op? _) fun o => ?_
  have hbounds : Advances (Grammar.boundsPhrase <$>
    chain (fun ts => boundsEnd ts || Front.op "=" ts) "+"
      ((Nesting.levels n).bound ⟨false, true⟩)) := by
    rw [map_eq_pure_bind]
    exact .step (Yields.chain (Nesting.advances_bound n _)).advances fun _ => .pure trivial
  cases o with
  | none =>
    simp only [Option.isSome_none, Bool.false_eq_true, if_false, pure_bind]
    refine .step (.op? _) fun eq => ?_
    cases eq with
    | none => exact .pure trivial
    | some _ => exact .step (Nesting.advances_anyType n) fun _ => .pure trivial
  | some _ =>
    refine .step hbounds fun bounds => .step (.op? _) fun eq => ?_
    cases eq with
    | none => exact .pure trivial
    | some _ => exact .step (Nesting.advances_anyType n) fun _ => .pure trivial

theorem advances_readConst (attrs : Phrase) : Advances (readConst (Nesting.levels n) attrs) := by
  refine .step (.word _) fun _ => .step .identifier fun _ => .step (.op _) fun _ =>
    .step (Nesting.advances_anyType n) fun _ => .step (.op? _) fun o => ?_
  cases o with
  | none => exact .pure trivial
  | some _ => exact .step (Nesting.advances_constantArgument n) fun _ => .pure trivial

theorem advances_read : Advances (read (Nesting.levels n)) :=
  .step (Nesting.advances_attributes n) fun attrs =>
    .ask (advances_readLifetime attrs) (.ask (advances_readType n attrs)
    (.ask (advances_readConst n attrs) (.ask (.step .anyWord fun _ => .pure trivial)
    (.failWith _))))

end GenericParam

theorem Generics.advances_read : Advances (read (Nesting.levels n)) :=
  .ask (.step (.op _) fun _ => .step (Yields.listUntil (GenericParam.advances_read n)).advances
    fun _ =>
    .step (.op _) fun _ => .pure trivial) (.pure trivial)

namespace WhereClause

theorem advances_readPredicate : Advances (readPredicate (Nesting.levels n)) := by
  refine .ask (.step .lifetime fun _ => .step (.op _) fun _ =>
    .step (Yields.chain Advances.lifetime).advances fun _ => .pure trivial) ?_
  exact .step (Nesting.advances_binder? n) fun _ => .step (Nesting.advances_anyType n) fun _ =>
    .step (.op _) fun _ =>
    .step (Yields.chain (Nesting.advances_bound n _)).advances fun _ => .pure trivial

theorem advances_read? : Advances (read? (Nesting.levels n)) :=
  .ask (.step (.step (.word _) fun _ => .step (Yields.chain (advances_readPredicate n)).advances
    fun _ => .pure trivial) fun _ =>
    .pure trivial) (.pure trivial)

end WhereClause

/-! ## Fields -/

/-- The phrase was read as a type somewhere in a source. -/
def IsType (t : Phrase) : Prop := ∃ n s r, Sound (tokensOf s) ∧
    (Nesting.levels n).anyType s = .ok (t, r)

/-- The phrase is that of fields between braces in place of a type. -/
def Phrase.standsInline (t : Phrase) : Bool :=
  match t.printed with
  | .ident w :: .opening .brace :: _ => w == "struct" || w == "union"
  | _ => false

theorem Phrase.standsInline_iff {t : Phrase} : t.standsInline = true ↔
    ∃ w rest, t.printed = .ident w :: .opening .brace :: rest ∧ (w = "struct" ∨ w = "union") := by
  constructor
  · intro h
    unfold standsInline at h
    split at h
    · exact ⟨_, _, ‹_›, by simpa using h⟩
    · cases h
  · rintro ⟨w, rest, ht, hw⟩
    simpa [standsInline, ht] using hw

/-- The parts of a field were read. -/
structure Field.WasRead (f : Field) : Prop where
  attributes : ∀ a ∈ f.attributes, a.WasRead
  type : IsType f.type ∨ f.type.standsInline = true

/-- The parts of the fields were read, and fields between braces have names. -/
structure Fields.WereRead (fs : Fields) : Prop where
  parts : ∀ f ∈ fs.toList, f.WasRead
  names : ∀ l, fs = .named l → ∀ f ∈ l, f.name.isSome = true

namespace Field

theorem yields_anyType : Yields (Nesting.levels n).anyType IsType :=
  (Nesting.advances_anyType n).place.mono fun _ ⟨s, r, hs, hread⟩ => ⟨n, s, r, hs, hread⟩

theorem exists_of_asWritten {α : Type} {p : Reader α} {ts r : List Placed} {t : Phrase}
    (h : asWritten p ts = .ok (t, r)) :
    ∃ a, p ts = .ok (a, r) ∧ t = .ofTokens (tokensOf (ts.take (ts.length - r.length))) := by
  unfold asWritten at h
  cases hp : p ts with
  | error e => simp [hp, bind, Except.bind] at h
  | ok v =>
    obtain ⟨a, r'⟩ := v
    simp only [hp, bind, Except.bind, pure, Except.pure, Except.ok.injEq, Prod.mk.injEq] at h
    obtain ⟨rfl, rfl⟩ := h
    exact ⟨a, rfl, rfl⟩

/-- Fields between braces are kept as they stand. -/
theorem yields_inline {fields : Reader (List (Field × Bool))} (h : Advances fields)
    {ts r : List Placed} {t : Phrase} (hs : Sound (tokensOf ts)) (hts : startsInline ts = true)
    (hread : asWritten (do let _ ← anyWord; inside .brace fields) ts = .ok (t, r)) : r <:+ ts ∧
      t.standsInline = true := by
  obtain ⟨l, hrun, rfl⟩ := exists_of_asWritten hread
  obtain ⟨w, s, hw, hinside⟩ := bind_eq_ok hrun
  obtain ⟨sp, rfl⟩ : ∃ sp, ts = ⟨.ident w, sp⟩ :: s := by
    unfold anyWord at hw
    split at hw <;> cases hw
    exact ⟨_, rfl⟩
  obtain ⟨sp', ts', d', sp'', rfl, hfields⟩ := exists_of_inside hinside
  have hts' := (List.suffix_cons _ _).trans
    (List.suffix_cons ⟨.ident w, sp⟩ (⟨.opening .brace, sp'⟩ :: ts'))
  have hsuf := (h ts' (hs.suffix (tokensOf_suffix hts')) l _ hfields).1
  refine ⟨((List.suffix_cons _ _).trans hsuf).trans hts', Phrase.standsInline_iff.mpr ⟨w, ?_⟩⟩
  have hlen : (⟨.ident w, sp⟩ :: ⟨.opening .brace, sp'⟩ :: ts' : List Placed).length - r.length =
      ts'.length - r.length + 2 := by
    have := hsuf.length_le
    simp only [List.length_cons] at this ⊢
    omega
  rw [hlen]
  refine ⟨_, rfl, ?_⟩
  simpa [startsInline, Front.word, Front.opening] using hts

theorem yields_readType {fields : Reader (List (Field × Bool))} (h : Advances fields)
    (unnamed : Bool) :
    Yields (readType (Nesting.levels n) fields unnamed) fun t => IsType t ∨
      t.standsInline = true := by
  intro ts hs t r hread
  cases hinline : unnamed && startsInline ts with
  | true =>
    have hrun : readType (Nesting.levels n) fields unnamed ts =
        asWritten (do let _ ← anyWord; inside .brace fields) ts := by
      rw [readType, Grammar.front_apply, if_pos hinline]
    rw [hrun] at hread
    exact (yields_inline h hs (Bool.and_eq_true_iff.mp hinline).2 hread).imp_right .inr
  | false =>
    have hrun : readType (Nesting.levels n) fields unnamed ts = (Nesting.levels n).anyType ts := by
      rw [readType, Grammar.front_apply, if_neg (by simp [hinline])]
    rw [hrun] at hread
    exact (yields_anyType n ts hs t r hread).imp_right .inl

theorem yields_withSpan {p : Reader Field} (h : Yields p fun f => f.WasRead ∧
    f.name.isSome = true) :
    Yields (withSpan p) fun f => f.WasRead ∧ f.name.isSome = true :=
  .bind h.spanned fun _ hf => .pure ⟨⟨hf.1.attributes, hf.1.type⟩, hf.2⟩

theorem yields_readNamedFuel (fuel : Nat) :
    Yields (readNamedFuel (Nesting.levels n) fuel) fun f => f.WasRead ∧ f.name.isSome = true := by
  induction fuel with
  | zero => exact .failWith _
  | succ fuel ih =>
    refine yields_withSpan ?_
    refine .bind (Attribute.yields_readAll (Nesting.advances_expr n true)) fun as has => ?_
    refine .step Visibility.advances_read fun _ => .step (.front _) fun unnamed => ?_
    have hname : Advances (readName unnamed) := by
      cases unnamed
      · exact .identifier
      · exact .anyWord
    refine .step hname fun _ => .step (.op _) fun _ => ?_
    exact .bind (yields_readType n (Yields.listUntil ih).advances unnamed) fun t ht =>
      .pure ⟨⟨has, ht⟩, rfl⟩

theorem yields_readNamed : Yields (readNamed (Nesting.levels n)) fun f => f.WasRead ∧
    f.name.isSome = true :=
  .counted fun fuel => yields_readNamedFuel n fuel

theorem yields_readUnnamed : Yields (readUnnamed (Nesting.levels n)) WasRead := by
  have hparts : Yields (do
      let attributes ← Attribute.readAll ((Nesting.levels n).expr true)
      let visibility ← Visibility.read
      let t ← (Nesting.levels n).anyType
      return ⟨attributes, visibility, none, t, none⟩) WasRead :=
    .bind (Attribute.yields_readAll (Nesting.advances_expr n true)) fun as has =>
      .step Visibility.advances_read fun _ =>
      .bind (yields_anyType n) fun t ht => .pure ⟨has, .inl ht⟩
  exact .bind hparts.spanned fun _ hf => .pure ⟨hf.attributes, hf.type⟩

end Field

namespace Fields

theorem yields_readNamed : Yields (readNamed (Nesting.levels n)) WereRead := by
  refine .bind (.inside (Yields.listUntil (Field.yields_readNamed n))) fun fs hfs => .pure ?_
  have hmem {f : Field} (hf : f ∈ fs.map (·.1)) : f.WasRead ∧ f.name.isSome = true := by
    obtain ⟨q, hq, rfl⟩ := List.mem_map.mp hf
    exact hfs q hq
  exact ⟨fun f hf => (hmem hf).1, fun l hl f hf => by cases hl; exact (hmem hf).2⟩

theorem yields_readUnnamed : Yields (readUnnamed (Nesting.levels n)) WereRead := by
  refine .bind (.inside (Yields.listUntil (Field.yields_readUnnamed n))) fun fs hfs => .pure ?_
  refine ⟨fun f hf => ?_, fun l hl => by cases hl⟩
  obtain ⟨q, hq, rfl⟩ := List.mem_map.mp hf
  exact hfs q hq

end Fields

/-! ## Declarations -/

/-- The parts of a declaration were read. -/
structure Item.WasRead (item : Item) : Prop where
  attributes : ∀ a ∈ item.attributes, a.WasRead
  fields : ∀ fs, item.data = .struct fs → fs.WereRead

namespace Item

theorem yields_readStruct : Yields (readStruct (Nesting.levels n)) fun s => s.2.WereRead := by
  refine .step (WhereClause.advances_read? n) fun conditions => .step (.front _) fun tuple => ?_
  split
  · exact .bind (Fields.yields_readUnnamed n) fun fs hfs =>
      .step (WhereClause.advances_read? n) fun _ => .step (.op _) fun _ =>
      .pure hfs
  · exact .ask (.bind (Fields.yields_readNamed n) fun fs hfs => .pure hfs) (.step (.op _) fun _ =>
      .pure (show Fields.WereRead .unit from ⟨nofun, nofun⟩))

theorem advances_readEnumeration : Advances (readEnumeration (Nesting.levels n)) := by
  have hvariant : Advances (readVariant (Nesting.levels n)) := by
    have hvalue : Advances (do
        if ← front (Front.op "=") then
          let _ ← op "="
          let _ ← (Nesting.levels n).expr true) :=
      .ask (.step (.op _) fun _ => .step (Nesting.advances_expr n true) fun _ => .pure trivial)
        (.pure trivial)
    refine .step (Attribute.yields_readAll (Nesting.advances_expr n true)).advances fun _ => ?_
    refine .step Visibility.advances_read fun _ => .step .identifier fun _ => ?_
    exact .ask (.step (Fields.yields_readNamed n).advances fun _ => hvalue)
      (.ask (.step (Fields.yields_readUnnamed n).advances fun _ => hvalue) hvalue)
  exact .step (WhereClause.advances_read? n) fun _ =>
    .step (Yields.inside (Yields.listUntil hvariant)).advances fun _ => .pure trivial

theorem advances_readUnion : Advances (readUnion (Nesting.levels n)) :=
  .step (WhereClause.advances_read? n) fun _ => .step (Fields.yields_readNamed n).advances fun _ =>
    .pure trivial

theorem yields_readWith : Yields (readWith (Nesting.levels n)) WasRead := by
  refine .bind (Attribute.yields_readAll (Nesting.advances_expr n true)) fun as has => ?_
  refine .step Visibility.advances_read fun visibility => .step .anyWord fun keyword => ?_
  have hdata : Yields (do
      let name ← identifier
      let generics ← Generics.read (Nesting.levels n)
      if keyword == "struct" then
        let s ← readStruct (Nesting.levels n)
        return ⟨as, visibility, name, { generics with conditions := s.1 }, .struct s.2⟩
      else if keyword == "enum" then
        let conditions ← readEnumeration (Nesting.levels n)
        return ⟨as, visibility, name, { generics with conditions := conditions }, .enumeration⟩
      else
        let conditions ← readUnion (Nesting.levels n)
        return ⟨as, visibility, name, { generics with conditions := conditions }, .union⟩)
        WasRead := by
    refine .step .identifier fun name => .step (Generics.advances_read n) fun generics => ?_
    split
    · exact .bind (yields_readStruct n) fun s hs =>
        .pure ⟨has, fun fs hfs => by cases hfs; exact hs⟩
    split
    · exact .step (advances_readEnumeration n) fun _ => .pure ⟨has, fun fs hfs => by cases hfs⟩
    · exact .step (advances_readUnion n) fun _ => .pure ⟨has, fun fs hfs => by cases hfs⟩
  show Yields (if _ then _ else _) _
  split
  · exact .step (.failWith _) fun _ => hdata
  · exact hdata

/-- **The parts of a declaration that was read from a text were read.** -/
theorem wasRead_of_ofText {text : String} {item : Item} (h : ofText text = .ok item) :
    item.WasRead := by
  unfold ofText readText at h
  cases hlex : lex text with
  | error e => simp [hlex] at h
  | ok ts =>
    simp only [hlex, whole] at h
    cases hread : read ts with
    | error e => simp [hread] at h
    | ok v =>
      obtain ⟨a, r⟩ := v
      have hparts := (yields_readWith (3 * ts.length + 3) ts (sound_of_lex hlex) a r hread).2
      cases r with
      | nil =>
        simp only [hread] at h
        cases h
        exact hparts
      | cons t r => simp [hread] at h

end Item

end KeyedRecord.Source
