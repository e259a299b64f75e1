import KeyedRecord.Proofs.Derive.Collection
import KeyedRecord.Proofs.Derive.DeclaredTypes
import KeyedRecord.Proofs.Derive.Keys
import KeyedRecord.Proofs.Derive.PropertyOrder

/-!
# Keys in generated text

A property may have any name.  Its key stands three times in the unit of its type: in the list of
keys, in the statement that inserts the member, and in the statement that casts it.  Each time it is
a string literal, and the text of the unit is read back there as the name, character by character.

Principal results: `IsPlace.spells`, by which a literal that is printed anywhere among tokens is
read back in their text; `spellsKey_of_render`, which finds the three places of the key of any
member; and `property_key_read_back`, for the properties of a declaration.
-/

set_option autoImplicit false

namespace KeyedRecord.Derive

open Source Code

/-! ## The text around a token -/

/-- What is printed in front of a token is the same whatever stands behind it. -/
theorem exists_textBefore (front : List Token) (t : Token) :
    ∃ before : String, ∀ back,
      canonicalText (front ++ t :: back) = before ++ canonicalText (t :: back) := by
  induction front with
  | nil => exact ⟨"", fun back => by simp⟩
  | cons a front ih =>
    obtain ⟨before, ih⟩ := ih
    cases front with
    | nil => exact ⟨a.text ++ separator a t, fun back => rfl⟩
    | cons b front =>
      refine ⟨a.text ++ separator a b ++ before, fun back => ?_⟩
      have hrest := ih back
      rw [List.cons_append] at hrest
      rw [List.cons_append, List.cons_append, canonicalText, hrest]
      simp only [String.append_assoc]

theorem exists_canonicalText_cons (t : Token) (back : List Token) :
    ∃ rest, canonicalText (t :: back) = t.text ++ rest := by
  cases back with
  | nil => exact ⟨"", by simp [canonicalText]⟩
  | cons b back => exact ⟨_, by rw [canonicalText, String.append_assoc]⟩

/-- No word follows a literal directly: a blank does, or the end of brackets. -/
theorem exists_textBehind (lit : String) (back : List Token) :
    ∃ after, canonicalText (.literal lit :: back) = lit ++ after ∧
      Lexer.word after.toList = none := by
  cases back with
  | nil => exact ⟨"", by simp [canonicalText, Token.text], rfl⟩
  | cons b back =>
    have noWord {c : Char} {s r : String} (hs : s.toList = [c]) (hc : Text.isWordStart c = false) :
        Lexer.word (s ++ r).toList = none := by
      simp [hs, Lexer.word, hc]
    refine ⟨separator (.literal lit) b ++ canonicalText (b :: back),
      by rw [canonicalText, Token.text, String.append_assoc], ?_⟩
    cases hb : b.hugsPrevious with
    | false =>
      have hblank : separator (.literal lit) b = " " := by
        rw [separator, hb]
        rfl
      rw [hblank]
      exact noWord (c := ' ') rfl (by decide)
    | true =>
      obtain ⟨rest, hrest⟩ := exists_canonicalText_cons b back
      have hnone : separator (.literal lit) b = "" := by
        rw [separator, hb]
        rfl
      rw [hnone, String.empty_append, hrest]
      have hclose : b = .closing .paren ∨ b = .closing .bracket := by
        unfold Token.hugsPrevious at hb
        split at hb
        · exact .inl rfl
        · exact .inr rfl
        · cases hb
      rcases hclose with rfl | rfl
      · exact noWord (c := ')') rfl (by decide)
      · exact noWord (c := ']') rfl (by decide)

/-! ## Literals in code -/

/-- Where the lexer gets to the literal, whatever it read before, it takes it as one token of the
value `k`, and goes on with what stands behind it. -/
def ReadsString (lit k after : String) : Prop :=
  ∀ (fuel : Nat) (p : Position) (stack : List (Delimiter × Position)),
    let t : Placed := ⟨.literal lit, ⟨p, p.advance lit.toList⟩⟩
    StringLiteral.ofPlaced? t = some ⟨k, "", t.span⟩ ∧
      Lexer.lexFrom (fuel + 1) p stack (lit ++ after).toList =
        (t :: ·) <$> Lexer.lexFrom fuel t.span.stop stack after.toList

theorem readsString_literal (k : String) {after : String} (h : Lexer.word after.toList = none) :
    ReadsString (Text.literal k) k after := by
  intro fuel p stack
  constructor
  · simp [StringLiteral.ofPlaced?, StringLiteral.decode_literal]
  · rw [String.toList_append]
    exact StringLiteral.lexFrom_literal k h fuel p stack

/-- At a place in the code, which is given as a function of the tokens that stand there, the text of
the code is read as the string `k`. -/
def Spells (place : List Token → List Token) (code : List Token) (k : String) : Prop :=
  ∃ (lit : String) (front back : List Token) (before after : String),
    (∀ ts, place ts = front ++ ts ++ back) ∧ code = place [.literal lit] ∧
    canonicalText (front ++ [.literal lit]) = before ++ lit ∧
    canonicalText code = before ++ lit ++ after ∧ ReadsString lit k after

/-- The function puts the same tokens around whatever it is given. -/
def IsPlace (place : List Token → List Token) : Prop :=
  ∃ front back, ∀ ts, place ts = front ++ ts ++ back

namespace IsPlace

variable {place : List Token → List Token}

/-- **Where a literal is printed for a text, the text is read back.** -/
theorem spells (h : IsPlace place) (k : String) : Spells place (place (text k)) k := by
  obtain ⟨front, back, h⟩ := h
  obtain ⟨before, hbefore⟩ := exists_textBefore front (.literal (Text.literal k))
  obtain ⟨after, hafter, hword⟩ := exists_textBehind (Text.literal k) back
  refine ⟨Text.literal k, front, back, before, after, h, rfl, hbefore [], ?_,
    readsString_literal k hword⟩
  rw [h, text, List.append_assoc, List.singleton_append, hbefore, hafter, String.append_assoc]

theorem gap : IsPlace fun ts => ts := ⟨[], [], fun ts => (List.append_nil ts).symm⟩

theorem after (h : IsPlace place) (us : List Token) : IsPlace fun ts => us ++ place ts := by
  obtain ⟨front, back, h⟩ := h
  exact ⟨us ++ front, back, fun ts => by simp only [h, List.append_assoc]⟩

theorem before (h : IsPlace place) (us : List Token) : IsPlace fun ts => place ts ++ us := by
  obtain ⟨front, back, h⟩ := h
  exact ⟨front, back ++ us, fun ts => by simp only [h, List.append_assoc]⟩

theorem bracketed (h : IsPlace place) (d : Delimiter) :
    IsPlace fun ts => .opening d :: place ts ++ [.closing d] :=
  (h.after [.opening d]).before [.closing d]

/-- One of several items with commas between them. -/
theorem commas (h : IsPlace place) (front back : List (List Token)) :
    IsPlace fun ts => Code.commas (front ++ place ts :: back) := by
  induction front with
  | nil =>
    cases back with
    | nil => simpa [Code.commas] using h
    | cons b back => simpa [Code.commas] using h.before (p "," ++ Code.commas (b :: back))
  | cons a front ih =>
    have hcons (ts : List Token) : Code.commas (a :: front ++ place ts :: back) =
        (a ++ p ",") ++ Code.commas (front ++ place ts :: back) := by
      cases front <;> simp [Code.commas]
    simp only [hcons]
    exact ih.after _

section

variable {d : TypeDescriptor} {crate : Phrase} {keys toDict fromDict : List Token}
  {parameter : String}

theorem inKeys (h : IsPlace place) :
    IsPlace fun ts => unitFrame d crate (place ts) toDict parameter fromDict := by
  have hkeys : IsPlace fun ts => keysFrame d.accessibility (place ts) :=
    h.bracketed .bracket |>.after _ |>.before _
  exact hkeys.bracketed .brace |>.after _ |>.before _ |>.before _ |>.before _ |>.before _
    |>.before _ |>.before _ |>.before _

theorem inToDict (h : IsPlace place) :
    IsPlace fun ts => unitFrame d crate keys (place ts) parameter fromDict := by
  have hbody : IsPlace fun ts => toDictHead crate "to_dict" ++ brace (place ts) :=
    h.bracketed .brace |>.after _
  exact hbody.after _ |>.before _ |>.bracketed .brace |>.after _

theorem inFromDict (h : IsPlace place) :
    IsPlace fun ts => unitFrame d crate keys toDict parameter (place ts) := by
  have hbody : IsPlace fun ts => fromDictHead crate "from_dict" parameter ++ brace (place ts) :=
    h.bracketed .brace |>.after _
  exact hbody.after _ |>.bracketed .brace |>.after _

end

end IsPlace

/-! ## The places of a key -/

/-- The list of keys, with a gap behind those of some members and in front of those of others. -/
def keysAround (before after : List Slot) (key : List Token) : List Token :=
  commas (before.map (text ·.key) ++ key :: after.map (text ·.key))

/-- The statement that inserts a member, with a gap for its key. -/
def insertAround (crate : Phrase) (source : Access) (key : List Token) : List Token :=
  w "ret" ++ p "." ++ w "insert" ++ paren (
    absolute ["std", "string", "String", "from"] ++ paren key ++ p "," ++
    inCrate crate ["ToValue", "to_value"] ++ paren source.readTokens ++ p ",") ++ p ";"

/-- The statement that casts what stands under a key into a local, with a gap for the key. -/
def castAround (crate : Phrase) (slot : Nat) (type : Phrase) (key : List Token) : List Token :=
  w "let" ++ local_ slot ++ p "=" ++ inCrate crate ["get_as"] ++ p "::" ++ p "<" ++
    type.printed ++ p ">" ++ paren (w "dict" ++ p "," ++ key) ++ p "?" ++ p ";"

/-- The casts of slots whose locals are numbered from `n` on. -/
def castsFrom (n : Nat) (slots : List Slot) : List Statement :=
  (numbered n slots).map fun (i, s) => .cast i s.type s.key

/-- The body that fills a dictionary, with a gap for the key of one member. -/
def toDictAround (crate : Phrase) (before : List Slot) (c : Slot) (after : List Slot)
    (key : List Token) : List Token :=
  freshBody crate (toString (before.length + 1 + after.length) ++ "usize") ++ p ";" ++
    (statementTokens crate (Conversion.ofSlots before).inserts ++ insertAround crate c.access key ++
      statementTokens crate (Conversion.ofSlots after).inserts) ++ w "ret"

/-- The body that reads a dictionary, with a gap for the key of one member. -/
def fromDictAround (crate : Phrase) (before : List Slot) (c : Slot) (after : List Slot)
    (key : List Token) : List Token :=
  statementTokens crate (castsFrom 0 before) ++ castAround crate before.length c.type key ++
    statementTokens crate (castsFrom (before.length + 1) after) ++
    statementTokens crate (Conversion.ofSlots (before ++ c :: after)).writes ++ success

/-- The unit of a type with three gaps for the key of one member. -/
def unitAround (d : TypeDescriptor) (crate : Phrase) (before : List Slot) (c : Slot)
    (after : List Slot) (inKeys inToDict inFromDict : List Token) : UnitCode :=
  unitFrame d crate (keysAround before after inKeys) (toDictAround crate before c after inToDict)
    "dict" (fromDictAround crate before c after inFromDict)

/-- The key of a member, at its three places in the text of a unit. -/
structure SpellsKey (d : TypeDescriptor) (crate : Phrase) (before : List Slot) (c : Slot)
    (after : List Slot) (code : UnitCode) (k : String) : Prop where
  inKeys : Spells (fun key => unitAround d crate before c after key (text k) (text k)) code k
  inToDict : Spells (fun key => unitAround d crate before c after (text k) key (text k)) code k
  inFromDict : Spells (fun key => unitAround d crate before c after (text k) (text k) key) code k

theorem numbered_append {α : Type} (n : Nat) (as bs : List α) :
    numbered n (as ++ bs) = numbered n as ++ numbered (n + as.length) bs := by
  induction as generalizing n with
  | nil => rfl
  | cons a as ih =>
    rw [List.cons_append, numbered, numbered, ih, List.length_cons, List.cons_append,
      Nat.add_right_comm, Nat.add_assoc]

section

variable (d : TypeDescriptor) (crate : Phrase) (before : List Slot) (c : Slot) (after : List Slot)

theorem statementTokens_append (ss ss' : List Statement) :
    statementTokens crate (ss ++ ss') = statementTokens crate ss ++ statementTokens crate ss' :=
  List.flatMap_append

theorem statementTokens_inserts :
    statementTokens crate (Conversion.ofSlots (before ++ c :: after)).inserts =
      statementTokens crate (Conversion.ofSlots before).inserts ++
        insertAround crate c.access (text c.key) ++
        statementTokens crate (Conversion.ofSlots after).inserts := by
  simp only [Conversion.ofSlots, List.map_append, List.map_cons, statementTokens_append,
    List.append_assoc]
  rfl

theorem statementTokens_casts :
    statementTokens crate (Conversion.ofSlots (before ++ c :: after)).casts =
      statementTokens crate (castsFrom 0 before) ++
        castAround crate before.length c.type (text c.key) ++
        statementTokens crate (castsFrom (before.length + 1) after) := by
  have hcasts : (Conversion.ofSlots (before ++ c :: after)).casts =
      castsFrom 0 before ++ .cast before.length c.type c.key ::
        castsFrom (before.length + 1) after := by
    simp only [Conversion.ofSlots, castsFrom, numbered_append, numbered, List.map_append,
      List.map_cons, Nat.zero_add]
  rw [hcasts, statementTokens_append, List.append_assoc]
  rfl

theorem toDictBody_eq : toDictBody crate (.ofSlots (before ++ c :: after)) =
    toDictAround crate before c after (text c.key) := by
  have hlength : (Conversion.ofSlots (before ++ c :: after)).keys.length =
      before.length + 1 + after.length := by
    simp [Conversion.ofSlots]
    omega
  have hkeys : ¬ (Conversion.ofSlots (before ++ c :: after)).keys.isEmpty = true := by
    simp [Conversion.ofSlots]
  rw [toDictBody, if_neg hkeys, hlength, Conversion.toDict, statementTokens_inserts]
  rfl

theorem fromDictBody_eq : fromDictBody crate (.ofSlots (before ++ c :: after)) =
    fromDictAround crate before c after (text c.key) := by
  rw [fromDictBody, Conversion.fromDict, statementTokens_append, statementTokens_casts]
  rfl

/-- The unit is printed with the key of the member in all three gaps. -/
theorem unitTokens_eq_unitAround : unitTokens d crate (.ofSlots (before ++ c :: after)) =
    unitAround d crate before c after (text c.key) (text c.key) (text c.key) := by
  have hparameter : fromDictParameter (.ofSlots (before ++ c :: after)) = "dict" := by
    simp [fromDictParameter, Conversion.ofSlots]
  rw [unitTokens_eq, toDictBody_eq, fromDictBody_eq, hparameter]
  simp only [List.map_append, List.map_cons, List.map_map]
  rfl

theorem isPlace_insertAround (source : Access) : IsPlace (insertAround crate source) := by
  have hkey : IsPlace fun key => absolute ["std", "string", "String", "from"] ++ paren key :=
    IsPlace.gap.bracketed .paren |>.after _
  exact hkey.before _ |>.before _ |>.before _ |>.before _ |>.bracketed .paren |>.after _
    |>.before _

theorem isPlace_castAround (slot : Nat) (type : Phrase) : IsPlace (castAround crate slot type) :=
  IsPlace.gap.after _ |>.bracketed .paren |>.after _ |>.before _ |>.before _

theorem isPlace_toDictAround : IsPlace (toDictAround crate before c after) :=
  isPlace_insertAround crate c.access |>.after _ |>.before _ |>.after _ |>.before _

theorem isPlace_fromDictAround : IsPlace (fromDictAround crate before c after) :=
  isPlace_castAround crate before.length c.type |>.after _ |>.before _ |>.before _ |>.before _

/-- **The key of a member is read back at each of its three places.** -/
theorem spellsKey_unitTokens : SpellsKey d crate before c after
    (unitTokens d crate (.ofSlots (before ++ c :: after))) c.key := by
  have hkeys : IsPlace (keysAround before after) := IsPlace.gap.commas _ _
  rw [unitTokens_eq_unitAround]
  exact ⟨hkeys.inKeys.spells c.key, (isPlace_toDictAround ..).inToDict.spells c.key,
    (isPlace_fromDictAround ..).inFromDict.spells c.key⟩

end

/-- In rendered code this holds of every member, be it a field or a property. -/
theorem spellsKey_of_render {d : TypeDescriptor} {crate : Phrase} {code : UnitCode}
    (hr : render d crate = .ok code) {others others' : List MemberDescriptor} {m : MemberDescriptor}
    (hm : d.members = others ++ m :: others') :
    ∃ before c after, List.Forall₂ (fun m c => c.Of m) others before ∧ c.Of m ∧
      List.Forall₂ (fun m c => c.Of m) others' after ∧
      SpellsKey d crate before c after code m.name := by
  obtain ⟨slots, hslots⟩ := exists_slots_of_render hr
  have hcode : code = unitTokens d crate (.ofSlots slots) := by
    simp only [render, Conversion.ofDescriptor, hslots] at hr
    exact (Except.ok.inj hr).symm
  have hof : List.Forall₂ (fun m c => c.Of m) (others ++ m :: others') slots :=
    hm ▸ (mapM_eq_ok_iff.mp hslots).imp fun _ _ h => slot_of h
  have hbefore := List.forall₂_take others.length hof
  have hrest := List.forall₂_drop others.length hof
  rw [List.take_left] at hbefore
  rw [List.drop_left] at hrest
  obtain ⟨c, after, hc, hafter, hdrop⟩ := List.forall₂_cons_left_iff.mp hrest
  have hspells := spellsKey_unitTokens d crate (slots.take others.length) c after
  rw [← hdrop, List.take_append_drop, ← hcode, hc.1] at hspells
  exact ⟨slots.take others.length, c, after, hbefore, hc, hafter, hspells⟩

/-! ## The main result -/

/-- A property of the name is declared, and takes part as the member. -/
def HasProperty (item : Item) (k : String) (m : MemberDescriptor) : Prop :=
  ∃ container p, ContainerAttributes.ofAttributes item.attributes = .ok container ∧
    p ∈ container.properties ∧ p.name = k ∧ p.member.select = some m

theorem HasProperty.access {item : Item} {k : String} {m : MemberDescriptor}
    (h : HasProperty item k m) :
    m.name = k ∧ ∃ getter setter, m.access = .property getter setter := by
  obtain ⟨container, p, -, -, rfl, hs⟩ := h
  obtain ⟨hname, -, haccess⟩ := MemberDecl.of_select hs
  refine ⟨hname, ?_⟩
  cases hm : m.access with
  | field place =>
    rw [hm] at haccess
    cases MemberDecl.kind_of_access haccess
  | property getter setter => exact ⟨getter, setter, rfl⟩

/-- The member of a property is one of the descriptor. -/
theorem HasProperty.mem_members {item : Item} {k : String} {m : MemberDescriptor}
    (h : HasProperty item k m) {decl : TypeDecl} (hdecl : TypeDecl.ofItem item = .ok decl)
    {d : TypeDescriptor} (hd : decl.descriptor = some d) : m ∈ d.members := by
  obtain ⟨container, p, hc, hp, -, hs⟩ := h
  obtain ⟨entries, he, rfl⟩ := ContainerAttributes.ofAttributes_eq_ok_iff.mp hc
  obtain ⟨kind, hkind, hmembers⟩ := TypeDecl.of_descriptor hd
  have hshape := (TypeDecl.head_of_ofItem hdecl).2
  rw [hkind] at hshape
  cases hdata : item.data with
  | enumeration | union =>
    rw [hdata] at hshape
    cases hshape
  | struct fields =>
    obtain ⟨entries', fieldTable, he', -, -, -, -, htable⟩ := TypeDecl.of_ofItem hdata hdecl
    cases he.symm.trans he'
    rw [hmembers, TypeDecl.selected, htable]
    exact List.mem_filterMap.mpr
      ⟨p.member, List.mem_append_left _ (List.mem_map_of_mem hp), hs⟩

/-- The entries of a property that is read and written, under a name that is written as the literal.
-/
def propertyItems (lit : String) : List (List Placed) :=
  [valueItem "name" lit, valueItem "ty" "\"u8\"", valueItem "get" "\"get\"",
    valueItem "set" "\"set\""]

/-- The property as an argument of an attribute. -/
def propertyArgument (lit : String) : List Placed :=
  ⟨.ident "property", nowhere⟩ :: ⟨.opening .paren, nowhere⟩ ::
    (commaSeparated (propertyItems lit) ++ [⟨.closing .paren, nowhere⟩])

/-- A structure without fields that has the property. -/
def oneProperty (lit : String) : Item :=
  ⟨[helperAttribute (propertyArgument lit)], .unrestricted, "S", .empty, .struct .unit⟩

section

variable {lit k suffix : String} (h : StringLiteral.decode lit = some (k, suffix))
include h

theorem written_propertyArgument : ContainerEntry.Written (propertyArgument lit) (.property
    ⟨k, nowhere, .word "u8", some "get", some "set", .unrestricted, false, false⟩) := by
  have value {key text : String} {s : StringLiteral}
      (hs : StringLiteral.ofPlaced? ⟨.literal text, nowhere⟩ = some s) :
      IsValue key s (valueItem key text) := ⟨nowhere, false, nowhere, _, rfl, hs⟩
  have hname : StringLiteral.ofPlaced? ⟨.literal lit, nowhere⟩ = some ⟨k, suffix, nowhere⟩ := by
    simp [StringLiteral.ofPlaced?, h]
  have hitems : List.Forall₂ PropertyEntry.Written (propertyItems lit)
      [.name ⟨k, suffix, nowhere⟩, .type (.word "u8"), .getter "get", .setter "set"] := by
    refine .cons (value hname) (.cons ?_ (.cons ?_ (.cons ?_ .nil)))
    · exact ⟨⟨"u8", "", nowhere⟩, value (by decide), by decide +kernel⟩
    · exact ⟨⟨"get", "", nowhere⟩, value (by decide), by decide +kernel⟩
    · exact ⟨⟨"set", "", nowhere⟩, value (by decide), by decide +kernel⟩
  exact ⟨commaSeparated (propertyItems lit), _, ⟨nowhere, nowhere, .paren, nowhere, rfl⟩, by simp,
    ⟨_, separated_commaSeparated _, hitems⟩, rfl⟩

/-- Whatever the name is, the declaration is accepted. -/
theorem accepts_oneProperty :
    ∃ m d code, HasProperty (oneProperty lit) k m ∧ Accepts (oneProperty lit) d code := by
  have hlaid : LaysOut [propertyArgument lit] (oneProperty lit).attributes :=
    .list rfl rfl (.last _) .nil
  have hwritten := written_propertyArgument h
  have hentries := (hlaid.allEntries_eq_ok_iff containerEntry_reads
    (fun _ _ => ContainerEntry.isItem_of_written)
    (List.forall_mem_singleton.mpr (ContainerEntry.isItem_of_written hwritten))).mpr
    (.cons hwritten .nil)
  have hdata : (oneProperty lit).data = .struct .unit := rfl
  obtain ⟨decl, hdecl, hkind, -, hmembers⟩ :=
    TypeDecl.ofItem_ok hdata hentries rfl (List.nodup_singleton k)
  obtain ⟨d, hd, hselected⟩ := TypeDecl.descriptor_of_kind hkind
  have hproperty : HasProperty (oneProperty lit) k ⟨k, "u8", .property "get" "set"⟩ :=
    ⟨_, _, ContainerAttributes.ofAttributes_eq_ok_iff.mpr ⟨_, hentries, rfl⟩,
      List.mem_singleton.mpr rfl, rfl, rfl⟩
  have hmem : d.members = [⟨k, "u8", .property "get" "set"⟩] := by
    rw [hselected, TypeDecl.selected, hmembers]
    rfl
  have htype : readText readType "u8" = .ok (.word "u8") := by decide +kernel
  obtain ⟨code, hcode⟩ := (exists_render_iff decl.crate).mpr fun m (hm : m ∈ d.members) => by
    rw [hmem, List.mem_singleton] at hm
    exact ⟨.word "u8", hm ▸ htype⟩
  exact ⟨_, d, code, hproperty, decl, hdecl, hd, hcode⟩

end

/-- **A property may have any name, and all code for it uses this name as the key.**  Whatever
literal the name is written as, it is no reason against the declaration.  In the unit of every
declaration that has a property of the name among its selected members, the list of keys, the insert
and the cast of the member spell the same key, which is the name: the text of the unit is read there
as a string literal without a suffix, and with the name as its value. -/
theorem property_key_read_back (k : String) :
    (∀ lit suffix, StringLiteral.decode lit = some (k, suffix) →
      ∃ m d code, HasProperty (oneProperty lit) k m ∧ Accepts (oneProperty lit) d code) ∧
    ∀ item m d code, HasProperty item k m → Accepts item d code →
      ∃ decl others others' before c after, TypeDecl.ofItem item = .ok decl ∧
        decl.descriptor = some d ∧ d.members = others ++ m :: others' ∧
        List.Forall₂ (fun m c => c.Of m) others before ∧ c.Of m ∧
        List.Forall₂ (fun m c => c.Of m) others' after ∧
        m.name = k ∧ (∃ getter setter, m.access = .property getter setter) ∧
        SpellsKey d decl.crate before c after code k := by
  refine ⟨fun lit suffix => accepts_oneProperty, ?_⟩
  rintro item m d code hm ⟨decl, hdecl, hd, hr⟩
  obtain ⟨hname, haccess⟩ := hm.access
  obtain ⟨others, others', hsplit⟩ := List.append_of_mem (hm.mem_members hdecl hd)
  obtain ⟨before, c, after, hb, hc, ha, hspells⟩ := spellsKey_of_render hr hsplit
  exact ⟨decl, others, others', before, c, after, hdecl, hd, hsplit, hb, hc, ha, hname, haccess,
    hname ▸ hspells⟩

/-- The name `NUL 1 " \ DEL`, written with escapes of three kinds. -/
def awkwardLiteral : String := "\"\\0\\x31\\\"\\\\\\u\x7b7f\x7d\""

/-- What the literal stands for. -/
def awkwardName : String := "\x001\"\\\x7f"

theorem property_key_read_back_awkward :
    StringLiteral.decode awkwardLiteral = some (awkwardName, "") ∧
    Text.literal awkwardName = "\"\\x001\\\"\\\\\\u\x7b7f\x7d\"" ∧
    ∃ (decl : TypeDecl) (d : TypeDescriptor) (code : UnitCode) (m : MemberDescriptor)
      (before : List Slot) (c : Slot) (after : List Slot),
      HasProperty (oneProperty awkwardLiteral) awkwardName m ∧
      Accepts (oneProperty awkwardLiteral) d code ∧ decl.descriptor = some d ∧ c.Of m ∧
      SpellsKey d decl.crate before c after code awkwardName := by
  have hdecode : StringLiteral.decode awkwardLiteral = some (awkwardName, "") := by decide +kernel
  obtain ⟨hany, hspells⟩ := property_key_read_back awkwardName
  obtain ⟨m, d, code, hm, ha⟩ := hany awkwardLiteral "" hdecode
  obtain ⟨decl, -, -, before, c, after, -, hd, -, -, hc, -, -, -, hkey⟩ := hspells _ m d code hm ha
  exact ⟨hdecode, by decide +kernel, decl, d, code, m, before, c, after, hm, ha, hd, hc, hkey⟩

end KeyedRecord.Derive
