import KeyedRecord.Proofs.Source.EchoAtoms
import KeyedRecord.Proofs.Source.Leaves

/-!
# Operands echo

An operand is an atom with the signs before and behind it.  All but one kind of sign is printed as
it was read: a source may join the positions of two fields to one number, which the print keeps
apart, so that the second run takes two steps where the first one took one.

Principal result: `operand_echo`.
-/

set_option autoImplicit false

namespace KeyedRecord.Source

open Grammar

variable {g g' : Nesting} {K J L : Nat} {M E : Sight} {ts u : List Placed} {b f : Bool}

/-- A sequence goes on where its first reader stopped. -/
theorem Reader.bind_of_ok {α β : Type} {p : Reader α} {k : α → Reader β} {a : α}
    {ts r : List Placed} (h : p ts = .ok (a, r)) : (p >>= k) ts = k a r := by
  simp [bind, StateT.bind, Except.bind, h]

/-! ## Signs before an atom -/

theorem AtomStart.of_attribute {M : Sight} (h : Attribute.Start M ts u)
    (hts : Front.op "#" ts = true) : AtomStart ts u := by
  rcases h with h | h
  · exact .of_no_word (.of_pound h) (h.no_leaf (by decide)).1
  · exact absurd hts (by simp [h.1])

namespace Grammar

/-- The words of a pointer stand here. -/
def startsRaw (ts : List Placed) : Bool :=
  Front.word "raw" ts && (Front.word "mut" (ts.drop 1) || Front.word "const" (ts.drop 1))

/-- What may stand behind the sign of a reference. -/
def afterAmpersand (amp : Phrase) : Reader (Option Phrase) := do
  if ← Reader.front startsRaw then
    let raw ← Reader.word "raw"
    if ← Reader.front (Front.word "mut") then return some (amp ++ raw ++ (← Reader.word "mut"))
    else return some (amp ++ raw ++ (← Reader.word "const"))
  else return some (amp ++ (← word? "mut"))

theorem leader_eq (g : Nesting) : leader g = (do
    if ← Reader.front (Front.op "&") then Reader.op "&" >>= afterAmpersand
    else if ← Reader.front (Front.op "*") then return some (← Reader.op "*")
    else if ← Reader.front (Front.op "!") then return some (← Reader.op "!")
    else if ← Reader.front (Front.op "-") then return some (← Reader.op "-")
    else if ← Reader.front (Front.op "#") then return some (← g.attributes)
    else return none) := rfl

theorem afterAmpersand_echo (amp : Phrase) :
    EchoAt L (.option .phrase) amp.printed (fun _ _ => True) (fun _ => AtomStart)
      (afterAmpersand amp)
      (afterAmpersand amp.canonical) ts := by
  unfold afterAmpersand
  refine .ask (Y := OnToken (.ident "raw") fun ts u => OnToken (.ident "mut") .any ts u ∨
    OnToken (.ident "const") .any ts u)
    (N := fun ts u => OnToken (.ident "mut") .any ts u ∨ AtomStart ts u) (fun _ => ?_) (fun _ => ?_)
    (fun _ u hu => ⟨?_, trivial⟩) fun hts u hu => ⟨?_, trivial⟩
  · refine .word_then fun s r _ => ?_
    refine .ask (Y := OnToken (.ident "mut") .any) (N := OnToken (.ident "const") .any)
      (fun _ => ?_) (fun _ => ?_) (fun _ u hu => ⟨?_, .inl hu⟩) fun _ u hu => ⟨?_, .inr hu⟩
    · exact ((EchoAt.word (M := AtomStart)).weaken fun _ => OnToken.anything).last
        (Nat.le_add_right _ _) (by simp [Form.option, Form.phrase]) fun _ => rfl
    · exact ((EchoAt.word (M := AtomStart)).weaken fun _ => OnToken.anything).last
        (Nat.le_add_right _ _) (by simp [Form.option, Form.phrase]) fun _ => rfl
    all_goals
      obtain ⟨s, r, s', v, rfl, rfl, -⟩ := hu
      simp [Front.word]
  · exact ((word?_echo fun ts u hu => .of_eq (hu.word _)).weaken fun u hu =>
      hu.imp_left OnToken.anything).last
      (Nat.le_add_right _ _) (by simp [Form.option, Form.phrase]) fun _ => rfl
  · obtain ⟨s, r, s', v, rfl, rfl, hu | hu⟩ := hu <;>
      (obtain ⟨s, r, s', v, rfl, rfl, -⟩ := hu; simp [startsRaw, Front.word])
  · rcases hu with ⟨s, r, s', v, rfl, rfl, -⟩ | hu
    · simp [startsRaw, Front.word]
    · exact hu.raw hts

theorem leader_echo (h : g.Echo g' K J) :
    EchoAt (K + 3) (.option .phrase) [] AtomStart (fun _ => AtomStart) (leader g)
      (leader g') ts := by
  have hsign (s : String) (hs : IsOperatorText s.toList) (hb : beginsPhrase s.toList = true) :
      EchoAt (K + 3) (.option .phrase) [] AtomStart (fun _ => AtomStart)
        (do return some (← Reader.op s)) (do return some (← Reader.op s)) ts :=
    ((EchoAt.op hs).weaken fun u hu => .of_operator hb hu).last (Nat.le_add_right _ _)
      (by simp [Form.option, Form.phrase]) fun _ => rfl
  rw [leader_eq, leader_eq]
  refine .ask_eq (fun u hu => hu.sign rfl) (fun _ => ?_) fun _ => ?_
  · exact EchoAt.weaken (.op_then (by decide) fun _ => afterAmpersand_echo (.operator "&"))
      fun u hu => .of_operator (by decide) hu
  refine .ask_eq (fun u hu => hu.sign rfl) (fun _ => hsign "*" (by decide) (by decide)) fun _ => ?_
  refine .ask_eq (fun u hu => hu.sign rfl) (fun _ => hsign "!" (by decide) (by decide)) fun _ => ?_
  refine .ask_eq (fun u hu => hu.sign rfl) (fun _ => ?_) fun _ => ?_
  · refine ((EchoAt.op (M := AtomStart) (by decide)).weaken fun u hu => ?_).last
      (Nat.le_add_right _ _) (by simp [Form.option, Form.phrase]) fun _ => rfl
    have hminus := hu.mono (W := Onset) fun _ h => h.toOnset
    exact .of_no_word (.of_minus hminus) (hu.no_leaf (by decide)).1
  refine .ask_eq (fun u hu => hu.sign rfl) (fun hts => ?_) fun _ => .pure rfl rfl fun _ h => h
  exact ((Attribute.attributes_echo h fun ts u hu => .of_eq (hu.sign rfl)).weaken fun u hu =>
    .of_attribute hu hts).last
    (Nat.le_add_right _ _) (by simp [Form.option, Form.phrase]) fun _ => rfl

theorem printed_of_op {s : String} (hs : s.toList ≠ []) {p : Phrase} {r : List Placed}
    (h : Reader.op s ts = .ok (p, r)) :
    p.printed ≠ [] := by
  unfold Reader.op at h
  split at h
  · cases h
    intro hnil
    have := length_operatorTokens s.toList
    rw [show operatorTokens s.toList = [] from hnil] at this
    exact hs (List.length_eq_zero_iff.mp this.symm)
  · cases h

/-- The attributes that stand before an expression print something. -/
theorem printed_of_attributes (h : g.Echo g' K J) (hs : Sound (tokensOf ts)) {p : Phrase}
    {r : List Placed}
    (hp : g.attributes ts = .ok (p, r)) (hts : Front.op "#" ts = true) : p.printed ≠ [] := by
  refine EchoAt.printed_ne (E := fun _ => Denies (Front.op "#"))
    (Attribute.attributes_echo h fun _ _ => id) hs hp
    (.of_false rfl) ?_
  rintro (hS | hS)
  · exact Bool.false_ne_true (hS.op_self (by decide))
  · exact absurd hts (by simp [hS.1])

theorem printed_of_leader (h : g.Echo g' K J) (hs : Sound (tokensOf ts)) {p : Phrase}
    {r : List Placed} (hp : leader g ts = .ok (some p, r)) : p.printed ≠ [] := by
  rw [leader_eq, Reader.ask_apply] at hp
  split at hp
  · rw [Reader.op_bind] at hp
    obtain ⟨_, r₁, -, hp⟩ := Reader.bind_eq_ok hp
    rw [afterAmpersand, Reader.ask_apply] at hp
    split at hp
    · obtain ⟨_, r₂, -, hp⟩ := Reader.bind_eq_ok hp
      rw [Reader.ask_apply] at hp
      split at hp <;>
        (obtain ⟨_, r₂, -, hp⟩ := Reader.bind_eq_ok hp; cases hp; simp [operatorTokens])
    · obtain ⟨_, r₂, -, hp⟩ := Reader.bind_eq_ok hp
      cases hp
      simp [operatorTokens]
  · have hsign (s : String) (hs : s.toList ≠ [])
      (hp : (do return some (← Reader.op s) : Reader (Option Phrase)) ts = .ok (some p, r)) :
        p.printed ≠ [] := by
      obtain ⟨_, r₁, ho, hp⟩ := Reader.bind_eq_ok hp
      cases hp
      exact printed_of_op hs ho
    rw [Reader.ask_apply] at hp
    split at hp
    · exact hsign "*" (by decide) hp
    rw [Reader.ask_apply] at hp
    split at hp
    · exact hsign "!" (by decide) hp
    rw [Reader.ask_apply] at hp
    split at hp
    · exact hsign "-" (by decide) hp
    rw [Reader.ask_apply] at hp
    split at hp
    · obtain ⟨_, r₁, ha, hp⟩ := Reader.bind_eq_ok hp
      cases hp
      exact printed_of_attributes h hs ha ‹_›
    · cases hp

theorem leaders_echo (h : g.Echo g' K J) :
    EchoAt (K + 3) .phrase [] AtomStart (fun _ => AtomStart) (Reader.many (leader g))
      (Reader.many (leader g')) ts :=
  .many (fun _ => leader_echo h) fun _ _ _ hs hp => printed_of_leader h hs hp

/-! ## Positions of fields -/

theorem exists_of_isIndex {text : String} (h : isIndex text = true) :
    Lexer.wholeDigits text.toList = some (text.toList, []) := by
  unfold isIndex at h
  split at h
  · rename_i a hw
    obtain ⟨heq, -⟩ := Lexer.wholeScan hw
    rw [hw, heq, List.append_nil]
  · cases h

theorem lexable_of_isIndex {text : String} (h : isIndex text = true) :
    (Token.literal text).Lexable := by
  have hwhole := exists_of_isIndex h
  have hstart := (Lexer.wholeScan hwhole).2.start
  have htrivia : Lexer.trivia text.toList = none := by
    rcases hl : text.toList with _ | ⟨c, t⟩
    · rfl
    · have hc : Text.isAsciiDigit c = true := by simpa [hl, Lexer.startsDigit] using hstart
      have := Lexer.of_ascii (q := fun c => !Text.isAsciiDigit c ||
        (!Lexer.isBlank c && decide (c ≠ '/'))) (by decide +kernel) (Lexer.toNat_lt_of_digit hc)
      simp only [hc, Bool.not_true, Bool.false_or, Bool.and_eq_true, Bool.not_eq_true',
        decide_eq_true_eq] at this
      exact (Lexer.trivia_none this.2 this.1 t).1
  simpa using Lexer.lexable_of_literal (Lexer.literal_of_whole hwhole) htrivia

/-- A position has no dot. -/
theorem no_dot_of_isIndex {text : String} (h : isIndex text = true) :
    ∀ c ∈ text.toList, (c != '.') = true := by
  intro c hc
  have := (Lexer.wholeScan (exists_of_isIndex h)).2.chars c hc
  rw [bne_iff_ne]
  rintro rfl
  exact absurd this (by decide)

theorem positions_of_isIndex {text : String} (h : isIndex text = true) : positions text = none := by
  have hrun := Lexer.run_append (s := []) (no_dot_of_isIndex h) fun c hc => by simp at hc
  rw [List.append_nil] at hrun
  simp only [positions, hrun]

theorem endsWith_iff (text suffix : String) : text.endsWith suffix = true ↔
    suffix.toList <:+ text.toList := by
  rw [← String.endsWith_toSlice, String.Slice.endsWith_string_iff, String.copy_toSlice]

/-- The position between two dots, or behind one. -/
def position (text : String) : Phrase := .operator "." ++ .ofToken (.literal text)

/-- What a number behind a dot is taken for. -/
theorem positions_cases {text : String} {p : Phrase} (h : positions text = some p) :
    ∃ whole, isIndex whole = true ∧
    ((text.endsWith "." = true ∧ p = .ofToken (.literal whole) ++ .operator ".") ∨
      (text.endsWith "." = false ∧ ∃ part, isIndex part = true ∧
        p = .ofToken (.literal whole) ++ .operator "." ++ .ofToken (.literal part))) := by
  obtain ⟨whole, rest, hrun, htext, -, -⟩ := Lexer.run_eq (fun c => c != '.') text.toList
  simp only [positions, hrun] at h
  split at h
  · obtain ⟨q, hq, rfl⟩ := Option.map_eq_some_iff.mp h
    split at hq
    · cases hq
      exact ⟨_, ‹_›, .inl ⟨(endsWith_iff ..).mpr ⟨whole, htext.symm⟩, rfl⟩⟩
    · cases hq
  · rename_i part hpart
    obtain ⟨q, hq, h⟩ := Option.bind_eq_some_iff.mp h
    obtain ⟨q', hq', h⟩ := Option.bind_eq_some_iff.mp h
    cases h
    split at hq
    · rename_i hwhole
      cases hq
      split at hq'
      · rename_i hindex
        cases hq'
        refine ⟨_, hwhole, .inr ⟨Bool.eq_false_iff.mpr fun hend => ?_, _, hindex, rfl⟩⟩
        obtain ⟨front, hfront⟩ := (endsWith_iff ..).mp hend
        rw [htext] at hfront
        have hne : part ≠ [] := hpart
        have hlast : part.getLast hne = '.' := by
          have := congrArg List.getLast? hfront
          rw [List.getLast?_append, List.getLast?_append, List.getLast?_cons,
            List.getLast?_eq_some_getLast hne] at this
          simpa using this.symm
        have := no_dot_of_isIndex hindex (part.getLast hne)
          (by rw [String.toList_ofList]; exact List.getLast_mem hne)
        rw [hlast] at this
        cases this
      · cases hq'
    · cases hq
  · cases h

/-! ## Fields and methods -/

/-- The start of what follows a dot: a number there is the position of one field. -/
def FieldStart : Sight := fun ts u => Onset ts u ∧ ∀ text s v, u = ⟨.literal text, s⟩ :: v →
    isIndex text = true

theorem FieldStart.of_word {w : String} (h : OnToken (.ident w) M ts u) : FieldStart ts u := by
  refine ⟨.of_token (by simp) (by simp) h, ?_⟩
  obtain ⟨s, r, s', v, -, rfl, -⟩ := h
  rintro _ _ _ ⟨⟩

theorem FieldStart.of_member (h : ∃ t, IsMember t ∧ OnToken t M ts u) : FieldStart ts u := by
  refine ⟨onset_of_member h, ?_⟩
  obtain ⟨t, ht, s, r, s', v, -, rfl, -⟩ := h
  rintro text _ _ heq
  obtain ⟨heq, -⟩ := List.cons.inj heq
  obtain rfl : t = .literal text := congrArg Placed.token heq
  rcases ht with ⟨w, ht, -⟩ | ⟨text', ht, hindex⟩
  · cases ht
  · cases ht
    exact hindex

theorem turbofish_echo (h : g.Echo g' K J) (hE : ∀ r w, E r w → Denies (Front.op "::") r w) :
    EchoAt (K + 1) .phrase [] (fun ts u => OnOperator "::" (OnOperator "<" .any) ts u ∨ E ts u)
      (fun _ => E) (turbofish g)
      (turbofish g') ts := by
  unfold turbofish
  refine .ask (Y := AngleStart) (N := E) (fun _ => angleArguments_echo h)
    (fun _ => .pure rfl rfl fun _ h => h)
    (fun hts u hu => ?_) fun hts u hu => ⟨hE _ _ hu hts, .inr hu⟩
  rcases hu with hu | hu
  · exact ⟨hu.op_self (by decide), .inl hu⟩
  · rw [op_exclusive (s := "<") (o := "::") rfl rfl (by decide) hu.1] at hts
    cases hts

/-- A name with the arguments behind it. -/
def named (g : Nesting) : Reader Phrase := do
  let name ← member
  return name ++ (← turbofish g)

theorem fieldOrMethod_eq (g : Nesting) : fieldOrMethod g = (do
    if ← Reader.front (Front.word "await") then Reader.word "await"
    else if ← Reader.front Front.anyWord then named g
    else member) := rfl

theorem fieldOrMethod_echo (h : g.Echo g' K J) (hE : ∀ r w, E r w → Denies (Front.op "::") r w) :
    EchoAt (K + 1) .phrase [] FieldStart (fun _ => E) (fieldOrMethod g) (fieldOrMethod g') ts := by
  rw [fieldOrMethod_eq, fieldOrMethod_eq]
  refine .ask_eq (fun u hu => hu.1.word _) (fun _ => EchoAt.word.weaken fun u hu =>
    .of_word hu) fun _ => ?_
  refine .ask_eq (fun u hu => hu.1.anyWord) (fun _ => ?_) fun _ => member_echo.weaken fun u hu =>
    .of_member hu
  refine .bind (M := fun _ ts u => OnOperator "::" (OnOperator "<" .any) ts u ∨ E ts u)
    (Nat.le_add_right _ _) (member_echo.weaken fun u hu => .of_member hu) fun name r _ => ?_
  exact (turbofish_echo h hE).last (Nat.le_add_right _ _) (by simp [Form.phrase]) fun _ =>
    by simp [Form.phrase]

/-- No number with a dot stands here. -/
def Unsplit (ts : List Placed) : Prop := positions? ts = .ok (none, ts)

theorem FieldStart.unsplit (h : FieldStart ts u) : Unsplit u := by
  unfold Unsplit positions?
  split
  · rw [positions_of_isIndex (h.2 _ _ _ rfl)]
  · rfl

theorem afterDot_unsplit (g : Nesting) (h : Unsplit ts) : afterDot g ts = fieldOrMethod g ts := by
  show (positions? ts).bind _ = _
  rw [h]
  rfl

theorem afterDot_echo (h : g.Echo g' K J) (hE : ∀ r w, E r w → Denies (Front.op "::") r w)
    (hts : Unsplit ts) :
    EchoAt (K + 1) .phrase [] FieldStart (fun _ => E) (afterDot g) (afterDot g') ts := by
  intro hs a r hr
  rw [afterDot_unsplit g hts] at hr
  obtain ⟨hsuf, out, ho, hf, h⟩ := fieldOrMethod_echo h hE hs a r hr
  refine ⟨hsuf, out, ho, hf, fun us w hu he => ?_⟩
  obtain ⟨hS, hq⟩ := h us w hu he
  exact ⟨hS, fun hl => by rw [afterDot_unsplit g' hS.unsplit, hq hl]⟩

/-! ## Signs behind an atom -/

/-- A dot stands here that is not one of two. -/
def startsDot (ts : List Placed) : Bool := Front.op "." ts && !Front.op ".." ts

theorem trailer_eq (g : Nesting) : trailer g = (do
    if ← Reader.front (Front.opening .paren) then return some (← exprList g .paren)
    else if ← Reader.front startsDot then
      let dot ← Reader.op "."
      return some (dot ++ (← afterDot g))
    else if ← Reader.front (Front.opening .bracket) then
      let p ← Reader.inside .bracket (g.expr true)
      return some (.bracketed .bracket p)
    else if ← Reader.front (Front.op "?") then return some (← Reader.op "?")
    else return none) := rfl

theorem front_opening {d : Delimiter} (h : OnToken (.opening d) M ts u) :
    Front.opening d u = true := by
  obtain ⟨s, r, s', v, -, rfl, -⟩ := h
  simp [Front.opening]

theorem trailer_echo (h : g.Echo g' K J) (hts : startsDot ts = true → Unsplit (ts.drop 1)) :
    EchoAt (K + 1) (.option .phrase) [] (LooseEnd b f) (fun _ => LooseEnd b f) (trailer g)
      (trailer g') ts := by
  rw [trailer_eq, trailer_eq]
  refine .ask (Y := OnToken (.opening .paren) .any) (N := LooseEnd b f) (fun _ => ?_) (fun _ => ?_)
    (fun _ u hu => ⟨front_opening hu, .inl (.of_brace hu _)⟩) fun hts u hu => ⟨hu.paren hts, hu⟩
  · exact (exprList_echo h .paren).last (by simp) (by simp [Form.option, Form.phrase]) fun _ => rfl
  refine .ask (Y := OnOperator "." FieldStart) (N := LooseEnd b f) (fun hdot => ?_) (fun _ => ?_)
    (fun hdot u hu => ⟨?_, .inl ?_⟩) fun hts u hu => ⟨hu.dot hts, hu⟩
  · refine .op_then (by decide) fun _ => ?_
    exact (afterDot_echo h (fun _ _ hw => LooseEnd.colons hw) (hts hdot)).last
      (Nat.le_add_right _ _) (by simp [Form.option, Form.phrase]) fun _ => rfl
  · refine .ask (Y := OnToken (.opening .bracket) .any) (N := LooseEnd b f) (fun _ => ?_)
      (fun _ => ?_)
      (fun _ u hu => ⟨front_opening hu, .inl (.of_brace hu _)⟩) fun hts u hu => ⟨hu.bracket hts, hu⟩
    · refine .last (D := K + 2) (.inside (T := .any) fun s r _ =>
        ((h.expr true r).mono le_rfl (fun _ _ => trivial)
        fun _ _ _ _ hw => .of_ends hw.ends_right _)) (by simp)
        (by simp [Form.option, Form.phrase, Form.inside])
        (by simp [Form.option, Form.phrase, Form.inside])
    · refine .ask (Y := OnOperator "?" (LooseEnd b f)) (N := LooseEnd b f) (fun _ => ?_)
        (fun _ => .pure rfl rfl fun _ h => h)
        (fun _ u hu => ⟨hu.op_self (by decide), .inl (.of_sign (by decide) hu (by simp) _)⟩)
        fun hts u hu => ⟨hu.question hts, hu⟩
      exact (EchoAt.op (by decide)).last (Nat.le_add_right _ _) (by simp [Form.option, Form.phrase])
        fun _ => rfl
  · have hno : Front.op ".." u = false := (hu.op (by decide) _).trans (by decide)
    simp [startsDot, hu.op_self (by decide), hno]
  · simp only [startsDot, Bool.and_eq_true, Bool.not_eq_true'] at hdot
    exact .of_sign (by decide) hu (fun _ => hdot.2) _

theorem startsDot_single (sp : Span) (u : List Placed) :
    startsDot (⟨.punct '.' false, sp⟩ :: u) = true := by
  simp [startsDot, Front.op, Front.isOperator]

/-- A dot and what follows it are one sign. -/
theorem trailer_dot (g : Nesting) {j : Bool} {sp : Span}
    (hts : startsDot (⟨.punct '.' j, sp⟩ :: ts) = true) :
    trailer g (⟨.punct '.' j, sp⟩ :: ts) =
      (do return some (.operator "." ++ (← afterDot g)) : Reader (Option Phrase)) ts := by
  have hop : Front.op "." (⟨.punct '.' j, sp⟩ :: ts) = true := (Bool.and_eq_true_iff.mp hts).1
  rw [trailer_eq, Reader.ask_apply, if_neg (by simp [Front.opening]), Reader.ask_apply, if_pos hts,
    Reader.op_bind]
  have hread : Reader.op "." (⟨.punct '.' j, sp⟩ :: ts) = .ok (.operator ".", ts) := by
    rw [Reader.op, if_pos hop]
    rfl
  exact Reader.bind_of_ok hread

/-- The position of one field is one sign. -/
theorem trailer_index (g : Nesting) {text : String} (h : isIndex text = true) (sp sp' : Span)
    (u : List Placed) :
    trailer g (⟨.punct '.' false, sp⟩ :: ⟨.literal text, sp'⟩ :: u) =
      .ok (some (position text), u) := by
  have hunsplit : Unsplit (⟨.literal text, sp'⟩ :: u) := by
    simp [Unsplit, positions?, positions_of_isIndex h]
  have hmember : fieldOrMethod g (⟨.literal text, sp'⟩ :: u) =
      .ok (.ofToken (.literal text), u) := by
    rw [fieldOrMethod_eq, Reader.ask_apply, if_neg (by simp [Front.word]), Reader.ask_apply,
      if_neg (by simp [Front.anyWord])]
    simp [member, h]
  rw [trailer_dot g (startsDot_single sp _)]
  show (afterDot g _).bind _ = _
  rw [afterDot_unsplit g hunsplit, hmember]
  rfl

theorem manyFuel_some {step : Reader (Option Phrase)} {n : Nat} {p : Phrase} {r : List Placed}
    (h : step ts = .ok (some p, r)) :
    Reader.manyFuel step (n + 1) ts = (do return p ++ (← Reader.manyFuel step n) :
      Reader Phrase) r := by
  rw [Reader.manyFuel]
  exact Reader.bind_of_ok h

theorem phrase_append_assoc (p q r : Phrase) : p ++ q ++ r = p ++ (q ++ r) := by
  show Phrase.mk _ _ = Phrase.mk _ _
  rw [Phrase.mk.injEq]
  exact ⟨List.append_assoc .., List.append_assoc ..⟩

theorem manyFuel_two {step : Reader (Option Phrase)} {n : Nat} {p q : Phrase} {r r' : List Placed}
    (h : step ts = .ok (some p, r)) (h' : step r = .ok (some q, r')) :
    Reader.manyFuel step (n + 2) ts = (do return p ++ q ++ (← Reader.manyFuel step n) :
      Reader Phrase) r' := by
  have hsecond := manyFuel_some (n := n) h'
  rw [manyFuel_some h]
  simp only [bind, StateT.bind, Except.bind, hsecond]
  cases Reader.manyFuel step n r' with
  | error e => rfl
  | ok v =>
    show Except.ok (_, _) = Except.ok (_, _)
    rw [phrase_append_assoc]

/-- A sign behind an atom prints something. -/
theorem printed_of_trailer {p : Phrase} {r : List Placed} (hp : trailer g ts = .ok (some p, r)) :
    p.printed ≠ [] := by
  rw [trailer_eq, Reader.ask_apply] at hp
  split at hp
  · obtain ⟨q, s, hq, hp⟩ := Reader.bind_eq_ok hp
    cases hp
    obtain ⟨_, _, -, hq⟩ := Reader.bind_eq_ok hq
    cases hq
    simp
  rw [Reader.ask_apply] at hp
  split at hp
  · rw [Reader.op_bind] at hp
    obtain ⟨_, _, -, hp⟩ := Reader.bind_eq_ok hp
    obtain ⟨_, _, -, hp⟩ := Reader.bind_eq_ok hp
    cases hp
    simp [operatorTokens]
  rw [Reader.ask_apply] at hp
  split at hp
  · obtain ⟨_, _, -, hp⟩ := Reader.bind_eq_ok hp
    cases hp
    simp
  rw [Reader.ask_apply] at hp
  split at hp
  · obtain ⟨_, _, ho, hp⟩ := Reader.bind_eq_ok hp
    cases hp
    exact printed_of_op (by decide) ho
  · cases hp

/-- The tokens of a position. -/
theorem printed_position (text : String) :
    (position text).printed = [.punct '.' false, .literal text] := rfl

theorem fit_position {text : String} (h : isIndex text = true) : Fit (position text).printed :=
  (fit_operatorTokens (l := ['.']) (by decide)).append
    (.singleton (lexable_of_isIndex h) trivial (by simp))

theorem exists_of_printed_position {text : String} {us : List Placed} {out : List Token}
    (h : tokensOf us = (position text).printed ++ out) :
    ∃ sp sp' us', us = ⟨.punct '.' false, sp⟩ :: ⟨.literal text, sp'⟩ :: us' ∧
      tokensOf us' = out := by
  obtain ⟨⟨_, sp⟩, us, rfl, ht, hus⟩ := List.map_eq_cons_iff.mp h
  obtain ⟨⟨_, sp'⟩, us', rfl, ht', hus'⟩ := List.map_eq_cons_iff.mp hus
  cases ht
  cases ht'
  exact ⟨sp, sp', us', rfl, hus'⟩

section Positions

variable {n m : Nat} {j : Bool} {sp sp' : Span} {text whole : String}

/-- What stands behind a number with a dot, once its first position was read. -/
theorem looseEnd_of_dot (hts : startsDot (⟨.punct '.' j, sp⟩ :: ts) = true) (u : List Placed) :
    LooseEnd b f (⟨.punct '.' j, sp⟩ :: ts) (⟨.punct '.' false, sp'⟩ :: u) := by
  simp only [startsDot, Bool.and_eq_true, Bool.not_eq_true'] at hts
  exact .inl (.of_sign (s := ".") (M := .any) (by decide) ⟨hts.1, [⟨.punct '.' false, sp'⟩], u, rfl,
    rfl, trivial⟩
    (fun _ => hts.2) _)

/-- A number between a dot and the next sign gives two fields their positions. -/
theorem trailers_two {n : Nat}
    (ih : ∀ m ts, EchoAt (min (K + 1) m) .phrase [] (LooseEnd b f) (fun _ => LooseEnd b f)
      (Reader.manyFuel (trailer g) n)
      (Reader.manyFuel (trailer g') m) ts) {part : String} (hwhole : isIndex whole = true)
      (hpart : isIndex part = true)
    (hdot : startsDot (⟨.punct '.' j, sp⟩ :: ⟨.literal text, sp'⟩ :: ts) = true)
    (htext : positions text = some (.ofToken (.literal whole) ++ .operator "." ++
      .ofToken (.literal part)))
    (hend : text.endsWith "." = false) :
    EchoAt (min (K + 1) m) .phrase [] (LooseEnd b f) (fun _ => LooseEnd b f)
      (Reader.manyFuel (trailer g) (n + 1))
      (Reader.manyFuel (trailer g') m) (⟨.punct '.' j, sp⟩ :: ⟨.literal text, sp'⟩ :: ts) := by
  refine .emit (T := LooseEnd b f) (r := ts) (o := (position whole ++ position part).printed)
    (A := do return position whole ++ position part ++ (← Reader.manyFuel (trailer g) n))
    (B := do return position whole ++ position part ++ (← Reader.manyFuel (trailer g') (m - 2)))
    ((List.suffix_cons _ _).trans (List.suffix_cons _ _))
      ((fit_position hwhole).append (fit_position hpart)) ?_ ?_ ?_ ?_
  · refine .last (ih (m - 2) ts) ?_ (by simp [Form.phrase]) fun _ => by simp [Form.phrase, position]
    simp only [List.nil_append, Phrase.printed_append, printed_position, List.length_append,
      List.length_cons,
      List.length_nil]
    omega
  · intro v hv
    have hread : trailer g (⟨.punct '.' j, sp⟩ :: ⟨.literal text, sp'⟩ :: ts) =
        .ok (some (.operator "." ++ (.ofToken (.literal whole) ++ .operator "." ++
          .ofToken (.literal part))), ts) := by
      rw [trailer_dot g hdot]
      refine Reader.bind_of_ok (Reader.bind_of_ok (a := some (_, false)) ?_)
      simp [positions?, htext, hend]
    rw [manyFuel_some hread] at hv
    rw [← hv]
    simp only [phrase_append_assoc, position]
  · intro us u hus _
    obtain ⟨s₁, s₂, us', rfl, -⟩ := exists_of_printed_position hus
    exact looseEnd_of_dot hdot _
  · intro hl us u v hus _ hv
    obtain ⟨s₁, s₂, us', rfl, hpart'⟩ := exists_of_printed_position hus
    obtain ⟨s₃, s₄, us'', rfl, hnil⟩ := exists_of_printed_position
      (hpart'.trans (List.append_nil _).symm)
    obtain rfl : us'' = [] := List.map_eq_nil_iff.mp hnil
    obtain ⟨m, rfl⟩ : ∃ k, m = k + 2 := ⟨m - 2, by simp [printed_position] at hl; omega⟩
    exact (manyFuel_two (trailer_index g' hwhole ..) (trailer_index g' hpart ..)).trans hv

/-- A number with a dot behind it: the dot is read as that of a second field. -/
theorem trailer_open {o : Option Phrase} {r : List Placed}
    (hdot : startsDot (⟨.punct '.' j, sp⟩ :: ⟨.literal text, sp'⟩ :: ts) = true)
    (htext : positions text = some (.ofToken (.literal whole) ++ .operator "."))
    (hend : text.endsWith "." = true)
    (h : trailer g (⟨.punct '.' j, sp⟩ :: ⟨.literal text, sp'⟩ :: ts) = .ok (o, r)) :
    ∃ field, fieldOrMethod g ts = .ok (field, r) ∧
      o = some (position whole ++ (.operator "." ++ field)) := by
  rw [trailer_dot g hdot] at h
  obtain ⟨p, r₂, hafter, ho⟩ := Reader.bind_eq_ok h
  cases ho
  obtain ⟨found, r₃, hpositions, hafter⟩ := Reader.bind_eq_ok hafter
  obtain ⟨rfl, rfl⟩ : some (.ofToken (.literal whole) ++ .operator ".", true) = found ∧
      ts = r₃ := by
    simpa [positions?, htext, hend] using hpositions
  obtain ⟨field, r₄, hfield, hp⟩ := Reader.bind_eq_ok hafter
  cases hp
  exact ⟨field, hfield, by simp only [phrase_append_assoc, position]⟩

/-- A number between two dots gives a field its position. -/
theorem trailers_open (h : g.Echo g' K J) {n : Nat}
    (ih : ∀ m ts, EchoAt (min (K + 1) m) .phrase [] (LooseEnd b f) (fun _ => LooseEnd b f)
      (Reader.manyFuel (trailer g) n)
      (Reader.manyFuel (trailer g') m) ts) (hwhole : isIndex whole = true)
    (hdot : startsDot (⟨.punct '.' j, sp⟩ :: ⟨.literal text, sp'⟩ :: ts) = true)
    (htext : positions text = some (.ofToken (.literal whole) ++ .operator "."))
      (hend : text.endsWith "." = true) :
    EchoAt (min (K + 1) m) .phrase [] (LooseEnd b f) (fun _ => LooseEnd b f)
      (Reader.manyFuel (trailer g) (n + 1))
      (Reader.manyFuel (trailer g') m) (⟨.punct '.' j, sp⟩ :: ⟨.literal text, sp'⟩ :: ts) := by
  refine .emit (T := FieldStart) (r := ts) (o := (position whole ++ .operator ".").printed)
    (A := do
      let field ← fieldOrMethod g
      return position whole ++ (.operator "." ++ field) ++ (← Reader.manyFuel (trailer g) n))
    (B := do
      let field ← fieldOrMethod g'
      return position whole ++ (.operator "." ++ field) ++ (← Reader.manyFuel (trailer g') (m - 2)))
    ((List.suffix_cons _ _).trans (List.suffix_cons _ _))
      ((fit_position hwhole).append (fit_operatorTokens (by decide))) ?_ ?_ ?_ ?_
  · refine .bind (M := fun _ => LooseEnd b f) (D := K + 1) (by omega)
      (fieldOrMethod_echo h fun _ _ hw => LooseEnd.colons hw)
      fun field r _ => .last (ih (m - 2) r) ?_ (by simp [Form.phrase]) fun _ =>
        by simp [Form.phrase, position]
    simp only [List.nil_append, Phrase.printed_append, printed_position, Phrase.printed_operator,
      List.length_append,
      length_operatorTokens, List.length_cons, List.length_nil]
    have : ".".toList.length = 1 := rfl
    omega
  · intro v hv
    obtain ⟨a, r⟩ := v
    obtain ⟨o, r₁, htrailer, hv⟩ := Reader.bind_eq_ok (by rw [Reader.manyFuel] at hv; exact hv)
    obtain ⟨field, hfield, rfl⟩ := trailer_open hdot htext hend htrailer
    exact (Reader.bind_of_ok hfield).trans hv
  · intro us u hus _
    obtain ⟨s₁, s₂, us', rfl, -⟩ := exists_of_printed_position hus
    exact looseEnd_of_dot hdot _
  · intro hl us u v hus hu hv
    obtain ⟨s₁, s₂, us', rfl, hdot'⟩ := exists_of_printed_position hus
    obtain ⟨⟨_, s₃⟩, rfl, ht⟩ := List.map_eq_singleton_iff.mp hdot'
    cases ht
    obtain ⟨m, rfl⟩ : ∃ k, m = k + 2 := ⟨m - 2, by simp [printed_position] at hl; omega⟩
    obtain ⟨a, r⟩ := v
    obtain ⟨field, s, hfield, hv⟩ := Reader.bind_eq_ok hv
    have hsecond : trailer g' (⟨.punct '.' false, s₃⟩ :: u) =
        .ok (some (.operator "." ++ field), s) := by
      rw [trailer_dot g' (startsDot_single _ _)]
      exact Reader.bind_of_ok (by rw [afterDot_unsplit g' hu.unsplit, hfield])
    exact (manyFuel_two (trailer_index g' hwhole ..) hsecond).trans hv

end Positions

theorem exists_of_startsDot (h : startsDot ts = true) : ∃ j sp r, ts = ⟨.punct '.' j, sp⟩ :: r := by
  rcases ts with _ | ⟨⟨t, sp⟩, r⟩
  · cases h
  · cases t with
    | punct c j =>
      simp only [startsDot, Bool.and_eq_true] at h
      obtain rfl : '.' = c := beq_iff_eq.mp h.1
      exact ⟨j, sp, r, rfl⟩
    | _ => simp [startsDot, Front.op, Front.isOperator] at h

theorem exists_of_not_unsplit (h : ¬Unsplit ts) : ∃ text sp r p, ts = ⟨.literal text, sp⟩ :: r ∧
    positions text = some p := by
  unfold Unsplit positions? at h
  split at h
  · rename_i text sp r
    cases hp : positions text with
    | none => simp [hp] at h
    | some p => exact ⟨text, sp, r, p, rfl, hp⟩
  · exact absurd rfl h

theorem trailersFuel_echo (h : g.Echo g' K J) (n m : Nat) (ts : List Placed) :
    EchoAt (min (K + 1) m) .phrase [] (LooseEnd b f) (fun _ => LooseEnd b f)
      (Reader.manyFuel (trailer g) n)
      (Reader.manyFuel (trailer g') m) ts := by
  induction n generalizing m ts with
  | zero => exact .failWith _
  | succ n ih =>
    by_cases hsplit : startsDot ts = true ∧ ¬Unsplit (ts.drop 1)
    · obtain ⟨hdot, hnumber⟩ := hsplit
      obtain ⟨j, sp, r, rfl⟩ := exists_of_startsDot hdot
      obtain ⟨text, sp', r, p, rfl, hp⟩ := exists_of_not_unsplit hnumber
      obtain ⟨whole, hwhole, ⟨hend, rfl⟩ | ⟨hend, part, hpart, rfl⟩⟩ := positions_cases hp
      · exact trailers_open h ih hwhole hdot hp hend
      · exact trailers_two ih hwhole hpart hdot hp hend
    · refine .manyFuel_succ (trailer_echo h fun hdot => ?_) (fun _ _ _ => printed_of_trailer) ih m
      by_contra hnumber
      exact hsplit ⟨hdot, hnumber⟩

/-- **The signs behind an atom echo**, though the second run may take more steps. -/
theorem trailers_echo (h : g.Echo g' K J) :
    EchoAt (K + 1) .phrase [] (LooseEnd b f) (fun _ => LooseEnd b f) (Reader.many (trailer g))
      (Reader.many (trailer g')) ts :=
  .counted fun n m => trailersFuel_echo h n m ts

/-! ## Operands -/

theorem operand_echo (h : g.Echo g' K J) (hL : L ≤ K + 1) (hJ : L ≤ J) :
    EchoAt L (.flagged .phrase) [] AtomStart (fun a => LooseEnd b a.2) (operand g b)
      (operand g' b) ts := by
  unfold operand
  refine .bind (D := K + 3) (M := fun _ => AtomStart) (by simp; omega) (leaders_echo h)
    fun before r _ => ?_
  refine .bind (D := L) (M := fun a => LooseEnd b a.2) (by simp)
    (atom_echo h hL hJ) fun a r _ => ?_
  refine .bind (M := fun _ => LooseEnd b a.2) (by omega) (trailers_echo h) fun behind r _ =>
    .pure (by simp [Form.flagged, Form.phrase]) (by simp [Form.flagged, Form.phrase]) fun u hu =>
      hu.loosen fun hf => ?_
  simp only [Bool.and_eq_true] at hf
  exact hf.1.1

end Grammar

end KeyedRecord.Source
