import KeyedRecord.Proofs.Source.EchoTypes
import KeyedRecord.Source.Grammar.Pattern

/-!
# Patterns echo

A name with nothing of a path behind it is read as a binding.  In a source the sign behind it may
make it look like a path where the print does not; both readings are the same name.

Principal results: `pattern_echo` and `patterns_echo`.
-/

set_option autoImplicit false

namespace KeyedRecord.Source

open Grammar

/-- What a macro is called with follows. -/
def startsMacro (ts : List Placed) : Bool := Front.op "!" ts && !Front.op "!=" ts

/-- The end of a pattern without alternatives. -/
structure PatternEnd (ts u : List Placed) : Prop where
  path : PathEnd true ts u
  bang : Denies (Front.op "!") ts u
  call : Denies startsMacro ts u
  brace : Denies (Front.opening .brace) ts u
  paren : Denies (Front.opening .paren) ts u
  dots : Denies (Front.op "..") ts u
  range : endsRange ts = true → endsRange u = true
  sign : Front.op "@" u = false

/-- The start of a pattern. -/
structure PatternStart (ts u : List Placed) : Prop extends Onset ts u where
  /-- Between angle brackets a type follows. -/
  angle : Front.op "<" u = true → Onset (ts.drop 1) (u.drop 1)

section Sights

variable {s : String} {M : Sight} {ts u : List Placed} {t : Token}

theorem PatternEnd.of_operator (hs : s.toList ≠ [])
    (hno : ∀ x ∈ ["::", "<", "!", "..", "@"], x.toList.isPrefixOf s.toList = false)
    (hrange : ∃ x ∈ ["|", "=", ":", ",", ";"], x.toList.isPrefixOf s.toList = true)
    (h : OnOperator s M ts u) : PatternEnd ts u := by
  have hop (x : String) (hx : x ∈ ["::", "<", "!", "..", "@"]) : Front.op x u = false :=
    (h.op hs x).trans (hno x hx)
  obtain ⟨-, -, ho, -, -, -⟩ := h.no_leaf hs
  refine ⟨.of_operator hs (fun x hx => hno x ?_) h _, .of_false (hop _ (by simp)), .of_false ?_,
    .of_false (ho _), .of_false (ho _), .of_false (hop _ (by simp)), fun _ => ?_, hop _ (by simp)⟩
  · rcases List.mem_cons.mp hx with rfl | hx
    · simp
    · obtain rfl := List.mem_singleton.mp hx
      simp
  · simp [startsMacro, hop "!" (by simp)]
  · obtain ⟨x, hx, hp⟩ := hrange
    have hu : Front.op x u = true := (h.op hs x).trans hp
    simp only [List.mem_cons, List.not_mem_nil, or_false] at hx
    rcases hx with rfl | rfl | rfl | rfl | rfl <;> simp [endsRange, hu, hop "::" (by simp)]

theorem PatternEnd.of_word {w : String} (h : OnToken (.ident w) M ts u) : PatternEnd ts u := by
  have hO : Onset ts u := .of_token (by simp) (by simp) h
  obtain ⟨s, r, s', v, rfl, rfl, -⟩ := h
  have hop (x : String) (hx : x.toList ≠ []) (s : Span) (v : List Placed) :
      Front.op x (⟨.ident w, s⟩ :: v) = false := op_of_leaf (by simp) hx s v
  refine ⟨.of_no_op (fun x hx => hop x hx _ _) _, .of_false (hop _ (by decide) _ _), .of_false ?_,
    .of_false rfl,
    .of_false rfl, .of_false (hop _ (by decide) _ _), fun hts => ?_, hop _ (by decide) _ _⟩
  · simp [startsMacro, hop "!" (by decide)]
  · rw [← hts]
    simp [endsRange, hO.word, hop "|" (by decide), hop "=" (by decide), hop ":" (by decide),
      hop "," (by decide), hop ";" (by decide), Front.ends]

theorem PatternEnd.of_ends (h : Front.ends u = true) : PatternEnd ts u where
  path := .of_no_op (op_of_ends h) _
  bang := .of_false (op_of_ends h _ (by decide))
  call := .of_false (by simp [startsMacro, op_of_ends h "!" (by decide)])
  brace := .of_false (opening_of_ends h _)
  paren := .of_false (opening_of_ends h _)
  dots := .of_false (op_of_ends h _ (by decide))
  range _ := by simp [endsRange, h]
  sign := op_of_ends h _ (by decide)

theorem ItemEnd.pattern (h : ItemEnd ts u) : PatternEnd ts u :=
  h.elim (.of_operator (by decide) (by decide) (by decide)) fun h => .of_ends h.ends_right

theorem ItemEnd.ends (h : ItemEnd ts u) : Front.ends u = Front.ends ts := by
  rcases h with h | h
  · obtain ⟨j, sp, r, j', sp', v, rfl, rfl⟩ := h.head (c := ',') (l := []) rfl
    rfl
  · rw [h.ends_left, h.ends_right]

theorem PatternStart.of_token (hc : ∀ d, t ≠ .closing d) (hp : ∀ c j, t ≠ .punct c j)
    (h : OnToken t M ts u) : PatternStart ts u := by
  refine ⟨.of_token hc hp h, fun hlt => ?_⟩
  obtain ⟨s, r, s', v, rfl, rfl, -⟩ := h
  rw [op_of_leaf hp (by decide)] at hlt
  cases hlt

theorem PatternStart.of_operator (hs : beginsPhrase s.toList = true)
    (hno : "<".toList.isPrefixOf s.toList = false)
    (h : OnOperator s M ts u) : PatternStart ts u := by
  have hne : s.toList ≠ [] := by rintro h; simp [h, beginsPhrase] at hs
  exact ⟨.of_operator hs h, fun hlt => by rw [h.op hne, hno] at hlt; cases hlt⟩

theorem PatternStart.of_literal (h : LiteralStart ts u) : PatternStart ts u := by
  refine ⟨h.1, fun hlt => ?_⟩
  have hts : Front.op "<" ts = true := by rw [← h.1.sign rfl]; exact hlt
  obtain ⟨j, sp, r, -, rfl⟩ : ∃ j sp r, True ∧ ts = ⟨.punct '<' j, sp⟩ :: r := by
    rcases ts with _ | ⟨⟨t, sp⟩, r⟩
    · cases hts
    · cases t with
      | punct c j => exact ⟨j, sp, r, trivial, by rw [show '<' = c from beq_iff_eq.mp hts]⟩
      | _ => cases hts
  cases h.2

theorem PatternStart.of_path {E : Sight} (h : QualifiedStart true E ts u) : PatternStart ts u := by
  rcases h with (h | ⟨w, h⟩) | h
  · exact .of_operator (by decide) (by decide) h
  · exact .of_token (by simp) (by simp) h
  · exact ⟨.of_operator (by decide) h, fun _ => h.behind⟩

/-- No range ends where a phrase starts, unless the source says so. -/
theorem Onset.not_endsRange (h : Onset ts u) (hts : endsRange ts = false) :
    endsRange u = false := by
  simp only [endsRange, Bool.or_eq_false_iff, Bool.and_eq_false_iff, Bool.not_eq_false'] at hts ⊢
  refine ⟨⟨⟨⟨⟨⟨h.ends_right, h.op_false hts.1.1.1.1.1.2⟩, h.op_false hts.1.1.1.1.2⟩, ?_⟩,
    h.op_false hts.1.1.2⟩,
    h.op_false hts.1.2⟩, (h.word _).trans hts.2⟩
  exact hts.1.1.1.2.imp h.op_false h.colons

end Sights

namespace Grammar

variable {g g' : Nesting} {K J L : Nat} {ts : List Placed} {E : Sight}

/-! ## Ranges -/

/-- The start of the end of a range, if it has one. -/
def RangeEndStart (E : Sight) : Sight := fun ts u =>
  (endsRange ts = false ∧ PatternStart ts u) ∨ (endsRange ts = true ∧ E ts u)

theorem rangeEnd?_echo (h : g.Echo g' K J) (hE : ∀ r w, E r w → PatternEnd r w) :
    EchoAt (K + 1) (.option .phrase) [] (RangeEndStart E) (fun _ => E) (rangeEnd? g)
      (rangeEnd? g') ts := by
  have some_phrase (p : Phrase) : (Form.option .phrase).tokens (some p) = [] ++
      Form.phrase.tokens p := by
    simp [Form.option, Form.phrase]
  unfold rangeEnd?
  refine .ask (Y := E) (N := PatternStart) (fun _ => .pure rfl rfl fun _ h => h) (fun hts => ?_)
    (fun hts u hu => ⟨(hE _ _ hu).range hts, .inr ⟨hts, hu⟩⟩)
    fun hts u hu => ⟨hu.not_endsRange hts, .inl ⟨hts, hu⟩⟩
  refine .ask_eq (fun u hu => hu.literal) (fun _ => ?_) fun _ =>
    .ask_eq (fun u hu => hu.startsPath) (fun _ => ?_) fun _ => ?_
  · exact (literalPhrase_echo.weaken fun _ hu => .of_literal hu).last
      (Nat.le_add_right _ _) some_phrase
      fun _ => rfl
  · exact ((qualifiedPath_echo h fun _ _ hr => (hE _ _ hr).path).weaken fun _ hu =>
      .of_path hu).last
      (Nat.le_add_right _ _) (fun p => some_phrase p.phrase) fun _ => rfl
  · refine EchoAt.weaken (.word_then (M := .any) fun s r _ => ?_) fun _ hu =>
      .of_token (by simp) (by simp) hu
    have := h.le
    exact ((h.block r).mono le_rfl (fun _ _ => trivial) fun _ _ _ _ _ => trivial).last (S := .any)
      (by simp; omega) (by simp [Form.option, Form.phrase]) fun _ => rfl

/-- The end of a range behind its dots. -/
def rangeStop (g : Nesting) (dots : String) (closed : Bool) : Reader Phrase := do
  match ← rangeEnd? g with
  | some stop => return .operator dots ++ stop
  | none => if closed then Reader.breaks .openRange else return .operator dots

theorem rangeStop_echo (h : g.Echo g' K J) (hE : ∀ r w, E r w → PatternEnd r w) (dots : String)
    (closed : Bool) :
    EchoAt (K + 1) .phrase (operatorTokens dots.toList) (RangeEndStart E) (fun _ => E)
      (rangeStop g dots closed) (rangeStop g' dots closed) ts := by
  unfold rangeStop
  refine .bind (M := fun _ => E) (Nat.le_add_right _ _) (rangeEnd?_echo h hE) fun stop r _ => ?_
  cases stop with
  | some stop => exact .pure (by simp [Form.phrase, Form.option]) rfl fun _ h => h
  | none =>
    cases closed with
    | true => exact .breaks _
    | false => exact .pure (by simp [Form.phrase, Form.option]) rfl fun _ h => h

theorem rangeRest_eq (g : Nesting) : rangeRest g = (do
    if ← Reader.front (Front.op "..=") then Reader.op "..=" >>= fun _ => rangeStop g "..=" true
    else if ← Reader.front (Front.op "...") then Reader.op "..." >>= fun _ => rangeStop g "..." true
    else Reader.op ".." >>= fun _ => rangeStop g ".." false) := by
  funext ts
  rw [Reader.ask_apply, Reader.ask_apply]
  show ((do
    let dots ←
      if ← Reader.front (Front.op "..=") then Reader.op "..="
      else if (Front.op "..=" ts || Front.op "..." ts) = true then Reader.op "..."
      else Reader.op ".."
    match ← rangeEnd? g with
    | some stop => return dots ++ stop
    | none =>
      if (Front.op "..=" ts || Front.op "..." ts) = true then Reader.breaks .openRange
      else return dots :
        Reader Phrase) ts) = _
  dsimp only
  rw [Reader.ask_apply]
  cases h₁ : Front.op "..=" ts <;> cases h₂ : Front.op "..." ts <;>
    simp only [Bool.or_true, Bool.or_false, if_true, if_false, Bool.false_eq_true] <;>
    rw [Reader.op_bind] <;> rfl

/-- The dots of a range. -/
def OnDots : Sight := fun ts u => ∃ s ∈ ["..=", "...", ".."], OnOperator s .any ts u

theorem OnDots.dots {u : List Placed} (h : OnDots ts u) : Front.op ".." u = true := by
  obtain ⟨s, hs, h⟩ := h
  simp only [List.mem_cons, List.not_mem_nil, or_false] at hs
  rcases hs with rfl | rfl | rfl <;> exact (h.op (by decide) _).trans (by decide)

theorem OnDots.onset {u : List Placed} (h : OnDots ts u) : Onset ts u := by
  obtain ⟨s, hs, h⟩ := h
  simp only [List.mem_cons, List.not_mem_nil, or_false] at hs
  rcases hs with rfl | rfl | rfl <;> exact .of_operator (by decide) h

theorem rangeRest_echo (h : g.Echo g' K J) (hE : ∀ r w, E r w → PatternEnd r w) :
    EchoAt (K + 1) .phrase [] OnDots (fun _ => E) (rangeRest g) (rangeRest g') ts := by
  have hrest (s : String) (hs : IsOperatorText s.toList) (closed : Bool) :
      EchoAt (K + 1) .phrase [] (OnOperator s (RangeEndStart E)) (fun _ => E)
        (Reader.op s >>= fun _ => rangeStop g s closed)
          (Reader.op s >>= fun _ => rangeStop g' s closed) ts :=
    .op_then hs fun _ => rangeStop_echo h hE s closed
  rw [rangeRest_eq, rangeRest_eq]
  refine .ask (fun _ => hrest "..=" (by decide) true) (fun _ => ?_)
    (fun _ u hu => ⟨hu.op_self (by decide), _, by simp, hu.anything⟩)
    (N := fun ts u => OnOperator "..." (RangeEndStart E) ts u ∨
      OnOperator ".." (RangeEndStart E) ts u) fun _ u hu => ?_
  · refine .ask (fun _ => hrest "..." (by decide) true) (fun _ => hrest ".." (by decide) false)
      (fun _ u hu => ⟨hu.op_self (by decide), .inl hu⟩) fun _ u hu =>
        ⟨(hu.op (by decide) _).trans (by decide), .inr hu⟩
  · rcases hu with hu | hu
    all_goals exact ⟨(hu.op (by decide) _).trans (by decide), _, by simp, hu.anything⟩

/-! ## Alternatives -/

/-- Another alternative of a pattern follows. -/
def startsAlternative (ts : List Placed) : Bool :=
  Front.op "|" ts && !Front.op "||" ts && !Front.op "|=" ts

/-- The end of a pattern with all its alternatives. -/
structure PatternsEnd (ts u : List Placed) : Prop extends PatternEnd ts u where
  bar : Denies startsAlternative ts u

/-- Readers of patterns echo, whatever stands behind. -/
def PatternEcho (L : Nat) (p q : Reader Phrase) : Prop :=
  ∀ E : Sight, (∀ r w, E r w → PatternEnd r w) → ∀ ts, EchoAt L .phrase [] PatternStart
    (fun _ => E) p q ts

/-- Another alternative, if one follows. -/
def alternative? (single : Reader Phrase) : Reader (Option Phrase) := do
  if ← Reader.front startsAlternative then
    let bar ← Reader.op "|"
    return some (bar ++ (← single))
  else return none

theorem alternativePatterns_eq (single : Reader Phrase) : alternativePatterns single = (do
    let leading ← Reader.op? "|"
    let first ← single
    let more ← Reader.many (alternative? single)
    return Phrase.ofOption leading ++ first ++ more) := rfl

/-- What stands behind one of several alternatives. -/
def AlternativeEnd (E : Sight) : Sight := fun ts u =>
  (OnOperator "|" .any ts u ∧ startsAlternative ts = true) ∨ E ts u

theorem AlternativeEnd.pattern (hE : ∀ r w, E r w → PatternsEnd r w) {r w : List Placed}
    (h : AlternativeEnd E r w) : PatternEnd r w :=
  h.elim (fun h => .of_operator (by decide) (by decide) (by decide) h.1) fun h =>
    (hE _ _ h).toPatternEnd

theorem alternative?_echo {single single' : Reader Phrase} (hs : PatternEcho L single single')
    (hE : ∀ r w, E r w → PatternsEnd r w) :
    EchoAt L (.option .phrase) [] (AlternativeEnd E) (fun _ => AlternativeEnd E)
      (alternative? single)
      (alternative? single') ts := by
  unfold alternative?
  refine .ask (Y := OnOperator "|" .any) (N := AlternativeEnd E) (fun _ => ?_)
    (fun _ => .pure rfl rfl fun _ h => h) (fun hts u hu => ⟨?_, .inl ⟨hu, hts⟩⟩) fun hts u hu =>
      ⟨?_, hu⟩
  · exact .op_then (by decide) fun _ =>
      ((hs _ (fun _ _ => AlternativeEnd.pattern hE) _).weaken fun _ _ => trivial).last
      (Nat.le_add_right _ _) (by simp [Form.option, Form.phrase]) fun _ => rfl
  · simp [startsAlternative, hu.op (by decide)]
  · rcases hu with hu | hu
    · exact absurd hu.2 (by simp [hts])
    · exact (hE _ _ hu).bar hts

theorem printed_of_alternative? {single : Reader Phrase} {p : Phrase} {r : List Placed}
    (h : alternative? single ts = .ok (some p, r)) : p.printed ≠ [] := by
  unfold alternative? at h
  rw [Reader.ask_apply] at h
  split at h
  · rw [Reader.op_bind] at h
    obtain ⟨_, _, -, h⟩ := Reader.bind_eq_ok h
    obtain ⟨_, _, -, h⟩ := Reader.bind_eq_ok h
    cases h
    simp [operatorTokens]
  · cases h

theorem alternativePatterns_echo {single single' : Reader Phrase}
    (hs : PatternEcho L single single') (hE : ∀ r w, E r w → PatternsEnd r w) :
    EchoAt L .phrase [] PatternStart (fun _ => E) (alternativePatterns single)
      (alternativePatterns single') ts := by
  have hrest (leading : Option Phrase) (ts : List Placed)
      (hleading : (Phrase.ofOption leading).canonical = Phrase.ofOption leading) :
      EchoAt L .phrase (Phrase.ofOption leading).printed PatternStart (fun _ => E)
        (do
          let first ← single
          let more ← Reader.many (alternative? single)
          return Phrase.ofOption leading ++ first ++ more)
        (do
          let first ← single'
          let more ← Reader.many (alternative? single')
          return Phrase.ofOption leading ++ first ++ more) ts := by
    refine .bind (M := fun _ => AlternativeEnd E) (Nat.le_add_right _ _)
      (hs _ (fun _ _ => AlternativeEnd.pattern hE) _) fun first r _ => ?_
    refine (EchoAt.mono (.many (fun _ => alternative?_echo hs hE) fun _ _ _ _ =>
      printed_of_alternative?) le_rfl
      (fun _ => id) fun _ _ _ _ => .inr).last (Nat.le_add_right _ _) (by simp [Form.phrase])
      fun more => ?_
    simp [Form.phrase, hleading]
  rw [alternativePatterns_eq, alternativePatterns_eq]
  exact .op? (by decide) (fun _ => hrest (some (.operator "|")) _ rfl) (fun _ => hrest none _ rfl)
    (fun u hu => .of_operator (by decide) (by decide) hu) fun hts u hu =>
      ⟨(hu.sign rfl).trans hts, hu⟩

/-! ## Fields -/

/-- A token that may name a field. -/
def IsMember (t : Token) : Prop :=
  (∃ w, t = .ident w ∧ Front.reserved.contains w = false) ∨ ∃ text, t = .literal text ∧
    isIndex text = true

theorem member_echo : EchoAt L .phrase [] (fun ts u => ∃ t, IsMember t ∧ OnToken t E ts u)
    (fun _ => E) member member ts := by
  rcases ts with _ | ⟨⟨t, s⟩, r⟩
  · exact .of_error fun _ _ h => by cases h
  cases t with
  | ident w =>
    cases hw : Front.reserved.contains w with
    | true =>
      refine .of_error fun _ _ h => ?_
      simp only [member, hw, if_true] at h
      cases h
    | false =>
      have run (s : Span) (r : List Placed) : member (⟨.ident w, s⟩ :: r) = .ok (.word w, r) := by
        simp only [member, hw]
        rfl
      exact .token (a := .word w) (run s r) run rfl trivial (by simp) fun _ h =>
        ⟨_, .inl ⟨w, rfl, hw⟩, h⟩
  | literal text =>
    cases htext : isIndex text with
    | true =>
      have run (s : Span) (r : List Placed) :
          member (⟨.literal text, s⟩ :: r) = .ok (.ofToken (.literal text), r) := by
            simp [member, htext]
      exact .token (a := .ofToken (.literal text)) (run s r) run rfl trivial (by simp)
        fun _ h => ⟨_, .inr ⟨text, rfl, htext⟩, h⟩
    | false => exact .of_error fun _ _ h => by simp [member, htext] at h
  | _ => exact .of_error fun _ _ h => by cases h

theorem onset_of_member {u : List Placed} (h : ∃ t, IsMember t ∧ OnToken t E ts u) :
    Onset ts u := by
  obtain ⟨t, ht, h⟩ := h
  refine .of_token (fun d => ?_) (fun c j => ?_) h <;> rintro rfl <;>
    rcases ht with ⟨_, ht, _⟩ | ⟨_, ht, _⟩ <;> cases ht

/-- A field with the pattern behind its colon, or a name that is bound, behind what was read. -/
def memberPattern (nested : Reader Phrase) (attrs : Phrase) : Reader Phrase := do
  let positional ← Reader.front Front.literal
  let name ← member
  if ← Reader.front fun ts => positional || Front.op ":" ts then
    let colon ← Reader.op ":"
    return attrs ++ name ++ colon ++ (← nested)
  else return attrs ++ name

/-- A field of a structure's pattern behind its attributes. -/
def fieldPatternRest (nested : Reader Phrase) (attrs : Phrase) : Reader Phrase := do
  match ← Reader.op? ".." with
  | some dots =>
    if ← Reader.front Front.ends then return attrs ++ dots
    else Reader.failWith fun _ => .stray (some .brace)
  | none =>
    let boxed ← word? "box"
    let byRef ← word? "ref"
    let mutability ← word? "mut"
    let modifiers := boxed ++ byRef ++ mutability
    if modifiers.printed.isEmpty then memberPattern nested attrs
    else return attrs ++ modifiers ++ .word (← Reader.identifier)

theorem fieldPattern_eq (g : Nesting) (nested : Reader Phrase) :
    fieldPattern g nested = g.attributes >>= fieldPatternRest nested := rfl

theorem memberPattern_echo {nested nested' : Reader Phrase}
    (hn : ∀ ts, EchoAt L .phrase [] PatternStart (fun _ => ItemEnd) nested nested' ts)
    {attrs : Phrase} :
    EchoAt L .phrase attrs.printed Onset (fun _ => ItemEnd) (memberPattern nested attrs)
      (memberPattern nested' attrs.canonical) ts := by
  unfold memberPattern
  refine .front (fun u hu => hu.literal) ?_
  generalize Front.literal ts = positional
  refine .bind (M := fun _ ts u => OnOperator ":" .any ts u ∨
    ((positional || Front.op ":" ts) = false ∧ ItemEnd ts u))
    (Nat.le_add_right _ _) (member_echo.weaken fun _ => onset_of_member) fun name r _ => ?_
  refine .ask (Y := OnOperator ":" .any) (N := ItemEnd) (fun _ => ?_)
    (fun _ => .pure (by simp [Form.phrase]) rfl fun _ h => h)
    (fun _ u hu => ⟨by simp [hu.op_self], .inl hu⟩) fun hts u hu => ⟨?_, .inr ⟨hts, hu⟩⟩
  · exact .op_then (by decide) fun _ => ((hn _).weaken fun _ _ => trivial).last
      (Nat.le_add_right _ _) (by simp [Form.phrase]) fun _ => by simp [Form.phrase]
  · simp only [Bool.or_eq_false_iff] at hts
    simp [hts.1, hu.not_colon]

theorem fieldPatternRest_echo {nested nested' : Reader Phrase}
    (hn : ∀ ts, EchoAt L .phrase [] PatternStart (fun _ => ItemEnd) nested nested' ts)
    {attrs : Phrase} :
    EchoAt L .phrase attrs.printed Onset (fun _ => ItemEnd) (fieldPatternRest nested attrs)
      (fieldPatternRest nested' attrs.canonical) ts := by
  have hword (w : String) (ts : List Placed) :
      EchoAt L .phrase [] Onset (fun _ => Onset) (word? w) (word? w) ts :=
    (word?_echo fun ts u hu => .of_eq (hu.word _)).weaken fun u hu =>
      hu.elim (.of_token (by simp) (by simp)) id
  unfold fieldPatternRest
  refine .op? (M := ItemEnd) (N := Onset) (by decide) (fun _ => ?_) (fun _ => ?_)
    (fun u hu => .of_operator (by decide) hu) fun hts u hu => ⟨hu.op_false hts, hu⟩
  · exact .ask_eq (fun u hu => hu.ends) (fun _ => .pure (by simp [Form.phrase]) rfl fun _ h => h)
      fun _ => .failWith _
  · refine .bind (Nat.le_add_right _ _) (hword "box" _) fun boxed r _ => ?_
    refine .bind (Nat.le_add_right _ _) (hword "ref" _) fun byRef r _ => ?_
    refine .bind (Nat.le_add_right _ _) (hword "mut" _) fun mutability r _ => ?_
    have hmodifiers : (boxed ++ byRef ++ mutability).canonical.printed =
      (boxed ++ byRef ++ mutability).printed := rfl
    show EchoAt L _ _ _ _ (if (boxed ++ byRef ++ mutability).printed.isEmpty = true then _ else _)
      (if (boxed ++ byRef ++ mutability).printed.isEmpty = true then _ else _) r
    cases hempty : (boxed ++ byRef ++ mutability).printed.isEmpty with
    | true =>
      simp only [if_true]
      have hnil : Form.phrase.tokens boxed ++ Form.phrase.tokens byRef ++
          Form.phrase.tokens mutability = [] :=
        List.isEmpty_iff.mp hempty
      rw [List.append_assoc, List.append_assoc,
        ← List.append_assoc _ _ (Form.phrase.tokens mutability), hnil, List.append_nil]
      exact memberPattern_echo hn
    | false =>
      simp only [Bool.false_eq_true, if_false]
      refine (EchoAt.identifier.weaken fun u hu => ?_).last (Nat.le_add_right _ _)
        (by simp [Form.phrase, Form.name]) fun _ => rfl
      obtain ⟨w, -, hu⟩ := hu
      exact .of_token (by simp) (by simp) hu

theorem fieldPattern_echo (h : g.Echo g' K J) (hL : L ≤ K + 3) {nested nested' : Reader Phrase}
    (hn : ∀ ts, EchoAt L .phrase [] PatternStart (fun _ => ItemEnd) nested nested' ts) :
    EchoAt L .phrase [] Onset (fun _ => ItemEnd) (fieldPattern g nested)
      (fieldPattern g' nested') ts := by
  rw [fieldPattern_eq, fieldPattern_eq]
  refine .bind (D := K + 3) (by simpa using hL)
    ((Attribute.attributes_echo h fun ts u (hu : Onset ts u) => .of_eq (hu.sign rfl)).weaken
    fun u hu => hu.elim .of_pound And.right) fun attrs r _ => fieldPatternRest_echo hn

/-! ## Paths -/

/-- What stands behind the path of a pattern that is no macro. -/
def PathRestStart (E : Sight) : Sight := fun ts u =>
  OnToken (.opening .brace) .any ts u ∨ OnToken (.opening .paren) .any ts u ∨ OnDots ts u ∨ E ts u

/-- The sign and the bracket of a macro call. -/
def OnCall : Sight := OnOperator "!" fun ts u => ∃ d, OnToken (.opening d) .any ts u

/-- What stands behind the path of a pattern. -/
def PathPatternEnd (E : Sight) : Sight := fun ts u => OnCall ts u ∨ PathRestStart E ts u

/-- What a pattern of a path goes on with if it is no macro. -/
def pathPatternRest (g : Nesting) (nested : Reader Phrase) (p : Phrase) : Reader Phrase := do
  if ← Reader.front (Front.opening .brace) then
    let fields ← Reader.inside .brace (Reader.listUntil Front.ends "," (fieldPattern g nested))
    return p ++ .bracketed .brace (.separated "," fields)
  else if ← Reader.front (Front.opening .paren) then
    let items ← Reader.inside .paren (Reader.listUntil Front.ends "," nested)
    return p ++ .bracketed .paren (.separated "," items)
  else if ← Reader.front (Front.op "..") then return p ++ (← rangeRest g)
  else return p

theorem pathPattern_eq (g : Nesting) (nested : Reader Phrase) : pathPattern g nested = (do
    let p ← qualifiedPath g true
    if !p.qualified && p.allBare then
      if ← Reader.front startsMacro then
        let bang ← Reader.op "!"
        return p.phrase ++ bang ++ (← Reader.unreadGroup)
      else pathPatternRest g nested p.phrase
    else pathPatternRest g nested p.phrase) := by
  unfold pathPattern
  refine bind_congr fun p => ?_
  cases p.qualified <;> cases p.allBare <;> rfl

theorem OnDots.of_op {u : List Placed} (h : OnDots ts u) : Front.op ".." ts = true := by
  obtain ⟨s, hs, h⟩ := h
  simp only [List.mem_cons, List.not_mem_nil, or_false] at hs
  rcases hs with rfl | rfl | rfl <;> exact isOperator_of_start h.1 (by decide)

theorem op_of_dots {s : String} {c : Char} (hs : s.toList.head? = some c) (hc : '.' ≠ c)
    (h : Front.op ".." ts = true) :
    Front.op s ts = false :=
  op_exclusive (s := "..") rfl hs hc h

theorem PathPatternEnd.pathEnd (hE : ∀ r w, E r w → PatternEnd r w) {r w : List Placed}
    (h : PathPatternEnd E r w) :
    PathEnd true r w := by
  rcases h with h | h | h | h | h
  · exact .of_operator (by decide) (by decide) h true
  · obtain ⟨s, r, s', v, rfl, rfl, -⟩ := h
    exact .of_no_op (fun x hx => op_of_leaf (by simp) hx s' v) true
  · obtain ⟨s, r, s', v, rfl, rfl, -⟩ := h
    exact .of_no_op (fun x hx => op_of_leaf (by simp) hx s' v) true
  · obtain ⟨s, hs, h⟩ := h
    simp only [List.mem_cons, List.not_mem_nil, or_false] at hs
    rcases hs with rfl | rfl | rfl <;> exact .of_operator (by decide) (by decide) h true
  · exact (hE _ _ h).path

/-- No path goes on behind a name, and nothing else that a pattern may go on with stands there. -/
structure NameEnds (u : List Placed) : Prop where
  colons : Front.op "::" u = false
  call : startsMacro u = false
  brace : Front.opening .brace u = false
  paren : Front.opening .paren u = false
  dots : Front.op ".." u = false

theorem pathPatternRest_echo (h : g.Echo g' K J) (hE : ∀ r w, E r w → PatternEnd r w) {H : Nat}
    (hN : H ≤ K + 1) (hL : H ≤ L + 2) (hK : L ≤ K + 3) {nested nested' : Reader Phrase}
    (hn : ∀ ts, EchoAt L .phrase [] PatternStart (fun _ => ItemEnd) nested nested' ts)
      (p : Phrase) :
    EchoAt H .phrase p.printed (PathRestStart E) (fun _ => E) (pathPatternRest g nested p)
      (pathPatternRest g' nested' p.canonical) ts := by
  unfold pathPatternRest
  refine .ask (Y := OnToken (.opening .brace) .any) (N := fun ts u =>
    OnToken (.opening .paren) .any ts u ∨ OnDots ts u ∨ E ts u)
    (fun _ => ?_) (fun _ => ?_) (fun _ u hu => ⟨?_, .inl hu⟩) fun hts u hu => ⟨?_, .inr hu⟩
  · refine .last (D := L + 2) (.inside (T := .any) fun _ _ _ =>
      (EchoAt.commas (fun _ => fieldPattern_echo h hK hn)
      (fun _ _ hu => hu.ends_right) _).weaken fun _ _ => trivial) (by omega) ?_ ?_
    · intro b; simp [Form.phrase, Form.inside, Phrase.printed_separated]
    · intro b; simp [Form.phrase, Form.inside, Phrase.canonical_separated]
  · refine .ask (Y := OnToken (.opening .paren) .any) (N := fun ts u => OnDots ts u ∨ E ts u)
      (fun _ => ?_) (fun _ => ?_) (fun _ u hu => ⟨?_, .inl hu⟩) fun hts u hu => ⟨?_, .inr hu⟩
    · refine .last (D := L + 2) (.inside (T := .any) fun _ _ _ => (EchoAt.commas hn
        (fun _ _ hu => hu.ends_right) _).weaken fun _ _ => trivial) (by omega) ?_ ?_
      · intro b; simp [Form.phrase, Form.inside, Phrase.printed_separated]
      · intro b; simp [Form.phrase, Form.inside, Phrase.canonical_separated]
    · refine .ask (Y := OnDots) (N := E) (fun _ => ?_) (fun _ => .pure rfl rfl fun _ h => h)
        (fun _ u hu => ⟨hu.dots, .inl hu⟩) fun hts u hu => ⟨(hE _ _ hu).dots hts, .inr hu⟩
      exact (rangeRest_echo h hE).last (by omega) (by simp [Form.phrase]) (by simp [Form.phrase])
    · obtain ⟨s, r, s', v, -, rfl, -⟩ := hu
      rfl
    · rcases hu with hu | hu
      · exact (hu.onset.opening _).trans hts
      · exact (hE _ _ hu).paren hts
  · obtain ⟨s, r, s', v, -, rfl, -⟩ := hu
    rfl
  · rcases hu with hu | hu | hu
    · obtain ⟨s, r, s', v, -, rfl, -⟩ := hu
      rfl
    · exact (hu.onset.opening _).trans hts
    · exact (hE _ _ hu).brace hts

theorem PathRestStart.call (hE : ∀ r w, E r w → PatternEnd r w) {r w : List Placed}
    (h : PathRestStart E r w) :
    Denies startsMacro r w := by
  rcases h with h | h | h | h
  · obtain ⟨s, r, s', v, rfl, rfl, -⟩ := h
    exact .of_false (by
      simp [startsMacro, op_of_leaf (t := .opening .brace) (by simp) (s := "!") (by decide)])
  · obtain ⟨s, r, s', v, rfl, rfl, -⟩ := h
    exact .of_false (by
      simp [startsMacro, op_of_leaf (t := .opening .paren) (by simp) (s := "!") (by decide)])
  · exact .of_false (by simp [startsMacro, op_of_dots (s := "!") rfl (by decide) h.dots])
  · exact (hE _ _ h).call

theorem pathPattern_echo (h : g.Echo g' K J) (hE : ∀ r w, E r w → PatternEnd r w) {H : Nat}
    (hN : H ≤ K + 1) (hL : H ≤ L + 2) (hK : L ≤ K + 3) {nested nested' : Reader Phrase}
    (hn : ∀ ts, EchoAt L .phrase [] PatternStart (fun _ => ItemEnd) nested nested' ts) :
    EchoAt H .phrase [] (QualifiedStart true (PathPatternEnd E)) (fun _ => E) (pathPattern g nested)
      (pathPattern g' nested') ts := by
  rw [pathPattern_eq, pathPattern_eq]
  refine .bind (D := K + 1) (by omega) (qualifiedPath_echo h fun _ _ => PathPatternEnd.pathEnd hE)
    fun p r _ => ?_
  show EchoAt H _ _ _ _ (if (!p.qualified && p.allBare) = true then _ else _)
    (if (!p.qualified && p.allBare) = true then _ else _) r
  have hrest (ts : List Placed) : EchoAt _ _ _ _ _ _ _ ts :=
    pathPatternRest_echo h hE hN hL hK hn p.phrase
  cases !p.qualified && p.allBare with
  | false => exact (hrest r).weaken fun _ => .inr
  | true =>
    refine .ask (Y := OnCall) (fun _ => ?_) (fun _ => hrest r) (fun _ u hu => ⟨?_, .inl hu⟩)
      fun hts u hu => ⟨hu.call hE hts, .inr hu⟩
    · exact .op_then (by decide) fun _ => EchoAt.unreadGroup.last (Nat.le_add_right _ _)
        (by simp [Form.phrase, Form.path]) fun _ => rfl
    · simp [startsMacro, OnOperator.op (by decide) hu]

/-! ## Bindings -/

/-- A name that is bound, with its modifiers and what it is bound to. -/
def bindingPattern (single : Reader Phrase) : Reader Phrase := do
  let byRef ← word? "ref"
  let mutability ← word? "mut"
  let name ← if ← Reader.front (Front.word "self") then Reader.anyWord else Reader.identifier
  match ← Reader.op? "@" with
  | some sign => return byRef ++ mutability ++ .word name ++ sign ++ (← single)
  | none => return byRef ++ mutability ++ .word name

/-- A name that can be bound. -/
def boundName : Reader String := do
  if ← Reader.front (Front.word "self") then Reader.anyWord else Reader.identifier

theorem bindingPattern_eq (single : Reader Phrase) : bindingPattern single = (do
    let byRef ← word? "ref"
    let mutability ← word? "mut"
    let name ← boundName
    match ← Reader.op? "@" with
    | some sign => return byRef ++ mutability ++ .word name ++ sign ++ (← single)
    | none => return byRef ++ mutability ++ .word name) := by
  unfold bindingPattern boundName
  simp only [Reader.ask_bind]

/-- A literal or a range that begins with one, or with a constant. -/
def literalPattern (g : Nesting) : Reader Phrase := do
  let first ← rangeEnd? g
  let rest ← if ← Reader.front (Front.op "..") then rangeRest g else pure .empty
  return Phrase.ofOption first ++ rest

/-- A pattern that does not begin with a path. -/
def plainPattern (g : Nesting) (single : Reader Phrase) : Reader Phrase := do
  if ← Reader.front (Front.word "_") then Reader.word "_"
  else if ← Reader.front (Front.word "box") then
    let boxed ← Reader.word "box"
    return boxed ++ (← single)
  else if ← Reader.front fun ts => Front.literal ts || Front.word "const" ts then literalPattern g
  else if ← Reader.front fun ts =>
      Front.word "ref" ts || Front.word "mut" ts || Front.word "self" ts || Front.identifier ts then
    bindingPattern single
  else if ← Reader.front (Front.op "&") then
    let amp ← Reader.op "&"
    let mutability ← word? "mut"
    return amp ++ mutability ++ (← single)
  else if ← Reader.front (Front.opening .paren) then
    let items ← Reader.inside .paren (Reader.listUntil Front.ends "," (alternativePatterns single))
    return .bracketed .paren (.separated "," items)
  else if ← Reader.front (Front.opening .bracket) then
    let items ← Reader.inside .bracket
      (Reader.listUntil Front.ends "," (alternativePatterns single))
    return .bracketed .bracket (.separated "," items)
  else if ← Reader.front fun ts => Front.op ".." ts && !Front.op "..." ts then rangeRest g
  else Reader.missing patternStarts

theorem patternFuel_succ (g : Nesting) (fuel : Nat) : patternFuel g (fuel + 1) = (do
    if ← Reader.front startsPathPattern then
      pathPattern g (alternativePatterns (patternFuel g fuel))
    else plainPattern g (patternFuel g fuel)) := rfl

/-- The start of a pattern that does not begin with a path. -/
def PlainPatternStart : Sight := fun ts u => PatternStart ts u ∧ startsPathPattern u = false

theorem startsPathPattern_of_no_word {u : List Placed} (hw : Front.anyWord u = false)
    (hop : ∀ x ∈ ["::", "<"], Front.op x u = false) : startsPathPattern u = false := by
  have hno (w : String) : Front.word w u = false := by
    rcases u with _ | ⟨⟨t, s⟩, v⟩
    · rfl
    · cases t <;> simp_all [Front.word, Front.anyWord]
  have hid : Front.identifier u = false := by
    rcases u with _ | ⟨⟨t, s⟩, v⟩
    · rfl
    · cases t <;> simp_all [Front.identifier, Front.anyWord]
  simp [startsPathPattern, hno, hid, hop "::", hop "<"]

theorem PlainPatternStart.of_token {t : Token} {M : Sight} {u : List Placed}
    (hc : ∀ d, t ≠ .closing d)
    (hp : ∀ c j, t ≠ .punct c j) (hw : ∀ w, t = .ident w → Front.reserved.contains w = true ∧
      w ∉ ["self", "Self", "super", "crate"]) (h : OnToken t M ts u) : PlainPatternStart ts u := by
  refine ⟨.of_token hc hp h, ?_⟩
  obtain ⟨s, r, s', v, -, rfl, -⟩ := h
  have hop (x : String) (hx : x.toList ≠ []) : Front.op x (⟨t, s'⟩ :: v) = false :=
    op_of_leaf hp hx s' v
  cases t with
  | ident w =>
    obtain ⟨hr, hw⟩ := hw w rfl
    simp only [List.mem_cons, List.not_mem_nil, or_false, not_or] at hw
    simp only [startsPathPattern, Front.identifier, hr, Front.word, hop "::" (by decide),
      hop "<" (by decide)]
    simp [hw]
  | _ => exact startsPathPattern_of_no_word rfl fun x hx => hop x (by
      simp only [List.mem_cons, List.not_mem_nil, or_false] at hx; rcases hx with rfl | rfl <;>
      decide)

theorem PlainPatternStart.of_operator {s : String} {M : Sight} {u : List Placed}
    (hs : beginsPhrase s.toList = true)
    (hno : ∀ x ∈ ["::", "<"], x.toList.isPrefixOf s.toList = false) (h : OnOperator s M ts u) :
      PlainPatternStart ts u := by
  have hne : s.toList ≠ [] := by rintro h; simp [h, beginsPhrase] at hs
  exact ⟨.of_operator hs (hno "<" (by simp)) h,
    startsPathPattern_of_no_word (h.no_leaf hne).1 fun x hx =>
    (h.op hne x).trans (hno x hx)⟩

/-- A name that is bound. -/
def BoundName (E : Sight) : Sight := fun ts u =>
  ∃ w, OnToken (.ident w) (fun r v => OnOperator "@" .any r v ∨ E r v) ts u

theorem BoundName.onset {u : List Placed} (h : BoundName E ts u) : Onset ts u :=
  h.elim fun _ h => .of_token (by simp) (by simp) h

/-- The start of a binding. -/
def BindingStart (E : Sight) : Sight := fun ts u =>
  OnToken (.ident "ref") .any ts u ∨ OnToken (.ident "mut") .any ts u ∨ BoundName E ts u

theorem BindingStart.onset {u : List Placed} (h : BindingStart E ts u) : Onset ts u := by
  rcases h with h | h | h
  · exact .of_token (by simp) (by simp) h
  · exact .of_token (by simp) (by simp) h
  · exact h.onset

theorem bindingPattern_echo {single single' : Reader Phrase} (hs : PatternEcho L single single')
    (hE : ∀ r w, E r w → PatternEnd r w) :
    EchoAt (L + 1) .phrase [] (BindingStart E) (fun _ => E) (bindingPattern single)
      (bindingPattern single') ts := by
  rw [bindingPattern_eq, bindingPattern_eq]
  refine .bind (M := fun _ ts u => OnToken (.ident "mut") .any ts u ∨ BoundName E ts u)
    (Nat.le_add_right _ _)
    (EchoAt.weaken (word?_echo fun ts u hu => ?_) fun u hu => ?_) fun byRef r _ => ?_
  · exact .of_eq ((BindingStart.onset (.inr hu)).word _)
  · exact hu.imp OnToken.anything id
  refine .bind (M := fun _ => BoundName E) (Nat.le_add_right _ _)
    (EchoAt.weaken (word?_echo fun ts u hu => .of_eq (hu.onset.word _)) fun u hu =>
      hu.imp OnToken.anything id)
    fun mutability r _ => ?_
  refine .bind (G := .name) (M := fun _ r v => OnOperator "@" .any r v ∨ E r v)
    (Nat.le_add_right _ _) ?_ fun name r _ => ?_
  · refine .ask_eq (fun u hu => hu.onset.word _) (fun _ => ?_) fun _ => ?_
    · exact EchoAt.anyWord.weaken fun _ => id
    · exact EchoAt.identifier.weaken fun u ⟨w, _, hu⟩ => ⟨w, hu⟩
  · refine .op? (M := PatternStart) (by decide) (fun _ => ?_)
      (fun _ => .pure (by simp [Form.phrase, Form.name]) rfl fun _ h => h)
        (fun u hu => .inl hu.anything)
      fun hts u hu => ⟨(hE _ _ hu).sign, .inr hu⟩
    exact (hs E hE _).last (by simp [Form.name]; omega) (by simp [Form.phrase, Form.name]) fun _ =>
      rfl

theorem BoundName.plain (hE : ∀ r w, E r w → PatternEnd r w) {u : List Placed}
    (h : BoundName E ts u) (hts : startsPathPattern ts = false) : PlainPatternStart ts u := by
  obtain ⟨w, h⟩ := h
  refine ⟨.of_token (by simp) (by simp) h, ?_⟩
  obtain ⟨s, r, s', v, rfl, rfl, h⟩ := h
  have hleaf (x : String) (hx : x.toList ≠ []) (s : Span) (v : List Placed) :
      Front.op x (⟨.ident w, s⟩ :: v) = false := op_of_leaf (by simp) hx s v
  have hword (x : String) : Front.word x (⟨.ident w, s'⟩ :: v) =
    Front.word x (⟨.ident w, s⟩ :: r) := rfl
  have hid : Front.identifier (⟨.ident w, s'⟩ :: v) = Front.identifier (⟨.ident w, s⟩ :: r) := rfl
  have hv : Denies (Front.op "::") r v ∧ Denies (Front.op "!") r v ∧ Denies (Front.op "..") r v ∧
      Denies (Front.opening .brace) r v ∧ Denies (Front.opening .paren) r v := by
    rcases h with h | h
    · have hno := h.no_leaf (by decide)
      exact ⟨.of_false ((h.op (by decide) _).trans (by decide)),
        .of_false ((h.op (by decide) _).trans (by decide)),
        .of_false ((h.op (by decide) _).trans (by decide)), .of_false (hno.2.2.1 _),
        .of_false (hno.2.2.1 _)⟩
    · exact ⟨(hE _ _ h).path.colons, (hE _ _ h).bang, (hE _ _ h).dots, (hE _ _ h).brace,
        (hE _ _ h).paren⟩
  simp only [startsPathPattern, List.drop_one, List.tail_cons, hword, hid, hleaf "::" (by decide),
    hleaf "<" (by decide), Bool.or_eq_false_iff, Bool.and_eq_false_iff] at hts ⊢
  obtain ⟨⟨⟨⟨⟨⟨hname, hself⟩, h₁⟩, h₂⟩, h₃⟩, h₄⟩, h₅⟩ := hts
  refine ⟨⟨⟨⟨⟨⟨?_, ?_⟩, h₁⟩, h₂⟩, h₃⟩, h₄⟩, h₅⟩
  · exact hname.imp_right fun ⟨⟨⟨⟨h₁, h₂⟩, h₃⟩, h₄⟩, h₅⟩ =>
      ⟨⟨⟨⟨hv.1 h₁, hv.2.1 h₂⟩, hv.2.2.1 h₃⟩, hv.2.2.2.1 h₄⟩, hv.2.2.2.2 h₅⟩
  · exact hself.imp_right hv.1

theorem BindingStart.plain (hE : ∀ r w, E r w → PatternEnd r w) {u : List Placed}
    (h : BindingStart E ts u) (hts : startsPathPattern ts = false) : PlainPatternStart ts u := by
  rcases h with h | h | h
  · exact .of_token (by simp) (by simp) (by rintro w ⟨⟩; decide) h
  · exact .of_token (by simp) (by simp) (by rintro w ⟨⟩; decide) h
  · exact h.plain hE hts

/-! ## Literals and ranges -/

theorem not_endsRange_of_dots (h : Front.op ".." ts = true) : endsRange ts = false := by
  have hno (x : String) (c : Char) (hx : x.toList.head? = some c) (hc : '.' ≠ c) :
    Front.op x ts = false := op_of_dots hx hc h
  rcases ts with _ | ⟨⟨t, s⟩, r⟩
  · cases h
  · cases t with
    | punct c j =>
      simp only [endsRange, hno "|" _ rfl (by decide), hno "=" _ rfl (by decide),
        hno ":" _ rfl (by decide),
        hno "," _ rfl (by decide), hno ";" _ rfl (by decide)]
      rfl
    | _ => cases h

theorem OnDots.patternEnd {u : List Placed} (h : OnDots ts u) : PatternEnd ts u := by
  have hu := h.dots
  have hts := h.of_op
  have hno (x : String) (c : Char) (hx : x.toList.head? = some c) (hc : '.' ≠ c) :
    Front.op x u = false := op_of_dots hx hc hu
  have hopen (d : Delimiter) : Front.opening d u = false := by
    obtain ⟨s, hs, h⟩ := h
    exact (h.no_leaf (by
      simp only [List.mem_cons, List.not_mem_nil, or_false] at hs;
      rcases hs with rfl | rfl | rfl <;> decide)).2.2.1 d
  refine ⟨⟨?_, ?_, ?_⟩, .of_false (hno "!" _ rfl (by decide)), .of_false ?_, .of_false (hopen _),
    .of_false (hopen _), fun h => ?_,
    fun h => ?_, hno "@" _ rfl (by decide)⟩
  · exact .of_false (by simp [startsArguments, behindColons, hno "::" _ rfl (by decide)])
  · exact .of_false (hno "::" _ rfl (by decide))
  · exact .of_false (by simp [hno "::" _ rfl (by decide)])
  · simp [startsMacro, hno "!" _ rfl (by decide)]
  · rw [hts] at h; cases h
  · rw [not_endsRange_of_dots hts] at h
    cases h

/-- The rest of a range, if it is one. -/
def rangeRest? (g : Nesting) : Reader Phrase := do
  if ← Reader.front (Front.op "..") then rangeRest g else return .empty

theorem literalPattern_eq (g : Nesting) : literalPattern g = (do
    let first ← rangeEnd? g
    let rest ← rangeRest? g
    return Phrase.ofOption first ++ rest) := by
  unfold literalPattern rangeRest?
  simp only [Reader.ask_bind]

theorem literalPattern_echo (h : g.Echo g' K J) (hE : ∀ r w, E r w → PatternEnd r w)
    (hts : (Front.literal ts || Front.word "const" ts) = true) :
    EchoAt (K + 1) .phrase [] PatternStart (fun _ => E) (literalPattern g)
      (literalPattern g') ts := by
  have hends : endsRange ts = false := by
    rcases ts with _ | ⟨⟨t, s⟩, r⟩
    · cases hts
    · have hop (hp : ∀ c j, t ≠ .punct c j) (x : String) (hx : x.toList ≠ []) :
          Front.op x (⟨t, s⟩ :: r) = false :=
        op_of_leaf hp hx s r
      cases t with
      | ident w =>
        have hw : w ≠ "if" := by rintro rfl; cases hts
        simp [endsRange, hop, Front.ends, Front.word, hw]
      | literal text => simp [endsRange, hop, Front.ends, Front.word]
      | punct c j =>
        obtain rfl : c = '-' := by
          by_contra hc
          simp only [Front.literal, Front.word, Bool.or_false] at hts
          split at hts <;> simp_all
        simp [endsRange, Front.op, Front.isOperator, Front.ends, Front.word]
      | _ => cases hts
  rw [literalPattern_eq, literalPattern_eq]
  refine .bind (M := fun _ r v => OnDots r v ∨ E r v) (Nat.le_add_right _ _)
    ((rangeEnd?_echo h fun r w hw => hw.elim OnDots.patternEnd (hE _ _)).weaken fun u hu => ?_)
      fun first r _ => ?_
  · rcases hu with hu | hu
    · exact hu.2
    · rw [hends] at hu
      cases hu.1
  · refine EchoAt.last (D := K + 1) (G := .phrase) ?_ (by omega)
      (by simp [Form.phrase, Phrase.printed_ofOption]) (by simp [Form.phrase, Form.option])
    exact .ask (Y := OnDots) (N := E) (fun _ => rangeRest_echo h hE)
      (fun _ => .pure rfl rfl fun _ h => h)
      (fun _ u hu => ⟨hu.dots, .inl hu⟩) fun hts u hu => ⟨(hE _ _ hu).dots hts, .inr hu⟩

theorem plainPatternStart_of_literal {u : List Placed} (h : PatternStart ts u)
    (hts : (Front.literal ts || Front.word "const" ts) = true) : PlainPatternStart ts u := by
  refine ⟨h, ?_⟩
  rw [← h.literal, ← h.word "const"] at hts
  rcases u with _ | ⟨⟨t, s⟩, r⟩
  · rfl
  · have hop (hp : ∀ c j, t ≠ .punct c j) (x : String) (hx : x.toList ≠ []) :
        Front.op x (⟨t, s⟩ :: r) = false :=
      op_of_leaf hp hx s r
    cases t with
    | ident w =>
      have hw : w = "true" ∨ w = "false" ∨
        w = "const" := by simpa [Front.literal, Front.word, or_assoc] using hts
      rcases hw with rfl | rfl | rfl <;> simp [startsPathPattern, hop, Front.identifier, Front.word,
        Front.reserved]
    | literal text => simp [startsPathPattern, hop, Front.identifier, Front.word]
    | punct c j =>
      obtain rfl : c = '-' := by
        by_contra hc
        simp only [Front.literal, Front.word, Bool.or_false] at hts
        split at hts <;> simp_all
      simp [startsPathPattern, Front.op, Front.isOperator, Front.identifier, Front.word]
    | _ => cases hts

/-! ## Patterns -/

theorem PatternsEnd.of_item {u : List Placed} (h : ItemEnd ts u) : PatternsEnd ts u where
  toPatternEnd := h.pattern
  bar := .of_false (by
    rcases h with h | h
    · simp [startsAlternative, h.op (s := ",") (by decide)]
    · simp [startsAlternative, op_of_ends h.ends_right])

/-- The patterns between brackets. -/
theorem nestedPatterns_echo {single single' : Reader Phrase} (hs : PatternEcho L single single')
    (d : Delimiter) :
    EchoAt (L + 2) (.inside d (.list "," .phrase)) [] (OnToken (.opening d) .any) (fun _ => E)
      (Reader.inside d (Reader.listUntil Front.ends "," (alternativePatterns single)))
      (Reader.inside d (Reader.listUntil Front.ends "," (alternativePatterns single'))) ts :=
  .inside (T := .any) fun _ _ _ => (EchoAt.commas
    (fun _ => alternativePatterns_echo hs fun _ _ => PatternsEnd.of_item)
    (fun _ _ hu => hu.ends_right) _).weaken
      fun _ _ => trivial

/-- Dots that are not three begin a range in print as well. -/
theorem plainPatternStart_of_dots {u : List Placed} (h : OnDots ts u)
    (hts : (Front.op ".." ts && !Front.op "..." ts) = true) :
    (Front.op ".." u && !Front.op "..." u) = true ∧ PlainPatternStart ts u := by
  simp only [Bool.and_eq_true, Bool.not_eq_true'] at hts ⊢
  obtain ⟨x, hx, hu⟩ := h
  simp only [List.mem_cons, List.not_mem_nil, or_false] at hx
  rcases hx with rfl | rfl | rfl
  · exact ⟨⟨(hu.op (by decide) _).trans (by decide), (hu.op (by decide) _).trans (by decide)⟩,
      .of_operator (by decide) (by decide) hu⟩
  · rw [hu.1] at hts
    cases hts.2
  · exact ⟨⟨(hu.op (by decide) _).trans (by decide), (hu.op (by decide) _).trans (by decide)⟩,
      .of_operator (by decide) (by decide) hu⟩

theorem plainPattern_echo (h : g.Echo g' K J) (hE : ∀ r w, E r w → PatternEnd r w) {H : Nat}
    (hN : H ≤ K + 1)
    (hL : H ≤ L + 1) {single single' : Reader Phrase} (hs : PatternEcho L single single')
    (hts : startsPathPattern ts = false) :
    EchoAt H .phrase [] PlainPatternStart (fun _ => E) (plainPattern g single)
      (plainPattern g' single') ts := by
  have hleaf {d : Delimiter} {M : Sight} {ts u : List Placed} (hu : OnToken (.opening d) M ts u) :
      PlainPatternStart ts u :=
    .of_token (by simp) (by simp) (by simp) hu
  unfold plainPattern
  refine .ask_eq (fun u hu => hu.1.word _) (fun _ => ?_) fun _ => ?_
  · exact EchoAt.word.weaken fun u hu => .of_token (by simp) (by simp) (by rintro w ⟨⟩; decide) hu
  refine .ask_eq (fun u hu => hu.1.word _) (fun _ => ?_) fun _ => ?_
  · refine EchoAt.weaken (.word_then (M := .any) fun s r _ => ?_) fun u hu =>
      .of_token (by simp) (by simp) (by rintro w ⟨⟩; decide) hu
    exact ((hs E hE _).weaken fun _ _ => trivial).last (by simp; omega) (by simp [Form.phrase])
      fun _ => rfl
  refine .ask_eq (fun u hu => by rw [hu.1.literal, hu.1.word]) (fun hlit => ?_) fun _ => ?_
  · exact (literalPattern_echo h hE hlit).mono hN (fun u hu => plainPatternStart_of_literal hu hlit)
      fun _ _ _ _ => id
  refine .ask_eq (fun u hu => by rw [hu.1.word, hu.1.word, hu.1.word, hu.1.identifier])
    (fun _ => ?_) fun _ => ?_
  · exact (bindingPattern_echo hs hE).mono hL (fun u hu => hu.plain hE hts) fun _ _ _ _ => id
  refine .ask_eq (fun u hu => hu.1.sign rfl) (fun _ => ?_) fun _ => ?_
  · refine EchoAt.weaken (.op_then (by decide) (M := PatternStart) fun _ => ?_) fun u hu =>
      .of_operator (by decide) (by decide) hu
    refine .bind (M := fun _ => PatternStart) (Nat.le_add_right _ _)
      ((word?_echo fun ts u hu => .of_eq (hu.word _)).weaken
      fun u hu => hu.elim (.of_token (by simp) (by simp)) id) fun mutability r _ => ?_
    exact (hs E hE _).last (by simp [operatorTokens]; omega) (by simp [Form.phrase]) fun _ => rfl
  refine .ask_eq (fun u hu => hu.1.opening _) (fun _ => ?_) fun _ => ?_
  · exact ((nestedPatterns_echo hs .paren).weaken fun _ => hleaf).last (by simp; omega)
      (by simp [Form.phrase, Form.inside, Phrase.printed_separated])
        (by simp [Form.phrase, Form.inside, Phrase.canonical_separated])
  refine .ask_eq (fun u hu => hu.1.opening _) (fun _ => ?_) fun _ => ?_
  · exact ((nestedPatterns_echo hs .bracket).weaken fun _ => hleaf).last (by simp; omega)
      (by simp [Form.phrase, Form.inside, Phrase.printed_separated])
        (by simp [Form.phrase, Form.inside, Phrase.canonical_separated])
  exact .ask (Y := OnDots) (N := fun _ _ => False)
    (fun _ => (rangeRest_echo h hE).mono hN (fun _ => id) fun _ _ _ _ => id)
    (fun _ => .missing _) (fun hdots u hu => plainPatternStart_of_dots hu hdots)
    fun _ _ => False.elim

section Name

variable {w : String} {s : Span} {v : List Placed}

theorem op_name {x : String} (hx : x.toList ≠ []) : Front.op x (⟨.ident w, s⟩ :: v) = false :=
  op_of_leaf (by simp) hx s v

theorem identifier_name (h : Front.reserved.contains w = false) :
    Reader.identifier (⟨.ident w, s⟩ :: v) = .ok (w, v) := by
  unfold Reader.identifier
  simp only [h]
  rfl

theorem not_reserved_of_name (hw : Front.identifier (⟨.ident w, s⟩ :: v) = true ∨ w = "self")
    (hself : w ≠ "self") : Front.reserved.contains w = false := by
  rcases hw with hw | rfl
  · simpa [Front.identifier] using hw
  · exact absurd rfl hself

/-- A name is none of the reserved words but `self`. -/
theorem no_word_of_name (hw : Front.identifier (⟨.ident w, s⟩ :: v) = true ∨ w = "self")
    {x : String} (hx : Front.reserved.contains x = true) (hself : x ≠ "self") : (w == x) = false := by
  rw [beq_eq_false_iff_ne]
  rintro rfl
  rw [not_reserved_of_name hw hself] at hx
  cases hx

theorem segment_name (g : Nesting) (hw : Front.identifier (⟨.ident w, s⟩ :: v) = true ∨ w = "self")
    (h : NameEnds v) : segment g true (⟨.ident w, s⟩ :: v) = .ok ((.word w, true), v) := by
  show (Reader.front startsKeywordSegment >>= fun b => if b = true then
      (Reader.anyWord >>= fun w => pure (.word w, true)) else
    Reader.front (Front.word "Self") >>= fun b => if b = true then Reader.anyWord >>=
    segmentRest g true
      else Reader.identifier >>= segmentRest g true) _ = _
  rw [Reader.ask_apply]
  split
  · rfl
  · rename_i hkey
    have hself : Front.word "Self" (⟨.ident w, s⟩ :: v) = false :=
      no_word_of_name hw (by decide) (by decide)
    have hid : Front.reserved.contains w = false := not_reserved_of_name hw <| by
      rintro rfl
      exact hkey rfl
    rw [Reader.ask_apply, if_neg (by simp [hself])]
    show (Reader.identifier (⟨.ident w, s⟩ :: v)).bind (fun x => segmentRest g true x.1 x.2) = _
    rw [identifier_name hid]
    show segmentRest g true w v = _
    unfold segmentRest
    rw [Reader.ask_apply, if_neg (by simp [startsArguments, behindColons, h.colons])]
    rfl

theorem qualifiedPath_name (g : Nesting)
    (hw : Front.identifier (⟨.ident w, s⟩ :: v) = true ∨ w = "self") (h : NameEnds v) :
    qualifiedPath g true (⟨.ident w, s⟩ :: v) =
      .ok (⟨.word w, 1, false, false, true, true⟩, v) := by
  rw [qualifiedPath_eq, Reader.ask_apply, if_neg (by simp [op_name (x := "<") (by decide)])]
  show (Reader.op? "::" >>= pathRest g true) _ = _
  rw [Reader.op?_apply, if_neg (by simp [op_name (x := "::") (by decide)])]
  show (segment g true (⟨.ident w, s⟩ :: v)).bind (fun x => moreSegments g true
    ⟨.empty ++ x.1.1, 1, false, false, x.1.2, x.1.2⟩ x.2) = _
  rw [segment_name g hw h]
  show moreSegmentsFuel g true (v.length + 1) ⟨.word w, 1, false, false, true, true⟩ v = _
  unfold moreSegmentsFuel
  rw [Reader.ask_apply, if_neg (by simp [h.colons])]
  rfl

/-- A name behind which nothing of a path stands is read as a binding, and would be as a path. -/
theorem pathPattern_name (g : Nesting) (nested : Reader Phrase)
    (hw : Front.identifier (⟨.ident w, s⟩ :: v) = true ∨ w = "self") (h : NameEnds v) :
    pathPattern g nested (⟨.ident w, s⟩ :: v) = .ok (.word w, v) := by
  rw [pathPattern_eq]
  show (qualifiedPath g true (⟨.ident w, s⟩ :: v)).bind _ = _
  rw [qualifiedPath_name g hw h]
  show (Reader.front startsMacro >>= fun b => if b = true then (do
    let bang ← Reader.op "!"
    return .word w ++ bang ++ (← Reader.unreadGroup)) else pathPatternRest g nested (.word w)) v = _
  rw [Reader.ask_apply, if_neg (by simp [h.call])]
  unfold pathPatternRest
  rw [Reader.ask_apply, if_neg (by simp [h.brace]), Reader.ask_apply, if_neg (by simp [h.paren]),
    Reader.ask_apply,
    if_neg (by simp [h.dots])]
  rfl

theorem boundName_name (hw : Front.identifier (⟨.ident w, s⟩ :: v) = true ∨ w = "self") :
    boundName (⟨.ident w, s⟩ :: v) = .ok (w, v) := by
  unfold boundName
  rw [Reader.ask_apply]
  split
  · rfl
  · rename_i hself
    refine identifier_name (not_reserved_of_name hw ?_)
    rintro rfl
    exact hself rfl

theorem word?_name (hw : Front.identifier (⟨.ident w, s⟩ :: v) = true ∨ w = "self") {x : String}
    (hx : Front.reserved.contains x = true) (hself : x ≠ "self") :
    word? x (⟨.ident w, s⟩ :: v) = .ok (.empty, ⟨.ident w, s⟩ :: v) := by
  have hno : Front.word x (⟨.ident w, s⟩ :: v) = false := no_word_of_name hw hx hself
  unfold word?
  rw [Reader.ask_apply, if_neg (by simp [hno])]
  rfl

theorem bindingPattern_name (single : Reader Phrase)
    (hw : Front.identifier (⟨.ident w, s⟩ :: v) = true ∨ w = "self") (h : Front.op "@" v = false) :
    bindingPattern single (⟨.ident w, s⟩ :: v) = .ok (.word w, v) := by
  rw [bindingPattern_eq]
  show (word? "ref" (⟨.ident w, s⟩ :: v)).bind _ = _
  rw [word?_name hw (by decide) (by decide)]
  show (word? "mut" (⟨.ident w, s⟩ :: v)).bind _ = _
  rw [word?_name hw (by decide) (by decide)]
  show (boundName (⟨.ident w, s⟩ :: v)).bind _ = _
  rw [boundName_name hw]
  show (Reader.op? "@" >>= _) v = _
  rw [Reader.op?_apply, if_neg (by simp [h])]
  rfl

theorem plainPattern_name (g : Nesting) (single : Reader Phrase)
    (hw : Front.identifier (⟨.ident w, s⟩ :: v) = true ∨ w = "self") (h : Front.op "@" v = false) :
    plainPattern g single (⟨.ident w, s⟩ :: v) = .ok (.word w, v) := by
  have hno {x : String} (hx : Front.reserved.contains x = true) (hself : x ≠ "self") :
      Front.word x (⟨.ident w, s⟩ :: v) = false := no_word_of_name hw hx hself
  have hbound : (Front.word "ref" (⟨.ident w, s⟩ :: v) || Front.word "mut" (⟨.ident w, s⟩ :: v) ||
      Front.word "self" (⟨.ident w, s⟩ :: v) || Front.identifier (⟨.ident w, s⟩ :: v)) = true := by
    rcases hw with hw | rfl
    · rw [hw, Bool.or_true]
    · rfl
  unfold plainPattern
  rw [Reader.ask_apply, if_neg (by simp [hno (x := "_") (by decide) (by decide)]), Reader.ask_apply,
    if_neg (by simp [hno (x := "box") (by decide) (by decide)]), Reader.ask_apply, if_neg,
    Reader.ask_apply, if_pos hbound]
  · exact bindingPattern_name single hw h
  · have h₁ : (w == "true") = false := no_word_of_name hw (by decide) (by decide)
    have h₂ : (w == "false") = false := no_word_of_name hw (by decide) (by decide)
    simp [Front.literal, h₁, h₂, hno (x := "const") (by decide) (by decide)]

end Name

/-- Where nothing of a path stands in print, the pattern does not go on with `@` either. -/
theorem sign_behind_name (hE : ∀ r w, E r w → PatternEnd r w) {r v : List Placed}
    (h : AfterName true (PathPatternEnd E) r v) (hv : NameEnds v) (hbang : Front.op "!" v = false) :
    Front.op "@" v = false := by
  have hopen {d : Delimiter} (hd : OnToken (.opening d) .any r v) : Front.opening d v = true := by
    obtain ⟨_, _, _, _, -, rfl, -⟩ := hd
    cases d <;> rfl
  rcases h with (h | h | h | h | h) | h | h
  · exact absurd (h.op_self (by decide)) (by simp [hbang])
  · exact absurd (hopen h) (by simp [hv.brace])
  · exact absurd (hopen h) (by simp [hv.paren])
  · exact absurd h.dots (by simp [hv.dots])
  · exact (hE _ _ h).sign
  · exact absurd (h.op_self (by decide)) (by simp [hv.colons])
  · cases h.1

/-- Colons behind a name of the source that are gone in print were a single colon. -/
theorem nameEnds_of_colons (hE : ∀ r w, E r w → PatternEnd r w) {r v : List Placed}
    (h : AfterName true (PathPatternEnd E) r v) (hr : Front.op "::" r = true)
    (hv : Front.op "::" v = false) : NameEnds v ∧ Front.op "@" v = false := by
  have hno (x : String) (c : Char) (hx : x.toList.head? = some c) (hc : ':' ≠ c) :
      Front.op x r = false :=
    op_exclusive (s := "::") rfl hx hc hr
  have hopen (d : Delimiter) : Front.opening d r = false := by
    rcases r with _ | ⟨⟨t, s⟩, r⟩
    · rfl
    · cases t with
      | opening d' => cases hr
      | _ => rfl
  have hopening {d : Delimiter} (hd : OnToken (.opening d) .any r v) :
      Front.opening d r = true := by
    obtain ⟨_, _, _, _, rfl, -, -⟩ := hd
    cases d <;> rfl
  rcases h with (h | h | h | h | h) | h | h
  · exact absurd h.1 (by simp [hno "!" _ rfl (by decide)])
  · exact absurd (hopening h) (by simp [hopen])
  · exact absurd (hopening h) (by simp [hopen])
  · exact absurd h.of_op (by simp [hno ".." _ rfl (by decide)])
  · have h := hE _ _ h
    exact ⟨⟨hv, h.call (by simp [startsMacro, hno "!" _ rfl (by decide)]), h.brace (hopen _),
      h.paren (hopen _), h.dots (hno ".." _ rfl (by decide))⟩, h.sign⟩
  · exact absurd (h.op_self (by decide)) (by simp [hv])
  · cases h.1

/-- What looks like a path in a source, and like a binding in print, is the same name. -/
theorem exists_of_path_lost (hE : ∀ r w, E r w → PatternEnd r w) {u : List Placed}
    (h : QualifiedStart true (PathPatternEnd E) ts u) (hts : startsPathPattern ts = true)
      (hu : startsPathPattern u = false) :
    ∃ w s v, u = ⟨.ident w, s⟩ :: v ∧ (Front.identifier (⟨.ident w, s⟩ :: v) = true ∨ w = "self") ∧
      NameEnds v ∧
      Front.op "@" v = false := by
  have hops : Front.op "::" u = false ∧ Front.op "<" u = false := by
    simp only [startsPathPattern, Bool.or_eq_false_iff] at hu
    exact ⟨hu.1.2, hu.2⟩
  rcases h with (h | ⟨w, h⟩) | h
  · exact absurd (h.op_self (by decide)) (by simp [hops.1])
  · obtain ⟨s, r, s', v, rfl, rfl, h⟩ := h
    simp only [startsPathPattern, List.drop_one, List.tail_cons, op_name (x := "::") (by decide),
      op_name (x := "<") (by decide), Bool.or_eq_true, Bool.and_eq_true, Bool.or_eq_false_iff,
      Bool.and_eq_false_iff, Bool.false_eq_true, or_false] at hts hu
    obtain ⟨⟨⟨⟨⟨⟨hname, hself⟩, h₁⟩, h₂⟩, h₃⟩, -⟩, -⟩ := hu
    have hsame (x : String) : Front.word x (⟨.ident w, s⟩ :: r) =
      Front.word x (⟨.ident w, s'⟩ :: v) := rfl
    rw [hsame, hsame, hsame, hsame, h₁, h₂, h₃] at hts
    simp only [Bool.false_eq_true, or_false] at hts
    rcases hts with ⟨hid, -⟩ | ⟨hs, hcolons⟩
    · have hid : Front.identifier (⟨.ident w, s'⟩ :: v) = true := hid
      have hv := hname.resolve_left (by simp [hid])
      have hends : NameEnds v :=
        ⟨hv.1.1.1.1, by simp [startsMacro, hv.1.1.1.2], hv.1.2, hv.2, hv.1.1.2⟩
      exact ⟨w, s', v, rfl, .inl hid, hends, sign_behind_name hE h hends hv.1.1.1.2⟩
    · have hself := hself.resolve_left (by simp [hs])
      exact ⟨w, s', v, rfl, .inr (beq_iff_eq.mp hs), nameEnds_of_colons hE h hcolons hself⟩
  · exact absurd (h.op_self (by decide)) (by simp [hops.2])

theorem patternFuel_echo (h : g.Echo g' K J) (n m : Nat) :
    PatternEcho (min (K + 1) m) (patternFuel g n) (patternFuel g' m) := by
  induction n generalizing m with
  | zero => exact fun _ _ _ => .failWith _
  | succ n ih =>
    intro E hE ts
    refine EchoAt.rounds (fun m => ?_) m
    rw [patternFuel_succ, patternFuel_succ]
    refine .ask_or (Y := QualifiedStart true (PathPatternEnd E)) (N := PlainPatternStart)
      (fun _ => ?_) (fun hts => ?_) (fun hts u hu => ⟨?_, .of_path hu⟩) fun hts u hu => ⟨hu.2, hu.1⟩
    · exact pathPattern_echo h hE (by omega) (by omega) (by omega) fun ts =>
        alternativePatterns_echo (ih m) fun _ _ => PatternsEnd.of_item
    · exact plainPattern_echo h hE (by omega) (by omega) (ih m) hts
    · cases hlost : startsPathPattern u with
      | true => exact .inl rfl
      | false =>
        obtain ⟨w, s, v, rfl, hw, hends, hsign⟩ := exists_of_path_lost hE hu hts hlost
        exact .inr ((plainPattern_name _ _ hw hsign).trans (pathPattern_name _ _ hw hends).symm)

theorem pattern_echo (h : g.Echo g' K J) : PatternEcho (K + 1) (pattern g) (pattern g') :=
    fun E hE _ =>
  EchoAt.counted fun n m => patternFuel_echo h n m E hE _

theorem patterns_echo (h : g.Echo g' K J) (hE : ∀ r w, E r w → PatternsEnd r w) :
    EchoAt (K + 1) .phrase [] PatternStart (fun _ => E) (patterns g) (patterns g') ts :=
  alternativePatterns_echo (pattern_echo h) hE

end Grammar

end KeyedRecord.Source
