import KeyedRecord.Source.Grammar.Basic
import KeyedRecord.Proofs.Source.Readers

/-!
# Attributes as source

A reader of attributes keeps where their parts stood.  Inside a type or an expression only their
source is kept, and a reader of source alone finds the same.

Principal result: `attributes_eq`.
-/

set_option autoImplicit false

namespace KeyedRecord.Source

/-- Take one token, without its place. -/
def Reader.nextToken : Reader Token := Placed.token <$> Reader.next

/-! ## Paths -/

namespace PlainPath

/-- Read the segments of a plain path, as source. -/
def readSegments (leading : Option Phrase) : Reader Phrase := do
  let segments ← Reader.chain (fun ts => !startsSegment ts) "::" Reader.nextToken
  match segments.getLast? with
  | some (_, false) =>
    return Phrase.ofOption leading ++
      .separated "::" (segments.map fun s => (.ofToken s.1, s.2))
  | _ => Reader.missing [.segment]

/-- Read a plain path, as source. -/
def readPhrase : Reader Phrase := Reader.op? "::" >>= readSegments

/-- A list with a separator behind each item but the last is the items with separators between. -/
theorem separated_segments {segments : List (Placed × Bool)}
    (hsep : ∀ a ∈ segments.dropLast, a.2 = true) {t : Placed}
      (hlast : segments.getLast? = some (t, false)) :
    Phrase.separated "::" (segments.map fun s => (.ofToken s.1.token, s.2)) =
      .ofTokens ((operatorTokens "::".toList).intercalate (segments.map fun s => [s.1.token])) := by
  induction segments with
  | nil => cases hlast
  | cons s segments ih =>
    cases segments with
    | nil =>
      obtain rfl : s = (t, false) := by simpa using hlast
      rfl
    | cons s' segments =>
      have hs : s.2 = true := hsep s (by simp)
      have ih := ih (fun a ha => hsep a (by simp [ha])) (by simpa using hlast)
      obtain ⟨p, more⟩ := s
      obtain rfl : more = true := hs
      have hcons : Phrase.separated "::" (((p, true) :: s' :: segments).map fun s =>
            (Phrase.ofToken s.1.token, s.2)) = (.ofToken p.token ++ .operator "::") ++
          Phrase.separated "::" ((s' :: segments).map fun s => (.ofToken s.1.token, s.2)) := rfl
      rw [hcons, ih]
      simp only [List.map_cons, List.intercalate_cons_cons]
      rfl

open Reader in
/-- The two readers of a plain path succeed alike. -/
theorem read_eq_ok {ts r : List Placed} {p : Phrase} :
    (phrase <$> read) ts = .ok (p, r) ↔ readPhrase ts = .ok (p, r) := by
  have hlead (o : Option Phrase) (ho : o = some (.operator "::") ∨ o = none) :
      (if o.isSome = true then .operator "::" else .empty) = Phrase.ofOption o := by
    rcases ho with rfl | rfl <;> rfl
  unfold read
  rw [map_bind, readPhrase, bind_eq_ok_iff, bind_eq_ok_iff]
  refine exists_congr fun o => exists_congr fun s => and_congr_right fun ho => ?_
  have ho : o = some (.operator "::") ∨ o = none := by
    unfold op? at ho
    split at ho <;> cases ho <;> simp
  rw [map_bind, readSegments, nextToken, ← map_chain, bind_map_left, bind_eq_ok_iff, bind_eq_ok_iff]
  refine exists_congr fun segments => exists_congr fun s' => and_congr_right fun hc => ?_
  rw [List.getLast?_map]
  cases hlast : segments.getLast? with
  | none =>
    obtain rfl : segments = [] := List.getLast?_eq_none_iff.mp hlast
    obtain ⟨hstop, rfl⟩ := chain_nil hc
    refine iff_of_false (fun h => ?_) fun h => by cases h
    simp only [map_bind] at h
    obtain ⟨w, s, hw, -⟩ := bind_eq_ok h
    have hno : Front.identifier s' = false := by
      simp only [startsSegment, Bool.not_eq_true', Bool.or_eq_false_iff] at hstop
      exact hstop.1.1.1.1
    simp [identifier_of_not hno] at hw
  | some t =>
    obtain ⟨t, more⟩ := t
    cases more with
    | true => exact iff_of_false (fun h => by cases h) fun h => by cases h
    | false =>
      have hsep := separated_segments (chainFuel_separated hc) hlast
      simp only [Option.map_some, map_pure, List.map_map, phrase, hlead o ho, Function.comp_def]
      rw [← hsep]

end PlainPath

/-! ## Attributes -/

namespace Attribute

/-- What follows the path of an attribute, as source. -/
def bodyPhrase : AttributeBody → Phrase
  | .bare => .empty
  | .list d inner _ => .bracketed d (.ofTokens (tokensOf inner))
  | .value _ v => .operator "=" ++ v

/-- Read the path of an attribute, as source. -/
def readPath : Reader Phrase := do
  if ← Reader.front (Front.word "unsafe") then Reader.word "unsafe"
  else return (← PlainPath.read).phrase

/-- Read what follows the path of an attribute, as source. -/
def readBody (expr : Reader Phrase) : Reader Phrase := do
  if ← Reader.front fun ts =>
      Front.opening .paren ts || Front.opening .bracket ts || Front.opening .brace ts then
    Reader.unreadGroup
  else if ← Reader.front (Front.op "=") then
    let eq ← Reader.op "="
    return eq ++ (← readValue expr)
  else return .empty

/-- Read an attribute, as source. -/
def readPhrase (expr : Reader Phrase) : Reader Phrase := do
  let sign ← Reader.op "#"
  let p ← Reader.inside .bracket do
    let path ← readPath
    return path ++ (← readBody expr)
  return sign ++ .bracketed .bracket p

/-- Read an attribute, as source, if one stands here. -/
def readPhrase? (expr : Reader Phrase) : Reader (Option Phrase) := do
  if ← Reader.front (Front.op "#") then return some (← readPhrase expr) else return none

theorem phrase_eq (a : Attribute) :
    a.phrase = .operator "#" ++ .bracketed .bracket (a.path.phrase ++ bodyPhrase a.body) := by
  cases a with
  | mk path body => cases body <;> rfl

theorem readList_phrase : bodyPhrase <$> readList = Reader.unreadGroup := by
  simp [readList, Reader.unreadGroup, Reader.inside, bodyPhrase]

open Reader

theorem readBody_phrase (expr : Reader Phrase) (path : PlainPath) :
    (fun a : Attribute => a.path.phrase ++ bodyPhrase a.body) <$> (do
        if ← Reader.front fun ts =>
            Front.opening .paren ts || Front.opening .bracket ts || Front.opening .brace ts then
          return ⟨path, ← readList⟩
        else if ← Reader.front (Front.op "=") then
          let eq ← Reader.next
          return ⟨path, .value eq.span (← readValue expr)⟩
        else return ⟨path, .bare⟩) = (path.phrase ++ ·) <$> readBody expr := by
  unfold readBody
  simp only [map_ask]
  refine ask_congr (fun _ _ => ?_) fun _ _ => congrFun (ask_congr (fun ts h => ?_) fun _ _ => rfl) _
  · rw [← readList_phrase]
    simp
  · rw [op_bind]
    simp [bodyPhrase]
    exact next_bind (c := '=') rfl h _

theorem readMeta_phrase (expr : Reader Phrase) :
    (fun a => a.path.phrase ++ bodyPhrase a.body) <$> readMeta expr = (do
      let path ← readPath
      return path ++ (← readBody expr)) := by
  have hbody := readBody_phrase expr
  unfold readMeta readPath
  rw [map_ask, ask_bind]
  refine ask_congr (fun ts h => ?_) fun ts _ => congrFun ?_ ts
  · rcases ts with _ | ⟨⟨t, s⟩, r⟩
    · cases h
    cases t with
    | ident w =>
      obtain rfl : w = "unsafe" := beq_iff_eq.mp h
      exact congrFun (hbody ⟨false, [⟨.ident "unsafe", s⟩]⟩) r
    | _ => cases h
  · rw [map_bind, bind_assoc]
    refine bind_congr fun path => (hbody path).trans ?_
    simp

theorem read_phrase (expr : Reader Phrase) : phrase <$> read expr = readPhrase expr := by
  have hphrase : phrase = (fun p => .operator "#" ++ .bracketed .bracket p) ∘
      fun a => a.path.phrase ++ bodyPhrase a.body := funext phrase_eq
  unfold read readPhrase
  rw [map_bind, op_bind "#" fun sign => Reader.inside .bracket _ >>= fun p =>
    pure (sign ++ .bracketed .bracket p)]
  simp only [hphrase, comp_map, map_inside, readMeta_phrase]
  simp [map_inside]

theorem readAll_phrase (expr : Reader Phrase) (n : Nat) :
    (fun as => Phrase.join (as.map phrase)) <$> readFuel expr n =
      Reader.manyFuel (readPhrase? expr) n := by
  induction n with
  | zero => rfl
  | succ n ih =>
    rw [readFuel, Reader.manyFuel, map_ask, ← ih]
    unfold readPhrase?
    rw [ask_bind, ← read_phrase]
    congr 1
    funext b
    cases b
    · simp [Phrase.join]
    · simp only [if_true, map_eq_pure_bind, bind_assoc, pure_bind]
      rfl

theorem attributes_eq (g : Nesting) :
    g.attributes = Reader.many (readPhrase? (g.expr true)) := by
  funext ts
  have h := congrFun (readAll_phrase (g.expr true) (ts.length + 1)) ts
  rw [map_eq_pure_bind] at h
  exact h

end Attribute

end KeyedRecord.Source
