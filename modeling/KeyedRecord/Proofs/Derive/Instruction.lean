import KeyedRecord.Derive.Render
import KeyedRecord.Proofs.Source.Sealed
import KeyedRecord.Proofs.Source.StringLiteral

/-!
# Generated bodies as programs

The tokens of a generated body are read back as a program of a few instructions, with nothing at
hand but the tokens and the path of the library that they call.  Locals go by the names that stand
in the text, types are kept as tokens, and keys are what their literals stand for.

`Program.read` is the reader.  `Statement.read_body` says which instruction each printed statement
is, and `Program.read_statements` that a body of printed statements is their program.
-/

set_option autoImplicit false

namespace KeyedRecord.Derive

open Source Code

/-! ## Programs -/

/-- What is read of the value: a place in it, or the result of a method. -/
inductive Operand where
  | field (place : Token)
  | method (name : String)
  deriving DecidableEq, Repr

/-- One statement of a body. -/
inductive Instruction where
  /-- `let mut ret = Dict::with_capacity(_)` -/
  | fresh
  /-- `ret.insert(String::from(key), to_value(&source),)` -/
  | insert (key : String) (source : Operand)
  /-- `let name = get_as::<type>(dict, key)?` -/
  | cast (name : String) (type : List Token) (dict key : String)
  /-- `self.place = name` -/
  | assign (place : Token) (name : String)
  /-- `self.method(name)` -/
  | call (method name : String)
  deriving DecidableEq, Repr

/-- What a body returns. -/
inductive Answer where
  /-- The local `ret`. -/
  | ret
  /-- An empty dictionary. -/
  | fresh
  /-- `Ok(())` -/
  | success
  deriving DecidableEq, Repr

/-- A body: its statements and what it returns. -/
structure Program where
  instructions : List Instruction
  answer : Answer
  deriving DecidableEq, Repr

/-! ## Reading tokens -/

/-- The text of a string literal without a suffix. -/
def keyOf : Token → Option String
  | .literal text =>
    match StringLiteral.decode text with
    | some (key, "") => some key
    | _ => none
  | _ => none

/-- The keys between the brackets of a list of string literals. -/
def readKeys : List Token → Option (List String)
  | [] => some []
  | [t] => (keyOf t).map ([·])
  | t :: .punct ',' false :: r => do return (← keyOf t) :: (← readKeys r)
  | _ => none

/-- `&self.place` or `&self.method()`. -/
def Operand.read : List Token → Option Operand
  | [.punct '&' false, .ident "self", .punct '.' false, place] => some (.field place)
  | [.punct '&' false, .ident "self", .punct '.' false, .ident name, .opening .paren,
      .closing .paren] => some (.method name)
  | _ => none

namespace Instruction

/-- `type>(dict, key)?`: the type ends where the arguments begin, in front of the last tokens. -/
def readCast (name : String) (ts : List Token) : Option Instruction :=
  match ts.reverse with
  | .punct '?' false :: .closing .paren :: lit :: .punct ',' false :: .ident dict ::
      .opening .paren :: .punct '>' false :: type =>
    (keyOf lit).map fun key => cast name type.reverse dict key
  | _ => none

/-- `key), to_value(&source),)` -/
def readInsert (crate ts : List Token) : Option Instruction :=
  match ts with
  | lit :: .closing .paren :: .punct ',' false :: r => do
    let key ← keyOf lit
    let r ← r.dropPrefix? (crate ++ absolute ["ToValue", "to_value"] ++ [.opening .paren])
    let source ← Operand.read (r.take (r.length - 3))
    if r.drop (r.length - 3) = [.closing .paren, .punct ',' false, .closing .paren] then
      some (insert key source)
    else none
  | _ => none

/-- The instruction that the tokens of one statement are. -/
def read (crate ts : List Token) : Option Instruction :=
  match ts with
  | .ident "let" :: .ident name :: .punct '=' false :: r =>
    (r.dropPrefix? (crate ++ absolute ["get_as"] ++ p "::" ++ p "<")).bind (readCast name)
  | .ident "let" :: .ident "mut" :: .ident "ret" :: .punct '=' false :: r =>
    match r.dropPrefix? (crate ++ absolute ["Dict", "with_capacity"]) with
    | some [.opening .paren, .literal _, .closing .paren] => some fresh
    | _ => none
  | .ident "ret" :: .punct '.' false :: .ident "insert" :: .opening .paren :: r =>
    (r.dropPrefix? (absolute ["std", "string", "String", "from"] ++ [.opening .paren])).bind
      (readInsert crate)
  | [.ident "self", .punct '.' false, place, .punct '=' false, .ident name] =>
    some (assign place name)
  | [.ident "self", .punct '.' false, .ident method, .opening .paren, .ident name,
      .closing .paren] => some (call method name)
  | _ => none

end Instruction

/-- What the tokens behind the last statement return. -/
def Answer.read (crate ts : List Token) : Option Answer :=
  if ts = w "ret" then some ret
  else if ts = crate ++ absolute ["Dict", "new"] ++ paren [] then some fresh
  else if ts = Code.success then some success
  else none

/-- The program that the tokens of a body are. -/
def Program.read (crate ts : List Token) : Option Program := do
  let body := Body.read 0 ts
  return ⟨← body.statements.mapM (Instruction.read crate), ← Answer.read crate body.result⟩

/-! ## Printed statements -/

theorem dropPrefix?_append (a b : List Token) : (a ++ b).dropPrefix? a = some b :=
  List.dropPrefix?_append_of_beq b (beq_self_eq_true a)

theorem dropLast_semicolon (ts : List Token) : (ts ++ p ";").dropLast = ts := by
  rw [show p ";" = [.punct ';' false] from rfl, List.dropLast_concat]

/-- A literal stands for the text that it was printed for. -/
theorem keyOf_literal (s : String) : keyOf (.literal (Text.literal s)) = some s := by
  simp only [keyOf, StringLiteral.decode_literal]

section

variable {n : Nat}

theorem sealed_w (s : String) : SealedFrom n (w s) := SealedFrom.plain rfl

theorem sealed_p {s : String} (h : ';' ∉ s.toList) : SealedFrom n (p s) :=
  SealedFrom.operatorTokens h

theorem sealed_text (s : String) : SealedFrom n (text s) := SealedFrom.plain rfl

theorem sealed_paren {ts : List Token} (h : SealedFrom 1 ts) : SealedFrom n (paren ts) :=
  (h.bracketed .paren .paren).mono (Nat.zero_le n)

theorem sealed_absolute (segments : List String) : SealedFrom n (absolute segments) :=
  SealedFrom.flatMap fun s _ => (sealed_p (by decide)).append (sealed_w s)

theorem sealed_inCrate {crate : Phrase} (hc : crate.Sealed) (segments : List String) :
    SealedFrom n (inCrate crate segments) :=
  (SealedFrom.mono hc (Nat.zero_le n)).append (sealed_absolute segments)

theorem sealed_place (place : Place) : SealedFrom n [place.token] := by
  cases place <;> exact SealedFrom.plain rfl

end

/-- What an access reads. -/
def Access.operand : Access → Operand
  | .field place => .field place.token
  | .property getter _ => .method getter

/-- How an access writes a local. -/
def Access.write (local_ : String) : Access → Instruction
  | .field place => .assign place.token local_
  | .property _ setter => .call setter local_

theorem Operand.read_tokens (source : Access) :
    Operand.read source.readTokens = some source.operand := by
  cases source <;> rfl

/-- The name of the local of a number. -/
def localName (slot : Nat) : String := "__objdict_" ++ toString slot

theorem localName_inj {i j : Nat} : localName i = localName j ↔ i = j := by
  unfold localName
  rw [String.append_right_inj]
  exact Nat.repr_inj

namespace Statement

/-- The instruction of a statement. -/
def instruction : Statement → Instruction
  | insert key source => .insert key source.operand
  | cast slot type key => .cast (localName slot) type.printed "dict" key
  | write target slot => target.write (localName slot)

/-- The tokens of a statement without the semicolon behind them. -/
def body (crate : Phrase) (s : Statement) : List Token := (s.tokens crate).dropLast

theorem tokens_eq (crate : Phrase) (s : Statement) :
    s.tokens crate = s.body crate ++ [.punct ';' false] := by
  have last (ts : List Token) : ts ++ p ";" = (ts ++ p ";").dropLast ++ [.punct ';' false] := by
    rw [dropLast_semicolon]
    rfl
  unfold body
  cases s with
  | insert key source => exact last _
  | cast slot type key => exact last _
  | write target slot => cases target <;> exact last _

variable {crate : Phrase}

/-- The type in the statement, if there is one, can stand inside a statement. -/
def Sealed : Statement → Prop
  | cast _ type _ => type.Sealed
  | _ => True

theorem sealed_operand (source : Access) : SealedFrom 1 source.readTokens := by
  have head : SealedFrom 1 (p "&" ++ self ++ p ".") :=
    ((sealed_p (by decide)).append (sealed_w _)).append (sealed_p (by decide))
  cases source with
  | field place => exact head.append (sealed_place place)
  | property getter setter => exact (head.append (sealed_w getter)).append (sealed_paren .nil)

theorem sealed_body (hc : crate.Sealed) {s : Statement} (hs : s.Sealed) :
    Source.Sealed (s.body crate) := by
  unfold body
  cases s with
  | insert key source =>
    simp only [tokens, dropLast_semicolon]
    have arguments := (sealed_absolute ["std", "string", "String", "from"])
      |>.append (sealed_paren (sealed_text key)) |>.append
        (sealed_p (n := 1) (s := ",") (by decide))
      |>.append (sealed_inCrate hc ["ToValue", "to_value"])
      |>.append (sealed_paren (sealed_operand source)) |>.append (sealed_p (s := ",") (by decide))
    exact (sealed_w "ret") |>.append (sealed_p (by decide)) |>.append (sealed_w "insert")
      |>.append (sealed_paren arguments)
  | cast slot type key =>
    simp only [tokens, dropLast_semicolon]
    have arguments := (sealed_w "dict")
      |>.append (sealed_p (n := 1) (s := ",") (by decide)) |>.append (sealed_text key)
    exact (sealed_w "let") |>.append (sealed_w _) |>.append (sealed_p (by decide))
      |>.append (sealed_inCrate hc ["get_as"]) |>.append (sealed_p (by decide))
      |>.append (sealed_p (by decide)) |>.append hs |>.append (sealed_p (by decide))
      |>.append (sealed_paren arguments) |>.append (sealed_p (by decide))
  | write target slot =>
    cases target with
    | field place =>
      simp only [tokens, Access.writeTokens, dropLast_semicolon]
      exact (sealed_w "self") |>.append (sealed_p (by decide)) |>.append (sealed_place place)
        |>.append (sealed_p (by decide)) |>.append (sealed_w _)
    | property getter setter =>
      simp only [tokens, Access.writeTokens, dropLast_semicolon]
      exact (sealed_w "self") |>.append (sealed_p (by decide)) |>.append (sealed_w setter)
        |>.append (sealed_paren (sealed_w _))

/-- **Every printed statement is read back as its instruction.** -/
theorem read_body (crate : Phrase) (s : Statement) :
    Instruction.read crate.printed (s.body crate) = some s.instruction := by
  unfold body
  cases s with
  | insert key source =>
    have split : (tokens crate (insert key source)).dropLast =
        .ident "ret" :: .punct '.' false :: .ident "insert" :: .opening .paren ::
          (absolute ["std", "string", "String", "from"] ++ [.opening .paren] ++
            (.literal (Text.literal key) :: .closing .paren :: .punct ',' false ::
              (crate.printed ++ absolute ["ToValue", "to_value"] ++ [.opening .paren] ++
                (source.readTokens ++ [.closing .paren, .punct ',' false, .closing .paren])))) := by
      simp only [tokens, dropLast_semicolon]
      simp [inCrate, paren, w, text, p, operatorTokens]
    rw [split]
    simp only [Instruction.read, dropPrefix?_append, Option.bind_some, Instruction.readInsert,
      keyOf_literal, Option.bind_eq_bind, instruction]
    have hl (ts : List Token) (a b c : Token) : (ts ++ [a, b, c]).length - 3 = ts.length := by simp
    rw [hl, List.take_left, List.drop_left, Operand.read_tokens]
    simp
  | cast slot type key =>
    have split : (tokens crate (cast slot type key)).dropLast =
        .ident "let" :: .ident (localName slot) :: .punct '=' false ::
          (crate.printed ++ absolute ["get_as"] ++ p "::" ++ p "<" ++
            (type.printed ++ [.punct '>' false, .opening .paren, .ident "dict", .punct ',' false,
              .literal (Text.literal key), .closing .paren, .punct '?' false])) := by
      simp only [tokens, dropLast_semicolon]
      simp [inCrate, paren, w, text, p, operatorTokens, local_, localName]
    rw [split]
    simp only [Instruction.read, dropPrefix?_append, Option.bind_some, Instruction.readCast]
    simp [keyOf_literal, instruction]
  | write target slot =>
    cases target with
    | field place =>
      simp only [tokens, Access.writeTokens, dropLast_semicolon]
      rfl
    | property getter setter =>
      simp only [tokens, Access.writeTokens, dropLast_semicolon]
      rfl

end Statement

/-! ## Printed bodies -/

theorem Answer.read_new (crate : Phrase) :
    Answer.read crate.printed (inCrate crate ["Dict", "new"] ++ paren []) = some fresh := by
  have hne : inCrate crate ["Dict", "new"] ++ paren [] ≠ w "ret" := by
    intro h
    have := congrArg List.length h
    simp [inCrate, absolute, paren, p, w, operatorTokens] at this
  rw [Answer.read, if_neg hne]
  exact if_pos rfl

theorem Answer.read_success (crate : Phrase) :
    Answer.read crate.printed Code.success = some success := by
  have hne : Code.success ≠ crate.printed ++ absolute ["Dict", "new"] ++ paren [] := by
    intro h
    have := congrArg List.reverse h
    simp [Code.success, absolute, paren, p, w, operatorTokens] at this
  rw [Answer.read, if_neg (by decide), if_neg hne, if_pos rfl]

/-- A body of sealed statements is read statement by statement. -/
theorem Program.read_bodies {crate result : List Token} {bodies : List (List Token)}
    {is : List Instruction} {answer : Answer} (hb : ∀ b ∈ bodies, Sealed b) (hr : Sealed result)
    (hi : bodies.mapM (Instruction.read crate) = some is)
    (ha : Answer.read crate result = some answer) :
    Program.read crate (bodies.flatMap (· ++ [.punct ';' false]) ++ result) =
      some ⟨is, answer⟩ := by
  simp only [Program.read, Body.read_statements hb hr, hi, ha]
  rfl

section

variable {crate : Phrase} {ss : List Statement}

theorem statementTokens_eq : statementTokens crate ss =
    (ss.map (Statement.body crate)).flatMap (· ++ [.punct ';' false]) := by
  rw [statementTokens, List.flatMap_map]
  exact congrArg (ss.flatMap ·) (funext (Statement.tokens_eq crate))

theorem mapM_read_body : (ss.map (Statement.body crate)).mapM (Instruction.read crate.printed) =
    some (ss.map Statement.instruction) := by
  induction ss with
  | nil => rfl
  | cons s ss ih => simp [Statement.read_body, ih]

theorem sealed_bodies (hc : crate.Sealed) (hs : ∀ s ∈ ss, s.Sealed) :
    ∀ b ∈ ss.map (Statement.body crate), Sealed b := by
  intro b hb
  obtain ⟨s, hmem, rfl⟩ := List.mem_map.mp hb
  exact Statement.sealed_body hc (hs s hmem)

/-- **A body of printed statements is the program of their instructions.** -/
theorem Program.read_statements (hc : crate.Sealed) (hs : ∀ s ∈ ss, s.Sealed)
    {result : List Token} (hr : Sealed result) {answer : Answer}
    (ha : Answer.read crate.printed result = some answer) :
    Program.read crate.printed (statementTokens crate ss ++ result) =
      some ⟨ss.map Statement.instruction, answer⟩ := by
  rw [statementTokens_eq]
  exact read_bodies (sealed_bodies hc hs) hr mapM_read_body ha

/-- The first statement of a body that fills a dictionary. -/
def freshBody (crate : Phrase) (capacity : String) : List Token :=
  w "let" ++ w "mut" ++ w "ret" ++ p "=" ++ inCrate crate ["Dict", "with_capacity"] ++
    paren [.literal capacity]

theorem sealed_freshBody (hc : crate.Sealed) (capacity : String) :
    Sealed (freshBody crate capacity) := by
  exact (sealed_w "let") |>.append (sealed_w "mut") |>.append (sealed_w "ret")
    |>.append (sealed_p (by decide)) |>.append (sealed_inCrate hc ["Dict", "with_capacity"])
    |>.append (sealed_paren (SealedFrom.plain rfl))

theorem read_freshBody (crate : Phrase) (capacity : String) :
    Instruction.read crate.printed (freshBody crate capacity) = some .fresh := by
  have split : freshBody crate capacity =
      .ident "let" :: .ident "mut" :: .ident "ret" :: .punct '=' false ::
        (crate.printed ++ absolute ["Dict", "with_capacity"] ++
          [.opening .paren, .literal capacity, .closing .paren]) := by
    simp [freshBody, inCrate, paren, w, p, operatorTokens]
  rw [split]
  simp only [Instruction.read, dropPrefix?_append]

/-- A body that starts with a fresh dictionary. -/
theorem Program.read_fresh (hc : crate.Sealed) (capacity : String) (hs : ∀ s ∈ ss, s.Sealed)
    {result : List Token} (hr : Sealed result) {answer : Answer}
    (ha : Answer.read crate.printed result = some answer) :
    Program.read crate.printed
        (freshBody crate capacity ++ p ";" ++ statementTokens crate ss ++ result) =
      some ⟨.fresh :: ss.map Statement.instruction, answer⟩ := by
  have hb : ∀ b ∈ freshBody crate capacity :: ss.map (Statement.body crate), Sealed b :=
    List.forall_mem_cons.mpr ⟨sealed_freshBody hc capacity, sealed_bodies hc hs⟩
  have hi : (freshBody crate capacity :: ss.map (Statement.body crate)).mapM
      (Instruction.read crate.printed) = some (.fresh :: ss.map Statement.instruction) := by
    rw [List.mapM_cons, read_freshBody, mapM_read_body]
    rfl
  rw [statementTokens_eq]
  exact read_bodies hb hr hi ha

/-- The keys in a printed list are read back. -/
theorem readKeys_commas (keys : List String) : readKeys (commas (keys.map text)) = some keys := by
  induction keys with
  | nil => rfl
  | cons key keys ih =>
    cases keys with
    | nil => simp [commas, text, readKeys, keyOf_literal, List.intercalate]
    | cons key' keys =>
      have split : commas ((key :: key' :: keys).map text) = .literal (Text.literal key) ::
          .punct ',' false :: commas ((key' :: keys).map text) := by
        simp [commas, text, p, operatorTokens, List.intercalate]
      rw [split, readKeys, ih, keyOf_literal]
      rfl

end

end KeyedRecord.Derive
