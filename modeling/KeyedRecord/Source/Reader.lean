import KeyedRecord.Source.Phrase

/-!
# Reading tokens

A reader takes tokens from the front of a list and fails at a place with a cause.  The end of the
list and a closing bracket are both the end of what a reader may take; a failure there points at the
closing bracket, and at nothing where the list itself ends.

Causes are data.  Their wording is in `Cause.message` alone.

A reader is a `ParseStream` with what is parsed from it; a list of alternatives in a message is that
of `Lookahead1`.
-/

set_option autoImplicit false

namespace KeyedRecord.Source

/-! ## What a reader may miss -/

/-- Something that could stand at a place. -/
inductive Wanted where
  | operator (s : String)
  | word (s : String)
  | identifier
  | anyWord
  | literal
  | lifetime
  | parentheses
  | squareBrackets
  | curlyBraces
  | delimiter
  | expression
  | integerOrIdentifier
  | segment
  deriving DecidableEq, Repr

/-- How a message names it. -/
def Wanted.text : Wanted → String
  | operator s => "`" ++ s ++ "`"
  | word s => "`" ++ s ++ "`"
  | identifier => "identifier"
  | anyWord => "ident"
  | literal => "literal"
  | lifetime => "lifetime"
  | parentheses => "parentheses"
  | squareBrackets => "square brackets"
  | curlyBraces => "curly braces"
  | delimiter => "delimiter"
  | expression => "an expression"
  | integerOrIdentifier => "identifier or integer"
  | segment => "path segment after `::`"

/-- The brackets that a reader may miss. -/
def Wanted.ofDelimiter : Delimiter → Wanted
  | .paren => parentheses
  | .bracket => squareBrackets
  | .brace => curlyBraces

/-- Rules that a stretch can break although each of its tokens may stand where it does. -/
inductive Rule where
  | objectNeedsTrait
  | implNeedsTrait
  | conditionalConst
  | unconditionalConst
  | preciseCapture
  | relaxedBinder
  | chainedComparison
  | attributeInAttribute
  | statementEnd
  | openRange
  | unlabelled
  | labelledBreak
  deriving DecidableEq, Repr

/-- The wording of a broken rule. -/
def Rule.text : Rule → String
  | objectNeedsTrait => "at least one trait is required for an object type"
  | implNeedsTrait => "at least one trait must be specified"
  | conditionalConst => "`[const]` is not allowed here"
  | unconditionalConst => "`const` is not allowed here"
  | preciseCapture => "`use<...>` precise capturing syntax is not allowed here"
  | relaxedBinder => "`for<...>` binder not allowed with `?` trait polarity modifier"
  | chainedComparison => "comparison operators cannot be chained"
  | attributeInAttribute => "unexpected attribute inside of attribute"
  | statementEnd => "unexpected token, expected `;`"
  | openRange => "expected range upper bound"
  | unlabelled => "expected loop or block expression"
  | labelledBreak => "parentheses required"

/-- Why a reader failed. -/
inductive Cause where
  /-- None of these stands here; `ended` where nothing stands here at all. -/
  | wanted (ended : Bool) (what : List Wanted)
  /-- A word that is no identifier stands where an identifier is wanted. -/
  | keyword (name : String)
  /-- Something follows where the brackets, or the text, should end. -/
  | stray (inside : Option Delimiter)
  | rule (ended : Bool) (r : Rule)
  /-- The text has no tokens. -/
  | notTokens
  /-- A literal with a suffix stands where its text is read as source. -/
  | suffixed (suffix : String)
  /-- The nesting is deeper than the text is long. -/
  | tooDeep
  deriving DecidableEq, Repr

/-- The wording of a list of alternatives, of which there is at least one. -/
def alternatives : List Wanted → String
  | [] => ""
  | [a] => "expected " ++ a.text
  | [a, b] => "expected " ++ a.text ++ " or " ++ b.text
  | ws => "expected one of: " ++ ", ".intercalate (ws.map Wanted.text)

/-- The message of a cause. -/
def Cause.message : Cause → String
  | wanted true [] => "unexpected end of input"
  | wanted false [] => "unexpected token"
  | wanted ended what => (if ended then "unexpected end of input, " else "") ++ alternatives what
  | keyword name => "expected identifier, found keyword `" ++ name ++ "`"
  | stray none => "unexpected token"
  | stray (some d) => "unexpected token, expected `" ++ d.closeText ++ "`"
  | rule ended r => (if ended then "unexpected end of input, " else "") ++ r.text
  | notTokens => "cannot parse string into token stream"
  | suffixed suffix => "unexpected suffix `" ++ suffix ++ "` on string literal"
  | tooDeep => "nesting too deep"

/-- A cause and the stretch of text that it points at, if any. -/
structure Problem where
  cause : Cause
  span : Option Span
  deriving DecidableEq, Repr

/-- Takes tokens from the front of a list. -/
abbrev Reader (α : Type) := StateT (List Placed) (Except Problem) α

/-! ## Looking at the front -/

namespace Front

/-- Nothing more may be taken. -/
def ends : List Placed → Bool
  | [] => true
  | ⟨.closing _, _⟩ :: _ => true
  | _ => false

/-- Where a failure at this place points. -/
def span? : List Placed → Option Span
  | [] => none
  | t :: _ => some t.span

/-- An operator stands here: its characters follow one another, all but the last joint. -/
def isOperator : List Char → List Placed → Bool
  | [], _ => true
  | [c], ⟨.punct c' _, _⟩ :: _ => c == c'
  | c :: cs, ⟨.punct c' joint, _⟩ :: r => c == c' && joint && isOperator cs r
  | _, _ => false

/-- The operator `s` stands here. -/
def op (s : String) (ts : List Placed) : Bool := isOperator s.toList ts

/-- The word `w` stands here. -/
def word (w : String) : List Placed → Bool
  | ⟨.ident name, _⟩ :: _ => name == w
  | _ => false

/-- Any word stands here, reserved or not. -/
def anyWord : List Placed → Bool
  | ⟨.ident _, _⟩ :: _ => true
  | _ => false

/-- The words that are no identifiers. -/
def reserved : List String :=
  ["_", "abstract", "as", "async", "await", "become", "box", "break", "const", "continue", "crate",
    "do", "dyn", "else", "enum", "extern", "false", "final", "fn", "for", "if", "impl", "in", "let",
    "loop", "macro", "match", "mod", "move", "mut", "override", "priv", "pub", "ref", "return",
    "Self", "self", "static", "struct", "super", "trait", "true", "try", "type", "typeof", "unsafe",
    "unsized", "use", "virtual", "where", "while", "yield"]

/-- An identifier stands here. -/
def identifier : List Placed → Bool
  | ⟨.ident name, _⟩ :: _ => !reserved.contains name
  | _ => false

/-- A lifetime stands here. -/
def lifetime : List Placed → Bool
  | ⟨.lifetime _, _⟩ :: _ => true
  | _ => false

/-- A bracket of the kind opens here. -/
def opening (d : Delimiter) : List Placed → Bool
  | ⟨.opening d', _⟩ :: _ => d == d'
  | _ => false

/-- The text of a literal is that of a number. -/
def isNumber (text : String) : Bool :=
  match text.toList with
  | c :: _ => decide ('0' ≤ c ∧ c ≤ '9')
  | [] => false

/-- A literal stands here; a number may have a minus sign. -/
def literal : List Placed → Bool
  | ⟨.literal _, _⟩ :: _ => true
  | ⟨.ident name, _⟩ :: _ => name == "true" || name == "false"
  | ⟨.punct '-' _, _⟩ :: ⟨.literal text, _⟩ :: _ => isNumber text
  | _ => false

end Front

/-! ## Taking from the front -/

namespace Reader

/-- Fail with a cause at the front of the list. -/
def failWith {α : Type} (c : Bool → Cause) : Reader α := fun ts =>
  .error ⟨c (Front.ends ts), Front.span? ts⟩

/-- Fail because none of these stands here. -/
def missing {α : Type} (what : List Wanted) : Reader α := failWith (.wanted · what)

/-- Fail because a rule is broken. -/
def breaks {α : Type} (r : Rule) : Reader α := failWith (.rule · r)

/-- Ask a question about the front. -/
def front (p : List Placed → Bool) : Reader Bool := fun ts => .ok (p ts, ts)

/-- Take one token, whatever it is. -/
def next : Reader Placed := fun ts =>
  match ts with
  | t :: r => .ok (t, r)
  | [] => .error ⟨.wanted true [], none⟩

/-- Take the operator `s`. -/
def op (s : String) : Reader Phrase := fun ts =>
  if Front.op s ts then .ok (.operator s, ts.drop s.length)
  else .error ⟨.wanted false [.operator s], Front.span? ts⟩

/-- Take the operator `s` if it stands here. -/
def op? (s : String) : Reader (Option Phrase) := fun ts =>
  if Front.op s ts then .ok (some (.operator s), ts.drop s.length) else .ok (none, ts)

/-- Take the word `w`. -/
def word (w : String) : Reader Phrase := fun ts =>
  if Front.word w ts then .ok (.word w, ts.drop 1)
  else .error ⟨.wanted (Front.ends ts) [.word w], Front.span? ts⟩

/-- Take any word. -/
def anyWord : Reader String := fun ts =>
  match ts with
  | ⟨.ident name, _⟩ :: r => .ok (name, r)
  | _ => .error ⟨.wanted (Front.ends ts) [.anyWord], Front.span? ts⟩

/-- Take an identifier. -/
def identifier : Reader String := fun ts =>
  match ts with
  | ⟨.ident name, span⟩ :: r =>
    if Front.reserved.contains name then .error ⟨.keyword name, some span⟩ else .ok (name, r)
  | _ => .error ⟨.wanted (Front.ends ts) [.identifier], Front.span? ts⟩

/-- Take a lifetime. -/
def lifetime : Reader Phrase := fun ts =>
  match ts with
  | ⟨.lifetime name, _⟩ :: r => .ok (.ofToken (.lifetime name), r)
  | _ => .error ⟨.wanted (Front.ends ts) [.lifetime], Front.span? ts⟩

/-- Take a literal; a minus sign and a number become one token. -/
def literal : Reader Placed := fun ts =>
  match ts with
  | ⟨.punct '-' _, s⟩ :: ⟨.literal text, s'⟩ :: r =>
    if Front.isNumber text then .ok (⟨.literal ("-" ++ text), s.through s'⟩, r)
    else .error ⟨.wanted false [.literal], some s⟩
  | t :: r =>
    if Front.literal ts then .ok (t, r)
    else .error ⟨.wanted (Front.ends ts) [.literal], Front.span? ts⟩
  | [] => .error ⟨.wanted true [.literal], none⟩

/-- Take an opening bracket of the kind. -/
def opening (d : Delimiter) : Reader Span := fun ts =>
  match ts with
  | ⟨.opening d', span⟩ :: r =>
    if d = d' then .ok (span, r)
    else .error ⟨.wanted false [.ofDelimiter d], some span⟩
  | _ => .error ⟨.wanted (Front.ends ts) [.ofDelimiter d], Front.span? ts⟩

/-- Take the closing bracket of the kind; anything before it is stray. -/
def closing (d : Delimiter) : Reader Span := fun ts =>
  match ts with
  | ⟨.closing _, span⟩ :: r => .ok (span, r)
  | _ => .error ⟨.stray (some d), Front.span? ts⟩

/-- Read inside a pair of brackets, which must be read whole. -/
def inside {α : Type} (d : Delimiter) (p : Reader α) : Reader α := do
  let _ ← opening d
  let a ← p
  let _ ← closing d
  return a

/-- The tokens up to the bracket that closes at the given depth, and what is left behind it. -/
def splitClosing : Nat → List Placed → List Placed × List Placed
  | _, [] => ([], [])
  | depth, t :: r =>
    match t.token with
    | .opening _ => let (a, b) := splitClosing (depth + 1) r; (t :: a, b)
    | .closing _ =>
      if depth = 0 then ([], t :: r) else let (a, b) := splitClosing (depth - 1) r; (t :: a, b)
    | _ => let (a, b) := splitClosing depth r; (t :: a, b)

/-- Take all tokens up to the end of the stretch, unread. -/
def unread : Reader (List Placed) := fun ts => .ok (splitClosing 0 ts)

/-- The kind of bracket that opens here. -/
def anyDelimiter : Reader Delimiter := fun ts =>
  match ts with
  | ⟨.opening d, _⟩ :: _ => .ok (d, ts)
  | _ => .error ⟨.wanted (Front.ends ts) [.delimiter], Front.span? ts⟩

/-- A pair of brackets with everything inside, unread. -/
def unreadGroup : Reader Phrase := do
  let d ← anyDelimiter
  let ts ← inside d unread
  return .bracketed d (.ofTokens (tokensOf ts))

/-! ## Lists -/

/-- Items up to a place where `stop` holds, with `sep` behind each but possibly the last. -/
def listUntilFuel {α : Type} (stop : List Placed → Bool) (sep : String) (item : Reader α) :
    Nat → Reader (List (α × Bool))
  | 0 => failWith fun _ => .tooDeep
  | fuel + 1 => do
    if ← front stop then return []
    let a ← item
    if ← front stop then return [(a, false)]
    let _ ← op sep
    let r ← listUntilFuel stop sep item fuel
    return (a, true) :: r

/-- Items up to a place where `stop` holds, with `sep` behind each but possibly the last.  Every
item takes a token, so the list is no longer than what is left to read. -/
def listUntil {α : Type} (stop : List Placed → Bool) (sep : String) (item : Reader α) :
    Reader (List (α × Bool)) := fun ts =>
  listUntilFuel stop sep item (ts.length + 1) ts

/-- Items for as long as `sep` follows; the list may end behind a separator where `stop` holds. -/
def chainFuel {α : Type} (stop : List Placed → Bool) (sep : String) (item : Reader α) :
    Nat → Reader (List (α × Bool))
  | 0 => failWith fun _ => .tooDeep
  | fuel + 1 => do
    if ← front stop then return []
    let a ← item
    match ← op? sep with
    | none => return [(a, false)]
    | some _ =>
      let r ← chainFuel stop sep item fuel
      return (a, true) :: r

/-- Items for as long as `sep` follows; the list may end behind a separator where `stop` holds. -/
def chain {α : Type} (stop : List Placed → Bool) (sep : String) (item : Reader α) :
    Reader (List (α × Bool)) := fun ts =>
  chainFuel stop sep item (ts.length + 1) ts

/-- Repeat a step that takes tokens for as long as it finds something to take. -/
def manyFuel (step : Reader (Option Phrase)) : Nat → Reader Phrase
  | 0 => failWith fun _ => .tooDeep
  | fuel + 1 => do
    match ← step with
    | none => return .empty
    | some p =>
      let q ← manyFuel step fuel
      return p ++ q

/-- Repeat a step that takes tokens for as long as it finds something to take. -/
def many (step : Reader (Option Phrase)) : Reader Phrase := fun ts =>
  manyFuel step (ts.length + 1) ts

/-- Read, and say what stretch of text was taken; `none` where nothing was. -/
def spanned {α : Type} (p : Reader α) : Reader (α × Option Span) := fun ts =>
  match p ts with
  | .error e => .error e
  | .ok (a, r) =>
    let taken := ts.take (ts.length - r.length)
    match taken.head?, taken.getLast? with
    | some t, some t' => .ok ((a, some (t.span.through t'.span)), r)
    | _, _ => .ok ((a, none), r)

/-- Read a whole list of tokens. -/
def whole {α : Type} (p : Reader α) (ts : List Placed) : Except Problem α :=
  match p ts with
  | .error e => .error e
  | .ok (a, []) => .ok a
  | .ok (_, t :: _) => .error ⟨.stray none, some t.span⟩

end Reader

end KeyedRecord.Source
