import KeyedRecord.Source.Token
import KeyedRecord.Text.Quoted
import KeyedRecord.Text.WordChars

/-!
# From text to tokens

The lexer reads the text once, from left to right.  Blanks and comments separate tokens and vanish;
a documentation comment becomes the attribute it stands for.  At each place the candidates are tried
in the order literal, punctuation, identifier, and the first that fits is taken whole.

Every scanner of this module takes the rest of the text and returns what it read together with what
is left, so a token's text is at hand without counting.  A text is refused where no token starts,
where a bracket closes that was not opened, and at the opening of a bracket that never closes.

This is how a text becomes a `TokenStream` (`TokenStream::from_str`).  That the canonical text of
what was read is lexed to the same tokens is `lex_canonicalText` in `Proofs.Source.Relexed`.
-/

set_option autoImplicit false

namespace KeyedRecord.Source

open KeyedRecord.Text

/-- The rest of a text. -/
abbrev Chars := List Char

/-- What a scanner read, and what is left. -/
abbrev Scan := Option (Chars × Chars)

namespace Lexer

/-- Put `p` before what was scanned. -/
def Scan.before (p : Chars) (s : Scan) : Scan := s.map fun (a, r) => (p ++ a, r)

/-! ## Identifiers -/

/-- The longest run of identifier characters. -/
def wordTail (s : Chars) : Chars × Chars := (s.takeWhile isWordPart, s.dropWhile isWordPart)

/-- An identifier without `r#`. -/
def word : Chars → Scan
  | c :: r => if isWordStart c then let (a, t) := wordTail r; some (c :: a, t) else none
  | [] => none

/-- The words that have no raw form. -/
def isUnrawable (w : Chars) : Bool :=
  w == "_".toList || w == "super".toList || w == "self".toList || w == "Self".toList
    || w == "crate".toList

/-- An identifier, raw or not. -/
def anyIdent (s : Chars) : Scan :=
  match s with
  | 'r' :: '#' :: r =>
    match word r with
    | some (w, t) => if isUnrawable w then none else some ('r' :: '#' :: w, t)
    | none => none
  | _ => word s

/-- The beginnings that belong to a literal, so that no identifier may start with them. -/
def literalBeginnings : List Chars :=
  ["r\"", "r#\"", "r##", "b\"", "b'", "br\"", "br#", "c\"", "cr\"", "cr#"].map String.toList

/-- An identifier where the beginning of a broken literal is refused. -/
def ident (s : Chars) : Scan :=
  if literalBeginnings.any (·.isPrefixOf s) then none else anyIdent s

/-- The suffix of a literal, possibly empty. -/
def suffix (s : Chars) : Chars × Chars := (word s).getD ([], s)

/-! ## Literals between quotes -/

/-- The kinds of quoted literals. -/
inductive Flavour where
  | text
  | bytes
  | cText
  deriving DecidableEq, Repr

/-- A place inside a quoted literal. -/
inductive QuoteState where
  | plain
  | afterReturn
  | afterBackslash
  | hexFirst
  | hexSecond (first : Nat)
  | unicodeOpen
  | unicodeDigits (value count : Nat)
  | continued (needsNewline : Bool)
  deriving DecidableEq, Repr

/-- What one character does to a place inside a quoted literal. -/
inductive QuoteStep where
  | goes (s : QuoteState)
  | ends
  | refused
  deriving DecidableEq, Repr

/-- The number is the code point of a character. -/
def isScalar (n : Nat) : Bool :=
  decide (n < 0xD800) || (decide (0xDFFF < n) && decide (n < 0x110000))

namespace QuoteState

/-- The step at a character of the text itself. -/
def stepPlain (f : Flavour) (quote c : Char) : QuoteStep :=
  if c = quote then .ends
  else if c = '\r' then .goes .afterReturn
  else if c = '\\' then .goes .afterBackslash
  else match f with
    | .text => .goes .plain
    | .bytes => if c.toNat < 0x80 then .goes .plain else .refused
    | .cText => if c = '\x00' then .refused else .goes .plain

/-- The step right after a backslash. -/
def stepBackslash (f : Flavour) (c : Char) : QuoteStep :=
  if c = 'x' then .goes .hexFirst
  else if c = 'n' ∨ c = 'r' ∨ c = 't' ∨ c = '\\' ∨ c = '\'' ∨ c = '"' then .goes .plain
  else if c = '0' then (if f = .cText then .refused else .goes .plain)
  else if c = 'u' then (if f = .bytes then .refused else .goes .unicodeOpen)
  else if c = '\n' then .goes (.continued false)
  else if c = '\r' then .goes (.continued true)
  else .refused

/-- The step at the second digit of a two-digit escape; `first` is the value of the first one. -/
def stepHexSecond (f : Flavour) (first : Nat) (c : Char) : QuoteStep :=
  match hexValue? c with
  | none => .refused
  | some v =>
    match f with
    | .text => if first < 8 then .goes .plain else .refused
    | .bytes => .goes .plain
    | .cText => if first = 0 ∧ v = 0 then .refused else .goes .plain

/-- The step inside the braces of a code point; `count` digits make up `value` so far. -/
def stepUnicode (f : Flavour) (value count : Nat) (c : Char) : QuoteStep :=
  match hexValue? c with
  | some v => if count < 6 then .goes (.unicodeDigits (value * 16 + v) (count + 1)) else .refused
  | none =>
    if count = 0 then .refused
    else if c = '_' then .goes (.unicodeDigits value count)
    else if c = '\x7d' then
      if isScalar value && !(decide (f = .cText) && decide (value = 0)) then .goes .plain
      else .refused
    else .refused

/-- One character of a quoted literal. -/
def step (f : Flavour) (quote : Char) : QuoteState → Char → QuoteStep
  | plain, c => stepPlain f quote c
  | afterReturn, c => if c = '\n' then .goes plain else .refused
  | afterBackslash, c => stepBackslash f c
  | hexFirst, c =>
    match hexValue? c with
    | some v => if f = .text ∧ 8 ≤ v then .refused else .goes (hexSecond v)
    | none => .refused
  | hexSecond first, c => stepHexSecond f first c
  | unicodeOpen, c => if c = '\x7b' then .goes (unicodeDigits 0 0) else .refused
  | unicodeDigits value count, c => stepUnicode f value count c
  | continued true, c => if c = '\n' then .goes (continued false) else .refused
  | continued false, c =>
    if c = ' ' ∨ c = '\t' ∨ c = '\n' then .goes (continued false)
    else if c = '\r' then .goes (continued true)
    else stepPlain f quote c

end QuoteState

/-- The rest of a quoted literal, up to and with its closing quote. -/
def quotedRest (f : Flavour) : QuoteState → Chars → Scan
  | _, [] => none
  | st, c :: r =>
    match st.step f '"' c with
    | .ends => some ([c], r)
    | .goes st' => Scan.before [c] (quotedRest f st' r)
    | .refused => none

/-- Close a literal with its suffix. -/
def withSuffix (s : Scan) : Scan :=
  s.map fun (a, r) => let (w, t) := suffix r; (a ++ w, t)

/-! ## Raw literals -/

/-- A raw literal ends at a quote that is followed by as many marks as it began with. -/
def rawRest (f : Flavour) (marks : Nat) : Chars → Scan
  | [] => none
  | '"' :: r =>
    if r.take marks = List.replicate marks '#' then some ('"' :: r.take marks, r.drop marks)
    else Scan.before ['"'] (rawRest f marks r)
  | '\r' :: '\n' :: r => Scan.before ['\r', '\n'] (rawRest f marks r)
  | c :: r =>
    if c = '\r' then none
    else if f = .bytes ∧ 0x80 ≤ c.toNat then none
    else if f = .cText ∧ c = '\x00' then none
    else Scan.before [c] (rawRest f marks r)

/-- The rest of a raw literal, from its marks on; at most 255 marks. -/
def rawLiteral (f : Flavour) (s : Chars) : Scan :=
  let marks := s.takeWhile (· == '#')
  match s.dropWhile (· == '#') with
  | '"' :: r =>
    if marks.length ≤ 255 then withSuffix (Scan.before (marks ++ ['"']) (rawRest f marks.length r))
    else none
  | _ => none

/-! ## Characters and bytes -/

/-- The rest of an escape inside a character literal, from behind the backslash. -/
def escapeRest (f : Flavour) (st : QuoteState) : Chars → Scan
  | [] => none
  | c :: r =>
    match st.step f '\'' c with
    | .goes .plain => some ([c], r)
    | .goes (.continued _) => none
    | .goes st' => Scan.before [c] (escapeRest f st' r)
    | _ => none

/-- One character, or an escape, between single quotes. -/
def singleQuoted (f : Flavour) : Chars → Scan
  | '\\' :: r =>
    match escapeRest f .afterBackslash r with
    | some (a, '\'' :: t) => withSuffix (some ('\\' :: a ++ ['\''], t))
    | _ => none
  | c :: '\'' :: r =>
    if f = .bytes ∧ 0x80 ≤ c.toNat then none else withSuffix (some ([c, '\''], r))
  | _ => none

/-! ## Numbers -/

/-- Digits and underscores. -/
def isDigitOrGap (c : Char) : Bool := isAsciiDigit c || c == '_'

/-- The longest run of characters with the property. -/
def run (p : Char → Bool) (s : Chars) : Chars × Chars := (s.takeWhile p, s.dropWhile p)

/-- The exponent of a number, from behind its letter: a sign may stand before the first digit. -/
def exponent (s : Chars) : Scan :=
  let (gaps, r) := run (· == '_') s
  let (sign, r) := match r with
    | c :: t => if c = '+' ∨ c = '-' then ([c], t) else ([], r)
    | [] => ([], r)
  let (digits, r) := run isDigitOrGap r
  if digits.any isAsciiDigit then some (gaps ++ sign ++ digits, r) else none

/-- The letter of an exponent. -/
def isExponentLetter (c : Char) : Bool := c == 'e' || c == 'E'

/-- The digits of a number with a fraction or an exponent. -/
def decimalDigits (s : Chars) : Scan :=
  match s with
  | [] => none
  | d :: _ =>
    if !isAsciiDigit d then none else
    let (whole, r) := run isDigitOrGap s
    match r with
    | '.' :: r =>
      if (match r with | c :: _ => c == '.' || isWordStart c | [] => false) then none else
      let (part, r) := run isDigitOrGap r
      let body := whole ++ '.' :: part
      match r with
      | e :: t =>
        if isExponentLetter e then
          match exponent t with
          | some (x, t) => some (body ++ e :: x, t)
          | none => some (body, r)
        else some (body, r)
      | [] => some (body, r)
    | e :: t =>
      if isExponentLetter e then
        match exponent t with
        | some (x, t) => some (whole ++ e :: x, t)
        | none => none
      else none
    | [] => none

/-- Digits of a base, with gaps.  Outside base sixteen a letter ends them; a digit that is too large
refuses the number. -/
def baseDigits (base : Nat) : Bool → Chars → Scan
  | empty, [] => if empty then none else some ([], [])
  | empty, c :: r =>
    if c = '_' then
      if empty && decide (base = 10) then none else Scan.before [c] (baseDigits base empty r)
    else match hexValue? c with
      | some v =>
        if v < base then Scan.before [c] (baseDigits base false r)
        else if isAsciiDigit c then none
        else if empty then none else some ([], c :: r)
      | none => if empty then none else some ([], c :: r)

/-- The digits of a whole number. -/
def wholeDigits (s : Chars) : Scan :=
  match s with
  | '0' :: 'x' :: r => Scan.before ['0', 'x'] (baseDigits 16 true r)
  | '0' :: 'o' :: r => Scan.before ['0', 'o'] (baseDigits 8 true r)
  | '0' :: 'b' :: r => Scan.before ['0', 'b'] (baseDigits 2 true r)
  | _ => baseDigits 10 true s

/-- No identifier character follows. -/
def wordEnds : Chars → Bool
  | c :: _ => !isWordPart c
  | [] => true

/-- Close the digits of a number with its suffix. -/
def numberWith (digits : Scan) : Scan :=
  match withSuffix digits with
  | some (a, r) => if wordEnds r then some (a, r) else none
  | none => none

/-! ## All literals -/

/-- A literal of any kind. -/
def literal (s : Chars) : Scan :=
  let quotedText := match s with
    | '"' :: r => withSuffix (Scan.before ['"'] (quotedRest .text .plain r))
    | 'r' :: r => Scan.before ['r'] (rawLiteral .text r)
    | 'b' :: '"' :: r => withSuffix (Scan.before ['b', '"'] (quotedRest .bytes .plain r))
    | 'b' :: 'r' :: r => Scan.before ['b', 'r'] (rawLiteral .bytes r)
    | 'c' :: '"' :: r => withSuffix (Scan.before ['c', '"'] (quotedRest .cText .plain r))
    | 'c' :: 'r' :: r => Scan.before ['c', 'r'] (rawLiteral .cText r)
    | 'b' :: '\'' :: r => Scan.before ['b', '\''] (singleQuoted .bytes r)
    | '\'' :: r => Scan.before ['\''] (singleQuoted .text r)
    | _ => none
  quotedText <|> numberWith (decimalDigits s) <|> numberWith (wholeDigits s)

/-! ## Punctuation -/

/-- The punctuation characters. -/
def isPunctuation (c : Char) : Bool := "~!@#$%^&*-=+|;:,<.>/?'".toList.contains c

/-- Punctuation comes next; the start of a comment is none. -/
def startsPunctuation : Chars → Bool
  | '/' :: '/' :: _ => false
  | '/' :: '*' :: _ => false
  | c :: _ => isPunctuation c
  | [] => false

/-- A single token that is no bracket. -/
def leaf (s : Chars) : Option (Token × Chars × Chars) :=
  match literal s with
  | some (a, r) => some (.literal (String.ofList a), a, r)
  | none =>
    match s with
    | '\'' :: r =>
      match anyIdent r with
      | some (_, '\'' :: _) => none
      | some (_, '#' :: _) => if "r#".toList.isPrefixOf r then lifetimeOrQuote r else none
      | some _ => lifetimeOrQuote r
      | none => none
    | c :: r =>
      if startsPunctuation s then some (.punct c (startsPunctuation r), [c], r)
      else match ident s with
        | some (a, t) => some (.ident (String.ofList a), a, t)
        | none => none
    | [] => none
where
  /-- A quote and the identifier behind it are one token, unless a literal starts there. -/
  lifetimeOrQuote (r : Chars) : Option (Token × Chars × Chars) :=
    match literal r, ident r with
    | none, some (a, t) => some (.lifetime (String.ofList ('\'' :: a)), '\'' :: a, t)
    | _, _ => some (.punct '\'' true, ['\''], r)

/-! ## Blanks and comments -/

/-- Blank characters, with the two direction marks. -/
def isBlank (c : Char) : Bool :=
  let n := c.toNat
  n == 0x20 || (0x09 ≤ n && n ≤ 0x0D) || n == 0x85 || n == 0xA0 || n == 0x1680
    || (0x2000 ≤ n && n ≤ 0x200A) || n == 0x200E || n == 0x200F || n == 0x2028 || n == 0x2029
    || n == 0x202F || n == 0x205F || n == 0x3000

/-- The rest of a line, without its end. -/
def lineRest : Chars → Chars × Chars
  | [] => ([], [])
  | '\n' :: r => ([], '\n' :: r)
  | '\r' :: '\n' :: r => ([], '\r' :: '\n' :: r)
  | c :: r => let (a, t) := lineRest r; (c :: a, t)

/-- The rest of a block comment that is `depth` deep; block comments nest. -/
def blockRest : Nat → Chars → Scan
  | _, [] => none
  | depth, '/' :: '*' :: r => Scan.before ['/', '*'] (blockRest (depth + 1) r)
  | depth, '*' :: '/' :: r =>
    if depth ≤ 1 then some (['*', '/'], r) else Scan.before ['*', '/'] (blockRest (depth - 1) r)
  | depth, c :: r => Scan.before [c] (blockRest depth r)

/-- A block comment. -/
def blockComment : Chars → Scan
  | '/' :: '*' :: r => Scan.before ['/', '*'] (blockRest 1 r)
  | _ => none

/-- Blanks and comments that say nothing: the first stretch of them. -/
def trivia (s : Chars) : Scan :=
  match s with
  | '/' :: '/' :: '/' :: '/' :: _ => some (lineRest s)
  | '/' :: '/' :: '/' :: _ => none
  | '/' :: '/' :: '!' :: _ => none
  | '/' :: '/' :: _ => some (lineRest s)
  | '/' :: '*' :: '*' :: '/' :: r => some (['/', '*', '*', '/'], r)
  | '/' :: '*' :: '*' :: '*' :: _ => blockComment s
  | '/' :: '*' :: '*' :: _ => none
  | '/' :: '*' :: '!' :: _ => none
  | '/' :: '*' :: _ => blockComment s
  | c :: r => if isBlank c then some ([c], r) else none
  | [] => none

/-- A documentation comment: its text, whether it documents what is around it, what was read, and
what is left. -/
def docComment (s : Chars) : Option (Chars × Bool × Chars × Chars) :=
  let line (inner : Bool) : Option (Chars × Bool × Chars × Chars) :=
    let (a, r) := lineRest s
    some (a.drop 3, inner, a, r)
  let block (inner : Bool) : Option (Chars × Bool × Chars × Chars) :=
    (blockComment s).map fun (a, r) => ((a.drop 3).take (a.length - 5), inner, a, r)
  match s with
  | '/' :: '/' :: '!' :: _ => line true
  | '/' :: '*' :: '!' :: _ => block true
  | '/' :: '/' :: '/' :: '/' :: _ => none
  | '/' :: '/' :: '/' :: _ => line false
  | '/' :: '*' :: '*' :: '*' :: _ => none
  | '/' :: '*' :: '*' :: _ => block false
  | _ => none

/-- A carriage return without its newline. -/
def hasLoneReturn : Chars → Bool
  | [] => false
  | '\r' :: '\n' :: r => hasLoneReturn r
  | '\r' :: _ => true
  | _ :: r => hasLoneReturn r

/-- The attribute that a documentation comment stands for. -/
def docTokens (text : Chars) (inner : Bool) : List Token :=
  [.punct '#' false] ++ (if inner then [.punct '!' false] else []) ++
    [.opening .bracket, .ident "doc", .punct '=' false,
      .literal (Text.literal (String.ofList text)), .closing .bracket]

/-! ## The whole text -/

/-- The bracket that a character opens. -/
def opens? : Char → Option Delimiter
  | '(' => some .paren
  | '[' => some .bracket
  | '\x7b' => some .brace
  | _ => none

/-- The bracket that a character closes. -/
def closes? : Char → Option Delimiter
  | ')' => some .paren
  | ']' => some .bracket
  | '\x7d' => some .brace
  | _ => none

/-- The tokens of the rest of a text that stands at `p` inside the brackets `stack`; where it
fails, the place.  Every round reads at least one character, so `fuel` above the length of the text
is enough. -/
def lexFrom : Nat → Position → List (Delimiter × Position) → Chars → Except Position (List Placed)
  | 0, p, _, _ => .error p
  | fuel + 1, p, stack, s =>
    match trivia s with
    | some (a, r) => lexFrom fuel (p.advance a) stack r
    | none =>
    match docComment s with
    | some (text, inner, a, r) =>
      if hasLoneReturn text then .error p else
      let q := p.advance a
      let placed := (docTokens text inner).map fun t => Placed.mk t ⟨p, q⟩
      (placed ++ ·) <$> lexFrom fuel q stack r
    | none =>
    match s with
    | [] =>
      match stack with
      | [] => .ok []
      | (_, opened) :: _ => .error opened
    | c :: r =>
      match opens? c, closes? c with
      | some d, _ =>
        (Placed.mk (.opening d) ⟨p, p.step c⟩ :: ·) <$> lexFrom fuel (p.step c) ((d, p) :: stack) r
      | none, some d =>
        match stack with
        | (d', _) :: stack =>
          if d = d' then
            (Placed.mk (.closing d) ⟨p, p.step c⟩ :: ·) <$> lexFrom fuel (p.step c) stack r
          else .error p
        | [] => .error p
      | none, none =>
        match leaf s with
        | some (t, a, r) =>
          let q := p.advance a
          (Placed.mk t ⟨p, q⟩ :: ·) <$> lexFrom fuel q stack r
        | none => .error p

end Lexer

/-- The tokens of a text, or the place where it has none.  A byte order mark at the start of the
text counts as a column and is skipped. -/
def lex (text : String) : Except Position (List Placed) :=
  match text.toList with
  | '\uFEFF' :: r => Lexer.lexFrom (r.length + 1) (Position.start.step '\uFEFF') [] r
  | s => Lexer.lexFrom (s.length + 1) Position.start [] s

end KeyedRecord.Source
