import KeyedRecord.Derive.Conversion

/-!
# Generated code as tokens

A unit is the code generated for one type: the list of its keys, and the implementation of the
conversion.  One function prints each part, and `render` puts them together.  Equal descriptors
print equal units.

The functions are `render`, `render_keys`, `render_accessor`, `render_to_dict` and
`render_from_dict`, with `Slot::read` and `Slot::write`.
-/

set_option autoImplicit false

namespace KeyedRecord.Derive

open Source

/-! ## Pieces of code -/

namespace Code

/-- A word. -/
def w (s : String) : List Token := [.ident s]

/-- An operator. -/
def p (s : String) : List Token := operatorTokens s.toList

/-- A string literal. -/
def text (s : String) : List Token := [.literal (Text.literal s)]

/-- Tokens in parentheses. -/
def paren (ts : List Token) : List Token := .opening .paren :: ts ++ [.closing .paren]

/-- Tokens in square brackets. -/
def bracket (ts : List Token) : List Token := .opening .bracket :: ts ++ [.closing .bracket]

/-- Tokens in curly braces. -/
def brace (ts : List Token) : List Token := .opening .brace :: ts ++ [.closing .brace]

/-- Words with double colons before each of them. -/
def absolute (segments : List String) : List Token := segments.flatMap fun s => p "::" ++ w s

/-- Lists with commas between them. -/
def commas (items : List (List Token)) : List Token := (p ",").intercalate items

/-- A name inside the library that generated code calls. -/
def inCrate (crate : Phrase) (segments : List String) : List Token :=
  crate.printed ++ absolute segments

/-- The value that the code converts. -/
def self : List Token := w "self"

/-- The result type of a conversion that may fail. -/
def outcome (crate : Phrase) : List Token :=
  absolute ["core", "result", "Result"] ++ p "<" ++ paren [] ++ p "," ++
    inCrate crate ["DictError"] ++ p ">"

/-- The value of a conversion that did not fail. -/
def success : List Token := absolute ["core", "result", "Result", "Ok"] ++ paren (paren [])

/-- The name of a local. -/
def local_ (slot : Nat) : List Token := w ("__objdict_" ++ toString slot)

/-- The parameters of a function that reads a dictionary. -/
def dictParameters (crate : Phrase) (name : String) : List Token :=
  paren (p "&" ++ w "mut" ++ self ++ p "," ++ w name ++ p ":" ++ p "&" ++ inCrate crate ["Dict"] ++
    p ",")

/-- The head of a function from a value to a dictionary. -/
def toDictHead (crate : Phrase) (name : String) : List Token :=
  w "fn" ++ w name ++ paren (p "&" ++ self) ++ p "->" ++ inCrate crate ["Dict"]

/-- The head of a function that assigns from a dictionary. -/
def fromDictHead (crate : Phrase) (name parameter : String) : List Token :=
  w "fn" ++ w name ++ dictParameters crate parameter ++ p "->" ++ outcome crate

end Code

open Code

/-! ## Statements -/

namespace Access

/-- The expression that reads a member (`Slot::read`). -/
def readTokens : Access → List Token
  | field place => p "&" ++ self ++ p "." ++ [place.token]
  | property getter _ => p "&" ++ self ++ p "." ++ w getter ++ paren []

/-- The statement that writes a local to a member (`Slot::write`). -/
def writeTokens (value : List Token) : Access → List Token
  | field place => self ++ p "." ++ [place.token] ++ p "=" ++ value ++ p ";"
  | property _ setter => self ++ p "." ++ w setter ++ paren value ++ p ";"

end Access

/-- A statement as tokens. -/
def Statement.tokens (crate : Phrase) : Statement → List Token
  | insert key source =>
    w "ret" ++ p "." ++ w "insert" ++ paren (
      absolute ["std", "string", "String", "from"] ++ paren (text key) ++ p "," ++
      inCrate crate ["ToValue", "to_value"] ++ paren source.readTokens ++ p ",") ++ p ";"
  | cast slot type key =>
    w "let" ++ local_ slot ++ p "=" ++ inCrate crate ["get_as"] ++ p "::" ++ p "<" ++
      type.printed ++ p ">" ++ paren (w "dict" ++ p "," ++ text key) ++ p "?" ++ p ";"
  | write target slot => target.writeTokens (local_ slot)

/-- Statements one after the other. -/
def statementTokens (crate : Phrase) (ss : List Statement) : List Token :=
  ss.flatMap (Statement.tokens crate)

/-! ## Parts of a unit -/

/-- The visibility of the list of keys. -/
def Accessibility.tokens : Accessibility → List Token
  | everyone => w "pub"
  | internal => w "pub" ++ paren (w "crate")

/-- The list of keys (`render_keys`). -/
def keysTokens (accessibility : Accessibility) (keys : List String) : List Token :=
  p "#" ++ bracket (w "doc" ++ p "=" ++
    [.literal "r\" Keys written by `to_dict`, in declaration order.\""]) ++
  accessibility.tokens ++ w "const" ++ w "DICT_KEYS" ++ p ":" ++
  p "&" ++ [.lifetime "'static"] ++ bracket (p "&" ++ [.lifetime "'static"] ++ w "str") ++
  p "=" ++ p "&" ++ bracket (commas (keys.map text)) ++ p ";"

/-- The pair of accessors, which only delegate (`render_accessor`). -/
def accessorTokens (crate : Phrase) : List Token :=
  toDictHead crate "as_dict" ++ brace (inCrate crate ["ObjDict", "to_dict"] ++ paren self) ++
  fromDictHead crate "set_as_dict" "dict" ++
    brace (inCrate crate ["ObjDict", "from_dict"] ++ paren (self ++ p "," ++ w "dict"))

/-- The function that fills a fresh dictionary (`render_to_dict`). -/
def toDictTokens (crate : Phrase) (c : Conversion) : List Token :=
  if c.keys.isEmpty then
    toDictHead crate "to_dict" ++ brace (inCrate crate ["Dict", "new"] ++ paren [])
  else
    toDictHead crate "to_dict" ++ brace (
      w "let" ++ w "mut" ++ w "ret" ++ p "=" ++ inCrate crate ["Dict", "with_capacity"] ++
      paren [.literal (toString c.keys.length ++ "usize")] ++ p ";" ++
      statementTokens crate c.toDict ++ w "ret")

/-- The function that assigns from a dictionary (`render_from_dict`). -/
def fromDictTokens (crate : Phrase) (c : Conversion) : List Token :=
  if c.keys.isEmpty then fromDictHead crate "from_dict" "_dict" ++ brace success
  else fromDictHead crate "from_dict" "dict" ++ brace (statementTokens crate c.fromDict ++ success)

/-! ## Whole units -/

/-- The mark of generated code. -/
def derivedMark : List Token := p "#" ++ bracket (w "automatically_derived")

/-- The declared type, with its parameters as arguments and its conditions. -/
def typeTokens (d : TypeDescriptor) : List Token :=
  w d.name ++ d.generics.argumentForm.printed ++ d.generics.wherePhrase.printed

/-- The unit of a type, around its generated code. -/
def unitTokens (d : TypeDescriptor) (crate : Phrase) (c : Conversion) : List Token :=
  derivedMark ++ w "impl" ++ d.generics.implForm.printed ++ typeTokens d ++
    brace (keysTokens d.accessibility c.keys) ++
  derivedMark ++ w "impl" ++ d.generics.implForm.printed ++ inCrate crate ["ObjDict"] ++ w "for" ++
    typeTokens d ++
    brace (accessorTokens crate ++ toDictTokens crate c ++ fromDictTokens crate c)

/-- The unit of a descriptor, for a library that stands at the path `crate`. -/
def render (d : TypeDescriptor) (crate : Phrase) : Except Refusal (List Token) :=
  match Conversion.ofDescriptor d with
  | .ok c => .ok (unitTokens d crate c)
  | .error e => .error (.ofProblem e)

/-- The text can name a type in generated code: an identifier, possibly raw.  A reserved word is
enough, except where it has no raw form. -/
def isTypeName (name : String) : Bool :=
  match name.toList with
  | 'r' :: '#' :: r => isWord r && !Lexer.isUnrawable r
  | cs => isWord cs
where
  /-- The characters are those of one identifier. -/
  isWord (cs : List Char) : Bool :=
    match cs with
    | c :: r => Text.isWordStart c && r.all Text.isWordPart
    | [] => false

end KeyedRecord.Derive
