import KeyedRecord.Source.Item
import KeyedRecord.Source.StringLiteral

/-!
# Why a declaration is refused

A declaration that is well formed as source may still be refused for its helper attributes or for
two members of one name.  The wording of each reason is in `Fault.message`; the grammar's own
reasons keep theirs.

A refusal is the `Error` of the parsing library, which has one message and one place.
-/

set_option autoImplicit false

namespace KeyedRecord.Derive

open Source

/-- Where a key of a helper attribute stands. -/
inductive KeyPlace where
  | container
  | field
  | property
  deriving DecidableEq, Repr

/-- Why a declaration is refused. -/
inductive Fault where
  | grammar (c : Cause)
  /-- The attribute of this path has nothing behind it. -/
  | argumentsMissing (path : String)
  /-- The attribute of this path has a value where it needs parentheses. -/
  | parenthesesMissing (path : String)
  | entryMissing
  | literalAsKey
  | signAsKey
  | unknownKey (place : KeyPlace)
  | stringWanted
  | nameMissing
  | typeMissing
  | duplicate (name : String)
  deriving DecidableEq, Repr

/-- The message of a fault. -/
def Fault.message : Fault → String
  | grammar c => c.message
  | argumentsMissing path =>
    "expected attribute arguments in parentheses: #[" ++ path ++ "(...)]"
  | parenthesesMissing path => "expected parentheses: #[" ++ path ++ "(...)]"
  | entryMissing => "unexpected end of input, expected nested attribute"
  | literalAsKey => "unexpected literal in nested attribute, expected ident"
  | signAsKey => "unexpected token in nested attribute, expected ident"
  | unknownKey .container => "Unknown container attribute"
  | unknownKey .field => "Unknown field attribute"
  | unknownKey .property => "Unknown property attribute"
  | stringWanted => "Expected string literal"
  | nameMissing => "property requires `name = \"...\"`"
  | typeMissing => "property requires `ty = \"...\"`"
  | duplicate name => "duplicate objdict member name `" ++ name ++ "`"

/-- A fault and the stretch of text that it points at. -/
structure Refusal where
  fault : Fault
  span : Option Span
  deriving DecidableEq, Repr

namespace Refusal

/-- The message of a refusal. -/
def message (r : Refusal) : String := r.fault.message

/-- A failure of the grammar as a refusal. -/
def ofProblem (p : Problem) : Refusal := ⟨.grammar p.cause, p.span⟩

/-- The tokens that make a compiler report the refusal (`to_compile_error`). -/
def compileError (r : Refusal) : List Token :=
  operatorTokens "::".toList ++ [.ident "core"] ++ operatorTokens "::".toList ++
    [.ident "compile_error", .punct '!' false, .opening .brace, .literal (Text.literal r.message),
      .closing .brace]

end Refusal

end KeyedRecord.Derive
