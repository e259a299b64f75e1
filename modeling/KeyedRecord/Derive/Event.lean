import KeyedRecord.Policy

/-!
# Events

What the pipeline reports while it works.  An event says what happened; the form in which a listener
sees it (a level, the part that speaks, a message and named texts) is computed from it here.

These are the calls of `trace!`, `debug!` and `warn!` in `scan`, `select` and the two sinks.
-/

set_option autoImplicit false

namespace KeyedRecord.Derive

/-- How much an event matters. -/
inductive Level where
  | trace
  | debug
  | warn
  deriving DecidableEq, Repr

/-- The name of a level. -/
def Level.name : Level → String
  | trace => "TRACE"
  | debug => "DEBUG"
  | warn => "WARN"

/-- Something that happened. -/
inductive Event where
  /-- A member was left out. -/
  | excluded (member : String) (reason : Exclusion)
  /-- A type was scanned: how many members were selected, of how many declared ones. -/
  | scanned (typeName nameSpace : String) (selected declared : Nat)
  /-- A declaration that cannot be extended was skipped. -/
  | skipped (typeName : String)
  /-- A unit was filed under its name. -/
  | unitAdded (name : String)
  /-- A unit was written to a file. -/
  | unitWritten (path : String)
  /-- A unit could not be written. -/
  | dumpFailed (name : String) (failure : String)
  deriving DecidableEq, Repr

namespace Event

/-- How much the event matters. -/
def level : Event → Level
  | excluded .. => .trace
  | scanned .. => .debug
  | skipped _ => .debug
  | unitAdded _ => .trace
  | unitWritten _ => .trace
  | dumpFailed .. => .warn

/-- The part of the pipeline that speaks. -/
def target : Event → String
  | excluded .. => "objdict_codegen::scan"
  | scanned .. => "objdict_codegen::scan"
  | skipped _ => "objdict_codegen::scan"
  | unitAdded _ => "objdict_codegen::sink"
  | unitWritten _ => "objdict_codegen::sink"
  | dumpFailed .. => "objdict_codegen::sink"

/-- What the part says. -/
def message : Event → String
  | excluded _ reason => reason.message
  | scanned .. => "scanned type"
  | skipped _ => "not a struct, skipping"
  | unitAdded _ => "unit added"
  | unitWritten _ => "unit written"
  | dumpFailed _ failure => "failed to dump unit: " ++ failure

/-- The named texts that go with the message. -/
def fields : Event → List (String × String)
  | excluded member _ => [("member", member)]
  | scanned typeName nameSpace selected declared =>
    [("type_name", typeName), ("namespace", nameSpace), ("selected", toString selected),
      ("declared", toString declared)]
  | skipped typeName => [("type_name", typeName)]
  | unitAdded name => [("name", name)]
  | unitWritten path => [("path", path)]
  | dumpFailed name _ => [("name", name)]

end Event

end KeyedRecord.Derive
