import KeyedRecord.Record.Convertible

/-!
# Sessions

A session is a record that is worked on step by step, with dictionaries at hand under names.  A step
can write a field, convert the record either way, keep its dictionary under a name and edit what is
kept there.  A name under which nothing has been kept stands for the empty dictionary.
-/

set_option autoImplicit false

namespace KeyedRecord.Record

variable {R : Registry} {τ : Type} [MemberTypes R τ]

/-- How a conversion is called: in which style, and on the record itself or on a box with it. -/
structure Call where
  style : Style
  boxed : Bool
  deriving DecidableEq, Repr

/-- Where the dictionary of a call comes from. -/
inductive Origin (R : Registry) where
  | given (d : Dict R)
  | kept (name : String)

/-- A step of a session. -/
inductive Step (S : Schema τ) where
  /-- Start again from a state. -/
  | restart (s : S.State)
  | assign (i : Fin S.fields.length) (x : MemberTypes.Carrier (FieldType S.fields i))
  | keys
  | toDict (call : Call)
  | fromDict (call : Call) (origin : Origin R)
  /-- Keep the record's dictionary under a name. -/
  | keep (call : Call) (name : String)
  /-- Put a value into the dictionary kept under a name. -/
  | putKept (name key : String) (v : Value R)
  /-- Take a key out of the dictionary kept under a name. -/
  | dropKept (name key : String)
  /-- Compare the record's dictionary with another, and with itself. -/
  | compare (call : Call) (origin : Origin R)

/-- What a step answers. -/
inductive Answer (R : Registry) where
  | nothing
  | keys (keys : List String)
  | dict (d : Dict R)
  | changed (result : Except DictError Unit)
  | compared (withOther withItself : Bool)

/-- A record, and the dictionaries at hand. -/
structure Session (S : Schema τ) where
  state : S.State
  kept : Table (Dict R)

namespace Session

variable {S : Schema τ}

/-- The dictionary of an origin. -/
def dictOf (session : Session S) : Origin R → Dict R
  | .given d => d
  | .kept name => (session.kept.get? name).getD .empty

/-- The record's dictionary. -/
def dict (session : Session S) (call : Call) : Dict R :=
  let record : Instance S := ⟨session.state⟩
  if call.boxed then Convertible.read (Boxed.mk record) call.style
  else Convertible.read record call.style

/-- Change the record from a dictionary. -/
def change (session : Session S) (call : Call) (d : Dict R) : Answer R × Session S :=
  let record : Instance S := ⟨session.state⟩
  if call.boxed then
    let (result, box) := Convertible.write d (Boxed.mk record) call.style
    (.changed result, { session with state := box.content.state })
  else
    let (result, record) := Convertible.write d record call.style
    (.changed result, { session with state := record.state })

/-- Change the dictionary kept under a name. -/
def edit (session : Session S) (name : String) (f : Dict R → Dict R) : Session S :=
  { session with kept := session.kept.insert name (f (session.dictOf (.kept name))) }

/-- One step: what it answers, and the session after it. -/
def step [OwnEquality R] (session : Session S) : Step S → Answer R × Session S
  | .restart s => (.nothing, { session with state := s })
  | .assign i x => (.nothing, { session with state := session.state.set i x })
  | .keys => (.keys S.keys, session)
  | .toDict call => (.dict (session.dict call), session)
  | .fromDict call origin => session.change call (session.dictOf origin)
  | .keep call name => (.nothing, session.edit name fun _ => session.dict call)
  | .putKept name key v => (.nothing, session.edit name fun d => d.insert key v)
  | .dropKept name key => (.nothing, session.edit name fun d => d.erase key)
  | .compare call origin =>
    let d := session.dict call
    (.compared (Dict.equal d (session.dictOf origin)) (Dict.equal d (session.dict call)), session)

/-- A whole run. -/
def run [OwnEquality R] (session : Session S) (steps : List (Step S)) : Session S :=
  steps.foldl (fun s t => (s.step t).2) session

end Session

end KeyedRecord.Record
