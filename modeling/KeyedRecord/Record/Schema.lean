import KeyedRecord.Dict
import KeyedRecord.Record.State

/-!
# Record types

A record type has fields and properties.  A property stands for a member without a field of its own:
it is read by a getter and written by a setter, which may use and change any fields.

The members that take part in a conversion are those that the policy selects, properties before
fields, each in the order of declaration.  A record becomes a dictionary with the value of each
selected member under its key.  On the way back every member is cast before the first is written,
so that a dictionary which does not fit changes nothing.

`Schema.toDict` and `Schema.fromDict` are what the generated `to_dict` and `from_dict` do to a
value; that the printed code does just this is `render_implements` in `Proofs.Derive.SchemaCode`.
-/

set_option autoImplicit false

namespace KeyedRecord.Record

variable {R : Registry} {τ : Type} [MemberTypes R τ]

/-! ## Declarations -/

/-- A member that is reached through a getter and a setter, either of which may be missing. -/
structure Property (fields : List (Field τ)) where
  key : String
  type : τ
  policy : Policy
  getter : Option (State fields → MemberTypes.Carrier type)
  setter : Option (MemberTypes.Carrier type → State fields → State fields)

/-- A record type.  No two members have one key. -/
structure Schema (τ : Type) [MemberTypes R τ] where
  fields : List (Field τ)
  properties : List (Property fields)
  keys_nodup : (properties.map Property.key ++ fields.map Field.name).Nodup

/-- A state of a record type. -/
abbrev Schema.State (S : Schema τ) : Type := Record.State S.fields

/-! ## Members -/

/-- A member that can be read and written. -/
structure Member (fields : List (Field τ)) where
  key : String
  type : τ
  get : State fields → MemberTypes.Carrier type
  set : MemberTypes.Carrier type → State fields → State fields

namespace Property

variable {fields : List (Field τ)}

/-- The property as a member, if the policy selects it. -/
def select (p : Property fields) : Option (Member fields) :=
  match p.getter, p.setter with
  | some get, some set =>
    match p.policy.exclusion true with
    | none => some ⟨p.key, p.type, get, set⟩
    | some _ => none
  | _, _ => none

end Property

namespace Field

/-- The field at a position as a member, if the policy selects it. -/
def select (fields : List (Field τ)) (i : Fin fields.length) : Option (Member fields) :=
  match (fields.get i).policy.exclusion true with
  | none => some ⟨(fields.get i).name, FieldType fields i, fun s => s.get i, fun x s => s.set i x⟩
  | some _ => none

end Field

namespace Schema

/-- The selected members, in order. -/
def members (S : Schema τ) : List (Member S.fields) :=
  S.properties.filterMap Property.select ++
    (List.finRange S.fields.length).filterMap (Field.select S.fields)

/-- The keys of the selected members, in order. -/
def keys (S : Schema τ) : List String := S.members.map Member.key

end Schema

/-! ## Conversion -/

/-- A member with the thing that is to be written to it. -/
structure Assignment (fields : List (Field τ)) where
  member : Member fields
  thing : MemberTypes.Carrier member.type

namespace Assignment

variable {fields : List (Field τ)}

/-- Write the thing. -/
def apply (s : State fields) (a : Assignment fields) : State fields := a.member.set a.thing s

end Assignment

namespace Member

variable {fields : List (Field τ)}

/-- A thing of the member's type. -/
abbrev Carrier (m : Member fields) : Type := MemberTypes.Carrier m.type

/-- The value of the member. -/
def value (m : Member fields) (s : State fields) : Value R :=
  MemberTypes.toValue m.type (m.get s)

/-- What a dictionary says is to be written to the member (`get_as`). -/
def read (d : Dict R) (m : Member fields) : Except DictError (Assignment fields) :=
  (d.getAs m.type m.key).map fun x => ⟨m, x⟩

end Member

namespace Schema

variable (S : Schema τ)

/-- The dictionary of a state. -/
def toDict (s : S.State) : Dict R :=
  Table.ofList (S.members.map fun m => (m.key, m.value s))

/-- What a dictionary says is to be written, to every selected member in order. -/
def assignments (d : Dict R) : Except DictError (List (Assignment S.fields)) :=
  S.members.mapM (Member.read d)

/-- Write every selected member from a dictionary.  Only when all of them have been read is the
first written, so a state that the dictionary does not fit stays as it is. -/
def fromDict (d : Dict R) (s : S.State) : Except DictError Unit × S.State :=
  match S.assignments d with
  | .error e => (.error e, s)
  | .ok as => (.ok (), as.foldl Assignment.apply s)

end Schema

end KeyedRecord.Record
