import KeyedRecord.Dict
import KeyedRecord.Proofs.Lists
import KeyedRecord.Proofs.Derive.Instruction

/-!
# What generated bodies do

A program runs on a store: the value that it converts, its locals, the dictionary that it reads, and
the one that it fills.  An instruction that asks for something the store does not have has no
meaning; a cast that fails ends the run, and the value stays as it is at that point.

What the instructions call is given by a `Runtime`: the conversions of the types that stand in the
text, the places of the value, and its methods.

Principal results: `run_inserts`, `run_castsInto_ok` with `run_castsInto_error`, and
`run_writesFrom`, for the three lists of statements.
-/

set_option autoImplicit false

namespace KeyedRecord.Derive

open Source

/-! ## Runtimes and stores -/

/-- What generated code calls and reaches, for values in `σ` and things in `Θ`. -/
structure Runtime (R : Registry) (σ Θ : Type) where
  /-- The cast to the type of these tokens. -/
  cast : List Token → Value R → Except CastError Θ
  toValue : Θ → Value R
  field : Token → σ → Θ
  setField : Token → Θ → σ → σ
  getter : String → σ → Θ
  setter : String → Θ → σ → σ

variable {R : Registry} {σ Θ : Type}

namespace Runtime

variable (rt : Runtime R σ Θ)

/-- The thing of a type under a key, or why there is none. -/
def getAs (d : Dict R) (type : List Token) (key : String) : Except DictError Θ :=
  match d.get? key with
  | none => .error (.keyNotFound key)
  | some v => (rt.cast type v).mapError (.typeMismatch key)

/-- What an operand holds. -/
def read (s : σ) : Operand → Θ
  | .field place => rt.field place s
  | .method name => rt.getter name s

/-- The value after a thing was written to a member. -/
def write (a : Access) (x : Θ) (s : σ) : σ :=
  match a with
  | .field place => rt.setField place.token x s
  | .property _ setter => rt.setter setter x s

/-- What the dictionary holds for a slot. -/
def getSlot (d : Dict R) (c : Slot) : Except DictError Θ := rt.getAs d c.type.printed c.key

/-- The value after things were written to slots, one after the other. -/
def writeSlots (slots : List Slot) (xs : List Θ) (s : σ) : σ :=
  (slots.zip xs).foldl (fun s a => rt.write a.1.access a.2 s) s

/-- The dictionary with a member of the value put under its key. -/
def insertSlot (s : σ) (d : Dict R) (c : Slot) : Dict R :=
  d.insert c.key (rt.toValue (rt.read s c.access.operand))

end Runtime

/-- What a body works on. -/
structure Store (R : Registry) (σ Θ : Type) where
  value : σ
  locals : String → Option Θ
  /-- The dictionary to read, under the name of the parameter. -/
  parameter : Option (String × Dict R)
  /-- The local `ret`. -/
  ret : Option (Dict R)

namespace Store

/-- The store in which a body starts. -/
def start (s : σ) (parameter : Option (String × Dict R)) : Store R σ Θ :=
  ⟨s, fun _ => none, parameter, none⟩

/-- The store with a local bound. -/
def bind (st : Store R σ Θ) (name : String) (x : Θ) : Store R σ Θ :=
  { st with locals := fun n => if n = name then some x else st.locals n }

/-- The dictionary under the name. -/
def dict? (st : Store R σ Θ) (name : String) : Option (Dict R) :=
  st.parameter.bind fun q => if q.1 = name then some q.2 else none

end Store

/-! ## Running -/

namespace Instruction

variable (rt : Runtime R σ Θ)

/-- One instruction: nothing if it has no meaning, and otherwise the store after it or its failure.
-/
def step (st : Store R σ Θ) : Instruction → Option (Except DictError (Store R σ Θ))
  | fresh => some (.ok { st with ret := some .empty })
  | insert key source =>
    st.ret.map fun d =>
      .ok { st with ret := some (d.insert key (rt.toValue (rt.read st.value source))) }
  | cast name type dict key => (st.dict? dict).map fun d => (rt.getAs d type key).map (st.bind name)
  | assign place name =>
    (st.locals name).map fun x => .ok { st with value := rt.setField place x st.value }
  | call method name =>
    (st.locals name).map fun x => .ok { st with value := rt.setter method x st.value }

/-- A list of instructions up to its end or its first failure, with the store as it is then. -/
def run : List Instruction → Store R σ Θ → Option (Option DictError × Store R σ Θ)
  | [], st => some (none, st)
  | i :: is, st =>
    match i.step rt st with
    | none => none
    | some (.error e) => some (some e, st)
    | some (.ok st') => run is st'

end Instruction

namespace Program

variable (rt : Runtime R σ Θ)

/-- The dictionary that a program makes of a value. -/
def toDict (P : Program) (s : σ) : Option (Dict R) :=
  match Instruction.run rt P.instructions (.start s none) with
  | some (none, st) =>
    match P.answer with
    | .ret => st.ret
    | .fresh => some .empty
    | .success => none
  | _ => none

/-- What a program answers to a dictionary under a name, and the value that it leaves. -/
def fromDict (P : Program) (parameter : String) (d : Dict R) (s : σ) :
    Option (Except DictError Unit × σ) :=
  match Instruction.run rt P.instructions (.start s (some (parameter, d))) with
  | some (some e, st) => some (.error e, st.value)
  | some (none, st) => if P.answer = .success then some (.ok (), st.value) else none
  | none => none

end Program

/-! ## Steps -/

namespace Instruction

variable {rt : Runtime R σ Θ} {st : Store R σ Θ} {is : List Instruction}

theorem run_insert {d : Dict R} (hd : st.ret = some d) (key : String) (source : Operand) :
    run rt (insert key source :: is) st =
      run rt is { st with ret := some (d.insert key (rt.toValue (rt.read st.value source))) } := by
  simp only [run, step, hd, Option.map_some]

theorem run_cast_ok {d : Dict R} {dict key : String} {type : List Token} {x : Θ}
    (hd : st.dict? dict = some d) (hx : rt.getAs d type key = .ok x) (name : String) :
    run rt (cast name type dict key :: is) st = run rt is (st.bind name x) := by
  simp only [run, step, hd, hx, Option.map_some, Except.map]

theorem run_cast_error {d : Dict R} {dict key : String} {type : List Token} {e : DictError}
    (hd : st.dict? dict = some d) (he : rt.getAs d type key = .error e) (name : String) :
    run rt (cast name type dict key :: is) st = some (some e, st) := by
  simp only [run, step, hd, he, Option.map_some, Except.map]

theorem run_write {name : String} {x : Θ} (hx : st.locals name = some x) (a : Access) :
    run rt (a.write name :: is) st = run rt is { st with value := rt.write a x st.value } := by
  cases a <;> simp only [Access.write, run, step, hx, Option.map_some, Runtime.write]

end Instruction

/-! ## Whole lists -/

/-- The names of the locals from a number on. -/
def localNames (k n : Nat) : List String := (List.range' k n).map localName

theorem nodup_localNames (k n : Nat) : (localNames k n).Nodup :=
  List.Nodup.map (fun _ _ h => localName_inj.mp h) (List.nodup_range' 1)

theorem length_localNames (k n : Nat) : (localNames k n).length = n := by
  simp [localNames]

/-- Casts of slots into locals. -/
def castsInto (names : List String) (slots : List Slot) : List Instruction :=
  List.zipWith (fun name c => .cast name c.type.printed "dict" c.key) names slots

/-- Writes of locals to slots. -/
def writesFrom (names : List String) (slots : List Slot) : List Instruction :=
  List.zipWith (fun name c => c.access.write name) names slots

/-- The store with things bound to names. -/
def Store.bindAll (st : Store R σ Θ) : List String → List Θ → Store R σ Θ
  | name :: names, x :: xs => (st.bind name x).bindAll names xs
  | _, _ => st

namespace Store

theorem dict?_start (s : σ) (name : String) (d : Dict R) :
    (start s (some (name, d)) : Store R σ Θ).dict? name = some d := if_pos rfl

variable (st : Store R σ Θ)

theorem value_bindAll (names : List String) (xs : List Θ) :
    (st.bindAll names xs).value = st.value := by
  induction names generalizing st xs with
  | nil => rfl
  | cons name names ih =>
    cases xs with
    | nil => rfl
    | cons x xs => exact ih (st.bind name x) xs

theorem locals_bindAll_of_not_mem {name : String} {names : List String} (hn : name ∉ names)
    (xs : List Θ) : (st.bindAll names xs).locals name = st.locals name := by
  induction names generalizing st xs with
  | nil => rfl
  | cons name' names ih =>
    cases xs with
    | nil => rfl
    | cons x xs =>
      simp only [List.mem_cons, not_or] at hn
      rw [bindAll, ih (st.bind name' x) hn.2]
      exact if_neg hn.1

/-- Every local holds the thing that was bound to it, since no later binding has its name. -/
theorem locals_bindAll {names : List String} (hn : names.Nodup) {xs : List Θ} :
    ∀ q ∈ names.zip xs, (st.bindAll names xs).locals q.1 = some q.2 := by
  induction names generalizing st xs with
  | nil => simp
  | cons name names ih =>
    cases xs with
    | nil => simp
    | cons x xs =>
      rw [List.nodup_cons] at hn
      intro q hq
      rcases List.mem_cons.mp hq with rfl | hq
      · rw [bindAll, locals_bindAll_of_not_mem _ hn.1]
        exact if_pos rfl
      · exact ih (st.bind name x) hn.2 q hq

end Store

namespace Instruction

variable {rt : Runtime R σ Θ} {st : Store R σ Θ} {d : Dict R} {names : List String}
    {slots : List Slot}

/-- Casts that all succeed bind their things and leave the value alone. -/
theorem run_castsInto_ok (hd : st.dict? "dict" = some d) (hl : names.length = slots.length)
    {xs : List Θ} (hx : slots.mapM (rt.getSlot d) = .ok xs) (rest : List Instruction) :
    run rt (castsInto names slots ++ rest) st = run rt rest (st.bindAll names xs) := by
  rw [mapM_eq_ok_iff] at hx
  induction hx generalizing names st with
  | nil => cases names <;> rfl
  | cons hx _ ih =>
    cases names with
    | nil => cases hl
    | cons name names =>
      refine (run_cast_ok hd hx name).trans ?_
      exact ih hd (Nat.succ.inj hl)

/-- Casts of which one fails end with the first failure, and leave the value alone. -/
theorem run_castsInto_error (hd : st.dict? "dict" = some d) (hl : names.length = slots.length)
    {e : DictError} (he : slots.mapM (rt.getSlot d) = .error e) (rest : List Instruction) :
    ∃ st', run rt (castsInto names slots ++ rest) st = some (some e, st') ∧
      st'.value = st.value := by
  induction slots generalizing names st with
  | nil => cases he
  | cons c slots ih =>
    cases names with
    | nil => cases hl
    | cons name names =>
      cases hc : rt.getSlot d c with
      | error e' =>
        rw [mapM_cons_error hc] at he
        cases he
        exact ⟨st, run_cast_error hd hc name, rfl⟩
      | ok x =>
        have hs : slots.mapM (rt.getSlot d) = .error e := by
          rw [mapM_cons_ok hc] at he
          cases hs : slots.mapM (rt.getSlot d) <;> rw [hs] at he <;> cases he
          rfl
        have hd' : (st.bind name x).dict? "dict" = some d := hd
        obtain ⟨st', hr, hv⟩ := ih hd' (Nat.succ.inj hl) hs
        exact ⟨st', (run_cast_ok hd hc name).trans hr, hv⟩

/-- Writes of bound locals change the value slot by slot. -/
theorem run_writesFrom (rt : Runtime R σ Θ) {xs : List Θ} (hl : names.length = slots.length)
    (hx : xs.length = slots.length) (hb : ∀ q ∈ names.zip xs, st.locals q.1 = some q.2) :
    run rt (writesFrom names slots) st =
      some (none, { st with value := rt.writeSlots slots xs st.value }) := by
  induction slots generalizing names xs st with
  | nil =>
    cases names with
    | nil => rfl
    | cons name names => cases hl
  | cons c slots ih =>
    cases names with
    | nil => cases hl
    | cons name names =>
      cases xs with
      | nil => cases hx
      | cons x xs =>
        rw [List.zip_cons_cons, List.forall_mem_cons] at hb
        refine (run_write hb.1 c.access).trans ?_
        exact ih (Nat.succ.inj hl) (Nat.succ.inj hx) hb.2

/-- Inserts fill the dictionary slot by slot. -/
theorem run_inserts (rt : Runtime R σ Θ) (slots : List Slot) (st : Store R σ Θ) {ret : Dict R}
    (hr : st.ret = some ret) :
    run rt (slots.map fun c => .insert c.key c.access.operand) st =
      some (none, { st with ret := some (slots.foldl (rt.insertSlot st.value) ret) }) := by
  induction slots generalizing st ret with
  | nil =>
    simp only [List.map_nil, run, List.foldl_nil, ← hr]
  | cons c slots ih =>
    rw [List.map_cons, run_insert hr]
    exact ih _ rfl

end Instruction

end KeyedRecord.Derive
