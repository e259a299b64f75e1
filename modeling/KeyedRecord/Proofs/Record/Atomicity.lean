import KeyedRecord.Record.Session
import KeyedRecord.Proofs.Record.Members

/-!
# Changes from a dictionary are exact and atomic

A change from a dictionary succeeds exactly if every selected member fits, it reports the first
member that does not, and a change that fails leaves the session as it was.  So a whole run ends as
if the failing changes had not been asked for: `run_changes`.
-/

set_option autoImplicit false

namespace KeyedRecord.Record

variable {R : Registry} {τ : Type} [MemberTypes R τ]

/-! ## Members that fit -/

section

variable {fields : List (Field τ)} {d : Dict R}

/-- The key of the member is there, and the value under it casts to the member's type. -/
def Member.Fits (m : Member fields) (d : Dict R) : Prop :=
  ∃ v x, d.get? m.key = some v ∧ MemberTypes.cast m.type v = .ok x

/-- Why the member does not fit: its key is missing, or the value under it does not cast. -/
inductive Member.Misfit (m : Member fields) (d : Dict R) : DictError → Prop where
  | missing (h : d.get? m.key = none) : m.Misfit d (.keyNotFound m.key)
  | mismatch {v : Value R} {c : CastError} (hv : d.get? m.key = some v)
    (hc : MemberTypes.cast m.type v = .error c) :
    m.Misfit d (.typeMismatch m.key c)

/-- The error is that of the first member that does not fit. -/
def FirstMisfit (ms : List (Member fields)) (d : Dict R) (e : DictError) : Prop :=
  ∃ before m after, ms = before ++ m :: after ∧ (∀ b ∈ before, b.Fits d) ∧ m.Misfit d e

theorem Member.read_ok_iff {m : Member fields} : (∃ a, m.read d = .ok a) ↔ m.Fits d := by
  unfold Member.read Dict.getAs Member.Fits
  cases d.get? m.key with
  | none => simp [Except.map]
  | some v => cases hc : MemberTypes.cast m.type v <;> simp [hc, Except.map, Except.mapError]

theorem Member.read_error_iff {m : Member fields} {e : DictError} :
    m.read d = .error e ↔ m.Misfit d e := by
  unfold Member.read Dict.getAs
  constructor
  · intro h
    split at h
    · rename_i hn
      cases h
      exact .missing hn
    · rename_i v hv
      cases hc : MemberTypes.cast m.type v with
      | ok x => rw [hc] at h; cases h
      | error c =>
        rw [hc] at h
        cases h
        exact .mismatch hv hc
  · intro h
    cases h with
    | missing hn => rw [hn]; rfl
    | mismatch hv hc =>
      rw [hv]
      simp only [hc, Except.mapError, Except.map]

end

/-! ## One change -/

namespace Schema

variable {S : Schema τ} {d : Dict R} {s : S.State}

theorem assignments_ok_iff : (∃ as, S.assignments d = .ok as) ↔ ∀ m ∈ S.members, m.Fits d := by
  rw [assignments, exists_mapM_eq_ok]
  exact forall₂_congr fun m _ => Member.read_ok_iff

theorem assignments_error_iff {e : DictError} :
    S.assignments d = .error e ↔ FirstMisfit S.members d e := by
  rw [assignments, mapM_eq_error_iff]
  simp only [FirstMisfit, Member.read_ok_iff, Member.read_error_iff]

theorem fromDict_ok_iff : (S.fromDict d s).1 = .ok () ↔ ∀ m ∈ S.members, m.Fits d := by
  rw [← assignments_ok_iff, fromDict]
  cases S.assignments d <;> simp

theorem fromDict_error_iff {e : DictError} :
    (S.fromDict d s).1 = .error e ↔ FirstMisfit S.members d e := by
  rw [← assignments_error_iff, fromDict]
  cases S.assignments d <;> simp

/-- A change that fails leaves the state as it was. -/
theorem state_of_fromDict_error {e : DictError} (h : (S.fromDict d s).1 = .error e) :
    (S.fromDict d s).2 = s := by
  rw [fromDict] at h ⊢
  cases ha : S.assignments d with
  | error e' => rfl
  | ok as => rw [ha] at h; cases h

end Schema

/-! ## Whole runs -/

namespace Session

variable {S : Schema τ}

/-- A change does the same in either style, and on a box as on the record itself. -/
theorem change_eq (session : Session S) (call : Call) (d : Dict R) :
    session.change call d = (.changed (S.fromDict d session.state).1,
      { session with state := (S.fromDict d session.state).2 }) := by
  obtain ⟨style, boxed⟩ := call
  cases boxed <;> cases style <;> rfl

variable [OwnEquality R]

/-- The step is a change that fails in the session. -/
def fails (session : Session S) (t : Step S) : Bool :=
  match (session.step t).1 with
  | .changed (.error _) => true
  | _ => false

/-- The steps of a run without the changes that fail in it. -/
def withoutFailures (session : Session S) : List (Step S) → List (Step S)
  | [] => []
  | t :: ts =>
    let rest := withoutFailures (session.step t).2 ts
    if session.fails t then rest else t :: rest

/-- A step that fails leaves the session as it was, kept dictionaries included. -/
theorem step_of_fails {session : Session S} {t : Step S} (h : session.fails t = true) :
    (session.step t).2 = session := by
  cases t with
  | fromDict call origin =>
    simp only [fails, step, change_eq] at h ⊢
    split at h
    · rename_i he
      rw [Schema.state_of_fromDict_error (Answer.changed.inj he)]
    · cases h
  | _ => cases h

theorem run_cons (session : Session S) (t : Step S) (ts : List (Step S)) :
    session.run (t :: ts) = (session.step t).2.run ts := rfl

/-- A run ends as it does without its failing changes. -/
theorem run_withoutFailures (session : Session S) (steps : List (Step S)) :
    session.run (session.withoutFailures steps) = session.run steps := by
  induction steps generalizing session with
  | nil => rfl
  | cons t ts ih =>
    rw [withoutFailures, run_cons]
    split
    · rename_i hf
      rw [← ih, step_of_fails hf]
    · rw [run_cons, ih]

/-- **Changes are exact and atomic over whole runs.**  Wherever a run changes the record from a
dictionary, in whatever style, the change succeeds exactly if every selected member fits, and
otherwise it answers with the first that does not; and the run ends as it does without its failing
changes. The members stand in the order of the keys, properties before fields. -/
theorem run_changes (S : Schema τ) (start : Session S) (steps : List (Step S)) :
    (∀ before call origin after, steps = before ++ .fromDict call origin :: after →
      ∃ result, ((start.run before).step (.fromDict call origin)).1 = .changed result ∧
        (result = .ok () ↔ ∀ m ∈ S.members, m.Fits ((start.run before).dictOf origin)) ∧
        ∀ e, result = .error e ↔
          FirstMisfit S.members ((start.run before).dictOf origin) e) ∧
    start.run steps = start.run (start.withoutFailures steps) ∧
    ∃ ps fs, S.members = ps ++ fs ∧ S.keys = ps.map Member.key ++ fs.map Member.key ∧
      (ps.map Member.key).Sublist (S.properties.map Property.key) ∧
      (fs.map Member.key).Sublist (S.fields.map Field.name) := by
  refine ⟨fun before call origin after _ => ?_, (run_withoutFailures start steps).symm,
    S.members_in_order⟩
  refine ⟨(S.fromDict ((start.run before).dictOf origin) (start.run before).state).1, ?_,
    Schema.fromDict_ok_iff, fun e => Schema.fromDict_error_iff⟩
  rw [step, change_eq]

end Session

end KeyedRecord.Record
