import Mathlib.Control.Lawful
import KeyedRecord.Source.Reader

/-!
# Sequences of readers

What a reader made of steps returns comes from its steps.  Here are the facts about sequences,
questions, operators and brackets that proofs about the readers of the grammar start from.

Principal results: `Reader.listUntilFuel_separated` and `Reader.chainFuel_separated`, by which lists
are taken apart at their separators.
-/

set_option autoImplicit false

namespace KeyedRecord.Source

namespace Reader

variable {α β : Type}

/-- What a reader made of two steps returns comes from the second, run where the first one left.
The errors may be of any kind. -/
theorem bind_eq_ok {ε α β : Type} {p : StateT (List Placed) (Except ε) α}
    {f : α → StateT (List Placed) (Except ε) β} {ts r : List Placed} {b : β}
    (h : (p >>= f) ts = .ok (b, r)) : ∃ a s, p ts = .ok (a, s) ∧ f a s = .ok (b, r) := by
  cases hp : p ts with
  | error e =>
    have : (p >>= f) ts = .error e := by simp [bind, StateT.bind, Except.bind, hp]
    rw [this] at h
    cases h
  | ok v =>
    have : (p >>= f) ts = f v.1 v.2 := by simp [bind, StateT.bind, Except.bind, hp]
    exact ⟨v.1, v.2, rfl, this ▸ h⟩

theorem bind_eq_ok_iff {p : Reader α} {f : α → Reader β} {ts r : List Placed} {b : β} :
    (p >>= f) ts = .ok (b, r) ↔ ∃ a s, p ts = .ok (a, s) ∧ f a s = .ok (b, r) := by
  refine ⟨bind_eq_ok, fun ⟨a, s, hp, hf⟩ => ?_⟩
  simp [bind, StateT.bind, Except.bind, hp, hf]

/-- A list is read as a whole if nothing of it is left. -/
theorem whole_eq_ok_iff {p : Reader α} {ts : List Placed} {a : α} :
    whole p ts = .ok a ↔ p ts = .ok (a, []) := by
  unfold whole
  rcases p ts with e | ⟨b, - | ⟨t, r⟩⟩ <;> simp

/-! ## Questions -/

/-- A question decides which reader goes on. -/
theorem ask_apply (P : List Placed → Bool) (A B : Reader α) (ts : List Placed) :
    (front P >>= fun b => if b = true then A else B) ts = if P ts = true then A ts else B ts := by
  show (if P ts = true then A else B) ts = _
  split <;> rfl

theorem map_ask (f : α → β) (P : List Placed → Bool) (A B : Reader α) :
    f <$> (front P >>= fun b => if b = true then A else B) =
      front P >>= fun b => if b = true then f <$> A else f <$> B := by
  rw [map_bind]
  congr 1
  funext b
  cases b <;> rfl

theorem ask_bind (P : List Placed → Bool) (A B : Reader α) (k : α → Reader β) :
    (front P >>= fun b => if b = true then A else B) >>= k =
      front P >>= fun b => if b = true then A >>= k else B >>= k := by
  rw [bind_assoc]
  congr 1
  funext b
  cases b <;> rfl

theorem ite_bind {c : Prop} [Decidable c] (A B : Reader α) (k : α → Reader β) :
    (if c then A else B) >>= k = if c then A >>= k else B >>= k := by
  split <;> rfl

/-- A question may be asked the other way. -/
theorem ask_not (P : List Placed → Bool) (A B : Reader α) :
    (front P >>= fun b => if (!b) = true then A else B) = front P >>= fun b =>
      if b = true then B else A := by
  congr 1
  funext b
  cases b <;> rfl

/-- A question that matters only on one side may be asked there. -/
theorem front_late {c : Prop} [Decidable c] (P : List Placed → Bool) (A : Reader α)
    (B : Bool → Reader α) : (front P >>= fun b => if c then A else B b) =
      if c then A else front P >>= B := by
  split <;> rfl

/-- A question whose answer nobody uses. -/
theorem front_ignored (P : List Placed → Bool) (A : Reader α) : (front P >>= fun _ => A) = A := rfl

theorem ask_congr {P : List Placed → Bool} {A A' B B' : Reader α}
    (hA : ∀ ts, P ts = true → A ts = A' ts) (hB : ∀ ts, P ts = false → B ts = B' ts) :
    (front P >>= fun b => if b = true then A else B) =
      front P >>= fun b => if b = true then A' else B' := by
  funext ts
  rw [ask_apply, ask_apply]
  split
  · exact hA ts ‹_›
  · exact hB ts (by simp_all)

/-! ## Operators -/

theorem op?_apply (s : String) (k : Option Phrase → Reader α) (ts : List Placed) :
    (op? s >>= k) ts =
      if Front.op s ts = true then k (some (.operator s)) (ts.drop s.length) else k none ts := by
  show (op? s ts).bind (fun v => k v.1 v.2) = _
  unfold op?
  split <;> rfl

/-- What is read as an operator is known. -/
theorem op_bind (s : String) (k : Phrase → Reader α) :
    op s >>= k = op s >>= fun _ => k (.operator s) := by
  funext ts
  show (op s ts).bind (fun v => k v.1 v.2) = (op s ts).bind fun v => k (.operator s) v.2
  unfold op
  split <;> rfl

/-- An operator of one character that stands here is the next token. -/
theorem next_bind {c : Char} {s : String} (hs : s.toList = [c]) {ts : List Placed}
    (h : Front.op s ts = true) (k : Reader α) :
    (next >>= fun _ => k) ts = (op s >>= fun _ => k) ts := by
  rcases ts with _ | ⟨t, r⟩
  · simp [Front.op, hs, Front.isOperator] at h
  · have hlen : s.length = 1 := by rw [← String.length_toList, hs]; rfl
    show k r = (op s (t :: r)).bind fun v => k v.2
    simp [op, h, hlen, Except.bind]

theorem identifier_of_not {ts : List Placed} (h : Front.identifier ts = false)
    (v : String × List Placed) :
    identifier ts ≠ .ok v := by
  unfold identifier
  rcases ts with _ | ⟨⟨t, s⟩, ts⟩
  · nofun
  · cases t with
    | ident w =>
      have hw : Front.reserved.contains w = true := by simpa [Front.identifier] using h
      simp only [hw, if_true]
      nofun
    | _ => nofun

/-! ## Brackets -/

theorem map_inside (f : α → β) (d : Delimiter) (p : Reader α) :
    f <$> inside d p = inside d (f <$> p) := by
  simp [inside]

theorem splitClosing_append (k : Nat) (ts : List Placed) :
    (splitClosing k ts).1 ++ (splitClosing k ts).2 = ts := by
  induction ts generalizing k with
  | nil => rfl
  | cons t ts ih =>
    unfold splitClosing
    split
    · simp [ih]
    · split <;> simp [ih]
    · simp [ih]

/-- What was read between brackets. -/
theorem exists_of_inside {d : Delimiter} {p : Reader α} {ts r : List Placed} {a : α}
    (h : inside d p ts = .ok (a, r)) :
    ∃ s ts' d' s', ts = ⟨.opening d, s⟩ :: ts' ∧ p ts' = .ok (a, ⟨.closing d', s'⟩ :: r) := by
  obtain ⟨_, r₁, ho, h⟩ := bind_eq_ok h
  obtain ⟨b, r₂, hp, h⟩ := bind_eq_ok h
  obtain ⟨_, r₃, hc, h⟩ := bind_eq_ok h
  cases h
  obtain ⟨s, rfl⟩ : ∃ s, ts = ⟨.opening d, s⟩ :: r₁ := by
    unfold opening at ho
    split at ho
    · split at ho <;> cases ho
      subst ‹d = _›
      exact ⟨_, rfl⟩
    · cases ho
  obtain ⟨d', s', rfl⟩ : ∃ d' s', r₂ = ⟨.closing d', s'⟩ :: r := by
    unfold closing at hc
    split at hc <;> cases hc
    exact ⟨_, _, rfl⟩
  exact ⟨s, r₁, d', s', rfl, hp⟩

theorem inside_eq_ok {d d' : Delimiter} {p : Reader α} {s s' : Span} {u r : List Placed} {a : α}
    (h : p u = .ok (a, ⟨.closing d', s'⟩ :: r)) :
    inside d p (⟨.opening d, s⟩ :: u) = .ok (a, r) := by
  simp only [inside, Bind.bind, StateT.bind, Except.bind, opening, if_true, h]
  rfl

/-- What was read as a pair of brackets. -/
theorem exists_of_unreadGroup {ts r : List Placed} {p : Phrase} (h : unreadGroup ts = .ok (p, r)) :
    ∃ d s a d' s', ts = ⟨.opening d, s⟩ :: (a ++ ⟨.closing d', s'⟩ :: r) ∧
      p = .bracketed d (.ofTokens (tokensOf a)) ∧
      splitClosing 0 (a ++ ⟨.closing d', s'⟩ :: r) = (a, ⟨.closing d', s'⟩ :: r) := by
  obtain ⟨d, r₁, hd, h⟩ := bind_eq_ok h
  obtain ⟨a, r₂, hi, h⟩ := bind_eq_ok h
  cases h
  obtain rfl : ts = r₁ := by
    unfold anyDelimiter at hd
    split at hd <;> cases hd
    rfl
  obtain ⟨s, ts', d', s', rfl, hu⟩ := exists_of_inside hi
  have hcut : splitClosing 0 ts' = (a, ⟨.closing d', s'⟩ :: r) := Except.ok.inj hu
  have hts : a ++ ⟨.closing d', s'⟩ :: r = ts' := by
    have := splitClosing_append 0 ts'
    rwa [hcut] at this
  exact ⟨d, s, a, d', s', by rw [hts], rfl, by rw [hts, hcut]⟩

theorem unreadGroup_eq_ok {d d' : Delimiter} {s s' : Span} {u a r : List Placed}
    (h : splitClosing 0 u = (a, ⟨.closing d', s'⟩ :: r)) :
    unreadGroup (⟨.opening d, s⟩ :: u) = .ok (.bracketed d (.ofTokens (tokensOf a)), r) := by
  have hi : inside d unread (⟨.opening d, s⟩ :: u) = .ok (a, r) :=
    inside_eq_ok (show Except.ok (splitClosing 0 u) = _ by rw [h])
  have run : unreadGroup (⟨.opening d, s⟩ :: u) = (inside d unread (⟨.opening d, s⟩ :: u)).bind
      fun v => .ok (.bracketed d (.ofTokens (tokensOf v.1)), v.2) := rfl
  rw [run, hi]
  rfl

/-! ## Repeated steps -/

/-- Steps are repeated up to a place where none is taken. -/
theorem many_ends {step : Reader (Option Phrase)} {P : List Placed → Prop}
    (h : ∀ ts r, step ts = .ok (none, r) → P r) {ts r : List Placed} {p : Phrase}
    (hr : many step ts = .ok (p, r)) : P r := by
  have fuelled (n : Nat) (ts : List Placed) (p : Phrase) (hr : manyFuel step n ts = .ok (p, r)) :
      P r := by
    induction n generalizing ts p with
    | zero => cases hr
    | succ n ih =>
      obtain ⟨o, s, ho, hr⟩ := bind_eq_ok hr
      cases o with
      | none =>
        cases hr
        exact h _ _ ho
      | some p =>
        obtain ⟨q, s', hq, hr⟩ := bind_eq_ok hr
        cases hr
        exact ih _ _ hq
  exact fuelled _ _ _ hr

/-! ## Lists -/

/-- Only behind the last item of a list the separator may be missing. -/
theorem listUntilFuel_separated {stop : List Placed → Bool} {sep : String}
    {item : Reader α} {n : Nat} {ts r : List Placed} {as : List (α × Bool)}
    (h : listUntilFuel stop sep item n ts = .ok (as, r)) : ∀ a ∈ as.dropLast, a.2 = true := by
  induction n generalizing ts as with
  | zero => cases h
  | succ n ih =>
    rw [listUntilFuel, ask_apply] at h
    split at h
    · cases h
      simp
    · obtain ⟨a, s, -, h⟩ := bind_eq_ok h
      rw [ask_apply] at h
      split at h
      · cases h
        simp
      · obtain ⟨_, s', -, h⟩ := bind_eq_ok h
        obtain ⟨as', s', has, h⟩ := bind_eq_ok h
        cases h
        intro b hb
        cases as' with
        | nil => simp at hb
        | cons a' as' =>
          rw [List.dropLast_cons_cons, List.mem_cons] at hb
          rcases hb with rfl | hb
          · rfl
          · exact ih has b hb

/-! ## Chains -/

theorem map_chainFuel (f : α → β) (stop : List Placed → Bool) (sep : String) (item : Reader α)
    (n : Nat) :
    (List.map fun a => (f a.1, a.2)) <$> chainFuel stop sep item n =
      chainFuel stop sep (f <$> item) n := by
  induction n with
  | zero => rfl
  | succ n ih =>
    unfold chainFuel
    rw [map_ask, ← ih]
    congr 1
    funext b
    cases b
    · simp only [Bool.false_eq_true, if_false, map_bind, bind_map_left]
      refine bind_congr fun a => bind_congr fun o => ?_
      cases o <;> simp
    · rfl

theorem map_chain (f : α → β) (stop : List Placed → Bool) (sep : String) (item : Reader α) :
    (List.map fun a => (f a.1, a.2)) <$> chain stop sep item = chain stop sep (f <$> item) :=
  funext fun ts => congrFun (map_chainFuel f stop sep item (ts.length + 1)) ts

/-- A chain without items ends where it starts. -/
theorem chain_nil {stop : List Placed → Bool} {sep : String} {item : Reader α} {ts r : List Placed}
    (h : chain stop sep item ts = .ok ([], r)) : stop ts = true ∧ r = ts := by
  rw [chain, chainFuel, ask_apply] at h
  split at h
  · cases h
    exact ⟨‹_›, rfl⟩
  · obtain ⟨a, s, -, h⟩ := bind_eq_ok h
    rw [op?_apply] at h
    split at h
    · obtain ⟨as, s', -, h⟩ := bind_eq_ok h
      cases h
    · cases h

/-- Only behind the last item of a chain the separator may be missing. -/
theorem chainFuel_separated {stop : List Placed → Bool} {sep : String} {item : Reader α} {n : Nat}
    {ts r : List Placed} {as : List (α × Bool)} (h : chainFuel stop sep item n ts = .ok (as, r)) :
    ∀ a ∈ as.dropLast, a.2 = true := by
  induction n generalizing ts as with
  | zero => cases h
  | succ n ih =>
    rw [chainFuel, ask_apply] at h
    split at h
    · cases h
      simp
    · obtain ⟨a, s, -, h⟩ := bind_eq_ok h
      rw [op?_apply] at h
      split at h
      · obtain ⟨as', s', has, h⟩ := bind_eq_ok h
        cases h
        intro b hb
        cases as' with
        | nil => simp at hb
        | cons a' as' =>
          rw [List.dropLast_cons_cons, List.mem_cons] at hb
          rcases hb with rfl | hb
          · rfl
          · exact ih has b hb
      · cases h
        simp

end Reader

end KeyedRecord.Source
