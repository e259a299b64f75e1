import KeyedRecord.Proofs.Source.Echo

/-!
# Repetitions echo

Lists with separators, chains and repeated steps echo if their items do.  A second run counts the
tokens of the print, and every round takes one of them, so the bound on the length of the print
bounds the rounds as well.

Principal results: `EchoAt.listUntil`, `EchoAt.chain` and `EchoAt.many`.
-/

set_option autoImplicit false

namespace KeyedRecord.Source

namespace Phrase

theorem printed_separated (sep : String) (items : List (Phrase × Bool)) :
    (separated sep items).printed = (Form.list sep .phrase).tokens items := by
  induction items with
  | nil => rfl
  | cons i items ih =>
    obtain ⟨p, more⟩ := i
    have hcons : (separated sep ((p, more) :: items)).printed =
        (if more then p ++ operator sep else p).printed ++ (separated sep items).printed := rfl
    rw [hcons, ih]
    cases more <;> simp [Form.list, Form.phrase]

theorem canonical_separated (sep : String) (items : List (Phrase × Bool)) :
    (separated sep items).canonical = separated sep ((Form.list sep .phrase).canon items) := by
  induction items with
  | nil => rfl
  | cons i items ih =>
    obtain ⟨p, more⟩ := i
    have hcons (p : Phrase) (items : List (Phrase × Bool)) : separated sep ((p, more) :: items) =
        (if more then p ++ operator sep else p) ++ separated sep items := rfl
    rw [hcons, canonical_append, ih]
    cases more <;> rfl

end Phrase

namespace EchoAt

variable {α : Type} {L : Nat} {F : Form α} {pre : List Token} {S : Sight} {E : α → Sight}
  {ts : List Placed}

/-- A second run that is longer than the bound need not be right. -/
theorem of_short {p q q' : Reader α} (h : EchoAt L F pre S E p q' ts) (hL : L ≤ pre.length) :
    EchoAt L F pre S E p q ts := by
  intro hs a r hp
  obtain ⟨hr, out, ho, hf, h⟩ := h hs a r hp
  refine ⟨hr, out, ho, hf, fun us w hu he => ⟨(h us w hu he).1, fun hl => ?_⟩⟩
  rw [ho, List.length_append] at hl
  omega

/-- With no round left there is no bound to meet. -/
theorem rounds_from {p : Reader α} {k : Nat → Reader α}
    (h : ∀ m, EchoAt (min L (m + 1 + pre.length)) F pre S E p (k (m + 1)) ts) (m : Nat) :
    EchoAt (min L (m + pre.length)) F pre S E p (k m) ts := by
  cases m with
  | zero => exact ((h 0).mono (by omega) (fun _ => id) fun _ _ _ _ => id).of_short (by omega)
  | succ m => exact h m

/-- Readers that go on from what was read, and count what is left to read. -/
theorem counted_from {f k : Nat → Reader α}
    (h : ∀ n m, EchoAt (min L (m + pre.length)) F pre S E (f n) (k m) ts) :
    EchoAt L F pre S E (fun ts => f (ts.length + 1) ts) (fun ts => k (ts.length + 1) ts) ts := by
  intro hs a r hp
  obtain ⟨hr, out, ho, hf, -⟩ := h (ts.length + 1) 0 hs a r hp
  refine ⟨hr, out, ho, hf, fun us w hu he => ?_⟩
  obtain ⟨-, out', ho', -, h⟩ := h (ts.length + 1) ((us ++ w).length + 1) hs a r hp
  obtain rfl : out' = out := List.append_cancel_left (ho'.symm.trans ho)
  obtain ⟨hS, hq⟩ := h us w hu he
  refine ⟨hS, fun hl => hq (lt_min hl ?_)⟩
  have : us.length = out'.length := by rw [← hu, tokensOf, List.length_map]
  rw [ho, List.length_append, List.length_append]
  omega

/-- With no round left there is no bound to meet. -/
theorem rounds {p : Reader α} {k : Nat → Reader α}
    (h : ∀ m, EchoAt (min L (m + 1)) F [] S E p (k (m + 1)) ts) (m : Nat) :
    EchoAt (min L m) F [] S E p (k m) ts :=
  rounds_from h m

/-- Readers that count what is left to read. -/
theorem counted {f k : Nat → Reader α} (h : ∀ n m, EchoAt (min L m) F [] S E (f n) (k m) ts) :
    EchoAt L F [] S E (fun ts => f (ts.length + 1) ts) (fun ts => k (ts.length + 1) ts) ts :=
  counted_from h

/-! ## Lists -/

section Lists

variable {item item' : Reader α} {stop : List Placed → Bool} {sep : String} {I Z : Sight}
  {H : α → Sight}

theorem listUntilFuel (hs : IsOperatorText sep.toList)
    (hitem : ∀ ts, EchoAt L F [] I H item item' ts)
    (hI : ∀ ts u, I ts u → stop ts = false → stop u = false)
    (hZ : ∀ ts u, Z ts u → stop ts = true → stop u = true) (hZI : ∀ a ts u, Z ts u → H a ts u)
    (hsep : ∀ a ts u, stop ts = false → OnOperator sep .any ts u → stop u = false ∧ H a ts u)
    (n m : Nat) (ts : List Placed) :
    EchoAt (min L m) (.list sep F) [] (fun ts u => I ts u ∨ Z ts u) (fun _ => Z)
      (Reader.listUntilFuel stop sep item n) (Reader.listUntilFuel stop sep item' m) ts := by
  induction n generalizing m ts with
  | zero => exact failWith _
  | succ n ih =>
    refine rounds (fun m => ?_) m
    have hpos : 0 < (operatorTokens sep.toList).length := by
      rw [length_operatorTokens]
      exact List.length_pos_of_ne_nil hs.1
    unfold Reader.listUntilFuel
    refine ask (Y := Z) (N := I) (fun _ => pure rfl rfl fun _ h => h) (fun hts => ?_)
      (fun hts u h => ⟨hZ _ _ h hts, .inr h⟩) (fun hts u h => ⟨hI _ _ h hts, .inl h⟩)
    refine bind (M := fun a ts u => stop u = stop ts ∧ H a ts u) (Nat.le_add_right _ _)
      ((hitem ts).mono (min_le_left ..) (fun _ => id) fun a r w _ h => h.2) fun a r _ => ?_
    refine ask (Y := Z) (N := OnOperator sep .any)
      (fun _ => pure (by simp [Form.list]) rfl fun _ h => h) (fun hr => ?_)
      (fun hr u h => ?_) (fun hr u h => ?_)
    · refine op_then hs fun _ => ?_
      exact bind (D := min L m) (by simp; omega) ((ih m _).weaken fun _ _ => trivial)
        fun as _ _ => pure (by simp [Form.list]) rfl fun _ h => h
    · have := hZ _ _ h hr
      exact ⟨this, by rw [this, hr], hZI a _ _ h⟩
    · obtain ⟨h₁, h₂⟩ := hsep a _ _ hr h
      exact ⟨h₁, by rw [h₁, hr], h₂⟩

theorem listUntil (hs : IsOperatorText sep.toList) (hitem : ∀ ts, EchoAt L F [] I H item item' ts)
    (hI : ∀ ts u, I ts u → stop ts = false → stop u = false)
    (hZ : ∀ ts u, Z ts u → stop ts = true → stop u = true) (hZI : ∀ a ts u, Z ts u → H a ts u)
    (hsep : ∀ a ts u, stop ts = false → OnOperator sep .any ts u → stop u = false ∧ H a ts u) :
    EchoAt L (.list sep F) [] (fun ts u => I ts u ∨ Z ts u) (fun _ => Z)
      (Reader.listUntil stop sep item) (Reader.listUntil stop sep item') ts :=
  counted fun n m => listUntilFuel hs hitem hI hZ hZI hsep n m ts

theorem chainFuel (hs : IsOperatorText sep.toList)
    (hitem : ∀ ts, stop ts = false → EchoAt L F [] I H item item' ts)
    (hI : ∀ ts u, I ts u → stop ts = false → stop u = false)
    (hZ : ∀ ts u, Z ts u → stop ts = true → stop u = true)
    (hZsep : ∀ ts u, Z ts u → Front.op sep ts = false → Front.op sep u = false)
    (hZI : ∀ a ts u, Z ts u → H a ts u) (hsep : ∀ a ts u, OnOperator sep .any ts u → H a ts u)
    (n m : Nat) (ts : List Placed) :
    EchoAt (min L m) (.list sep F) [] (fun ts u => I ts u ∨ Z ts u) (fun _ => Z)
      (Reader.chainFuel stop sep item n) (Reader.chainFuel stop sep item' m) ts := by
  induction n generalizing m ts with
  | zero => exact failWith _
  | succ n ih =>
    refine rounds (fun m => ?_) m
    have hpos : 0 < (operatorTokens sep.toList).length := by
      rw [length_operatorTokens]
      exact List.length_pos_of_ne_nil hs.1
    unfold Reader.chainFuel
    refine ask (Y := Z) (N := I) (fun _ => pure rfl rfl fun _ h => h) (fun hts => ?_)
      (fun hts u h => ⟨hZ _ _ h hts, .inr h⟩) (fun hts u h => ⟨hI _ _ h hts, .inl h⟩)
    refine bind (M := H) (Nat.le_add_right _ _)
      ((hitem ts hts).mono (min_le_left ..) (fun _ => id) fun _ _ _ _ => id) fun a r _ => ?_
    refine op? (N := Z) (M := .any) hs (fun _ => ?_)
      (fun _ => pure (by simp [Form.list]) rfl fun _ h => h) (fun u h => hsep a _ _ h)
      (fun hr u h => ⟨hZsep _ _ h hr, hZI a _ _ h⟩)
    exact bind (D := min L m) (by simp; omega) ((ih m _).weaken fun _ _ => trivial)
      fun as _ _ => pure (by simp [Form.list]) rfl fun _ h => h

theorem chain (hs : IsOperatorText sep.toList)
    (hitem : ∀ ts, stop ts = false → EchoAt L F [] I H item item' ts)
    (hI : ∀ ts u, I ts u → stop ts = false → stop u = false)
    (hZ : ∀ ts u, Z ts u → stop ts = true → stop u = true)
    (hZsep : ∀ ts u, Z ts u → Front.op sep ts = false → Front.op sep u = false)
    (hZI : ∀ a ts u, Z ts u → H a ts u) (hsep : ∀ a ts u, OnOperator sep .any ts u → H a ts u) :
    EchoAt L (.list sep F) [] (fun ts u => I ts u ∨ Z ts u) (fun _ => Z)
      (Reader.chain stop sep item) (Reader.chain stop sep item') ts :=
  counted fun n m => chainFuel hs hitem hI hZ hZsep hZI hsep n m ts

end Lists

/-! ## Repeated steps -/

section Steps

variable {step step' : Reader (Option Phrase)} {R : Sight}

/-- A result that starts where nothing could end prints something. -/
theorem printed_ne {p q : Reader α} (h : EchoAt L F [] S E p q ts)
    (hs : Sound (tokensOf ts)) {a : α}
    {r : List Placed} (hp : p ts = .ok (a, r)) (hE : E a r []) (hS : ¬S ts []) :
      F.tokens a ≠ [] := by
  obtain ⟨-, out, ho, -, h⟩ := h hs a r hp
  rintro hnil
  obtain rfl : out = [] := by rw [← hnil]; exact ho.symm
  exact hS (h [] [] rfl hE).1

/-- One step, and what the repetition finds behind it. -/
theorem manyFuel_succ {n : Nat} (hstep : EchoAt L (.option .phrase) [] R (fun _ => R) step step' ts)
    (hne : ∀ p r, Sound (tokensOf ts) → step ts = .ok (some p, r) → p.printed ≠ [])
    (ih : ∀ m ts, EchoAt (min L m) .phrase [] R (fun _ => R) (Reader.manyFuel step n)
      (Reader.manyFuel step' m) ts) (m : Nat) :
    EchoAt (min L m) .phrase [] R (fun _ => R) (Reader.manyFuel step (n + 1))
      (Reader.manyFuel step' m)
      ts := by
  refine rounds (fun m => ?_) m
  unfold Reader.manyFuel
  refine of_sound fun hsound => ?_
  refine bind (Nat.le_add_right _ _) (hstep.mono (min_le_left ..) (fun _ => id)
    fun _ _ _ _ => id) fun o r ho => ?_
  cases o with
  | none => exact pure rfl rfl fun _ h => h
  | some p =>
    have hpos : 0 < p.printed.length := List.length_pos_of_ne_nil (hne p r hsound ho)
    refine bind (D := min L m) ?_ (ih m r) fun q _ _ =>
      pure (by simp [Form.phrase, Form.option]) rfl fun _ h => h
    simp only [Form.option, Form.phrase, List.nil_append, Option.map_some, Option.getD_some]
    omega

theorem manyFuel (hstep : ∀ ts, EchoAt L (.option .phrase) [] R (fun _ => R) step step' ts)
    (hne : ∀ ts p r, Sound (tokensOf ts) → step ts = .ok (some p, r) → p.printed ≠ [])
    (n m : Nat) (ts : List Placed) :
    EchoAt (min L m) .phrase [] R (fun _ => R) (Reader.manyFuel step n) (Reader.manyFuel step' m)
      ts := by
  induction n generalizing m ts with
  | zero => exact failWith _
  | succ n ih => exact manyFuel_succ (hstep ts) (hne ts) ih m

theorem many (hstep : ∀ ts, EchoAt L (.option .phrase) [] R (fun _ => R) step step' ts)
    (hne : ∀ ts p r, Sound (tokensOf ts) → step ts = .ok (some p, r) → p.printed ≠ []) :
    EchoAt L .phrase [] R (fun _ => R) (Reader.many step) (Reader.many step') ts :=
  counted fun n m => manyFuel hstep hne n m ts

end Steps

end EchoAt

end KeyedRecord.Source
