import KeyedRecord.Proofs.Source.EchoStatements
import KeyedRecord.Proofs.Source.Relexed
import KeyedRecord.Source.Item

/-!
# All levels echo

A level echoes where the one below it does.  Not every level takes a token before it asks for the
one below, so a print is read again with at least twice as many levels as it has tokens.

Principal results: `levels_echo`, and `anyType_again` for a whole print.
-/

set_option autoImplicit false

namespace KeyedRecord.Source

namespace Nesting

open Grammar

variable {g g' : Nesting} {K J : Nat}

theorem Echo.above (h : g.Echo g' K J) : g.above.Echo g'.above (min (K + 1) J) (K + 1) where
  le := min_le_left ..
  type plus _ hE _ := type_echo h (min_le_left ..) (min_le_right ..) hE plus
  expr _ _ := expr_echo h (min_le_left ..) (min_le_right ..)
  statement _ := statementExpr_echo h (min_le_left ..) (min_le_right ..)
  block _ := block_echo h
  bound rules _ hE _ := bound_echo h hE rules
  lifetimeBound rules ts b r hts hb := by
    change Grammar.bound g rules ts = _ at hb
    rw [Grammar.bound, Reader.ask_apply, if_pos hts] at hb
    obtain ⟨_, _, -, hb⟩ := Reader.bind_eq_ok hb
    cases hb
    rfl

/-- With no level left nothing is read, and nothing needs to echo. -/
theorem none_echo (g' : Nesting) (h : K ≤ J) : none.Echo g' K J where
  le := h
  type _ _ _ _ := .of_error fun _ _ h => by cases h
  expr _ _ := .of_error fun _ _ h => by cases h
  statement _ := .of_error fun _ _ h => by cases h
  block _ := .of_error fun _ _ h => by cases h
  bound _ _ _ _ := .of_error fun _ _ h => by cases h
  lifetimeBound _ _ _ _ _ h := by cases h

/-- A second run that has no level left is never asked. -/
theorem Echo.short (h : g.Echo g' K J) : g.Echo none 0 0 where
  le := le_rfl
  type plus E hE ts := ((h.type plus E hE ts).mono (Nat.zero_le _) (fun _ => id) fun _ _ _ _ =>
    id).of_short le_rfl
  expr b ts := ((h.expr b ts).mono (Nat.zero_le _) (fun _ => id) fun _ _ _ _ => id).of_short le_rfl
  statement ts := ((h.statement ts).mono (Nat.zero_le _) (fun _ => id) fun _ _ _ _ =>
    id).of_short le_rfl
  block ts := ((h.block ts).mono (Nat.zero_le _) (fun _ => id) fun _ _ _ _ => id).of_short le_rfl
  bound rules E hE ts := ((h.bound rules E hE ts).mono (Nat.zero_le _) (fun _ => id) fun _ _ _ _ =>
    id).of_short le_rfl
  lifetimeBound := h.lifetimeBound

/-- **Every level echoes**, as far as the levels of the second run reach. -/
theorem levels_echo (n m : Nat) : (levels n).Echo (levels m) (m / 2) ((m + 1) / 2) := by
  induction n generalizing m with
  | zero => exact none_echo _ (by omega)
  | succ n ih =>
    cases m with
    | zero => exact (ih 0).above.short
    | succ m =>
      have := (ih m).above
      rwa [show min (m / 2 + 1) ((m + 1) / 2) = (m + 1) / 2
        by omega, show m / 2 + 1 = (m + 1 + 1) / 2 by omega] at this

/-- **What was read as a type reads from its print as the same type, and nothing is left.** -/
theorem anyType_again {n : Nat} {ts r : List Placed} {p : Phrase} (hs : Sound (tokensOf ts))
    (h : (levels n).anyType ts = .ok (p, r)) :
    Fit p.printed ∧ ∀ us, tokensOf us = p.printed → readType us = .ok (p.canonical, []) := by
  have again (m : Nat) : EchoAt _ _ _ _ _ _ _ ts :=
    (levels_echo n m).anyType (E := fun _ w => w = []) fun _ _ hw => by
    subst hw
    exact .of_ends rfl
  obtain ⟨-, out, ho, hfit, -⟩ := again 0 hs p r h
  obtain rfl : p.printed = out := ho
  refine ⟨hfit, fun us hus => ?_⟩
  have hlen : us.length = p.printed.length := by rw [← hus, tokensOf, List.length_map]
  obtain ⟨-, out, ho, -, hq⟩ := again (3 * us.length + 3) hs p r h
  obtain rfl : p.printed = out := ho
  obtain ⟨-, hq⟩ := hq us [] hus rfl
  rw [List.append_nil] at hq
  exact hq (show p.printed.length < _ by omega)

end Nesting

end KeyedRecord.Source
