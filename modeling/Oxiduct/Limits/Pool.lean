import Mathlib.Data.Multiset.Count
import Mathlib.Tactic.Common

/-!
This module contains the abstract model of a slot limiter: the multiset of the keys of the slots in
use, and what a cap on all slots and a cap per key admit. Nothing here counts or stores anything.
-/

/--
Both caps use 0 for "no limit".
-/
structure Caps where
  total : Nat
  perKey : Nat

namespace Caps

inductive Refusal where
  | total
  | perKey
  deriving DecidableEq, Repr

variable {κ : Type u} [DecidableEq κ]

def refusal (caps : Caps) (live : Multiset κ) (key : κ) : Option Refusal :=
  if 0 < caps.total ∧ caps.total ≤ live.card then
    some .total
  else if 0 < caps.perKey ∧ caps.perKey ≤ live.count key then
    some .perKey
  else
    none

structure Within (caps : Caps) (live : Multiset κ) : Prop where
  total : 0 < caps.total → live.card ≤ caps.total
  perKey : 0 < caps.perKey → ∀ key, live.count key ≤ caps.perKey

theorem within_zero (caps : Caps) : caps.Within (0 : Multiset κ) := by
  constructor <;> simp

theorem refusal_eq_none_iff {caps : Caps} {live : Multiset κ} {key : κ}
    : caps.refusal live key = none
        ↔
      (0 < caps.total → live.card < caps.total)
        ∧ (0 < caps.perKey → live.count key < caps.perKey) := by
  unfold refusal
  split
  . simp
    omega
  . split
    . simp
      omega
    . simp
      omega

namespace Within

variable {caps : Caps} {live : Multiset κ} {key : κ}

theorem cons (h : caps.Within live) (hgrant : caps.refusal live key = none)
    : caps.Within (key ::ₘ live) := by
  rw [refusal_eq_none_iff] at hgrant
  constructor
  . intro hpos
    have := hgrant.1 hpos
    rw [Multiset.card_cons]
    omega
  . intro hpos key'
    by_cases heq : key' = key
    . subst heq
      rw [Multiset.count_cons_self]
      have := hgrant.2 hpos
      omega
    . rw [Multiset.count_cons_of_ne heq]
      exact h.perKey hpos key'

theorem mono {live' : Multiset κ} (h : caps.Within live) (hle : live' ≤ live)
    : caps.Within live' := by
  constructor
  . intro hpos
    exact (Multiset.card_le_card hle).trans (h.total hpos)
  . intro hpos key
    exact (Multiset.count_le_of_le key hle).trans (h.perKey hpos key)

theorem refusal_eq_total_iff (h : caps.Within live) (key : κ)
    : caps.refusal live key = some .total ↔ 0 < caps.total ∧ live.card = caps.total := by
  have := h.total
  unfold refusal
  split
  . next hif => simp only [hif.1, true_and, true_iff]; omega
  . next hif =>
    split
    . simp
      omega
    . simp
      omega

theorem refusal_eq_perKey_iff (h : caps.Within live) (key : κ)
    : caps.refusal live key = some .perKey
        ↔
      ¬ (0 < caps.total ∧ live.card = caps.total)
        ∧ 0 < caps.perKey ∧ live.count key = caps.perKey := by
  have htotal := h.total
  have hperKey := fun hpos => h.perKey hpos key
  unfold refusal
  split
  . simp
    omega
  . split
    . next hif => simp only [hif.1, true_and, true_iff]; omega
    . simp
      omega

end Within
end Caps
