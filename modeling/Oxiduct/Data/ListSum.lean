import Mathlib.Algebra.BigOperators.Group.List.Basic
import Mathlib.Algebra.Ring.Nat
import Mathlib.Data.Multiset.AddSub
import Mathlib.Data.Nat.Cast.Defs

/-!
This module contains sums over a list of which one entry is replaced. They are how the resources of a
growing list of tasks are accounted for when one task moves.
-/

namespace List

variable {α : Type u} {M : Type v} [AddCommMonoid M]

theorem exists_sum_map_set {l : List α} {i : Nat} {a : α} (f : α → M) (h : l[i]? = some a)
    : ∃ rest, (l.map f).sum = f a + rest ∧ ∀ b, ((l.set i b).map f).sum = f b + rest := by
  rcases List.getElem?_eq_some_iff.mp h with ⟨hlt, hget⟩
  have hafter : ∀ b, ((l.set i b).map f).sum
      = f b + (((l.map f).take i).sum + ((l.map f).drop (i + 1)).sum) := by
    intro b
    rw [map_set, sum_set, if_pos (by simpa using hlt)]
    rw [add_comm (List.sum _) (f b), add_assoc]
  refine ⟨_, ?_, hafter⟩
  rw [← hafter a, ← hget, List.set_getElem_self]

theorem map_set_of_eq {β : Type w} {f : α → β} {l : List α} {i : Nat} {a b : α}
    (h : l[i]? = some a) (hf : f b = f a)
    : (l.set i b).map f = l.map f := by
  rcases List.getElem?_eq_some_iff.mp h with ⟨hlt, hget⟩
  rw [map_set, hf, ← hget, ← getElem_map f (h := by simpa using hlt)]
  exact set_getElem_self _

theorem mem_sum_map {β : Type w} {l : List α} {f : α → Multiset β} {b : β}
    : b ∈ (l.map f).sum ↔ ∃ a ∈ l, b ∈ f a := by
  induction l with
  | nil => simp
  | cons a l ih => simp [ih]

theorem sum_map_eq_countP {N : Type w} [AddCommMonoidWithOne N] {f : α → N} {p : α → Bool}
    {l : List α} (h : ∀ a ∈ l, f a = if p a then 1 else 0)
    : (l.map f).sum = (l.countP p : N) := by
  induction l with
  | nil => simp
  | cons a l ih =>
    rw [map_cons, sum_cons, ih fun b hb => h b (mem_cons_of_mem a hb), h a (mem_cons_self ..),
      countP_cons]
    split
    . rw [Nat.cast_add, Nat.cast_one, add_comm]
    . rw [zero_add, add_zero]

theorem map_sum_eq_countP (g : M →+ Nat) {f : α → M} {p : α → Bool} {l : List α}
    (h : ∀ a ∈ l, g (f a) = if p a then 1 else 0)
    : g (l.map f).sum = l.countP p := by
  rw [map_list_sum, map_map]
  exact sum_map_eq_countP h

theorem countP_set_add {p : α → Bool} {l : List α} {i : Nat} {a : α} (h : l[i]? = some a) (b : α)
    : (l.set i b).countP p + (if p a then 1 else 0) = l.countP p + if p b then 1 else 0 := by
  rcases List.getElem?_eq_some_iff.mp h with ⟨hlt, hget⟩
  have hpos : p a = true → 0 < l.countP p :=
    fun ha => countP_pos_iff.mpr ⟨a, mem_of_getElem? h, ha⟩
  rw [countP_set hlt, hget]
  cases ha : p a with
  | false => simp
  | true =>
    have := hpos ha
    simp only [if_true]
    omega

theorem countP_set_lt {p : α → Bool} {l : List α} {i : Nat} {a b : α} (h : l[i]? = some a)
    (ha : p a = true) (hb : p b = false)
    : (l.set i b).countP p < l.countP p := by
  have := countP_set_add (p := p) h b
  rw [ha, hb] at this
  simp only [if_true, Bool.false_eq_true, if_false] at this
  omega

theorem sum_map_le_mul_countP {f : α → Nat} {p : α → Bool} {l : List α} {bound : Nat}
    (h : ∀ a ∈ l, f a ≤ if p a then bound else 0)
    : (l.map f).sum ≤ bound * l.countP p := by
  induction l with
  | nil => exact Nat.zero_le _
  | cons a l ih =>
    have hhead := h a (mem_cons_self ..)
    have htail := ih fun b hb => h b (mem_cons_of_mem a hb)
    rw [map_cons, sum_cons, countP_cons, Nat.mul_add]
    split
    . next ha =>
      rw [if_pos ha] at hhead
      omega
    . next ha =>
      rw [if_neg ha] at hhead
      omega

end List
