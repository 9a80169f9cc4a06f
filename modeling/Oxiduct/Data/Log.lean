import Mathlib.Data.List.Infix
import Mathlib.Tactic.Common

/-!
This module contains the past-time operators on append-only logs: what holds at each entry given the
entries before it, what held once, and what has held ever since. Each operator comes with the rule
for appending one entry. It also contains the lists that are drawn from such a log, in its order.
-/

namespace Log

variable {α : Type u}

def Each (p : List α → α → Prop) (log : List α) : Prop :=
  ∀ pre e post, log = pre ++ e :: post → p pre e

/--
At some entry `p` held, and after it and every later entry `q` held.
-/
def Since (q : List α → Prop) (p : List α → α → Prop) (log : List α) : Prop :=
  ∃ pre e post, log = pre ++ e :: post ∧ p pre e
    ∧ ∀ post', post' <+: post → q (pre ++ e :: post')

abbrev Once (p : List α → α → Prop) (log : List α) : Prop :=
  Since (fun _ => True) p log

variable {p : List α → α → Prop} {q : List α → Prop} {log : List α} {x : α}

theorem concat_eq_append_cons_iff {pre post : List α} {e : α}
    : log ++ [x] = pre ++ e :: post
        ↔
      (pre = log ∧ e = x ∧ post = []) ∨ ∃ post', log = pre ++ e :: post' ∧ post = post' ++ [x] := by
  constructor
  . intro h
    rcases List.eq_nil_or_concat post with rfl | ⟨post', y, rfl⟩
    . rcases List.append_inj' h rfl with ⟨hpre, he⟩
      exact .inl ⟨hpre.symm, (List.singleton_inj.mp he).symm, rfl⟩
    . have h : log ++ [x] = (pre ++ e :: post') ++ [y] := by simpa using h
      rcases List.append_inj' h rfl with ⟨hpre, he⟩
      exact .inr ⟨post', hpre, by simp [List.singleton_inj.mp he]⟩
  . rintro (⟨rfl, rfl, rfl⟩ | ⟨post', rfl, rfl⟩) <;> simp

@[simp]
theorem each_nil : Each p [] := by
  intro pre e post h
  simp at h

@[simp]
theorem each_concat : Each p (log ++ [x]) ↔ Each p log ∧ p log x := by
  simp only [Each, concat_eq_append_cons_iff]
  constructor
  . intro h
    constructor
    . intro pre e post hlog
      exact h pre e (post ++ [x]) (.inr ⟨post, hlog, rfl⟩)
    . exact h log x [] (.inl ⟨rfl, rfl, rfl⟩)
  . rintro ⟨hlog, hx⟩ pre e post (⟨rfl, rfl, rfl⟩ | ⟨post', hsplit, rfl⟩)
    . exact hx
    . exact hlog pre e post' hsplit

@[simp]
theorem since_nil : ¬ Since q p [] := by
  rintro ⟨pre, e, post, h, _⟩
  simp at h

theorem Since.now (h : Since q p log) : q log := by
  rcases h with ⟨pre, e, post, rfl, _, hq⟩
  apply hq post (List.prefix_refl post)

@[simp]
theorem since_concat : Since q p (log ++ [x]) ↔ q (log ++ [x]) ∧ (p log x ∨ Since q p log) := by
  constructor
  . intro h
    refine ⟨h.now, ?_⟩
    rcases h with ⟨pre, e, post, hlog, hp, hq⟩
    rcases concat_eq_append_cons_iff.mp hlog with ⟨rfl, rfl, _⟩ | ⟨post', hsplit, rfl⟩
    . exact .inl hp
    . refine .inr ⟨pre, e, post', hsplit, hp, ?_⟩
      intro post'' hpre
      exact hq post'' (hpre.trans (List.prefix_append ..))
  . rintro ⟨hnow, hp | ⟨pre, e, post, rfl, hp, hq⟩⟩
    . refine ⟨log, x, [], rfl, hp, ?_⟩
      intro post' hpre
      rwa [List.prefix_nil.mp hpre]
    . refine ⟨pre, e, post ++ [x], by simp, hp, ?_⟩
      intro post' hpre
      rcases List.prefix_concat_iff.mp hpre with rfl | hpre
      . simpa using hnow
      . exact hq post' hpre

/--
`xs` are entries of the log from the positions in `[lo, hi)`, in their order and none of them twice.
-/
def Drawn (log : List α) (lo hi : Nat) (xs : List α) : Prop :=
  ∃ positions : List Nat, positions.Pairwise (· < ·)
    ∧ (∀ i ∈ positions, lo ≤ i ∧ i < hi)
    ∧ positions.map (log[·]?) = xs.map some

variable {lo hi : Nat} {xs ys : List α}

theorem drawn_nil (log : List α) (lo hi : Nat) : Drawn log lo hi [] :=
  ⟨[], .nil, by simp, rfl⟩

namespace Drawn

theorem sublist (h : Drawn log lo hi xs) (hsub : ys.Sublist xs) : Drawn log lo hi ys := by
  rcases h with ⟨positions, hsorted, hbounds, hmap⟩
  have hsub := hsub.map some
  rw [← hmap] at hsub
  rcases List.sublist_map_iff.mp hsub with ⟨positions', hsub', hmap'⟩
  refine ⟨positions', hsorted.sublist hsub', ?_, hmap'.symm⟩
  intro i hmem
  apply hbounds i (hsub'.subset hmem)

theorem mono {hi' : Nat} (h : Drawn log lo hi xs) (hle : hi ≤ hi') : Drawn log lo hi' xs := by
  rcases h with ⟨positions, hsorted, hbounds, hmap⟩
  refine ⟨positions, hsorted, ?_, hmap⟩
  intro i hmem
  have := hbounds i hmem
  omega

theorem append (h : Drawn log lo hi xs) (post : List α) : Drawn (log ++ post) lo hi xs := by
  rcases h with ⟨positions, hsorted, hbounds, hmap⟩
  refine ⟨positions, hsorted, hbounds, ?_⟩
  rw [← hmap, List.map_inj_left]
  intro i hmem
  have hsome : log[i]? ∈ xs.map some := by
    rw [← hmap]
    apply List.mem_map_of_mem hmem
  rcases List.mem_map.mp hsome with ⟨x, _, hx⟩
  have hlt := (List.getElem?_eq_some_iff.mp hx.symm).1
  apply List.getElem?_append_left hlt

theorem concat {n : Nat} (h : Drawn log lo n xs) (hle : lo ≤ n) (hx : log[n]? = some x)
    : Drawn log lo (n + 1) (xs ++ [x]) := by
  rcases h with ⟨positions, hsorted, hbounds, hmap⟩
  refine ⟨positions ++ [n], ?_, ?_, ?_⟩
  . rw [List.pairwise_append]
    refine ⟨hsorted, List.pairwise_singleton .., ?_⟩
    intro i hmem j hj
    rw [List.mem_singleton.mp hj]
    apply (hbounds i hmem).2
  . intro i hmem
    rcases List.mem_append.mp hmem with hmem | hmem
    . have := hbounds i hmem
      omega
    . rw [List.mem_singleton.mp hmem]
      omega
  . rw [List.map_append, hmap, List.map_append, List.map_singleton, hx]
    rfl

end Drawn

end Log
