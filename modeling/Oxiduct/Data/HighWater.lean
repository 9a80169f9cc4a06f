import Oxiduct.Data.Log

/-!
This module contains sticky warnings on logs: a flag is raised, with a warning, by the first admission
that brings a level near its limit, and is lowered when the period of occupation it belongs to ends.
-/

namespace Log

variable {α : Type u}

def Reaches (admits : α → Prop) (near : List α → Prop) (pre : List α) (e : α) : Prop :=
  admits e ∧ near (pre ++ [e])

structure HighWater (occupied : List α → Prop) (admits warns : α → Prop) (near : List α → Prop)
    (flag : Prop) (log : List α) : Prop where
  warned : flag ↔ Since occupied (fun _ => warns) log
  reached : flag ↔ Since occupied (Reaches admits near) log
  raised : near log → flag
  exact : Each (fun pre e =>
    warns e ↔ Reaches admits near pre e ∧ ¬ Since occupied (Reaches admits near) pre) log
  once : Each (fun pre e => warns e → ¬ Since occupied (fun _ => warns) pre) log

namespace HighWater

variable {occupied : List α → Prop} {admits warns : α → Prop} {near : List α → Prop}
variable {flag flag' : Prop} {log : List α} {x : α}

theorem nil (hflag : ¬ flag) (hnear : ¬ near [])
    : HighWater occupied admits warns near flag [] where
  warned := by simp [hflag]
  reached := by simp [hflag]
  raised h := absurd h hnear
  exact := each_nil
  once := each_nil

theorem concat (h : HighWater occupied admits warns near flag log)
    (hwarns : warns x ↔ Reaches admits near log x ∧ ¬ flag)
    (hfalls : ¬ admits x → near (log ++ [x]) → near log)
    (hoccupied : near (log ++ [x]) → occupied (log ++ [x]))
    (hflag : flag' ↔ occupied (log ++ [x]) ∧ (flag ∨ warns x))
    : HighWater occupied admits warns near flag' (log ++ [x]) where
  warned := by
    rw [hflag, since_concat, ← h.warned, or_comm]
  reached := by
    rw [hflag, since_concat, ← h.reached, hwarns]
    by_cases hset : flag <;> simp [hset]
  raised hnear := by
    rw [hflag, hwarns]
    refine ⟨hoccupied hnear, ?_⟩
    by_cases hadmits : admits x
    . by_cases hset : flag
      . exact .inl hset
      . exact .inr ⟨⟨hadmits, hnear⟩, hset⟩
    . exact .inl (h.raised (hfalls hadmits hnear))
  exact := by
    rw [each_concat, ← h.reached]
    exact ⟨h.exact, hwarns⟩
  once := by
    rw [each_concat, ← h.warned, hwarns]
    exact ⟨h.once, And.right⟩

end HighWater
end Log
