import Oxiduct.Machine.Basic

/-!
This module contains what some of a machine's steps can bring about on their own. Goals compose: a
step, a second goal reached from the first, one goal for every element of a list. What a part of a
machine can reach, the whole can reach.
-/

namespace Machine

variable {σ : Type u} {ι : Type v} {m : Machine σ ι}

variable (m) in
def CanReach (own : ι → Bool) (s : σ) (goal : σ → Prop) : Prop :=
  ∃ ls, m.Runs s ls ∧ ls.all own = true ∧ goal (m.exec s ls)

namespace CanReach

variable {own : ι → Bool} {s : σ} {goal goal' : σ → Prop}

theorem refl (h : goal s) : m.CanReach own s goal :=
  ⟨[], trivial, rfl, h⟩

theorem trans (h : m.CanReach own s goal) (h' : ∀ t, goal t → m.CanReach own t goal')
    : m.CanReach own s goal' := by
  rcases h with ⟨ls, hruns, hall, hgoal⟩
  rcases h' _ hgoal with ⟨ls', hruns', hall', hgoal'⟩
  refine ⟨ls ++ ls', ?_, ?_, ?_⟩
  . rw [runs_append]
    exact ⟨hruns, hruns'⟩
  . rw [List.all_append, hall, hall']
    rfl
  . rw [exec_append]
    exact hgoal'

theorem step {l : ι} (hguard : m.guard s l) (hown : own l = true)
    (h : m.CanReach own (m.effect s l) goal)
    : m.CanReach own s goal := by
  rcases h with ⟨ls, hruns, hall, hgoal⟩
  refine ⟨l :: ls, ⟨hguard, hruns⟩, ?_, hgoal⟩
  rw [List.all_cons, hown, hall]
  rfl

theorem mono {own' : ι → Bool} (h : m.CanReach own s goal)
    (hown : ∀ l, own l = true → own' l = true) (hgoal : ∀ t, goal t → goal' t)
    : m.CanReach own' s goal' := by
  rcases h with ⟨ls, hruns, hall, hlast⟩
  refine ⟨ls, hruns, ?_, hgoal _ hlast⟩
  rw [List.all_eq_true] at hall ⊢
  exact fun l hl => hown l (hall l hl)

theorem of_measure (inv : σ → Prop) (μ : σ → Nat)
    (hstep : ∀ s, inv s → ¬ goal s →
      ∃ l, m.guard s l ∧ own l = true ∧ inv (m.effect s l) ∧ μ (m.effect s l) < μ s)
    (hs : inv s)
    : m.CanReach own s fun t => inv t ∧ goal t := by
  rcases exists_run_of_measure inv goal own μ hstep hs with ⟨ls, hruns, hall, hinv, hgoal⟩
  exact ⟨ls, hruns, hall, hinv, hgoal⟩

theorem exec_own {p : σ → Prop} {ls : List ι}
    (hstep : ∀ s l, p s → m.guard s l → own l = true → p (m.effect s l)) (hp : p s)
    (hruns : m.Runs s ls) (hall : ls.all own = true)
    : p (m.exec s ls) := by
  induction ls generalizing s with
  | nil => exact hp
  | cons l ls ih =>
    rw [List.all_cons, Bool.and_eq_true] at hall
    exact ih (hstep s l hp hruns.1 hall.1) hruns.2 hall.2

theorem forall_mem {α : Type w} (inv : σ → Prop) (p : α → σ → Prop) (as : List α)
    (hinv : ∀ s l, inv s → m.guard s l → own l = true → inv (m.effect s l))
    (hkeep : ∀ a s l, inv s ∧ p a s → m.guard s l → own l = true → p a (m.effect s l))
    (hreach : ∀ s, inv s → ∀ a ∈ as, m.CanReach own s (p a)) (hs : inv s)
    : m.CanReach own s fun t => inv t ∧ ∀ a ∈ as, p a t := by
  induction as generalizing s with
  | nil => exact refl ⟨hs, by simp⟩
  | cons a as ih =>
    rcases hreach s hs a (List.mem_cons_self ..) with ⟨ls, hruns, hall, hpa⟩
    have ht := exec_own hinv hs hruns hall
    have hfirst : m.CanReach own s fun t => inv t ∧ p a t := ⟨ls, hruns, hall, ht, hpa⟩
    apply hfirst.trans
    rintro t ⟨ht, hpa⟩
    rcases ih (fun s hs a' ha' => hreach s hs a' (List.mem_cons_of_mem a ha')) ht with
      ⟨ls', hruns', hall', hlast⟩
    have hkept : inv (m.exec t ls') ∧ p a (m.exec t ls') := by
      refine exec_own (p := fun s => inv s ∧ p a s) ?_ ⟨ht, hpa⟩ hruns' hall'
      intro s l hs hguard hown
      exact ⟨hinv s l hs.1 hguard hown, hkeep a s l hs hguard hown⟩
    exact ⟨ls', hruns', hall', hlast.1, List.forall_mem_cons.mpr ⟨hkept.2, hlast.2⟩⟩

/--
A part of a machine: what its own steps reach, the whole reaches by the same steps, and keeps whatever
the relation says of the rest.
-/
theorem simulate {τ : Type u'} {κ : Type v'} {n : Machine τ κ} {part : κ → Bool}
    (rel : τ → σ → Prop) (lift : κ → ι) {t : τ} {goal : τ → Prop}
    (hstep : ∀ t s k, rel t s → part k = true → n.guard t k →
      m.guard s (lift k) ∧ own (lift k) = true ∧ rel (n.effect t k) (m.effect s (lift k)))
    (hrel : rel t s) (h : n.CanReach part t goal)
    : m.CanReach own s fun s' => ∃ t', rel t' s' ∧ goal t' := by
  rcases h with ⟨ks, hruns, hall, hgoal⟩
  induction ks generalizing t s with
  | nil => exact refl ⟨t, hrel, hgoal⟩
  | cons k ks ih =>
    rw [List.all_cons, Bool.and_eq_true] at hall
    rcases hstep t s k hrel hall.1 hruns.1 with ⟨hguard, hown, hnext⟩
    exact step hguard hown (ih hnext hruns.2 hall.2 hgoal)

end CanReach
end Machine
