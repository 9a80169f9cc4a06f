import Mathlib.Data.List.Basic
import Mathlib.Tactic.Common

/-!
This module contains guarded-command machines: transition systems whose steps carry a guard and a
total effect. The states a run passes through are then determined by its labels alone, so that runs
are lists of labels and can be evaluated.
-/

structure Machine (σ : Type u) (ι : Type v) where
  guard : σ → ι → Prop
  effect : σ → ι → σ

namespace Machine

variable {σ : Type u} {ι : Type v} (m : Machine σ ι)

def exec (s : σ) : List ι → σ
  | [] => s
  | l :: ls => exec (m.effect s l) ls

def Steps (ok : σ → ι → Prop) (s : σ) : List ι → Prop
  | [] => True
  | l :: ls => ok s l ∧ Steps ok (m.effect s l) ls

def States (p : σ → Prop) (s : σ) : List ι → Prop
  | [] => p s
  | l :: ls => p s ∧ States p (m.effect s l) ls

def Runs (s : σ) (ls : List ι) : Prop :=
  m.Steps m.guard s ls

instance instDecidableSteps (ok : σ → ι → Prop) [∀ s l, Decidable (ok s l)]
    : ∀ (s : σ) (ls : List ι), Decidable (m.Steps ok s ls)
  | _, [] => .isTrue trivial
  | s, l :: ls =>
    have := instDecidableSteps ok (m.effect s l) ls
    inferInstanceAs (Decidable (ok s l ∧ m.Steps ok (m.effect s l) ls))

instance [∀ s l, Decidable (m.guard s l)] (s : σ) (ls : List ι) : Decidable (m.Runs s ls) :=
  m.instDecidableSteps m.guard s ls

inductive Reach (ok : σ → ι → Prop) (s₀ : σ) : σ → Prop where
  | refl : Reach ok s₀ s₀
  | step {s : σ} (l : ι) (hreach : Reach ok s₀ s) (hguard : m.guard s l) (hok : ok s l)
    : Reach ok s₀ (m.effect s l)

abbrev Reachable (s₀ s : σ) : Prop :=
  m.Reach (fun _ _ => True) s₀ s

variable {m}

@[simp]
theorem exec_nil (s : σ) : m.exec s [] = s := rfl

@[simp]
theorem exec_cons (s : σ) (l : ι) (ls : List ι)
    : m.exec s (l :: ls) = m.exec (m.effect s l) ls := rfl

theorem exec_append (s : σ) (ls ls' : List ι)
    : m.exec s (ls ++ ls') = m.exec (m.exec s ls) ls' := by
  induction ls generalizing s with
  | nil => rfl
  | cons l ls ih => simp [ih]

@[simp]
theorem steps_nil (ok : σ → ι → Prop) (s : σ) : m.Steps ok s [] := trivial

@[simp]
theorem steps_cons (ok : σ → ι → Prop) (s : σ) (l : ι) (ls : List ι)
    : m.Steps ok s (l :: ls) ↔ ok s l ∧ m.Steps ok (m.effect s l) ls := Iff.rfl

@[simp]
theorem runs_nil (s : σ) : m.Runs s [] := trivial

@[simp]
theorem runs_cons (s : σ) (l : ι) (ls : List ι)
    : m.Runs s (l :: ls) ↔ m.guard s l ∧ m.Runs (m.effect s l) ls := Iff.rfl

theorem steps_append (ok : σ → ι → Prop) (s : σ) (ls ls' : List ι)
    : m.Steps ok s (ls ++ ls') ↔ m.Steps ok s ls ∧ m.Steps ok (m.exec s ls) ls' := by
  induction ls generalizing s with
  | nil => simp
  | cons l ls ih => simp [ih, and_assoc]

theorem runs_append (s : σ) (ls ls' : List ι)
    : m.Runs s (ls ++ ls') ↔ m.Runs s ls ∧ m.Runs (m.exec s ls) ls' :=
  steps_append m.guard s ls ls'

namespace Reach

theorem invariant {ok : σ → ι → Prop} {s₀ s : σ} {p : σ → Prop} (hinit : p s₀)
    (hstep : ∀ s l, p s → m.guard s l → ok s l → p (m.effect s l)) (h : m.Reach ok s₀ s)
    : p s := by
  induction h with
  | refl => exact hinit
  | step l _ hguard hok ih => exact hstep _ l ih hguard hok

theorem mono {ok ok' : σ → ι → Prop} {s₀ s : σ} (himp : ∀ s l, ok s l → ok' s l)
    (h : m.Reach ok s₀ s)
    : m.Reach ok' s₀ s := by
  induction h with
  | refl => exact .refl
  | step l _ hguard hok ih => exact .step l ih hguard (himp _ l hok)

theorem exec {ok : σ → ι → Prop} {s₀ s : σ} {ls : List ι} (h : m.Reach ok s₀ s)
    (hruns : m.Runs s ls) (hok : m.Steps ok s ls)
    : m.Reach ok s₀ (m.exec s ls) := by
  induction ls generalizing s with
  | nil => exact h
  | cons l ls ih => exact ih (.step l h hruns.1 hok.1) hruns.2 hok.2

end Reach

theorem steps_true (s : σ) (ls : List ι) : m.Steps (fun _ _ => True) s ls := by
  induction ls generalizing s with
  | nil => trivial
  | cons l ls ih => exact ⟨trivial, ih _⟩

theorem Runs.reachable {s₀ : σ} {ls : List ι} (h : m.Runs s₀ ls)
    : m.Reachable s₀ (m.exec s₀ ls) :=
  Reach.refl.exec h (steps_true s₀ ls)

theorem States.head {p : σ → Prop} {s : σ} {ls : List ι} (h : m.States p s ls) : p s := by
  cases ls with
  | nil => exact h
  | cons => exact h.1

theorem States.last {p : σ → Prop} {s : σ} {ls : List ι} (h : m.States p s ls)
    : p (m.exec s ls) := by
  induction ls generalizing s with
  | nil => exact h
  | cons l ls ih => exact ih h.2

/--
The rule behind every exact condition on runs: when steps that meet `ok` keep `p` and the first
step that does not destroys it, the states of a run all meet `p` iff its steps all meet `ok`.
-/
theorem states_iff_steps {ok : σ → ι → Prop} (inv : σ → Prop) {p : σ → Prop}
    (hinv : ∀ s l, inv s → m.guard s l → inv (m.effect s l))
    (hkeep : ∀ s l, inv s → p s → m.guard s l → ok s l → p (m.effect s l))
    (hbreak : ∀ s l, inv s → p s → m.guard s l → p (m.effect s l) → ok s l)
    {s : σ} {ls : List ι} (hs : inv s) (hp : p s) (hruns : m.Runs s ls)
    : m.States p s ls ↔ m.Steps ok s ls := by
  induction ls generalizing s with
  | nil => simp [States, hp]
  | cons l ls ih =>
    have hs' := hinv s l hs hruns.1
    constructor
    . rintro ⟨_, hstates⟩
      have hok := hbreak s l hs hp hruns.1 hstates.head
      exact ⟨hok, (ih hs' hstates.head hruns.2).mp hstates⟩
    . rintro ⟨hok, hsteps⟩
      have hp' := hkeep s l hs hp hruns.1 hok
      exact ⟨hp, (ih hs' hp' hruns.2).mpr hsteps⟩

/--
The rule of bounded progress: when every step counted by `own` lowers the measure and no other step
raises it, a run takes at most as many counted steps as the measure allows.
-/
theorem countP_add_measure_le {ok : σ → ι → Prop} (inv : σ → Prop) (own : ι → Bool) (μ : σ → Nat)
    (hinv : ∀ s l, inv s → m.guard s l → ok s l → inv (m.effect s l))
    (hown : ∀ s l, inv s → m.guard s l → ok s l → own l → μ (m.effect s l) < μ s)
    (hother : ∀ s l, inv s → m.guard s l → ok s l → ¬ own l → μ (m.effect s l) ≤ μ s)
    {s : σ} {ls : List ι} (hs : inv s) (hruns : m.Runs s ls) (hok : m.Steps ok s ls)
    : ls.countP own + μ (m.exec s ls) ≤ μ s := by
  induction ls generalizing s with
  | nil => simp
  | cons l ls ih =>
    have := ih (hinv s l hs hruns.1 hok.1) hruns.2 hok.2
    rw [exec_cons]
    by_cases h : own l
    . have := hown s l hs hruns.1 hok.1 h
      rw [List.countP_cons_of_pos h]
      omega
    . have := hother s l hs hruns.1 hok.1 h
      rw [List.countP_cons_of_neg h]
      omega

/--
The rule of progress: when away from the goal some step of `own` is enabled that keeps the invariant
and lowers the measure, steps of `own` alone reach the goal.
-/
theorem exists_run_of_measure (inv goal : σ → Prop) (own : ι → Bool) (μ : σ → Nat)
    (hstep : ∀ s, inv s → ¬ goal s →
      ∃ l, m.guard s l ∧ own l = true ∧ inv (m.effect s l) ∧ μ (m.effect s l) < μ s)
    {s : σ} (hs : inv s)
    : ∃ ls, m.Runs s ls ∧ ls.all own = true ∧ inv (m.exec s ls) ∧ goal (m.exec s ls) := by
  generalize hn : μ s = n
  induction n using Nat.strongRecOn generalizing s with
  | ind n ih =>
    by_cases hgoal : goal s
    . exact ⟨[], trivial, rfl, hs, hgoal⟩
    . rcases hstep s hs hgoal with ⟨l, hguard, hown, hs', hlt⟩
      rcases ih _ (by omega) hs' rfl with ⟨ls, hruns, hall, hlast⟩
      refine ⟨l :: ls, ⟨hguard, hruns⟩, ?_, hlast⟩
      rw [List.all_cons, hown, hall]
      rfl

end Machine
