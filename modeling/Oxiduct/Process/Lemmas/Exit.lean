import Oxiduct.Process.Lemmas.Basic
import Oxiduct.Process.Lemmas.Settings

/-!
This module contains how the process exits: what its status says about its tasks, and that nothing is
forced to end before the grace period is over.
-/

namespace Process

variable {settings : Settings} {s : State} {l : Label}

def Task.failed (task : Task) : Bool :=
  task.joined && task.result ≠ some .ok

def Noted (s : State) : Prop :=
  s.anyError = true ↔ 0 < s.tasks.countP Task.failed

theorem countP_failed_notify (tasks : List Task) (event : Event)
    : (tasks.map fun task => task.notify event).countP Task.failed = tasks.countP Task.failed := by
  rw [List.countP_map]
  rfl

theorem failed_next (w : World) {task : Task} {act : TaskAct} (hguard : act.guard task)
    (hjoined : task.joined = true → task.result ≠ none)
    : (act.next w task).failed = task.failed := by
  have hunjoined : task.result = none → task.joined = false := by
    intro hresult
    by_contra hne
    exact hjoined (by simpa using hne) hresult
  cases act with
  | publish => rfl
  | bindOk => rfl
  | bindErr => simp [TaskAct.next, Task.failed, hunjoined hguard.2]
  | step l =>
    simp only [TaskAct.next]
    split <;> rfl
  | finish =>
    rcases hguard with ⟨_, _, _, hresult⟩
    simp [TaskAct.next, Task.failed, hunjoined hresult]
  | panic => simp [TaskAct.next, Task.failed, hunjoined hguard]

theorem Noted.task {i : Nat} {act : TaskAct} (h : Noted s) (hinv : Inv (fun _ => True) s)
    (hguard : guard s (.task i act))
    : Noted (effect settings s (.task i act)) := by
  rcases hguard.2 with ⟨task, hi, hact⟩
  have hfailed := failed_next s.world hact (hinv.tasks task (List.mem_of_getElem? hi)).joined
  have hcount := List.countP_set_add (p := Task.failed) hi (act.next s.world task)
  rw [hfailed, Nat.add_right_cancel_iff] at hcount
  simp only [effect, hi, Noted, hcount]
  exact h

theorem Noted.join {i : Nat} (h : Noted s)
    (hi : ∃ task, s.tasks[i]? = some task ∧ task.isFinished)
    : Noted (MainAct.effect settings s (.join i)) := by
  rcases hi with ⟨⟨spec, phase, result, joined⟩, hi, hresult, rfl⟩
  rcases Option.ne_none_iff_exists'.mp hresult with ⟨result', hresult'⟩
  subst hresult'
  have hcount := List.countP_set_add (p := Task.failed) hi ⟨spec, phase, some result', true⟩
  have hbefore : Task.failed ⟨spec, phase, some result', false⟩ = false := rfl
  have hafter : Task.failed ⟨spec, phase, some result', true⟩ = decide (result' ≠ .ok) := by
    simp [Task.failed]
  rw [hbefore, hafter, if_neg (by simp)] at hcount
  rw [Noted] at h
  simp only [MainAct.effect, hi, Noted, Bool.or_eq_true, h, decide_eq_true_eq] at hcount ⊢
  by_cases hok : result' = .ok
  . simp only [hok, ne_eq, not_true_eq_false, if_false, or_false] at hcount ⊢
    omega
  . simp only [hok, ne_eq, not_false_eq_true, if_true, or_true, true_iff] at hcount ⊢
    omega

def Task.endedWell (task : Task) : Prop :=
  task.joined = true ∧ task.result = some .ok

def Task.endedBadly (task : Task) : Prop :=
  task.joined = true ∧ (task.result = some .err ∨ task.result = some .panicked)

def ExitStatus (s : State) (code : Nat) : Prop :=
  (code = 0 ∧ s.world.stopAccepting = true ∧ ∀ task ∈ s.tasks, task.endedWell)
    ∨ (code = 1 ∧ ∃ task ∈ s.tasks, task.endedBadly)

structure Idle (s : State) : Prop where
  stop : s.world.stopAccepting = false
  force : s.world.forceShutdown = false
  anyError : s.anyError = false
  joined : ∀ task ∈ s.tasks, task.joined = false

def MainInv (s : State) : Prop :=
  match s.main with
  | .running => Idle s
  | .draining _ => s.world.stopAccepting = true ∧ s.world.forceShutdown = false ∧ Noted s
  | .forced => s.world.stopAccepting = true ∧ s.world.forceShutdown = true ∧ Noted s
  | .exited code => ExitStatus s code

theorem joined_next (w : World) (task : Task) (act : TaskAct)
    : (act.next w task).joined = task.joined := by
  cases act with
  | step l =>
    simp only [TaskAct.next]
    split <;> rfl
  | _ => rfl

theorem Idle.noted (h : Idle s) : Noted s := by
  have hnone : s.tasks.countP Task.failed = 0 := by
    apply List.countP_eq_zero.mpr
    intro task hmem
    simp [Task.failed, h.joined task hmem]
  simp [Noted, h.anyError, hnone]

theorem Noted.notify (h : Noted s) (event : Event) : Noted (s.notify event) := by
  rw [Noted, State.notify, countP_failed_notify]
  exact h

theorem Idle.endedBadly (h : Idle s) (hinv : Inv (fun _ => True) s) {task : Task}
    (hmem : task ∈ s.tasks) {result : Result} (hresult : task.result = some result)
    : result ≠ .ok := by
  rintro rfl
  rcases (hinv.tasks task hmem).returned hresult with ⟨service, hphase, hreturned⟩
  rcases ((hinv.tasks task hmem).service service hphase).told hreturned with hstop | hforce
  . rw [h.stop] at hstop
    cases hstop
  . rw [h.force] at hforce
    cases hforce

theorem MainInv.exitStatus (hinv : Inv (fun _ => True) s) (hnoted : Noted s)
    (hstop : s.world.stopAccepting = true) (hjoined : ∀ task ∈ s.tasks, task.joined = true)
    : ExitStatus (s.exit (if s.anyError then 1 else 0)) (if s.anyError then 1 else 0) := by
  cases herror : s.anyError with
  | false =>
    have hnone : s.tasks.countP Task.failed = 0 := by
      by_contra hne
      have := hnoted.mpr (Nat.pos_of_ne_zero hne)
      rw [herror] at this
      cases this
    refine .inl ⟨rfl, hstop, fun task hmem => ⟨hjoined task hmem, ?_⟩⟩
    have hfailed := List.countP_eq_zero.mp hnone task hmem
    simpa [Task.failed, hjoined task hmem] using hfailed
  | true =>
    rcases List.countP_pos_iff.mp (hnoted.mp herror) with ⟨task, hmem, hfailed⟩
    have hresult := (hinv.tasks task hmem).joined (hjoined task hmem)
    refine .inr ⟨rfl, task, hmem, hjoined task hmem, ?_⟩
    cases hcase : task.result with
    | none => exact absurd hcase hresult
    | some result =>
      cases result with
      | ok => simp [Task.failed, hcase] at hfailed
      | err => exact .inl rfl
      | panicked => exact .inr rfl

theorem MainAct.mainInv_effect {act : MainAct} (h : MainInv s) (hinv : Inv (fun _ => True) s)
    (hne : s.tasks ≠ []) (hguard : act.guard s)
    : MainInv (act.effect settings s) := by
  cases act with
  | finished i =>
    rcases hguard with ⟨hpc, ⟨spec, phase, result, joined⟩, hi, hresult, rfl⟩
    rcases Option.ne_none_iff_exists'.mp hresult with ⟨result', hresult'⟩
    subst hresult'
    rw [MainInv, hpc] at h
    have hbad := h.endedBadly hinv (List.mem_of_getElem? hi) rfl
    simp only [effect, hi, MainInv, State.exit]
    have hlt := (List.getElem?_eq_some_iff.mp hi).1
    refine .inr ⟨?_, ⟨spec, phase, some result', true⟩, List.mem_set hlt _, rfl, ?_⟩
    . cases result' <;> first | rfl | contradiction
    . cases result' <;> simp at hbad ⊢
  | noTasks =>
    rw [MainInv, hguard.1] at h
    rcases List.exists_mem_of_ne_nil _ hne with ⟨task, hmem⟩
    have := hguard.2 task hmem
    rw [h.joined task hmem] at this
    cases this
  | signal =>
    rw [MainInv, show s.main = .running from hguard] at h
    exact ⟨rfl, h.force, h.noted.notify .stop⟩
  | join i =>
    have hjoin : Noted s → Noted (MainAct.effect settings s (.join i)) := fun hn => hn.join hguard.2
    have hframe : (MainAct.effect settings s (.join i)).main = s.main
        ∧ (MainAct.effect settings s (.join i)).world = s.world := by
      simp only [effect]
      split <;> exact ⟨rfl, rfl⟩
    rcases hguard.1 with hpc | ⟨deadline, hpc⟩ <;>
      rw [MainInv, hpc] at h <;> rw [MainInv, hframe.1, hframe.2, hpc]
    . exact ⟨h.1, h.2.1, hjoin h.2.2⟩
    . exact ⟨h.1, h.2.1, hjoin h.2.2⟩
  | drained =>
    rcases hguard.1 with hpc | ⟨deadline, hpc⟩ <;> rw [MainInv, hpc] at h
    . exact MainInv.exitStatus hinv h.2.2 h.1 hguard.2
    . exact MainInv.exitStatus hinv h.2.2 h.1 hguard.2
  | elapsed =>
    rcases hguard.1 with ⟨deadline, hpc, _⟩
    rw [MainInv, hpc] at h
    exact ⟨h.1, rfl, h.2.2.notify .force⟩

theorem MainInv.effect (h : MainInv s) (hinv : Inv (fun _ => True) s) (hne : s.tasks ≠ [])
    (hguard : guard s l)
    : MainInv (effect settings s l) := by
  cases l with
  | main act => exact act.mainInv_effect h hinv hne hguard.2
  | task i act =>
    have hrunning := hguard.1
    have hnoted : Noted s → Noted (Process.effect settings s (.task i act)) :=
      fun hn => hn.task hinv hguard
    rcases hguard.2 with ⟨task, hi, hact⟩
    simp only [Process.effect, hi] at hnoted ⊢
    simp only [MainInv] at h ⊢
    split at h
    . refine ⟨h.stop, h.force, h.anyError, ?_⟩
      intro task' hmem
      rcases List.mem_or_eq_of_mem_set hmem with hmem | rfl
      . exact h.joined task' hmem
      . exact (joined_next _ _ _).trans (h.joined task (List.mem_of_getElem? hi))
    . exact ⟨h.1, h.2.1, hnoted h.2.2⟩
    . exact ⟨h.1, h.2.1, hnoted h.2.2⟩
    . next hpc =>
      rw [hpc] at hrunning
      cases hrunning
  | advance now =>
    have hrunning := hguard.1
    have hmain : (Process.effect settings s (.advance now)).main = s.main := rfl
    simp only [MainInv, hmain] at h ⊢
    split at h
    . refine ⟨h.stop, h.force, h.anyError, ?_⟩
      intro task hmem
      rcases List.mem_map.mp hmem with ⟨old, hold, rfl⟩
      exact h.joined old hold
    . exact ⟨h.1, h.2.1, h.2.2.notify _⟩
    . exact ⟨h.1, h.2.1, h.2.2.notify _⟩
    . next hpc =>
      rw [hpc] at hrunning
      cases hrunning

theorem length_tasks_effect (settings : Settings) (hguard : guard s l)
    : (effect settings s l).tasks.length = s.tasks.length := by
  cases change_effect settings hguard with
  | quiet _ htasks _ => rw [htasks]
  | notified event _ _ htasks _ => rw [htasks, List.length_map]
  | joined i task _ _ _ htasks _ => rw [htasks, List.length_set]
  | acted i task act _ _ _ _ htasks _ => rw [htasks, List.length_set]

theorem mainInv_of_reachable {args : Cli} (hsettings : resolve args = .ok settings)
    (hreach : (main settings).Reachable (launch settings) s)
    : MainInv s := by
  have hinv : s.tasks ≠ [] ∧ Inv (fun _ => True) s ∧ MainInv s := by
    refine hreach.invariant
      (p := fun s => s.tasks ≠ [] ∧ Inv (fun _ => True) s ∧ MainInv s) ?_ ?_
    . refine ⟨by simp [launch, proxies_ne_nil hsettings], inv_launch settings, rfl, rfl, rfl, ?_⟩
      intro task hmem
      rcases exists_spec_of_launch hmem with ⟨spec, rfl⟩
      cases spec <;> rfl
    . rintro s l ⟨hne, hinv, hmain⟩ hguard _
      have hlength := length_tasks_effect settings hguard
      refine ⟨?_, ?_, hmain.effect hinv hne hguard⟩
      . rw [← List.length_pos_iff]
        exact Nat.lt_of_lt_of_eq (List.length_pos_iff.mpr hne) hlength.symm
      . exact hinv.change (change_effect settings hguard) (fun _ _ => trivial)
          (fun _ _ _ _ => trivial)
  exact hinv.2.2

theorem exit_status {args : Cli} (hsettings : resolve args = .ok settings)
    (hreach : (main settings).Reachable (launch settings) s) {code : Nat}
    (hexited : s.main = .exited code)
    : ExitStatus s code := by
  have hmain := mainInv_of_reachable hsettings hreach
  rw [MainInv, hexited] at hmain
  exact hmain

def Label.stopped : List Label :=
  [.main .signal, .task 0 (.step (.exporter (.listener .pollShutdown))), .task 0 .finish,
    .task 1 (.step (.tcp (.listener .pollStop))), .task 1 (.step (.tcp (.listener .drained))),
    .task 1 .finish, .main (.join 1), .main (.join 0), .main .drained]

set_option maxRecDepth 4000 in
theorem exit_status_stopped
    : ExitStatus ((main webSettings).exec (launch webSettings)
        (Label.started ++ Label.stopped)) 0 := by
  have hruns : (main webSettings).Runs (launch webSettings)
      (Label.started ++ Label.stopped) := by decide
  exact exit_status resolve_webArgs hruns.reachable rfl

structure GraceInv (deadline : Nat) (s : State) : Prop where
  signalled : s.main ≠ .running
  draining : ∀ deadline', s.main = .draining deadline' → deadline' = deadline
  force : s.world.forceShutdown = true → deadline ≤ s.world.now

theorem GraceInv.effect {deadline : Nat} (h : GraceInv deadline s) (hguard : guard s l)
    : GraceInv deadline (effect settings s l) := by
  have hframe : ∀ {t : State}, t.main = s.main → t.world = s.world → GraceInv deadline t := by
    intro t hmain hworld
    exact ⟨hmain ▸ h.signalled, hmain ▸ h.draining, hworld ▸ h.force⟩
  cases l with
  | main act =>
    have hact := hguard.2
    cases act with
    | finished i => exact absurd hact.1 h.signalled
    | noTasks => exact absurd hact.1 h.signalled
    | signal => exact absurd hact h.signalled
    | join i =>
      simp only [Process.effect, MainAct.effect]
      split <;> exact hframe rfl rfl
    | drained =>
      refine ⟨?_, ?_, h.force⟩
      . simp [Process.effect, MainAct.effect, State.exit]
      . simp [Process.effect, MainAct.effect, State.exit]
    | elapsed =>
      rcases hact.1 with ⟨deadline', hpc, hle⟩
      rw [h.draining deadline' hpc] at hle
      refine ⟨?_, ?_, fun _ => hle⟩
      . simp [Process.effect, MainAct.effect]
      . simp [Process.effect, MainAct.effect]
  | task i act =>
    rcases hguard.2 with ⟨task, hi, _⟩
    simp only [Process.effect, hi]
    exact hframe rfl rfl
  | advance now =>
    exact ⟨h.signalled, h.draining, fun hforce => Nat.le_trans (h.force hforce) hguard.2.1⟩

theorem graceInv_signal (settings : Settings) (hforce : s.world.forceShutdown = false)
    : GraceInv (timeoutAt s.world.now settings.shutdownGrace.toNat)
        (effect settings s (.main .signal)) := by
  constructor
  . simp [effect, MainAct.effect]
  . intro deadline' hpc
    simpa [effect, MainAct.effect, eq_comm] using hpc
  . intro hforce'
    simp [effect, MainAct.effect, State.notify, Event.effect, hforce] at hforce'

def Service.forced : Service → Bool
  | .tcp _ s => s.forceShutdown
  | .udp _ s => s.forceShutdown
  | .exporter _ => false

/--
No service counts what a shutdown closed, and no TCP connection was ended by one. A UDP session that
a drained listener leaves in the map is dropped and not counted.
-/
def Service.Uncut : Service → Prop
  | .tcp _ s => Tcp.Uncut s
  | .udp _ s => ∀ entry ∈ s.closed, entry.2 ≠ .shutdown
  | .exporter _ => True

theorem Service.Sees.forced {w : World} {service : Service} (h : service.Sees w)
    (hforce : w.forceShutdown = false)
    : service.forced = false := by
  cases service with
  | tcp cfg s => exact h.2.2.trans hforce
  | udp cfg s => exact h.2.2.trans hforce
  | exporter s => rfl

theorem ServiceInv.uncut {ok : Service → Prop} {w : World} {spec : Spec} {service : Service}
    (h : ServiceInv ok w spec service) (hforce : w.forceShutdown = false)
    : service.Uncut := by
  cases service with
  | tcp cfg s => exact Tcp.uncut_of_reach h.reached (h.sees.2.2.trans hforce)
  | udp cfg s =>
    intro entry hmem hentry
    have := Udp.forced_of_cut h.reached hmem hentry
    rw [h.sees.2.2, hforce] at this
    cases this
  | exporter s => trivial

theorem uncut_within_grace {args : Cli} (hsettings : resolve args = .ok settings)
    (hreach : (main settings).Reachable (launch settings) s) (hrunning : s.main = .running)
    {ls : List Label}
    (hruns : (main settings).Runs (effect settings s (.main .signal)) ls)
    : let t := (main settings).exec (effect settings s (.main .signal)) ls
      t.world.now < timeoutAt s.world.now settings.shutdownGrace.toNat →
        t.world.forceShutdown = false
          ∧ ∀ task ∈ t.tasks, ∀ service, task.phase = .serving service →
            service.forced = false ∧ service.Uncut := by
  intro t hnow
  have hidle : Idle s := by
    have hmain := mainInv_of_reachable hsettings hreach
    rwa [MainInv, hrunning] at hmain
  have hsignal : (main settings).guard s (.main .signal) :=
    ⟨by rw [hrunning]; rfl, hrunning⟩
  have hlast : (main settings).Reachable (launch settings) t :=
    (hreach.step _ hsignal trivial).exec hruns (Machine.steps_true _ _)
  have hgrace : GraceInv (timeoutAt s.world.now settings.shutdownGrace.toNat) t :=
    hruns.reachable.invariant (graceInv_signal settings hidle.force)
      fun _ _ h hguard _ => h.effect hguard
  have hforce : t.world.forceShutdown = false := by
    by_contra hne
    have := hgrace.force (by simpa using hne)
    omega
  refine ⟨hforce, fun task hmem service hphase => ?_⟩
  have hservice := ((inv_of_reachable hlast).tasks task hmem).service service hphase
  exact ⟨hservice.sees.forced hforce, hservice.uncut hforce⟩

def Label.lingering : List Label :=
  -- the client stays for all of the grace period
  [.task 1 (.step (.tcp (.listener .pollStop))), .advance 9999]

set_option maxRecDepth 4000 in
theorem uncut_within_grace_lingering
    : let s := (main webSettings).exec (launch webSettings) Label.relaying
      let t := (main webSettings).exec (effect webSettings s (.main .signal))
        Label.lingering
      t.main = .draining 10000
        ∧ t.world.forceShutdown = false
        ∧ ∀ task ∈ t.tasks, ∀ service, task.phase = .serving service →
          service.forced = false ∧ service.Uncut := by
  intro s t
  have hruns : (main webSettings).Runs (launch webSettings) Label.relaying := by
    decide
  have hlingering : (main webSettings).Runs (effect webSettings s (.main .signal))
      Label.lingering := by
    decide
  refine ⟨by decide, ?_⟩
  exact uncut_within_grace resolve_webArgs hruns.reachable rfl hlingering (by decide)

end Process
