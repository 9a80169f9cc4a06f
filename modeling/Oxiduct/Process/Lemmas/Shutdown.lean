import Oxiduct.Process.Lemmas.Exit

/-!
This module contains that the process exits: once a signal has arrived it needs no client, no upstream
and no second signal, only its own steps and, for the grace period, the clock.
-/

namespace Process

open Machine
variable {settings : Settings} {s : State}

def ServiceLabel.isOwn : ServiceLabel → Bool
  | .tcp l => l.isOwn
  | .udp l => l.isOwn
  | .exporter (.listener .pollShutdown) => true
  | .exporter (.listener .resume) => true
  | .exporter _ => false

def services : Machine Service ServiceLabel where
  guard := Service.guard
  effect := Service.effect

theorem canReach_tcp {cfg : ProxyConfig} {t : Tcp.Server} {goal : Tcp.Server → Prop}
    (h : (Tcp.serveGraceful cfg).CanReach Tcp.ServerLabel.isOwn t goal)
    : services.CanReach ServiceLabel.isOwn (.tcp cfg t)
        fun service => ∃ t', service = .tcp cfg t' ∧ goal t' := by
  refine CanReach.simulate (fun t service => service = Service.tcp cfg t) ServiceLabel.tcp ?_ rfl h
  rintro t _ l rfl hl hguard
  exact ⟨hguard, hl, rfl⟩

theorem canReach_udp {cfg : ProxyConfig} {t : Udp.State} {goal : Udp.State → Prop}
    (h : (Udp.serveGraceful cfg).CanReach Udp.Label.isOwn t goal)
    : services.CanReach ServiceLabel.isOwn (.udp cfg t)
        fun service => ∃ t', service = .udp cfg t' ∧ goal t' := by
  refine CanReach.simulate (fun t service => service = Service.udp cfg t) ServiceLabel.udp ?_ rfl h
  rintro t _ l rfl hl hguard
  exact ⟨hguard, hl, rfl⟩

namespace ServiceInv

variable {w : World} {spec : Spec} {service : Service}

theorem canReach_tcp {cfg : ProxyConfig} {t : Tcp.Server}
    (h : ServiceInv (fun _ => True) w spec (.tcp cfg t)) (hstop : w.stopAccepting = true)
    (hforce : w.forceShutdown = true)
    : services.CanReach ServiceLabel.isOwn (.tcp cfg t) fun service => service.returned = true := by
  have hinv := Tcp.booksInv_of_reach h.reached
  have hclosing : Tcp.Closing t :=
    ⟨hinv.tasks, hinv.drain, h.sees.2.1.trans hstop, h.sees.2.2.trans hforce⟩
  apply (Process.canReach_tcp hclosing.canReach_end).mono fun _ => id
  rintro _ ⟨t', rfl, _, hpc, _⟩
  simp [Service.returned, hpc]

theorem canReach_udp {cfg : ProxyConfig} {t : Udp.State}
    (h : ServiceInv (fun _ => True) w spec (.udp cfg t)) (hforce : w.forceShutdown = true)
    : services.CanReach ServiceLabel.isOwn (.udp cfg t) fun service => service.returned = true := by
  apply (Process.canReach_udp (Udp.canReach_ended (h.sees.2.2.trans hforce))).mono fun _ => id
  rintro _ ⟨t', rfl, _, hended⟩
  rcases hended.listener with ⟨how, hpc⟩
  simp [Service.returned, hpc, Udp.ListenerPc.isReturned]

theorem canReach_exporter {t : Metrics.Exporter}
    (h : ServiceInv (fun _ => True) w spec (.exporter t)) (hstop : w.stopAccepting = true)
    : services.CanReach ServiceLabel.isOwn (.exporter t) fun service => service.returned = true := by
  have hpoll : ∀ t : Metrics.Exporter, t.shutdown = true →
      (t.listener = .select ∨ t.listener = .polled) →
      services.CanReach ServiceLabel.isOwn (.exporter t) fun service => service.returned = true :=
    fun t hshutdown hpc => .step (m := services) (l := .exporter (.listener .pollShutdown))
      ⟨hpc, hshutdown⟩ rfl (.refl rfl)
  have hshutdown := h.sees.2.trans hstop
  cases hpc : t.listener with
  | select => exact hpoll t hshutdown (.inl hpc)
  | polled => exact hpoll t hshutdown (.inr hpc)
  | backoff =>
    exact .step (m := services) (l := .exporter (.listener .resume)) hpc rfl
      (hpoll _ hshutdown (.inl rfl))
  | returned =>
    apply CanReach.refl
    simp [Service.returned, hpc]

theorem canReach_returned (h : ServiceInv (fun _ => True) w spec service)
    (hstop : w.stopAccepting = true) (hforce : w.forceShutdown = true)
    : services.CanReach ServiceLabel.isOwn service fun service => service.returned = true := by
  cases service with
  | tcp cfg t => exact h.canReach_tcp hstop hforce
  | udp cfg t => exact h.canReach_udp hforce
  | exporter t => exact h.canReach_exporter hstop

end ServiceInv

def Label.isOwn : Label → Bool
  | .main (.join _) => true
  | .main .drained => true
  | .main .elapsed => true
  | .main _ => false
  | .task _ .publish => true
  -- `bind` returns
  | .task _ .bindOk => true
  | .task _ (.step l) => l.isOwn
  | .task _ .finish => true
  | .task _ _ => false
  | .advance _ => false

def Label.isTask : Label → Bool
  | .task i act => (Label.task i act).isOwn
  | _ => false

structure Forced (n : Nat) (s : State) : Prop where
  inv : Inv (fun _ => True) s
  pc : s.main = .forced
  stop : s.world.stopAccepting = true
  force : s.world.forceShutdown = true
  length : s.tasks.length = n

theorem isEnv_of_isOwn {l : ServiceLabel} (h : l.isOwn = true) : l.isEnv = false := by
  cases l with
  | tcp l =>
    cases l with
    | env act => cases h
    | _ => rfl
  | udp l =>
    cases l with
    | env act =>
      cases act with
      | teardown => rfl
      | _ => cases h
    | _ => rfl
  | exporter l =>
    cases l with
    | listener act => rfl
    | _ => cases h

namespace Forced

variable {n : Nat}

theorem effect (h : Forced n s) {l : Label} (hguard : guard s l) (hl : l.isTask = true)
    : Forced n (effect settings s l) := by
  have hlength := length_tasks_effect settings hguard
  have hinv := h.inv.change (change_effect settings hguard) (fun _ _ => trivial)
    fun _ _ _ _ => trivial
  cases l with
  | task i act =>
    rcases hguard.2 with ⟨task, hi, _⟩
    simp only [Process.effect, hi] at hlength hinv ⊢
    exact ⟨hinv, h.pc, h.stop, h.force, hlength.trans h.length⟩
  | _ => cases hl

theorem step (h : Forced n s) {i : Nat} {task : Task} (hi : s.tasks[i]? = some task) {act : TaskAct}
    (hguard : act.guard task) (hact : (Label.task i act).isTask = true)
    {goal : State → Prop}
    (hrest : ∀ t, Forced n t → t.tasks[i]? = some (act.next s.world task) →
      (main settings).CanReach Label.isTask t goal)
    : (main settings).CanReach Label.isTask s goal := by
  have hstep : guard s (.task i act) := ⟨by rw [h.pc]; rfl, task, hi, hguard⟩
  apply CanReach.step (show (main settings).guard s (.task i act) from hstep) hact
  apply hrest _ (h.effect hstep hact)
  have hlt := (List.getElem?_eq_some_iff.mp hi).1
  show (Process.effect settings s (.task i act)).tasks[i]? = _
  simp only [Process.effect, hi]
  rw [List.getElem?_set_self hlt]

def Ended (i : Nat) (s : State) : Prop :=
  ∀ task, s.tasks[i]? = some task → task.result ≠ none

theorem ended_effect (i : Nat) {l : Label} (hguard : guard s l) (hl : l.isTask = true)
    (hended : Ended i s)
    : Ended i (Process.effect settings s l) := by
  cases l with
  | task j act =>
    rcases hguard.2 with ⟨task, hj, _⟩
    intro task' hi
    simp only [Process.effect, hj, List.getElem?_set] at hi
    split at hi
    . next heq =>
      subst heq
      split at hi
      . cases hi
        have hresult := hended task hj
        cases act with
        | bindErr => simp [TaskAct.next]
        | finish => simp [TaskAct.next]
        | panic => simp [TaskAct.next]
        | step l =>
          simp only [TaskAct.next]
          split <;> exact hresult
        | _ => exact hresult
      . cases hi
    . exact hended task' hi
  | _ => cases hl

theorem canReach_of_returned (h : Forced n s) {i : Nat} {task : Task} {service : Service}
    (hi : s.tasks[i]? = some task) (hphase : task.phase = .serving service)
    (hreturned : service.returned = true) (hresult : task.result = none)
    : (main settings).CanReach Label.isTask s (Ended i) := by
  have hguard : TaskAct.finish.guard task :=
    ⟨service, Phase.service?_eq_some.mpr hphase, hreturned, hresult⟩
  apply h.step hi hguard rfl
  intro t _ ht
  apply CanReach.refl
  intro task' hi'
  rw [ht] at hi'
  cases hi'
  simp [TaskAct.next]

structure Runs (n i : Nat) (service : Service) (s : State) : Prop where
  forced : Forced n s
  task : ∃ task, s.tasks[i]? = some task ∧ task.phase = .serving service ∧ task.result = none

theorem Runs.step (settings : Settings) {i : Nat} {service : Service} (h : Runs n i service s)
    {l : ServiceLabel} (hl : l.isOwn = true) (hguard : service.guard l)
    : guard s (.task i (.step l))
        ∧ Runs n i (service.effect l) (Process.effect settings s (.task i (.step l))) := by
  rcases h.task with ⟨task, hi, hphase, hresult⟩
  have hstep : guard s (.task i (.step l)) := by
    refine ⟨by rw [h.forced.pc]; rfl, task, hi, service, ?_, hguard, isEnv_of_isOwn hl, ?_⟩
    . exact Phase.service?_eq_some.mpr hphase
    . rw [hresult]
      simp
  have hlt := (List.getElem?_eq_some_iff.mp hi).1
  refine ⟨hstep, h.forced.effect hstep hl, { task with phase := .serving (service.effect l) }, ?_,
    rfl, hresult⟩
  simp only [Process.effect, hi, TaskAct.next, hphase]
  rw [List.getElem?_set_self hlt]

theorem Runs.canReach {i : Nat} {service : Service} (h : Runs n i service s)
    {goal : Service → Prop} (hreach : services.CanReach ServiceLabel.isOwn service goal)
    : (main settings).CanReach Label.isTask s
        fun t => ∃ service', Runs n i service' t ∧ goal service' := by
  refine CanReach.simulate (Runs n i) (fun l => Label.task i (.step l)) ?_ h hreach
  intro service s l h hl hguard
  have hstep := h.step settings hl hguard
  exact ⟨hstep.1, hl, hstep.2⟩

theorem canReach_of_serving (h : Forced n s) {i : Nat} {task : Task} {service : Service}
    (hi : s.tasks[i]? = some task) (hphase : task.phase = .serving service)
    (hresult : task.result = none)
    : (main settings).CanReach Label.isTask s (Ended i) := by
  have hservice := (h.inv.tasks task (List.mem_of_getElem? hi)).service service hphase
  have hruns : Runs n i service s := ⟨h, task, hi, hphase, hresult⟩
  apply (hruns.canReach (hservice.canReach_returned h.stop h.force)).trans
  rintro t ⟨service', ⟨ht, task', hi', hphase', hresult'⟩, hreturned⟩
  exact ht.canReach_of_returned hi' hphase' hreturned hresult'

theorem canReach_of_binding (h : Forced n s) {i : Nat} {task : Task} (hi : s.tasks[i]? = some task)
    (hphase : task.phase = .binding) (hresult : task.result = none)
    : (main settings).CanReach Label.isTask s (Ended i) := by
  have hguard : TaskAct.bindOk.guard task := ⟨by rw [hphase], hresult⟩
  apply h.step hi hguard rfl
  intro t ht hi'
  exact ht.canReach_of_serving hi' rfl hresult

theorem canReach_ended (h : Forced n s) (i : Nat)
    : (main settings).CanReach Label.isTask s (Ended i) := by
  cases hi : s.tasks[i]? with
  | none =>
    apply CanReach.refl
    intro task hi'
    rw [hi] at hi'
    cases hi'
  | some task =>
    cases hresult : task.result with
    | some result =>
      apply CanReach.refl
      intro task' hi'
      rw [hi] at hi'
      cases hi'
      simp [hresult]
    | none =>
      cases hphase : task.phase with
      | spawned =>
        have hguard : TaskAct.publish.guard task := ⟨by rw [hphase], hresult⟩
        apply h.step hi hguard rfl
        intro t ht hi'
        exact ht.canReach_of_binding hi' rfl hresult
      | binding => exact h.canReach_of_binding hi hphase hresult
      | serving service => exact h.canReach_of_serving hi hphase hresult
      | unbound =>
        exact absurd hresult ((h.inv.tasks task (List.mem_of_getElem? hi)).unbound hphase)

end Forced

structure Collecting (s : State) : Prop where
  pc : s.main = .forced
  ended : ∀ task ∈ s.tasks, task.result ≠ none

def unjoined (s : State) : Nat :=
  s.tasks.countP fun task => !task.joined

theorem Collecting.exists_join (h : Collecting s) (hjoined : ¬ ∀ task ∈ s.tasks, task.joined = true)
    : ∃ l, guard s l ∧ l.isOwn = true ∧ Collecting (effect settings s l)
        ∧ unjoined (effect settings s l) < unjoined s := by
  simp only [not_forall] at hjoined
  rcases hjoined with ⟨⟨spec, phase, result, joined⟩, hmem, hne⟩
  rcases List.getElem?_of_mem hmem with ⟨i, hi⟩
  have hunjoined : joined = false := by simpa using hne
  subst hunjoined
  rcases Option.ne_none_iff_exists'.mp (h.ended _ hmem) with ⟨result', hresult⟩
  cases hresult
  have hguard : guard s (.main (.join i)) :=
    ⟨by rw [h.pc]; rfl, .inl h.pc, _, hi, by simp, rfl⟩
  have htasks : (effect settings s (.main (.join i))).tasks
      = s.tasks.set i ⟨spec, phase, some result', true⟩ := by
    simp [effect, MainAct.effect, hi]
  refine ⟨_, hguard, rfl, ⟨?_, ?_⟩, ?_⟩
  . simp [effect, MainAct.effect, hi, h.pc]
  . intro task hmem'
    rw [htasks] at hmem'
    rcases List.mem_or_eq_of_mem_set hmem' with hmem' | rfl
    . exact h.ended task hmem'
    . simp
  . rw [unjoined, htasks]
    exact List.countP_set_lt hi rfl rfl

theorem Collecting.canReach_exited (h : Collecting s)
    : (main settings).CanReach Label.isOwn s fun t => t.main.isExited = true := by
  have hjoined : (main settings).CanReach Label.isOwn s
      fun t => Collecting t ∧ ∀ task ∈ t.tasks, task.joined = true :=
    CanReach.of_measure Collecting unjoined (fun _ ht => ht.exists_join) h
  apply hjoined.trans
  rintro t ⟨ht, hall⟩
  have hguard : (main settings).guard t (.main .drained) :=
    ⟨by rw [ht.pc]; rfl, .inl ht.pc, hall⟩
  exact .step hguard rfl (.refl rfl)

theorem isOwn_of_isTask {l : Label} (h : l.isTask = true) : l.isOwn = true := by
  cases l with
  | task i act => exact h
  | _ => cases h

theorem Forced.canReach_exited {n : Nat} (h : Forced n s)
    : (main settings).CanReach Label.isOwn s fun t => t.main.isExited = true := by
  have hended := CanReach.forall_mem (m := main settings) (Forced n) Forced.Ended
    (List.range n) (fun _ _ h hguard hl => h.effect hguard hl)
    (fun i _ _ h hguard hl => Forced.ended_effect i hguard hl h.2)
    (fun _ h i _ => h.canReach_ended i) h
  apply (hended.mono (fun _ => isOwn_of_isTask) fun _ => id).trans
  rintro t ⟨ht, hall⟩
  apply Collecting.canReach_exited
  refine ⟨ht.pc, ?_⟩
  intro task hmem
  rcases List.getElem?_of_mem hmem with ⟨i, hi⟩
  have hlt := (List.getElem?_eq_some_iff.mp hi).1
  exact hall i (List.mem_range.mpr (ht.length ▸ hlt)) task hi

def Label.isPatient : Label → Bool
  | .advance _ => true
  | l => l.isOwn

theorem isPatient_of_isOwn {l : Label} (h : l.isOwn = true) : l.isPatient = true := by
  cases l with
  | advance now => cases h
  | _ => exact h

theorem exits_after_signal {args : Cli} (hsettings : resolve args = .ok settings)
    (hreach : (main settings).Reachable (launch settings) s)
    : (s.main = .forced →
          (main settings).CanReach Label.isOwn s fun t => t.main.isExited = true)
        ∧ ∀ deadline, s.main = .draining deadline → deadline < u64Max →
          (main settings).CanReach Label.isPatient s fun t => t.main.isExited = true := by
  have hforced : ∀ {t : State}, (main settings).Reachable (launch settings) t →
      t.main = .forced →
      (main settings).CanReach Label.isOwn t fun u => u.main.isExited = true := by
    intro t hreach hpc
    have hmain := mainInv_of_reachable hsettings hreach
    rw [MainInv, hpc] at hmain
    exact Forced.canReach_exited ⟨inv_of_reachable hreach, hpc, hmain.1, hmain.2.1, rfl⟩
  refine ⟨hforced hreach, ?_⟩
  intro deadline hpc hlt
  have hinv := inv_of_reachable hreach
  by_cases hjoined : ∀ task ∈ s.tasks, task.joined = true
  . have hguard : (main settings).guard s (.main .drained) :=
      ⟨by rw [hpc]; rfl, .inr ⟨deadline, hpc⟩, hjoined⟩
    exact .step hguard rfl (.refl rfl)
  . simp only [not_forall] at hjoined
    rcases hjoined with ⟨task, hmem, hne⟩
    let now := max s.world.now deadline
    have hadvance : (main settings).guard s (.advance now) :=
      ⟨by rw [hpc]; rfl, Nat.le_max_left _ _, Nat.max_lt.mpr ⟨hinv.now_lt, hlt⟩⟩
    have helapsed : (main settings).guard (effect settings s (.advance now))
        (.main .elapsed) := by
      refine ⟨by rw [show (effect settings s (.advance now)).main = s.main from rfl, hpc]; rfl,
        ⟨deadline, hpc, Nat.le_max_right _ _⟩, task.notify (.advance now),
        List.mem_map_of_mem hmem, ?_⟩
      exact (show task.joined = false by simpa using hne)
    apply CanReach.step hadvance rfl
    apply CanReach.step helapsed rfl
    have hnext := (hreach.step _ hadvance trivial).step _ helapsed trivial
    exact (hforced hnext rfl).mono (fun _ => isPatient_of_isOwn) fun _ => id

set_option maxRecDepth 4000 in
theorem exits_after_signal_relaying
    : (main webSettings).CanReach Label.isPatient
        ((main webSettings).exec (launch webSettings)
          (Label.relaying ++ [.main .signal]))
        fun t => t.main.isExited = true := by
  have hruns : (main webSettings).Runs (launch webSettings)
      (Label.relaying ++ [.main .signal]) := by
    decide
  exact (exits_after_signal resolve_webArgs hruns.reachable).2 10000 (by decide) (by decide)

end Process
