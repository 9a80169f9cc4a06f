import Oxiduct.Process.Lemmas.Service
import Oxiduct.Metrics.Lemmas.Server
import Oxiduct.Tcp.Lemmas.Shutdown
import Oxiduct.Udp.Lemmas.Shutdown

/-!
This module contains what one step of the process can do to its tasks, and that each service is in a
run of its own machine. What is proved of a proxy or of the exporter alone then holds of every one in
the process.
-/

namespace Process

variable {settings : Settings} {s : State} {l : Label}

inductive Change (s : State) (l : Label) (t : State) : Prop where
  | quiet (hworld : t.world = s.world) (htasks : t.tasks = s.tasks)
    (hregistry : t.registry = s.registry)
  | notified (event : Event) (hevent : event.guard s.world)
    (hworld : t.world = event.effect s.world)
    (htasks : t.tasks = s.tasks.map fun task => task.notify event)
    (hregistry : t.registry = s.registry)
  | joined (i : Nat) (task : Task) (hi : s.tasks[i]? = some task) (hresult : task.result ≠ none)
    (hworld : t.world = s.world) (htasks : t.tasks = s.tasks.set i { task with joined := true })
    (hregistry : t.registry = s.registry)
  | acted (i : Nat) (task : Task) (act : TaskAct) (hl : l = .task i act)
    (hi : s.tasks[i]? = some task) (hguard : act.guard task) (hworld : t.world = s.world)
    (htasks : t.tasks = s.tasks.set i (act.next s.world task))
    (hregistry : t.registry = s.registry.applyAll (act.ops task))

theorem MainAct.change_effect {act : MainAct} (hguard : act.guard s)
    : Change s (.main act) (act.effect settings s) := by
  have hjoin : ∀ (i : Nat), (∃ task, s.tasks[i]? = some task ∧ task.isFinished) →
      ∃ spec phase result joined, s.tasks[i]? = some ⟨spec, phase, some result, joined⟩ := by
    rintro i ⟨⟨spec, phase, result, joined⟩, hi, hresult, _⟩
    rcases Option.ne_none_iff_exists'.mp hresult with ⟨result', hresult'⟩
    subst hresult'
    exact ⟨spec, phase, result', joined, hi⟩
  cases act with
  | finished i =>
    rcases hjoin i hguard.2 with ⟨spec, phase, result, joined, hi⟩
    refine .joined i _ hi (by simp) ?_ ?_ ?_ <;> simp [effect, hi, State.exit]
  | noTasks => exact .quiet rfl rfl rfl
  | signal => exact .notified .stop trivial rfl rfl rfl
  | join i =>
    rcases hjoin i hguard.2 with ⟨spec, phase, result, joined, hi⟩
    refine .joined i _ hi (by simp) ?_ ?_ ?_ <;> simp [effect, hi]
  | drained => exact .quiet rfl rfl rfl
  | elapsed => exact .notified .force trivial rfl rfl rfl

theorem change_effect (settings : Settings) (hguard : guard s l)
    : Change s l (effect settings s l) := by
  cases l with
  | main act => exact MainAct.change_effect hguard.2
  | task i act =>
    rcases hguard.2 with ⟨task, hi, hact⟩
    refine .acted i task act rfl hi hact ?_ ?_ ?_ <;> simp only [effect, hi]
  | advance now => exact .notified (.advance now) hguard.2 rfl rfl rfl

theorem Phase.service?_eq_some {phase : Phase} {service : Service}
    : phase.service? = some service ↔ phase = .serving service := by
  cases phase <;> simp [Phase.service?]

structure ServiceInv (ok : Service → Prop) (w : World) (spec : Spec) (service : Service) : Prop where
  serves : spec.Serves service
  sees : service.Sees w
  reached : service.Reached ok

structure TaskInv (ok : Service → Prop) (w : World) (task : Task) : Prop where
  service : ∀ service, task.phase = .serving service → ServiceInv ok w task.spec service
  returned : task.result = some .ok →
    ∃ service, task.phase = .serving service ∧ service.returned = true
  unbound : task.phase = .unbound → task.result ≠ none
  joined : task.joined = true → task.result ≠ none

theorem Service.returned_effect {service : Service} {l : ServiceLabel} (hguard : service.guard l)
    (h : service.returned = true)
    : (service.effect l).returned = true := by
  cases service with
  | tcp cfg s =>
    cases l with
    | tcp l =>
      have hpc : s.listener = .returned := by simpa [returned] using h
      cases l with
      | env act => cases act <;> exact h
      | listener act =>
        have hact : act.guard cfg s := hguard
        cases act <;> simp [Tcp.ListenerAct.guard, hpc] at hact
      | task i l =>
        simp only [effect, Tcp.serveGraceful, Tcp.Server.effect]
        split <;> exact h
    | _ => exact h
  | udp cfg s =>
    cases l with
    | udp l =>
      cases l with
      | listener act =>
        have hact : act.guard s := hguard
        cases hpc : s.listener with
        | returned how => cases act <;> simp [Udp.ListenerAct.guard, hpc] at hact
        | _ => simp [returned, hpc, Udp.ListenerPc.isReturned] at h
      | env act => cases act <;> exact h
      | setup i task act => cases act <;> exact h
      | relay id side act => exact h
      | cleanup act => cases act <;> exact h
    | _ => exact h
  | exporter s =>
    cases l with
    | exporter l =>
      have hpc : s.listener = .returned := by simpa [returned] using h
      cases l with
      | env act => cases act <;> exact h
      | listener act =>
        have hact : act.guard s := hguard
        cases act <;> simp [Metrics.ListenerAct.guard, hpc] at hact
      | handler i l rendered =>
        simp only [effect, Metrics.serve, Metrics.Exporter.effect]
        split <;> exact h
    | _ => exact h

theorem Service.returned_notify {service : Service} (event : Event) (h : service.returned = true)
    : (service.notify event).returned = true := by
  cases service <;> cases event <;> exact h

theorem ServiceInv.told {ok : Service → Prop} {w : World} {spec : Spec} {service : Service}
    (h : ServiceInv ok w spec service) (hreturned : service.returned = true)
    : w.stopAccepting = true ∨ w.forceShutdown = true := by
  cases service with
  | tcp cfg s =>
    have hpc : s.listener = .returned := by simpa [Service.returned] using hreturned
    have hstop := Tcp.stop_of_isOut h.reached (by rw [hpc]; rfl)
    exact .inl (h.sees.2.1.symm.trans hstop)
  | udp cfg s =>
    rw [← h.sees.2.1, ← h.sees.2.2]
    exact (Udp.caused_of_reach h.reached).of_returned hreturned
  | exporter s =>
    have hpc : s.listener = .returned := by simpa [Service.returned] using hreturned
    exact .inl (h.sees.2.symm.trans (Metrics.shutdown_of_returned h.reached hpc))

namespace TaskInv

variable {ok : Service → Prop} {w : World} {task : Task}

theorem spec_task (spec : Spec) : TaskInv ok w spec.task := by
  cases spec <;> constructor <;> simp [Spec.task]

theorem join (h : TaskInv ok w task) (hresult : task.result ≠ none)
    : TaskInv ok w { task with joined := true } where
  service := h.service
  returned := h.returned
  unbound := h.unbound
  joined := fun _ => hresult

theorem notify (h : TaskInv ok w task) {event : Event} (hevent : event.guard w)
    (hok : ∀ service, task.phase = .serving service → ok service)
    : TaskInv ok (event.effect w) (task.notify event) := by
  rcases task with ⟨spec, phase, result, joined⟩
  cases phase with
  | serving service =>
    have hservice := h.service service rfl
    constructor
    . intro service' hphase
      cases hphase
      exact ⟨hservice.serves.notify event, hservice.sees.notify event,
        hservice.reached.notify hservice.sees hevent (hok service rfl)⟩
    . intro hresult
      rcases h.returned hresult with ⟨service', hphase, hreturned⟩
      cases hphase
      exact ⟨_, rfl, Service.returned_notify event hreturned⟩
    . intro hphase
      cases hphase
    . exact h.joined
  | _ =>
    constructor
    . intro service hphase
      cases hphase
    . intro hresult
      rcases h.returned hresult with ⟨service, hphase, _⟩
      cases hphase
    . exact h.unbound
    . exact h.joined

theorem next (h : TaskInv ok s.world task) {act : TaskAct} (hguard : act.guard task)
    (hstart : ∀ spec w, ok (Spec.start w spec)) (hnow : s.world.now < u64Max)
    (hok : ∀ service, task.phase = .serving service → ok service)
    : TaskInv ok s.world (act.next s.world task) := by
  have hunended : ∀ {phase : Phase}, task.result = none → phase ≠ .unbound →
      (∀ service, phase = .serving service → ServiceInv ok s.world task.spec service) →
      TaskInv ok s.world { task with phase } := by
    intro phase hresult hphase hservice
    exact ⟨hservice, fun hended => by simp [hresult] at hended, fun h => absurd h hphase, h.joined⟩
  cases act with
  | publish => exact hunended hguard.2 (by simp) (by simp)
  | bindOk =>
    apply hunended hguard.2 (by simp)
    intro service hphase
    cases hphase
    exact ⟨task.spec.serves_start _, Service.sees_start _ _, Service.reached_start hstart _ hnow⟩
  | bindErr => constructor <;> simp [TaskAct.next]
  | step l =>
    rcases hguard with ⟨service, hphase, hguard, henv, _⟩
    rw [Phase.service?_eq_some] at hphase
    have hservice := h.service service hphase
    simp only [TaskAct.next, hphase]
    constructor
    . intro service' hphase'
      cases hphase'
      exact ⟨hservice.serves.effect l, hservice.sees.effect henv,
        hservice.reached.effect hguard (hok service hphase)⟩
    . intro hresult
      rcases h.returned hresult with ⟨service', hphase', hreturned⟩
      rw [hphase] at hphase'
      cases hphase'
      exact ⟨_, rfl, Service.returned_effect hguard hreturned⟩
    . simp
    . exact h.joined
  | finish =>
    rcases hguard with ⟨service, hphase, hreturned, _⟩
    rw [Phase.service?_eq_some] at hphase
    exact ⟨h.service, fun _ => ⟨service, hphase, hreturned⟩, by simp [TaskAct.next],
      by simp [TaskAct.next]⟩
  | panic =>
    exact ⟨h.service, by simp [TaskAct.next], by simp [TaskAct.next], by simp [TaskAct.next]⟩

end TaskInv

def Serving (ok : Service → Prop) (s : State) : Prop :=
  ∀ task ∈ s.tasks, ∀ service, task.phase = .serving service → ok service

structure Inv (ok : Service → Prop) (s : State) : Prop where
  now_lt : s.world.now < u64Max
  tasks : ∀ task ∈ s.tasks, TaskInv ok s.world task

variable {ok : Service → Prop}

theorem exists_spec_of_launch {task : Task} (hmem : task ∈ (launch settings).tasks)
    : ∃ spec : Spec, task = spec.task := by
  simp only [launch, List.mem_append, List.mem_map] at hmem
  rcases hmem with ⟨addr, _, rfl⟩ | ⟨cfg, _, rfl⟩
  . exact ⟨.exporter addr, rfl⟩
  . exact ⟨.proxy cfg, rfl⟩

theorem inv_launch (settings : Settings) : Inv ok (launch settings) where
  now_lt := by simp [launch, u64Max]
  tasks := by
    intro task hmem
    rcases exists_spec_of_launch hmem with ⟨spec, rfl⟩
    exact TaskInv.spec_task spec

theorem Inv.change {t : State} (h : Inv ok s) (hchange : Change s l t)
    (hstart : ∀ spec w, ok (Spec.start w spec)) (hok : Serving ok s)
    : Inv ok t := by
  have hset : ∀ {i : Nat} {task' : Task}, t.world = s.world → t.tasks = s.tasks.set i task' →
      TaskInv ok s.world task' → Inv ok t := by
    intro i task' hworld htasks htask'
    refine ⟨hworld ▸ h.now_lt, ?_⟩
    intro task hmem
    rw [htasks] at hmem
    rw [hworld]
    rcases List.mem_or_eq_of_mem_set hmem with hmem | rfl
    . exact h.tasks task hmem
    . exact htask'
  cases hchange with
  | quiet hworld htasks hregistry =>
    exact ⟨hworld ▸ h.now_lt, by rw [hworld, htasks]; exact h.tasks⟩
  | notified event hevent hworld htasks hregistry =>
    constructor
    . rw [hworld]
      cases event with
      | advance now => exact hevent.2
      | _ => exact h.now_lt
    . intro task hmem
      rw [htasks] at hmem
      rcases List.mem_map.mp hmem with ⟨old, hold, rfl⟩
      rw [hworld]
      exact (h.tasks old hold).notify hevent (hok old hold)
  | joined i task hi hresult hworld htasks hregistry =>
    exact hset hworld htasks ((h.tasks task (List.mem_of_getElem? hi)).join hresult)
  | acted i task act _ hi hguard hworld htasks hregistry =>
    have hmem := List.mem_of_getElem? hi
    exact hset hworld htasks ((h.tasks task hmem).next hguard hstart h.now_lt (hok task hmem))

theorem inv_of_reach (hstart : ∀ spec w, ok (Spec.start w spec))
    (hreach : (main settings).Reach (fun s _ => Serving ok s) (launch settings) s)
    : Inv ok s :=
  hreach.invariant (inv_launch settings) fun _ _ h hguard hok =>
    h.change (change_effect settings hguard) hstart hok

theorem inv_of_reachable (hreach : (main settings).Reachable (launch settings) s)
    : Inv (fun _ => True) s :=
  inv_of_reach (fun _ _ => trivial) (hreach.mono fun _ _ _ _ _ _ _ => trivial)

end Process
