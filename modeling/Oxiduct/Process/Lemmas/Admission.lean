import Oxiduct.Process.Lemmas.Registry
import Oxiduct.Tcp.Lemmas.Backlog
import Oxiduct.Udp.Lemmas.Backlog

/-!
This module contains what the process lets in: the clients that a proxy serves at once against the cap
it publishes, what it can be made to hold for them, and those that still get in once it is told to
stop.
-/

namespace Process

variable {settings : Settings} {s : State} {l : Label}

namespace Service

variable {cfg : ProxyConfig} {w : World} {service : Service}

theorem active_within (h : ServiceInv (fun _ => True) w (.proxy cfg) service)
    (hcap : 0 < cfg.maxConnections)
    : 0 ≤ service.active ∧ service.active ≤ cfg.maxConnections.toNat := by
  have hserves := h.serves
  have hreached := h.reached
  cases service with
  | tcp cfg' s =>
    rcases hserves with ⟨rfl, _⟩
    exact Tcp.active_within hreached hcap
  | udp cfg' s =>
    rcases hserves with ⟨rfl, _⟩
    have hcapped := Udp.capped_of_reach hreached hcap
    exact ⟨hcapped.nonneg, hcapped.active_le⟩
  | exporter s => exact hserves.elim

end Service

theorem Spec.name?_eq_some {spec : Spec} {name : String}
    : spec.name? = some name ↔ ∃ cfg, spec = .proxy cfg ∧ cfg.name = name := by
  cases spec <;> simp [name?]

theorem Phase.active_within {cfg : ProxyConfig} {w : World} {phase : Phase}
    (hservice : ∀ service, phase = .serving service →
      ServiceInv (fun _ => True) w (.proxy cfg) service)
    (hlimit : phase.level cfg .limitMaxConnections ≠ 0)
    : 0 ≤ phase.level cfg .active
        ∧ phase.level cfg .active ≤ phase.level cfg .limitMaxConnections := by
  cases phase with
  | serving service =>
    have hcap : 0 < cfg.maxConnections := by
      rw [UInt32.lt_iff_toNat_lt]
      exact Nat.pos_of_ne_zero (Int.natCast_ne_zero.mp hlimit)
    exact Service.active_within (hservice service rfl) hcap
  | spawned => exact absurd rfl hlimit
  | _ => exact ⟨Int.le_refl 0, Int.natCast_nonneg _⟩

theorem active_within_limit {args : Cli} (hsettings : resolve args = .ok settings)
    (hreach : (main settings).Reachable (launch settings) s)
    : ∀ cfg ∈ settings.proxies,
        let limit := s.registry.gauge .limitMaxConnections [cfg.name]
        -- 0 is no limit, or none yet
        limit ≠ 0 →
          0 ≤ s.registry.gauge .active [cfg.name] ∧ s.registry.gauge .active [cfg.name] ≤ limit := by
  have hregistry := registryInv_of_reachable hsettings hreach
  have hinv := inv_of_reachable hreach
  intro cfg hcfg limit hlimit
  have hname := List.mem_map_of_mem (f := ProxyConfig.name) hcfg
  rw [← hregistry.names] at hname
  rcases List.mem_filterMap.mp hname with ⟨spec, hspec, hname⟩
  rcases List.mem_map.mp hspec with ⟨task, hmem, rfl⟩
  rcases Spec.name?_eq_some.mp hname with ⟨cfg', htask, heq⟩
  have hrecorded := hregistry.recorded task hmem cfg' htask
  have hactive := hrecorded.gauge .active
  have hcap := hrecorded.gauge .limitMaxConnections
  rw [heq] at hactive hcap
  simp only [limit] at hlimit ⊢
  rw [hcap] at hlimit ⊢
  rw [hactive]
  apply Phase.active_within (w := s.world) (fun service hphase => ?_) hlimit
  rw [← htask]
  exact (hinv.tasks task hmem).service service hphase

set_option maxRecDepth 4000 in
theorem active_within_limit_relaying
    : let s := (main webSettings).exec (launch webSettings) Label.relaying
      s.registry.gauge .limitMaxConnections [webProxy.name] = 32000
        ∧ s.registry.gauge .active [webProxy.name]
          ≤ s.registry.gauge .limitMaxConnections [webProxy.name] := by
  intro s
  have hruns : (main webSettings).Runs (launch webSettings) Label.relaying := by
    decide
  have hlimit : s.registry.gauge .limitMaxConnections [webProxy.name] = 32000 := by
    decide
  have hwithin := active_within_limit resolve_webArgs hruns.reachable webProxy
    (List.mem_singleton.mpr rfl) (ne_of_eq_of_ne hlimit (by decide))
  exact ⟨hlimit, hwithin.2⟩

namespace Service

def backlog : Service → Nat
  | .tcp _ s => s.backlog
  | .udp _ s => s.backlog
  | .exporter _ => 0

/--
What one client can make a proxy hold: a buffer in each direction, or a full channel with the datagram
that opened it and one in each direction.
-/
def perClient : Protocol → Nat
  | .tcp => 2 * Tcp.bufSize
  | .udp => Udp.Cell.capacity + 3

end Service

theorem backlog_bounded (hreach : (main settings).Reachable (launch settings) s)
    : ∀ task ∈ s.tasks, ∀ cfg, task.spec = .proxy cfg → 0 < cfg.maxConnections →
        ∀ service, task.phase = .serving service →
          service.backlog ≤ Service.perClient cfg.protocol * cfg.maxConnections.toNat := by
  intro task hmem cfg hspec hcap service hphase
  have hservice := ((inv_of_reachable hreach).tasks task hmem).service service hphase
  have hserves := hservice.serves
  have hreached := hservice.reached
  rw [hspec] at hserves
  cases service with
  | tcp cfg' s =>
    rcases hserves with ⟨rfl, hprotocol⟩
    rw [hprotocol]
    exact Tcp.backlog_within hreached hcap
  | udp cfg' s =>
    rcases hserves with ⟨rfl, hprotocol⟩
    rw [hprotocol]
    exact Udp.backlog_within hreached hcap
  | exporter s => exact hserves.elim

def Label.reading : List Label :=
  -- two bytes that the upstream has not taken
  Label.relaying ++ [.task 1 (.step (.tcp (.task 0 (.copy .up .poll)))),
    .task 1 (.step (.tcp (.task 0 (.copy .up (.read [1, 2])))))]

set_option maxRecDepth 4000 in
theorem backlog_bounded_reading
    : let s := (main webSettings).exec (launch webSettings) Label.reading
      ∃ task ∈ s.tasks, ∃ service, task.phase = .serving service ∧ service.backlog = 2
        ∧ service.backlog ≤ Service.perClient .tcp * 32000 := by
  intro s
  have hruns : (main webSettings).Runs (launch webSettings) Label.reading := by
    decide
  have hbounded := backlog_bounded hruns.reachable
  have hmem : s.tasks.get ⟨1, by decide⟩ ∈ s.tasks := List.get_mem ..
  exact ⟨_, hmem, _, rfl, rfl, hbounded _ hmem webProxy rfl (by decide) _ rfl⟩

def ServiceLabel.admits : ServiceLabel → Bool
  | .tcp l => l.admits
  | .udp l => l.admits
  | .exporter l => l.admits

namespace Service

def pass : Service → Nat
  | .tcp _ s => s.listener.pass
  | .udp _ s => s.pass
  | .exporter s => s.listener.pass

variable {w : World} {service : Service} {l : ServiceLabel}

theorem pass_le_one (service : Service) : service.pass ≤ 1 := by
  cases service with
  | tcp cfg s => exact s.listener.pass_le_one
  | udp cfg s => exact s.pass_le_one
  | exporter s => exact s.listener.pass_le_one

theorem pass_start (spec : Spec) (w : World) : (spec.start w).pass = 0 := by
  cases spec with
  | exporter addr => rfl
  | proxy cfg =>
    simp only [Spec.start]
    split <;> rfl

theorem pass_notify (service : Service) (event : Event)
    : (service.notify event).pass = service.pass := by
  cases service <;> cases event <;> rfl

theorem pass_effect (hsees : service.Sees w) (hstop : w.stopAccepting = true)
    (hguard : service.guard l)
    : l.admits.toNat + (service.effect l).pass ≤ service.pass := by
  cases service with
  | tcp cfg s =>
    cases l with
    | tcp l => exact Tcp.pass_effect hguard (hsees.2.1.trans hstop)
    | _ => exact hguard.elim
  | udp cfg s =>
    cases l with
    | udp l => exact Udp.pass_effect hguard (hsees.2.1.trans hstop)
    | _ => exact hguard.elim
  | exporter s =>
    cases l with
    | exporter l => exact Metrics.pass_effect hguard (hsees.2.trans hstop)
    | _ => exact hguard.elim

end Service

def Phase.pass : Phase → Nat
  | .serving service => service.pass
  | _ => 0

def TaskAct.admits : TaskAct → Bool
  | .step l => l.admits
  | _ => false

def Label.admits (i : Nat) : Label → Bool
  | .task j act => j = i && act.admits
  | _ => false

theorem TaskAct.pass_next {ok : Service → Prop} {w : World} {task : Task} {act : TaskAct}
    (hinv : TaskInv ok w task) (hstop : w.stopAccepting = true) (hguard : act.guard task)
    : act.admits.toNat + (act.next w task).phase.pass ≤ task.phase.pass := by
  cases act with
  | step l =>
    rcases hguard with ⟨service, hphase, hguard, _⟩
    rw [Phase.service?_eq_some] at hphase
    simp only [next, hphase]
    exact Service.pass_effect (hinv.service service hphase).sees hstop hguard
  | bindOk =>
    rw [show (next w task .bindOk).phase.pass = 0 from Service.pass_start _ _]
    exact Nat.zero_le _
  | publish => exact Nat.zero_le _
  | bindErr => exact Nat.zero_le _
  | finish => exact Nat.le_of_eq (Nat.zero_add _)
  | panic => exact Nat.le_of_eq (Nat.zero_add _)

def State.passes (s : State) : List Nat :=
  s.tasks.map fun task => task.phase.pass

def State.pass (i : Nat) (s : State) : Nat :=
  s.passes[i]?.getD 0

theorem State.pass_le_one (s : State) (i : Nat) : s.pass i ≤ 1 := by
  simp only [pass, passes, List.getElem?_map]
  cases s.tasks[i]? with
  | none => exact Nat.zero_le 1
  | some task =>
    cases hphase : task.phase with
    | serving service => simpa [Phase.pass, hphase] using service.pass_le_one
    | _ => simp [Phase.pass, hphase]

theorem passes_notify (s : State) (event : Event) : (s.notify event).passes = s.passes := by
  simp only [State.passes, State.notify, List.map_map]
  apply List.map_congr_left
  intro task _
  cases hphase : task.phase with
  | serving service =>
    simp only [Function.comp_apply, Task.notify, hphase]
    exact service.pass_notify event
  | _ => simp [Task.notify, Phase.notify, Phase.pass, hphase]

theorem passes_effect (settings : Settings) (hguard : guard s l)
    (hl : ∀ i act, l ≠ .task i act)
    : (effect settings s l).passes = s.passes := by
  cases change_effect settings hguard with
  | quiet _ htasks _ => rw [State.passes, htasks, State.passes]
  | notified event _ _ htasks _ =>
    rw [State.passes, htasks]
    exact passes_notify s event
  | joined i task hi _ _ htasks _ =>
    rw [State.passes, htasks]
    exact List.map_set_of_eq hi rfl
  | acted i task act hacted => exact absurd hacted (hl i act)

theorem pass_effect (settings : Settings) {ok : Service → Prop} (hinv : Inv ok s)
    (hstop : s.world.stopAccepting = true) (hguard : guard s l) (i : Nat)
    : (l.admits i).toNat + (effect settings s l).pass i ≤ s.pass i := by
  cases l with
  | task j act =>
    rcases hguard.2 with ⟨task, hj, hact⟩
    have hnext := act.pass_next (hinv.tasks task (List.mem_of_getElem? hj)) hstop hact
    have hpasses : (effect settings s (.task j act)).passes
        = s.passes.set j (act.next s.world task).phase.pass := by
      simp only [effect, hj, State.passes, List.map_set]
    have hold : s.passes[j]? = some task.phase.pass := by
      rw [State.passes, List.getElem?_map, hj]
      rfl
    rw [State.pass, State.pass, hpasses]
    by_cases heq : j = i
    . subst heq
      have hlt := (List.getElem?_eq_some_iff.mp hold).1
      rw [List.getElem?_set_self hlt, hold]
      simpa [Label.admits] using hnext
    . rw [List.getElem?_set_ne heq]
      simp [Label.admits, heq]
  | main act =>
    rw [State.pass, passes_effect settings hguard (by simp)]
    exact Nat.le_of_eq (Nat.zero_add _)
  | advance now =>
    rw [State.pass, passes_effect settings hguard (by simp)]
    exact Nat.le_of_eq (Nat.zero_add _)

theorem Change.stop {t : State} (hchange : Change s l t) (hstop : s.world.stopAccepting = true)
    : t.world.stopAccepting = true := by
  cases hchange with
  | notified event _ hworld _ _ =>
    rw [hworld]
    cases event with
    | stop => rfl
    | _ => exact hstop
  | quiet hworld _ _ => rwa [hworld]
  | joined _ _ _ _ hworld _ _ => rwa [hworld]
  | acted _ _ _ _ _ _ hworld _ _ => rwa [hworld]

theorem admits_after_signal (hreach : (main settings).Reachable (launch settings) s)
    (hstop : s.world.stopAccepting = true) {ls : List Label} (hruns : (main settings).Runs s ls)
    (i : Nat)
    : ls.countP (Label.admits i) ≤ s.pass i ∧ s.pass i ≤ 1 := by
  let Stopped (s : State) : Prop := Inv (fun _ => True) s ∧ s.world.stopAccepting = true
  have hinv : ∀ s l, Stopped s → guard s l → True → Stopped (effect settings s l) := by
    rintro s l ⟨hinv, hstop⟩ hguard _
    have hchange := change_effect settings hguard
    exact ⟨hinv.change hchange (fun _ _ => trivial) (fun _ _ _ _ => trivial), hchange.stop hstop⟩
  have hadmit : ∀ s l, Stopped s → guard s l → True → l.admits i = true →
      (effect settings s l).pass i < s.pass i := by
    rintro s l ⟨hinv, hstop⟩ hguard _ hadmits
    have hpass := pass_effect settings hinv hstop hguard i
    rw [hadmits, Bool.toNat_true] at hpass
    omega
  have hother : ∀ s l, Stopped s → guard s l → True → ¬ l.admits i = true →
      (effect settings s l).pass i ≤ s.pass i := by
    rintro s l ⟨hinv, hstop⟩ hguard _ _
    have hpass := pass_effect settings hinv hstop hguard i
    omega
  have hcount := Machine.countP_add_measure_le Stopped (Label.admits i) (State.pass i) hinv hadmit
    hother ⟨inv_of_reachable hreach, hstop⟩ hruns (Machine.steps_true s ls)
  exact ⟨Nat.le_trans (Nat.le_add_right ..) hcount, s.pass_le_one i⟩

def Label.polled : List Label :=
  -- the proxy has just seen that the token is not set
  Label.started ++ [.task 1 (.step (.tcp (.listener .pollNone))), .main .signal]

def Label.lastAccepted : List Label :=
  [.task 1 (.step (.tcp (.listener (.accept webConn ⟨webConn.peer.ip⟩)))),
    .task 1 (.step (.tcp (.listener .pollStop)))]

set_option maxRecDepth 4000 in
theorem admits_after_signal_polled
    : let s := (main webSettings).exec (launch webSettings) Label.polled
      (main webSettings).Runs s Label.lastAccepted
        ∧ Label.lastAccepted.countP (Label.admits 1) = 1
        ∧ Label.lastAccepted.countP (Label.admits 1) ≤ s.pass 1
        -- the exporter has not polled the token, and lets nobody in
        ∧ Label.lastAccepted.countP (Label.admits 0) ≤ 0 := by
  intro s
  have hpolled : (main webSettings).Runs (launch webSettings) Label.polled := by decide
  have hruns : (main webSettings).Runs s Label.lastAccepted := by decide
  have hadmits := admits_after_signal hpolled.reachable (by decide) hruns
  have hexporter : s.pass 0 = 0 := by decide
  exact ⟨hruns, by decide, (hadmits 1).1, hexporter ▸ (hadmits 0).1⟩

end Process
