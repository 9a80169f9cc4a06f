import Oxiduct.Process.Lemmas.Basic
import Oxiduct.Process.Lemmas.Settings

/-!
This module contains what the registry says about the process: the series of each proxy are its own
counters, in every interleaving of the tasks that share the registry.
-/

def Protocol.label : Protocol → String
  | .tcp => "tcp"
  | .udp => "udp"

namespace Process

open Metrics (Registry Counts Labels Op amounts levels)

variable {settings : Settings} {s : State} {l : Label}

namespace Service

def counts : Service → Counts
  | .tcp _ s => s.counts
  | .udp _ s => s.counts
  | .exporter _ => {}

def active : Service → Int
  | .tcp _ s => s.active
  | .udp _ s => s.active
  | .exporter _ => 0

def counted : Service → ServiceLabel → Counts
  | .tcp _ s, .tcp l => l.counted s
  | .udp cfg s, .udp l => l.counted cfg s
  | _, _ => {}

variable {cfg : ProxyConfig} {service : Service} {l : ServiceLabel}

theorem counts_effect (hguard : service.guard l)
    : (service.effect l).counts = service.counts.add (service.counted l) := by
  cases service with
  | tcp cfg s =>
    cases l with
    | tcp l => exact Tcp.counts_effect hguard
    | _ => exact hguard.elim
  | udp cfg s =>
    cases l with
    | udp l => exact Udp.counts_effect hguard
    | _ => exact hguard.elim
  | exporter s =>
    cases l with
    | exporter l => exact (Counts.add_zero _).symm
    | _ => exact hguard.elim

theorem amounts_ops (hserves : (Spec.proxy cfg).Serves service) (hguard : service.guard l)
    (family : Metrics.Counter) (rest : Labels)
    : amounts family (cfg.name :: rest) (service.ops l)
        = (service.counted l).counter cfg.protocol.label family rest := by
  cases service with
  | tcp cfg' s =>
    rcases hserves with ⟨rfl, hprotocol⟩
    cases l with
    | tcp l =>
      rw [hprotocol]
      apply Tcp.ServerLabel.amounts_ops
    | _ => exact hguard.elim
  | udp cfg' s =>
    rcases hserves with ⟨rfl, hprotocol⟩
    cases l with
    | udp l =>
      rw [hprotocol]
      apply Udp.Label.amounts_ops
    | _ => exact hguard.elim
  | exporter s => exact hserves.elim

theorem levels_active (hserves : (Spec.proxy cfg).Serves service) (hguard : service.guard l)
    : levels .active [cfg.name] service.active (service.ops l) = (service.effect l).active := by
  cases service with
  | tcp cfg' s =>
    rcases hserves with ⟨rfl, _⟩
    cases l with
    | tcp l => apply Tcp.ServerLabel.levels_active
    | _ => exact hguard.elim
  | udp cfg' s =>
    rcases hserves with ⟨rfl, _⟩
    cases l with
    | udp l => apply Udp.Label.levels_active
    | _ => exact hguard.elim
  | exporter s => exact hserves.elim

theorem levels_limit (hserves : (Spec.proxy cfg).Serves service) (l : ServiceLabel)
    {family : Metrics.Gauge} (hfamily : family ≠ .active) (before : Int)
    : levels family [cfg.name] before (service.ops l) = before := by
  cases service with
  | tcp cfg' s =>
    rcases hserves with ⟨rfl, _⟩
    cases l with
    | tcp l => apply Tcp.ServerLabel.levels_limit _ _ _ hfamily
    | _ => rfl
  | udp cfg' s =>
    rcases hserves with ⟨rfl, _⟩
    cases l with
    | udp l => apply Udp.Label.levels_limit _ _ _ _ hfamily
    | _ => rfl
  | exporter s => exact hserves.elim

theorem names_ops (hserves : (Spec.proxy cfg).Serves service) (l : ServiceLabel)
    : ∀ op ∈ service.ops l, op.Names cfg.name := by
  cases service with
  | tcp cfg' s =>
    rcases hserves with ⟨rfl, _⟩
    cases l with
    | tcp l => apply Tcp.ServerLabel.names_ops
    | _ => simp [ops]
  | udp cfg' s =>
    rcases hserves with ⟨rfl, _⟩
    cases l with
    | udp l => apply Udp.Label.names_ops
    | _ => simp [ops]
  | exporter s => exact hserves.elim

theorem counts_tcp_env (s : Tcp.Server) (act : Tcp.ServerEnvAct)
    : (Tcp.Server.effect s (.env act)).counts = s.counts := by
  have hbytes := Tcp.bytes_effect (s := s) (l := .env act) (by simp)
  ext1
  case up => exact hbytes .up
  case down => exact hbytes .down
  all_goals
    cases act <;> rfl

theorem books_notify (service : Service) (event : Event)
    : (service.notify event).counts = service.counts
        ∧ (service.notify event).active = service.active := by
  cases service with
  | tcp cfg s =>
    have hcounts := counts_tcp_env s
    cases event with
    | stop => exact ⟨hcounts .stopAccepting, rfl⟩
    | force => exact ⟨hcounts .forceShutdown, rfl⟩
    | advance now => exact ⟨hcounts (.advance now), rfl⟩
  | udp cfg s => cases event <;> exact ⟨rfl, rfl⟩
  | exporter s => cases event <;> exact ⟨rfl, rfl⟩

theorem books_start (spec : Spec) (w : World)
    : (spec.start w).counts = {} ∧ (spec.start w).active = 0 := by
  cases spec with
  | exporter addr => exact ⟨rfl, rfl⟩
  | proxy cfg =>
    simp only [Spec.start]
    split <;> exact ⟨rfl, rfl⟩

end Service

namespace Spec

def name? : Spec → Option String
  | .exporter _ => none
  | .proxy cfg => some cfg.name

theorem amounts_startOps (cfg : ProxyConfig) (family : Metrics.Counter) (rest : Labels)
    : amounts family (cfg.name :: rest) (Spec.proxy cfg).startOps = 0 := by
  simp only [startOps]
  split <;> simp [Udp.startOps]

theorem levels_startOps (cfg : ProxyConfig) (family : Metrics.Gauge) (before : Int)
    : levels family [cfg.name] before (Spec.proxy cfg).startOps = before := by
  simp only [startOps]
  split <;> simp [Udp.startOps]

end Spec

namespace Phase

def counts : Phase → Counts
  | .serving service => service.counts
  | _ => {}

def active : Phase → Int
  | .serving service => service.active
  | _ => 0

def level (cfg : ProxyConfig) (phase : Phase) : Metrics.Gauge → Int
  | .active => phase.active
  | .limitMaxConnections => if phase matches .spawned then 0 else cfg.maxConnections.toNat
  | .limitMaxPerIp => if phase matches .spawned then 0 else cfg.maxPerIp.toNat

theorem counts_notify (phase : Phase) (event : Event)
    : (phase.notify event).counts = phase.counts := by
  cases phase with
  | serving service => exact (service.books_notify event).1
  | _ => rfl

theorem level_notify (cfg : ProxyConfig) (phase : Phase) (event : Event)
    : (phase.notify event).level cfg = phase.level cfg := by
  cases phase with
  | serving service =>
    ext1 family
    cases family with
    | active => exact (service.books_notify event).2
    | _ => rfl
  | _ => rfl

end Phase

structure Recorded (r : Registry) (cfg : ProxyConfig) (phase : Phase) : Prop where
  counter : ∀ family rest,
    r.counter family (cfg.name :: rest) = phase.counts.counter cfg.protocol.label family rest
  gauge : ∀ family, r.gauge family [cfg.name] = phase.level cfg family

namespace Recorded

variable {r : Registry} {cfg : ProxyConfig} {phase phase' : Phase} {ops : List Op}

theorem applyAll (h : Recorded r cfg phase)
    (hamounts : ∀ family rest, phase.counts.counter cfg.protocol.label family rest
      + amounts family (cfg.name :: rest) ops = phase'.counts.counter cfg.protocol.label family rest)
    (hlevels : ∀ family, levels family [cfg.name] (phase.level cfg family) ops
      = phase'.level cfg family)
    : Recorded (r.applyAll ops) cfg phase' where
  counter := fun family rest => by rw [Registry.counter_applyAll, h.counter, hamounts]
  gauge := fun family => by rw [Registry.gauge_applyAll, h.gauge, hlevels]

theorem of_other (h : Recorded r cfg phase) {name : String} (hops : ∀ op ∈ ops, op.Names name)
    (hne : name ≠ cfg.name)
    : Recorded (r.applyAll ops) cfg phase := by
  apply h.applyAll
  . intro family rest
    rw [Metrics.amounts_of_other hops hne]
    exact UInt64.add_zero _
  . intro family
    exact Metrics.levels_of_other hops hne ..

theorem publish (h : Recorded r cfg .spawned)
    : Recorded (r.applyAll (Spec.proxy cfg).publishOps) cfg .binding := by
  apply h.applyAll
  . intro family rest
    simp [Spec.publishOps, Phase.counts]
  . intro family
    cases family <;> simp [Spec.publishOps, Phase.level, Phase.active]

theorem bindOk (h : Recorded r cfg .binding) (w : World)
    : Recorded (r.applyAll (Spec.proxy cfg).startOps) cfg (.serving ((Spec.proxy cfg).start w)) := by
  have hbooks := Service.books_start (.proxy cfg) w
  apply h.applyAll
  . intro family rest
    simp [Phase.counts, hbooks.1, Spec.amounts_startOps]
  . intro family
    rw [Spec.levels_startOps]
    cases family with
    | active => exact hbooks.2.symm
    | _ => rfl

theorem unbound (h : Recorded r cfg .binding) : Recorded r cfg .unbound where
  counter := h.counter
  gauge := fun family => by
    rw [h.gauge]
    cases family <;> rfl

theorem step {service : Service} (h : Recorded r cfg (.serving service))
    (hserves : (Spec.proxy cfg).Serves service) {l : ServiceLabel} (hguard : service.guard l)
    : Recorded (r.applyAll (service.ops l)) cfg (.serving (service.effect l)) := by
  apply h.applyAll
  . intro family rest
    rw [Service.amounts_ops hserves hguard, Phase.counts, Phase.counts, Service.counts_effect hguard,
      Counts.counter_add]
  . intro family
    cases family with
    | active => exact Service.levels_active hserves hguard
    | _ => exact Service.levels_limit hserves l (by simp) _

theorem next {task : Task} {act : TaskAct} {ok : Service → Prop} {w : World}
    (h : Recorded r cfg task.phase) (hinv : TaskInv ok w task) (hspec : task.spec = .proxy cfg)
    (hguard : act.guard task)
    : Recorded (r.applyAll (act.ops task)) cfg (act.next w task).phase := by
  rcases task with ⟨spec, phase, result, joined⟩
  subst hspec
  cases act with
  | publish =>
    cases phase with
    | spawned => exact h.publish
    | _ => simp [TaskAct.guard] at hguard
  | bindOk =>
    cases phase with
    | binding => exact h.bindOk w
    | _ => simp [TaskAct.guard] at hguard
  | bindErr =>
    cases phase with
    | binding => exact h.unbound
    | _ => simp [TaskAct.guard] at hguard
  | step l =>
    rcases hguard with ⟨service, hphase, hguard, _⟩
    rw [Phase.service?_eq_some] at hphase
    subst hphase
    exact h.step (hinv.service service rfl).serves hguard
  | finish => exact h
  | panic => exact h

end Recorded

theorem TaskAct.spec_next (w : World) (task : Task) (act : TaskAct)
    : (act.next w task).spec = task.spec := by
  cases act with
  | step l =>
    simp only [next]
    split <;> rfl
  | _ => rfl

theorem specs_effect (settings : Settings) (hguard : guard s l)
    : (effect settings s l).tasks.map Task.spec = s.tasks.map Task.spec := by
  cases change_effect settings hguard with
  | quiet _ htasks _ => rw [htasks]
  | notified event _ _ htasks _ =>
    rw [htasks, List.map_map]
    rfl
  | joined i task hi _ _ htasks _ =>
    rw [htasks]
    exact List.map_set_of_eq hi rfl
  | acted i task act _ hi _ _ htasks _ =>
    rw [htasks]
    exact List.map_set_of_eq hi (act.spec_next s.world task)

theorem exists_task_of_reachable (hreach : (main settings).Reachable (launch settings) s)
    {cfg : ProxyConfig} (hcfg : cfg ∈ settings.proxies)
    : ∃ task ∈ s.tasks, task.spec = .proxy cfg := by
  have hspecs : s.tasks.map Task.spec = (launch settings).tasks.map Task.spec :=
    hreach.invariant (p := fun s => s.tasks.map Task.spec = (launch settings).tasks.map Task.spec) rfl
      fun _ _ h hguard _ => (specs_effect settings hguard).trans h
  have hmem : Spec.proxy cfg ∈ s.tasks.map Task.spec := by
    rw [hspecs]
    simpa [launch, Spec.task] using hcfg
  rcases List.mem_map.mp hmem with ⟨task, hmem, hspec⟩
  exact ⟨task, hmem, hspec⟩

theorem TaskAct.names_ops {ok : Service → Prop} {w : World} {task : Task} (hinv : TaskInv ok w task)
    (act : TaskAct)
    : act.ops task = [] ∨ ∃ name ∈ task.spec.name?, ∀ op ∈ act.ops task, op.Names name := by
  rcases task with ⟨spec, phase, result, joined⟩
  cases spec with
  | exporter addr =>
    left
    cases act with
    | step l =>
      cases phase with
      | serving service =>
        have hserves := (hinv.service service rfl).serves
        cases service with
        | exporter s => rfl
        | _ => exact hserves.elim
      | _ => rfl
    | _ => rfl
  | proxy cfg =>
    right
    refine ⟨cfg.name, rfl, ?_⟩
    cases act with
    | publish => simp [TaskAct.ops, Spec.publishOps]
    | bindOk =>
      simp only [TaskAct.ops, Spec.startOps]
      split <;> simp [Udp.startOps, Udp.CloseReason.label, Metrics.Counter.values]
    | step l =>
      cases phase with
      | serving service => exact Service.names_ops (hinv.service service rfl).serves l
      | _ => simp [TaskAct.ops]
    | _ => simp [TaskAct.ops]

structure RegistryInv (settings : Settings) (s : State) : Prop where
  names : (s.tasks.map Task.spec).filterMap Spec.name? = settings.proxies.map ProxyConfig.name
  recorded : ∀ task ∈ s.tasks, ∀ cfg, task.spec = .proxy cfg → Recorded s.registry cfg task.phase
  within : s.registry.Within (settings.proxies.map ProxyConfig.name)

theorem recorded_new (cfg : ProxyConfig) : Recorded .new cfg .spawned where
  counter := fun family rest => (Counts.counter_zero ..).symm
  gauge := fun family => by cases family <;> rfl

theorem registryInv_launch (settings : Settings) : RegistryInv settings (launch settings) where
  names := by
    cases settings.metricsListen <;>
      simp [launch, Function.comp_def, Spec.task, Spec.name?, List.filterMap_map]
  recorded := by
    intro task hmem cfg hspec
    rcases exists_spec_of_launch hmem with ⟨spec, rfl⟩
    cases spec with
    | exporter addr => cases hspec
    | proxy cfg' =>
      cases hspec
      exact recorded_new cfg
  within := Registry.within_new

namespace RegistryInv

theorem name_ne (h : RegistryInv settings s) (hnodup : (settings.proxies.map ProxyConfig.name).Nodup)
    {i j : Nat} (hij : i ≠ j) {task task' : Task} (hi : s.tasks[i]? = some task)
    (hj : s.tasks[j]? = some task') {name name' : String} (hname : name ∈ task.spec.name?)
    (hname' : name' ∈ task'.spec.name?)
    : name ≠ name' := by
  rw [← h.names] at hnodup
  have hpairwise := List.pairwise_iff_getElem.mp
    (List.pairwise_map.mp (List.pairwise_filterMap.mp hnodup))
  rcases List.getElem?_eq_some_iff.mp hi with ⟨hlti, rfl⟩
  rcases List.getElem?_eq_some_iff.mp hj with ⟨hltj, rfl⟩
  rcases Nat.lt_or_gt_of_ne hij with hlt | hlt
  . exact hpairwise i j hlti hltj hlt name hname name' hname'
  . exact (hpairwise j i hltj hlti hlt name' hname' name hname).symm

theorem of_tasks (h : RegistryInv settings s) {t : State} (hregistry : t.registry = s.registry)
    {f : Task → Task} (htasks : t.tasks = s.tasks.map f)
    (hspec : ∀ task, (f task).spec = task.spec)
    (hphase : ∀ task cfg, Recorded s.registry cfg task.phase → Recorded s.registry cfg (f task).phase)
    : RegistryInv settings t where
  names := by
    rw [htasks, List.map_map, ← h.names]
    congr 2
    ext1 task
    exact hspec task
  recorded := by
    intro task hmem cfg htask
    rw [htasks] at hmem
    rcases List.mem_map.mp hmem with ⟨old, hold, rfl⟩
    rw [hregistry]
    exact hphase old cfg (h.recorded old hold cfg ((hspec old).symm.trans htask))
  within := hregistry ▸ h.within

theorem set (h : RegistryInv settings s) {t : State} {i : Nat} {task task' : Task}
    (hi : s.tasks[i]? = some task) (htasks : t.tasks = s.tasks.set i task')
    (hspec : task'.spec = task.spec)
    (hown : ∀ cfg, task.spec = .proxy cfg → Recorded t.registry cfg task'.phase)
    (hothers : ∀ j old cfg, j ≠ i → s.tasks[j]? = some old → old.spec = .proxy cfg →
      Recorded t.registry cfg old.phase)
    (hwithin : t.registry.Within (settings.proxies.map ProxyConfig.name))
    : RegistryInv settings t where
  names := by
    rw [← h.names, htasks, List.map_set_of_eq hi hspec]
  recorded := by
    intro old hmem cfg hold
    rcases List.getElem?_of_mem hmem with ⟨j, hj⟩
    rw [htasks, List.getElem?_set] at hj
    split at hj
    . split at hj
      . cases hj
        exact hown cfg (hspec.symm.trans hold)
      . cases hj
    . next hne => exact hothers j old cfg (Ne.symm hne) hj hold
  within := hwithin

theorem act (h : RegistryInv settings s) {ok : Service → Prop} (hinv : Inv ok s)
    (hnodup : (settings.proxies.map ProxyConfig.name).Nodup) {t : State} {i : Nat} {task : Task}
    {act : TaskAct} (hi : s.tasks[i]? = some task) (hguard : act.guard task)
    (htasks : t.tasks = s.tasks.set i (act.next s.world task))
    (hregistry : t.registry = s.registry.applyAll (act.ops task))
    : RegistryInv settings t := by
  have hmem := List.mem_of_getElem? hi
  have htask := hinv.tasks task hmem
  have hnames := TaskAct.names_ops htask act
  apply h.set hi htasks (act.spec_next s.world task)
  . intro cfg hspec
    rw [hregistry]
    exact (h.recorded task hmem cfg hspec).next htask hspec hguard
  . intro j old cfg hne hj hspec
    have hold := h.recorded old (List.mem_of_getElem? hj) cfg hspec
    rw [hregistry]
    rcases hnames with hnil | ⟨name, hname, hops⟩
    . rw [hnil]
      exact hold
    . exact hold.of_other hops (h.name_ne hnodup (Ne.symm hne) hi hj hname (by rw [hspec]; rfl))
  . rw [hregistry]
    rcases hnames with hnil | ⟨name, hname, hops⟩
    . rw [hnil]
      exact h.within
    . apply h.within.applyAll _ hops
      rw [← h.names]
      exact List.mem_filterMap.mpr ⟨task.spec, List.mem_map_of_mem hmem, hname⟩

theorem change (h : RegistryInv settings s) {ok : Service → Prop} (hinv : Inv ok s)
    (hnodup : (settings.proxies.map ProxyConfig.name).Nodup) {t : State}
    (hchange : Change s l t)
    : RegistryInv settings t := by
  cases hchange with
  | quiet _ htasks hregistry =>
    exact ⟨htasks ▸ h.names, htasks ▸ hregistry ▸ h.recorded, hregistry ▸ h.within⟩
  | notified event _ _ htasks hregistry =>
    apply h.of_tasks hregistry htasks (fun _ => rfl)
    intro task cfg hrecorded
    refine ⟨fun family rest => ?_, fun family => ?_⟩
    . show _ = (task.phase.notify event).counts.counter _ family rest
      rw [hrecorded.counter, task.phase.counts_notify]
    . show _ = (task.phase.notify event).level cfg family
      rw [hrecorded.gauge, task.phase.level_notify]
  | joined i task hi _ _ htasks hregistry =>
    have hrecorded := h.recorded task (List.mem_of_getElem? hi)
    refine h.set hi htasks rfl ?_ ?_ (hregistry ▸ h.within)
    . rw [hregistry]
      exact hrecorded
    . intro j old cfg _ hj hspec
      rw [hregistry]
      exact h.recorded old (List.mem_of_getElem? hj) cfg hspec
  | acted i task act _ hi hguard _ htasks hregistry =>
    exact h.act hinv hnodup hi hguard htasks hregistry

end RegistryInv

theorem registryInv_of_reachable {args : Cli} (hsettings : resolve args = .ok settings)
    (hreach : (main settings).Reachable (launch settings) s)
    : RegistryInv settings s := by
  have hnodup := names_nodup hsettings
  have hinv : Inv (fun _ => True) s ∧ RegistryInv settings s := by
    refine hreach.invariant (p := fun s => Inv (fun _ => True) s ∧ RegistryInv settings s)
      ⟨inv_launch settings, registryInv_launch settings⟩ ?_
    rintro s l ⟨hinv, hregistry⟩ hguard _
    have hchange := change_effect settings hguard
    exact ⟨hinv.change hchange (fun _ _ => trivial) (fun _ _ _ _ => trivial),
      hregistry.change hinv hnodup hchange⟩
  exact hinv.2

theorem registry_keeps_books {args : Cli} (hsettings : resolve args = .ok settings)
    (hreach : (main settings).Reachable (launch settings) s)
    : ∀ task ∈ s.tasks, ∀ cfg, task.spec = .proxy cfg → Recorded s.registry cfg task.phase :=
  (registryInv_of_reachable hsettings hreach).recorded

set_option maxRecDepth 4000 in
theorem registry_keeps_books_relaying
    : let s := (main webSettings).exec (launch webSettings) Label.relaying
      ∃ task ∈ s.tasks, Recorded s.registry webProxy task.phase
        ∧ task.phase.counts.total = 1 ∧ task.phase.active = 1 := by
  intro s
  have hruns : (main webSettings).Runs (launch webSettings) Label.relaying := by
    decide
  have hbooks := registry_keeps_books resolve_webArgs hruns.reachable
  have hmem : s.tasks.get ⟨1, by decide⟩ ∈ s.tasks := List.get_mem ..
  exact ⟨_, hmem, hbooks _ hmem webProxy rfl, rfl, rfl⟩

theorem series_bounded {args : Cli} (hsettings : resolve args = .ok settings)
    (hreach : (main settings).Reachable (launch settings) s)
    : (∀ family, (s.registry.counters family).size
          ≤ settings.proxies.length * family.values.length)
        ∧ ∀ family, (s.registry.gauges family).size ≤ settings.proxies.length := by
  have hwithin := (registryInv_of_reachable hsettings hreach).within
  constructor
  . intro family
    have hsize := hwithin.size_le family
    rwa [List.length_map] at hsize
  . intro family
    have hsize := hwithin.size_gauges_le family
    rwa [List.length_map] at hsize

set_option maxRecDepth 4000 in
theorem series_bounded_relaying
    : let s := (main webSettings).exec (launch webSettings) Label.relaying
      Dict.size (s.registry.gauges .active) = 1
        ∧ (s.registry.counters .bytesTotal).size ≤ 2 := by
  intro s
  have hruns : (main webSettings).Runs (launch webSettings) Label.relaying := by
    decide
  exact ⟨rfl, (series_bounded resolve_webArgs hruns.reachable).1 .bytesTotal⟩

end Process
