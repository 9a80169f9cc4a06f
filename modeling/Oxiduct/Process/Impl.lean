import Oxiduct.Process.Basic

/-!
This module contains the atomic steps of the process: those of `main` and of its tasks. Every service
sees the process's clock and tokens. What the exporter renders is a part of its step.
-/

namespace Process

inductive MainAct where
  -- `join_next` returns in front of any signal
  | finished (i : Nat)
  | noTasks
  | signal
  | join (i : Nat)
  | drained
  | elapsed

inductive TaskAct where
  | publish
  | bindOk
  | bindErr
  | step (l : ServiceLabel)
  | finish
  | panic

inductive Label where
  | main (act : MainAct)
  | task (i : Nat) (act : TaskAct)
  | advance (now : Nat)

/--
`tokio::time::timeout` puts a deadline that `Instant` cannot represent thirty years ahead.
-/
def timeoutAt (now secs : Nat) : Nat :=
  if now / 1000 + secs < 2 ^ 63 then
    now + 1000 * secs
  else
    now + 1000 * (30 * 365 * 86400)

def Task.isFinished (task : Task) : Prop :=
  task.result ≠ none ∧ task.joined = false

instance (task : Task) : Decidable task.isFinished := by
  unfold Task.isFinished
  infer_instance

def Result.exitCode : Result → Nat
  | .ok => 0
  | _ => 1

namespace State

def notify (s : State) (event : Event) : State :=
  { s with
    world := event.effect s.world
    tasks := s.tasks.map fun task => task.notify event
  }

def exit (s : State) (code : Nat) : State :=
  { s with main := .exited code }

end State

namespace MainAct

def guard (s : State) : MainAct → Prop
  | .finished i => s.main = .running ∧ ∃ task, s.tasks[i]? = some task ∧ task.isFinished
  | .noTasks => s.main = .running ∧ ∀ task ∈ s.tasks, task.joined = true
  | .signal => s.main = .running
  | .join i =>
    (s.main = .forced ∨ ∃ deadline, s.main = .draining deadline)
      ∧ ∃ task, s.tasks[i]? = some task ∧ task.isFinished
  | .drained =>
    (s.main = .forced ∨ ∃ deadline, s.main = .draining deadline)
      ∧ ∀ task ∈ s.tasks, task.joined = true
  -- `timeout` polls `drain` before its timer
  | .elapsed =>
    (∃ deadline, s.main = .draining deadline ∧ deadline ≤ s.world.now)
      ∧ ∃ task ∈ s.tasks, task.joined = false

def effect (settings : Settings) (s : State) : MainAct → State
  | .finished i =>
    match s.tasks[i]? with
    | some ⟨spec, phase, some result, _⟩ =>
      { s with tasks := s.tasks.set i ⟨spec, phase, some result, true⟩ }.exit result.exitCode
    | _ => s
  | .noTasks => s.exit 0
  | .signal =>
    { s.notify .stop with
      main := .draining (timeoutAt s.world.now settings.shutdownGrace.toNat)
    }
  | .join i =>
    match s.tasks[i]? with
    | some ⟨spec, phase, some result, _⟩ =>
      { s with
        tasks := s.tasks.set i ⟨spec, phase, some result, true⟩
        anyError := s.anyError || result ≠ .ok
      }
    | _ => s
  | .drained => s.exit (if s.anyError then 1 else 0)
  | .elapsed => { s.notify .force with main := .forced }

end MainAct

namespace TaskAct

def guard (task : Task) : TaskAct → Prop
  | .publish => task.phase matches .spawned ∧ task.result = none
  | .bindOk => task.phase matches .binding ∧ task.result = none
  | .bindErr => task.phase matches .binding ∧ task.result = none
  | .step l =>
    ∃ service, task.phase.service? = some service
      ∧ service.guard l ∧ l.isEnv = false
      ∧ (task.result = some .panicked → l.isDetached = true)
  | .finish =>
    ∃ service, task.phase.service? = some service
      ∧ service.returned = true ∧ task.result = none
  | .panic => task.result = none

def next (w : World) (task : Task) : TaskAct → Task
  | .publish => { task with phase := .binding }
  | .bindOk => { task with phase := .serving (task.spec.start w) }
  | .bindErr => { task with phase := .unbound, result := some .err }
  | .step l =>
    match task.phase with
    | .serving service => { task with phase := .serving (service.effect l) }
    | _ => task
  | .finish => { task with result := some .ok }
  | .panic => { task with result := some .panicked }

def ops (task : Task) : TaskAct → List Metrics.Op
  | .publish => task.spec.publishOps
  | .bindOk => task.spec.startOps
  | .step l =>
    match task.phase with
    | .serving service => service.ops l
    | _ => []
  | _ => []

end TaskAct

variable (settings : Settings)

def guard (s : State) (l : Label) : Prop :=
  s.main.isExited = false
    ∧ match l with
      | .main act => act.guard s
      | .task i act => ∃ task, s.tasks[i]? = some task ∧ act.guard task
      | .advance now => s.world.now ≤ now ∧ now < u64Max

def effect (s : State) : Label → State
  | .main act => act.effect settings s
  | .task i act =>
    match s.tasks[i]? with
    | some task =>
      { s with
        tasks := s.tasks.set i (act.next s.world task)
        registry := s.registry.applyAll (act.ops task)
      }
    | none => s
  | .advance now => s.notify (.advance now)

def main : Machine State Label where
  guard := guard
  effect := effect settings

def webProxy : ProxyConfig := .fromToml 0 (Config.web "8080") {}

def webSettings : Settings where
  proxies := [webProxy]
  metricsListen := some "127.0.0.1:9090"
  shutdownGrace := Defaults.shutdownGraceSecs

def webArgs : Cli where
  listen := none
  target := none
  protocol := .tcp
  connectTimeout := Defaults.connectTimeoutSecs
  keepaliveIdle := Defaults.keepaliveIdleSecs
  keepaliveInterval := Defaults.keepaliveIntervalSecs
  keepaliveRetries := Defaults.keepaliveRetries
  userTimeoutMs := Defaults.userTimeoutMs
  idleTimeout := Defaults.idleTimeoutSecs
  halfCloseTimeout := Defaults.halfCloseTimeoutSecs
  maxConnections := Defaults.maxConnections
  maxPerIp := Defaults.maxPerIp
  proxyProtocol := false
  config := some (Config.webFile ["8080"])
  metricsListen := some "127.0.0.1:9090"
  shutdownGrace := none

def webConn : Tcp.Conn :=
  { Tcp.webConn with cfg := webProxy }

def Label.started : List Label :=
  [.task 0 .bindOk, .task 1 .publish, .task 1 .bindOk]

def Label.accepting : List Tcp.ServerLabel :=
  [.listener .pollNone, .listener (.accept webConn ⟨webConn.peer.ip⟩)]
    ++ Tcp.Label.connect.map (.task 0)

def Label.relaying : List Label :=
  -- a TCP proxy beside the exporter, with one connection in its relay
  Label.started ++ Label.accepting.map fun l => .task 1 (.step (.tcp l))

instance (service : Service) (l : ServiceLabel) : Decidable (service.guard l) := by
  cases service <;> cases l <;> simp only [Service.guard] <;> infer_instance

instance (s : State) (act : MainAct) : Decidable (act.guard s) := by
  have hdraining : Decidable (∃ deadline, s.main = .draining deadline) :=
    match s.main with
    | .draining deadline => .isTrue ⟨deadline, rfl⟩
    | .running => .isFalse (by simp)
    | .forced => .isFalse (by simp)
    | .exited _ => .isFalse (by simp)
  have helapsed : Decidable (∃ deadline, s.main = .draining deadline ∧ deadline ≤ s.world.now) :=
    match s.main with
    | .draining deadline => decidable_of_iff (deadline ≤ s.world.now) (by simp)
    | .running => .isFalse (by simp)
    | .forced => .isFalse (by simp)
    | .exited _ => .isFalse (by simp)
  cases act <;> simp only [MainAct.guard] <;> infer_instance

instance (task : Task) (act : TaskAct) : Decidable (act.guard task) := by
  cases act <;> simp only [TaskAct.guard] <;> infer_instance

instance (s : State) (l : Label) : Decidable ((main settings).guard s l) := by
  cases l <;> simp only [main, guard] <;> infer_instance

end Process
