import Oxiduct.Config.Load
import Oxiduct.Metrics.Registry
import Oxiduct.Metrics.Server
import Oxiduct.Tcp.Metrics
import Oxiduct.Udp.Metrics

/-!
This module contains what `main` runs: the settings it resolves, the tasks of its `JoinSet`, and the
service each of them turns into once its socket is bound.
-/

namespace Process

structure Cli extends Args where
  config : Option TomlFile
  metricsListen : Option String
  shutdownGrace : Option UInt64

structure Settings where
  proxies : List ProxyConfig
  metricsListen : Option String
  shutdownGrace : UInt64

def resolve (args : Cli) : Except ErrorChain Settings :=
  match args.config with
  | some file => do
    let loaded ← Config.load file
    .ok {
      proxies := loaded.proxies
      metricsListen := args.metricsListen.or loaded.metricsListen
      shutdownGrace :=
        (args.shutdownGrace.or loaded.shutdownGrace).getD Defaults.shutdownGraceSecs
    }
  | none => do
    let cfg ← ProxyConfig.fromCli args.toArgs
    .ok {
      proxies := [cfg]
      metricsListen := args.metricsListen
      shutdownGrace := args.shutdownGrace.getD Defaults.shutdownGraceSecs
    }

structure World where
  now : Nat
  stopAccepting : Bool
  forceShutdown : Bool
  deriving DecidableEq, Repr

inductive Event where
  | stop
  | force
  | advance (now : Nat)
  deriving DecidableEq, Repr

def Event.effect (w : World) : Event → World
  | .stop => { w with stopAccepting := true }
  | .force => { w with forceShutdown := true }
  | .advance now => { w with now }

inductive Service where
  | tcp (cfg : ProxyConfig) (s : Tcp.Server)
  | udp (cfg : ProxyConfig) (s : Udp.State)
  | exporter (s : Metrics.Exporter)

inductive ServiceLabel where
  | tcp (l : Tcp.ServerLabel)
  | udp (l : Udp.Label)
  | exporter (l : Metrics.ExporterLabel)

def ServiceLabel.isEnv : ServiceLabel → Bool
  | .tcp (.env _) => true
  | .udp (.env .teardown) => false
  | .udp (.env _) => true
  | .exporter (.env _) => true
  | _ => false

/--
The steps of what a service has spawned on its own. They go on when its task panics; the connections
of a TCP proxy are aborted with their `JoinSet`, all but their copy tasks.
-/
def ServiceLabel.isDetached : ServiceLabel → Bool
  | .tcp (.task _ (.copy _ _)) => true
  | .tcp _ => false
  | .udp (.listener _) => false
  | .udp _ => true
  | .exporter (.handler ..) => true
  | .exporter _ => false

namespace Service

def guard : Service → ServiceLabel → Prop
  | .tcp cfg s, .tcp l => (Tcp.serveGraceful cfg).guard s l
  | .udp cfg s, .udp l => (Udp.serveGraceful cfg).guard s l
  | .exporter s, .exporter l => Metrics.serve.guard s l
  | _, _ => False

def effect : Service → ServiceLabel → Service
  | .tcp cfg s, .tcp l => .tcp cfg ((Tcp.serveGraceful cfg).effect s l)
  | .udp cfg s, .udp l => .udp cfg ((Udp.serveGraceful cfg).effect s l)
  | .exporter s, .exporter l => .exporter (Metrics.serve.effect s l)
  | service, _ => service

/--
The labels under which an event reaches a service. The exporter is given `stop_accepting` only.
-/
def notice : Service → Event → List ServiceLabel
  | .tcp .., .stop => [.tcp (.env .stopAccepting)]
  | .tcp .., .force => [.tcp (.env .forceShutdown)]
  | .tcp .., .advance now => [.tcp (.env (.advance now))]
  | .udp .., .stop => [.udp (.env .stopAccepting)]
  | .udp .., .force => [.udp (.env .forceShutdown)]
  | .udp .., .advance now => [.udp (.env (.advance now))]
  | .exporter _, .stop => [.exporter (.env .shutdown)]
  | .exporter _, .force => []
  | .exporter _, .advance now => [.exporter (.env (.advance now))]

def notify (service : Service) (event : Event) : Service :=
  (service.notice event).foldl effect service

def ops : Service → ServiceLabel → List Metrics.Op
  | .tcp cfg s, .tcp l => l.ops cfg.name s
  | .udp cfg s, .udp l => l.ops cfg cfg.name s
  | _, _ => []

def returned : Service → Bool
  | .tcp _ s => s.listener = .returned
  | .udp _ s => s.listener.isReturned
  | .exporter s => s.listener = .returned

end Service

inductive Spec where
  | exporter (addr : String)
  | proxy (cfg : ProxyConfig)

namespace Spec

def start (w : World) : Spec → Service
  -- the tokens may have been set before the socket was bound
  | .exporter _ =>
    .exporter { Metrics.listening with now := w.now, shutdown := w.stopAccepting }
  | .proxy cfg =>
    match cfg.protocol with
    | .tcp =>
      .tcp cfg
        { Tcp.listening cfg with
          now := w.now
          stopAccepting := w.stopAccepting
          forceShutdown := w.forceShutdown
        }
    | .udp =>
      .udp cfg
        { Udp.start cfg with
          now := w.now
          stopAccepting := w.stopAccepting
          forceShutdown := w.forceShutdown
        }

def startOps : Spec → List Metrics.Op
  | .exporter _ => []
  | .proxy cfg =>
    match cfg.protocol with
    | .tcp => []
    | .udp => Udp.startOps cfg.name

def publishOps : Spec → List Metrics.Op
  | .exporter _ => []
  | .proxy cfg =>
    [.set .limitMaxConnections [cfg.name] cfg.maxConnections.toNat,
      .set .limitMaxPerIp [cfg.name] cfg.maxPerIp.toNat]

end Spec

inductive Phase where
  | spawned
  | binding
  | serving (service : Service)
  | unbound

def Phase.service? : Phase → Option Service
  | .serving service => some service
  | _ => none

inductive Result where
  | ok
  | err
  | panicked
  deriving DecidableEq, Repr

structure Task where
  spec : Spec
  phase : Phase
  result : Option Result
  joined : Bool

def Phase.notify (phase : Phase) (event : Event) : Phase :=
  match phase with
  | .serving service => .serving (service.notify event)
  | phase => phase

def Task.notify (task : Task) (event : Event) : Task :=
  { task with phase := task.phase.notify event }

def Spec.task (spec : Spec) : Task :=
  match spec with
  | .exporter _ => ⟨spec, .binding, none, false⟩
  | .proxy _ => ⟨spec, .spawned, none, false⟩

inductive MainPc where
  -- the `select!` between the tasks and the signals
  | running
  -- `drain` under the grace timeout
  | draining (deadline : Nat)
  -- `drain` after `force_shutdown` was set
  | forced
  | exited (code : Nat)
  deriving DecidableEq, Repr

def MainPc.isExited : MainPc → Bool
  | .exited _ => true
  | _ => false

structure State where
  world : World
  main : MainPc
  anyError : Bool
  tasks : List Task
  registry : Metrics.Registry

def launch (settings : Settings) : State where
  world := ⟨0, false, false⟩
  main := .running
  anyError := false
  tasks :=
    (settings.metricsListen.toList.map fun addr => (Spec.exporter addr).task)
      ++ settings.proxies.map fun cfg => (Spec.proxy cfg).task
  registry := .new

end Process
