import Oxiduct.Config.Basic
import Oxiduct.Machine.Basic
import Oxiduct.Udp.Basic

/-!
This module contains the atomic steps of `udp::serve_graceful`, grouped by the task that takes them.
A branch of the source is a guard: exactly one of the steps of a branching section is enabled. A
biased `select!` polls its tokens first (`select`), then everything it waits for (`polled`); a token
that fires after it was polled wakes the task, but the I/O of the same pass may still win. The cleanup
task's is not biased and may take any branch that is ready.
-/

namespace Udp

open Limits

inductive EnvAct where
  | stopAccepting
  | forceShutdown
  | advance (now : Nat)
  -- the last `Arc` of the session map goes away
  | teardown
  deriving DecidableEq, Repr

inductive ListenerAct where
  | pollForce
  | pollStop
  | pollNone
  | tick
  | readMap
  | drained
  | undrained (noSessions : Bool)
  | shutdown
  | recv (src : SocketAddr) (data : Packet)
  | recvErr
  | hit (src : SocketAddr) (data : Packet) (session : Session)
  | evict (src : SocketAddr) (data : Packet) (session : Session)
  | miss (src : SocketAddr) (data : Packet)
  | dropDraining (src : SocketAddr) (data : Packet)
  | dropPending (src : SocketAddr) (data : Packet)
  | mark (src : SocketAddr) (data : Packet)
  | acquire (src : SocketAddr) (data : Packet) (slot : Guard)
  | reject (src : SocketAddr) (data : Packet) (why : Reject)
  | unmark (src : SocketAddr)
  | spawn (src : SocketAddr) (data : Packet) (slot : Guard)
  | leave (how : Leave)
  deriving DecidableEq, Repr

inductive SetupAct where
  | openOk (slot : Guard) (id : Nat)
  | openErr (slot : Guard)
  | pass (session : Session)
  | abort (session : Session)
  | dropSession (session : Session)
  | trySend (session : Session)
  | insert (session : Session)
  | dropGuard (outcome : Outcome)
  deriving DecidableEq, Repr

inductive RelayAct where
  | poll
  | stop
  | take (data : Packet)
  -- the channel is closed (up) or the receive failed (down)
  | ended
  | sent (data : Packet)
  | sendErr (data : Packet)
  | cancel
  deriving DecidableEq, Repr

inductive CleanupAct where
  | compute
  | stop (since wait : Nat)
  | notified (since wait : Nat)
  | timer (since wait : Nat)
  | readClock
  | retain (now : Nat)
  deriving DecidableEq, Repr

inductive Label where
  | env (act : EnvAct)
  | listener (act : ListenerAct)
  | setup (i : Nat) (task : Task) (act : SetupAct)
  | relay (id : Nat) (side : Side) (act : RelayAct)
  | cleanup (act : CleanupAct)
  deriving DecidableEq, Repr

namespace ListenerPc

def isReturned : ListenerPc → Bool
  | .returned _ => true
  | _ => false

end ListenerPc

def cleanupWait (cfg : ProxyConfig) (s : State) : Nat :=
  if s.sessionList.any fun session => (s.cells session.id).cancel then
    0
  else if 0 < cfg.idleTimeoutSecs then
    let idleMs := saturatingMul cfg.idleTimeoutSecs.toNat 1000
    let untilIdle := s.sessionList.map fun session =>
      saturatingAdd (s.cells session.id).lastActivity idleMs - s.now
    min (untilIdle.min?.getD 5000) 5000
  else
    5000

def isDead (s : State) (session : Session) : Bool :=
  (s.cells session.id).cancel

def isStale (cfg : ProxyConfig) (now : Nat) (s : State) (session : Session) : Bool :=
  0 < cfg.idleTimeoutSecs
    && saturatingMul cfg.idleTimeoutSecs.toNat 1000 ≤ now - (s.cells session.id).lastActivity

def retainPass (cfg : ProxyConfig) (now : Nat) (s : State) : State :=
  let isEvicted session := isDead s session || isStale cfg now s session
  let evicted := s.sessionList.filter isEvicted
  let kept := s.sessions.retain fun session => !isEvicted session
  let t := (s.cancelAll (evicted.map Session.id)).dropSessions evicted
  { t with
    sessions := kept
    closed := s.closed ++ evicted.map fun session =>
      (session.id, if isDead s session then .error else .idleTimeout)
    active := kept.size
  }

namespace CleanupAct

def guard (s : State) : CleanupAct → Prop
  | .compute => s.cleanup = .compute
  | .stop since wait =>
    s.cleanup = .waiting since wait ∧ (s.cleanupShutdown = true ∨ s.forceShutdown = true)
  | .notified since wait => s.cleanup = .waiting since wait ∧ s.permit = true
  | .timer since wait => s.cleanup = .waiting since wait ∧ since + wait ≤ s.now
  | .readClock => s.cleanup = .fired
  | .retain now => s.cleanup = .locking now

def effect (cfg : ProxyConfig) (s : State) : CleanupAct → State
  | .compute => { s with cleanup := .waiting s.now (cleanupWait cfg s) }
  | .stop .. => { s with cleanup := .done }
  | .notified .. => { s with permit := false, cleanup := .compute }
  | .timer .. => { s with cleanup := .fired }
  | .readClock => { s with cleanup := .locking s.now }
  | .retain now => { retainPass cfg now s with cleanup := .compute }

end CleanupAct

namespace ListenerAct

def guard (s : State) : ListenerAct → Prop
  | .pollForce => (s.listener = .select ∨ s.listener = .polled) ∧ s.forceShutdown = true
  | .pollStop =>
    (s.listener = .select ∨ s.listener = .polled)
      ∧ s.forceShutdown = false ∧ s.stopAccepting = true ∧ s.draining = false
  | .pollNone =>
    s.listener = .select
      ∧ s.forceShutdown = false ∧ ¬ (s.stopAccepting = true ∧ s.draining = false)
  | .tick => s.listener = .polled ∧ s.draining = true
  | .readMap => s.listener = .drainMap
  | .drained => s.listener = .drainPending true ∧ s.pending = ∅
  | .undrained noSessions =>
    s.listener = .drainPending noSessions ∧ ¬ (noSessions = true ∧ s.pending = ∅)
  | .shutdown => s.listener = .shutdown
  | .recv .. => s.listener = .polled
  | .recvErr => s.listener = .polled
  | .hit src data session =>
    s.listener = .lookup src data
      ∧ s.sessions.lookup src = some session ∧ (s.cells session.id).cancel = false
  | .evict src data session =>
    s.listener = .lookup src data
      ∧ s.sessions.lookup src = some session ∧ (s.cells session.id).cancel = true
  | .miss src data => s.listener = .lookup src data ∧ s.sessions.lookup src = none
  | .dropDraining src data => s.listener = .slow src data ∧ s.draining = true
  | .dropPending src data => s.listener = .slow src data ∧ s.draining = false ∧ src ∈ s.pending
  | .mark src data => s.listener = .slow src data ∧ s.draining = false ∧ src ∉ s.pending
  | .acquire src data slot =>
    s.listener = .marked src data ∧ (s.limits.tryAcquire src.ip).result = .ok slot
  | .reject src data why =>
    s.listener = .marked src data ∧ (s.limits.tryAcquire src.ip).result = .error why
  | .unmark src => s.listener = .rejected src
  | .spawn src data slot => s.listener = .admitted src data slot
  | .leave how => s.listener = .left how

def effect (s : State) : ListenerAct → State
  | .pollForce => { s with listener := .shutdown }
  | .pollStop => { s with draining := true, listener := .select }
  | .pollNone => { s with listener := .polled }
  | .tick => { s with listener := .drainMap }
  | .readMap => { s with listener := .drainPending (s.sessions.size = 0) }
  | .drained => { s with listener := .left .drained }
  | .undrained _ => { s with listener := .select }
  | .shutdown =>
    let found := s.sessionList.map Session.id
    { s.cancelAll found with
      closed := s.closed ++ found.map fun id => (id, .shutdown)
      active := 0
      listener := .left (.forced found)
    }
  | .recv src data =>
    { s with received := s.received ++ [(src, data)], listener := .lookup src data }
  | .recvErr => { s with listener := .select }
  | .hit _ data session =>
    let t := s.updCell session.id fun c => { c with lastActivity := s.now }.trySend data
    { t with listener := .select }
  | .evict src data session =>
    { s.dropSessions [session] with
      sessions := s.sessions.erase src
      closed := s.closed ++ [(session.id, .error)]
      active := Dict.size (s.sessions.erase src)
      listener := .slow src data
    }
  | .miss src data => { s with listener := .slow src data }
  | .dropDraining .. => { s with listener := .select }
  | .dropPending .. => { s with listener := .select }
  | .mark src data => { s with pending := insert src s.pending, listener := .marked src data }
  | .acquire src data slot =>
    { s with
      limits := (s.limits.tryAcquire src.ip).limits
      listener := .admitted src data slot
    }
  | .reject src _ why =>
    { s with
      limits := (s.limits.tryAcquire src.ip).limits
      rejected := s.rejected ++ [why]
      listener := .rejected src
    }
  | .unmark src => { s with pending := s.pending.erase src, listener := .select }
  | .spawn src data slot =>
    -- the listener handles one datagram at a time: the last one received triggered this setup
    { s with
      tasks := s.tasks ++ [(⟨src, data, s.received.length - 1⟩, .opening slot)]
      listener := .select
    }
  | .leave how => { s with cleanupShutdown := true, listener := .returned how }

end ListenerAct

namespace SetupAct

def pre : SetupAct → SetupPc
  | .openOk slot _ => .opening slot
  | .openErr slot => .opening slot
  | .pass session => .opened session
  | .abort session => .opened session
  | .dropSession session => .aborting session
  | .trySend session => .checked session
  | .insert session => .sent session
  | .dropGuard outcome => .finished outcome

def post : SetupAct → SetupPc
  | .openOk slot id => .opened ⟨id, slot⟩
  | .openErr _ => .finished .failed
  | .pass session => .checked session
  | .abort session => .aborting session
  | .dropSession _ => .finished .aborted
  | .trySend session => .sent session
  | .insert _ => .finished .inserted
  | .dropGuard _ => .done

def guard (s : State) : SetupAct → Prop
  | .openOk _ id => id = s.nextId
  | .pass _ => s.forceShutdown = false
  | .abort _ => s.forceShutdown = true
  | _ => True

def effect (s : State) (task : Task) : SetupAct → State
  | .openOk _ id =>
    { s.updCell id fun _ => .opened task.src task.born s.now with nextId := s.nextId + 1 }
  | .openErr slot => { s with limits := s.limits.release slot }
  | .pass _ => s
  | .abort session => s.cancelAll [session.id]
  | .dropSession session => s.dropSessions [session]
  | .trySend session => s.updCell session.id fun c => c.trySend task.data
  | .insert session =>
    { s.dropSessions (s.sessions.lookup task.src).toList with
      sessions := s.sessions.insert task.src session
      opened := s.opened ++ [session.id]
      active := Dict.size (s.sessions.insert task.src session)
      permit := true
    }
  | .dropGuard _ => { s with pending := s.pending.erase task.src }

end SetupAct

namespace RelayAct

def guard (s : State) (id : Nat) (side : Side) : RelayAct → Prop
  | .poll =>
    (s.cells id).pc side = .select
      ∧ s.forceShutdown = false ∧ (s.cells id).cancel = false
  | .stop =>
    ((s.cells id).pc side = .select ∨ (s.cells id).pc side = .polled)
      ∧ (s.forceShutdown = true ∨ (s.cells id).cancel = true)
  | .take data =>
    (s.cells id).pc side = .polled ∧ (side = .up → (s.cells id).queue.head? = some data)
  | .ended =>
    (s.cells id).pc side = .polled
      ∧ (side = .up → (s.cells id).queue = [] ∧ (s.cells id).tx = false)
  | .sent data => (s.cells id).pc side = .send data
  | .sendErr data => (s.cells id).pc side = .send data
  | .cancel => (s.cells id).pc side = .exit

def apply (now : Nat) (side : Side) (c : Cell) : RelayAct → Cell
  | .poll => c.setPc side .polled
  | .stop => c.setPc side .exit
  | .take data =>
    let c := { c with lastActivity := now }.setPc side (.send data)
    match side with
    | .up => { c with queue := c.queue.tail }
    | .down => { c with replies := c.replies ++ [data] }
  | .ended => c.setPc side .exit
  | .sent data =>
    let c := c.setPc side .select
    match side with
    | .up => { c with upstream := c.upstream ++ [data] }
    | .down => { c with delivered := c.delivered ++ [(c.src, data)] }
  | .sendErr _ => c.setPc side .exit
  | .cancel =>
    let c := { c with cancel := true }.setPc side .done
    match side with
    -- the receiver goes with its task
    | .up => { c with queue := [] }
    | .down => c

def effect (s : State) (id : Nat) (side : Side) (act : RelayAct) : State :=
  s.updCell id fun c => act.apply s.now side c

end RelayAct

namespace EnvAct

def guard (s : State) : EnvAct → Prop
  | .stopAccepting => True
  | .forceShutdown => True
  | .advance now => s.now ≤ now ∧ now < u64Max
  | .teardown =>
    s.listener.isReturned = true ∧ s.cleanup = .done ∧ ∀ task ∈ s.tasks, task.2 = .done

def effect (s : State) : EnvAct → State
  | .stopAccepting => { s with stopAccepting := true }
  | .forceShutdown => { s with forceShutdown := true }
  | .advance now => { s with now }
  | .teardown => { s.dropSessions s.sessionList with sessions := ∅ }

end EnvAct

def guard (s : State) : Label → Prop
  | .env act => act.guard s
  | .listener act => act.guard s
  | .setup i task act => s.tasks[i]? = some (task, act.pre) ∧ act.guard s
  | .relay id side act => id < s.nextId ∧ act.guard s id side
  | .cleanup act => act.guard s

def effect (cfg : ProxyConfig) (s : State) : Label → State
  | .env act => act.effect s
  | .listener act => act.effect s
  | .setup i task act => { act.effect s task with tasks := s.tasks.set i (task, act.post) }
  | .relay id side act => act.effect s id side
  | .cleanup act => act.effect cfg s

def serveGraceful (cfg : ProxyConfig) : Machine State Label where
  guard := guard
  effect := effect cfg

def start (cfg : ProxyConfig) : State where
  now := 0
  stopAccepting := false
  forceShutdown := false
  cleanupShutdown := false
  sessions := ∅
  pending := ∅
  limits := .new cfg.maxConnections cfg.maxPerIp
  cells := fun _ => .opened (.v4 ⟨0, 0, 0, 0⟩ 0) 0 0
  nextId := 0
  listener := .select
  draining := false
  tasks := []
  cleanup := .compute
  permit := false
  active := 0
  opened := []
  closed := []
  rejected := []
  received := []

namespace Label

def arrival (src : SocketAddr) (data : Packet) : List Label :=
  [.listener .pollNone, .listener (.recv src data), .listener (.miss src data)]

def admission (src : SocketAddr) (data : Packet) : List Label :=
  [.listener (.mark src data), .listener (.acquire src data ⟨src.ip⟩),
    .listener (.spawn src data ⟨src.ip⟩)]

def opening (i : Nat) (task : Task) (session : Session) : List Label :=
  [.setup i task (.openOk session.slot session.id), .setup i task (.pass session),
    .setup i task (.trySend session)]

def handover (i : Nat) (task : Task) (session : Session) : List Label :=
  [.setup i task (.insert session), .setup i task (.dropGuard .inserted)]

end Label

def dnsProxy : ProxyConfig := .untuned "0.0.0.0:53" "198.51.100.7:53" .udp

def dnsClient : SocketAddr := .v4 ⟨192, 0, 2, 1⟩ 4000

def dnsQuery : Task := ⟨dnsClient, [1], 0⟩

def dnsSession (id : Nat) : Session := ⟨id, ⟨dnsClient.ip⟩⟩

instance (s : State) (act : EnvAct) : Decidable (act.guard s) := by
  cases act <;> simp only [EnvAct.guard] <;> infer_instance

instance (s : State) (act : ListenerAct) : Decidable (act.guard s) := by
  cases act <;> simp only [ListenerAct.guard] <;> infer_instance

instance (s : State) (act : SetupAct) : Decidable (act.guard s) := by
  cases act <;> simp only [SetupAct.guard] <;> infer_instance

instance (s : State) (id : Nat) (side : Side) (act : RelayAct)
    : Decidable (act.guard s id side) := by
  cases act <;> simp only [RelayAct.guard] <;> infer_instance

instance (s : State) (act : CleanupAct) : Decidable (act.guard s) := by
  cases act <;> simp only [CleanupAct.guard] <;> infer_instance

instance (cfg : ProxyConfig) (s : State) (l : Label)
    : Decidable ((serveGraceful cfg).guard s l) := by
  cases l <;> simp only [serveGraceful, guard] <;> infer_instance

end Udp
