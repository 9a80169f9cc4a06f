import Oxiduct.Limits.Basic
import Oxiduct.Tcp.Impl

/-!
This module contains the atomic steps of `tcp::serve_graceful`: the accept loop, the drain that
follows it, and the connection tasks in its `JoinSet`, each of which runs `handle`. A connection's own
counters are its share of the proxy's. A task ends in the step that lets its `handle` return, which
drops its guard.
-/

namespace Tcp

open Limits

inductive ListenerPc where
  | select
  -- the token was polled and not set
  | polled
  -- the pause after a failed accept
  | backoff
  -- out of the loop, the listener is dropped
  | draining
  | returned
  deriving DecidableEq, Repr

structure Task where
  conn : Conn
  slot : Guard
  state : State
  joined : Bool

structure Server where
  now : Nat
  stopAccepting : Bool
  forceShutdown : Bool
  limits : ConnLimits
  listener : ListenerPc
  tasks : List Task
  total : Nat
  active : Int
  connectFailures : Nat
  connectTimeouts : Nat
  closed : List Reason
  rejected : List Reject

inductive ServerEnvAct where
  | stopAccepting
  | forceShutdown
  | advance (now : Nat)

inductive ListenerAct where
  | pollStop
  | pollNone
  | join (i : Nat)
  | accept (conn : Conn) (slot : Guard)
  | reject (peer : SocketAddr) (why : Reject)
  | acceptErr
  | resume
  | drained

inductive ServerLabel where
  | env (act : ServerEnvAct)
  | listener (act : ListenerAct)
  | task (i : Nat) (l : Label)

namespace HandlePc

def isReturned : HandlePc → Bool
  | .returned _ _ => true
  | _ => false

end HandlePc

def State.finished (s : State) : Bool :=
  s.handle.isReturned

def Label.isEnv : Label → Bool
  | .env _ => true
  | _ => false

namespace ListenerAct

def guard (cfg : ProxyConfig) (s : Server) : ListenerAct → Prop
  | .pollStop => (s.listener = .select ∨ s.listener = .polled) ∧ s.stopAccepting = true
  | .pollNone => s.listener = .select ∧ s.stopAccepting = false
  | .join i =>
    (s.listener = .polled ∨ s.listener = .draining)
      ∧ ∃ task, s.tasks[i]? = some task ∧ task.state.finished = true ∧ task.joined = false
  | .accept conn slot =>
    s.listener = .polled ∧ conn.cfg = cfg
      ∧ (s.limits.tryAcquire conn.peer.ip).result = .ok slot
  | .reject peer why =>
    s.listener = .polled ∧ (s.limits.tryAcquire peer.ip).result = .error why
  | .acceptErr => s.listener = .polled
  | .resume => s.listener = .backoff
  | .drained => s.listener = .draining ∧ ∀ task ∈ s.tasks, task.joined = true

def effect (s : Server) : ListenerAct → Server
  | .pollStop => { s with listener := .draining }
  | .pollNone => { s with listener := .polled }
  | .join i =>
    { s with
      tasks := s.tasks.modify i fun task => { task with joined := true }
      listener := if s.listener = .draining then .draining else .select
    }
  | .accept conn slot =>
    let state := { accepted with now := s.now, shutdown := s.forceShutdown }
    { s with
      limits := (s.limits.tryAcquire conn.peer.ip).limits
      tasks := s.tasks ++ [⟨conn, slot, state, false⟩]
      total := s.total + 1
      listener := .select
    }
  | .reject peer why =>
    { s with
      limits := (s.limits.tryAcquire peer.ip).limits
      rejected := s.rejected ++ [why]
      listener := .select
    }
  | .acceptErr => { s with listener := .backoff }
  | .resume => { s with listener := .select }
  | .drained => { s with listener := .returned }

end ListenerAct

def Server.moveTask (s : Server) (i : Nat) (task : Task) (state : State) : Server :=
  { s with
    limits :=
      if state.finished && !task.state.finished then s.limits.release task.slot else s.limits
    tasks := s.tasks.set i { task with state }
    active := s.active + (state.active - task.state.active)
    connectFailures := s.connectFailures + (state.connectFailures - task.state.connectFailures)
    connectTimeouts := s.connectTimeouts + (state.connectTimeouts - task.state.connectTimeouts)
    closed := s.closed ++ state.closed.drop task.state.closed.length
  }

namespace ServerEnvAct

def act : ServerEnvAct → List EnvAct
  | .stopAccepting => []
  | .forceShutdown => [.shutdown]
  | .advance now => [.advance now]

def guard (s : Server) : ServerEnvAct → Prop
  | .stopAccepting => True
  | .forceShutdown => True
  | .advance now => s.now ≤ now ∧ now < u64Max

def effect (s : Server) (env : ServerEnvAct) : Server :=
  let tasks := s.tasks.map fun task =>
    { task with state := env.act.foldl EnvAct.effect task.state }
  match env with
  | .stopAccepting => { s with stopAccepting := true }
  | .forceShutdown => { s with forceShutdown := true, tasks }
  | .advance now => { s with now, tasks }

end ServerEnvAct

namespace Server

def guard (cfg : ProxyConfig) (s : Server) : ServerLabel → Prop
  | .env act => act.guard s
  | .listener act => act.guard cfg s
  | .task i l =>
    l.isEnv = false ∧ ∃ task, s.tasks[i]? = some task ∧ Tcp.guard task.conn task.state l

def effect (s : Server) : ServerLabel → Server
  | .env act => act.effect s
  | .listener act => act.effect s
  | .task i l =>
    match s.tasks[i]? with
    | some task => s.moveTask i task (Tcp.effect task.conn task.state l)
    | none => s

end Server

def serveGraceful (cfg : ProxyConfig) : Machine Server ServerLabel where
  guard := Server.guard cfg
  effect := Server.effect

def listening (cfg : ProxyConfig) : Server where
  now := 0
  stopAccepting := false
  forceShutdown := false
  limits := .new cfg.maxConnections cfg.maxPerIp
  listener := .select
  tasks := []
  total := 0
  active := 0
  connectFailures := 0
  connectTimeouts := 0
  closed := []
  rejected := []

instance Option.instDecidableExistsSome {α : Type u} (o : Option α) (p : α → Prop)
    [DecidablePred p]
    : Decidable (∃ a, o = some a ∧ p a) :=
  match o with
  | none => .isFalse (by simp)
  | some a => decidable_of_iff (p a) (by simp)

instance (cfg : ProxyConfig) (s : Server) (act : ListenerAct) : Decidable (act.guard cfg s) := by
  cases act <;> simp only [ListenerAct.guard] <;> infer_instance

instance (s : Server) (act : ServerEnvAct) : Decidable (act.guard s) := by
  cases act <;> simp only [ServerEnvAct.guard] <;> infer_instance

instance (conn : Conn) (state : State) (l : Label) : Decidable (guard conn state l) :=
  inferInstanceAs (Decidable ((connection conn).guard state l))

instance (cfg : ProxyConfig) (s : Server) (l : ServerLabel)
    : Decidable ((serveGraceful cfg).guard s l) := by
  cases l <;> simp only [serveGraceful, Server.guard] <;> infer_instance

end Tcp
