import Oxiduct.Limits.Basic
import Mathlib.Data.Finset.Insert
import Mathlib.Data.Finset.Erase

/-!
This module contains the state of `udp::serve_graceful` and of the tasks it spawns. A program counter
names the next atomic section of its task; a section under the session-map lock or under the lock of
the pending set is one step. The state also records, for each counter, what it was incremented for.
-/

namespace Udp

abbrev Packet := List UInt8

/--
`Session`: `id` stands for the cells its `Arc`s, its token and its channel point to.
-/
structure Session where
  id : Nat
  slot : Limits.Guard
  deriving DecidableEq, Repr

inductive Side where
  | up
  | down
  deriving DecidableEq, Repr

inductive RelayPc where
  | select
  -- both tokens were polled and not set
  | polled
  | send (data : Packet)
  -- left the loop, `c.cancel()` is next
  | exit
  | done
  deriving DecidableEq, Repr

structure Cell where
  src : SocketAddr
  born : Nat
  tx : Bool
  queue : List Packet
  lastActivity : Nat
  cancel : Bool
  up : RelayPc
  down : RelayPc
  upstream : List Packet
  replies : List Packet
  delivered : List (SocketAddr × Packet)
  deriving DecidableEq, Repr

namespace Cell

def capacity : Nat := 256

def opened (src : SocketAddr) (born now : Nat) : Cell where
  src := src
  born := born
  tx := true
  queue := []
  lastActivity := now
  cancel := false
  up := .select
  down := .select
  upstream := []
  replies := []
  delivered := []

def pc (c : Cell) : Side → RelayPc
  | .up => c.up
  | .down => c.down

def setPc (c : Cell) (side : Side) (pc : RelayPc) : Cell :=
  match side with
  | .up => { c with up := pc }
  | .down => { c with down := pc }

def trySend (c : Cell) (data : Packet) : Cell :=
  -- an error of `try_send` (the channel is full, or its receiver is gone) drops the packet
  if c.queue.length < capacity ∧ c.up ≠ .done then
    { c with queue := c.queue ++ [data] }
  else
    c

end Cell

inductive CloseReason where
  | idleTimeout
  | error
  | shutdown
  deriving DecidableEq, Repr

/--
How the listener left its loop; `found` are the sessions the force_shutdown branch found in the map.
-/
inductive Leave where
  | drained
  | forced (found : List Nat)
  deriving DecidableEq, Repr

inductive ListenerPc where
  | select
  | polled
  | drainMap
  | drainPending (noSessions : Bool)
  | shutdown
  | lookup (src : SocketAddr) (data : Packet)
  | slow (src : SocketAddr) (data : Packet)
  | marked (src : SocketAddr) (data : Packet)
  | admitted (src : SocketAddr) (data : Packet) (slot : Limits.Guard)
  | rejected (src : SocketAddr)
  | left (how : Leave)
  | returned (how : Leave)
  deriving DecidableEq, Repr

structure Task where
  src : SocketAddr
  data : Packet
  born : Nat
  deriving DecidableEq, Repr

inductive Outcome where
  | inserted
  | failed
  | aborted
  deriving DecidableEq, Repr

inductive SetupPc where
  | opening (slot : Limits.Guard)
  | opened (session : Session)
  | checked (session : Session)
  | sent (session : Session)
  | aborting (session : Session)
  -- only the `PendingGuard` is left to drop
  | finished (outcome : Outcome)
  | done
  deriving DecidableEq, Repr

inductive CleanupPc where
  | compute
  | waiting (since wait : Nat)
  | fired
  | locking (now : Nat)
  | done
  deriving DecidableEq, Repr

structure State where
  now : Nat
  stopAccepting : Bool
  forceShutdown : Bool
  cleanupShutdown : Bool
  sessions : Dict SocketAddr Session
  pending : Finset SocketAddr
  limits : Limits.ConnLimits
  cells : Nat → Cell
  nextId : Nat
  listener : ListenerPc
  draining : Bool
  tasks : List (Task × SetupPc)
  cleanup : CleanupPc
  permit : Bool
  active : Int
  opened : List Nat
  closed : List (Nat × CloseReason)
  rejected : List Limits.Reject
  received : List (SocketAddr × Packet)

namespace State

def sessionList (s : State) : List Session :=
  s.sessions.entries.map Sigma.snd

def updCell (s : State) (id : Nat) (f : Cell → Cell) : State :=
  { s with cells := Function.update s.cells id (f (s.cells id)) }

def cancelAll (s : State) (ids : List Nat) : State :=
  { s with
    cells := fun id => if id ∈ ids then { s.cells id with cancel := true } else s.cells id
  }

def dropSessions (s : State) (dropped : List Session) : State :=
  -- dropping a `Session` drops its sender and releases its slot
  { s with
    cells := fun id =>
      if id ∈ dropped.map Session.id then { s.cells id with tx := false } else s.cells id
    limits := dropped.foldl (fun limits session => limits.release session.slot) s.limits
  }

end State
end Udp
