import Oxiduct.Config.Basic
import Oxiduct.Net.ProxyProtocol
import Mathlib.Data.List.Infix

/-!
This module contains the state of one connection of the TCP proxy: `handle`, which runs the watchdog
of its relay itself, and the two `copy_dir` tasks the relay spawns. A program counter names the next
atomic section of its task. Besides the program's own variables the state records what each writer
has accepted, and when bytes moved.
-/

namespace Tcp

abbrev Bytes := List UInt8

inductive Dir where
  | up
  | down
  deriving DecidableEq, Repr

inductive End where
  | eof
  | err
  deriving DecidableEq, Repr

inductive Exit where
  | eof
  | readErr
  | writeErr
  | cancelled
  deriving DecidableEq, Repr

def Exit.reported : Exit → End
  | .eof => .eof
  | .readErr => .err
  | .writeErr => .err
  | .cancelled => .eof

inductive CopyPc where
  | unspawned
  | select
  -- the token was polled and not set
  | polled
  -- a chunk was read, the inner `select!` is next
  | chunk
  | writing
  | shutdown
  | report
  | ended
  deriving DecidableEq, Repr

/--
One direction: `n` is the length of the chunk in hand (0 if there is none) and `buf` the part of it
that is still to be written; `read` is all its reader produced and `written` all its writer accepted.
-/
structure Copy where
  pc : CopyPc
  buf : Bytes
  n : Nat
  total : UInt64
  bytes : UInt64
  exit : Option Exit
  shut : Bool
  read : Bytes
  written : Bytes
  readAt : List Nat
  wroteAt : List Nat
  deriving DecidableEq, Repr

def Copy.new : Copy where
  pc := .unspawned
  buf := []
  n := 0
  total := 0
  bytes := 0
  exit := none
  shut := false
  read := []
  written := []
  readAt := []
  wroteAt := []

inductive Reason where
  | eof
  | reset
  | idleTimeout
  | halfCloseTimeout
  | shutdown
  deriving DecidableEq, Repr

inductive WatchPc where
  | top
  -- the clock was read, `last_activity` is next
  | clock (now : Nat)
  | select (wake : Nat)
  deriving DecidableEq, Repr

inductive Outcome where
  | aborted
  | connectFailed
  | connectTimedOut
  | headerFailed
  | relayed (reason : Reason)
  deriving DecidableEq, Repr

inductive HandlePc where
  | connect
  | connecting
  | header
  | writingHeader
  | start
  | watch (pc : WatchPc)
  -- the watchdog has returned; `checked` are the clock and the activity its last check saw
  | joining (reason : Reason) (checked : Option (Nat × Nat))
  | returned (outcome : Outcome) (checked : Option (Nat × Nat))
  deriving DecidableEq, Repr

structure State where
  now : Nat
  shutdown : Bool
  handle : HandlePc
  headerLeft : Bytes
  up : Copy
  down : Copy
  lastActivity : Nat
  cancel : Bool
  done : List (Dir × End)
  upDone : Bool
  downDone : Bool
  channelOpen : Bool
  halfCloseSince : Option Nat
  active : Int
  connectFailures : Nat
  connectTimeouts : Nat
  closed : List Reason
  deriving DecidableEq, Repr

namespace State

def copy (s : State) : Dir → Copy
  | .up => s.up
  | .down => s.down

def setCopy (s : State) (dir : Dir) (c : Copy) : State :=
  match dir with
  | .up => { s with up := c }
  | .down => { s with down := c }

def dirDone (s : State) : Dir → Bool
  | .up => s.upDone
  | .down => s.downDone

end State

/--
What a connection runs with: `sent` are the byte streams of the client (`up`) and of the upstream
(`down`), `dst` is the address the client connected to.
-/
structure Conn where
  cfg : ProxyConfig
  peer : SocketAddr
  dst : SocketAddr
  sent : Dir → Bytes

namespace Conn

def header (conn : Conn) : Bytes :=
  if conn.cfg.proxyProtocol then
    ProxyProtocol.v2Header conn.peer conn.dst
  else
    []

def preamble (conn : Conn) : Dir → Bytes
  | .up => conn.header
  | .down => []

end Conn
end Tcp
