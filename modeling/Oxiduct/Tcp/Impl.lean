import Oxiduct.Data.Saturating
import Oxiduct.Machine.Basic
import Oxiduct.Tcp.Basic

/-!
This module contains the atomic steps of one TCP connection: `handle`, the watchdog it runs in its
relay, and `copy_dir`. As on the UDP side, a branch of the source is a guard. Each `select!` of
`handle` and of `copy_dir` polls its token before everything else it waits for; the watchdog's is not
biased and may take any branch that is ready. Reading a chunk and storing `last_activity` is one step;
a write hands over any part of the chunk at a time.
-/

namespace Tcp

inductive EnvAct where
  | shutdown
  | advance (now : Nat)
  deriving DecidableEq, Repr

inductive HandleAct where
  | pollConnect
  | abortConnect
  | connected
  | connectErr
  | connectTimeout
  | pollHeader
  | abortHeader
  | acceptHeader (k : Nat)
  | headerWritten
  | headerErr
  | start
  | join (reason : Reason) (checked : Option (Nat × Nat))
  deriving DecidableEq, Repr

inductive WatchAct where
  | eof
  | readClock
  | idle (now last : Nat)
  | halfClose (now last : Nat)
  | sleep (now last : Nat)
  | shutdown (wake : Nat)
  | recv (wake : Nat) (dir : Dir) (end_ : End)
  | closed (wake : Nat)
  | timer (wake : Nat)
  deriving DecidableEq, Repr

inductive CopyAct where
  | poll
  | stop
  | read (data : Bytes)
  | readEof
  | readErr
  | shut
  | pollWrite
  | stopWrite
  | accept (k : Nat)
  | wrote
  | writeErr
  | report (end_ : End)
  deriving DecidableEq, Repr

inductive Label where
  | env (act : EnvAct)
  | handle (act : HandleAct)
  | watch (act : WatchAct)
  | copy (dir : Dir) (act : CopyAct)
  deriving DecidableEq, Repr

def bufSize : Nat := 16 * 1024

def watchdogTickMs : Nat := 5000

variable (conn : Conn)

namespace HandleAct

def guard (s : State) : HandleAct → Prop
  | .pollConnect => s.handle = .connect ∧ s.shutdown = false
  | .abortConnect => (s.handle = .connect ∨ s.handle = .connecting) ∧ s.shutdown = true
  | .connected => s.handle = .connecting
  | .connectErr => s.handle = .connecting
  | .connectTimeout => s.handle = .connecting
  | .pollHeader => s.handle = .header ∧ s.shutdown = false
  | .abortHeader =>
    (s.handle = .header ∨ (s.handle = .writingHeader ∧ s.headerLeft ≠ [])) ∧ s.shutdown = true
  | .acceptHeader k => s.handle = .writingHeader ∧ 1 ≤ k ∧ k ≤ s.headerLeft.length
  | .headerWritten => s.handle = .writingHeader ∧ s.headerLeft = []
  | .headerErr => s.handle = .writingHeader ∧ s.headerLeft ≠ []
  | .start => s.handle = .start
  | .join reason checked =>
    s.handle = .joining reason checked ∧ s.up.pc = .ended ∧ s.down.pc = .ended

def effect (s : State) : HandleAct → State
  | .pollConnect => { s with handle := .connecting }
  | .abortConnect => { s with handle := .returned .aborted none }
  | .connected =>
    if conn.cfg.proxyProtocol then
      { s with headerLeft := conn.header, handle := .header }
    else
      { s with handle := .start }
  | .connectErr =>
    { s with
      connectFailures := s.connectFailures + 1
      handle := .returned .connectFailed none
    }
  | .connectTimeout =>
    { s with
      connectTimeouts := s.connectTimeouts + 1
      handle := .returned .connectTimedOut none
    }
  | .pollHeader => { s with handle := .writingHeader }
  | .abortHeader => { s with handle := .returned .aborted none }
  | .acceptHeader k =>
    { s with
      up := { s.up with written := s.up.written ++ s.headerLeft.take k }
      headerLeft := s.headerLeft.drop k
    }
  | .headerWritten => { s with handle := .start }
  | .headerErr =>
    { s with
      connectFailures := s.connectFailures + 1
      handle := .returned .headerFailed none
    }
  | .start =>
    { s with
      active := s.active + 1
      lastActivity := s.now
      up := { s.up with pc := .select }
      down := { s.down with pc := .select }
      handle := .watch .top
    }
  | .join reason checked =>
    { s with
      closed := s.closed ++ [reason]
      active := s.active - 1
      handle := .returned (.relayed reason) checked
    }

end HandleAct

def idleLeft (now last : Nat) : Option Nat :=
  if 0 < conn.cfg.idleTimeoutSecs then
    some (saturatingAdd last (saturatingMul conn.cfg.idleTimeoutSecs.toNat 1000) - now)
  else
    none

/--
L4 is armed once, at the first check that finds a finished direction.
-/
def halfCloseArmed (s : State) : Bool :=
  0 < conn.cfg.halfCloseTimeoutSecs && (s.upDone || s.downDone)

def armHalfClose (now : Nat) (s : State) : Option Nat :=
  if halfCloseArmed conn s then
    some (s.halfCloseSince.getD now)
  else
    s.halfCloseSince

def halfCloseLeft (s : State) (now last : Nat) : Option Nat :=
  if halfCloseArmed conn s then
    some (saturatingAdd (max (s.halfCloseSince.getD now) last)
      (saturatingMul conn.cfg.halfCloseTimeoutSecs.toNat 1000) - now)
  else
    none

def wakeMs (s : State) (now last : Nat) : Nat :=
  min (min watchdogTickMs ((idleLeft conn now last).getD watchdogTickMs))
    ((halfCloseLeft conn s now last).getD watchdogTickMs)

def State.senderAlive (s : State) : Bool :=
  s.up.pc ≠ .ended || s.down.pc ≠ .ended

namespace WatchAct

def guard (s : State) : WatchAct → Prop
  | .eof => s.handle = .watch .top ∧ s.upDone = true ∧ s.downDone = true
  | .readClock => s.handle = .watch .top ∧ ¬ (s.upDone = true ∧ s.downDone = true)
  | .idle now last =>
    s.handle = .watch (.clock now) ∧ last = s.lastActivity ∧ idleLeft conn now last = some 0
  | .halfClose now last =>
    s.handle = .watch (.clock now) ∧ last = s.lastActivity
      ∧ idleLeft conn now last ≠ some 0 ∧ halfCloseLeft conn s now last = some 0
  | .sleep now last =>
    s.handle = .watch (.clock now) ∧ last = s.lastActivity
      ∧ idleLeft conn now last ≠ some 0 ∧ halfCloseLeft conn s now last ≠ some 0
  | .shutdown wake => s.handle = .watch (.select wake) ∧ s.shutdown = true
  | .recv wake dir end_ =>
    s.handle = .watch (.select wake) ∧ s.channelOpen = true ∧ s.done.head? = some (dir, end_)
  | .closed wake =>
    s.handle = .watch (.select wake) ∧ s.channelOpen = true ∧ s.done = [] ∧ s.senderAlive = false
  | .timer wake => s.handle = .watch (.select wake) ∧ wake ≤ s.now

def effect (s : State) : WatchAct → State
  | .eof => { s with handle := .joining .eof none }
  | .readClock => { s with handle := .watch (.clock s.now) }
  | .idle now last => { s with cancel := true, handle := .joining .idleTimeout (some (now, last)) }
  | .halfClose now last =>
    { s with
      cancel := true
      halfCloseSince := armHalfClose conn now s
      handle := .joining .halfCloseTimeout (some (now, last))
    }
  | .sleep now last =>
    { s with
      halfCloseSince := armHalfClose conn now s
      handle := .watch (.select (s.now + max 20 (wakeMs conn s now last)))
    }
  | .shutdown _ => { s with cancel := true, handle := .joining .shutdown none }
  | .recv _ dir end_ =>
    let s := { s with done := s.done.tail }
    match end_, dir with
    | .err, _ => { s with cancel := true, handle := .joining .reset none }
    | .eof, .up => { s with upDone := true, handle := .watch .top }
    | .eof, .down => { s with downDone := true, handle := .watch .top }
  | .closed _ => { s with channelOpen := false, handle := .watch .top }
  | .timer _ => { s with handle := .watch .top }

end WatchAct

def State.receiverAlive (s : State) : Bool :=
  match s.handle with
  | .watch _ => true
  | _ => false

def doneCapacity : Nat := 2

namespace CopyAct

def guard (s : State) (dir : Dir) : CopyAct → Prop
  | .poll => (s.copy dir).pc = .select ∧ s.cancel = false
  | .stop => ((s.copy dir).pc = .select ∨ (s.copy dir).pc = .polled) ∧ s.cancel = true
  | .read data =>
    (s.copy dir).pc = .polled ∧ data ≠ [] ∧ data.length ≤ bufSize
      ∧ (s.copy dir).read ++ data <+: conn.sent dir
  | .readEof => (s.copy dir).pc = .polled
  | .readErr => (s.copy dir).pc = .polled
  | .shut => (s.copy dir).pc = .shutdown
  | .pollWrite => (s.copy dir).pc = .chunk ∧ s.cancel = false
  | .stopWrite =>
    ((s.copy dir).pc = .chunk ∨ ((s.copy dir).pc = .writing ∧ (s.copy dir).buf ≠ []))
      ∧ s.cancel = true
  | .accept k => (s.copy dir).pc = .writing ∧ 1 ≤ k ∧ k ≤ (s.copy dir).buf.length
  | .wrote => (s.copy dir).pc = .writing ∧ (s.copy dir).buf = []
  | .writeErr => (s.copy dir).pc = .writing ∧ (s.copy dir).buf ≠ []
  | .report end_ =>
    (s.copy dir).pc = .report ∧ (s.copy dir).exit.map Exit.reported = some end_
      ∧ (s.receiverAlive = true → s.done.length < doneCapacity)

def apply (now : Nat) (c : Copy) : CopyAct → Copy
  | .poll => { c with pc := .polled }
  | .stop => { c with exit := some .cancelled, pc := .report }
  | .read data =>
    { c with
      read := c.read ++ data
      readAt := c.readAt ++ [now]
      buf := data
      n := data.length
      pc := .chunk
    }
  | .readEof => { c with exit := some .eof, pc := .shutdown }
  | .readErr => { c with exit := some .readErr, pc := .shutdown }
  | .shut => { c with shut := true, pc := .report }
  | .pollWrite => { c with pc := .writing }
  | .stopWrite => { c with exit := some .cancelled, pc := .report }
  | .accept k =>
    { c with
      written := c.written ++ c.buf.take k
      wroteAt := c.wroteAt ++ [now]
      buf := c.buf.drop k
    }
  | .wrote =>
    { c with
      total := c.total + UInt64.ofNat c.n
      bytes := c.bytes + UInt64.ofNat c.n
      n := 0
      pc := .select
    }
  | .writeErr => { c with exit := some .writeErr, pc := .report }
  | .report _ => { c with pc := .ended }

def effect (s : State) (dir : Dir) (act : CopyAct) : State :=
  let s := s.setCopy dir (act.apply s.now (s.copy dir))
  match act with
  | .read _ => { s with lastActivity := s.now }
  | .report end_ => if s.receiverAlive then { s with done := s.done ++ [(dir, end_)] } else s
  | _ => s

end CopyAct

namespace EnvAct

def guard (s : State) : EnvAct → Prop
  | .shutdown => True
  | .advance now => s.now ≤ now ∧ now < u64Max

def effect (s : State) : EnvAct → State
  | .shutdown => { s with shutdown := true }
  | .advance now => { s with now }

end EnvAct

def guard (s : State) : Label → Prop
  | .env act => act.guard s
  | .handle act => act.guard s
  | .watch act => act.guard conn s
  | .copy dir act => act.guard conn s dir

def effect (s : State) : Label → State
  | .env act => act.effect s
  | .handle act => act.effect conn s
  | .watch act => act.effect conn s
  | .copy dir act => act.effect s dir

def connection : Machine State Label where
  guard := guard conn
  effect := effect conn

def accepted : State where
  now := 0
  shutdown := false
  handle := .connect
  headerLeft := []
  up := .new
  down := .new
  lastActivity := 0
  cancel := false
  done := []
  upDone := false
  downDone := false
  channelOpen := true
  halfCloseSince := none
  active := 0
  connectFailures := 0
  connectTimeouts := 0
  closed := []

def webProxy : ProxyConfig := .untuned "0.0.0.0:8080" "198.51.100.7:80" .tcp

def webConn : Conn where
  cfg := webProxy
  peer := .v4 ⟨192, 0, 2, 1⟩ 4000
  dst := .v4 ⟨203, 0, 113, 5⟩ 8080
  sent
    | .up => [1, 2]
    | .down => []

def Label.connect : List Label :=
  [.handle .pollConnect, .handle .connected, .handle .start]

instance (s : State) (act : EnvAct) : Decidable (act.guard s) := by
  cases act <;> simp only [EnvAct.guard] <;> infer_instance

instance (s : State) (act : HandleAct) : Decidable (act.guard s) := by
  cases act <;> simp only [HandleAct.guard] <;> infer_instance

instance (s : State) (act : WatchAct) : Decidable (act.guard conn s) := by
  cases act <;> simp only [WatchAct.guard] <;> infer_instance

instance (s : State) (dir : Dir) (act : CopyAct) : Decidable (act.guard conn s dir) := by
  cases act <;> simp only [CopyAct.guard] <;> infer_instance

instance (s : State) (l : Label) : Decidable ((connection conn).guard s l) := by
  cases l <;> simp only [connection, guard] <;> infer_instance

end Tcp
