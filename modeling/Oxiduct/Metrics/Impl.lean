import Oxiduct.Machine.Basic
import Oxiduct.Metrics.Basic

/-!
This module contains the atomic steps of `handle_request`. A read returns any non-empty part of what
the client still sends that the buffer has room for, and nothing at the end of its stream.
`REQUEST_TIMEOUT` may drop the handler in front of any step.
-/

namespace Metrics

inductive Outcome where
  | done
  | failed
  | timedOut
  deriving DecidableEq, Repr

inductive Pc where
  | reading
  -- the read loop was left, `buf[..n]` is next
  | parsing
  | writingHeader
  | writingBody
  | flushing
  | shuttingDown
  | draining
  | returned (outcome : Outcome)
  -- a slice of `buf` was out of range
  | panicked
  deriving DecidableEq, Repr

def Pc.ended : Pc → Bool
  | .returned _ => true
  | .panicked => true
  | _ => false

/--
`unread` is what the client has still to send; `left` is the part of the header or body in hand that
is still to be written, and `written` all that the socket accepted.
-/
structure State where
  pc : Pc
  buf : Buf
  n : Nat
  unread : Bytes
  response : Option Response
  left : Bytes
  written : Bytes

inductive Label where
  | read (data : Bytes)
  | readErr
  | parse
  | accept (k : Nat)
  | wrote
  | writeErr
  | flushed
  | shutdown
  | drain (data : Bytes)
  | drainErr
  | drainTimeout
  | timeout
  deriving DecidableEq, Repr

def Reads (s : State) (room : Nat) (data : Bytes) : Prop :=
  data <+: s.unread ∧ data.length ≤ room ∧ (data = [] → s.unread = [] ∨ room = 0)

def guard (s : State) : Label → Prop
  | .read data => s.pc = .reading ∧ Reads s (bufLen - s.n) data
  | .readErr => s.pc = .reading
  | .parse => s.pc = .parsing
  | .accept k =>
    (s.pc = .writingHeader ∨ s.pc = .writingBody) ∧ 1 ≤ k ∧ k ≤ s.left.length
  | .wrote => (s.pc = .writingHeader ∨ s.pc = .writingBody) ∧ s.left = []
  | .writeErr =>
    ((s.pc = .writingHeader ∨ s.pc = .writingBody) ∧ s.left ≠ []) ∨ s.pc = .flushing
  | .flushed => s.pc = .flushing
  | .shutdown => s.pc = .shuttingDown
  | .drain data => s.pc = .draining ∧ Reads s bufLen data
  | .drainErr => s.pc = .draining
  | .drainTimeout => s.pc = .draining
  | .timeout => s.pc.ended = false

-- the end of the stream, a complete request line, a full buffer
def Breaks (data received : Bytes) (n : Nat) : Prop :=
  data = [] ∨ newline ∈ received ∨ n = bufLen

instance (data received : Bytes) (n : Nat) : Decidable (Breaks data received n) := by
  unfold Breaks
  infer_instance

def effect (rendered : Bytes) (s : State) : Label → State
  | .read data =>
    let n := s.n + data.length
    if h : n ≤ bufLen then
      let buf := s.buf.fill s.n data h
      { s with
        buf := buf
        n := n
        unread := s.unread.drop data.length
        pc := if Breaks data (buf.bytes.take n) n then .parsing else .reading
      }
    else
      { s with pc := .panicked }
  | .readErr => { s with pc := .returned .failed }
  | .parse =>
    if s.n ≤ bufLen then
      let head := Utf8.decodeLossy (s.buf.bytes.take s.n)
      let response := respond rendered (isMetrics (firstLine head))
      { s with
        response := some response
        left := response.header
        pc := .writingHeader
      }
    else
      { s with pc := .panicked }
  | .accept k =>
    { s with
      written := s.written ++ s.left.take k
      left := s.left.drop k
    }
  | .wrote =>
    match s.pc, s.response with
    | .writingHeader, some response => { s with left := response.body, pc := .writingBody }
    | _, _ => { s with pc := .flushing }
  | .writeErr => { s with pc := .returned .failed }
  | .flushed => { s with pc := .shuttingDown }
  -- what `shutdown` returns is ignored
  | .shutdown => { s with pc := .draining }
  | .drain data =>
    { s with
      unread := s.unread.drop data.length
      pc := if data = [] then .returned .done else .draining
    }
  | .drainErr => { s with pc := .returned .done }
  | .drainTimeout => { s with pc := .returned .done }
  | .timeout => { s with pc := .returned .timedOut }

def handleRequest (rendered : Bytes) : Machine State Label where
  guard := guard
  effect := effect rendered

def accepted (sent : Bytes) : State where
  pc := .reading
  buf := .zero
  n := 0
  unread := sent
  response := none
  left := []
  written := []

def Label.isData : Label → Bool
  | .read data => data ≠ []
  | _ => false

instance (s : State) (room : Nat) (data : Bytes) : Decidable (Reads s room data) := by
  unfold Reads
  infer_instance

instance (s : State) (l : Label) : Decidable (guard s l) := by
  cases l <;> simp only [guard] <;> infer_instance

instance (rendered : Bytes) (s : State) (l : Label)
    : Decidable ((handleRequest rendered).guard s l) :=
  inferInstanceAs (Decidable (guard s l))

end Metrics
