import Oxiduct.Data.Saturating
import Oxiduct.Metrics.Impl

/-!
This module contains the atomic steps of `metrics::serve`: the accept loop and the handlers it spawns,
each of which holds a permit and runs `handle_request` under `REQUEST_TIMEOUT`. A step of a handler is
given what `render` would return at that moment.
-/

namespace Metrics

def maxInflight : Nat := 16

def requestTimeoutMs : Nat := 10 * 1000

def drainTimeoutMs : Nat := 1000

inductive ListenerPc where
  | select
  -- the token was polled and not set
  | polled
  -- the pause after a failed accept
  | backoff
  | returned
  deriving DecidableEq, Repr

/--
A spawned request task: `snapshot` is what it was rendered when it had read the request line.
-/
structure Handler where
  sent : Bytes
  state : State
  since : Nat
  drainSince : Nat
  snapshot : Option Bytes

structure Exporter where
  now : Nat
  shutdown : Bool
  listener : ListenerPc
  permits : Nat
  handlers : List Handler

inductive ExporterEnvAct where
  | shutdown
  | advance (now : Nat)

inductive ListenerAct where
  | pollShutdown
  | pollNone
  | accept (sent : Bytes)
  | refuse
  | acceptErr
  | resume

inductive ExporterLabel where
  | env (act : ExporterEnvAct)
  | listener (act : ListenerAct)
  | handler (i : Nat) (l : Label) (rendered : Bytes)

namespace ExporterEnvAct

def guard (s : Exporter) : ExporterEnvAct → Prop
  | .shutdown => True
  | .advance now => s.now ≤ now ∧ now < u64Max

def effect (s : Exporter) : ExporterEnvAct → Exporter
  | .shutdown => { s with shutdown := true }
  | .advance now => { s with now }

end ExporterEnvAct

namespace ListenerAct

def guard (s : Exporter) : ListenerAct → Prop
  | .pollShutdown => (s.listener = .select ∨ s.listener = .polled) ∧ s.shutdown = true
  | .pollNone => s.listener = .select ∧ s.shutdown = false
  | .accept _ => s.listener = .polled ∧ 0 < s.permits
  | .refuse => s.listener = .polled ∧ s.permits = 0
  | .acceptErr => s.listener = .polled
  | .resume => s.listener = .backoff

def effect (s : Exporter) : ListenerAct → Exporter
  | .pollShutdown => { s with listener := .returned }
  | .pollNone => { s with listener := .polled }
  | .accept sent =>
    { s with
      permits := s.permits - 1
      handlers := s.handlers ++ [⟨sent, accepted sent, s.now, s.now, none⟩]
      listener := .select
    }
  | .refuse => { s with listener := .select }
  | .acceptErr => { s with listener := .backoff }
  | .resume => { s with listener := .select }

end ListenerAct

namespace Handler

def guard (now : Nat) (h : Handler) (l : Label) : Prop :=
  Metrics.guard h.state l
    ∧ (l = .timeout → h.since + requestTimeoutMs ≤ now)
    ∧ (l = .drainTimeout → h.drainSince + drainTimeoutMs ≤ now)

def effect (rendered : Bytes) (now : Nat) (h : Handler) (l : Label) : Handler :=
  { h with
    state := Metrics.effect rendered h.state l
    drainSince := if l = .shutdown then now else h.drainSince
    snapshot := if l = .parse then some rendered else h.snapshot
  }

def ended (h : Handler) : Bool :=
  h.state.pc.ended

end Handler

namespace Exporter

def moveHandler (s : Exporter) (i : Nat) (h h' : Handler) : Exporter :=
  -- a handler that ends drops its permit
  { s with
    permits := if h'.ended && !h.ended then s.permits + 1 else s.permits
    handlers := s.handlers.set i h'
  }

def guard (s : Exporter) : ExporterLabel → Prop
  | .env act => act.guard s
  | .listener act => act.guard s
  | .handler i l _ => ∃ h, s.handlers[i]? = some h ∧ h.guard s.now l

def effect (s : Exporter) : ExporterLabel → Exporter
  | .env act => act.effect s
  | .listener act => act.effect s
  | .handler i l rendered =>
    match s.handlers[i]? with
    | some h => s.moveHandler i h (h.effect rendered s.now l)
    | none => s

end Exporter

def serve : Machine Exporter ExporterLabel where
  guard := Exporter.guard
  effect := Exporter.effect

def listening : Exporter where
  now := 0
  shutdown := false
  listener := .select
  permits := maxInflight
  handlers := []

instance (s : Exporter) (act : ExporterEnvAct) : Decidable (act.guard s) := by
  cases act <;> simp only [ExporterEnvAct.guard] <;> infer_instance

instance (s : Exporter) (act : ListenerAct) : Decidable (act.guard s) := by
  cases act <;> simp only [ListenerAct.guard] <;> infer_instance

instance (now : Nat) (h : Handler) (l : Label) : Decidable (h.guard now l) := by
  unfold Handler.guard
  infer_instance

instance (s : Exporter) (l : ExporterLabel) : Decidable (serve.guard s l) :=
  match l with
  | .env act => inferInstanceAs (Decidable (act.guard s))
  | .listener act => inferInstanceAs (Decidable (act.guard s))
  | .handler i l rendered =>
    match h : s.handlers[i]? with
    | none => .isFalse (by simp [serve, Exporter.guard, h])
    | some handler => decidable_of_iff (handler.guard s.now l) (by simp [serve, Exporter.guard, h])

end Metrics
