import Mathlib.Algebra.BigOperators.Group.Finset.Basic
import Oxiduct.Metrics.Registry
import Oxiduct.Udp.Lemmas.Close
import Oxiduct.Udp.Lemmas.Relay

/-!
This module contains what the UDP proxy does to the registry, step by step, and that its series are
what its state has recorded.
-/

open Metrics (Op Labels Counts amounts levels)

namespace Udp

def Side.label : Side → String
  | .up => "up"
  | .down => "down"

def CloseReason.label : CloseReason → String
  | .idleTimeout => "idle_timeout"
  | .error => "error"
  | .shutdown => "shutdown"

def startOps (name : String) : List Op :=
  [.add .active [name] 0, .inc .connectionsClosed [name, CloseReason.idleTimeout.label] 0,
    .inc .connectionsClosed [name, CloseReason.error.label] 0]

def closedOps (name : String) (closed : List (Nat × CloseReason)) : List Op :=
  closed.map fun entry => .inc .connectionsClosed [name, entry.2.label] 1

def Label.ops (cfg : ProxyConfig) (name : String) (s : State) : Label → List Op
  | .listener .shutdown =>
    [.inc .connectionsClosed [name, CloseReason.shutdown.label] (UInt64.ofNat s.sessionList.length),
      .set .active [name] 0]
  | .listener (.evict src _ _) =>
    [.inc .connectionsClosed [name, CloseReason.error.label] 1,
      .set .active [name] (Dict.size (s.sessions.erase src))]
  | .listener (.reject _ _ why) => [.inc .connectionsRejected [name, why.label] 1]
  | .setup _ _ (.openOk ..) =>
    [.inc .bytesTotal [name, Side.up.label] 0, .inc .bytesTotal [name, Side.down.label] 0]
  | .setup _ task (.insert session) =>
    [.inc .connectionsTotal [name, "udp"] 1,
      .set .active [name] (Dict.size (s.sessions.insert task.src session))]
  | .relay _ side (.sent data) => [.inc .bytesTotal [name, side.label] (UInt64.ofNat data.length)]
  | .cleanup (.retain now) =>
    closedOps name (counted cfg s (.cleanup (.retain now)))
      ++ [.set .active [name] (retainPass cfg now s).sessions.size]
  | _ => []

def Cell.bytes (c : Cell) : Side → UInt64
  | .up => (c.upstream.map fun data => UInt64.ofNat data.length).sum
  | .down => (c.delivered.map fun reply => UInt64.ofNat reply.2.length).sum

def State.bytes (s : State) (side : Side) : UInt64 :=
  ∑ id ∈ Finset.range s.nextId, (s.cells id).bytes side

def reasons (closed : List (Nat × CloseReason)) : List String :=
  closed.map fun entry => entry.2.label

def State.counts (s : State) : Counts where
  total := s.opened.length
  rejected := s.rejected.map Limits.Reject.label
  up := s.bytes .up
  down := s.bytes .down
  closed := reasons s.closed

def Label.rejected : Label → List String
  | .listener (.reject _ _ why) => [why.label]
  | _ => []

def Label.sent (side : Side) : Label → UInt64
  | .relay _ side' (.sent data) => if side' = side then UInt64.ofNat data.length else 0
  | _ => 0

def Label.counted (cfg : ProxyConfig) (s : State) (l : Label) : Counts where
  total := (inserted l).length
  rejected := l.rejected
  up := l.sent .up
  down := l.sent .down
  closed := reasons (Udp.counted cfg s l)

variable {cfg : ProxyConfig} {s : State} {l : Label}

theorem Cell.bytes_apply (c : Cell) (now : Nat) (side side' : Side) (act : RelayAct) (id : Nat)
    : (act.apply now side' c).bytes side = c.bytes side + Label.sent side (.relay id side' act) := by
  cases act with
  | sent data =>
    cases side <;> cases side' <;> simp [RelayAct.apply, bytes, setPc, Label.sent]
  | _ => cases side <;> cases side' <;> exact (UInt64.add_zero _).symm

theorem Cell.bytes_trySend (c : Cell) (data : Packet) (side : Side)
    : (c.trySend data).bytes side = c.bytes side := by
  unfold Cell.trySend
  split <;> cases side <;> rfl

theorem bytes_of_others (cfg : ProxyConfig) (hguard : guard s l) {id : Nat} (hlt : id < s.nextId)
    (hl : isRelayOf id l = false) (side : Side)
    : ((effect cfg s l).cells id).bytes side = (s.cells id).bytes side := by
  apply proj_effect (fun c => c.bytes side) cfg hguard hlt hl
  . intro c
    cases side <;> rfl
  . intro c
    cases side <;> rfl
  . intro _ c now data
    refine (Cell.bytes_trySend _ data side).trans ?_
    cases side <;> rfl

theorem sum_bytes_of_others (cfg : ProxyConfig) (hguard : guard s l)
    (hl : ∀ id, isRelayOf id l = false) (side : Side)
    : ∑ id ∈ Finset.range s.nextId, ((effect cfg s l).cells id).bytes side = s.bytes side :=
  Finset.sum_congr rfl fun id hid =>
    bytes_of_others cfg hguard (Finset.mem_range.mp hid) (hl id) side

theorem bytes_effect (hguard : guard s l) (side : Side)
    : (effect cfg s l).bytes side = s.bytes side + l.sent side := by
  have hnext := nextId_effect cfg s l
  cases l with
  | relay id side' act =>
    have hid := Finset.mem_range.mpr hguard.1
    simp only [State.bytes, effect, RelayAct.effect, State.updCell]
    rw [← Finset.add_sum_erase _ _ hid, ← Finset.add_sum_erase _ _ hid, Function.update_self,
      Cell.bytes_apply _ _ _ _ _ id, add_right_comm]
    congr 2
    apply Finset.sum_congr rfl
    intro id' hid'
    rw [Function.update_of_ne (Finset.ne_of_mem_erase hid')]
  | setup i task act =>
    have hothers := sum_bytes_of_others cfg hguard (fun _ => rfl) side
    cases act with
    | openOk slot id =>
      have hcell :
          ((effect cfg s (.setup i task (.openOk slot id))).cells s.nextId).bytes side = 0 := by
        rw [← show id = s.nextId from hguard.2]
        simp only [effect, SetupAct.effect, State.cells_updCell, if_true]
        cases side <;> rfl
      rw [State.bytes, hnext]
      refine (Finset.sum_range_succ _ _).trans ?_
      rw [hothers, hcell]
      rfl
    | _ => exact hothers.trans (add_zero _).symm
  | cleanup act =>
    have hothers := sum_bytes_of_others cfg hguard (fun _ => rfl) side
    rw [State.bytes, hnext]
    exact hothers.trans (add_zero _).symm
  | env act =>
    have hothers := sum_bytes_of_others cfg hguard (fun _ => rfl) side
    rw [State.bytes, hnext]
    exact hothers.trans (add_zero _).symm
  | listener act =>
    have hothers := sum_bytes_of_others cfg hguard (fun _ => rfl) side
    rw [State.bytes, hnext]
    exact hothers.trans (add_zero _).symm

theorem rejected_effect (cfg : ProxyConfig) (s : State) (l : Label)
    : (effect cfg s l).rejected.map Limits.Reject.label
        = s.rejected.map Limits.Reject.label ++ l.rejected := by
  cases l with
  | env act => cases act <;> exact (List.append_nil _).symm
  | listener act =>
    cases act with
    | reject src data why => exact List.map_append ..
    | _ => exact (List.append_nil _).symm
  | setup i task act => cases act <;> exact (List.append_nil _).symm
  | relay id side act => exact (List.append_nil _).symm
  | cleanup act => cases act <;> exact (List.append_nil _).symm

theorem counts_effect (hguard : guard s l)
    : (effect cfg s l).counts = s.counts.add (l.counted cfg s) := by
  ext1
  . simp [State.counts, Counts.add, Label.counted, opened_effect]
  . exact rejected_effect cfg s l
  . rfl
  . rfl
  . exact bytes_effect hguard .up
  . exact bytes_effect hguard .down
  . simp [State.counts, Counts.add, Label.counted, closed_effect, reasons]

theorem amounts_closedOps (name : String) (closed : List (Nat × CloseReason))
    (family : Metrics.Counter) (rest : Labels)
    : amounts family (name :: rest) (closedOps name closed)
        = ({ closed := reasons closed } : Counts).counter "udp" family rest := by
  induction closed with
  | nil => exact (Counts.counter_zero ..).symm
  | cons entry closed ih =>
    have hadd := Counts.counter_add "udp" { closed := [entry.2.label] } { closed := reasons closed }
      family rest
    refine Eq.trans ?_ hadd.symm
    rw [← ih]
    simp only [closedOps, List.map_cons, Metrics.amounts_cons]
    congr 1
    cases family <;> simp [Counts.counter, List.countP_singleton]
    split <;> rfl

@[simp]
theorem levels_closedOps (name : String) (closed : List (Nat × CloseReason))
    (family : Metrics.Gauge) (labels : Labels) (before : Int)
    : levels family labels before (closedOps name closed) = before := by
  induction closed with
  | nil => rfl
  | cons entry closed ih => exact ih

theorem Label.amounts_ops (cfg : ProxyConfig) (name : String) (s : State) (l : Label)
    (family : Metrics.Counter) (rest : Labels)
    : amounts family (name :: rest) (l.ops cfg name s)
        = (l.counted cfg s).counter "udp" family rest := by
  cases l with
  | env act => exact (Counts.counter_zero ..).symm
  | listener act =>
    cases act with
    | shutdown =>
      have hreasons : reasons (Udp.counted cfg s (.listener .shutdown))
          = List.replicate s.sessionList.length CloseReason.shutdown.label := by
        simp [reasons, Udp.counted, Function.comp_def, List.map_const']
      cases family <;>
        simp [ops, counted, hreasons, Counts.counter, inserted, rejected, sent, List.countP_replicate,
          apply_ite UInt64.ofNat]
    | evict src data session =>
      cases family <;>
        simp [ops, counted, Udp.counted, reasons, Counts.counter, inserted, rejected, sent,
          List.countP_singleton, apply_ite UInt64.ofNat]
    | reject src data why =>
      cases family <;>
        simp [ops, counted, Udp.counted, reasons, Counts.counter, inserted, rejected, sent,
          List.countP_singleton, apply_ite UInt64.ofNat]
    | _ => exact (Counts.counter_zero ..).symm
  | setup i task act =>
    cases act with
    | openOk slot id =>
      cases family <;>
        simp [ops, counted, Udp.counted, reasons, Counts.counter, inserted, rejected, sent]
    | insert session =>
      cases family <;>
        simp [ops, counted, Udp.counted, reasons, Counts.counter, inserted, rejected, sent]
    | _ => exact (Counts.counter_zero ..).symm
  | relay id side act =>
    cases act with
    | sent data =>
      cases side <;> cases family <;>
        simp [ops, counted, Udp.counted, reasons, Counts.counter, inserted, rejected, sent,
          Side.label]
    | _ => cases side <;> exact (Counts.counter_zero ..).symm
  | cleanup act =>
    cases act with
    | retain now =>
      have hclosed := amounts_closedOps name (Udp.counted cfg s (.cleanup (.retain now))) family rest
      simp only [ops, Metrics.amounts_append, hclosed]
      exact UInt64.add_zero _
    | _ => exact (Counts.counter_zero ..).symm

theorem Label.levels_limit (cfg : ProxyConfig) (name : String) (s : State) (l : Label)
    {family : Metrics.Gauge} (hfamily : family ≠ .active) (before : Int)
    : levels family [name] before (l.ops cfg name s) = before := by
  unfold ops
  split <;> simp [hfamily.symm, Metrics.levels_append]

theorem Label.names_ops (cfg : ProxyConfig) (name : String) (s : State) (l : Label)
    : ∀ op ∈ l.ops cfg name s, op.Names name := by
  have hreason : ∀ reason : CloseReason,
      [reason.label] ∈ Metrics.Counter.connectionsClosed.values := by
    intro reason
    cases reason <;> simp [CloseReason.label, Metrics.Counter.values]
  unfold ops
  split
  . simp [hreason]
  . simp [hreason]
  . next why => cases why <;> simp [Limits.Reject.label, Metrics.Counter.values]
  . simp [Side.label, Metrics.Counter.values]
  . simp [Metrics.Counter.values]
  . next side data => cases side <;> simp [Side.label, Metrics.Counter.values]
  . simp only [List.forall_mem_append, closedOps, List.forall_mem_map, Metrics.names_inc]
    exact ⟨fun entry _ => hreason entry.2, by simp⟩
  . simp

theorem Label.levels_active (cfg : ProxyConfig) (name : String) (s : State) (l : Label)
    : levels .active [name] s.active (l.ops cfg name s) = (effect cfg s l).active := by
  cases l with
  | env act => cases act <;> rfl
  | listener act =>
    cases act with
    | shutdown => simp [ops, effect, ListenerAct.effect]
    | evict src data session => simp [ops, effect, ListenerAct.effect]
    | _ => rfl
  | setup i task act =>
    cases act with
    | insert session => simp [ops, effect, SetupAct.effect]
    | _ => rfl
  | relay id side act => cases act <;> rfl
  | cleanup act =>
    cases act with
    | retain now =>
      simp only [ops, Metrics.levels_append, levels_closedOps]
      simp [effect, CleanupAct.effect, retainPass]
    | _ => rfl

end Udp
