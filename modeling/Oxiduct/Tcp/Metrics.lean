import Oxiduct.Metrics.Registry
import Oxiduct.Tcp.Lemmas.Books

/-!
This module contains what the TCP proxy does to the registry, step by step, and that its series are
the proxy's own counters.
-/

open Metrics (Op Labels Counts amounts levels)

namespace Tcp

def Dir.label : Dir → String
  | .up => "up"
  | .down => "down"

def Reason.label : Reason → String
  | .eof => "eof"
  | .reset => "reset"
  | .idleTimeout => "idle_timeout"
  | .halfCloseTimeout => "half_close_timeout"
  | .shutdown => "shutdown"

def Label.ops (name : String) (s : State) : Label → List Op
  | .handle .connectErr => [.inc .connectFailures [name] 1]
  | .handle .connectTimeout => [.inc .connectTimeouts [name] 1]
  | .handle .headerErr => [.inc .connectFailures [name] 1]
  | .handle .start =>
    [.add .active [name] 1, .inc .bytesTotal [name, Dir.up.label] 0,
      .inc .bytesTotal [name, Dir.down.label] 0]
  | .handle (.join reason _) =>
    [.inc .connectionsClosed [name, reason.label] 1, .add .active [name] (-1)]
  | .copy dir .wrote => [.inc .bytesTotal [name, dir.label] (UInt64.ofNat (s.copy dir).n)]
  | _ => []

def ServerLabel.ops (name : String) (s : Server) : ServerLabel → List Op
  | .listener (.accept _ _) => [.inc .connectionsTotal [name, "tcp"] 1]
  | .listener (.reject _ why) => [.inc .connectionsRejected [name, why.label] 1]
  | .task i l =>
    match s.tasks[i]? with
    | some conn => l.ops name conn.state
    | none => []
  | _ => []

def State.counts (s : State) : Counts where
  failures := s.connectFailures
  timeouts := s.connectTimeouts
  up := s.up.bytes
  down := s.down.bytes
  closed := s.closed.map Reason.label

def Label.counted (s : State) : Label → Counts
  | .handle .connectErr => { failures := 1 }
  | .handle .connectTimeout => { timeouts := 1 }
  | .handle .headerErr => { failures := 1 }
  | .handle (.join reason _) => { closed := [reason.label] }
  | .copy .up .wrote => { up := UInt64.ofNat s.up.n }
  | .copy .down .wrote => { down := UInt64.ofNat s.down.n }
  | _ => {}

def Server.bytes (s : Server) (dir : Dir) : UInt64 :=
  (s.tasks.map fun task => (task.state.copy dir).bytes).sum

def Server.counts (s : Server) : Counts where
  total := s.total
  rejected := s.rejected.map Limits.Reject.label
  failures := s.connectFailures
  timeouts := s.connectTimeouts
  up := s.bytes .up
  down := s.bytes .down
  closed := s.closed.map Reason.label

def ServerLabel.counted (s : Server) : ServerLabel → Counts
  | .listener (.accept _ _) => { total := 1 }
  | .listener (.reject _ why) => { rejected := [why.label] }
  | .task i l =>
    match s.tasks[i]? with
    | some conn => l.counted conn.state
    | none => {}
  | _ => {}

variable {cfg : ProxyConfig}

theorem State.counts_effect (conn : Conn) (s : State) (l : Label)
    : (effect conn s l).counts = s.counts.add (l.counted s) := by
  cases l with
  | env act => cases act <;> exact (Counts.add_zero _).symm
  | handle act =>
    cases act with
    | connected =>
      simp only [effect, HandleAct.effect]
      split <;> exact (Counts.add_zero _).symm
    | connectErr => simp [counts, Counts.add, Label.counted, effect, HandleAct.effect]
    | connectTimeout => simp [counts, Counts.add, Label.counted, effect, HandleAct.effect]
    | headerErr => simp [counts, Counts.add, Label.counted, effect, HandleAct.effect]
    | join reason checked => simp [counts, Counts.add, Label.counted, effect, HandleAct.effect]
    | _ => exact (Counts.add_zero _).symm
  | watch act =>
    cases act with
    | recv wake dir end_ => cases end_ <;> cases dir <;> exact (Counts.add_zero _).symm
    | _ => exact (Counts.add_zero _).symm
  | copy dir act =>
    rw [effect, CopyAct.effect_eq]
    cases act with
    | wrote =>
      cases dir <;> simp [counts, Counts.add, Label.counted, State.setCopy, State.copy, CopyAct.apply]
    | _ => cases dir <;> exact (Counts.add_zero _).symm

theorem Label.amounts_ops (name : String) (s : State) (l : Label) (family : Metrics.Counter)
    (rest : Labels)
    : amounts family (name :: rest) (l.ops name s) = (l.counted s).counter "tcp" family rest := by
  cases l with
  | handle act =>
    cases act with
    | connectErr => cases family <;> simp [ops, counted, Counts.counter]
    | connectTimeout => cases family <;> simp [ops, counted, Counts.counter]
    | headerErr => cases family <;> simp [ops, counted, Counts.counter]
    | start => cases family <;> simp [ops, counted, Counts.counter]
    | join reason checked =>
      cases family <;> simp [ops, counted, Counts.counter, List.countP_singleton]
      split <;> rfl
    | _ => exact (Counts.counter_zero ..).symm
  | copy dir act =>
    cases act with
    | wrote =>
      cases dir <;> cases family <;>
        simp [ops, counted, Counts.counter, Dir.label, State.copy]
    | _ => cases dir <;> exact (Counts.counter_zero ..).symm
  | _ => exact (Counts.counter_zero ..).symm

theorem Label.levels_active (conn : Conn) (name : String) (s : State) (l : Label) (before : Int)
    : levels .active [name] before (l.ops name s)
        = before + ((effect conn s l).active - s.active) := by
  have hsame : ∀ t : State, t.active = s.active → before = before + (t.active - s.active) := by
    intro t ht
    rw [ht, Int.sub_self, Int.add_zero]
  cases l with
  | env act => cases act <;> exact hsame _ rfl
  | handle act =>
    cases act with
    | connected =>
      apply hsame
      simp only [effect, HandleAct.effect]
      split <;> rfl
    | start =>
      simp [ops, effect, HandleAct.effect]
    | join reason checked =>
      simp [ops, effect, HandleAct.effect]
    | _ => exact hsame _ rfl
  | watch act =>
    apply hsame
    cases act with
    | recv wake dir end_ => cases end_ <;> cases dir <;> rfl
    | _ => rfl
  | copy dir act =>
    have hactive : (effect conn s (.copy dir act)).active = s.active := by
      rw [effect, CopyAct.effect_eq]
      cases dir <;> rfl
    cases act <;> exact hsame _ hactive

theorem Label.levels_limit (name : String) (s : State) (l : Label) {family : Metrics.Gauge}
    (hfamily : family ≠ .active) (before : Int)
    : levels family [name] before (l.ops name s) = before := by
  unfold ops
  split <;> simp [hfamily.symm]

theorem Label.names_ops (name : String) (s : State) (l : Label)
    : ∀ op ∈ l.ops name s, op.Names name := by
  unfold ops
  split <;> simp [Metrics.Counter.values, Dir.label]
  . next reason _ => cases reason <;> simp [Reason.label]
  . next dir => cases dir <;> simp

variable {s : Server} {l : ServerLabel}

theorem own_bytes (dir : Dir) : Own fun task => (task.state.copy dir).bytes := by
  constructor <;> intros <;> cases dir <;> rfl

theorem bytes_effect (hl : ∀ i l', l ≠ .task i l') (dir : Dir)
    : (Server.effect s l).bytes dir = s.bytes dir := by
  apply (own_bytes dir).sum_effect hl
  intro task hmem
  unfold entered at hmem
  split at hmem
  . rw [List.mem_singleton.mp hmem]
    cases dir <;> rfl
  . cases hmem

theorem counts_moveTask {i : Nat} {task : Task} (hi : s.tasks[i]? = some task) {state : State}
    {d : Counts} (hcounts : state.counts = task.state.counts.add d) (htotal : d.total = 0)
    (hrejected : d.rejected = [])
    : (s.moveTask i task state).counts = s.counts.add d := by
  have hbytes : ∀ dir n, (state.copy dir).bytes = (task.state.copy dir).bytes + n →
      (s.moveTask i task state).bytes dir = s.bytes dir + n := by
    intro dir n hn
    rcases List.exists_sum_map_set (fun task => (task.state.copy dir).bytes) hi with
      ⟨rest, hbefore, hafter⟩
    simp only [Server.bytes, Server.moveTask, hbefore, hafter, hn]
    rw [add_right_comm]
  have hfailures := congrArg Counts.failures hcounts
  have htimeouts := congrArg Counts.timeouts hcounts
  have hclosed := congrArg Counts.closed hcounts
  simp only [State.counts, Counts.add] at hfailures htimeouts hclosed
  ext1
  . simp [Server.counts, Counts.add, Server.moveTask, htotal]
  . simp [Server.counts, Counts.add, Server.moveTask, hrejected]
  . simp only [Server.counts, Counts.add, Server.moveTask]
    omega
  . simp only [Server.counts, Counts.add, Server.moveTask]
    omega
  . exact hbytes .up d.up (congrArg Counts.up hcounts)
  . exact hbytes .down d.down (congrArg Counts.down hcounts)
  . simp only [Server.counts, Counts.add, Server.moveTask, List.map_append, List.map_drop, hclosed]
    rw [← List.length_map (f := Reason.label), List.drop_left]

theorem Label.counted_frame (s : State) (l : Label)
    : (l.counted s).total = 0 ∧ (l.counted s).rejected = [] := by
  unfold counted
  split <;> exact ⟨rfl, rfl⟩

theorem counts_effect (hguard : Server.guard cfg s l)
    : (Server.effect s l).counts = s.counts.add (l.counted s) := by
  cases l with
  | env act =>
    have hbytes := bytes_effect (s := s) (l := .env act) (by simp)
    refine Eq.trans ?_ (Counts.add_zero _).symm
    ext1 <;> first | apply hbytes | cases act <;> rfl
  | listener act =>
    have hbytes := bytes_effect (s := s) (l := .listener act) (by simp)
    cases act with
    | accept conn slot =>
      ext1 <;> simp only [Server.counts, Counts.add, ServerLabel.counted, hbytes] <;>
        simp [Server.effect, ListenerAct.effect]
    | reject peer why =>
      ext1 <;> simp only [Server.counts, Counts.add, ServerLabel.counted, hbytes] <;>
        simp [Server.effect, ListenerAct.effect]
    | _ =>
      refine Eq.trans ?_ (Counts.add_zero _).symm
      ext1 <;> first | apply hbytes | rfl
  | task i l =>
    rcases hguard with ⟨_, task, hi, hguard⟩
    have hframe := l.counted_frame task.state
    simp only [Server.effect, ServerLabel.counted, hi]
    exact counts_moveTask hi (State.counts_effect task.conn task.state l) hframe.1 hframe.2

theorem ServerLabel.amounts_ops (name : String) (s : Server) (l : ServerLabel)
    (family : Metrics.Counter) (rest : Labels)
    : amounts family (name :: rest) (l.ops name s) = (l.counted s).counter "tcp" family rest := by
  cases l with
  | env act => exact (Counts.counter_zero ..).symm
  | listener act =>
    cases act with
    | accept conn slot => cases family <;> simp [ops, counted, Counts.counter]
    | reject peer why =>
      cases family <;> simp [ops, counted, Counts.counter, List.countP_singleton]
      split <;> rfl
    | _ => exact (Counts.counter_zero ..).symm
  | task i l =>
    simp only [ops, counted]
    split
    . apply Label.amounts_ops
    . exact (Counts.counter_zero ..).symm

theorem ServerLabel.levels_active (name : String) (s : Server) (l : ServerLabel)
    : levels .active [name] s.active (l.ops name s) = (Server.effect s l).active := by
  cases l with
  | env act => cases act <;> rfl
  | listener act => cases act <;> rfl
  | task i l =>
    cases hi : s.tasks[i]? with
    | none =>
      simp only [ops, Server.effect, hi]
      rfl
    | some task =>
      simp only [ops, Server.effect, hi]
      exact l.levels_active task.conn name task.state s.active

theorem ServerLabel.levels_limit (name : String) (s : Server) (l : ServerLabel)
    {family : Metrics.Gauge} (hfamily : family ≠ .active) (before : Int)
    : levels family [name] before (l.ops name s) = before := by
  cases l with
  | env act => rfl
  | listener act => cases act <;> rfl
  | task i l =>
    simp only [ops]
    split
    . apply Label.levels_limit name _ l hfamily
    . rfl

theorem ServerLabel.names_ops (name : String) (s : Server) (l : ServerLabel)
    : ∀ op ∈ l.ops name s, op.Names name := by
  cases l with
  | env act => simp [ops]
  | listener act =>
    cases act with
    | accept conn slot => simp [ops, Metrics.Counter.values]
    | reject peer why => cases why <;> simp [ops, Metrics.Counter.values, Limits.Reject.label]
    | _ => simp [ops]
  | task i l =>
    simp only [ops]
    split
    . apply Label.names_ops
    . simp

end Tcp
