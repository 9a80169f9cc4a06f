import Mathlib.Algebra.Order.Group.Multiset
import Mathlib.Algebra.Ring.Int.Defs
import Mathlib.Algebra.Ring.Nat
import Oxiduct.Data.ListSum
import Oxiduct.Tcp.Lemmas.Server

/-!
This module contains the books of `tcp::serve_graceful`: what the proxy counts is what its connections
count, the limiter tallies the tasks that have not ended, and nothing is left of either once it
returns.
-/

namespace Tcp

open Limits

variable {cfg : ProxyConfig} {s : Server} {l : ServerLabel}

namespace Outcome

def isFailure : Outcome → Bool
  | .connectFailed => true
  | .headerFailed => true
  | _ => false

def isTimeout : Outcome → Bool
  | .connectTimedOut => true
  | _ => false

def isRelayed : Outcome → Bool
  | .relayed _ => true
  | _ => false

def isAborted : Outcome → Bool
  | .aborted => true
  | _ => false

end Outcome

namespace HandlePc

def inRelay : HandlePc → Bool
  | .watch _ => true
  | .joining _ _ => true
  | _ => false

def endedIn (p : Outcome → Bool) : HandlePc → Bool
  | .returned outcome _ => p outcome
  | _ => false

end HandlePc

structure Counted (s : State) : Prop where
  active : s.active = if s.handle.inRelay then 1 else 0
  failures : s.connectFailures = if s.handle.endedIn Outcome.isFailure then 1 else 0
  timeouts : s.connectTimeouts = if s.handle.endedIn Outcome.isTimeout then 1 else 0
  forced : s.handle.endedIn Outcome.isAborted = true → s.shutdown = true

theorem counted_accepted : Counted accepted := by
  constructor <;> decide

theorem Counted.of_frame {state state' : State} (h : Counted state)
    (hactive : state'.active = state.active)
    (hfailures : state'.connectFailures = state.connectFailures)
    (htimeouts : state'.connectTimeouts = state.connectTimeouts)
    (hrelay : state'.handle.inRelay = state.handle.inRelay)
    (hended : ∀ p, state'.handle.endedIn p = state.handle.endedIn p)
    (hshutdown : state.shutdown = true → state'.shutdown = true)
    : Counted state' := by
  constructor
  . rw [hactive, hrelay]
    exact h.active
  . rw [hfailures, hended]
    exact h.failures
  . rw [htimeouts, hended]
    exact h.timeouts
  . rw [hended]
    exact fun haborted => hshutdown (h.forced haborted)

theorem Counted.early {state : State} (h : Counted state) (hrelay : state.handle.inRelay = false)
    (hended : ∀ p, state.handle.endedIn p = false)
    : state.active = 0 ∧ state.connectFailures = 0 ∧ state.connectTimeouts = 0 := by
  refine ⟨?_, ?_, ?_⟩
  . rw [h.active, hrelay]
    rfl
  . rw [h.failures, hended]
    rfl
  . rw [h.timeouts, hended]
    rfl

theorem HandleAct.early_of_guard {state : State} {act : HandleAct} (hguard : act.guard state)
    (hact : ∀ reason checked, act ≠ .join reason checked)
    : state.handle.inRelay = false ∧ ∀ p, state.handle.endedIn p = false := by
  cases act with
  | abortConnect => rcases hguard.1 with hpc | hpc <;> rw [hpc] <;> exact ⟨rfl, fun _ => rfl⟩
  | abortHeader =>
    rcases hguard.1 with hpc | hpc
    . rw [hpc]
      exact ⟨rfl, fun _ => rfl⟩
    . rw [hpc.1]
      exact ⟨rfl, fun _ => rfl⟩
  | connected => rw [hguard]; exact ⟨rfl, fun _ => rfl⟩
  | connectErr => rw [hguard]; exact ⟨rfl, fun _ => rfl⟩
  | connectTimeout => rw [hguard]; exact ⟨rfl, fun _ => rfl⟩
  | start => rw [hguard]; exact ⟨rfl, fun _ => rfl⟩
  | join reason checked => exact absurd rfl (hact reason checked)
  | _ => rw [hguard.1]; exact ⟨rfl, fun _ => rfl⟩

theorem Counted.handle_effect {conn : Conn} {state : State} {act : HandleAct} (h : Counted state)
    (hguard : act.guard state)
    : Counted (act.effect conn state) := by
  by_cases hjoin : ∃ reason checked, act = .join reason checked
  . rcases hjoin with ⟨reason, checked, rfl⟩
    have hpc := hguard.1
    constructor
    . simp [HandleAct.effect, h.active, hpc, HandlePc.inRelay]
    . simp [HandleAct.effect, h.failures, hpc, HandlePc.endedIn, Outcome.isFailure]
    . simp [HandleAct.effect, h.timeouts, hpc, HandlePc.endedIn, Outcome.isTimeout]
    . simp [HandleAct.effect, HandlePc.endedIn, Outcome.isAborted]
  . have hearly := HandleAct.early_of_guard hguard (by simpa using hjoin)
    rcases h.early hearly.1 hearly.2 with ⟨hactive, hfailures, htimeouts⟩
    cases act with
    | join reason checked => exact absurd ⟨reason, checked, rfl⟩ hjoin
    | abortConnect => exact ⟨hactive, hfailures, htimeouts, fun _ => hguard.2⟩
    | abortHeader => exact ⟨hactive, hfailures, htimeouts, fun _ => hguard.2⟩
    | connected =>
      simp only [HandleAct.effect]
      split <;> exact ⟨hactive, hfailures, htimeouts, by simp [HandlePc.endedIn]⟩
    | connectErr =>
      exact ⟨hactive, congrArg (· + 1) hfailures, htimeouts, by
        simp [HandleAct.effect, HandlePc.endedIn, Outcome.isAborted]⟩
    | connectTimeout =>
      exact ⟨hactive, hfailures, congrArg (· + 1) htimeouts, by
        simp [HandleAct.effect, HandlePc.endedIn, Outcome.isAborted]⟩
    | headerErr =>
      exact ⟨hactive, congrArg (· + 1) hfailures, htimeouts, by
        simp [HandleAct.effect, HandlePc.endedIn, Outcome.isAborted]⟩
    | start =>
      exact ⟨congrArg (· + 1) hactive, hfailures, htimeouts, by
        simp [HandleAct.effect, HandlePc.endedIn]⟩
    | acceptHeader k => exact ⟨h.active, h.failures, h.timeouts, h.forced⟩
    | _ =>
      exact ⟨hactive, hfailures, htimeouts, by simp [HandleAct.effect, HandlePc.endedIn]⟩

theorem Counted.effect {conn : Conn} {state : State} {l : Label} (h : Counted state)
    (hguard : guard conn state l)
    : Counted (effect conn state l) := by
  cases l with
  | env act =>
    cases act with
    | shutdown => exact h.of_frame rfl rfl rfl rfl (fun _ => rfl) (fun _ => rfl)
    | advance now => exact h.of_frame rfl rfl rfl rfl (fun _ => rfl) id
  | handle act => exact h.handle_effect hguard
  | watch act =>
    cases act with
    | recv wake dir end_ =>
      have hpc := hguard.1
      cases end_ <;> cases dir <;>
        exact h.of_frame rfl rfl rfl (by rw [hpc]; rfl) (fun _ => by rw [hpc]; rfl) id
    | _ =>
      have hpc := hguard.1
      exact h.of_frame rfl rfl rfl (by rw [hpc]; rfl) (fun _ => by rw [hpc]; rfl) id
  | copy dir act =>
    rw [Tcp.effect, CopyAct.effect_eq]
    cases dir <;> exact h.of_frame rfl rfl rfl rfl (fun _ => rfl) id

def entered (s : Server) : ServerLabel → List Task
  | .listener (.accept conn slot) =>
    [⟨conn, slot, { accepted with now := s.now, shutdown := s.forceShutdown }, false⟩]
  | _ => []

/--
What only a task's own steps change: not its joining, nor its copies of the clock and the token.
-/
structure Own {α : Type u} (proj : Task → α) : Prop where
  joined : ∀ task joined, proj { task with joined } = proj task
  shutdown : ∀ task, proj { task with state := { task.state with shutdown := true } } = proj task
  now : ∀ task now, proj { task with state := { task.state with now } } = proj task

theorem Own.env {α : Type u} {proj : Task → α} (hown : Own proj) (task : Task) (acts : List EnvAct)
    : proj { task with state := acts.foldl EnvAct.effect task.state } = proj task := by
  induction acts generalizing task with
  | nil => rfl
  | cons act acts ih =>
    have hstep := ih { task with state := act.effect task.state }
    refine hstep.trans ?_
    cases act with
    | shutdown => exact hown.shutdown task
    | advance now => exact hown.now task now

theorem Own.map_modify {α : Type u} {proj : Task → α} (hown : Own proj) (tasks : List Task)
    (i : Nat)
    : (tasks.modify i fun task => { task with joined := true }).map proj = tasks.map proj := by
  apply List.ext_getElem?
  intro j
  rw [List.getElem?_map, List.getElem?_map, List.getElem?_modify]
  cases tasks[j]? with
  | none => rfl
  | some task =>
    simp only [Option.map_eq_map, Option.map_some]
    split
    . rw [hown.joined]
    . rfl

theorem Own.map_tasks_effect {α : Type u} {proj : Task → α} (hown : Own proj) (s : Server)
    (hl : ∀ i l', l ≠ .task i l')
    : (Server.effect s l).tasks.map proj = s.tasks.map proj ++ (entered s l).map proj := by
  cases l with
  | env act =>
    rw [Server.effect, act.tasks_effect, List.map_map]
    simp only [entered, List.map_nil, List.append_nil]
    apply List.map_congr_left
    intro task _
    exact hown.env task act.act
  | listener act =>
    cases act with
    | join i => exact (hown.map_modify s.tasks i).trans (List.append_nil _).symm
    | accept conn slot => exact List.map_append
    | _ => exact (List.append_nil _).symm
  | task i l => exact absurd rfl (hl i l)

theorem Own.sum_effect {M : Type u} [AddCommMonoid M] {proj : Task → M} (hown : Own proj)
    (hl : ∀ i l', l ≠ .task i l') (hzero : ∀ task ∈ entered s l, proj task = 0)
    : ((Server.effect s l).tasks.map proj).sum = (s.tasks.map proj).sum := by
  have hnew : ((entered s l).map proj).sum = 0 := by
    apply List.sum_eq_zero
    intro x hx
    rcases List.mem_map.mp hx with ⟨task, hmem, rfl⟩
    apply hzero task hmem
  rw [hown.map_tasks_effect s hl, List.sum_append, hnew, add_zero]

theorem counters_mono (conn : Conn) (state : State) (l : Label)
    : state.connectFailures ≤ (effect conn state l).connectFailures
        ∧ state.connectTimeouts ≤ (effect conn state l).connectTimeouts
        ∧ state.closed <+: (effect conn state l).closed := by
  cases l with
  | env act => cases act <;> exact ⟨Nat.le_refl _, Nat.le_refl _, List.prefix_rfl⟩
  | handle act =>
    cases act with
    | connected =>
      simp only [effect, HandleAct.effect]
      split <;> exact ⟨Nat.le_refl _, Nat.le_refl _, List.prefix_rfl⟩
    | connectErr => exact ⟨Nat.le_succ _, Nat.le_refl _, List.prefix_rfl⟩
    | connectTimeout => exact ⟨Nat.le_refl _, Nat.le_succ _, List.prefix_rfl⟩
    | headerErr => exact ⟨Nat.le_succ _, Nat.le_refl _, List.prefix_rfl⟩
    | join reason checked => exact ⟨Nat.le_refl _, Nat.le_refl _, List.prefix_append ..⟩
    | _ => exact ⟨Nat.le_refl _, Nat.le_refl _, List.prefix_rfl⟩
  | watch act =>
    cases act with
    | recv wake dir end_ =>
      cases end_ <;> cases dir <;> exact ⟨Nat.le_refl _, Nat.le_refl _, List.prefix_rfl⟩
    | _ => exact ⟨Nat.le_refl _, Nat.le_refl _, List.prefix_rfl⟩
  | copy dir act =>
    rw [effect, CopyAct.effect_eq]
    cases dir <;> exact ⟨Nat.le_refl _, Nat.le_refl _, List.prefix_rfl⟩

theorem counters_effect (s : Server) (hl : ∀ i l', l ≠ .task i l')
    : (Server.effect s l).total = s.total + (entered s l).length
        ∧ (Server.effect s l).active = s.active
        ∧ (Server.effect s l).connectFailures = s.connectFailures
        ∧ (Server.effect s l).connectTimeouts = s.connectTimeouts
        ∧ (Server.effect s l).closed = s.closed := by
  cases l with
  | env act => cases act <;> exact ⟨rfl, rfl, rfl, rfl, rfl⟩
  | listener act => cases act <;> exact ⟨rfl, rfl, rfl, rfl, rfl⟩
  | task i l => exact absurd rfl (hl i l)

theorem counters_entered {task : Task} (hmem : task ∈ entered s l)
    : task.state.active = 0 ∧ task.state.connectFailures = 0 ∧ task.state.connectTimeouts = 0
        ∧ task.state.closed = [] := by
  unfold entered at hmem
  split at hmem
  . rw [List.mem_singleton.mp hmem]
    exact ⟨rfl, rfl, rfl, rfl⟩
  . cases hmem

structure Ledger (s : Server) : Prop where
  total : s.total = s.tasks.length
  active : s.active = (s.tasks.map fun task => task.state.active).sum
  failures : s.connectFailures = (s.tasks.map fun task => task.state.connectFailures).sum
  timeouts : s.connectTimeouts = (s.tasks.map fun task => task.state.connectTimeouts).sum
  closed : (s.closed : Multiset Reason)
    = (s.tasks.map fun task => (task.state.closed : Multiset Reason)).sum

theorem ledger_listening (cfg : ProxyConfig) : Ledger (listening cfg) := by
  constructor <;> rfl

theorem Ledger.moveTask (h : Ledger s) {i : Nat} {task : Task} (hi : s.tasks[i]? = some task)
    (l : Label)
    : Ledger (s.moveTask i task (effect task.conn task.state l)) := by
  have hmono := counters_mono task.conn task.state l
  generalize effect task.conn task.state l = state at hmono
  constructor
  . rw [Server.moveTask, List.length_set]
    exact h.total
  . rcases List.exists_sum_map_set (fun task => task.state.active) hi with ⟨rest, hbefore, hafter⟩
    have hactive := h.active
    simp only [Server.moveTask, hafter, hactive, hbefore]
    omega
  . rcases List.exists_sum_map_set (fun task => task.state.connectFailures) hi with
      ⟨rest, hbefore, hafter⟩
    simp only [Server.moveTask, hafter, h.failures, hbefore]
    omega
  . rcases List.exists_sum_map_set (fun task => task.state.connectTimeouts) hi with
      ⟨rest, hbefore, hafter⟩
    simp only [Server.moveTask, hafter, h.timeouts, hbefore]
    omega
  . rcases List.exists_sum_map_set (fun task => (task.state.closed : Multiset Reason)) hi with
      ⟨rest, hbefore, hafter⟩
    rcases hmono.2.2 with ⟨new, hnew⟩
    simp only [Server.moveTask, hafter]
    rw [← Multiset.coe_add, h.closed, hbefore, ← hnew, List.drop_left,
      ← Multiset.coe_add, add_right_comm]

theorem Ledger.effect (h : Ledger s) (hguard : Server.guard cfg s l)
    : Ledger (Server.effect s l) := by
  by_cases hl : ∃ i l', l = .task i l'
  . rcases hl with ⟨i, l', rfl⟩
    rcases hguard with ⟨_, task, hi, _⟩
    simp only [Server.effect, hi]
    exact h.moveTask hi l'
  . have hl : ∀ i l', l ≠ .task i l' := by simpa using hl
    rcases counters_effect s hl with ⟨htotal, hactive, hfailures, htimeouts, hclosed⟩
    constructor
    . have hslots : Own (fun task => task.slot) := by constructor <;> intros <;> rfl
      have hlength := congrArg List.length (hslots.map_tasks_effect s hl)
      rw [List.length_map, List.length_append, List.length_map, List.length_map] at hlength
      rw [htotal, h.total, hlength]
    . have hown : Own (fun task => task.state.active) := by constructor <;> intros <;> rfl
      rw [hactive, h.active, hown.sum_effect hl (fun _ hmem => (counters_entered hmem).1)]
    . have hown : Own (fun task => task.state.connectFailures) := by
        constructor <;> intros <;> rfl
      rw [hfailures, h.failures, hown.sum_effect hl (fun _ hmem => (counters_entered hmem).2.1)]
    . have hown : Own (fun task => task.state.connectTimeouts) := by
        constructor <;> intros <;> rfl
      rw [htimeouts, h.timeouts, hown.sum_effect hl (fun _ hmem => (counters_entered hmem).2.2.1)]
    . have hown : Own (fun task => (task.state.closed : Multiset Reason)) := by
        constructor <;> intros <;> rfl
      rw [hclosed, h.closed, hown.sum_effect hl]
      intro task hmem
      rw [(counters_entered hmem).2.2.2]
      rfl

def Task.slots (task : Task) : Multiset IpAddr :=
  if task.state.finished then 0 else {task.slot.srcIp}

def Server.slots (s : Server) : Multiset IpAddr :=
  (s.tasks.map Task.slots).sum

/--
The limiter's `u32` counters do not wrap: they are capped, or fewer than 2^32 tasks run at once.
-/
def roomy (cfg : ProxyConfig) (s : Server) (l : ServerLabel) : Prop :=
  0 < cfg.maxConnections ∨ (Server.effect s l).slots.card < 2 ^ 32

structure SlotInv (cfg : ProxyConfig) (s : Server) : Prop where
  caps : s.limits.caps = ⟨cfg.maxConnections.toNat, cfg.maxPerIp.toNat⟩
  tallies : s.limits.Tallies s.slots
  within : s.limits.caps.Within s.slots

theorem slotInv_listening (cfg : ProxyConfig) : SlotInv cfg (listening cfg) where
  caps := rfl
  tallies := ConnLimits.tallies_new cfg.maxConnections cfg.maxPerIp
  within := Caps.within_zero _

theorem own_slots : Own Task.slots := by
  constructor <;> intros <;> rfl

theorem slots_entered {conn : Conn} {slot : Guard}
    : (Server.effect s (.listener (.accept conn slot))).slots = slot.srcIp ::ₘ s.slots := by
  have hmap := own_slots.map_tasks_effect (l := .listener (.accept conn slot)) s (by simp)
  rw [Server.slots, hmap, List.sum_append, add_comm]
  rfl

theorem SlotInv.accept (h : SlotInv cfg s) {conn : Conn} {slot : Guard}
    (hguard : Server.guard cfg s (.listener (.accept conn slot)))
    (hok : roomy cfg s (.listener (.accept conn slot)))
    : SlotInv cfg (Server.effect s (.listener (.accept conn slot))) := by
  have hip := ConnLimits.srcIp_of_ok hguard.2.2
  have hroom : 0 < s.limits.caps.total ∨ s.slots.card + 1 < 2 ^ 32 := by
    rw [h.caps]
    refine hok.imp UInt32.lt_iff_toNat_lt.mp ?_
    rw [slots_entered, Multiset.card_cons]
    exact id
  have hacquire := h.tallies.acquire h.within hguard.2.2 hroom
  constructor
  . simp only [Server.effect, ListenerAct.effect, ConnLimits.caps_tryAcquire]
    exact h.caps
  . rw [slots_entered, hip]
    exact hacquire.1
  . rw [slots_entered, hip]
    simp only [Server.effect, ListenerAct.effect, ConnLimits.caps_tryAcquire]
    exact hacquire.2

theorem SlotInv.moveTask (h : SlotInv cfg s) {i : Nat} {task : Task}
    (hi : s.tasks[i]? = some task) {l : Label} (hguard : guard task.conn task.state l)
    : SlotInv cfg (s.moveTask i task (effect task.conn task.state l)) := by
  rcases List.exists_sum_map_set Task.slots hi with ⟨rest, hbefore, hafter⟩
  have hmono := finished_effect hguard
  generalize effect task.conn task.state l = state at hmono
  have hslots : (s.moveTask i task state).slots = Task.slots { task with state } + rest :=
    hafter { task with state }
  have hbefore : s.slots = task.slots + rest := hbefore
  by_cases hends : state.finished = true ∧ task.state.finished = false
  . have hlimits : (s.moveTask i task state).limits = s.limits.release task.slot := by
      simp [Server.moveTask, hends]
    have hslots : s.slots = task.slot.srcIp ::ₘ (s.moveTask i task state).slots := by
      rw [hbefore, hslots]
      simp [Task.slots, hends]
    constructor
    . rw [hlimits]
      exact h.caps
    . rw [hlimits]
      apply ConnLimits.Tallies.release
      rw [← hslots]
      exact h.tallies
    . rw [hlimits]
      apply h.within.mono
      rw [hslots]
      apply Multiset.le_cons_self
  . have hsame : state.finished = task.state.finished := by
      cases hfinished : task.state.finished with
      | true => exact hmono hfinished
      | false => simpa [hfinished] using hends
    have hlimits : (s.moveTask i task state).limits = s.limits := by
      simp [Server.moveTask, hsame]
    have hslots : (s.moveTask i task state).slots = s.slots := by
      rw [hbefore, hslots]
      simp [Task.slots, hsame]
    exact ⟨hlimits ▸ h.caps, hlimits ▸ hslots ▸ h.tallies, hlimits ▸ hslots ▸ h.within⟩

theorem SlotInv.effect (h : SlotInv cfg s) (hguard : Server.guard cfg s l) (hok : roomy cfg s l)
    : SlotInv cfg (Server.effect s l) := by
  by_cases htask : ∃ i l', l = .task i l'
  . rcases htask with ⟨i, l', rfl⟩
    rcases hguard with ⟨_, task, hi, hguard⟩
    simp only [Server.effect, hi]
    exact h.moveTask hi hguard
  . by_cases haccept : ∃ conn slot, l = .listener (.accept conn slot)
    . rcases haccept with ⟨conn, slot, rfl⟩
      exact h.accept hguard hok
    . have hentered : entered s l = [] := by
        unfold entered
        split
        . exact absurd ⟨_, _, rfl⟩ haccept
        . rfl
      have hslots : (Server.effect s l).slots = s.slots := by
        apply own_slots.sum_effect (by simpa using htask)
        rw [hentered]
        intro task hmem
        cases hmem
      have hlimits : (Server.effect s l).limits = s.limits := by
        cases l with
        | env act => cases act <;> rfl
        | listener act =>
          cases act with
          | accept conn slot => exact absurd ⟨conn, slot, rfl⟩ haccept
          | reject peer why => exact ConnLimits.limits_of_error hguard.2
          | _ => rfl
        | task i l => exact absurd ⟨i, l, rfl⟩ htask
      exact ⟨hlimits ▸ h.caps, hlimits ▸ hslots ▸ h.tallies, hlimits ▸ hslots ▸ h.within⟩

namespace ListenerPc

def isOut : ListenerPc → Bool
  | .draining => true
  | .returned => true
  | _ => false

end ListenerPc

theorem isOut_effect (hguard : Server.guard cfg s l) (hout : s.listener.isOut = true)
    : (Server.effect s l).listener.isOut = true ∧ entered s l = [] := by
  cases l with
  | env act => cases act <;> exact ⟨hout, rfl⟩
  | listener act =>
    cases act with
    | pollStop => exact ⟨rfl, rfl⟩
    | join i =>
      rcases hguard.1 with hpc | hpc
      . rw [hpc] at hout
        cases hout
      . exact ⟨by simp [Server.effect, ListenerAct.effect, hpc, ListenerPc.isOut], rfl⟩
    | drained => exact ⟨rfl, rfl⟩
    | acceptErr =>
      rw [show s.listener = .polled from hguard] at hout
      cases hout
    | resume =>
      rw [show s.listener = .backoff from hguard] at hout
      cases hout
    | _ =>
      rw [hguard.1] at hout
      cases hout
  | task i l =>
    rcases hguard with ⟨_, task, hi, _⟩
    simp only [Server.effect, hi]
    exact ⟨hout, rfl⟩

theorem total_effect (hguard : Server.guard cfg s l)
    : (Server.effect s l).total = s.total + (entered s l).length := by
  by_cases hl : ∃ i l', l = .task i l'
  . rcases hl with ⟨i, l', rfl⟩
    rcases hguard with ⟨_, task, hi, _⟩
    simp only [Server.effect, hi]
    rfl
  . exact (counters_effect s (by simpa using hl)).1

theorem total_of_isOut {ls : List ServerLabel} (hruns : (serveGraceful cfg).Runs s ls)
    (hout : s.listener.isOut = true)
    : ((serveGraceful cfg).exec s ls).total = s.total := by
  induction ls generalizing s with
  | nil => rfl
  | cons l ls ih =>
    have hnext := isOut_effect hruns.1 hout
    have htotal := total_effect hruns.1
    rw [hnext.2] at htotal
    exact (ih hruns.2 hnext.1).trans htotal

def DrainInv (s : Server) : Prop :=
  s.listener = .returned → ∀ task ∈ s.tasks, task.joined = true

theorem DrainInv.effect (h : DrainInv s) (hguard : Server.guard cfg s l)
    : DrainInv (Server.effect s l) := by
  intro hreturned task hmem
  cases l with
  | env act =>
    rw [Server.effect, act.tasks_effect] at hmem
    rcases List.mem_map.mp hmem with ⟨old, hold, rfl⟩
    apply h _ old hold
    cases act <;> exact hreturned
  | listener act =>
    cases act with
    | join i =>
      simp only [Server.effect, ListenerAct.effect] at hreturned
      split at hreturned <;> cases hreturned
    | drained => exact hguard.2 task hmem
    | _ => cases hreturned
  | task i l =>
    rcases hguard with ⟨_, old, hi, _⟩
    simp only [Server.effect, hi] at hreturned hmem
    rcases List.mem_or_eq_of_mem_set hmem with hmem | rfl
    . exact h hreturned task hmem
    . exact h hreturned old (List.mem_of_getElem? hi)

section Count

variable (tasks : List Task)

theorem card_slots
    : (tasks.map Task.slots).sum.card = tasks.countP fun task => !task.state.finished := by
  apply List.map_sum_eq_countP Multiset.cardHom
  intro task _
  rw [Task.slots]
  cases task.state.finished <;> rfl

theorem count_slots (ip : IpAddr)
    : (tasks.map Task.slots).sum.count ip
        = tasks.countP fun task => !task.state.finished && task.slot.srcIp = ip := by
  apply List.map_sum_eq_countP (Multiset.countAddMonoidHom ip)
  intro task _
  rw [Task.slots]
  cases task.state.finished
  . simp [Multiset.count_singleton, eq_comm]
  . rfl

theorem count_closed (reason : Reason)
    : (tasks.map fun task => (task.state.handle.closed : Multiset Reason)).sum.count reason
        = tasks.countP fun task => task.state.handle.endedIn (· = .relayed reason) := by
  apply List.map_sum_eq_countP (Multiset.countAddMonoidHom reason)
  intro task _
  cases task.state.handle with
  | returned outcome checked =>
    cases outcome with
    | relayed reason' =>
      simp [HandlePc.closed, HandlePc.endedIn, Multiset.count_singleton, eq_comm]
    | _ => rfl
  | _ => rfl

theorem card_closed
    : (tasks.map fun task => (task.state.handle.closed : Multiset Reason)).sum.card
        = tasks.countP fun task => task.state.handle.endedIn Outcome.isRelayed := by
  apply List.map_sum_eq_countP Multiset.cardHom
  intro task _
  cases task.state.handle with
  | returned outcome checked => cases outcome <;> rfl
  | _ => rfl

theorem length_eq_countP
    : tasks.length
        = tasks.countP (fun task => !task.state.finished)
          + tasks.countP (fun task => task.state.handle.endedIn Outcome.isRelayed)
          + tasks.countP (fun task => task.state.handle.endedIn Outcome.isFailure)
          + tasks.countP (fun task => task.state.handle.endedIn Outcome.isTimeout)
          + tasks.countP (fun task => task.state.handle.endedIn Outcome.isAborted) := by
  induction tasks with
  | nil => rfl
  | cons task tasks ih =>
    have hone : 1 = (if (!task.state.finished) = true then 1 else 0)
        + (if task.state.handle.endedIn Outcome.isRelayed = true then 1 else 0)
        + (if task.state.handle.endedIn Outcome.isFailure = true then 1 else 0)
        + (if task.state.handle.endedIn Outcome.isTimeout = true then 1 else 0)
        + (if task.state.handle.endedIn Outcome.isAborted = true then 1 else 0) := by
      unfold State.finished
      cases task.state.handle with
      | returned outcome checked => cases outcome <;> rfl
      | _ => rfl
    simp only [List.length_cons, List.countP_cons]
    omega

end Count

structure BooksInv (s : Server) : Prop where
  tasks : TasksInv s
  ledger : Ledger s
  drain : DrainInv s

theorem booksInv_of_reach {ok : Server → ServerLabel → Prop}
    (h : (serveGraceful cfg).Reach ok (listening cfg) s)
    : BooksInv s := by
  apply h.invariant
  . exact ⟨tasksInv_listening cfg, ledger_listening cfg, by intro h; cases h⟩
  . intro s l hinv hguard _
    exact ⟨hinv.tasks.effect hguard, hinv.ledger.effect hguard, hinv.drain.effect hguard⟩

structure ServerInv (cfg : ProxyConfig) (s : Server) : Prop extends BooksInv s where
  slots : SlotInv cfg s

theorem serverInv_of_reach (h : (serveGraceful cfg).Reach (roomy cfg) (listening cfg) s)
    : ServerInv cfg s := by
  refine ⟨booksInv_of_reach h, ?_⟩
  apply h.invariant (slotInv_listening cfg)
  exact fun _ _ hslots hguard hok => hslots.effect hguard hok

theorem TaskInv.counted {task : Task} (h : TaskInv task) : Counted task.state :=
  h.reach.invariant counted_accepted (fun _ _ hcounted hguard _ => hcounted.effect hguard)

theorem TaskInv.relay {task : Task} (h : TaskInv task) : RelayInv task.conn task.state :=
  relayInv_of_reach h.reach

namespace TasksInv

variable (h : TasksInv s)

include h

theorem sum_active
    : (s.tasks.map fun task => task.state.active).sum
        = (s.tasks.countP fun task => task.state.handle.inRelay : Nat) := by
  apply List.sum_map_eq_countP
  intro task hmem
  exact (h.tasks task hmem).counted.active

theorem sum_failures
    : (s.tasks.map fun task => task.state.connectFailures).sum
        = s.tasks.countP fun task => task.state.handle.endedIn Outcome.isFailure := by
  apply List.sum_map_eq_countP
  intro task hmem
  exact (h.tasks task hmem).counted.failures

theorem sum_timeouts
    : (s.tasks.map fun task => task.state.connectTimeouts).sum
        = s.tasks.countP fun task => task.state.handle.endedIn Outcome.isTimeout := by
  apply List.sum_map_eq_countP
  intro task hmem
  exact (h.tasks task hmem).counted.timeouts

theorem sum_closed
    : (s.tasks.map fun task => (task.state.closed : Multiset Reason)).sum
        = (s.tasks.map fun task => (task.state.handle.closed : Multiset Reason)).sum := by
  apply congrArg List.sum
  apply List.map_congr_left
  intro task hmem
  rw [show task.state.closed = task.state.handle.closed from (h.tasks task hmem).relay.count]

end TasksInv

/--
The books of the proxy: the gauge counts the relays, and each task is in exactly one of the other
counters once it has finished.
-/
structure ConnectionBooks (cfg : ProxyConfig) (s : Server) : Prop where
  active : s.active = (s.tasks.countP fun task => task.state.handle.inRelay : Nat)
  total : s.total
    = s.tasks.countP (fun task => !task.state.finished) + s.closed.length + s.connectFailures
      + s.connectTimeouts + s.tasks.countP fun task => task.state.handle.endedIn Outcome.isAborted
  closed : ∀ reason, s.closed.count reason
    = s.tasks.countP fun task => task.state.handle.endedIn (· = .relayed reason)
  failures : s.connectFailures
    = s.tasks.countP fun task => task.state.handle.endedIn Outcome.isFailure
  timeouts : s.connectTimeouts
    = s.tasks.countP fun task => task.state.handle.endedIn Outcome.isTimeout
  -- only `force_shutdown` ends a connection from outside
  forced : ∀ task ∈ s.tasks, task.state.handle.endedIn Outcome.isAborted = true
    ∨ (∃ checked, task.state.handle.verdict? = some (.shutdown, checked)) → s.forceShutdown = true
  stopped : (Server.effect s (.env .stopAccepting)).tasks = s.tasks
  accepting : ∀ act, Server.guard cfg s (.listener act) → ∀ (i : Nat) task, s.tasks[i]? = some task →
    ∃ joined, (Server.effect s (.listener act)).tasks[i]? = some { task with joined }
  out : s.listener.isOut = true → ∀ ls, (serveGraceful cfg).Runs s ls →
    ((serveGraceful cfg).exec s ls).total = s.total
  returned : s.listener = .returned →
    (∀ task ∈ s.tasks, task.state.finished = true) ∧ s.active = 0

structure LimiterBooks (s : Server) : Prop where
  slots : s.limits.state.total.toNat = s.tasks.countP fun task => !task.state.finished
  perIp : ∀ ip, (s.limits.currentIp ip).toNat
    = s.tasks.countP fun task => !task.state.finished && task.conn.peer.ip = ip
  returned : s.listener = .returned →
    s.limits.state.total = 0 ∧ ∀ ip, s.limits.currentIp ip = 0

theorem RelayInv.shutdown_of_verdict {conn : Conn} {state : State} (h : RelayInv conn state)
    {checked : Option (Nat × Nat)} (hverdict : state.handle.verdict? = some (.shutdown, checked))
    : state.shutdown = true :=
  h.watch.verdict .shutdown checked hverdict

theorem BooksInv.finished (h : BooksInv s) (hreturned : s.listener = .returned)
    : ∀ task ∈ s.tasks, task.state.finished = true :=
  fun task hmem => (h.tasks.tasks task hmem).joined (h.drain hreturned task hmem)

theorem BooksInv.connectionBooks (cfg : ProxyConfig) (h : BooksInv s) : ConnectionBooks cfg s := by
  have htasks := h.tasks
  have hfailures := h.ledger.failures.trans htasks.sum_failures
  have htimeouts := h.ledger.timeouts.trans htasks.sum_timeouts
  have hactive := h.ledger.active.trans htasks.sum_active
  have hclosed := h.ledger.closed.trans htasks.sum_closed
  constructor
  . exact hactive
  . have hlength : s.closed.length
        = s.tasks.countP fun task => task.state.handle.endedIn Outcome.isRelayed := by
      rw [← card_closed, ← hclosed]
      rfl
    rw [h.ledger.total, hlength, hfailures, htimeouts]
    apply length_eq_countP
  . intro reason
    rw [← count_closed, ← hclosed, Multiset.coe_count]
  . exact hfailures
  . exact htimeouts
  . intro task hmem hforced
    rw [← htasks.sync.shutdown task hmem]
    rcases hforced with haborted | ⟨checked, hverdict⟩
    . exact (htasks.tasks task hmem).counted.forced haborted
    . exact (htasks.tasks task hmem).relay.shutdown_of_verdict hverdict
  . rfl
  . intro act hguard i task hi
    rcases task_effect htasks.sync hguard hi with ⟨_, joined, _, heffect⟩
    exact ⟨joined, heffect⟩
  . intro hout ls hruns
    exact total_of_isOut hruns hout
  . intro hreturned
    have hfinished := h.finished hreturned
    refine ⟨hfinished, ?_⟩
    rw [hactive, List.countP_eq_zero.mpr]
    . rfl
    . intro task hmem
      rcases State.finished_iff.mp (hfinished task hmem) with ⟨outcome, checked, hpc⟩
      simp [hpc, HandlePc.inRelay]

theorem ServerInv.limiterBooks (h : ServerInv cfg s) : LimiterBooks s := by
  have hslots := h.slots.tallies.total.trans (card_slots s.tasks)
  have hperIp : ∀ ip, (s.limits.currentIp ip).toNat
      = s.tasks.countP fun task => !task.state.finished && task.conn.peer.ip = ip := by
    intro ip
    rw [h.slots.tallies.currentIp, Server.slots, count_slots]
    apply List.countP_congr
    intro task hmem
    rw [(h.tasks.tasks task hmem).slot]
  refine ⟨hslots, hperIp, ?_⟩
  intro hreturned
  have hfinished := h.finished hreturned
  constructor
  . rw [← UInt32.toNat_inj, hslots]
    apply List.countP_eq_zero.mpr
    intro task hmem
    simp [hfinished task hmem]
  . intro ip
    rw [← UInt32.toNat_inj, hperIp]
    apply List.countP_eq_zero.mpr
    intro task hmem
    simp [hfinished task hmem]

def ServerLabel.refused (conn : Conn) : List ServerLabel :=
  [.listener .pollNone, .listener (.accept conn ⟨conn.peer.ip⟩), .task 0 (.handle .pollConnect),
    .task 0 (.handle .connectErr), .env .stopAccepting, .listener .pollStop, .listener (.join 0),
    .listener .drained]

def uncappedConn : Conn :=
  { webConn with cfg := { webProxy with maxConnections := 0, maxPerIp := 0 } }

structure Flood (n : Nat) (s : Server) : Prop where
  listener : s.listener = .select
  stop : s.stopAccepting = false
  maxTotal : s.limits.maxTotal = 0
  maxPerIp : s.limits.maxPerIp = 0
  total : s.limits.state.total = UInt32.ofNat n
  unfinished : s.tasks.countP (fun task => !task.state.finished) = n

def ServerLabel.flood : List ServerLabel :=
  [.listener .pollNone, .listener (.accept uncappedConn ⟨uncappedConn.peer.ip⟩)]

namespace Flood

variable {n : Nat} (h : Flood n s)

include h

theorem tryAcquire_eq (ip : IpAddr) : s.limits.tryAcquire ip = s.limits.grant ip := by
  simp [ConnLimits.tryAcquire, h.maxTotal, h.maxPerIp]

theorem runs : (serveGraceful uncappedConn.cfg).Runs s ServerLabel.flood := by
  refine ⟨⟨h.listener, h.stop⟩, ⟨rfl, rfl, ?_⟩, trivial⟩
  change (s.limits.tryAcquire _).result = _
  rw [h.tryAcquire_eq]
  rfl

theorem exec
    : Flood (n + 1) ((serveGraceful uncappedConn.cfg).exec s ServerLabel.flood) := by
  have hlimits := h.tryAcquire_eq uncappedConn.peer.ip
  simp only [ServerLabel.flood, Machine.exec_cons, Machine.exec_nil, serveGraceful, Server.effect,
    ListenerAct.effect, hlimits]
  constructor
  . rfl
  . exact h.stop
  . exact h.maxTotal
  . exact h.maxPerIp
  . simp [ConnLimits.grant, h.total, UInt32.ofNat_add]
  . rw [List.countP_append, h.unfinished]
    rfl

end Flood

end Tcp
