import Mathlib.Algebra.BigOperators.Group.Multiset.Basic
import Mathlib.Algebra.Order.Group.Multiset
import Oxiduct.Data.ListSum
import Oxiduct.Udp.Impl

/-!
This module contains the resources of the UDP proxy and who owns them: the pending marks, the limiter
slots and the sessions themselves. A resource is owned by the listener, by a setup task or by the
session map; what a whole state owns is the multiset sum over its owners.
-/

namespace Udp

open Limits

namespace ListenerPc

def marks : ListenerPc → Multiset SocketAddr
  | .marked src _ => {src}
  | .admitted src _ _ => {src}
  | .rejected src => {src}
  | _ => 0

def slots : ListenerPc → Multiset IpAddr
  | .admitted _ _ slot => {slot.srcIp}
  | _ => 0

end ListenerPc

namespace SetupPc

def marks (src : SocketAddr) : SetupPc → Multiset SocketAddr
  | .done => 0
  | _ => {src}

theorem marks_of_ne_done {src : SocketAddr} {pc : SetupPc} (h : pc ≠ .done)
    : pc.marks src = {src} := by
  cases pc with
  | done => contradiction
  | _ => rfl

def openSlots : SetupPc → Multiset IpAddr
  | .opening slot => {slot.srcIp}
  | _ => 0

def sessions : SetupPc → Multiset Session
  | .opened session => {session}
  | .checked session => {session}
  | .sent session => {session}
  | .aborting session => {session}
  | _ => 0

def slots (pc : SetupPc) : Multiset IpAddr :=
  pc.openSlots + pc.sessions.map fun session => session.slot.srcIp

end SetupPc

namespace State

def taskMarks (s : State) : Multiset SocketAddr :=
  (s.tasks.map fun task => task.2.marks task.1.src).sum

def taskOpenSlots (s : State) : Multiset IpAddr :=
  (s.tasks.map fun task => task.2.openSlots).sum

def taskSessions (s : State) : Multiset Session :=
  (s.tasks.map fun task => task.2.sessions).sum

def taskSlots (s : State) : Multiset IpAddr :=
  (s.tasks.map fun task => task.2.slots).sum

def sessionSlots (s : State) : Multiset IpAddr :=
  s.sessions.values.map fun session => session.slot.srcIp

def marks (s : State) : Multiset SocketAddr :=
  s.listener.marks + s.taskMarks

def held (s : State) : Multiset Session :=
  s.sessions.values + s.taskSessions

def ids (s : State) : Multiset Nat :=
  s.held.map Session.id

def slots (s : State) : Multiset IpAddr :=
  s.sessionSlots + (s.listener.slots + s.taskSlots)

theorem coe_sessionList (s : State) : (s.sessionList : Multiset Session) = s.sessions.values := rfl

theorem mem_sessionList {s : State} {session : Session}
    : session ∈ s.sessionList ↔ ∃ src, s.sessions.lookup src = some session := by
  rw [← Multiset.mem_coe, coe_sessionList, Dict.mem_values]

theorem taskSlots_eq (s : State)
    : s.taskSlots = s.taskOpenSlots + s.taskSessions.map fun session => session.slot.srcIp := by
  simp only [taskSlots, taskOpenSlots, taskSessions]
  induction s.tasks with
  | nil => rfl
  | cons task tasks ih =>
    simp only [List.map_cons, List.sum_cons, ih, Multiset.map_add]
    rw [SetupPc.slots, add_add_add_comm]

theorem slots_eq (s : State)
    : s.slots
        = (s.held.map fun session => session.slot.srcIp) + (s.listener.slots + s.taskOpenSlots) := by
  simp only [slots, sessionSlots, held, Multiset.map_add, taskSlots_eq]
  rw [add_comm s.taskOpenSlots, add_left_comm s.listener.slots, ← add_assoc]

theorem mem_taskMarks {s : State} {i : Nat} {task : Task} {pc : SetupPc}
    (htask : s.tasks[i]? = some (task, pc)) (hpc : pc ≠ .done)
    : task.src ∈ s.taskMarks := by
  rcases List.exists_sum_map_set (fun task => task.2.marks task.1.src) htask with ⟨rest, hrest, _⟩
  rw [taskMarks, hrest, Multiset.mem_add]
  left
  rw [SetupPc.marks_of_ne_done hpc]
  apply Multiset.mem_singleton_self

theorem mem_taskSessions {s : State} {i : Nat} {task : Task} {pc : SetupPc} {session : Session}
    (htask : s.tasks[i]? = some (task, pc)) (hmem : session ∈ pc.sessions)
    : session ∈ s.taskSessions := by
  rcases List.exists_sum_map_set (fun task => task.2.sessions) htask with ⟨rest, hrest, _⟩
  rw [taskSessions, hrest, Multiset.mem_add]
  exact .inl hmem

end State

namespace CleanupAct

variable (cfg : ProxyConfig) (s : State) (act : CleanupAct)

@[simp]
theorem listener_effect : (act.effect cfg s).listener = s.listener := by
  cases act <;> simp only [effect, retainPass, State.dropSessions, State.cancelAll]

@[simp]
theorem tasks_effect : (act.effect cfg s).tasks = s.tasks := by
  cases act <;> simp only [effect, retainPass, State.dropSessions, State.cancelAll]

@[simp]
theorem pending_effect : (act.effect cfg s).pending = s.pending := by
  cases act <;> simp only [effect, retainPass, State.dropSessions, State.cancelAll]

@[simp]
theorem nextId_effect : (act.effect cfg s).nextId = s.nextId := by
  cases act <;> simp only [effect, retainPass, State.dropSessions, State.cancelAll]

@[simp]
theorem opened_effect : (act.effect cfg s).opened = s.opened := by
  cases act <;> simp only [effect, retainPass, State.dropSessions, State.cancelAll]

@[simp]
theorem now_effect : (act.effect cfg s).now = s.now := by
  cases act <;> simp only [effect, retainPass, State.dropSessions, State.cancelAll]

@[simp]
theorem received_effect : (act.effect cfg s).received = s.received := by
  cases act <;> simp only [effect, retainPass, State.dropSessions, State.cancelAll]

@[simp]
theorem draining_effect : (act.effect cfg s).draining = s.draining := by
  cases act <;> simp only [effect, retainPass, State.dropSessions, State.cancelAll]

@[simp]
theorem stopAccepting_effect : (act.effect cfg s).stopAccepting = s.stopAccepting := by
  cases act <;> simp only [effect, retainPass, State.dropSessions, State.cancelAll]

@[simp]
theorem forceShutdown_effect : (act.effect cfg s).forceShutdown = s.forceShutdown := by
  cases act <;> simp only [effect, retainPass, State.dropSessions, State.cancelAll]

end CleanupAct

theorem ListenerAct.marks_effect {s : State} {act : ListenerAct} (hguard : act.guard s)
    : match act with
      | .mark src _ => s.listener.marks = 0 ∧ (act.effect s).listener.marks = {src}
      | .unmark src => s.listener.marks = {src} ∧ (act.effect s).listener.marks = 0
      | .spawn src _ _ => s.listener.marks = {src} ∧ (act.effect s).listener.marks = 0
      | _ => (act.effect s).listener.marks = s.listener.marks := by
  cases act <;> simp only [ListenerAct.guard] at hguard <;>
    simp [ListenerAct.effect, ListenerPc.marks, hguard, State.updCell, State.dropSessions]
  all_goals
    rcases hguard.1 with h | h <;> simp [h]

theorem ListenerAct.slots_effect {s : State} {act : ListenerAct} (hguard : act.guard s)
    : match act with
      | .acquire _ _ slot => s.listener.slots = 0 ∧ (act.effect s).listener.slots = {slot.srcIp}
      | .spawn _ _ slot => s.listener.slots = {slot.srcIp} ∧ (act.effect s).listener.slots = 0
      | _ => (act.effect s).listener.slots = s.listener.slots := by
  cases act <;> simp only [ListenerAct.guard] at hguard <;>
    simp [ListenerAct.effect, ListenerPc.slots, hguard, State.updCell, State.dropSessions]
  all_goals
    rcases hguard.1 with h | h <;> simp [h]

theorem SetupAct.marks_pre (act : SetupAct) (src : SocketAddr) : act.pre.marks src = {src} := by
  cases act <;> rfl

theorem SetupAct.pre_ne_done (act : SetupAct) : act.pre ≠ .done := by
  cases act <;> simp [SetupAct.pre]

def evicted (cfg : ProxyConfig) (s : State) : Label → List Session
  | .env .teardown => s.sessionList
  | .listener (.evict _ _ session) => [session]
  | .setup _ task (.insert _) => (s.sessions.lookup task.src).toList
  | .cleanup (.retain now) =>
    s.sessionList.filter fun session => isDead s session || isStale cfg now s session
  | _ => []

def abandoned : Label → List Session
  | .setup _ _ (.dropSession session) => [session]
  | _ => []

def dropped (cfg : ProxyConfig) (s : State) : Label → List Session
  | .setup _ _ (.dropSession session) => [session]
  | l => evicted cfg s l

def made : Label → List Session
  | .setup _ _ (.openOk slot id) => [⟨id, slot⟩]
  | _ => []

def inserted : Label → List Session
  | .setup _ _ (.insert session) => [session]
  | _ => []

theorem retainPass_values (cfg : ProxyConfig) (now : Nat) (s : State)
    : s.sessions.values
        = (evicted cfg s (.cleanup (.retain now)) : Multiset Session)
          + (retainPass cfg now s).sessions.values := by
  have hsplit := Multiset.filter_add_not
    (fun session => (isDead s session || isStale cfg now s session) = true) s.sessions.values
  rw [← hsplit]
  simp [evicted, retainPass, ← State.coe_sessionList]

theorem lookup_retainPass (cfg : ProxyConfig) (now : Nat) (s : State) (src : SocketAddr)
    : (retainPass cfg now s).sessions.lookup src
        = (s.sessions.lookup src).filter fun session =>
            !(isDead s session || isStale cfg now s session) :=
  Dict.lookup_retain _ _ _

theorem values_of_insert (d : Dict SocketAddr Session) (src : SocketAddr) (session : Session)
    : session ::ₘ d.values
        = ((d.lookup src).toList : Multiset Session) + Dict.values (d.insert src session) := by
  rw [Dict.values_insert]
  cases hlookup : d.lookup src with
  | none => simp [Dict.erase_of_notMem (AList.lookup_eq_none.mp hlookup)]
  | some old =>
    rw [Dict.values_erase hlookup]
    simp [Multiset.cons_swap session old]

variable {s : State} {l : Label}

theorem coe_dropped (cfg : ProxyConfig) (s : State) (l : Label)
    : (dropped cfg s l : Multiset Session) = evicted cfg s l + abandoned l := by
  cases l with
  | setup i task act => cases act <;> simp [dropped, evicted, abandoned]
  | _ => simp [dropped, abandoned]

theorem values_effect (cfg : ProxyConfig) (hguard : guard s l)
    : (inserted l : Multiset Session) + s.sessions.values
        = evicted cfg s l + (effect cfg s l).sessions.values := by
  cases l with
  | env act =>
    cases act with
    | teardown => simp [inserted, evicted, effect, EnvAct.effect, State.coe_sessionList]
    | _ => rfl
  | listener act =>
    cases act with
    | evict src data session =>
      simp [inserted, evicted, effect, ListenerAct.effect, Dict.values_erase hguard.2.1]
    | _ => rfl
  | setup i task act =>
    cases act with
    | insert session => exact values_of_insert s.sessions task.src session
    | _ => rfl
  | relay id side act => rfl
  | cleanup act =>
    cases act with
    | retain now => exact (zero_add _).trans (retainPass_values cfg now s)
    | _ => rfl

theorem taskSessions_effect (cfg : ProxyConfig) (hguard : guard s l)
    : (made l : Multiset Session) + s.taskSessions
        = inserted l + abandoned l + (effect cfg s l).taskSessions := by
  cases l with
  | env act => cases act <;> rfl
  | listener act =>
    cases act with
    | spawn src data slot =>
      simp [made, inserted, abandoned, effect, ListenerAct.effect, State.taskSessions,
        SetupPc.sessions]
    | _ => rfl
  | setup i task act =>
    rcases List.exists_sum_map_set (fun task => task.2.sessions) hguard.1 with
      ⟨rest, hbefore, hafter⟩
    have hbefore : s.taskSessions = act.pre.sessions + rest := hbefore
    have hafter : (effect cfg s (.setup i task act)).taskSessions = act.post.sessions + rest := by
      simp only [effect, State.taskSessions]
      rw [← hafter (task, act.post)]
    rw [hbefore, hafter]
    cases act <;>
      simp [made, inserted, abandoned, SetupAct.pre, SetupAct.post, SetupPc.sessions]
  | relay id side act => rfl
  | cleanup act => simp [made, inserted, abandoned, effect, State.taskSessions]

theorem held_effect (cfg : ProxyConfig) (hguard : guard s l)
    : (made l : Multiset Session) + s.held = dropped cfg s l + (effect cfg s l).held := by
  have hvalues := values_effect cfg hguard
  have htasks := taskSessions_effect cfg hguard
  apply add_left_cancel (a := (inserted l : Multiset Session))
  calc (inserted l : Multiset Session) + (made l + s.held)
    _ = (inserted l + s.sessions.values) + (made l + s.taskSessions) := by
      rw [State.held, add_left_comm (made l : Multiset Session), ← add_assoc]
    _ = (evicted cfg s l + (effect cfg s l).sessions.values)
          + (inserted l + abandoned l + (effect cfg s l).taskSessions) := by
      rw [hvalues, htasks]
    _ = inserted l + (dropped cfg s l + (effect cfg s l).held) := by
      rw [State.held, coe_dropped]
      ac_rfl

end Udp
