import Oxiduct.Data.Log
import Oxiduct.Udp.Lemmas.Cells

/-!
This module contains what the UDP proxy relays: a session is sent the datagrams of its own source, in
the order the listener received them and from the one that opened it on, and what comes back goes to
that source. The invariant draws the packets of a session, whether sent, in hand or queued, from the
log of received datagrams.
-/

namespace Udp

variable {cfg : ProxyConfig} {s : State} {l : Label}

namespace RelayPc

def packet? : RelayPc → Option Packet
  | .send data => some data
  | _ => none

end RelayPc

namespace Cell

/--
What the session has handed to its upstream socket, a send that is still under way included.
-/
def handed (c : Cell) : List Packet :=
  c.upstream ++ c.up.packet?.toList

def accepted (c : Cell) : List Packet :=
  c.handed ++ c.queue

end Cell

namespace ListenerPc

def datagram? : ListenerPc → Option (SocketAddr × Packet)
  | .lookup src data => some (src, data)
  | .slow src data => some (src, data)
  | .marked src data => some (src, data)
  | .admitted src data _ => some (src, data)
  | _ => none

end ListenerPc

namespace State

def handled (s : State) : Nat :=
  match s.listener.datagram? with
  | none => s.received.length
  | some _ => s.received.length - 1

theorem handled_of_none (h : s.listener.datagram? = none) : s.handled = s.received.length := by
  rw [handled, h]

theorem handled_of_some {p : SocketAddr × Packet} (h : s.listener.datagram? = some p)
    : s.handled = s.received.length - 1 := by
  rw [handled, h]

theorem handled_le (s : State) : s.handled ≤ s.received.length := by
  unfold handled
  split <;> omega

end State

theorem datagram_effect (cfg : ProxyConfig) (hguard : guard s l)
    : (∃ p, s.listener.datagram? = none ∧ (effect cfg s l).received = s.received ++ [p]
        ∧ (effect cfg s l).listener.datagram? = some p)
      ∨ (effect cfg s l).received = s.received
          ∧ ((effect cfg s l).listener.datagram? = s.listener.datagram?
              ∨ (effect cfg s l).listener.datagram? = none) := by
  by_cases hl : ∃ act, l = .listener act
  . rcases hl with ⟨act, rfl⟩
    cases act with
    | recv src data =>
      left
      exact ⟨(src, data), by rw [show s.listener = .polled from hguard]; rfl, rfl, rfl⟩
    | evict src data session =>
      right
      exact ⟨rfl, .inl (by rw [hguard.1]; rfl)⟩
    | miss src data =>
      right
      exact ⟨rfl, .inl (by rw [hguard.1]; rfl)⟩
    | mark src data =>
      right
      exact ⟨rfl, .inl (by rw [hguard.1]; rfl)⟩
    | acquire src data slot =>
      right
      exact ⟨rfl, .inl (by rw [hguard.1]; rfl)⟩
    | _ =>
      right
      exact ⟨rfl, .inr rfl⟩
  . right
    rw [listener_effect (by simpa using hl)]
    refine ⟨?_, .inl rfl⟩
    cases l with
    | env act => cases act <;> rfl
    | listener act => exact absurd ⟨act, rfl⟩ hl
    | setup i task act => cases act <;> rfl
    | relay id side act => rfl
    | cleanup act => apply CleanupAct.received_effect

def LastInHand (s : State) : Prop :=
  ∀ p, s.listener.datagram? = some p → s.received.getLast? = some p

theorem LastInHand.effect (hlast : LastInHand s) (hguard : guard s l)
    : LastInHand (effect cfg s l) := by
  intro p hp
  rcases datagram_effect cfg hguard with ⟨p', _, hreceived, hdatagram⟩ | ⟨hreceived, hdatagram⟩
  . rw [hdatagram] at hp
    rw [hreceived, List.getLast?_concat, hp]
  . rw [hreceived]
    rcases hdatagram with hdatagram | hdatagram
    . rw [hdatagram] at hp
      apply hlast p hp
    . rw [hdatagram] at hp
      cases hp

theorem LastInHand.getElem?_handled (hlast : LastInHand s) {p : SocketAddr × Packet}
    (h : s.listener.datagram? = some p)
    : s.received[s.handled]? = some p ∧ s.received.length = s.handled + 1 := by
  have hlast := hlast p h
  rw [List.getLast?_eq_getElem?] at hlast
  rw [State.handled_of_some h]
  have := (List.getElem?_eq_some_iff.mp hlast).1
  exact ⟨hlast, by omega⟩

theorem handled_mono (cfg : ProxyConfig) (hguard : guard s l)
    : s.handled ≤ (effect cfg s l).handled := by
  rcases datagram_effect cfg hguard with
    ⟨p, hnone, hreceived, hdatagram⟩ | ⟨hreceived, hdatagram | hdatagram⟩
  . rw [State.handled_of_none hnone, State.handled_of_some hdatagram, hreceived]
    simp
  . unfold State.handled
    rw [hdatagram, hreceived]
  . rw [State.handled_of_none hdatagram, hreceived]
    apply State.handled_le

theorem received_effect (cfg : ProxyConfig) (hguard : guard s l)
    : ∃ new, (effect cfg s l).received = s.received ++ new := by
  rcases datagram_effect cfg hguard with ⟨p, _, hreceived, _⟩ | ⟨hreceived, _⟩
  . exact ⟨[p], hreceived⟩
  . exact ⟨[], by rw [hreceived, List.append_nil]⟩

namespace Owned

variable {i j : Nat} {task task' : Task} {pc pc' : SetupPc} {session session' : Session}

theorem id_ne_of_tasks (howned : Owned s) (hne : i ≠ j) (hi : s.tasks[i]? = some (task, pc))
    (hj : s.tasks[j]? = some (task', pc')) (hmem : session ∈ pc.sessions)
    (hmem' : session' ∈ pc'.sessions)
    : session.id ≠ session'.id := by
  rcases List.exists_sum_map_set (fun task => task.2.sessions) hi with ⟨rest, hbefore, hafter⟩
  have hrest : session' ∈ rest := by
    have hsum := hafter (task, .done)
    rw [show SetupPc.sessions .done = 0 from rfl, zero_add] at hsum
    rw [← hsum, List.mem_sum_map]
    refine ⟨(task', pc'), ?_, hmem'⟩
    apply List.mem_of_getElem?
    rw [List.getElem?_set_ne hne]
    exact hj
  have hnodup := howned.nodup
  rw [State.ids, State.held, State.taskSessions, hbefore, Multiset.map_add, Multiset.map_add,
    Multiset.nodup_add, Multiset.nodup_add] at hnodup
  intro heq
  apply Multiset.disjoint_left.mp hnodup.2.1.2.2 (Multiset.mem_map_of_mem _ hmem)
  rw [heq]
  apply Multiset.mem_map_of_mem _ hrest

theorem id_ne_of_session (howned : Owned s) (hmem : session ∈ s.sessionList)
    (hj : s.tasks[j]? = some (task', pc')) (hmem' : session' ∈ pc'.sessions)
    : session.id ≠ session'.id := by
  have hnodup := howned.nodup
  rw [State.ids, State.held, Multiset.map_add, Multiset.nodup_add] at hnodup
  intro heq
  rw [← Multiset.mem_coe, State.coe_sessionList] at hmem
  apply Multiset.disjoint_left.mp hnodup.2.2 (Multiset.mem_map_of_mem _ hmem)
  rw [heq]
  apply Multiset.mem_map_of_mem _ (State.mem_taskSessions hj hmem')

end Owned

namespace Cell

variable {c c' : Cell} {received : List (SocketAddr × Packet)} {hi : Nat} {data : Packet}

theorem accepted_trySend (c : Cell) (data : Packet)
    : (c.trySend data).accepted = c.accepted ++ [data] ∨ (c.trySend data).accepted = c.accepted := by
  unfold trySend
  split
  . left
    simp [accepted, handed]
  . right
    rfl

theorem origin_trySend (c : Cell) (data : Packet)
    : (c.trySend data).src = c.src ∧ (c.trySend data).born = c.born := by
  unfold trySend
  split <;> exact ⟨rfl, rfl⟩

theorem origin_apply (c : Cell) (now : Nat) (side : Side) (act : RelayAct)
    : (act.apply now side c).src = c.src ∧ (act.apply now side c).born = c.born := by
  cases act <;> cases side <;> exact ⟨rfl, rfl⟩

/--
The session's packets are drawn from what was received from its source, from the datagram that opened
it on.
-/
structure Fed (received : List (SocketAddr × Packet)) (hi : Nat) (c : Cell) : Prop where
  born : ∃ data, received[c.born]? = some (c.src, data)
  drawn : Log.Drawn received c.born hi (c.accepted.map fun data => (c.src, data))

namespace Fed

theorem mono {hi' : Nat} (hfed : c.Fed received hi) (horigin : c'.src = c.src ∧ c'.born = c.born)
    (hsub : c'.accepted.Sublist c.accepted) (hle : hi ≤ hi')
    (new : List (SocketAddr × Packet))
    : c'.Fed (received ++ new) hi' := by
  rcases hfed.born with ⟨data, hborn⟩
  constructor
  . refine ⟨data, ?_⟩
    rw [horigin.1, horigin.2]
    rw [List.getElem?_append_left (List.getElem?_eq_some_iff.mp hborn).1]
    exact hborn
  . rw [horigin.1, horigin.2]
    apply Log.Drawn.append
    exact (hfed.drawn.sublist (hsub.map _)).mono hle

theorem concat {n : Nat} (hfed : c.Fed received n)
    (horigin : c'.src = c.src ∧ c'.born = c.born) (haccepted : c'.accepted = c.accepted ++ [data])
    (hle : c.born ≤ n) (hdata : received[n]? = some (c.src, data))
    : c'.Fed received (n + 1) := by
  constructor
  . rw [horigin.1, horigin.2]
    exact hfed.born
  . rw [horigin.1, horigin.2, haccepted, List.map_append]
    exact hfed.drawn.concat hle hdata

end Fed

end Cell

theorem Cell.accepted_eq {c : Cell} {pc : RelayPc} (h : c.up = pc)
    : c.accepted = c.upstream ++ (pc.packet?.toList ++ c.queue) := by
  rw [accepted, handed, h, List.append_assoc]

theorem Cell.upstream_append_queue_sublist (c : Cell)
    : (c.upstream ++ c.queue).Sublist c.accepted := by
  rw [c.accepted_eq rfl, List.append_sublist_append_left]
  apply List.sublist_append_right

theorem RelayAct.accepted_apply_down (act : RelayAct) (now : Nat) (c : Cell)
    : (act.apply now .down c).accepted = c.accepted := by
  cases act <;> rfl

theorem RelayAct.accepted_apply {id : Nat} {side : Side} {act : RelayAct}
    (hguard : act.guard s id side) (now : Nat)
    : (act.apply now side (s.cells id)).accepted.Sublist (s.cells id).accepted := by
  have hsub := (s.cells id).upstream_append_queue_sublist
  cases side with
  | down => rw [accepted_apply_down]
  | up =>
    cases act with
    | take data =>
      have hqueue : (s.cells id).queue = data :: (s.cells id).queue.tail := by
        apply List.eq_cons_of_mem_head?
        rw [hguard.2 rfl]
        rfl
      rw [hqueue] at hsub
      rw [Cell.accepted_eq rfl]
      exact hsub
    | sent data =>
      have hup : (s.cells id).up = .send data := hguard
      rw [Cell.accepted_eq rfl, Cell.accepted_eq hup]
      simp [apply, Cell.setPc, RelayPc.packet?]
    | cancel =>
      rw [Cell.accepted_eq rfl]
      apply List.Sublist.trans _ hsub
      apply List.Sublist.append (List.Sublist.refl _)
      apply List.nil_sublist
    | _ =>
      rw [Cell.accepted_eq rfl]
      exact hsub

namespace CellChange

variable {id : Nat} {c : Cell}

theorem origin (h : CellChange s id l c) (hl : ∀ i task slot, l ≠ .setup i task (.openOk slot id))
    : c.src = (s.cells id).src ∧ c.born = (s.cells id).born := by
  cases h with
  | flags => exact ⟨rfl, rfl⟩
  | hit => apply Cell.origin_trySend
  | opened i task slot => exact absurd rfl (hl i task slot)
  | trySend => apply Cell.origin_trySend
  | relay side act => apply Cell.origin_apply

end CellChange

namespace SetupPc

def unsent : SetupPc → Multiset Session
  | .opened session => {session}
  | .checked session => {session}
  | _ => 0

theorem mem_sessions_of_unsent {pc : SetupPc} {session : Session} (h : session ∈ pc.unsent)
    : session ∈ pc.sessions := by
  cases pc with
  | opened => exact h
  | checked => exact h
  | _ => exact absurd h (Multiset.notMem_zero _)

end SetupPc

theorem SetupAct.post_sessions_le {act : SetupAct} (hact : ∀ slot id, act ≠ .openOk slot id)
    : act.post.sessions ≤ act.pre.sessions := by
  cases act with
  | openOk slot id => exact absurd rfl (hact slot id)
  | _ => simp [post, pre, SetupPc.sessions]

structure TaskFed (s : State) (task : Task) (pc : SetupPc) : Prop where
  lt : task.born < s.handled
  born : s.received[task.born]? = some (task.src, task.data)
  origin : ∀ session ∈ pc.sessions,
    (s.cells session.id).src = task.src ∧ (s.cells session.id).born = task.born
  unsent : ∀ session ∈ pc.unsent, (s.cells session.id).accepted = []

theorem tasks_effect (cfg : ProxyConfig) (hguard : guard s l) {j : Nat} {task : Task} {pc : SetupPc}
    (hj : (effect cfg s l).tasks[j]? = some (task, pc))
    : (s.tasks[j]? = some (task, pc) ∧ ∀ task' act, l ≠ .setup j task' act)
      ∨ (∃ act, l = .setup j task act ∧ pc = act.post)
      ∨ ∃ src data slot, l = .listener (.spawn src data slot)
          ∧ task = ⟨src, data, s.received.length - 1⟩ ∧ pc = .opening slot := by
  cases l with
  | env act =>
    left
    cases act <;> exact ⟨hj, by simp⟩
  | listener act =>
    cases act with
    | spawn src data slot =>
      simp only [effect, ListenerAct.effect, List.getElem?_append] at hj
      split at hj
      . left
        exact ⟨hj, by simp⟩
      . right; right
        cases List.mem_singleton.mp (List.mem_of_getElem? hj)
        exact ⟨src, data, slot, rfl, rfl, rfl⟩
    | _ =>
      left
      exact ⟨hj, by simp⟩
  | setup i task' act =>
    simp only [effect, List.getElem?_set] at hj
    split at hj
    . next heq =>
      right; left
      split at hj
      . cases hj
        exact ⟨act, by rw [heq], rfl⟩
      . cases hj
    . next hne =>
      left
      refine ⟨hj, ?_⟩
      rintro task'' act' ⟨⟩
      exact hne rfl
  | relay id side act =>
    left
    exact ⟨hj, by simp⟩
  | cleanup act =>
    left
    rw [effect, CleanupAct.tasks_effect] at hj
    exact ⟨hj, by simp⟩

structure Faithful (s : State) : Prop where
  last : LastInHand s
  tasks : ∀ (i : Nat) task pc, s.tasks[i]? = some (task, pc) → TaskFed s task pc
  cells : ∀ id < s.nextId, (s.cells id).Fed s.received s.handled
  keys : ∀ src session, s.sessions.lookup src = some session → (s.cells session.id).src = src

theorem lookup_effect (cfg : ProxyConfig) (hguard : guard s l) {src : SocketAddr} {session : Session}
    (h : (effect cfg s l).sessions.lookup src = some session)
    : s.sessions.lookup src = some session
        ∨ ∃ i task, l = .setup i task (.insert session) ∧ task.src = src := by
  cases l with
  | env act =>
    left
    cases act with
    | teardown => simp [effect, EnvAct.effect] at h
    | _ => exact h
  | listener act =>
    left
    cases act with
    | evict src' data session' =>
      simp only [effect, ListenerAct.effect] at h
      by_cases heq : src = src'
      . rw [heq, AList.lookup_erase] at h
        cases h
      . rwa [AList.lookup_erase_ne heq] at h
    | _ => exact h
  | setup i task act =>
    cases act with
    | insert session' =>
      simp only [effect, SetupAct.effect] at h
      by_cases heq : src = task.src
      . rw [heq, AList.lookup_insert] at h
        cases h
        exact .inr ⟨i, task, rfl, heq.symm⟩
      . rw [AList.lookup_insert_ne heq] at h
        exact .inl h
    | _ => exact .inl h
  | relay id side act => exact .inl h
  | cleanup act =>
    left
    cases act with
    | retain now =>
      rw [show (effect cfg s (.cleanup (.retain now))).sessions = (retainPass cfg now s).sessions
        from rfl, lookup_retainPass, Option.filter_eq_some_iff] at h
      exact h.1
    | _ => exact h

theorem origin_effect (cfg : ProxyConfig) (hguard : guard s l) {id : Nat} (hlt : id < s.nextId)
    : ((effect cfg s l).cells id).src = (s.cells id).src
        ∧ ((effect cfg s l).cells id).born = (s.cells id).born := by
  apply (cellChange_effect cfg s l id).origin
  rintro i task slot rfl
  have : id = s.nextId := hguard.2
  omega

theorem getElem?_received_effect (cfg : ProxyConfig) (hguard : guard s l) {i : Nat}
    {p : SocketAddr × Packet} (h : s.received[i]? = some p)
    : (effect cfg s l).received[i]? = some p := by
  rcases received_effect cfg hguard with ⟨new, hnew⟩
  rw [hnew, List.getElem?_append_left (List.getElem?_eq_some_iff.mp h).1]
  exact h

namespace TaskFed

variable {task : Task} {pc : SetupPc} {j : Nat}

theorem id_lt (howned : Owned s) (hj : s.tasks[j]? = some (task, pc)) {session : Session}
    (hmem : session ∈ pc.sessions)
    : session.id < s.nextId :=
  howned.lt _ (mem_ids_of_task hj hmem)

theorem accepted_other (howned : Owned s) (hguard : guard s l)
    (hj : s.tasks[j]? = some (task, pc)) (hl : ∀ task' act, l ≠ .setup j task' act)
    {session : Session} (hmem : session ∈ pc.sessions) (h : (s.cells session.id).accepted = [])
    : ((Udp.effect cfg s l).cells session.id).accepted = [] := by
  have hchange := cellChange_effect cfg s l session.id
  generalize (Udp.effect cfg s l).cells session.id = c at hchange
  cases hchange with
  | flags => exact h
  | hit src data session' hid =>
    have hmap := State.mem_sessionList.mpr ⟨src, hguard.2.1⟩
    exact absurd hid (howned.id_ne_of_session hmap hj hmem)
  | opened i task' slot =>
    have := id_lt howned hj hmem
    have : session.id = s.nextId := hguard.2
    omega
  | trySend i task' session' hid =>
    have hne : i ≠ j := by
      rintro rfl
      exact hl task' (.trySend session') rfl
    exact absurd hid (howned.id_ne_of_tasks hne hguard.1 hj (Multiset.mem_singleton_self _) hmem)
  | relay side act =>
    have hsub := RelayAct.accepted_apply hguard.2 s.now
    rw [h, List.sublist_nil] at hsub
    exact hsub

theorem other (hfed : TaskFed s task pc) (howned : Owned s) (hguard : guard s l)
    (hj : s.tasks[j]? = some (task, pc)) (hl : ∀ task' act, l ≠ .setup j task' act)
    : TaskFed (effect cfg s l) task pc where
  lt := Nat.lt_of_lt_of_le hfed.lt (handled_mono cfg hguard)
  born := getElem?_received_effect cfg hguard hfed.born
  origin := by
    intro session hmem
    have horigin := origin_effect cfg hguard (id_lt howned hj hmem)
    rw [horigin.1, horigin.2]
    apply hfed.origin session hmem
  unsent := by
    intro session hmem
    have hsession := SetupPc.mem_sessions_of_unsent hmem
    apply accepted_other howned hguard hj hl hsession (hfed.unsent session hmem)

theorem own {act : SetupAct} (hfed : TaskFed s task act.pre) (howned : Owned s)
    (hguard : guard s (.setup j task act))
    : TaskFed (effect cfg s (.setup j task act)) task act.post where
  lt := Nat.lt_of_lt_of_le hfed.lt (handled_mono cfg hguard)
  born := getElem?_received_effect cfg hguard hfed.born
  origin := by
    intro session hmem
    cases act with
    | openOk slot id =>
      rw [Multiset.mem_singleton.mp hmem]
      simp [Udp.effect, SetupAct.effect, State.cells_updCell, Cell.opened]
    | _ =>
      have hpre : session ∈ SetupPc.sessions _ :=
        Multiset.mem_of_le (SetupAct.post_sessions_le (by simp)) hmem
      have horigin := origin_effect cfg hguard (id_lt howned hguard.1 hpre)
      rw [horigin.1, horigin.2]
      apply hfed.origin session hpre
  unsent := by
    intro session hmem
    cases act with
    | openOk slot id =>
      rw [Multiset.mem_singleton.mp hmem]
      simp [Udp.effect, SetupAct.effect, State.cells_updCell, Cell.opened, Cell.accepted,
        Cell.handed, RelayPc.packet?]
    | pass session' => exact hfed.unsent session hmem
    | _ => exact absurd hmem (Multiset.notMem_zero _)

theorem spawn (hlast : LastInHand s) {src : SocketAddr} {data : Packet} {slot : Limits.Guard}
    (hguard : guard s (.listener (.spawn src data slot)))
    : TaskFed (effect cfg s (.listener (.spawn src data slot)))
        ⟨src, data, s.received.length - 1⟩ (.opening slot) where
  lt := by
    have hdatagram : s.listener.datagram? = some (src, data) := by
      rw [show s.listener = .admitted src data slot from hguard]
      rfl
    have := (hlast.getElem?_handled hdatagram).2
    rw [State.handled_of_none rfl]
    change s.received.length - 1 < s.received.length
    omega
  born := by
    have hdatagram : s.listener.datagram? = some (src, data) := by
      rw [show s.listener = .admitted src data slot from hguard]
      rfl
    have hlast := hlast _ hdatagram
    rwa [List.getLast?_eq_getElem?] at hlast
  origin := by
    intro session hmem
    exact absurd hmem (Multiset.notMem_zero _)
  unsent := by
    intro session hmem
    exact absurd hmem (Multiset.notMem_zero _)

end TaskFed

namespace Faithful

theorem fed_hit (hfaithful : Faithful s) (cfg : ProxyConfig) {src : SocketAddr} {data : Packet}
    {session : Session} (hguard : guard s (.listener (.hit src data session))) {id : Nat}
    (hlt : id < s.nextId) (hid : session.id = id)
    : ({ s.cells id with lastActivity := s.now }.trySend data).Fed s.received (s.handled + 1)
        ∧ (effect cfg s (.listener (.hit src data session))).handled = s.handled + 1 := by
  have hfed := hfaithful.cells id hlt
  have hdatagram : s.listener.datagram? = some (src, data) := by
    rw [hguard.1]
    rfl
  rcases hfaithful.last.getElem?_handled hdatagram with ⟨hdata, hlength⟩
  have hsrc : (s.cells id).src = src := by
    rw [← hid]
    exact hfaithful.keys src session hguard.2.1
  have hle : (s.cells id).born ≤ s.handled := by
    rcases hfed.born with ⟨first, hborn⟩
    have := (List.getElem?_eq_some_iff.mp hborn).1
    omega
  rw [← hsrc] at hdata
  constructor
  . have horigin := Cell.origin_trySend { s.cells id with lastActivity := s.now } data
    rcases Cell.accepted_trySend { s.cells id with lastActivity := s.now } data with h | h
    . exact hfed.concat horigin h hle hdata
    . rw [← List.append_nil s.received]
      apply hfed.mono horigin _ (Nat.le_succ _)
      rw [h]
      apply List.Sublist.refl
  . rw [State.handled_of_none rfl]
    exact hlength

theorem fed_trySend (hfaithful : Faithful s) {i : Nat} {task : Task} {session : Session}
    (hguard : guard s (.setup i task (.trySend session))) {id : Nat} (hlt : id < s.nextId)
    (hid : session.id = id)
    : ((s.cells id).trySend task.data).Fed s.received s.handled := by
  -- the first packet of a session comes from its setup task
  have hfed := hfaithful.cells id hlt
  have htask := hfaithful.tasks i task _ hguard.1
  have hmem : session ∈ SetupPc.unsent (.checked session) := Multiset.mem_singleton_self _
  have hempty := htask.unsent session hmem
  have hcell := htask.origin session (SetupPc.mem_sessions_of_unsent hmem)
  rw [hid] at hempty hcell
  have horigin := Cell.origin_trySend (s.cells id) task.data
  rw [← List.append_nil s.received]
  rcases Cell.accepted_trySend (s.cells id) task.data with h | h
  . have hfirst : (s.cells id).Fed s.received task.born := by
      refine ⟨hfed.born, ?_⟩
      rw [hempty]
      apply Log.drawn_nil
    have hdata : s.received[task.born]? = some ((s.cells id).src, task.data) := by
      rw [hcell.1]
      exact htask.born
    have hfed := hfirst.concat horigin h (Nat.le_of_eq hcell.2) hdata
    exact hfed.mono ⟨rfl, rfl⟩ (List.Sublist.refl _) htask.lt []
  . apply hfed.mono horigin _ (Nat.le_refl _)
    rw [h]

variable (hfaithful : Faithful s) (howned : Owned s) (hguard : guard s l)

include hfaithful howned hguard

theorem tasks_effect (j : Nat) (task : Task) (pc : SetupPc)
    (hj : (effect cfg s l).tasks[j]? = some (task, pc))
    : TaskFed (effect cfg s l) task pc := by
  rcases Udp.tasks_effect cfg hguard hj with
    ⟨hj, hl⟩ | ⟨act, rfl, rfl⟩ | ⟨src, data, slot, rfl, rfl, rfl⟩
  . exact (hfaithful.tasks j task pc hj).other howned hguard hj hl
  . exact (hfaithful.tasks j task act.pre hguard.1).own howned hguard
  . exact TaskFed.spawn hfaithful.last hguard

omit howned in
theorem cells_effect (id : Nat) (hlt : id < (effect cfg s l).nextId)
    : ((effect cfg s l).cells id).Fed (effect cfg s l).received (effect cfg s l).handled := by
  by_cases hopen : ∃ i task slot, l = .setup i task (.openOk slot id)
  . rcases hopen with ⟨i, task, slot, rfl⟩
    have htask := hfaithful.tasks i task _ hguard.1
    have hcell : (effect cfg s (.setup i task (.openOk slot id))).cells id
        = .opened task.src task.born s.now := by
      simp [effect, SetupAct.effect, State.cells_updCell]
    rw [hcell]
    exact ⟨⟨task.data, getElem?_received_effect cfg hguard htask.born⟩, Log.drawn_nil ..⟩
  . have hlt : id < s.nextId := by
      rw [nextId_effect] at hlt
      unfold made at hlt
      split at hlt
      . next i task slot id' =>
        have : id' = s.nextId := hguard.2
        have : id ≠ id' := by
          rintro rfl
          exact hopen ⟨i, task, slot, rfl⟩
        simp only [List.length_singleton] at hlt
        omega
      . exact hlt
    have hfed := hfaithful.cells id hlt
    have hmono := handled_mono cfg hguard
    have horigin := origin_effect cfg hguard hlt
    rcases received_effect cfg hguard with ⟨new, hnew⟩
    have hchange := cellChange_effect cfg s l id
    generalize (effect cfg s l).cells id = c at hchange horigin ⊢
    rw [hnew]
    cases hchange with
    | flags => exact hfed.mono horigin (List.Sublist.refl _) hmono new
    | hit src data session hid =>
      have hhit := hfaithful.fed_hit cfg hguard hlt hid
      apply hhit.1.mono ⟨rfl, rfl⟩ (List.Sublist.refl _) _ new
      exact Nat.le_of_eq hhit.2.symm
    | opened i task slot => exact absurd ⟨i, task, slot, rfl⟩ hopen
    | trySend i task session hid =>
      have hfirst := hfaithful.fed_trySend hguard hlt hid
      exact hfirst.mono ⟨rfl, rfl⟩ (List.Sublist.refl _) hmono new
    | relay side act =>
      exact hfed.mono horigin (RelayAct.accepted_apply hguard.2 s.now) hmono new

theorem keys_effect (src : SocketAddr) (session : Session)
    (h : (effect cfg s l).sessions.lookup src = some session)
    : ((effect cfg s l).cells session.id).src = src := by
  rcases lookup_effect cfg hguard h with h | ⟨i, task, rfl, rfl⟩
  . have hlt := howned.lt _ (mem_ids_of_mem_sessionList (State.mem_sessionList.mpr ⟨src, h⟩))
    rw [(origin_effect cfg hguard hlt).1]
    apply hfaithful.keys src session h
  . have hmem : session ∈ SetupPc.sessions (.sent session) := Multiset.mem_singleton_self _
    rw [(origin_effect cfg hguard (TaskFed.id_lt howned hguard.1 hmem)).1]
    exact ((hfaithful.tasks i task _ hguard.1).origin session hmem).1

theorem effect : Faithful (effect cfg s l) where
  last := hfaithful.last.effect hguard
  tasks := hfaithful.tasks_effect howned hguard
  cells := hfaithful.cells_effect hguard
  keys := hfaithful.keys_effect howned hguard

end Faithful

/--
The packets taken from the upstream socket go to the source one by one; only the last one may be
lost, when its send fails and the task ends.
-/
def Cell.Answered (c : Cell) : Prop :=
  (∀ p ∈ c.delivered, p.1 = c.src)
    ∧ match c.down with
      | .send data => c.delivered.map Prod.snd ++ [data] = c.replies
      | .exit => c.delivered.map Prod.snd <+: c.replies
      | .done => c.delivered.map Prod.snd <+: c.replies
      | _ => c.delivered.map Prod.snd = c.replies

namespace Cell.Answered

variable {c : Cell}

theorem trySend (h : c.Answered) (data : Packet) : (c.trySend data).Answered := by
  unfold Cell.trySend
  split <;> exact h

theorem isPrefix (h : c.Answered) : c.delivered.map Prod.snd <+: c.replies := by
  have h := h.2
  split at h
  . exact ⟨_, h⟩
  . exact h
  . exact h
  . rw [h]

theorem eq_of_open (h : c.Answered) (hdown : c.down = .select ∨ c.down = .polled)
    : c.delivered.map Prod.snd = c.replies := by
  have h := h.2
  rcases hdown with hdown | hdown <;> simpa only [hdown] using h

theorem apply {id : Nat} {side : Side} {act : RelayAct} (h : (s.cells id).Answered)
    (hguard : act.guard s id side) (now : Nat)
    : (act.apply now side (s.cells id)).Answered := by
  cases side with
  | up => cases act <;> exact h
  | down =>
    cases act with
    | poll => exact ⟨h.1, h.eq_of_open (.inl hguard.1)⟩
    | take data =>
      have heq := h.eq_of_open (.inr hguard.1)
      exact ⟨h.1, congrArg (· ++ [data]) heq⟩
    | sent data =>
      have hdown : (s.cells id).down = .send data := hguard
      have heq := h.2
      simp only [hdown] at heq
      constructor
      . intro p hmem
        rcases List.mem_append.mp hmem with hmem | hmem
        . exact h.1 p hmem
        . rw [List.mem_singleton.mp hmem]
          rfl
      . simpa [RelayAct.apply, Cell.setPc] using heq
    | _ => exact ⟨h.1, h.isPrefix⟩

theorem effect (cfg : ProxyConfig) (hguard : guard s l) (id : Nat) (h : (s.cells id).Answered)
    : ((Udp.effect cfg s l).cells id).Answered := by
  have hchange := cellChange_effect cfg s l id
  generalize (Udp.effect cfg s l).cells id = c at hchange
  cases hchange with
  | flags => exact h
  | hit src data => exact trySend (c := { s.cells id with lastActivity := s.now }) h data
  | opened i task slot => exact ⟨by simp [Cell.opened], rfl⟩
  | trySend i task => exact h.trySend task.data
  | relay side act => exact h.apply hguard.2 s.now

end Cell.Answered

namespace Label

end Label

end Udp
