import Mathlib.Algebra.Order.BigOperators.Group.Multiset
import Mathlib.Algebra.Order.Ring.Nat
import Oxiduct.Udp.Lemmas.Admission
import Oxiduct.Udp.Lemmas.Cells

/-!
This module contains what the UDP proxy holds for the sources it has admitted: a source holds a slot
from its admission on, and whatever is held for it is bounded. A session gives back its slot when it
leaves the map; what its relay tasks still hold goes with them.
-/

namespace Udp

variable {cfg : ProxyConfig} {s : State} {l : Label}

namespace Cell

def Bounded (c : Cell) : Prop :=
  c.queue.length ≤ capacity

variable {c : Cell}

theorem Bounded.trySend (h : c.Bounded) (data : Packet) : (c.trySend data).Bounded := by
  unfold Cell.trySend
  split
  . next hroom =>
    simp only [Bounded, List.length_append, List.length_singleton]
    exact hroom.1
  . exact h

theorem Bounded.apply (h : c.Bounded) (now : Nat) (side : Side) (act : RelayAct)
    : (act.apply now side c).Bounded := by
  have htail := c.queue.length_tail
  unfold Bounded at h ⊢
  cases act <;> cases side <;> simp [RelayAct.apply, Cell.setPc] <;> omega

end Cell

theorem CellChange.bounded {id : Nat} {c : Cell} (h : CellChange s id l c)
    (hcell : (s.cells id).Bounded)
    : c.Bounded := by
  cases h with
  | flags => exact hcell
  | hit =>
    apply Cell.Bounded.trySend
    exact hcell
  | opened => exact Nat.zero_le _
  | trySend => exact hcell.trySend _
  | relay side act => exact hcell.apply _ _ _

theorem bounded_of_reachable (hreach : (serveGraceful cfg).Reachable (start cfg) s)
    : ∀ id, (s.cells id).Bounded := by
  apply hreach.invariant (p := fun s => ∀ id, (s.cells id).Bounded)
  . intro id
    exact Nat.zero_le _
  . intro s l h _ _ id
    exact (cellChange_effect cfg s l id).bounded (h id)

def RelayPc.inHand : RelayPc → Nat
  | .send _ => 1
  | _ => 0

def Cell.backlog (c : Cell) : Nat :=
  c.queue.length + (c.up.inHand + c.down.inHand)

def SetupPc.inHand : SetupPc → Nat
  | .opening _ => 1
  | .opened _ => 1
  | .checked _ => 1
  | .aborting _ => 1
  | _ => 0

def ListenerPc.inHand : ListenerPc → Nat
  | .admitted .. => 1
  | _ => 0

/--
The datagrams held for the sources that hold a slot: in the hands of the listener, of a setup task or
of a relay task, or in the channel of a session.
-/
def State.backlog (s : State) : Nat :=
  s.listener.inHand + (s.tasks.map fun task => task.2.inHand).sum
    + (s.held.map fun session => (s.cells session.id).backlog).sum

theorem RelayPc.inHand_le_one (pc : RelayPc) : pc.inHand ≤ 1 := by
  cases pc <;> simp [inHand]

theorem Cell.Bounded.backlog_le {c : Cell} (h : c.Bounded) : c.backlog ≤ capacity + 2 := by
  have hup := c.up.inHand_le_one
  have hdown := c.down.inHand_le_one
  unfold Cell.Bounded at h
  unfold Cell.backlog
  omega

theorem SetupPc.inHand_le (pc : SetupPc) : pc.inHand ≤ pc.slots.card := by
  cases pc <;> simp [inHand, slots, openSlots, sessions]

theorem ListenerPc.inHand_le (pc : ListenerPc) : pc.inHand ≤ pc.slots.card := by
  cases pc <;> simp [inHand, slots]

theorem sum_inHand_le (s : State)
    : (s.tasks.map fun task => task.2.inHand).sum ≤ s.taskSlots.card := by
  unfold State.taskSlots
  induction s.tasks with
  | nil => exact Nat.zero_le _
  | cons task tasks ih =>
    have hhead := task.2.inHand_le
    simp only [List.map_cons, List.sum_cons, Multiset.card_add]
    omega

theorem sum_backlog_le (hbounded : ∀ id, (s.cells id).Bounded)
    : (s.held.map fun session => (s.cells session.id).backlog).sum
        ≤ s.held.card * (Cell.capacity + 2) := by
  have hle := Multiset.sum_le_card_nsmul (s.held.map fun session => (s.cells session.id).backlog)
    (Cell.capacity + 2) ?_
  . rwa [Multiset.card_map, Nat.nsmul_eq_mul] at hle
  . intro n hn
    rcases Multiset.mem_map.mp hn with ⟨session, _, rfl⟩
    exact (hbounded session.id).backlog_le

theorem backlog_le (hbounded : ∀ id, (s.cells id).Bounded)
    : s.backlog ≤ (Cell.capacity + 3) * s.slots.card := by
  have hlistener := s.listener.inHand_le
  have htasks := sum_inHand_le s
  have hheld := sum_backlog_le hbounded
  have hslots := congrArg Multiset.card s.slots_eq
  have htaskSlots := congrArg Multiset.card s.taskSlots_eq
  have hsessions : s.held.card = s.sessions.values.card + s.taskSessions.card :=
    Multiset.card_add ..
  simp only [Multiset.card_add, Multiset.card_map] at hslots htaskSlots
  simp only [State.backlog, Cell.capacity] at hheld ⊢
  omega

theorem backlog_within (hreach : (serveGraceful cfg).Reachable (start cfg) s)
    (hcap : 0 < cfg.maxConnections)
    : s.backlog ≤ (Cell.capacity + 3) * cfg.maxConnections.toNat := by
  have hslots := slotInv_of_reach (hreach.mono fun _ _ _ => .inl hcap)
  have hcard : s.slots.card ≤ cfg.maxConnections.toNat :=
    hslots.within.total (UInt32.lt_iff_toNat_lt.mp hcap)
  exact (backlog_le (bounded_of_reachable hreach)).trans (Nat.mul_le_mul_left _ hcard)

end Udp
