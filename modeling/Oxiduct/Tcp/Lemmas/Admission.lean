import Oxiduct.Tcp.Lemmas.Books

/-!
This module contains what the TCP listener lets in: how many connections at once, and how many once
`stop_accepting` is set.
-/

namespace Tcp

open Limits

variable {cfg : ProxyConfig} {s : Server} {l : ServerLabel}

theorem ServerInv.active_le (h : ServerInv cfg s) : 0 ≤ s.active ∧ s.active ≤ s.slots.card := by
  -- a relay holds its slot until its task ends
  have hactive := h.ledger.active.trans h.tasks.sum_active
  have hrelays : s.tasks.countP (fun task => task.state.handle.inRelay)
      ≤ s.tasks.countP fun task => !task.state.finished := by
    apply List.countP_mono_left
    intro task _ hrelay
    unfold State.finished
    cases hpc : task.state.handle with
    | returned outcome checked => simp [hpc, HandlePc.inRelay] at hrelay
    | _ => rfl
  rw [Server.slots, card_slots, hactive]
  omega

theorem ServerInv.card_slots_le (h : ServerInv cfg s) (hcap : 0 < cfg.maxConnections)
    : s.slots.card ≤ cfg.maxConnections.toNat := by
  have hwithin := h.slots.within.total
  rw [h.slots.caps] at hwithin
  exact hwithin (UInt32.lt_iff_toNat_lt.mp hcap)

theorem active_within (hreach : (serveGraceful cfg).Reachable (listening cfg) s)
    (hcap : 0 < cfg.maxConnections)
    : 0 ≤ s.active ∧ s.active ≤ cfg.maxConnections.toNat := by
  have hinv := serverInv_of_reach (hreach.mono fun _ _ _ => .inl hcap)
  have hcard := hinv.card_slots_le hcap
  have hactive := hinv.active_le
  omega

namespace ListenerPc

def pass : ListenerPc → Nat
  | .polled => 1
  | _ => 0

theorem pass_le_one (pc : ListenerPc) : pc.pass ≤ 1 := by
  cases pc <;> decide

end ListenerPc

def ServerLabel.admits : ServerLabel → Bool
  | .listener (.accept ..) => true
  | _ => false

theorem pass_effect (hguard : Server.guard cfg s l) (hstop : s.stopAccepting = true)
    : l.admits.toNat + (s.effect l).listener.pass ≤ s.listener.pass := by
  cases l with
  | env act => cases act <;> exact Nat.le_of_eq (Nat.zero_add _)
  | listener act =>
    cases act with
    | pollNone =>
      have hunset := hguard.2
      rw [hstop] at hunset
      cases hunset
    | accept conn slot =>
      rw [show s.listener = .polled from hguard.1]
      exact Nat.le_refl 1
    | join i =>
      simp only [Server.effect, ListenerAct.effect]
      split <;> exact Nat.zero_le _
    | _ => exact Nat.zero_le _
  | task i l =>
    simp only [Server.effect]
    split <;> exact Nat.le_of_eq (Nat.zero_add _)

end Tcp
