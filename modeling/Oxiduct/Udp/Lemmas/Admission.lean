import Oxiduct.Udp.Lemmas.Ownership

/-!
This module contains what the UDP listener lets in: how many sessions at once, and how many once
`stop_accepting` is set.
-/

namespace Udp

variable {cfg : ProxyConfig} {s : State} {l : Label}

theorem active_effect (cfg : ProxyConfig) (s : State) (l : Label)
    : (effect cfg s l).active = s.active ∨ (effect cfg s l).active = 0
        ∨ (effect cfg s l).active = (effect cfg s l).sessions.size := by
  cases l with
  | env act => cases act <;> exact .inl rfl
  | listener act =>
    cases act with
    | shutdown => exact .inr (.inl rfl)
    | evict src data session => exact .inr (.inr rfl)
    | _ => exact .inl rfl
  | setup i task act =>
    cases act with
    | insert session => exact .inr (.inr rfl)
    | _ => exact .inl rfl
  | relay id side act => exact .inl rfl
  | cleanup act =>
    cases act with
    | retain now => exact .inr (.inr rfl)
    | _ => exact .inl rfl

structure Capped (cfg : ProxyConfig) (s : State) : Prop where
  slots : SlotInv cfg s
  nonneg : 0 ≤ s.active
  active_le : s.active ≤ cfg.maxConnections.toNat

theorem SlotInv.size_le (h : SlotInv cfg s) (hcap : 0 < cfg.maxConnections)
    : s.sessions.size ≤ cfg.maxConnections.toNat := by
  have hcard : s.slots.card ≤ cfg.maxConnections.toNat :=
    h.within.total (UInt32.lt_iff_toNat_lt.mp hcap)
  rw [State.card_slots] at hcard
  omega

theorem Capped.effect (h : Capped cfg s) (hcap : 0 < cfg.maxConnections) (hguard : guard s l)
    : Capped cfg (effect cfg s l) := by
  have hslots := h.slots.effect hguard (.inl hcap)
  have hsize := hslots.size_le hcap
  have hnonneg := h.nonneg
  have hle := h.active_le
  rcases active_effect cfg s l with hactive | hactive | hactive
  . exact ⟨hslots, by omega, by omega⟩
  . exact ⟨hslots, by omega, by omega⟩
  . exact ⟨hslots, by omega, by omega⟩

theorem capped_of_reach (hreach : (serveGraceful cfg).Reachable (start cfg) s)
    (hcap : 0 < cfg.maxConnections)
    : Capped cfg s := by
  apply hreach.invariant (p := Capped cfg)
  . exact ⟨slotInv_start cfg, Int.le_refl 0, Int.natCast_nonneg _⟩
  . intro s l h hguard _
    exact h.effect hcap hguard

def State.pass (s : State) : Nat :=
  -- a source that is marked gets its slot even so
  match s.listener with
  | .marked .. => 1
  | .polled | .lookup .. | .slow .. => if s.draining then 0 else 1
  | _ => 0

theorem State.pass_le_one (s : State) : s.pass ≤ 1 := by
  unfold pass
  cases s.listener <;> cases s.draining <;> simp

def Label.admits : Label → Bool
  | .listener (.acquire ..) => true
  | _ => false

theorem pass_effect (hguard : guard s l) (hstop : s.stopAccepting = true)
    : l.admits.toNat + (effect cfg s l).pass ≤ s.pass := by
  have hsame : ∀ {t : State}, t.listener = s.listener → t.draining = s.draining →
      0 + t.pass ≤ s.pass := by
    intro t hlistener hdraining
    rw [State.pass, State.pass, hlistener, hdraining, Nat.zero_add]
  cases l with
  | env act => cases act <;> apply hsame <;> rfl
  | listener act =>
    have hact : act.guard s := hguard
    cases act with
    | pollNone =>
      have hdraining : s.draining = true := by
        rcases hact with ⟨_, _, hunset⟩
        simpa [hstop] using hunset
      simp [effect, ListenerAct.effect, Label.admits, State.pass, hdraining]
    | recv src data =>
      rw [State.pass, State.pass, hact]
      exact Nat.le_of_eq (Nat.zero_add _)
    | evict src data session =>
      rw [State.pass, State.pass, hact.1]
      exact Nat.le_of_eq (Nat.zero_add _)
    | miss src data =>
      rw [State.pass, State.pass, hact.1]
      exact Nat.le_of_eq (Nat.zero_add _)
    | mark src data =>
      rw [State.pass, State.pass, hact.1, hact.2.1]
      exact Nat.le_refl 1
    | acquire src data slot =>
      rw [State.pass, State.pass, hact.1]
      exact Nat.le_refl 1
    | _ => exact Nat.zero_le _
  | setup i task act => cases act <;> apply hsame <;> rfl
  | relay id side act => exact hsame rfl rfl
  | cleanup act => exact hsame (act.listener_effect cfg s) (act.draining_effect cfg s)

end Udp
