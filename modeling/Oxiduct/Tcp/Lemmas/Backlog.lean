import Oxiduct.Tcp.Lemmas.Admission
import Oxiduct.Tcp.Lemmas.Teardown

/-!
This module contains what the TCP proxy holds for its connections: a copy task reads no further before
its writer has taken the chunk in hand, and its buffer is gone before its connection gives back the
slot.
-/

namespace Tcp

variable {conn : Conn} {s : State} {l : Label}

def Copy.backlog (c : Copy) : Nat :=
  -- the buffer goes with the task
  if c.pc = .unspawned ∨ c.pc = .ended then 0 else c.buf.length

def State.backlog (s : State) : Nat :=
  s.up.backlog + s.down.backlog

theorem StreamInv.backlog_le (h : StreamInv conn s) (dir : Dir)
    : (s.copy dir).backlog ≤ bufSize := by
  unfold Copy.backlog
  split
  . exact Nat.zero_le _
  . next hlive =>
    cases hspawned : s.handle.isSpawned with
    | true =>
      have hcopy := h.spawned hspawned dir
      exact hcopy.buf.trans hcopy.chunk
    | false =>
      rw [h.copy_of_idle hspawned dir] at hlive
      exact absurd (.inl rfl) hlive

theorem JoinedInv.backlog_eq_zero (h : JoinedInv conn s) (hfinished : s.finished = true)
    : s.backlog = 0 := by
  have hdir : ∀ dir, (s.copy dir).backlog = 0 := by
    intro dir
    have hpc := h.pc_of_finished hfinished dir
    unfold Copy.backlog
    apply if_pos
    cases hspawned : s.handle.isSpawned with
    | true => exact .inr (by simpa [hspawned] using hpc)
    | false => exact .inl (by simpa [hspawned] using hpc)
  have hup : s.up.backlog = 0 := hdir .up
  have hdown : s.down.backlog = 0 := hdir .down
  rw [State.backlog, hup, hdown]

variable {cfg : ProxyConfig} {server : Server}

def Server.backlog (s : Server) : Nat :=
  (s.tasks.map fun task => task.state.backlog).sum

theorem TaskInv.backlog_le {task : Task} (h : TaskInv task)
    : task.state.backlog ≤ if !task.state.finished then 2 * bufSize else 0 := by
  have hinv := joinedInv_of_reach h.reach
  cases hfinished : task.state.finished with
  | true => exact Nat.le_of_eq (hinv.backlog_eq_zero hfinished)
  | false =>
    have hup : task.state.up.backlog ≤ bufSize := hinv.stream.backlog_le .up
    have hdown : task.state.down.backlog ≤ bufSize := hinv.stream.backlog_le .down
    simp only [State.backlog, Bool.not_false, if_true]
    omega

theorem backlog_within (hreach : (serveGraceful cfg).Reachable (listening cfg) server)
    (hcap : 0 < cfg.maxConnections)
    : server.backlog ≤ 2 * bufSize * cfg.maxConnections.toNat := by
  have hinv := serverInv_of_reach (hreach.mono fun _ _ _ => .inl hcap)
  have hslots := hinv.card_slots_le hcap
  rw [Server.slots, card_slots] at hslots
  calc server.backlog
    _ ≤ 2 * bufSize * server.tasks.countP fun task => !task.state.finished :=
      List.sum_map_le_mul_countP fun task hmem => (hinv.tasks.tasks task hmem).backlog_le
    _ ≤ 2 * bufSize * cfg.maxConnections.toNat := Nat.mul_le_mul_left _ hslots

end Tcp
