import Oxiduct.Tcp.Lemmas.Watchdog

/-!
This module contains what the L3 and L4 deadlines say about the bytes of a relay. A read moves
`last_activity`, a write does not: the watchdog spares a connection that is still moving data exactly
as long as no byte that was accepted after the last read is recent at a check that fires.
-/

namespace Tcp

variable {conn : Conn} {s : State} {l : Label}

def Copy.MovedWithin (c : Copy) (ms t : Nat) : Prop :=
  ∃ x ∈ c.readAt ++ c.wroteAt, t < x + ms ∧ x < t

def Conn.idleMs (conn : Conn) : Nat := 1000 * conn.cfg.idleTimeoutSecs.toNat

def Conn.halfCloseMs (conn : Conn) : Nat := 1000 * conn.cfg.halfCloseTimeoutSecs.toNat

def SparesTransfers (conn : Conn) (s : State) : Prop :=
  match s.handle.verdict? with
  | some (.idleTimeout, some (t, _)) => ∀ dir, ¬ (s.copy dir).MovedWithin conn.idleMs t
  | some (.halfCloseTimeout, some (t, _)) =>
    ∀ dir, s.dirDone dir = false → ¬ (s.copy dir).MovedWithin conn.halfCloseMs t
  | _ => True

def Copy.WritesStale (c : Copy) (ms t last : Nat) : Prop :=
  ∀ w ∈ c.wroteAt, last < w → w < t → w + ms ≤ t

/--
No check that fires does so over a recent write.
-/
def writesStale (conn : Conn) (s : State) : Label → Prop
  | .watch (.idle t last) => ∀ dir, (s.copy dir).WritesStale conn.idleMs t last
  | .watch (.halfClose t last) =>
    ∀ dir, s.dirDone dir = false → (s.copy dir).WritesStale conn.halfCloseMs t last
  | _ => True

instance Copy.instDecidableWritesStale (c : Copy) (ms t last : Nat)
    : Decidable (c.WritesStale ms t last) :=
  inferInstanceAs (Decidable (∀ w ∈ c.wroteAt, last < w → w < t → w + ms ≤ t))

instance Dir.instDecidableForall (p : Dir → Prop) [∀ dir, Decidable (p dir)]
    : Decidable (∀ dir, p dir) :=
  decidable_of_iff (p .up ∧ p .down)
    ⟨fun h dir => by cases dir; exacts [h.1, h.2], fun h => ⟨h .up, h .down⟩⟩

instance (s : State) (l : Label) : Decidable (writesStale conn s l) :=
  decidable_of_bool
    (match l with
      | .watch (.idle t last) => ∀ dir, (s.copy dir).WritesStale conn.idleMs t last
      | .watch (.halfClose t last) =>
        ∀ dir, s.dirDone dir = false → (s.copy dir).WritesStale conn.halfCloseMs t last
      | _ => true)
    (by unfold writesStale; split <;> simp)

theorem Copy.not_movedWithin_iff {c : Copy} {ms t last : Nat}
    (hread : ∀ r ∈ c.readAt, r ≤ last) (hlast : last + ms ≤ t)
    : ¬ c.MovedWithin ms t ↔ c.WritesStale ms t last := by
  constructor
  . intro hnot w hw hafter hbefore
    by_contra hrecent
    apply hnot
    exact ⟨w, List.mem_append_right _ hw, by omega, hbefore⟩
  . rintro hstale ⟨x, hx, hrecent, hbefore⟩
    rcases List.mem_append.mp hx with hx | hx
    . have := hread x hx
      omega
    . by_cases hafter : last < x
      . have := hstale x hx hafter hbefore
        omega
      . omega

theorem sparesTransfers_watch_iff (h : ClockInv s) {act : WatchAct} (hguard : act.guard conn s)
    : SparesTransfers conn (act.effect conn s) ↔ writesStale conn s (.watch act) := by
  have hcopy := WatchAct.copy_effect conn s act
  cases act with
  | idle t last =>
    rcases hguard with ⟨hpc, rfl, hleft⟩
    have hlast := ((idleLeft_eq_zero_iff ((h.clock t hpc).trans_lt h.now)).mp hleft).2
    apply forall_congr'
    intro dir
    rw [hcopy]
    apply Copy.not_movedWithin_iff (h.readAt dir) hlast
  | halfClose t last =>
    rcases hguard with ⟨hpc, rfl, _, hleft⟩
    have hdeadline := ((halfCloseLeft_eq_zero_iff ((h.clock t hpc).trans_lt h.now)).mp hleft).2
    have hlast : s.lastActivity + conn.halfCloseMs ≤ t := by
      unfold Conn.halfCloseMs
      omega
    apply forall_congr'
    intro dir
    rw [hcopy]
    apply imp_congr_right
    intro _
    apply Copy.not_movedWithin_iff (h.readAt dir) hlast
  | recv wake dir end_ =>
    cases end_ <;> cases dir <;>
      simp [SparesTransfers, WatchAct.effect, HandlePc.verdict?, writesStale]
  | _ => simp [SparesTransfers, WatchAct.effect, HandlePc.verdict?, writesStale]

theorem mem_times_effect {dir : Dir} {x : Nat}
    (hx : x ∈ ((effect conn s l).copy dir).readAt ++ ((effect conn s l).copy dir).wroteAt)
    : x ∈ (s.copy dir).readAt ++ (s.copy dir).wroteAt ∨ x = s.now := by
  cases l with
  | env act =>
    left
    cases act <;> cases dir <;> exact hx
  | handle act =>
    left
    have htimes := HandleAct.times_effect conn s act dir
    rw [← htimes.1, ← htimes.2]
    exact hx
  | watch act =>
    left
    simpa only [effect, WatchAct.copy_effect] using hx
  | copy dir' act =>
    simp only [effect, CopyAct.copy_effect] at hx
    split at hx
    . next heq =>
      subst heq
      have htimes := CopyAct.times_apply s.now (s.copy dir) act
      rw [List.mem_append] at hx ⊢
      rcases hx with hx | hx
      . rcases htimes.1 x hx with hx | ⟨_, _, rfl⟩
        . exact .inl (.inl hx)
        . exact .inr rfl
      . rcases htimes.2 x hx with hx | ⟨_, _, rfl⟩
        . exact .inl (.inr hx)
        . exact .inr rfl
    . exact .inl hx

def CheckedInv (s : State) : Prop :=
  ∀ reason t last, s.handle.verdict? = some (reason, some (t, last)) → t ≤ s.now

theorem CheckedInv.effect (hclock : ClockInv s) (h : CheckedInv s) (hguard : guard conn s l)
    : CheckedInv (effect conn s l) := by
  intro reason t last hverdict
  cases l with
  | env act =>
    have hpast : t ≤ s.now := by
      apply h reason t last
      cases act <;> exact hverdict
    cases act with
    | shutdown => exact hpast
    | advance now => exact hpast.trans hguard.1
  | handle act =>
    simp only [Tcp.effect, HandleAct.verdict?_effect hguard] at hverdict
    rw [Tcp.effect, (HandleAct.effect_frame conn s act).1]
    exact h reason t last hverdict
  | watch act =>
    rw [Tcp.effect, WatchAct.now_effect]
    cases act with
    | idle now last' =>
      obtain ⟨rfl, rfl, rfl⟩ : Reason.idleTimeout = reason ∧ now = t ∧ last' = last := by
        simpa [Tcp.effect, WatchAct.effect, HandlePc.verdict?] using hverdict
      exact hclock.clock now hguard.1
    | halfClose now last' =>
      obtain ⟨rfl, rfl, rfl⟩ : Reason.halfCloseTimeout = reason ∧ now = t ∧ last' = last := by
        simpa [Tcp.effect, WatchAct.effect, HandlePc.verdict?] using hverdict
      exact hclock.clock now hguard.1
    | recv wake dir end_ =>
      cases end_ <;> cases dir <;> simp [Tcp.effect, WatchAct.effect, HandlePc.verdict?] at hverdict
    | _ => simp [Tcp.effect, WatchAct.effect, HandlePc.verdict?] at hverdict
  | copy dir act =>
    simp only [Tcp.effect, CopyAct.handle_effect] at hverdict
    rw [Tcp.effect, CopyAct.now_effect]
    exact h reason t last hverdict

theorem SparesTransfers.of_frame (h : SparesTransfers conn s) (hchecked : CheckedInv s)
    (hverdict : (effect conn s l).handle.verdict? = s.handle.verdict?)
    (hdirDone : ∀ dir, (effect conn s l).dirDone dir = s.dirDone dir)
    : SparesTransfers conn (effect conn s l) := by
  have hnot : ∀ dir ms t, t ≤ s.now → ¬ (s.copy dir).MovedWithin ms t →
      ¬ ((effect conn s l).copy dir).MovedWithin ms t := by
    rintro dir ms t hpast hnot ⟨x, hx, hrecent, hbefore⟩
    rcases mem_times_effect hx with hx | rfl
    . exact hnot ⟨x, hx, hrecent, hbefore⟩
    . omega
  unfold SparesTransfers at h ⊢
  rw [hverdict]
  split at h
  . next t last hreason => exact fun dir => hnot dir _ t (hchecked _ t last hreason) (h dir)
  . next t last hreason =>
    intro dir hdone
    rw [hdirDone] at hdone
    exact hnot dir _ t (hchecked _ t last hreason) (h dir hdone)
  . trivial

theorem SparesTransfers.effect (hclock : ClockInv s) (hchecked : CheckedInv s)
    (h : SparesTransfers conn s) (hguard : guard conn s l) (hok : writesStale conn s l)
    : SparesTransfers conn (effect conn s l) := by
  cases l with
  | env act =>
    apply h.of_frame hchecked
    . cases act <;> rfl
    . intro dir
      cases act <;> rfl
  | handle act =>
    apply h.of_frame (l := .handle act) hchecked (HandleAct.verdict?_effect hguard)
    exact (HandleAct.effect_frame conn s act).2.2.2.2
  | watch act => exact (sparesTransfers_watch_iff hclock hguard).mpr hok
  | copy dir act =>
    apply h.of_frame hchecked
    . simp [Tcp.effect]
    . simp [Tcp.effect]

theorem sparesTransfers_iff_writesStale {ls : List Label}
    (hruns : (connection conn).Runs accepted ls)
    : (connection conn).States (SparesTransfers conn) accepted ls
        ↔ (connection conn).Steps (writesStale conn) accepted ls := by
  apply Machine.states_iff_steps (fun s => ClockInv s ∧ CheckedInv s)
  . exact fun _ _ h hguard => ⟨h.1.effect hguard, h.2.effect h.1 hguard⟩
  . exact fun _ _ h hspares hguard hok => hspares.effect h.1 h.2 hguard hok
  . intro s l h _ hguard hspares
    cases l with
    | watch act => exact (sparesTransfers_watch_iff h.1 hguard).mp hspares
    | _ => trivial
  . exact ⟨clockInv_accepted, by simp [CheckedInv, accepted, HandlePc.verdict?]⟩
  . trivial
  . exact hruns

def impatientConn : Conn :=
  { webConn with cfg := { webProxy with idleTimeoutSecs := 1 } }

def Label.slowWrite : List Label :=
  Label.connect
    ++ [.copy .up .poll, .copy .up (.read [1, 2]), .copy .up .pollWrite, .copy .up (.accept 1),
      -- the writer takes the rest of the chunk 999 ms after it was read
      .watch .readClock, .watch (.sleep 0 0), .env (.advance 999), .copy .up (.accept 1),
      .env (.advance 1000), .watch (.timer 1000), .watch .readClock, .watch (.idle 1000 0)]

theorem killed_mid_transfer
    : let s := (connection impatientConn).exec accepted Label.slowWrite
      (connection impatientConn).Runs accepted Label.slowWrite
        ∧ s.handle = .joining .idleTimeout (some (1000, 0))
        ∧ impatientConn.idleMs = 1000 ∧ s.up.wroteAt = [0, 999] := by
  decide

theorem sparesTransfers_iff_writesStale_slowWrite
    : ¬ (connection impatientConn).States (SparesTransfers impatientConn) accepted
        Label.slowWrite := by
  rw [sparesTransfers_iff_writesStale (by decide)]
  decide

end Tcp
