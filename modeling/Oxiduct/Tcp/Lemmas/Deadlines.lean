import Oxiduct.Tcp.Lemmas.Activity

/-!
This module contains the timing of the watchdog. It is run against everything its surroundings can do
with what they share: bump `last_activity`, report completions, close the channel, set the token.
Steps take no time: the clock moves only while the watchdog sleeps, and not past its wake-up.
-/

namespace Tcp

structure Timed where
  state : State
  -- when the first completion was handled
  firstDone : Option Nat

inductive TimedLabel where
  | watch (act : WatchAct)
  | world (state : State)
  | advance (now : Nat)

structure World (s t : State) : Prop where
  now : t.now = s.now
  handle : t.handle = s.handle
  upDone : t.upDone = s.upDone
  downDone : t.downDone = s.downDone
  channelOpen : t.channelOpen = s.channelOpen
  halfCloseSince : t.halfCloseSince = s.halfCloseSince
  activity : s.lastActivity ≤ t.lastActivity
  last : t.lastActivity ≤ t.now

namespace Timed

variable (conn : Conn)

def guard (t : Timed) : TimedLabel → Prop
  | .watch act => act.guard conn t.state
  | .world state => World t.state state
  | .advance now =>
    ∃ wake, t.state.handle = .watch (.select wake) ∧ t.state.now ≤ now ∧ now ≤ wake ∧ now < u64Max

def firstDone' (t : Timed) : WatchAct → Option Nat
  | .recv _ _ .eof => some (t.firstDone.getD t.state.now)
  | _ => t.firstDone

def effect (t : Timed) : TimedLabel → Timed
  | .watch act => ⟨act.effect conn t.state, t.firstDone' act⟩
  | .world state => ⟨state, t.firstDone⟩
  | .advance now => ⟨{ t.state with now }, t.firstDone⟩

def Deadline (t : Timed) : Reason → Nat → Prop
  | .idleTimeout, d => 0 < conn.cfg.idleTimeoutSecs ∧ d = t.state.lastActivity + conn.idleMs
  | .halfCloseTimeout, d =>
    0 < conn.cfg.halfCloseTimeoutSecs
      ∧ ∃ arm, t.firstDone = some arm ∧ d = max arm t.state.lastActivity + conn.halfCloseMs
  | _, _ => False

theorem Deadline.congr {conn : Conn} {t t' : Timed} {reason : Reason} {d : Nat}
    (h : t.Deadline conn reason d) (hlast : t'.state.lastActivity = t.state.lastActivity)
    (hfirst : t'.firstDone = t.firstDone)
    : t'.Deadline conn reason d := by
  unfold Deadline at h ⊢
  rw [hlast, hfirst]
  exact h

theorem Deadline.of_bump {conn : Conn} {s s' : State} {first : Option Nat} {reason : Reason}
    {d : Nat} (h : Deadline conn ⟨s', first⟩ reason d) (hle : s.lastActivity ≤ s'.lastActivity)
    : ∃ d' ≤ d, Deadline conn ⟨s, first⟩ reason d' := by
  cases reason with
  | idleTimeout =>
    rcases h with ⟨hpos, rfl⟩
    exact ⟨_, Nat.add_le_add_right hle _, hpos, rfl⟩
  | halfCloseTimeout =>
    rcases h with ⟨hpos, arm, harm, rfl⟩
    refine ⟨_, ?_, hpos, arm, harm, rfl⟩
    simp only
    omega
  | _ => exact h.elim

end Timed

def watchdog (conn : Conn) : Machine Timed TimedLabel where
  guard := Timed.guard conn
  effect := Timed.effect conn

structure Watching (s : State) : Prop where
  handle : s.handle = .watch .top
  now : s.now < u64Max
  last : s.lastActivity = s.now
  upDone : s.upDone = false
  downDone : s.downDone = false
  halfCloseSince : s.halfCloseSince = none

/--
The latest instant at which the watchdog is still at this point.
-/
def WatchPc.horizon (now : Nat) : WatchPc → Nat
  | .select wake => wake
  | _ => now

variable {conn : Conn} {t : Timed}

theorem wakeMs_le_tick (s : State) (now last : Nat) : wakeMs conn s now last ≤ watchdogTickMs := by
  unfold wakeMs
  omega

theorem wakeMs_le_idleLeft {s : State} {now last left : Nat}
    (hleft : idleLeft conn now last = some left)
    : wakeMs conn s now last ≤ left := by
  unfold wakeMs
  rw [hleft, Option.getD_some]
  omega

theorem wakeMs_le_halfCloseLeft {s : State} {now last left : Nat}
    (hleft : halfCloseLeft conn s now last = some left)
    : wakeMs conn s now last ≤ left := by
  unfold wakeMs
  rw [hleft, Option.getD_some]
  omega

theorem wake_lt_idle {s : State} {now last : Nat} (hnow : now < u64Max)
    (hpos : 0 < conn.cfg.idleTimeoutSecs) (hleft : idleLeft conn now last ≠ some 0)
    : now + max 20 (wakeMs conn s now last) < last + conn.idleMs + 20 := by
  rw [ne_eq, idleLeft_eq_zero_iff hnow] at hleft
  have hle : wakeMs conn s now last ≤ last + conn.idleMs - now := by
    apply Nat.le_trans (wakeMs_le_idleLeft (by unfold idleLeft; rw [if_pos hpos]))
    unfold saturatingAdd saturatingMul Conn.idleMs
    omega
  have : now < last + conn.idleMs := by
    unfold Conn.idleMs
    by_contra hpast
    exact hleft ⟨hpos, by omega⟩
  omega

theorem wake_lt_halfClose {s : State} {now last : Nat} (hnow : now < u64Max)
    (harmed : halfCloseArmed conn s = true) (hleft : halfCloseLeft conn s now last ≠ some 0)
    : now + max 20 (wakeMs conn s now last)
        < max (s.halfCloseSince.getD now) last + conn.halfCloseMs + 20 := by
  rw [ne_eq, halfCloseLeft_eq_zero_iff hnow] at hleft
  have hle : wakeMs conn s now last
      ≤ max (s.halfCloseSince.getD now) last + conn.halfCloseMs - now := by
    apply Nat.le_trans (wakeMs_le_halfCloseLeft (by unfold halfCloseLeft; rw [if_pos harmed]))
    unfold saturatingAdd saturatingMul Conn.halfCloseMs
    omega
  have : now < max (s.halfCloseSince.getD now) last + conn.halfCloseMs := by
    unfold Conn.halfCloseMs
    by_contra hpast
    exact hleft ⟨harmed, by omega⟩
  omega

structure TimedInv (conn : Conn) (t : Timed) : Prop where
  now : t.state.now < u64Max
  last : t.state.lastActivity ≤ t.state.now
  clock : ∀ u, t.state.handle = .watch (.clock u) → u = t.state.now
  first : t.firstDone = none ↔ t.state.upDone = false ∧ t.state.downDone = false
  since : ∀ arm, t.state.halfCloseSince = some arm → t.firstDone = some arm
  -- the first check after the first completion arms L4, at the same instant
  armed : ∀ pc, t.state.handle = .watch pc → 0 < conn.cfg.halfCloseTimeoutSecs →
    ∀ arm, t.firstDone = some arm →
      t.state.halfCloseSince = some arm
        ∨ t.state.halfCloseSince = none ∧ arm = t.state.now ∧ ∀ wake, pc ≠ .select wake
  inTime : ∀ pc, t.state.handle = .watch pc →
    t.state.now ≤ pc.horizon t.state.now
      ∧ ∀ reason d, t.Deadline conn reason d → pc.horizon t.state.now < d + 20

theorem TimedInv.start {s : State} (h : Watching s) : TimedInv conn ⟨s, none⟩ where
  now := h.now
  last := Nat.le_of_eq h.last
  clock := by
    intro u hu
    rw [h.handle] at hu
    cases hu
  first := by simp [h.upDone, h.downDone]
  since := by
    intro arm harm
    rw [h.halfCloseSince] at harm
    cases harm
  armed := by
    intro pc _ _ arm harm
    cases harm
  inTime := by
    intro pc hpc
    rw [h.handle] at hpc
    cases hpc
    refine ⟨Nat.le_refl _, ?_⟩
    intro reason d hd
    cases reason with
    | idleTimeout =>
      rw [hd.2, h.last]
      simp only [WatchPc.horizon]
      omega
    | halfCloseTimeout =>
      rcases hd.2 with ⟨arm, harm, _⟩
      cases harm
    | _ => exact hd.elim

namespace TimedInv

variable (h : TimedInv conn t)

include h

theorem now_lt {pc : WatchPc} (hpc : t.state.handle = .watch pc) {reason : Reason} {d : Nat}
    (hd : t.Deadline conn reason d)
    : t.state.now < d + 20 := by
  have hin := h.inTime pc hpc
  have := hin.2 reason d hd
  omega

theorem of_returned {t' : Timed} (hnow : t'.state.now = t.state.now)
    (hlast : t'.state.lastActivity = t.state.lastActivity)
    (hreturned : ∀ pc, t'.state.handle ≠ .watch pc)
    (hfirst : t'.firstDone = none ↔ t'.state.upDone = false ∧ t'.state.downDone = false)
    (hsince : ∀ arm, t'.state.halfCloseSince = some arm → t'.firstDone = some arm)
    : TimedInv conn t' where
  now := by rw [hnow]; exact h.now
  last := by rw [hnow, hlast]; exact h.last
  clock := by intro u hu; exact absurd hu (hreturned _)
  first := hfirst
  since := hsince
  armed := by intro pc hpc; exact absurd hpc (hreturned pc)
  inTime := by intro pc hpc; exact absurd hpc (hreturned pc)

theorem firstDone_of_armed {now : Nat} (hpc : t.state.handle = .watch (.clock now))
    (harmed : halfCloseArmed conn t.state = true)
    : t.firstDone = some (t.state.halfCloseSince.getD now) := by
  rcases halfCloseArmed_iff.mp harmed with ⟨hpos, dir, hdone⟩
  cases hfirst : t.firstDone with
  | none =>
    have := h.first.mp hfirst
    cases dir <;> simp_all [State.dirDone]
  | some arm =>
    rcases h.armed _ hpc hpos arm hfirst with hsince | ⟨hsince, harm, _⟩
    . rw [hsince, Option.getD_some]
    . rw [hsince, Option.getD_none, harm, h.clock now hpc]

theorem since_armHalfClose {now : Nat} (hpc : t.state.handle = .watch (.clock now)) {arm : Nat}
    (harm : armHalfClose conn now t.state = some arm)
    : t.firstDone = some arm := by
  unfold armHalfClose at harm
  split at harm
  . next harmed =>
    rw [h.firstDone_of_armed hpc harmed]
    exact harm
  . apply h.since arm harm

theorem halfCloseArmed_of_first (hpos : 0 < conn.cfg.halfCloseTimeoutSecs) {arm : Nat}
    (hfirst : t.firstDone = some arm)
    : halfCloseArmed conn t.state = true := by
  rw [halfCloseArmed_iff]
  refine ⟨hpos, ?_⟩
  by_contra hnone
  have hdirDone : ∀ dir, t.state.dirDone dir = false := by
    intro dir
    by_contra hne
    exact hnone ⟨dir, by simpa using hne⟩
  rw [h.first.mpr ⟨hdirDone .up, hdirDone .down⟩] at hfirst
  cases hfirst

theorem sleep_effect {now last : Nat} (hguard : WatchAct.guard conn t.state (.sleep now last))
    : TimedInv conn ((watchdog conn).effect t (.watch (.sleep now last))) := by
  rcases hguard with ⟨hpc, rfl, hidle, hhalf⟩
  have hnow := h.clock now hpc
  subst hnow
  constructor
  . exact h.now
  . exact h.last
  . intro u hu
    cases hu
  . exact h.first
  . intro arm harm
    apply h.since_armHalfClose hpc harm
  . intro pc hpc' hpos arm hfirst
    left
    have hfirst : t.firstDone = some arm := hfirst
    have harmed := h.halfCloseArmed_of_first hpos hfirst
    rw [h.firstDone_of_armed hpc harmed] at hfirst
    exact (if_pos harmed).trans hfirst
  . intro pc hpc'
    cases hpc'
    refine ⟨Nat.le_add_right _ _, ?_⟩
    intro reason d hd
    cases reason with
    | idleTimeout =>
      rw [hd.2]
      apply wake_lt_idle h.now hd.1 hidle
    | halfCloseTimeout =>
      rcases hd with ⟨hpos, arm, hfirst, rfl⟩
      have hfirst : t.firstDone = some arm := hfirst
      have harmed := h.halfCloseArmed_of_first hpos hfirst
      rw [h.firstDone_of_armed hpc harmed] at hfirst
      cases hfirst
      apply wake_lt_halfClose h.now harmed hhalf
    | _ => exact hd.elim

theorem since_of_select {wake : Nat} (hpc : t.state.handle = .watch (.select wake))
    (hpos : 0 < conn.cfg.halfCloseTimeoutSecs)
    : t.state.halfCloseSince = some (t.firstDone.getD t.state.now)
        ∨ t.state.halfCloseSince = none ∧ t.firstDone = none := by
  cases hfirst : t.firstDone with
  | none =>
    right
    refine ⟨?_, rfl⟩
    rw [Option.eq_none_iff_forall_ne_some]
    intro arm hsome
    have := h.since arm hsome
    simp [hfirst] at this
  | some first =>
    left
    rcases h.armed _ hpc hpos first hfirst with harmed | ⟨_, _, hawake⟩
    . exact harmed
    . exact absurd rfl (hawake wake)

theorem now_lt_recv {wake : Nat} {dir : Dir}
    (hguard : WatchAct.guard conn t.state (.recv wake dir .eof)) {reason : Reason} {d : Nat}
    (hd : ((watchdog conn).effect t (.watch (.recv wake dir .eof))).Deadline conn reason d)
    : t.state.now < d + 20 := by
  have hlast := WatchAct.lastActivity_effect conn t.state (.recv wake dir .eof)
  cases reason with
  | idleTimeout =>
    rcases hd with ⟨hpos, rfl⟩
    have hd : t.Deadline conn .idleTimeout _ := ⟨hpos, congrArg (· + conn.idleMs) hlast⟩
    exact h.now_lt hguard.1 hd
  | halfCloseTimeout =>
    rcases hd with ⟨hpos, arm, harm, rfl⟩
    have harm : some (t.firstDone.getD t.state.now) = some arm := harm
    cases hfirst : t.firstDone with
    | none =>
      rw [hfirst] at harm
      cases harm
      simp only [Option.getD_none]
      omega
    | some first =>
      rw [hfirst] at harm
      cases harm
      have hd : t.Deadline conn .halfCloseTimeout _ :=
        ⟨hpos, first, hfirst, congrArg (max first · + conn.halfCloseMs) hlast⟩
      exact h.now_lt hguard.1 hd
  | _ => exact hd.elim

theorem recv_effect {wake : Nat} {dir : Dir}
    (hguard : WatchAct.guard conn t.state (.recv wake dir .eof))
    : TimedInv conn ((watchdog conn).effect t (.watch (.recv wake dir .eof))) := by
  have hnow := WatchAct.now_effect conn t.state (.recv wake dir .eof)
  have hlast := WatchAct.lastActivity_effect conn t.state (.recv wake dir .eof)
  have hin := h.inTime _ hguard.1
  have hpc' : (WatchAct.effect conn t.state (.recv wake dir .eof)).handle = .watch .top := by
    cases dir <;> rfl
  have hsince : (WatchAct.effect conn t.state (.recv wake dir .eof)).halfCloseSince
      = t.state.halfCloseSince := by
    cases dir <;> rfl
  constructor
  . exact hnow ▸ h.now
  . exact (hlast.trans_le h.last).trans_eq hnow.symm
  . intro u hu
    cases hpc'.symm.trans hu
  . simp only [watchdog, Timed.effect, Timed.firstDone']
    cases dir <;> simp [WatchAct.effect]
  . intro arm harm
    have := h.since arm (hsince.symm.trans harm)
    simp [watchdog, Timed.effect, Timed.firstDone', this]
  . intro pc hpc hpos arm harm
    cases hpc'.symm.trans hpc
    have harm : some (t.firstDone.getD t.state.now) = some arm := harm
    rcases h.since_of_select hguard.1 hpos with harmed | ⟨hnone, hfirst⟩
    . exact .inl (hsince.trans (harmed.trans harm))
    . right
      rw [hfirst] at harm
      cases harm
      exact ⟨hsince.trans hnone, hnow.symm, by simp⟩
  . intro pc hpc
    cases hpc'.symm.trans hpc
    refine ⟨Nat.le_refl _, ?_⟩
    intro reason d hd
    change (WatchAct.effect conn t.state (.recv wake dir .eof)).now < d + 20
    rw [hnow]
    exact h.now_lt_recv hguard hd

theorem of_awake {t' : Timed} {pc pc' : WatchPc} (hpc : t.state.handle = .watch pc)
    (hpc' : t'.state.handle = .watch pc') (hnow : t'.state.now = t.state.now)
    (hlast : t'.state.lastActivity = t.state.lastActivity)
    (hup : t'.state.upDone = t.state.upDone) (hdown : t'.state.downDone = t.state.downDone)
    (hsince : t'.state.halfCloseSince = t.state.halfCloseSince)
    (hfirst : t'.firstDone = t.firstDone)
    (hawake : pc' = .top ∨ pc' = .clock t.state.now)
    : TimedInv conn t' where
  now := by rw [hnow]; exact h.now
  last := by rw [hnow, hlast]; exact h.last
  clock := by
    intro u hu
    rw [hpc'] at hu
    rcases hawake with rfl | rfl
    . cases hu
    . cases hu
      exact hnow.symm
  first := by rw [hfirst, hup, hdown]; exact h.first
  since := by rw [hfirst, hsince]; exact h.since
  armed := by
    intro pc'' hpc'' hpos arm harm
    rw [hpc'] at hpc''
    cases hpc''
    rw [hfirst] at harm
    rw [hsince, hnow]
    rcases h.armed pc hpc hpos arm harm with harmed | ⟨hnone, harm, _⟩
    . exact .inl harmed
    . refine .inr ⟨hnone, harm, ?_⟩
      rcases hawake with rfl | rfl <;> simp
  inTime := by
    intro pc'' hpc''
    rw [hpc'] at hpc''
    cases hpc''
    have hhorizon : pc'.horizon t'.state.now = t.state.now := by
      rcases hawake with rfl | rfl <;> exact hnow
    rw [hhorizon, hnow]
    refine ⟨Nat.le_refl _, ?_⟩
    intro reason d hd
    exact h.now_lt hpc (hd.congr hlast.symm hfirst.symm)

protected theorem watch_effect {act : WatchAct} (hguard : act.guard conn t.state)
    : TimedInv conn ((watchdog conn).effect t (.watch act)) := by
  cases act with
  | eof =>
    refine h.of_returned rfl rfl ?_ h.first h.since
    intro pc hpc
    cases hpc
  | readClock => exact h.of_awake hguard.1 rfl rfl rfl rfl rfl rfl rfl (.inr rfl)
  | idle now last =>
    refine h.of_returned rfl rfl ?_ h.first h.since
    intro pc hpc
    cases hpc
  | halfClose now last =>
    refine h.of_returned rfl rfl ?_ h.first ?_
    . intro pc hpc
      cases hpc
    . intro arm harm
      apply h.since_armHalfClose hguard.1 harm
  | sleep now last => exact h.sleep_effect hguard
  | shutdown wake =>
    refine h.of_returned rfl rfl ?_ h.first h.since
    intro pc hpc
    cases hpc
  | recv wake dir end_ =>
    cases end_ with
    | eof => exact h.recv_effect hguard
    | err =>
      refine h.of_returned rfl rfl ?_ h.first h.since
      intro pc hpc
      cases hpc
  | closed wake => exact h.of_awake hguard.1 rfl rfl rfl rfl rfl rfl rfl (.inl rfl)
  | timer wake => exact h.of_awake hguard.1 rfl rfl rfl rfl rfl rfl rfl (.inl rfl)

theorem world_effect {state : State} (hworld : World t.state state)
    : TimedInv conn ((watchdog conn).effect t (.world state)) where
  now := hworld.now ▸ h.now
  last := hworld.last
  clock := by
    intro u hu
    exact (h.clock u (hworld.handle.symm.trans hu)).trans hworld.now.symm
  first := by
    change t.firstDone = none ↔ state.upDone = false ∧ state.downDone = false
    rw [hworld.upDone, hworld.downDone]
    exact h.first
  since := by
    intro arm harm
    exact h.since arm (hworld.halfCloseSince.symm.trans harm)
  armed := by
    intro pc hpc hpos arm harm
    change state.halfCloseSince = some arm
      ∨ state.halfCloseSince = none ∧ arm = state.now ∧ ∀ wake, pc ≠ .select wake
    rw [hworld.halfCloseSince, hworld.now]
    exact h.armed pc (hworld.handle.symm.trans hpc) hpos arm harm
  inTime := by
    intro pc hpc
    have hin := h.inTime pc (hworld.handle.symm.trans hpc)
    change state.now ≤ pc.horizon state.now
      ∧ ∀ reason d, Timed.Deadline conn ⟨state, t.firstDone⟩ reason d →
          pc.horizon state.now < d + 20
    rw [hworld.now]
    refine ⟨hin.1, ?_⟩
    intro reason d hd
    rcases Timed.Deadline.of_bump hd hworld.activity with ⟨d', hle, hd'⟩
    have := hin.2 reason d' hd'
    omega

theorem advance_effect {now : Nat} (hguard : (watchdog conn).guard t (.advance now))
    : TimedInv conn ((watchdog conn).effect t (.advance now)) := by
  rcases hguard with ⟨wake, hpc, hle, hwake, hnow⟩
  constructor
  . exact hnow
  . exact h.last.trans hle
  . intro u hu
    cases hpc.symm.trans hu
  . exact h.first
  . exact h.since
  . intro pc hpc' hpos arm harm
    cases hpc.symm.trans hpc'
    rcases h.armed _ hpc hpos arm harm with harmed | ⟨_, _, hawake⟩
    . exact .inl harmed
    . exact absurd rfl (hawake wake)
  . intro pc hpc'
    cases hpc.symm.trans hpc'
    exact ⟨hwake, (h.inTime _ hpc).2⟩

protected theorem effect {l : TimedLabel} (hguard : (watchdog conn).guard t l)
    : TimedInv conn ((watchdog conn).effect t l) := by
  cases l with
  | watch act => exact h.watch_effect hguard
  | world state => exact h.world_effect hguard
  | advance now => exact h.advance_effect hguard

theorem deadline_of_joining {act : WatchAct} (hguard : act.guard conn t.state) {reason : Reason}
    {checked : Option (Nat × Nat)}
    (hreason : reason = .idleTimeout ∨ reason = .halfCloseTimeout)
    (hjoining : (act.effect conn t.state).handle = .joining reason checked)
    : ∃ d ≤ t.state.now, t.Deadline conn reason d := by
  cases act with
  | idle now last =>
    rcases hguard with ⟨hpc, rfl, hleft⟩
    have hnow := h.clock now hpc
    subst hnow
    cases hjoining
    rcases (idleLeft_eq_zero_iff h.now).mp hleft with ⟨hpos, hpast⟩
    exact ⟨_, hpast, hpos, rfl⟩
  | halfClose now last =>
    rcases hguard with ⟨hpc, rfl, _, hleft⟩
    have hnow := h.clock now hpc
    subst hnow
    cases hjoining
    rcases (halfCloseLeft_eq_zero_iff h.now).mp hleft with ⟨harmed, hpast⟩
    have hpos := (halfCloseArmed_iff.mp harmed).1
    exact ⟨_, hpast, hpos, _, h.firstDone_of_armed hpc harmed, rfl⟩
  | recv wake dir end_ =>
    cases end_ <;> cases dir <;> cases hjoining <;> simp at hreason
  | _ => cases hjoining <;> simp at hreason

end TimedInv

theorem watchdog_on_time {s : State} (hstart : Watching s)
    (hreach : (watchdog conn).Reachable ⟨s, none⟩ t)
    : (∀ act reason checked, (watchdog conn).guard t (.watch act) →
        reason = .idleTimeout ∨ reason = .halfCloseTimeout →
        ((watchdog conn).effect t (.watch act)).state.handle = .joining reason checked →
          ∃ d ≤ t.state.now, t.Deadline conn reason d)
      ∧ (∀ pc, t.state.handle = .watch pc → ∀ reason d, t.Deadline conn reason d →
          t.state.now < d + 20)
      ∧ (∀ act wake, (watchdog conn).guard t (.watch act) →
          ((watchdog conn).effect t (.watch act)).state.handle = .watch (.select wake) →
            t.state.now + 20 ≤ wake ∧ wake ≤ t.state.now + watchdogTickMs)
      ∧ (t.firstDone = none ↔ t.state.upDone = false ∧ t.state.downDone = false)
      ∧ (∀ since, t.state.halfCloseSince = some since → t.firstDone = some since)
      ∧ ∀ l arm, (watchdog conn).guard t l → t.firstDone = some arm →
          ((watchdog conn).effect t l).firstDone = some arm := by
  have hinv : TimedInv conn t :=
    hreach.invariant (.start hstart) (fun _ _ h hguard _ => h.effect hguard)
  refine ⟨?_, ?_, ?_, hinv.first, hinv.since, ?_⟩
  . intro act reason checked hguard hreason hjoining
    exact hinv.deadline_of_joining hguard hreason hjoining
  . intro pc hpc reason d hd
    exact hinv.now_lt hpc hd
  . intro act wake hguard hselect
    cases act with
    | sleep now last =>
      rcases hguard with ⟨hpc, rfl, _⟩
      cases hselect
      have := @wakeMs_le_tick conn t.state now t.state.lastActivity
      unfold watchdogTickMs at this ⊢
      omega
    | recv wake' dir end_ => cases end_ <;> cases dir <;> cases hselect
    | _ => cases hselect
  . intro l arm hguard harm
    cases l with
    | watch act =>
      cases act with
      | recv wake dir end_ =>
        cases end_ with
        | eof =>
          change some (t.firstDone.getD t.state.now) = some arm
          rw [harm, Option.getD_some]
        | err => exact harm
      | _ => exact harm
    | _ => exact harm

def idleRun : List TimedLabel :=
  [.watch .readClock, .watch (.sleep 0 0), .advance 1000, .watch (.timer 1000), .watch .readClock]

theorem watchdog_on_time_idleRun
    : let s := (connection impatientConn).exec accepted Label.connect
      let t := (watchdog impatientConn).exec ⟨s, none⟩ idleRun
      (watchdog impatientConn).guard t (.watch (.idle 1000 0))
        ∧ ∃ d ≤ t.state.now, t.Deadline impatientConn .idleTimeout d := by
  intro s t
  have hstart : Watching s := ⟨by decide, by decide, by decide, by decide, by decide, by decide⟩
  have hruns : (watchdog impatientConn).Runs ⟨s, none⟩ idleRun := by
    refine ⟨?_, ?_, ⟨1000, by decide, by decide, by decide, by decide⟩, ?_, ?_, trivial⟩
    all_goals
      simp only [watchdog, Timed.guard]
      decide
  have hidle : (watchdog impatientConn).guard t (.watch (.idle 1000 0)) := by
    simp only [watchdog, Timed.guard]
    decide
  refine ⟨hidle, ?_⟩
  exact (watchdog_on_time hstart hruns.reachable).1 _ .idleTimeout _ hidle (.inl rfl) rfl

/--
Steps take no time: while its watchdog runs, the clock of a connection moves only in a sleep, and not
past its end.
-/
def timely (s : State) : Label → Prop
  | .env (.advance now) => ∀ pc, s.handle = .watch pc → ∃ wake, pc = .select wake ∧ now ≤ wake
  | _ => True

def HandlePc.early : HandlePc → Bool
  | .connect | .connecting | .header | .writingHeader | .start => true
  | _ => false

def Unwatched (s : State) : Prop :=
  s.handle.early = true →
    s.upDone = false ∧ s.downDone = false ∧ s.halfCloseSince = none

theorem Unwatched.effect {s : State} {l : Label} (h : Unwatched s) (hguard : Tcp.guard conn s l)
    : Unwatched (Tcp.effect conn s l) := by
  intro hearly
  cases l with
  | env act => cases act <;> exact h hearly
  | handle act =>
    cases act with
    | pollConnect => exact h (by rw [hguard.1]; rfl)
    | connected =>
      have := h (by rw [show s.handle = .connecting from hguard]; rfl)
      simp only [Tcp.effect, HandleAct.effect]
      split <;> exact this
    | pollHeader => exact h (by rw [hguard.1]; rfl)
    | acceptHeader k => exact h (by rw [hguard.1]; rfl)
    | headerWritten => exact h (by rw [hguard.1]; rfl)
    | _ => cases hearly
  | watch act =>
    cases act with
    | recv wake dir end_ => cases end_ <;> cases dir <;> cases hearly
    | _ => cases hearly
  | copy dir act =>
    simp only [Tcp.effect, CopyAct.handle_effect] at hearly
    have := h hearly
    rw [Tcp.effect, CopyAct.effect_eq]
    cases dir <;> exact this

theorem HandleAct.handle_ne_watch {s : State} {act : HandleAct} (hguard : act.guard s) (pc : WatchPc)
    : s.handle ≠ .watch pc := by
  intro hpc
  cases act <;> simp [HandleAct.guard, hpc] at hguard

theorem CopyAct.world_effect {s : State} (hclock : ClockInv s) (dir : Dir) (act : CopyAct)
    : World s (act.effect s dir) := by
  have hlast := hclock.last
  constructor
  . simp
  . simp
  . exact act.dirDone_effect s dir .up
  . exact act.dirDone_effect s dir .down
  . rw [CopyAct.effect_eq]
    cases dir <;> rfl
  . rw [CopyAct.effect_eq]
    cases dir <;> rfl
  . rw [CopyAct.lastActivity_effect]
    split <;> omega
  . rw [CopyAct.lastActivity_effect, CopyAct.now_effect]
    split <;> omega

theorem exists_timed_step {s : State} {l : Label} {first : Option Nat} {pc : WatchPc}
    (hclock : ClockInv s) (hguard : Tcp.guard conn s l) (htimely : timely s l)
    (hpc : s.handle = .watch pc)
    : ∃ l', (watchdog conn).guard ⟨s, first⟩ l'
        ∧ ((watchdog conn).effect ⟨s, first⟩ l').state = Tcp.effect conn s l := by
  cases l with
  | env act =>
    cases act with
    | shutdown =>
      refine ⟨.world { s with shutdown := true }, ?_, rfl⟩
      exact ⟨rfl, rfl, rfl, rfl, rfl, rfl, Nat.le_refl _, hclock.last⟩
    | advance now =>
      rcases htimely pc hpc with ⟨wake, rfl, hwake⟩
      exact ⟨.advance now, ⟨wake, hpc, hguard.1, hwake, hguard.2⟩, rfl⟩
  | handle act => exact absurd hpc (HandleAct.handle_ne_watch hguard pc)
  | watch act => exact ⟨.watch act, hguard, rfl⟩
  | copy dir act => exact ⟨.world (act.effect s dir), CopyAct.world_effect hclock dir act, rfl⟩

theorem watching_start {s : State} (hclock : ClockInv s) (hfresh : Unwatched s)
    (hguard : HandleAct.guard s .start)
    : Watching (HandleAct.effect conn s .start) := by
  have hpc : s.handle = .start := hguard
  have hfresh := hfresh (by rw [hpc]; rfl)
  exact ⟨rfl, hclock.now, rfl, hfresh.1, hfresh.2.1, hfresh.2.2⟩

theorem eq_start_of_watch {s : State} {l : Label} (hguard : Tcp.guard conn s l)
    (hnot : ∀ pc, s.handle ≠ .watch pc) {pc : WatchPc}
    (hpc : (Tcp.effect conn s l).handle = .watch pc)
    : l = .handle .start := by
  cases l with
  | env act => cases act <;> exact absurd hpc (hnot pc)
  | handle act =>
    cases act with
    | start => rfl
    | connected =>
      simp only [Tcp.effect, HandleAct.effect] at hpc
      split at hpc <;> cases hpc
    | acceptHeader k => exact absurd hpc (hnot pc)
    | _ => cases hpc
  | watch act => cases act <;> exact absurd hguard.1 (hnot _)
  | copy dir act =>
    rw [Tcp.effect, CopyAct.handle_effect] at hpc
    exact absurd hpc (hnot pc)

theorem watchdog_of_connection {s : State}
    (hreach : (connection conn).Reach timely accepted s)
    {pc : WatchPc} (hpc : s.handle = .watch pc)
    : ∃ start t, Watching start ∧ (watchdog conn).Reachable ⟨start, none⟩ t ∧ t.state = s := by
  have hinv : ClockInv s ∧ Unwatched s
      ∧ ∀ pc, s.handle = .watch pc →
          ∃ start t, Watching start ∧ (watchdog conn).Reachable ⟨start, none⟩ t ∧ t.state = s := by
    refine hreach.invariant (p := fun s => ClockInv s ∧ Unwatched s
      ∧ ∀ pc, s.handle = .watch pc →
          ∃ start t, Watching start ∧ (watchdog conn).Reachable ⟨start, none⟩ t ∧ t.state = s)
      ⟨clockInv_accepted, fun _ => ⟨rfl, rfl, rfl⟩, by intro pc hpc; cases hpc⟩ ?_
    rintro s l ⟨hclock, hfresh, hwatched⟩ hguard htimely
    refine ⟨hclock.effect hguard, hfresh.effect hguard, ?_⟩
    intro pc' hpc'
    by_cases hpc : ∃ pc, s.handle = .watch pc
    . rcases hpc with ⟨pc, hpc⟩
      rcases hwatched pc hpc with ⟨start, ⟨s', first⟩, hstart, hreach, rfl⟩
      rcases exists_timed_step hclock hguard htimely hpc with ⟨l', hguard', heffect⟩
      exact ⟨start, _, hstart, hreach.step l' hguard' trivial, heffect⟩
    . have hstart := eq_start_of_watch hguard (by simpa using hpc) hpc'
      subst hstart
      have hwatching := @watching_start conn s hclock hfresh hguard
      exact ⟨_, ⟨_, none⟩, hwatching, .refl, rfl⟩
  exact hinv.2.2 pc hpc

end Tcp
