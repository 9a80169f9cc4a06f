import Oxiduct.Machine.Progress
import Oxiduct.Tcp.Lemmas.Teardown

/-!
This module contains the clean end of a relay: as long as nothing fails and no deadline is due, the
two copies and the watchdog can carry everything over and return "eof", in whatever state they are.
-/

namespace Tcp

open Machine

variable {conn : Conn} {s : State} {dir : Dir}

/--
The steps in which nothing fails, no token is seen and no timer fires.
-/
def CopyAct.moves : CopyAct → Bool
  | .stop => false
  | .stopWrite => false
  | .readErr => false
  | .writeErr => false
  | _ => true

def WatchAct.moves : WatchAct → Bool
  | .eof => true
  | .readClock => true
  | .sleep .. => true
  | .recv .. => true
  | _ => false

def Label.moves : Label → Bool
  | .handle (.join ..) => true
  | .watch act => act.moves
  | .copy _ act => act.moves
  | _ => false

instance (c : Copy) : Decidable c.failed :=
  inferInstanceAs (Decidable (c.exit = some .readErr ∨ c.exit = some .writeErr))

def State.graceSince (s : State) : Nat :=
  s.halfCloseSince.getD
    (match s.handle with
      | .watch (.clock now) => now
      | _ => s.now)

structure Spared (conn : Conn) (s : State) : Prop where
  idle : 0 < conn.cfg.idleTimeoutSecs →
    s.now < s.lastActivity + 1000 * conn.cfg.idleTimeoutSecs.toNat
  halfClose : 0 < conn.cfg.halfCloseTimeoutSecs →
    s.now < max s.graceSince s.lastActivity + 1000 * conn.cfg.halfCloseTimeoutSecs.toNat

namespace Spared

theorem mono (h : Spared conn s) {t : State} (hnow : t.now = s.now)
    (hlast : s.lastActivity ≤ t.lastActivity) (hsince : s.graceSince ≤ t.graceSince)
    : Spared conn t where
  idle := fun hpos => by
    have := h.idle hpos
    omega
  halfClose := fun hpos => by
    have := h.halfClose hpos
    omega

theorem copy_effect (h : Spared conn s) (hclock : ClockInv s) (act : CopyAct)
    : Spared conn (act.effect s dir) := by
  have hsince : (act.effect s dir).graceSince = s.graceSince := by
    rw [CopyAct.effect_eq]
    cases dir <;> rfl
  have hlast := hclock.last
  apply h.mono (act.now_effect s dir) _ (Nat.le_of_eq hsince.symm)
  rw [CopyAct.lastActivity_effect]
  split <;> omega

theorem watch_effect (h : Spared conn s) (hclock : ClockInv s) {act : WatchAct}
    (hguard : act.guard conn s) (hmoves : act.moves = true)
    : Spared conn (act.effect conn s) := by
  apply h.mono (act.now_effect conn s) (Nat.le_of_eq (act.lastActivity_effect conn s).symm)
  cases act with
  | eof =>
    simp only [State.graceSince, WatchAct.effect, hguard.1]
    apply Nat.le_refl
  | readClock =>
    simp only [State.graceSince, WatchAct.effect, hguard.1]
    apply Nat.le_refl
  | sleep now last =>
    -- the clock may have moved on since it was read
    have hnow := hclock.clock now hguard.1
    simp only [State.graceSince, WatchAct.effect, hguard.1, armHalfClose]
    cases s.halfCloseSince <;> split <;> simp [hnow]
  | recv wake dir end_ =>
    cases end_ <;> cases dir <;> simp [State.graceSince, WatchAct.effect, hguard.1]
  | _ => cases hmoves

theorem sleep_guard (h : Spared conn s) (hclock : ClockInv s) {now : Nat}
    (hpc : s.handle = .watch (.clock now))
    : WatchAct.guard conn s (.sleep now s.lastActivity) := by
  have hle := hclock.clock now hpc
  have hlt : now < u64Max := Nat.lt_of_le_of_lt hle hclock.now
  refine ⟨hpc, rfl, ?_, ?_⟩
  . rw [ne_eq, idleLeft_eq_zero_iff hlt]
    rintro ⟨hpos, hdue⟩
    have := h.idle hpos
    omega
  . rw [ne_eq, halfCloseLeft_eq_zero_iff hlt]
    rintro ⟨harmed, hdue⟩
    have := h.halfClose (halfCloseArmed_iff.mp harmed).1
    rw [State.graceSince, hpc] at this
    simp only at this
    omega

end Spared

def Copy.left (sent : Bytes) (c : Copy) : Nat :=
  let ahead := 8 * (sent.length - c.read.length)
  match c.pc with
  | .unspawned => 0
  | .select => ahead + 10
  | .polled => ahead + 9
  | .chunk => ahead + 12 + c.buf.length
  | .writing => ahead + 11 + c.buf.length
  | .shutdown => 7
  | .report => 6
  | .ended => 0

/--
The copy has not failed, and if it was still reading in `s₀` it reads its stream to the end.
-/
def Copy.Clean (conn : Conn) (s₀ : State) (dir : Dir) (c : Copy) : Prop :=
  c.exit = none
    ∨ c.exit = some .eof ∧ ((s₀.copy dir).exit = none → c.read = conn.sent dir)

theorem exists_read_step {c : Copy} (hcopy : CopyInv conn dir c) (hne : c.read ≠ conn.sent dir)
    : ∃ data, data ≠ [] ∧ data.length ≤ bufSize ∧ c.read ++ data <+: conn.sent dir := by
  rcases hcopy.sent with ⟨rest, hrest⟩
  have hrestne : rest ≠ [] := by
    rintro rfl
    exact hne (by simpa using hrest)
  refine ⟨rest.take bufSize, ?_, List.length_take_le .., ?_⟩
  . simpa [bufSize] using hrestne
  . rw [← hrest, List.prefix_append_right_inj]
    exact List.take_prefix ..

theorem TeardownInv.exists_moves (h : TeardownInv conn s) {pc : WatchPc}
    (hpc : s.handle = .watch pc) {s₀ : State} (hclean : (s.copy dir).Clean conn s₀ dir)
    (hne : (s.copy dir).pc ≠ .ended)
    : ∃ act : CopyAct, act.moves = true ∧ act.guard conn s dir
        ∧ (act.apply s.now (s.copy dir)).Clean conn s₀ dir
        ∧ (act.apply s.now (s.copy dir)).left (conn.sent dir) + 3 * (s.copy dir).unreported
          < (s.copy dir).left (conn.sent dir)
            + 3 * (act.apply s.now (s.copy dir)).unreported := by
  have hspawned : s.handle.isSpawned = true := by rw [hpc]; rfl
  have hcopy := h.copy hspawned dir
  have hcancel := h.relay.watch.cancel_eq_false (by rw [hpc]; rfl)
  cases hcpc : (s.copy dir).pc with
  | unspawned => exact absurd hcpc hcopy.spawned
  | select =>
    refine ⟨.poll, rfl, ⟨hcpc, hcancel⟩, hclean, ?_⟩
    simp [CopyAct.apply, Copy.left, Copy.unreported, hcpc]
  | polled =>
    have hexit := hcopy.exit_eq_none (by simp [hcpc])
    by_cases hread : (s.copy dir).read = conn.sent dir
    . refine ⟨.readEof, rfl, hcpc, .inr ⟨rfl, fun _ => hread⟩, ?_⟩
      simp [CopyAct.apply, Copy.left, Copy.unreported, hcpc]
    . rcases exists_read_step hcopy hread with ⟨data, hdata, hlength, hsent⟩
      refine ⟨.read data, rfl, ⟨hcpc, hdata, hlength, hsent⟩, .inl hexit, ?_⟩
      have hle := hsent.length_le
      have hpos := List.length_pos_iff.mpr hdata
      rw [List.length_append] at hle
      simp only [CopyAct.apply, Copy.left, Copy.unreported, hcpc, List.length_append, reduceCtorEq,
        ↓reduceIte]
      omega
  | chunk =>
    refine ⟨.pollWrite, rfl, ⟨hcpc, hcancel⟩, hclean, ?_⟩
    simp [CopyAct.apply, Copy.left, Copy.unreported, hcpc]
  | writing =>
    by_cases hbuf : (s.copy dir).buf = []
    . refine ⟨.wrote, rfl, ⟨hcpc, hbuf⟩, hclean, ?_⟩
      simp [CopyAct.apply, Copy.left, Copy.unreported, hcpc, hbuf]
    . have hpos := List.length_pos_iff.mpr hbuf
      refine ⟨.accept (s.copy dir).buf.length, rfl, ⟨hcpc, hpos, Nat.le_refl _⟩, hclean, ?_⟩
      simp [CopyAct.apply, Copy.left, Copy.unreported, hcpc, hpos]
  | shutdown =>
    refine ⟨.shut, rfl, hcpc, hclean, ?_⟩
    simp [CopyAct.apply, Copy.left, Copy.unreported, hcpc]
  | report =>
    rcases h.exists_report hcopy hcpc with ⟨end_, hguard⟩
    refine ⟨.report end_, rfl, hguard, hclean, ?_⟩
    simp [CopyAct.apply, Copy.left, Copy.unreported, hcpc]
  | ended => exact absurd hcpc hne

def State.relayRank (conn : Conn) (s : State) : Nat :=
  s.up.left (conn.sent .up) + s.down.left (conn.sent .down) + s.watchRank
    + if s.finished then 0 else 1

structure Completing (conn : Conn) (s₀ s : State) : Prop where
  teardown : TeardownInv conn s
  spared : Spared conn s
  clean : ∀ dir, (s.copy dir).Clean conn s₀ dir
  handle : (∃ pc, s.handle = .watch pc)
    ∨ (∃ checked, s.handle = .joining .eof checked) ∧ (∀ dir, (s.copy dir).pc = .ended)
    ∨ ∃ checked, s.handle = .returned (.relayed .eof) checked

namespace Completing

variable {s₀ : State}

theorem exists_copy_step (h : Completing conn s₀ s) {pc : WatchPc} (hpc : s.handle = .watch pc)
    (hne : (s.copy dir).pc ≠ .ended)
    : ∃ l, (connection conn).guard s l ∧ l.moves = true
        ∧ Completing conn s₀ ((connection conn).effect s l)
        ∧ ((connection conn).effect s l).relayRank conn < s.relayRank conn := by
  rcases h.teardown.exists_moves hpc (h.clean dir) hne with ⟨act, hmoves, hguard, hclean, hleft⟩
  have hcopy := act.copy_effect s dir
  have hhandle := act.handle_effect s dir
  have hreport := act.unreported_effect hguard
  have hfinished : (act.effect s dir).finished = s.finished := by
    rw [State.finished, hhandle]
    rfl
  rw [hcopy, if_pos rfl] at hreport
  refine ⟨.copy dir act, hguard, hmoves, ⟨?_, ?_, ?_, ?_⟩, ?_⟩
  . exact h.teardown.effect (l := .copy dir act) hguard
  . exact h.spared.copy_effect h.teardown.relay.clock act
  . intro dir'
    simp only [connection, effect, hcopy]
    split
    . next heq => rwa [heq]
    . exact h.clean dir'
  . exact .inl ⟨pc, hhandle.trans hpc⟩
  . simp only [State.relayRank, connection, effect, hfinished]
    cases dir with
    | up =>
      have hup : (act.effect s .up).up = act.apply s.now s.up := hcopy .up
      have hdown : (act.effect s .up).down = s.down := hcopy .down
      rw [hup, hdown]
      simp only [State.copy] at hleft hreport
      omega
    | down =>
      have hup : (act.effect s .down).up = s.up := hcopy .up
      have hdown : (act.effect s .down).down = act.apply s.now s.down := hcopy .down
      rw [hup, hdown]
      simp only [State.copy] at hleft hreport
      omega

theorem exists_watch (h : Completing conn s₀ s) {pc : WatchPc} (hpc : s.handle = .watch pc)
    (hended : ∀ dir, (s.copy dir).pc = .ended)
    : ∃ act : WatchAct, act.guard conn s ∧ act.moves = true
        ∧ ((∃ pc, (act.effect conn s).handle = .watch pc)
          ∨ ∃ checked, (act.effect conn s).handle = .joining .eof checked) := by
  have hrelay := h.teardown.relay
  cases pc with
  | top =>
    by_cases hboth : s.upDone = true ∧ s.downDone = true
    . exact ⟨.eof, ⟨hpc, hboth⟩, rfl, .inr ⟨none, rfl⟩⟩
    . exact ⟨.readClock, ⟨hpc, hboth⟩, rfl, .inl ⟨_, rfl⟩⟩
  | clock now =>
    exact ⟨.sleep now s.lastActivity, h.spared.sleep_guard hrelay.clock hpc, rfl, .inl ⟨_, rfl⟩⟩
  | select wake =>
    rcases hrelay.channel.exists_mem_done hpc hended with ⟨dir, end_, hmem⟩
    rcases List.exists_cons_of_ne_nil (List.ne_nil_of_mem hmem) with ⟨⟨dir, end_⟩, tail, hqueue⟩
    have hhead : s.done.head? = some (dir, end_) := by rw [hqueue, List.head?_cons]
    have hexit := hrelay.watch.exit_of_mem_done (by rw [hpc]; rfl) (List.mem_of_mem_head? hhead)
    cases end_ with
    | eof =>
      refine ⟨.recv wake dir .eof, ⟨hpc, hrelay.channel.channelOpen, hhead⟩, rfl, .inl ⟨.top, ?_⟩⟩
      cases dir <;> rfl
    | err => rcases h.clean dir with hclean | ⟨hclean, _⟩ <;> simp [hclean] at hexit

theorem exists_watch_step (h : Completing conn s₀ s) {pc : WatchPc} (hpc : s.handle = .watch pc)
    (hended : ∀ dir, (s.copy dir).pc = .ended)
    : ∃ l, (connection conn).guard s l ∧ l.moves = true
        ∧ Completing conn s₀ ((connection conn).effect s l)
        ∧ ((connection conn).effect s l).relayRank conn < s.relayRank conn := by
  rcases h.exists_watch hpc hended with ⟨act, hguard, hmoves, hhandle⟩
  have hcopy := act.copy_effect conn s
  have hrank := act.rank_effect h.teardown.relay.channel hguard (by rintro wake rfl; cases hmoves)
  refine ⟨.watch act, hguard, hmoves, ⟨?_, ?_, ?_, ?_⟩, ?_⟩
  . exact h.teardown.effect (l := .watch act) hguard
  . exact h.spared.watch_effect h.teardown.relay.clock hguard hmoves
  . intro dir
    simp only [connection, effect, hcopy]
    exact h.clean dir
  . refine hhandle.imp_right fun hjoining => .inl ⟨hjoining, fun dir => ?_⟩
    simp only [connection, effect, hcopy, hended]
  . have hup : (act.effect conn s).up = s.up := hcopy .up
    have hdown : (act.effect conn s).down = s.down := hcopy .down
    have hbefore : s.finished = false := by rw [State.finished, hpc]; rfl
    have hafter : (act.effect conn s).finished = false := by
      rcases hhandle with ⟨_, hnext⟩ | ⟨_, hnext⟩ <;> rw [State.finished, hnext] <;> rfl
    simp only [State.relayRank, connection, effect, hup, hdown, hbefore, hafter]
    omega

theorem exists_join_step (h : Completing conn s₀ s) {checked : Option (Nat × Nat)}
    (hpc : s.handle = .joining .eof checked) (hended : ∀ dir, (s.copy dir).pc = .ended)
    : ∃ l, (connection conn).guard s l ∧ l.moves = true
        ∧ Completing conn s₀ ((connection conn).effect s l)
        ∧ ((connection conn).effect s l).relayRank conn < s.relayRank conn := by
  have hguard : guard conn s (.handle (.join .eof checked)) := ⟨hpc, hended .up, hended .down⟩
  refine ⟨.handle (.join .eof checked), hguard, rfl, ⟨?_, ?_, ?_, ?_⟩, ?_⟩
  . exact h.teardown.effect hguard
  . refine h.spared.mono (t := (HandleAct.join .eof checked).effect conn s) rfl (Nat.le_refl _) ?_
    simp only [State.graceSince, HandleAct.effect, hpc]
    apply Nat.le_refl
  . rintro (_ | _)
    . exact h.clean .up
    . exact h.clean .down
  . exact .inr (.inr ⟨checked, rfl⟩)
  . simp [State.relayRank, State.watchRank, connection, effect, HandleAct.effect, State.finished,
      HandlePc.isReturned, HandlePc.rank, hpc]

theorem exists_step (h : Completing conn s₀ s)
    (hrunning : ¬ ∃ checked, s.handle = .returned (.relayed .eof) checked)
    : ∃ l, (connection conn).guard s l ∧ l.moves = true
        ∧ Completing conn s₀ ((connection conn).effect s l)
        ∧ ((connection conn).effect s l).relayRank conn < s.relayRank conn := by
  rcases h.handle with ⟨pc, hpc⟩ | ⟨⟨checked, hpc⟩, hended⟩ | hreturned
  . by_cases hended : ∀ dir, (s.copy dir).pc = .ended
    . exact h.exists_watch_step hpc hended
    . rcases not_forall.mp hended with ⟨dir, hne⟩
      exact h.exists_copy_step hpc hne
  . exact h.exists_join_step hpc hended
  . exact absurd hreturned hrunning

theorem delivered (h : Completing conn s₀ s) {checked : Option (Nat × Nat)}
    (hpc : s.handle = .returned (.relayed .eof) checked) (dir : Dir)
    : (s.copy dir).written = conn.preamble dir ++ (s.copy dir).read
        ∧ ((s₀.copy dir).exit = none → (s.copy dir).read = conn.sent dir) := by
  have hexit : (s.copy dir).exit = some .eof :=
    h.teardown.relay.watch.verdict .eof checked (by rw [hpc]; rfl) dir
  have hcopy := h.teardown.copy (by rw [hpc]; rfl) dir
  have hstream := hcopy.stream
  rw [hcopy.buf_eq_nil (hcopy.clean (.inl hexit)), List.append_nil] at hstream
  refine ⟨hstream, ?_⟩
  rcases h.clean dir with hclean | ⟨_, hread⟩
  . rw [hclean] at hexit
    cases hexit
  . exact hread

end Completing

theorem relay_completes (h : (connection conn).Reachable accepted s) {pc : WatchPc}
    (hpc : s.handle = .watch pc) (hgood : ∀ dir, ¬ (s.copy dir).failed) (hspared : Spared conn s)
    : (connection conn).CanReach Label.moves s fun t =>
        (∃ checked, t.handle = .returned (.relayed .eof) checked)
          ∧ ∀ dir, (t.copy dir).written = conn.preamble dir ++ (t.copy dir).read
              ∧ ((s.copy dir).exit = none → (t.copy dir).read = conn.sent dir) := by
  have hinv := teardownInv_of_reach h
  have hclean : ∀ dir, (s.copy dir).Clean conn s dir := by
    intro dir
    cases hexit : (s.copy dir).exit with
    | none => exact .inl hexit
    | some exit =>
      cases exit with
      | eof => exact .inr ⟨hexit, by simp [hexit]⟩
      | cancelled =>
        have hcancel := hinv.relay.watch.cancelled dir hexit
        rw [hinv.relay.watch.cancel_eq_false (by rw [hpc]; rfl)] at hcancel
        cases hcancel
      | readErr => exact absurd (.inl hexit) (hgood dir)
      | writeErr => exact absurd (.inr hexit) (hgood dir)
  have hinit : Completing conn s s := ⟨hinv, hspared, hclean, .inl ⟨pc, hpc⟩⟩
  have hreach : (connection conn).CanReach Label.moves s _ :=
    .of_measure (Completing conn s) (State.relayRank conn) (fun _ ht hgoal => ht.exists_step hgoal)
      hinit
  refine hreach.mono (fun _ hmoves => hmoves) ?_
  rintro t ⟨ht, checked, hreturned⟩
  exact ⟨⟨checked, hreturned⟩, ht.delivered hreturned⟩

def Label.halfClosed : List Label :=
  -- the half-close grace is armed, and a chunk of the client is in hand
  Label.connect
    ++ [.copy .down .poll, .copy .down .readEof, .copy .down .shut, .copy .down (.report .eof),
      .watch .readClock, .watch (.sleep 0 0), .watch (.recv 5000 .down .eof), .watch .readClock,
      .watch (.sleep 0 0), .copy .up .poll, .copy .up (.read [1])]

theorem relay_completes_half_closed
    : (connection webConn).CanReach Label.moves
        ((connection webConn).exec accepted Label.halfClosed) fun t =>
          (∃ checked, t.handle = .returned (.relayed .eof) checked)
            ∧ (t.copy .up).written = [1, 2] := by
  have hruns : (connection webConn).Runs accepted Label.halfClosed := by decide
  have hpc : ((connection webConn).exec accepted Label.halfClosed).handle
      = .watch (.select 5000) := by decide
  have hspared : Spared webConn ((connection webConn).exec accepted Label.halfClosed) :=
    ⟨by decide, by decide⟩
  have hreach := relay_completes hruns.reachable hpc (by rintro (_ | _) <;> decide) hspared
  refine hreach.mono (fun _ hmoves => hmoves) ?_
  rintro t ⟨hreturned, hdelivered⟩
  rcases hdelivered .up with ⟨hwritten, hread⟩
  refine ⟨hreturned, ?_⟩
  rw [hwritten, hread (by decide)]
  rfl

end Tcp
