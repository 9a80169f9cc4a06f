import Oxiduct.Tcp.Impl

/-!
This module contains what the steps of a connection leave alone, and the invariants of a direction:
where the bytes it has read are, and how many of them it has counted.
-/

namespace Tcp

variable {conn : Conn} {s : State} {l : Label}

namespace CopyAct

variable (s : State) (dir : Dir) (act : CopyAct)

theorem effect_eq
    : act.effect s dir
        =
      { s.setCopy dir (act.apply s.now (s.copy dir)) with
        lastActivity := (act.effect s dir).lastActivity
        done := (act.effect s dir).done
      } := by
  cases act with
  | report end_ =>
    simp only [effect]
    split <;> rfl
  | _ => rfl

@[simp]
theorem copy_effect (dir' : Dir)
    : (act.effect s dir).copy dir'
        = if dir' = dir then act.apply s.now (s.copy dir) else s.copy dir' := by
  rw [effect_eq]
  cases dir <;> cases dir' <;> rfl

@[simp]
theorem handle_effect : (act.effect s dir).handle = s.handle := by
  rw [effect_eq]
  cases dir <;> rfl

@[simp]
theorem cancel_effect : (act.effect s dir).cancel = s.cancel := by
  rw [effect_eq]
  cases dir <;> rfl

@[simp]
theorem shutdown_effect : (act.effect s dir).shutdown = s.shutdown := by
  rw [effect_eq]
  cases dir <;> rfl

@[simp]
theorem now_effect : (act.effect s dir).now = s.now := by
  rw [effect_eq]
  cases dir <;> rfl

@[simp]
theorem dirDone_effect (dir' : Dir) : (act.effect s dir).dirDone dir' = s.dirDone dir' := by
  rw [effect_eq]
  cases dir <;> cases dir' <;> rfl

@[simp]
theorem closed_effect : (act.effect s dir).closed = s.closed := by
  rw [effect_eq]
  cases dir <;> rfl

end CopyAct

namespace WatchAct

variable (conn : Conn) (s : State) (act : WatchAct)

@[simp]
theorem copy_effect (dir : Dir) : (act.effect conn s).copy dir = s.copy dir := by
  cases act with
  | recv wake dir' end_ => cases end_ <;> cases dir' <;> cases dir <;> rfl
  | _ => cases dir <;> rfl

@[simp]
theorem now_effect : (act.effect conn s).now = s.now := by
  cases act with
  | recv wake dir' end_ => cases end_ <;> cases dir' <;> rfl
  | _ => rfl

@[simp]
theorem shutdown_effect : (act.effect conn s).shutdown = s.shutdown := by
  cases act with
  | recv wake dir' end_ => cases end_ <;> cases dir' <;> rfl
  | _ => rfl

@[simp]
theorem lastActivity_effect : (act.effect conn s).lastActivity = s.lastActivity := by
  cases act with
  | recv wake dir' end_ => cases end_ <;> cases dir' <;> rfl
  | _ => rfl

@[simp]
theorem closed_effect : (act.effect conn s).closed = s.closed := by
  cases act with
  | recv wake dir' end_ => cases end_ <;> cases dir' <;> rfl
  | _ => rfl

end WatchAct

structure CopyInv (conn : Conn) (dir : Dir) (c : Copy) : Prop where
  spawned : c.pc ≠ .unspawned
  stream : c.written ++ c.buf = conn.preamble dir ++ c.read
  sent : c.read <+: conn.sent dir
  buf : c.buf.length ≤ c.n
  chunk : c.n ≤ bufSize
  read : c.n ≤ c.read.length
  total : c.total = UInt64.ofNat (c.read.length - c.n)
  bytes : c.bytes = c.total
  idle : c.pc = .select ∨ c.pc = .polled ∨ c.pc = .shutdown → c.n = 0
  exit : c.exit ≠ none ↔ c.pc = .shutdown ∨ c.pc = .report ∨ c.pc = .ended
  clean : c.exit = some .eof ∨ c.exit = some .readErr → c.n = 0
  shut : c.shut = true → c.n = 0 ∧ c.exit ≠ none

namespace CopyInv

variable {dir : Dir} {c : Copy}

theorem buf_eq_nil (h : CopyInv conn dir c) (hn : c.n = 0) : c.buf = [] := by
  have := h.buf
  apply List.eq_nil_of_length_eq_zero (by omega)

theorem start (hnew : c = { Copy.new with written := conn.preamble dir })
    : CopyInv conn dir { c with pc := .select } := by
  subst hnew
  constructor <;> simp [Copy.new]

theorem exit_eq_none (h : CopyInv conn dir c)
    (hpc : c.pc ≠ .shutdown ∧ c.pc ≠ .report ∧ c.pc ≠ .ended)
    : c.exit = none := by
  by_contra hne
  rcases h.exit.mp hne with h' | h' | h'
  . exact hpc.1 h'
  . exact hpc.2.1 h'
  . exact hpc.2.2 h'

theorem shut_eq_false (h : CopyInv conn dir c) (hexit : c.exit = none) : c.shut = false := by
  by_contra hne
  exact (h.shut (by simpa using hne)).2 hexit

theorem setPc (h : CopyInv conn dir c) (hexit : c.exit = none) (pc : CopyPc)
    (hpc : pc = .select ∨ pc = .polled ∨ pc = .chunk ∨ pc = .writing)
    (hidle : pc = .select ∨ pc = .polled → c.n = 0)
    : CopyInv conn dir { c with pc } :=
  { h with
    spawned := by rintro rfl; simp at hpc
    idle := by rcases hpc with rfl | rfl | rfl | rfl <;> simp_all
    exit := by rcases hpc with rfl | rfl | rfl | rfl <;> simp [hexit]
  }

theorem setExit (h : CopyInv conn dir c) (hexit : c.exit = none) (exit : Exit) (pc : CopyPc)
    (hpc : pc = .shutdown ∨ pc = .report) (hclean : pc = .shutdown → c.n = 0)
    (hdirty : pc = .report → exit ≠ .eof ∧ exit ≠ .readErr)
    : CopyInv conn dir { c with exit := some exit, pc } :=
  { h with
    spawned := by rintro rfl; simp at hpc
    idle := by rcases hpc with rfl | rfl <;> simp_all
    exit := by rcases hpc with rfl | rfl <;> simp
    clean := by rcases hpc with rfl | rfl <;> simp_all
    shut := by simp [h.shut_eq_false hexit]
  }

theorem read_step (h : CopyInv conn dir c) (hexit : c.exit = none) (hn : c.n = 0) (now : Nat)
    {data : Bytes} (hlen : data.length ≤ bufSize) (hsent : c.read ++ data <+: conn.sent dir)
    : CopyInv conn dir (CopyAct.apply now c (.read data)) := by
  have hbuf := h.buf_eq_nil hn
  have hstream := h.stream
  rw [hbuf, List.append_nil] at hstream
  constructor
  . simp [CopyAct.apply]
  . simp [CopyAct.apply, hstream]
  . exact hsent
  . apply Nat.le_refl
  . exact hlen
  . simp [CopyAct.apply]
  . have htotal := h.total
    rw [hn] at htotal
    simpa [CopyAct.apply] using htotal
  . exact h.bytes
  . simp [CopyAct.apply]
  . simp [CopyAct.apply, hexit]
  . simp [CopyAct.apply, hexit]
  . simp [CopyAct.apply, h.shut_eq_false hexit]

theorem accept_step (h : CopyInv conn dir c) (now k : Nat)
    : CopyInv conn dir (CopyAct.apply now c (.accept k)) :=
  { h with
    stream := by
      simp only [CopyAct.apply]
      rw [List.append_assoc, List.take_append_drop]
      exact h.stream
    buf := by
      have := h.buf
      simp only [CopyAct.apply, List.length_drop]
      omega
  }

theorem wrote_step (h : CopyInv conn dir c) (hexit : c.exit = none) (hbuf : c.buf = []) (now : Nat)
    : CopyInv conn dir (CopyAct.apply now c .wrote) := by
  have hread := h.read
  have htotal : c.total + UInt64.ofNat c.n = UInt64.ofNat (c.read.length - 0) := by
    rw [h.total, ← UInt64.ofNat_add]
    congr 1
    omega
  exact { h with
    spawned := by simp [CopyAct.apply]
    buf := by simp [CopyAct.apply, hbuf]
    chunk := Nat.zero_le _
    read := Nat.zero_le _
    total := htotal
    bytes := congrArg (· + UInt64.ofNat c.n) h.bytes
    idle := fun _ => rfl
    exit := by simp [CopyAct.apply, hexit]
    clean := fun _ => rfl
    shut := fun hshut => ⟨rfl, (h.shut hshut).2⟩
  }

theorem apply {act : CopyAct} (h : CopyInv conn dir (s.copy dir)) (hguard : act.guard conn s dir)
    : CopyInv conn dir (act.apply s.now (s.copy dir)) := by
  generalize hc : s.copy dir = c at h
  cases act <;> simp only [CopyAct.guard, hc] at hguard
  case poll =>
    have hexit := h.exit_eq_none (by simp [hguard.1])
    exact h.setPc hexit .polled (by simp) fun _ => h.idle (.inl hguard.1)
  case stop =>
    have hexit := h.exit_eq_none (by rcases hguard.1 with h | h <;> simp [h])
    exact h.setExit hexit .cancelled .report (.inr rfl) (by simp) (by simp)
  case read data =>
    have hexit := h.exit_eq_none (by simp [hguard.1])
    exact h.read_step hexit (h.idle (.inr (.inl hguard.1))) s.now hguard.2.2.1 hguard.2.2.2
  case readEof =>
    have hexit := h.exit_eq_none (by simp [hguard])
    exact h.setExit hexit .eof .shutdown (.inl rfl) (fun _ => h.idle (.inr (.inl hguard))) (by simp)
  case readErr =>
    have hexit := h.exit_eq_none (by simp [hguard])
    exact h.setExit hexit .readErr .shutdown (.inl rfl) (fun _ => h.idle (.inr (.inl hguard)))
      (by simp)
  case shut =>
    have hn := h.idle (.inr (.inr hguard))
    have hexit := h.exit.mpr (.inl hguard)
    exact { h with
      spawned := by simp [CopyAct.apply]
      idle := fun _ => hn
      exit := by simp [CopyAct.apply, hexit]
      shut := fun _ => ⟨hn, hexit⟩
    }
  case pollWrite =>
    have hexit := h.exit_eq_none (by simp [hguard.1])
    exact h.setPc hexit .writing (by simp) (by simp)
  case stopWrite =>
    have hexit := h.exit_eq_none (by rcases hguard.1 with h | h <;> simp [h])
    exact h.setExit hexit .cancelled .report (.inr rfl) (by simp) (by simp)
  case accept k => exact h.accept_step s.now k
  case wrote =>
    have hexit := h.exit_eq_none (by simp [hguard.1])
    exact h.wrote_step hexit hguard.2 s.now
  case writeErr =>
    have hexit := h.exit_eq_none (by simp [hguard.1])
    exact h.setExit hexit .writeErr .report (.inr rfl) (by simp) (by simp)
  case report end_ =>
    have hexit := h.exit.mpr (.inr (.inl hguard.1))
    exact { h with
      spawned := by simp [CopyAct.apply]
      idle := by simp [CopyAct.apply]
      exit := by simp [CopyAct.apply, hexit]
    }

end CopyInv

structure ClockInv (s : State) : Prop where
  now : s.now < u64Max
  last : s.lastActivity ≤ s.now
  clock : ∀ t, s.handle = .watch (.clock t) → t ≤ s.now
  readAt : ∀ dir, ∀ r ∈ (s.copy dir).readAt, r ≤ s.lastActivity
  wroteAt : ∀ dir, ∀ w ∈ (s.copy dir).wroteAt, w ≤ s.now

theorem clockInv_accepted : ClockInv accepted := by
  constructor
  . decide
  . apply Nat.le_refl 0
  . simp [accepted]
  . intro dir
    cases dir <;> simp [accepted, State.copy, Copy.new]
  . intro dir
    cases dir <;> simp [accepted, State.copy, Copy.new]

theorem HandleAct.exists_copy_effect (conn : Conn) (s : State) (act : HandleAct) (dir : Dir)
    : ∃ pc written, (act.effect conn s).copy dir = { s.copy dir with pc, written } := by
  cases act with
  | connected =>
    simp only [effect]
    split <;> cases dir <;> exact ⟨_, _, rfl⟩
  | _ => cases dir <;> exact ⟨_, _, rfl⟩

theorem HandleAct.times_effect (conn : Conn) (s : State) (act : HandleAct) (dir : Dir)
    : ((act.effect conn s).copy dir).readAt = (s.copy dir).readAt
        ∧ ((act.effect conn s).copy dir).wroteAt = (s.copy dir).wroteAt := by
  rcases act.exists_copy_effect conn s dir with ⟨pc, written, heq⟩
  rw [heq]
  exact ⟨rfl, rfl⟩

theorem CopyAct.times_apply (now : Nat) (c : Copy) (act : CopyAct)
    : (∀ r ∈ (act.apply now c).readAt, r ∈ c.readAt ∨ ∃ data, act = .read data ∧ r = now)
        ∧ ∀ w ∈ (act.apply now c).wroteAt, w ∈ c.wroteAt ∨ ∃ k, act = .accept k ∧ w = now := by
  cases act <;> simp [apply]

theorem CopyAct.lastActivity_effect (s : State) (dir : Dir) (act : CopyAct)
    : (act.effect s dir).lastActivity
        =
      match act with
      | .read _ => s.now
      | _ => s.lastActivity := by
  cases act with
  | report end_ =>
    simp only [effect]
    split <;> cases dir <;> rfl
  | _ => cases dir <;> rfl

theorem CopyAct.done_effect (s : State) (dir : Dir) (act : CopyAct)
    : (act.effect s dir).done
        =
      match act with
      | .report end_ => if s.receiverAlive then s.done ++ [(dir, end_)] else s.done
      | _ => s.done := by
  cases act with
  | report end_ =>
    simp only [effect]
    cases halive : s.receiverAlive <;> cases dir <;> simp_all [State.setCopy, State.receiverAlive]
  | _ => cases dir <;> rfl

theorem CopyAct.mem_done_effect {dir dir' : Dir} {act : CopyAct} {end_ : End}
    (hmem : (dir', end_) ∈ (act.effect s dir).done)
    : (dir', end_) ∈ s.done ∨ dir' = dir ∧ act = .report end_ := by
  cases act with
  | report end_' =>
    simp only [done_effect] at hmem
    split at hmem
    . rw [List.mem_append, List.mem_singleton, Prod.mk.injEq] at hmem
      rcases hmem with hmem | ⟨rfl, rfl⟩
      . exact .inl hmem
      . exact .inr ⟨rfl, rfl⟩
    . exact .inl hmem
  | _ =>
    rw [done_effect] at hmem
    exact .inl hmem

namespace ClockInv

theorem of_frame (h : ClockInv s) {t : State} (hnow : t.now = s.now)
    (hlast : t.lastActivity = s.lastActivity ∨ t.lastActivity = s.now)
    (hclock : ∀ u, t.handle = .watch (.clock u) → u ≤ s.now)
    (htimes : ∀ dir, (t.copy dir).readAt = (s.copy dir).readAt
      ∧ (t.copy dir).wroteAt = (s.copy dir).wroteAt)
    : ClockInv t := by
  have hbefore := h.last
  have hlast : s.lastActivity ≤ t.lastActivity ∧ t.lastActivity ≤ t.now := by omega
  constructor
  . rw [hnow]
    exact h.now
  . exact hlast.2
  . rw [hnow]
    exact hclock
  . intro dir r hr
    rw [(htimes dir).1] at hr
    exact (h.readAt dir r hr).trans hlast.1
  . intro dir w hw
    rw [(htimes dir).2] at hw
    rw [hnow]
    exact h.wroteAt dir w hw

theorem handle_effect {act : HandleAct} (h : ClockInv s) (hguard : act.guard s)
    : ClockInv (act.effect conn s) := by
  have htimes := HandleAct.times_effect conn s act
  cases act with
  | connected =>
    simp only [HandleAct.effect] at htimes ⊢
    split
    . next hproxy =>
      simp only [hproxy, ↓reduceIte] at htimes
      exact h.of_frame rfl (.inl rfl) (by simp) htimes
    . next hproxy =>
      simp only [hproxy] at htimes
      exact h.of_frame rfl (.inl rfl) (by simp) htimes
  | start => exact h.of_frame rfl (.inr rfl) (by simp [HandleAct.effect]) htimes
  | acceptHeader k =>
    exact h.of_frame rfl (.inl rfl) (by simp [HandleAct.effect, hguard.1]) htimes
  | _ => exact h.of_frame rfl (.inl rfl) (by simp [HandleAct.effect]) htimes

theorem watch_effect {act : WatchAct} (h : ClockInv s) : ClockInv (act.effect conn s) := by
  apply h.of_frame (by simp) (by simp)
  . intro u hu
    cases act with
    | readClock =>
      have : s.now = u := by simpa [WatchAct.effect] using hu
      omega
    | recv wake dir end_ => cases end_ <;> cases dir <;> simp [WatchAct.effect] at hu
    | _ => simp [WatchAct.effect] at hu
  . simp

theorem copy_effect {dir : Dir} {act : CopyAct} (h : ClockInv s) : ClockInv (act.effect s dir) := by
  have htimes := CopyAct.times_apply s.now (s.copy dir) act
  have hlast : s.lastActivity ≤ (act.effect s dir).lastActivity
      ∧ (act.effect s dir).lastActivity ≤ s.now := by
    have := h.last
    rw [CopyAct.lastActivity_effect]
    split <;> omega
  constructor
  . simpa using h.now
  . simpa using hlast.2
  . simpa using h.clock
  . intro dir' r hr
    rw [CopyAct.copy_effect] at hr
    split at hr
    . rcases htimes.1 r hr with hr | ⟨data, rfl, rfl⟩
      . exact (h.readAt dir r hr).trans hlast.1
      . rw [CopyAct.lastActivity_effect]
    . exact (h.readAt dir' r hr).trans hlast.1
  . intro dir' w hw
    rw [CopyAct.copy_effect] at hw
    rw [CopyAct.now_effect]
    split at hw
    . rcases htimes.2 w hw with hw | ⟨k, rfl, rfl⟩
      . exact h.wroteAt dir w hw
      . apply Nat.le_refl
    . exact h.wroteAt dir' w hw

protected theorem effect (h : ClockInv s) (hguard : guard conn s l)
    : ClockInv (effect conn s l) := by
  cases l with
  | env act =>
    cases act with
    | shutdown =>
      refine h.of_frame rfl (.inl rfl) h.clock ?_
      intro dir
      cases dir <;> exact ⟨rfl, rfl⟩
    | advance now =>
      constructor
      . exact hguard.2
      . exact h.last.trans hguard.1
      . exact fun t ht => (h.clock t ht).trans hguard.1
      . intro dir r hr
        have : r ∈ (s.copy dir).readAt := by cases dir <;> exact hr
        exact h.readAt dir r this
      . intro dir w hw
        have : w ∈ (s.copy dir).wroteAt := by cases dir <;> exact hw
        exact (h.wroteAt dir w this).trans hguard.1
  | handle act => exact h.handle_effect hguard
  | watch act => exact h.watch_effect
  | copy dir act => exact h.copy_effect

end ClockInv

theorem idleLeft_eq_zero_iff {now last : Nat} (hnow : now < u64Max)
    : idleLeft conn now last = some 0
        ↔
      0 < conn.cfg.idleTimeoutSecs ∧ last + 1000 * conn.cfg.idleTimeoutSecs.toNat ≤ now := by
  unfold idleLeft
  split
  . next hpos =>
    simp only [Option.some.injEq, hpos, true_and]
    exact saturatingAdd_saturatingMul_sub_eq_zero_iff hnow
  . next hpos => simp [hpos]

theorem halfCloseLeft_eq_zero_iff {now last : Nat} (hnow : now < u64Max)
    : halfCloseLeft conn s now last = some 0
        ↔
      halfCloseArmed conn s = true
        ∧ max (s.halfCloseSince.getD now) last + 1000 * conn.cfg.halfCloseTimeoutSecs.toNat
            ≤ now := by
  unfold halfCloseLeft
  split
  . next harmed =>
    simp only [Option.some.injEq, harmed, true_and]
    exact saturatingAdd_saturatingMul_sub_eq_zero_iff hnow
  . next harmed => simp [harmed]

theorem halfCloseArmed_iff
    : halfCloseArmed conn s = true
        ↔ 0 < conn.cfg.halfCloseTimeoutSecs ∧ ∃ dir, s.dirDone dir = true := by
  simp only [halfCloseArmed, Bool.and_eq_true, decide_eq_true_eq, Bool.or_eq_true]
  constructor
  . rintro ⟨hpos, h | h⟩
    . exact ⟨hpos, .up, h⟩
    . exact ⟨hpos, .down, h⟩
  . rintro ⟨hpos, dir, h⟩
    cases dir
    . exact ⟨hpos, .inl h⟩
    . exact ⟨hpos, .inr h⟩

end Tcp
