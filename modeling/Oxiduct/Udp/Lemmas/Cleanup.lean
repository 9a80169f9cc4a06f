import Oxiduct.Udp.Lemmas.Cells
import Oxiduct.Udp.Lemmas.Close

/-!
This module contains the timing of the cleanup task: it never sleeps past the nearest deadline of the
map, it evicts no session before its deadline, and it does not wake up for nothing.
-/

namespace Udp

variable {cfg : ProxyConfig} {s : State} {l : Label}

def idleMs (cfg : ProxyConfig) : Nat :=
  1000 * cfg.idleTimeoutSecs.toNat

@[simp]
theorem Cell.lastActivity_trySend (c : Cell) (data : Packet)
    : (c.trySend data).lastActivity = c.lastActivity := by
  unfold trySend
  split <;> rfl

theorem Cell.lastActivity_apply (c : Cell) (now : Nat) (side : Side) (act : RelayAct)
    : (act.apply now side c).lastActivity = c.lastActivity
        ∨ (act.apply now side c).lastActivity = now := by
  cases act <;> cases side <;> simp [RelayAct.apply, setPc]

theorem CellChange.lastActivity {id : Nat} {c : Cell} (h : CellChange s id l c)
    : c.lastActivity = (s.cells id).lastActivity ∨ c.lastActivity = s.now := by
  cases h with
  | flags => left; rfl
  | hit => right; apply Cell.lastActivity_trySend
  | opened => right; rfl
  | trySend => left; apply Cell.lastActivity_trySend
  | relay => apply Cell.lastActivity_apply

theorem now_effect (cfg : ProxyConfig) (hguard : guard s l) (hnow : s.now < u64Max)
    : s.now ≤ (effect cfg s l).now ∧ (effect cfg s l).now < u64Max := by
  cases l with
  | env act =>
    cases act with
    | advance now => exact hguard
    | _ => exact ⟨Nat.le_refl _, hnow⟩
  | listener act => cases act <;> exact ⟨Nat.le_refl _, hnow⟩
  | setup i task act => cases act <;> exact ⟨Nat.le_refl _, hnow⟩
  | relay id side act => exact ⟨Nat.le_refl _, hnow⟩
  | cleanup act => exact (CleanupAct.now_effect cfg s act).symm ▸ ⟨Nat.le_refl _, hnow⟩

theorem cleanup_effect (cfg : ProxyConfig) (s : State) (hl : ∀ act, l ≠ .cleanup act)
    : (effect cfg s l).cleanup = s.cleanup := by
  cases l with
  | env act => cases act <;> rfl
  | listener act => cases act <;> rfl
  | setup i task act => cases act <;> rfl
  | relay id side act => rfl
  | cleanup act => exact absurd rfl (hl act)

theorem permit_effect (cfg : ProxyConfig) (s : State) (hl : ∀ act, l ≠ .cleanup act)
    : (effect cfg s l).permit = (s.permit || !(inserted l).isEmpty) := by
  cases l with
  | env act => cases act <;> simp [effect, EnvAct.effect, inserted, State.dropSessions]
  | listener act =>
    cases act <;>
      simp [effect, ListenerAct.effect, inserted, State.dropSessions, State.updCell,
        State.cancelAll]
  | setup i task act =>
    cases act <;>
      simp [effect, SetupAct.effect, inserted, State.dropSessions, State.updCell, State.cancelAll]
  | relay id side act => simp [effect, RelayAct.effect, inserted, State.updCell]
  | cleanup act => exact absurd rfl (hl act)

structure ClockInv (s : State) : Prop where
  now_lt : s.now < u64Max
  lastActivity_le : ∀ id, (s.cells id).lastActivity ≤ s.now
  waiting_le : ∀ since wait, s.cleanup = .waiting since wait → since ≤ s.now
  locking_le : ∀ now, s.cleanup = .locking now → now ≤ s.now

namespace ClockInv

theorem start (cfg : ProxyConfig) : ClockInv (start cfg) where
  now_lt := show 0 < u64Max by decide
  lastActivity_le := by intro id; apply Nat.le_refl
  waiting_le := by intro since wait h; cases h
  locking_le := by intro now h; cases h

theorem lastActivity_mono (hclock : ClockInv s) (cfg : ProxyConfig) (l : Label) (id : Nat)
    : (s.cells id).lastActivity ≤ ((Udp.effect cfg s l).cells id).lastActivity := by
  have := hclock.lastActivity_le id
  rcases (cellChange_effect cfg s l id).lastActivity with h | h <;> omega

theorem effect (hclock : ClockInv s) (hguard : guard s l) : ClockInv (effect cfg s l) := by
  have hnow := now_effect cfg hguard hclock.now_lt
  refine ⟨hnow.2, ?_, ?_, ?_⟩
  . intro id
    have := hclock.lastActivity_le id
    rcases (cellChange_effect cfg s l id).lastActivity with h | h <;> omega
  . intro since wait h
    by_cases hl : ∃ act, l = .cleanup act
    . rcases hl with ⟨act, rfl⟩
      cases act with
      | compute =>
        cases h
        apply Nat.le_refl
      | _ => cases h
    . rw [cleanup_effect cfg s (by simpa using hl)] at h
      have := hclock.waiting_le since wait h
      omega
  . intro now h
    by_cases hl : ∃ act, l = .cleanup act
    . rcases hl with ⟨act, rfl⟩
      cases act with
      | readClock =>
        cases h
        apply Nat.le_refl
      | _ => cases h
    . rw [cleanup_effect cfg s (by simpa using hl)] at h
      have := hclock.locking_le now h
      omega

end ClockInv

theorem isStale_iff {now : Nat} {session : Session} (hidle : 0 < cfg.idleTimeoutSecs)
    (hnow : now < u64Max)
    : isStale cfg now s session = true
        ↔ (s.cells session.id).lastActivity + idleMs cfg ≤ now := by
  have hpos : 0 < cfg.idleTimeoutSecs.toNat := UInt64.lt_iff_toNat_lt.mp hidle
  simp only [isStale, hidle, decide_true, Bool.true_and, decide_eq_true_eq]
  unfold saturatingMul idleMs
  omega

theorem cleanupWait_le (cfg : ProxyConfig) (s : State) : cleanupWait cfg s ≤ 5000 := by
  unfold cleanupWait
  split
  . omega
  . split
    . apply Nat.min_le_right
    . apply Nat.le_refl

theorem getD_min?_le_of_mem {xs : List Nat} {x : Nat} (hmem : x ∈ xs) (d : Nat)
    : xs.min?.getD d ≤ x := by
  cases hmin : xs.min? with
  | none =>
    rw [List.min?_eq_none_iff] at hmin
    simp [hmin] at hmem
  | some m => exact (List.min?_eq_some_iff.mp hmin).2 x hmem

theorem add_cleanupWait_le (hidle : 0 < cfg.idleTimeoutSecs) {session : Session}
    (hmem : session ∈ s.sessionList)
    : s.now + cleanupWait cfg s ≤ max s.now ((s.cells session.id).lastActivity + idleMs cfg) := by
  unfold cleanupWait
  split
  . omega
  . have hle := getD_min?_le_of_mem (List.mem_map_of_mem
      (f := fun session => saturatingAdd (s.cells session.id).lastActivity
        (saturatingMul cfg.idleTimeoutSecs.toNat 1000) - s.now) hmem) 5000
    simp only
    have : saturatingAdd (s.cells session.id).lastActivity
        (saturatingMul cfg.idleTimeoutSecs.toNat 1000)
        ≤ (s.cells session.id).lastActivity + idleMs cfg := by
      unfold saturatingAdd saturatingMul idleMs
      omega
    omega

theorem exists_of_cleanupWait_eq_zero (hidle : 0 < cfg.idleTimeoutSecs) (hnow : s.now < u64Max)
    (hwait : cleanupWait cfg s = 0)
    : ∃ session ∈ s.sessionList,
        isDead s session = true
          ∨ (s.cells session.id).lastActivity + idleMs cfg ≤ s.now := by
  unfold cleanupWait at hwait
  split at hwait
  . next hdead =>
    rcases List.any_eq_true.mp hdead with ⟨session, hmem, hcancel⟩
    exact ⟨session, hmem, .inl hcancel⟩
  . simp only at hwait
    cases hmin : List.min? (s.sessionList.map fun session =>
      saturatingAdd (s.cells session.id).lastActivity
        (saturatingMul cfg.idleTimeoutSecs.toNat 1000) - s.now) with
    | none => simp [hmin] at hwait
    | some m =>
      rw [hmin, Option.getD_some] at hwait
      have hm : m = 0 := by omega
      rcases List.mem_map.mp (List.min?_mem hmin) with ⟨session, hmem, heq⟩
      rw [hm, saturatingAdd_saturatingMul_sub_eq_zero_iff hnow] at heq
      exact ⟨session, hmem, .inr heq⟩

/--
What the cleanup task relies on while it sleeps: it wakes up within five seconds, and unless it has
been notified no session of the map is due before that.
-/
def WakeInv (cfg : ProxyConfig) (s : State) : Prop :=
  ∀ since wait, s.cleanup = .waiting since wait →
    wait ≤ 5000
      ∧ (s.permit = true
          ∨ ∀ session ∈ s.sessionList,
              since + wait ≤ max since ((s.cells session.id).lastActivity + idleMs cfg))

theorem wakeInv_start (cfg : ProxyConfig) : WakeInv cfg (start cfg) := by
  intro since wait h
  cases h

theorem WakeInv.effect (hidle : 0 < cfg.idleTimeoutSecs) (hclock : ClockInv s)
    (hwake : WakeInv cfg s) (hguard : guard s l)
    : WakeInv cfg (effect cfg s l) := by
  intro since wait hwaiting
  by_cases hl : ∃ act, l = .cleanup act
  . rcases hl with ⟨act, rfl⟩
    cases act with
    | compute =>
      cases hwaiting
      refine ⟨cleanupWait_le cfg s, .inr ?_⟩
      intro session hmem
      apply add_cleanupWait_le hidle hmem
    | _ => cases hwaiting
  . have hl : ∀ act, l ≠ .cleanup act := by simpa using hl
    rw [cleanup_effect cfg s hl] at hwaiting
    rw [permit_effect cfg s hl]
    rcases hwake since wait hwaiting with ⟨hle, hbound⟩
    refine ⟨hle, ?_⟩
    rcases hbound with hpermit | hbound
    . simp [hpermit]
    . by_cases hinserted : inserted l = []
      . right
        -- no insert: every session of the map was there before, at no later activity
        intro session hmem
        have hmem' := (mem_sessionList_effect cfg hguard session).mpr (.inr hmem)
        simp only [hinserted, List.not_mem_nil, false_or] at hmem'
        have := hbound session hmem'
        have := hclock.lastActivity_mono cfg l session.id
        omega
      . simp [hinserted]

theorem wakeInv_of_reachable (hidle : 0 < cfg.idleTimeoutSecs)
    (h : (serveGraceful cfg).Reachable (start cfg) s)
    : ClockInv s ∧ WakeInv cfg s := by
  refine h.invariant (p := fun s => ClockInv s ∧ WakeInv cfg s)
    ⟨.start cfg, wakeInv_start cfg⟩ ?_
  rintro s l ⟨hclock, hwake⟩ hguard _
  exact ⟨hclock.effect hguard, hwake.effect hidle hclock hguard⟩

theorem idleTimeout_mem_counted (hidle : 0 < cfg.idleTimeoutSecs) (hclock : ClockInv s)
    (hguard : guard s l) {id : Nat} (hmem : (id, .idleTimeout) ∈ counted cfg s l)
    : ∃ now, l = .cleanup (.retain now) ∧ now ≤ s.now ∧ ∃ session ∈ s.sessionList, session.id = id
        ∧ (s.cells id).lastActivity + idleMs cfg ≤ now := by
  unfold counted at hmem
  split at hmem
  . simp at hmem
  . simp at hmem
  . next now =>
    have hnow := hclock.locking_le now hguard
    have hlt := hclock.now_lt
    rcases List.mem_map.mp hmem with ⟨session, hevicted, heq⟩
    rcases List.mem_filter.mp hevicted with ⟨hsession, hcond⟩
    have hid : session.id = id := congrArg Prod.fst heq
    have hdead : isDead s session = false := by
      cases hdead : isDead s session with
      | false => rfl
      | true => simp [hdead] at heq
    rw [hdead, Bool.false_or, isStale_iff hidle (by omega), hid] at hcond
    exact ⟨now, rfl, hnow, session, hsession, hid, hcond⟩
  . simp at hmem

theorem cancel_exec {ls : List Label} (hruns : (serveGraceful cfg).Runs s ls) {id : Nat}
    (hlt : id < s.nextId) (h : (s.cells id).cancel = true)
    : (((serveGraceful cfg).exec s ls).cells id).cancel = true := by
  induction ls generalizing s with
  | nil => exact h
  | cons l ls ih =>
    apply ih hruns.2
    . have := nextId_effect cfg s l
      exact Nat.lt_of_lt_of_le hlt (by change _ ≤ (effect cfg s l).nextId; omega)
    . exact cancel_effect cfg hruns.1 hlt h

theorem cleanup_on_time (hidle : 0 < cfg.idleTimeoutSecs)
    (hreach : (serveGraceful cfg).Reachable (start cfg) s)
    : (∀ since wait, s.cleanup = .waiting since wait → s.permit = false →
        since + wait ≤ since + 5000
          ∧ ∀ session ∈ s.sessionList,
              since + wait ≤ max since ((s.cells session.id).lastActivity + idleMs cfg))
      ∧ (∀ l, (serveGraceful cfg).guard s l →
          ∃ new, ((serveGraceful cfg).effect s l).closed = s.closed ++ new
            ∧ ∀ id, (id, .idleTimeout) ∈ new →
                ∃ now, l = .cleanup (.retain now) ∧ now ≤ s.now
                  ∧ ∃ session ∈ s.sessionList, session.id = id
                      ∧ (s.cells id).lastActivity + idleMs cfg ≤ now)
      ∧ (cleanupWait cfg s = 0 → ∀ ls, (serveGraceful cfg).Runs s ls →
          let t := (serveGraceful cfg).exec s ls
          t.sessions = s.sessions →
          (∀ session ∈ s.sessionList,
            (t.cells session.id).lastActivity = (s.cells session.id).lastActivity) →
          ∀ now, s.now ≤ now → now < u64Max →
            ∃ src session, t.sessions.lookup src = some session
              ∧ (retainPass cfg now t).sessions.lookup src = none) := by
  rcases wakeInv_of_reachable hidle hreach with ⟨hclock, hwake⟩
  have hinv : Inv s := hreach.invariant (inv_start cfg) (fun s l hinv hguard _ => hinv.effect hguard)
  refine ⟨?_, ?_, ?_⟩
  . intro since wait hwaiting hpermit
    rcases hwake since wait hwaiting with ⟨hle, hbound⟩
    refine ⟨Nat.add_le_add_left hle since, ?_⟩
    rcases hbound with h | hbound
    . simp [hpermit] at h
    . exact hbound
  . intro l hguard
    refine ⟨counted cfg s l, closed_effect cfg s l, ?_⟩
    intro id hmem
    apply idleTimeout_mem_counted hidle hclock hguard hmem
  . intro hwait ls hruns t hsessions hactivity now hle hnow
    rcases exists_of_cleanupWait_eq_zero hidle hclock.now_lt hwait with ⟨session, hmem, hgone⟩
    rcases State.mem_sessionList.mp hmem with ⟨src, hlookup⟩
    refine ⟨src, session, hsessions ▸ hlookup, ?_⟩
    have hgone : (isDead t session || isStale cfg now t session) = true := by
      rw [Bool.or_eq_true]
      rcases hgone with hdead | hdue
      . left
        apply cancel_exec hruns _ hdead
        apply hinv.owned.lt
        apply mem_ids_of_mem_sessionList hmem
      . right
        rw [isStale_iff hidle hnow, hactivity session hmem]
        omega
    rw [lookup_retainPass, hsessions, hlookup, Option.filter_some, hgone]
    rfl

namespace Label

def idleSession (task : Task) (session : Session) : List Label :=
  arrival task.src task.data ++ admission task.src task.data ++ opening 0 task session
    ++ handover 0 task session
    ++ [.cleanup .compute, .cleanup (.notified 0 5000), .env (.advance 300000), .cleanup .compute]

end Label

theorem cleanup_on_time_idleSession
    : let s := (serveGraceful dnsProxy).exec (start dnsProxy)
        (Label.idleSession dnsQuery (dnsSession 0))
      s.cleanup = .waiting 300000 0 ∧ s.permit = false
        ∧ (∀ session ∈ s.sessionList,
            300000 + 0 ≤ max 300000 ((s.cells session.id).lastActivity + idleMs dnsProxy))
        ∧ ∃ src session, s.sessions.lookup src = some session
            ∧ (retainPass dnsProxy 300000 s).sessions.lookup src = none := by
  intro s
  have hruns : (serveGraceful dnsProxy).Runs (start dnsProxy)
      (Label.idleSession dnsQuery (dnsSession 0)) := by
    decide
  have hstate : s.cleanup = .waiting 300000 0 ∧ s.permit = false ∧ cleanupWait dnsProxy s = 0
      ∧ s.now = 300000 := by
    decide
  have htimely := @cleanup_on_time dnsProxy s (by decide) hruns.reachable
  clear_value s
  rcases hstate with ⟨hwaiting, hpermit, hwait, hnow⟩
  rcases htimely with ⟨hwake, _, hspin⟩
  refine ⟨hwaiting, hpermit, (hwake 300000 0 hwaiting hpermit).2, ?_⟩
  apply hspin hwait [] trivial rfl (by intro session _; rfl) 300000 (by omega)
  unfold u64Max
  omega

end Udp
