import Mathlib.Algebra.Order.BigOperators.Group.List
import Oxiduct.Udp.Lemmas.Basic

/-!
This module contains what follows from the hand-over of a source from the pending set to the session
map. The listener looks at the two one after the other, under two locks: in the drain branch and when
it admits a new source. A setup task that finishes between the two looks is seen in neither place.
-/

namespace Udp

open Limits

variable {cfg : ProxyConfig} {s : State} {l : Label}

theorem mem_sessions_effect {src : SocketAddr} (hguard : guard s l)
    (hmem : src ∈ (effect cfg s l).sessions)
    : src ∈ s.sessions
        ∨ ∃ i task session, l = .setup i task (.insert session) ∧ task.src = src := by
  cases l with
  | env act =>
    cases act with
    | teardown => exact absurd hmem (AList.notMem_empty src)
    | _ => exact .inl hmem
  | listener act =>
    cases act with
    | evict src' data session => exact .inl (AList.mem_erase.mp hmem).2
    | _ => exact .inl hmem
  | setup i task act =>
    cases act with
    | insert session =>
      rcases (AList.mem_insert _).mp hmem with rfl | h
      . exact .inr ⟨i, task, session, rfl, rfl⟩
      . exact .inl h
    | _ => exact .inl hmem
  | relay id side act => exact .inl hmem
  | cleanup act =>
    cases act with
    | retain now => exact .inl (Dict.mem_of_mem_retain hmem)
    | _ => exact .inl hmem

theorem State.tasks_done_of_taskMarks (h : s.taskMarks = 0) : ∀ task ∈ s.tasks, task.2 = .done := by
  intro task hmem
  rcases List.getElem?_of_mem hmem with ⟨i, hi⟩
  by_contra hne
  have := State.mem_taskMarks hi hne
  rw [h] at this
  apply Multiset.notMem_zero _ this

/--
No setup task drops the last guard between the two reads of a drain check that found the map empty
unless it is empty still.
-/
def drainHandover (s : State) : Label → Prop
  | .setup _ task (.dropGuard _) =>
    s.listener = .drainPending true → s.pending.erase task.src = ∅ → s.sessions = ∅
  | _ => True

instance (s : State) (l : Label) : Decidable (drainHandover s l) :=
  decidable_of_bool
    (match l with
      | .setup _ task (.dropGuard _) =>
        s.listener = .drainPending true → s.pending.erase task.src = ∅ → s.sessions = ∅
      | _ => true)
    (by unfold drainHandover; split <;> simp [imp_iff_not_or])

/--
If the listener leaves through the drain branch now, it leaves no session and no setup task behind.
-/
def DrainSafe (cfg : ProxyConfig) (s : State) : Prop :=
  (serveGraceful cfg).guard s (.listener .drained)
    → ((serveGraceful cfg).effect s (.listener .drained)).sessions = ∅
        ∧ ∀ task ∈ ((serveGraceful cfg).effect s (.listener .drained)).tasks, task.2 = .done

theorem Inv.tasks_done_of_pending (hinv : Inv s) (hpending : s.pending = ∅)
    : ∀ task ∈ s.tasks, task.2 = .done := by
  apply State.tasks_done_of_taskMarks
  have hmarks := hinv.marks
  rw [hpending, State.marks] at hmarks
  have hle : s.taskMarks ≤ s.listener.marks + s.taskMarks := Multiset.le_add_left _ _
  rw [← hmarks] at hle
  exact Multiset.le_zero.mp hle

theorem Inv.drainSafe_iff (hinv : Inv s)
    : DrainSafe cfg s ↔ (s.listener = .drainPending true → s.pending = ∅ → s.sessions = ∅) := by
  constructor
  . intro h hlistener hpending
    exact (h ⟨hlistener, hpending⟩).1
  . rintro h ⟨hlistener, hpending⟩
    exact ⟨h hlistener hpending, hinv.tasks_done_of_pending hpending⟩

theorem DrainSafe.effect (hinv : Inv s) (hsafe : DrainSafe cfg s) (hguard : guard s l)
    (hok : drainHandover s l)
    : DrainSafe cfg (effect cfg s l) := by
  rw [hinv.drainSafe_iff] at hsafe
  rw [(hinv.effect hguard).drainSafe_iff]
  cases l with
  | env act =>
    cases act with
    | teardown => exact fun _ _ => rfl
    | _ => exact hsafe
  | listener act =>
    cases act with
    | readMap =>
      intro hlistener _
      exact Dict.size_eq_zero.mp (by simpa [Udp.effect, ListenerAct.effect] using hlistener)
    | _ => simp [Udp.effect, ListenerAct.effect, State.cancelAll]
  | setup i task act =>
    cases act with
    | insert session =>
      intro _ hpending
      have hmem := hinv.mem_pending_of_task hguard.1 (SetupAct.pre_ne_done _)
      rw [show s.pending = ∅ from hpending] at hmem
      exact absurd hmem (Finset.notMem_empty _)
    | dropGuard outcome => exact hok
    | _ => exact hsafe
  | relay id side act => exact hsafe
  | cleanup act =>
    cases act with
    | retain now =>
      simp only [Udp.effect, CleanupAct.effect, retainPass, State.dropSessions, State.cancelAll]
      intro hlistener hpending
      have hempty := hsafe hlistener hpending
      rw [Dict.eq_empty_iff] at hempty ⊢
      intro src hmem
      exact hempty src (Dict.mem_of_mem_retain hmem)
    | _ => exact hsafe

theorem drainHandover_of_drainSafe (hinv : Inv s) (hguard : guard s l)
    (hsafe : DrainSafe cfg (effect cfg s l))
    : drainHandover s l := by
  rw [(hinv.effect hguard).drainSafe_iff] at hsafe
  unfold drainHandover
  split
  . exact hsafe
  . trivial

theorem drainSafe_iff_drainHandover {ls : List Label}
    (hruns : (serveGraceful cfg).Runs (start cfg) ls)
    : (serveGraceful cfg).States (DrainSafe cfg) (start cfg) ls
        ↔ (serveGraceful cfg).Steps drainHandover (start cfg) ls := by
  apply Machine.states_iff_steps Inv
  . exact fun _ _ hinv hguard => hinv.effect hguard
  . exact fun _ _ hinv hsafe hguard hok => hsafe.effect hinv hguard hok
  . exact fun _ _ hinv _ hguard hsafe => drainHandover_of_drainSafe hinv hguard hsafe
  . exact inv_start cfg
  . rw [(inv_start cfg).drainSafe_iff]
    exact fun _ _ => rfl
  . exact hruns

namespace Label

def lateHandover (task : Task) (session : Session) : List Label :=
  arrival task.src task.data ++ admission task.src task.data
    ++ [.env .stopAccepting, .listener .pollStop, .listener .pollNone, .listener .tick,
      .listener .readMap]
    -- the map was read and the pending set was not
    ++ opening 0 task session ++ handover 0 task session

end Label

theorem drained_with_live_session
    : let run := Label.lateHandover dnsQuery (dnsSession 0) ++ [.listener .drained]
      let s := (serveGraceful dnsProxy).exec (start dnsProxy) run
      (serveGraceful dnsProxy).Runs (start dnsProxy) run
        ∧ s.listener = .left .drained
        ∧ s.sessions.lookup dnsClient = some (dnsSession 0)
        ∧ (s.cells 0).cancel = false ∧ s.forceShutdown = false := by
  decide

theorem drainSafe_iff_drainHandover_lateHandover
    : ¬ (serveGraceful dnsProxy).States (DrainSafe dnsProxy) (start dnsProxy)
        (Label.lateHandover dnsQuery (dnsSession 0)) := by
  rw [drainSafe_iff_drainHandover (by decide)]
  decide

/--
The listener marks a source only while the map has no entry for it: no setup task has handed its
session over since the listener looked the source up.
-/
def markAbsent (s : State) : Label → Prop
  | .listener (.mark src _) => src ∉ s.sessions
  | _ => True

instance (s : State) (l : Label) : Decidable (markAbsent s l) :=
  decidable_of_bool
    (match l with
      | .listener (.mark src _) => src ∉ s.sessions
      | _ => true)
    (by unfold markAbsent; split <;> simp)

def SetupPc.awaited (src : SocketAddr) : SetupPc → Multiset SocketAddr
  | .finished _ => 0
  | .done => 0
  | _ => {src}

def State.awaited (s : State) : Multiset SocketAddr :=
  s.listener.marks + (s.tasks.map fun task => task.2.awaited task.1.src).sum

theorem State.awaited_le_marks (s : State) : s.awaited ≤ s.marks := by
  apply add_le_add le_rfl
  apply List.sum_le_sum
  intro task _
  cases h : task.2 <;> simp [SetupPc.awaited, SetupPc.marks]

theorem awaited_effect (cfg : ProxyConfig) (hguard : guard s l)
    : match l with
      | .listener (.mark src _) => (effect cfg s l).awaited = src ::ₘ s.awaited
      | .setup _ task (.insert _) => s.awaited = task.src ::ₘ (effect cfg s l).awaited
      | _ => (effect cfg s l).awaited ≤ s.awaited := by
  cases l with
  | env act => cases act <;> exact le_rfl
  | listener act =>
    have heffect := ListenerAct.marks_effect hguard
    cases act with
    | mark src data =>
      dsimp only at heffect ⊢
      simp only [State.awaited, effect, heffect.1, heffect.2, zero_add, Multiset.singleton_add]
      rfl
    | unmark src =>
      dsimp only at heffect ⊢
      simp only [State.awaited, effect, heffect.1, heffect.2, zero_add]
      apply Multiset.le_add_left
    | spawn src data slot =>
      dsimp only at heffect ⊢
      simp only [State.awaited, effect, heffect.1, heffect.2, zero_add]
      simp [ListenerAct.effect, SetupPc.awaited, add_comm]
    | _ => exact (congrArg (· + (s.tasks.map fun task => task.2.awaited task.1.src).sum) heffect).le
  | setup i task act =>
    rcases List.exists_sum_map_set (fun task => task.2.awaited task.1.src) hguard.1 with
      ⟨rest, hbefore, hafter⟩
    have hbefore : s.awaited = s.listener.marks + (act.pre.awaited task.src + rest) :=
      congrArg (s.listener.marks + ·) hbefore
    have hafter : (effect cfg s (.setup i task act)).awaited
        = s.listener.marks + (act.post.awaited task.src + rest) := by
      rw [State.awaited, listener_effect (by simp)]
      exact congrArg (s.listener.marks + ·) (hafter (task, act.post))
    cases act with
    | insert session =>
      dsimp only
      rw [hbefore, hafter]
      simp only [SetupAct.pre, SetupAct.post, SetupPc.awaited, zero_add]
      rw [add_left_comm, Multiset.singleton_add]
    | _ =>
      dsimp only
      rw [hbefore, hafter]
      simp [SetupAct.pre, SetupAct.post, SetupPc.awaited, Multiset.le_cons_self]
  | relay id side act => exact le_rfl
  | cleanup act => simp [effect, State.awaited]

def Absent (s : State) : Prop :=
  ∀ src ∈ s.awaited, src ∉ s.sessions

theorem Absent.effect (hinv : Inv s) (habsent : Absent s) (hguard : guard s l)
    (hok : markAbsent s l)
    : Absent (effect cfg s l) := by
  intro src hawaited hmem
  have heffect := awaited_effect cfg hguard
  rcases mem_sessions_effect hguard hmem with hsession | ⟨i, task, session, rfl, rfl⟩
  . split at heffect
    . rw [heffect, Multiset.mem_cons] at hawaited
      rcases hawaited with rfl | hawaited
      . exact hok hsession
      . exact habsent src hawaited hsession
    . have hawaited : src ∈ s.awaited := by
        rw [heffect]
        apply Multiset.mem_cons_of_mem hawaited
      exact habsent src hawaited hsession
    . exact habsent src (Multiset.mem_of_le heffect hawaited) hsession
  . -- the source that the insert takes off was awaited once
    have hnodup := Multiset.nodup_of_le s.awaited_le_marks hinv.marks_nodup
    dsimp only at heffect
    rw [heffect, Multiset.nodup_cons] at hnodup
    exact hnodup.1 hawaited

theorem absent_of_reach (h : (serveGraceful cfg).Reach markAbsent (start cfg) s)
    : Inv s ∧ Absent s := by
  refine h.invariant (p := fun s => Inv s ∧ Absent s) ⟨inv_start cfg, ?_⟩ ?_
  . intro src h
    exact absurd h (Multiset.notMem_zero src)
  . rintro s l ⟨hinv, habsent⟩ hguard hok
    exact ⟨hinv.effect hguard, habsent.effect hinv hguard hok⟩

theorem SetupAct.awaited_pre {src : SocketAddr} {act : SetupAct}
    (hact : ∀ outcome, act ≠ .dropGuard outcome)
    : act.pre.awaited src = {src} := by
  cases act with
  | dropGuard outcome => exact absurd rfl (hact outcome)
  | _ => rfl

theorem mem_awaited_of_task {i : Nat} {task : Task} {act : SetupAct}
    (htask : s.tasks[i]? = some (task, act.pre)) (hact : ∀ outcome, act ≠ .dropGuard outcome)
    : task.src ∈ s.awaited := by
  rcases List.exists_sum_map_set (fun task => task.2.awaited task.1.src) htask with ⟨rest, hrest, _⟩
  rw [State.awaited, hrest, Multiset.mem_add, Multiset.mem_add]
  right
  left
  rw [SetupAct.awaited_pre hact]
  apply Multiset.mem_singleton_self

theorem notMem_sessions_of_markAbsent
    (h : (serveGraceful cfg).Reach markAbsent (start cfg) s) {i : Nat} {task : Task}
    {session : Session} (hguard : (serveGraceful cfg).guard s (.setup i task (.insert session)))
    : task.src ∉ s.sessions := by
  apply (absent_of_reach h).2
  apply mem_awaited_of_task hguard.1
  simp

namespace Label

def lateMark (task : Task) (fst snd : Session) : List Label :=
  arrival task.src task.data ++ admission task.src task.data
    ++ [.setup 0 task (.openOk fst.slot fst.id)]
    ++ arrival task.src task.data
    -- the second datagram has missed the map and is not marked yet
    ++ [.setup 0 task (.pass fst), .setup 0 task (.trySend fst)] ++ handover 0 task fst
    ++ admission task.src task.data ++ opening 1 { task with born := 1 } snd

end Label

theorem insert_over_live_session
    : let run := Label.lateMark dnsQuery (dnsSession 0) (dnsSession 1)
      let s := (serveGraceful dnsProxy).exec (start dnsProxy) run
      (serveGraceful dnsProxy).Runs (start dnsProxy) run
        ∧ (serveGraceful dnsProxy).guard s
            (.setup 1 { dnsQuery with born := 1 } (.insert (dnsSession 1)))
        ∧ s.sessions.lookup dnsClient = some (dnsSession 0)
        ∧ (s.cells 0).cancel = false ∧ s.forceShutdown = false := by
  decide

theorem notMem_sessions_of_markAbsent_first
    : let run := Label.arrival dnsClient [1] ++ Label.admission dnsClient [1]
        ++ Label.opening 0 dnsQuery (dnsSession 0)
      dnsClient ∉ ((serveGraceful dnsProxy).exec (start dnsProxy) run).sessions := by
  intro run
  have hreach : (serveGraceful dnsProxy).Reach markAbsent (start dnsProxy) _ :=
    Machine.Reach.refl.exec (show (serveGraceful dnsProxy).Runs _ run by decide) (by decide)
  exact @notMem_sessions_of_markAbsent dnsProxy _ hreach 0 dnsQuery (dnsSession 0) (by decide)

end Udp
