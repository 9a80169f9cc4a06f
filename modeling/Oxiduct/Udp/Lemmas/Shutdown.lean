import Mathlib.Algebra.Order.BigOperators.Group.Finset
import Mathlib.Algebra.Ring.Nat
import Oxiduct.Machine.Progress
import Oxiduct.Udp.Lemmas.Close
import Oxiduct.Udp.Lemmas.Ownership
import Oxiduct.Udp.Lemmas.Relay

/-!
This module contains the forced shutdown of the UDP proxy: from wherever its tasks are when the token
is set, their own steps let `serve_graceful` return and every task it spawned end.
-/

namespace Udp

open Limits Machine

variable {cfg : ProxyConfig} {s : State} {l : Label}

/--
The steps that wait for no datagram and no timer once `force_shutdown` is set. `open_session` then
fails in its first branch, and the session map goes away with the last task that holds it.
-/
def Label.isOwn : Label → Bool
  | .env .teardown => true
  | .env _ => false
  | .listener .pollNone => false
  | .listener .pollStop => false
  | .listener .tick => false
  | .listener (.recv ..) => false
  | .listener .recvErr => false
  | .listener _ => true
  | .setup _ _ (.openOk ..) => false
  | .setup _ _ (.pass _) => false
  | .setup .. => true
  | .relay _ _ .stop => true
  | .relay _ _ (.sent _) => true
  | .relay _ _ .cancel => true
  | .relay .. => false
  | .cleanup (.notified ..) => false
  | .cleanup (.timer ..) => false
  | .cleanup _ => true

theorem forceShutdown_of_isOwn (hl : l.isOwn = true)
    : (effect cfg s l).forceShutdown = s.forceShutdown := by
  cases l with
  | env act =>
    cases act with
    | teardown => rfl
    | _ => cases hl
  | listener act => cases act <;> rfl
  | setup i task act => cases act <;> rfl
  | relay id side act => rfl
  | cleanup act => exact act.forceShutdown_effect cfg s

def ListenerPc.Cause (s : State) : ListenerPc → Prop
  | .drainMap => s.stopAccepting = true
  | .drainPending _ => s.stopAccepting = true
  | .shutdown => s.forceShutdown = true
  | .left .drained => s.stopAccepting = true
  | .returned .drained => s.stopAccepting = true
  | .left (.forced _) => s.forceShutdown = true
  | .returned (.forced _) => s.forceShutdown = true
  | _ => True

structure Caused (s : State) : Prop where
  draining : s.draining = true → s.stopAccepting = true
  listener : s.listener.Cause s

theorem ListenerPc.Cause.mono {s t : State} {pc : ListenerPc} (h : pc.Cause s)
    (hstop : s.stopAccepting = true → t.stopAccepting = true)
    (hforce : s.forceShutdown = true → t.forceShutdown = true)
    : pc.Cause t := by
  unfold ListenerPc.Cause at *
  split at h
  . exact hstop h
  . exact hstop h
  . exact hforce h
  . exact hstop h
  . exact hstop h
  . exact hforce h
  . exact hforce h
  . trivial

theorem Caused.effect (h : Caused s) (hguard : guard s l) : Caused (effect cfg s l) := by
  have hlistener := h.listener
  cases l with
  | env act =>
    cases act with
    | stopAccepting => exact ⟨fun _ => rfl, hlistener.mono (fun _ => rfl) id⟩
    | forceShutdown => exact ⟨h.draining, hlistener.mono id fun _ => rfl⟩
    | advance now => exact ⟨h.draining, hlistener.mono id id⟩
    | teardown => exact ⟨h.draining, hlistener.mono id id⟩
  | listener act =>
    cases act with
    | pollForce => exact ⟨h.draining, hguard.2⟩
    | pollStop => exact ⟨fun _ => hguard.2.2.1, trivial⟩
    | tick => exact ⟨h.draining, h.draining hguard.2⟩
    | readMap =>
      rw [show s.listener = .drainMap from hguard] at hlistener
      exact ⟨h.draining, hlistener⟩
    | drained =>
      rw [hguard.1] at hlistener
      exact ⟨h.draining, hlistener⟩
    | shutdown =>
      rw [show s.listener = .shutdown from hguard] at hlistener
      exact ⟨h.draining, hlistener⟩
    | leave how =>
      rw [show s.listener = .left how from hguard] at hlistener
      refine ⟨h.draining, ?_⟩
      cases how <;> exact hlistener
    | _ => exact ⟨h.draining, trivial⟩
  | setup i task act => cases act <;> exact ⟨h.draining, hlistener.mono id id⟩
  | relay cell side act => exact ⟨h.draining, hlistener.mono id id⟩
  | cleanup act =>
    constructor
    . simp only [Udp.effect, CleanupAct.draining_effect, CleanupAct.stopAccepting_effect]
      exact h.draining
    . simp only [Udp.effect, CleanupAct.listener_effect]
      apply hlistener.mono
      . rw [CleanupAct.stopAccepting_effect]
        exact id
      . rw [CleanupAct.forceShutdown_effect]
        exact id

theorem caused_of_reach {ok : State → Label → Prop}
    (hreach : (serveGraceful cfg).Reach ok (start cfg) s)
    : Caused s :=
  have hstart : Caused (start cfg) := ⟨by simp [start], trivial⟩
  hreach.invariant hstart fun _ _ h hguard _ => h.effect hguard

theorem Caused.of_returned (h : Caused s) (hreturned : s.listener.isReturned = true)
    : s.stopAccepting = true ∨ s.forceShutdown = true := by
  have hcause := h.listener
  cases hpc : s.listener with
  | returned how =>
    rw [hpc] at hcause
    cases how with
    | drained => exact .inl hcause
    | forced found => exact .inr hcause
  | _ =>
    rw [hpc] at hreturned
    cases hreturned

theorem forceShutdown_mono (h : s.forceShutdown = true)
    : (effect cfg s l).forceShutdown = true := by
  cases l with
  | env act =>
    cases act with
    | forceShutdown => rfl
    | _ => exact h
  | listener act => cases act <;> exact h
  | setup i task act => cases act <;> exact h
  | relay id side act => exact h
  | cleanup act => exact (act.forceShutdown_effect cfg s).trans h

theorem Caused.of_counted (h : Caused s) (hguard : guard s l) {entry : Nat × CloseReason}
    (hmem : entry ∈ counted cfg s l) (hentry : entry.2 = .shutdown)
    : s.forceShutdown = true := by
  unfold counted at hmem
  split at hmem
  . rw [List.mem_singleton.mp hmem] at hentry
    cases hentry
  . have hcause := h.listener
    rw [show s.listener = .shutdown from hguard] at hcause
    exact hcause
  . rcases List.mem_map.mp hmem with ⟨session, _, rfl⟩
    dsimp only at hentry
    split at hentry <;> cases hentry
  . cases hmem

theorem forced_of_cut {ok : State → Label → Prop}
    (hreach : (serveGraceful cfg).Reach ok (start cfg) s) {entry : Nat × CloseReason}
    (hmem : entry ∈ s.closed) (hentry : entry.2 = .shutdown)
    : s.forceShutdown = true := by
  induction hreach with
  | refl => cases hmem
  | step l hreach hguard _ ih =>
    apply forceShutdown_mono
    rcases List.mem_append.mp (closed_effect cfg _ l ▸ hmem) with hmem | hmem
    . exact ih hmem
    . exact (caused_of_reach hreach).of_counted hguard hmem hentry

def ListenerPc.rank : ListenerPc → Nat
  | .returned _ => 0
  | .left _ => 1
  | .shutdown => 2
  | .select => 3
  | .polled => 3
  | .drainPending _ => 4
  | .rejected _ => 4
  | .drainMap => 5
  -- the task this spawns has two steps left
  | .admitted .. => 6
  | .marked .. => 7
  | .slow .. => 8
  | .lookup .. => 9

def SetupPc.rank : SetupPc → Nat
  | .done => 0
  | .finished _ => 1
  | .opening _ => 2
  | .aborting _ => 2
  | .sent _ => 2
  | .opened _ => 3
  | .checked _ => 3

def CleanupPc.rank : CleanupPc → Nat
  | .done => 0
  | .waiting .. => 1
  | .compute => 2
  | .locking _ => 3
  | .fired => 4

namespace State

def setupRank (s : State) : Nat :=
  (s.tasks.map fun task => task.2.rank).sum

def relayRank (s : State) : Nat :=
  ∑ id ∈ Finset.range s.nextId, ((s.cells id).up.steps + (s.cells id).down.steps)

def rank (s : State) : Nat :=
  s.listener.rank + s.cleanup.rank + s.setupRank + s.relayRank

end State

theorem relayRank_effect (cfg : ProxyConfig) (hguard : guard s l) (hl : ∀ id, isRelayOf id l = false)
    (hmade : made l = [])
    : (effect cfg s l).relayRank = s.relayRank := by
  unfold State.relayRank
  rw [nextId_effect, hmade]
  apply Finset.sum_congr rfl
  intro id hid
  have hlt := Finset.mem_range.mp hid
  have hup : ((effect cfg s l).cells id).up = (s.cells id).up :=
    pc_effect cfg hguard hlt (hl id) .up
  have hdown : ((effect cfg s l).cells id).down = (s.cells id).down :=
    pc_effect cfg hguard hlt (hl id) .down
  rw [hup, hdown]

def Advances (cfg : ProxyConfig) (s : State) (l : Label) : Prop :=
  guard s l ∧ l.isOwn = true ∧ (effect cfg s l).rank < s.rank

theorem advances_listener {act : ListenerAct} (hguard : act.guard s)
    (hown : Label.isOwn (.listener act) = true)
    (hcleanup : (act.effect s).cleanup = s.cleanup)
    (hrank : (act.effect s).listener.rank + (act.effect s).setupRank
      < s.listener.rank + s.setupRank)
    : Advances cfg s (.listener act) := by
  refine ⟨hguard, hown, ?_⟩
  have hrelay := relayRank_effect (l := .listener act) cfg hguard (fun _ => rfl) rfl
  simp only [State.rank, hrelay]
  simp only [effect, hcleanup]
  omega

theorem advances_to (act : ListenerAct) {pc : ListenerPc} (next : ListenerPc)
    (hpc : s.listener = pc) (hguard : act.guard s)
    (heffect : (act.effect s).listener = next ∧ (act.effect s).tasks = s.tasks
      ∧ (act.effect s).cleanup = s.cleanup)
    (hown : Label.isOwn (.listener act) = true) (hlt : next.rank < pc.rank)
    : ∃ act, Advances cfg s (.listener act) := by
  refine ⟨act, advances_listener hguard hown heffect.2.2 ?_⟩
  rw [State.setupRank, heffect.2.1, heffect.1, hpc, State.setupRank]
  omega

theorem exists_handling_step (hselect : s.listener ≠ .select) (hpolled : s.listener ≠ .polled)
    (hreturned : ∀ how, s.listener ≠ .returned how)
    : ∃ act, Advances cfg s (.listener act) := by
  cases hpc : s.listener with
  | select => exact absurd hpc hselect
  | polled => exact absurd hpc hpolled
  | drainMap =>
    exact advances_to .readMap (.drainPending (s.sessions.size = 0)) hpc hpc ⟨rfl, rfl, rfl⟩ rfl
      (by simp [ListenerPc.rank])
  | drainPending noSessions =>
    by_cases hdrained : noSessions = true ∧ s.pending = ∅
    . rcases hdrained with ⟨rfl, hpending⟩
      exact advances_to .drained (.left .drained) hpc ⟨hpc, hpending⟩ ⟨rfl, rfl, rfl⟩ rfl
        (by decide)
    . exact advances_to (.undrained noSessions) .select hpc ⟨hpc, hdrained⟩ ⟨rfl, rfl, rfl⟩ rfl
        (by simp [ListenerPc.rank])
  | shutdown =>
    exact advances_to .shutdown (.left (.forced (s.sessionList.map Session.id))) hpc hpc
      ⟨rfl, rfl, rfl⟩ rfl (by simp [ListenerPc.rank])
  | lookup src data =>
    cases hlookup : s.sessions.lookup src with
    | none =>
      exact advances_to (.miss src data) (.slow src data) hpc ⟨hpc, hlookup⟩ ⟨rfl, rfl, rfl⟩ rfl
        (by simp [ListenerPc.rank])
    | some session =>
      cases hcancel : (s.cells session.id).cancel with
      | false =>
        exact advances_to (.hit src data session) .select hpc ⟨hpc, hlookup, hcancel⟩
          ⟨rfl, rfl, rfl⟩ rfl (by simp [ListenerPc.rank])
      | true =>
        exact advances_to (.evict src data session) (.slow src data) hpc ⟨hpc, hlookup, hcancel⟩
          ⟨rfl, rfl, rfl⟩ rfl (by simp [ListenerPc.rank])
  | slow src data =>
    cases hdraining : s.draining with
    | true =>
      exact advances_to (.dropDraining src data) .select hpc ⟨hpc, hdraining⟩ ⟨rfl, rfl, rfl⟩ rfl
        (by simp [ListenerPc.rank])
    | false =>
      by_cases hpending : src ∈ s.pending
      . exact advances_to (.dropPending src data) .select hpc ⟨hpc, hdraining, hpending⟩
          ⟨rfl, rfl, rfl⟩ rfl (by simp [ListenerPc.rank])
      . exact advances_to (.mark src data) (.marked src data) hpc ⟨hpc, hdraining, hpending⟩
          ⟨rfl, rfl, rfl⟩ rfl (by simp [ListenerPc.rank])
  | marked src data =>
    cases hresult : (s.limits.tryAcquire src.ip).result with
    | ok slot =>
      exact advances_to (.acquire src data slot) (.admitted src data slot) hpc ⟨hpc, hresult⟩
        ⟨rfl, rfl, rfl⟩ rfl (by simp [ListenerPc.rank])
    | error why =>
      exact advances_to (.reject src data why) (.rejected src) hpc ⟨hpc, hresult⟩
        ⟨rfl, rfl, rfl⟩ rfl (by simp [ListenerPc.rank])
  | admitted src data slot =>
    refine ⟨.spawn src data slot, advances_listener hpc rfl rfl ?_⟩
    simp only [ListenerAct.effect, hpc, ListenerPc.rank, State.setupRank, SetupPc.rank,
      List.map_append, List.map_cons, List.map_nil, List.sum_append, List.sum_cons, List.sum_nil]
    omega
  | rejected src =>
    exact advances_to (.unmark src) .select hpc hpc ⟨rfl, rfl, rfl⟩ rfl (by simp [ListenerPc.rank])
  | left how =>
    exact advances_to (.leave how) (.returned how) hpc hpc ⟨rfl, rfl, rfl⟩ rfl
      (by simp [ListenerPc.rank])
  | returned how => exact absurd hpc (hreturned how)

theorem exists_listener_step (hforce : s.forceShutdown = true)
    (hreturned : ∀ how, s.listener ≠ .returned how)
    : ∃ l, Advances cfg s l := by
  by_cases hwaiting : s.listener = .select ∨ s.listener = .polled
  . refine ⟨.listener .pollForce, advances_listener ⟨hwaiting, hforce⟩ rfl rfl ?_⟩
    rcases hwaiting with hpc | hpc <;>
      simp [ListenerAct.effect, hpc, ListenerPc.rank, State.setupRank]
  . rcases not_or.mp hwaiting with ⟨hselect, hpolled⟩
    rcases exists_handling_step hselect hpolled hreturned with ⟨act, hadvances⟩
    exact ⟨_, hadvances⟩

theorem exists_cleanup_step (hforce : s.forceShutdown = true) (hdone : s.cleanup ≠ .done)
    : ∃ l, Advances cfg s l := by
  have hadvances : ∀ act : CleanupAct, act.guard s → Label.isOwn (.cleanup act) = true →
      (act.effect cfg s).cleanup.rank < s.cleanup.rank → Advances cfg s (.cleanup act) := by
    intro act hguard hown hlt
    refine ⟨hguard, hown, ?_⟩
    have hrelay := relayRank_effect (l := .cleanup act) cfg hguard (fun _ => rfl) rfl
    simp only [State.rank, hrelay]
    simp only [effect, State.setupRank, CleanupAct.listener_effect, CleanupAct.tasks_effect]
    omega
  cases hpc : s.cleanup with
  | compute =>
    refine ⟨_, hadvances .compute hpc rfl ?_⟩
    simp [CleanupAct.effect, hpc, CleanupPc.rank]
  | waiting since wait =>
    refine ⟨_, hadvances (.stop since wait) ⟨hpc, .inr hforce⟩ rfl ?_⟩
    simp [CleanupAct.effect, hpc, CleanupPc.rank]
  | fired =>
    refine ⟨_, hadvances .readClock hpc rfl ?_⟩
    simp [CleanupAct.effect, hpc, CleanupPc.rank]
  | locking now =>
    refine ⟨_, hadvances (.retain now) hpc rfl ?_⟩
    simp [CleanupAct.effect, hpc, CleanupPc.rank]
  | done => exact absurd hpc hdone

theorem exists_setup_step (hforce : s.forceShutdown = true) {i : Nat} {task : Task} {pc : SetupPc}
    (hi : s.tasks[i]? = some (task, pc)) (hdone : pc ≠ .done)
    : ∃ l, Advances cfg s l := by
  have hadvances : ∀ act : SetupAct, act.pre = pc → act.guard s →
      Label.isOwn (.setup i task act) = true → act.post.rank < pc.rank →
      Advances cfg s (.setup i task act) := by
    rintro act rfl hguard hown hlt
    have hstep : guard s (.setup i task act) := ⟨hi, hguard⟩
    refine ⟨hstep, hown, ?_⟩
    have hmade : made (.setup i task act) = [] := by
      cases act with
      | openOk slot id => cases hown
      | _ => rfl
    have hrelay := relayRank_effect cfg hstep (fun _ => rfl) hmade
    rcases List.exists_sum_map_set (fun task => task.2.rank) hi with ⟨rest, hbefore, hafter⟩
    have hsetup : (effect cfg s (.setup i task act)).setupRank = act.post.rank + rest :=
      hafter (task, act.post)
    have hcleanup : (effect cfg s (.setup i task act)).cleanup = s.cleanup := by
      cases act <;> rfl
    have hlistener : (effect cfg s (.setup i task act)).listener = s.listener :=
      listener_effect (by simp)
    simp only [State.rank, hrelay, hsetup, hcleanup, hlistener]
    simp only [State.setupRank, hbefore]
    omega
  cases pc with
  | opening slot =>
    exact ⟨_, hadvances (.openErr slot) rfl trivial rfl (by simp [SetupAct.post, SetupPc.rank])⟩
  | opened session =>
    exact ⟨_, hadvances (.abort session) rfl hforce rfl (by simp [SetupAct.post, SetupPc.rank])⟩
  | checked session =>
    exact ⟨_, hadvances (.trySend session) rfl trivial rfl (by simp [SetupAct.post, SetupPc.rank])⟩
  | sent session =>
    exact ⟨_, hadvances (.insert session) rfl trivial rfl (by simp [SetupAct.post, SetupPc.rank])⟩
  | aborting session =>
    exact ⟨_, hadvances (.dropSession session) rfl trivial rfl
      (by simp [SetupAct.post, SetupPc.rank])⟩
  | finished outcome =>
    exact ⟨_, hadvances (.dropGuard outcome) rfl trivial rfl
      (by simp [SetupAct.post, SetupPc.rank])⟩
  | done => exact absurd rfl hdone

theorem RelayAct.own_steps_lt {act : RelayAct} {id : Nat} {side : Side}
    (hguard : act.guard s id side) (hown : Label.isOwn (.relay id side act) = true) (now : Nat)
    : ((act.apply now side (s.cells id)).pc side).steps < ((s.cells id).pc side).steps := by
  cases act with
  | stop =>
    have hnext : (RelayAct.stop.apply now side (s.cells id)).pc side = .exit := by
      cases side <;> rfl
    rcases hguard.1 with hpc | hpc <;> rw [hnext, hpc] <;> decide
  | sent data =>
    have hnext : ((RelayAct.sent data).apply now side (s.cells id)).pc side = .select := by
      cases side <;> rfl
    rw [hnext, show (s.cells id).pc side = .send data from hguard]
    simp [RelayPc.steps]
  | cancel =>
    have hnext : (RelayAct.cancel.apply now side (s.cells id)).pc side = .done := by
      cases side <;> rfl
    rw [hnext, show (s.cells id).pc side = .exit from hguard]
    decide
  | _ => cases hown

theorem exists_relay_step (hforce : s.forceShutdown = true) {id : Nat} (hlt : id < s.nextId)
    {side : Side} (hdone : (s.cells id).pc side ≠ .done)
    : ∃ l, Advances cfg s l := by
  have hact : ∃ act : RelayAct, act.guard s id side ∧ Label.isOwn (.relay id side act) = true := by
    cases hpc : (s.cells id).pc side with
    | select => exact ⟨.stop, ⟨.inl hpc, .inl hforce⟩, rfl⟩
    | polled => exact ⟨.stop, ⟨.inr hpc, .inl hforce⟩, rfl⟩
    | send data => exact ⟨.sent data, hpc, rfl⟩
    | exit => exact ⟨.cancel, hpc, rfl⟩
    | done => exact absurd hpc hdone
  rcases hact with ⟨act, hguard, hown⟩
  have hstep : guard s (.relay id side act) := ⟨hlt, hguard⟩
  refine ⟨.relay id side act, hstep, hown, ?_⟩
  have hcell : (act.apply s.now side (s.cells id)).up.steps
        + (act.apply s.now side (s.cells id)).down.steps
      < (s.cells id).up.steps + (s.cells id).down.steps := by
    have hown := act.own_steps_lt hguard hown s.now
    cases side with
    | up =>
      have hother : (act.apply s.now .up (s.cells id)).down = (s.cells id).down :=
        Cell.pc_apply (s.cells id) s.now act (show Side.down ≠ .up by simp)
      rw [hother]
      exact Nat.add_lt_add_right hown _
    | down =>
      have hother : (act.apply s.now .down (s.cells id)).up = (s.cells id).up :=
        Cell.pc_apply (s.cells id) s.now act (show Side.up ≠ .down by simp)
      rw [hother]
      exact Nat.add_lt_add_left hown _
  have hrelay : (effect cfg s (.relay id side act)).relayRank < s.relayRank := by
    apply Finset.sum_lt_sum
    . intro id' _
      simp only [effect, RelayAct.effect, State.cells_updCell]
      split
      . next heq =>
        subst heq
        exact hcell.le
      . exact le_rfl
    . refine ⟨id, Finset.mem_range.mpr hlt, ?_⟩
      simpa only [effect, RelayAct.effect, State.cells_updCell, if_true] using hcell
  simp only [State.rank]
  exact Nat.add_lt_add_left hrelay _

structure Ended (s : State) : Prop where
  listener : ∃ how, s.listener = .returned how
  cleanup : s.cleanup = .done
  setups : ∀ task ∈ s.tasks, task.2 = .done
  relays : ∀ id < s.nextId, ∀ side, (s.cells id).pc side = .done

theorem exists_own_step (hforce : s.forceShutdown = true) (hended : ¬ Ended s)
    : ∃ l, Advances cfg s l := by
  by_contra hnone
  apply hended
  constructor
  . by_contra hreturned
    exact hnone (exists_listener_step hforce (by simpa using hreturned))
  . by_contra hcleanup
    exact hnone (exists_cleanup_step hforce hcleanup)
  . intro task hmem
    by_contra hdone
    rcases List.getElem?_of_mem hmem with ⟨i, hi⟩
    exact hnone (exists_setup_step hforce hi hdone)
  . intro id hlt side
    by_contra hdone
    exact hnone (exists_relay_step hforce hlt hdone)

theorem canReach_ended (hforce : s.forceShutdown = true)
    : (serveGraceful cfg).CanReach Label.isOwn s
        fun t => t.forceShutdown = true ∧ Ended t := by
  refine CanReach.of_measure (fun t => t.forceShutdown = true) State.rank ?_ hforce
  intro t ht hended
  rcases exists_own_step ht hended with ⟨l, hguard, hown, hlt⟩
  exact ⟨l, hguard, hown, (forceShutdown_of_isOwn hown).trans ht, hlt⟩

def ListenerPc.demand : ListenerPc → Nat
  | .lookup .. => 1
  | .slow .. => 1
  | .marked .. => 1
  | _ => 0

theorem ListenerPc.demand_le (pc : ListenerPc) : pc.demand ≤ 1 := by
  cases pc <;> simp [demand]

theorem ListenerAct.demand_effect {act : ListenerAct} (hguard : act.guard s)
    (hown : Label.isOwn (.listener act) = true)
    : (granted (.listener act)).length + (act.effect s).listener.demand ≤ s.listener.demand := by
  cases act with
  | pollForce => exact Nat.zero_le _
  | undrained noSessions => exact Nat.zero_le _
  | shutdown => exact Nat.zero_le _
  | unmark src => exact Nat.zero_le _
  | spawn src data slot => exact Nat.zero_le _
  | leave how => exact Nat.zero_le _
  | readMap => exact Nat.zero_le _
  | pollNone => cases hown
  | pollStop => cases hown
  | tick => cases hown
  | recv src data => cases hown
  | recvErr => cases hown
  | _ => simp [granted, ListenerAct.effect, ListenerPc.demand, hguard.1]

theorem demand_effect (hguard : guard s l) (hown : l.isOwn = true)
    : (granted l).length + (effect cfg s l).listener.demand ≤ s.listener.demand := by
  by_cases hl : ∃ act, l = .listener act
  . rcases hl with ⟨act, rfl⟩
    exact act.demand_effect hguard hown
  . have hl : ∀ act, l ≠ .listener act := by simpa using hl
    have hgranted : granted l = [] := by
      unfold granted
      split
      . exact absurd rfl (hl _)
      . rfl
    rw [listener_effect hl, hgranted]
    exact Nat.le_of_eq (Nat.zero_add _)

theorem card_slots_effect (cfg : ProxyConfig) (hguard : guard s l)
    : (effect cfg s l).slots.card ≤ (granted l).length + s.slots.card := by
  have hcard := congrArg Multiset.card (slots_effect cfg hguard)
  simp only [Multiset.card_add, Multiset.coe_card, List.length_map] at hcard
  omega

theorem steps_roomy {ls : List Label}
    (hroom : 0 < cfg.maxConnections ∨ s.slots.card + s.listener.demand < 2 ^ 32)
    (hruns : (serveGraceful cfg).Runs s ls) (hall : ls.all Label.isOwn = true)
    : (serveGraceful cfg).Steps (roomy cfg) s ls := by
  induction ls generalizing s with
  | nil => trivial
  | cons l ls ih =>
    rw [List.all_cons, Bool.and_eq_true] at hall
    have hcard := card_slots_effect cfg hruns.1
    have hdemand : (granted l).length + (effect cfg s l).listener.demand ≤ s.listener.demand :=
      demand_effect hruns.1 hall.1
    have hnext : 0 < cfg.maxConnections
        ∨ (effect cfg s l).slots.card + (effect cfg s l).listener.demand < 2 ^ 32 :=
      hroom.imp_right fun hlt => by omega
    exact ⟨hnext.imp_right (Nat.lt_of_le_of_lt (Nat.le_add_right ..)),
      ih hnext hruns.2 hall.2⟩

structure Released (s : State) : Prop where
  ended : Ended s
  sessions : s.sessions = ∅
  pending : s.pending = ∅
  slots : s.limits.state.total = 0
  perIp : ∀ ip, s.limits.currentIp ip = 0

theorem Ended.canReach_dropped (h : Ended s)
    : (serveGraceful cfg).CanReach Label.isOwn s fun t => Ended t ∧ t.sessions = ∅ := by
  rcases h.listener with ⟨how, hpc⟩
  have hguard : guard s (.env .teardown) := ⟨by rw [hpc]; rfl, h.cleanup, h.setups⟩
  apply CanReach.step (show (serveGraceful cfg).guard s (.env .teardown) from hguard) rfl
  apply CanReach.refl
  refine ⟨⟨⟨how, hpc⟩, h.cleanup, h.setups, ?_⟩, rfl⟩
  intro id hlt side
  have hsame : ((effect cfg s (.env .teardown)).cells id).pc side = (s.cells id).pc side :=
    pc_effect cfg hguard hlt rfl side
  exact hsame.trans (h.relays id hlt side)

theorem Ended.released (h : Ended s) (hinv : Inv s) (hslots : SlotInv cfg s)
    (hsessions : s.sessions = ∅)
    : Released s := by
  rcases h.listener with ⟨how, hpc⟩
  have htasks : ∀ {M : Type} [AddCommMonoid M] (f : Task → SetupPc → M),
      (∀ task, f task .done = 0) → (s.tasks.map fun task => f task.1 task.2).sum = 0 := by
    intro M _ f hf
    apply List.sum_eq_zero
    intro x hx
    rcases List.mem_map.mp hx with ⟨task, hmem, rfl⟩
    simp only [h.setups task hmem, hf]
  have hslotsEq : s.slots = 0 := by
    rw [State.slots, State.sessionSlots, hsessions, hpc, State.taskSlots,
      htasks (fun _ pc => pc.slots) (fun _ => rfl)]
    rfl
  have hmarks : s.marks = 0 := by
    rw [State.marks, hpc, State.taskMarks,
      htasks (fun task pc => pc.marks task.src) (fun _ => rfl)]
    rfl
  constructor
  . exact h
  . exact hsessions
  . rw [← Finset.val_eq_zero, hinv.marks, hmarks]
  . rw [← UInt32.toNat_inj, hslots.tallies.total, hslotsEq]
    rfl
  . intro ip
    rw [← UInt32.toNat_inj, hslots.tallies.currentIp, hslotsEq]
    rfl

theorem sessions_shut_down (hreach : (serveGraceful cfg).Reach (roomy cfg) (start cfg) s)
    (hforce : s.forceShutdown = true)
    (hroom : 0 < cfg.maxConnections ∨ s.slots.card + 1 < 2 ^ 32)
    : (serveGraceful cfg).CanReach Label.isOwn s Released := by
  have hends : (serveGraceful cfg).CanReach Label.isOwn s fun t => Ended t ∧ t.sessions = ∅ :=
    (canReach_ended hforce).trans fun _ ht => ht.2.canReach_dropped
  rcases hends with ⟨ls, hruns, hall, hended, hsessions⟩
  have hdemand := s.listener.demand_le
  have hok : (serveGraceful cfg).Steps (roomy cfg) s ls :=
    steps_roomy (hroom.imp_right fun hlt => by omega) hruns hall
  have hlast := hreach.exec hruns hok
  have hinv := (resourceInv_of_reach hlast).inv
  exact ⟨ls, hruns, hall, hended.released hinv (slotInv_of_reach hlast) hsessions⟩

theorem sessions_shut_down_opening
    : let run := Label.arrival dnsClient [1] ++ Label.admission dnsClient [1]
        ++ Label.opening 0 dnsQuery (dnsSession 0) ++ [.env .forceShutdown]
      let s := (serveGraceful dnsProxy).exec (start dnsProxy) run
      (serveGraceful dnsProxy).CanReach Label.isOwn s Released := by
  intro run s
  have hreach : (serveGraceful dnsProxy).Reach (roomy dnsProxy) (start dnsProxy) s :=
    (show (serveGraceful dnsProxy).Runs _ run by decide).reachable.mono
      fun _ _ _ => .inl (by decide)
  exact sessions_shut_down hreach (by decide) (.inl (by decide))

end Udp
