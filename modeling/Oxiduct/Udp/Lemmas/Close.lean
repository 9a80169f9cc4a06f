import Oxiduct.Udp.Lemmas.Basic

/-!
This module contains the books of the UDP proxy: which steps count a session as closed, and when a
session is counted more than once.
-/

namespace Udp

open Limits

variable {cfg : ProxyConfig} {s : State} {l : Label}

namespace State

def closedIds (s : State) : List Nat :=
  s.closed.map Prod.fst

def found (s : State) : List Nat :=
  match s.listener.leave? with
  | some (.forced found) => found
  | _ => []

theorem found_of_leave {s : State} {found : List Nat}
    (h : s.listener.leave? = some (.forced found))
    : s.found = found := by
  rw [State.found, h]

theorem found_eq_nil {s : State} (h : s.listener.leave? = none) : s.found = [] := by
  rw [State.found, h]

end State

def counted (cfg : ProxyConfig) (s : State) : Label → List (Nat × CloseReason)
  | .listener (.evict _ _ session) => [(session.id, .error)]
  | .listener .shutdown => s.sessionList.map fun session => (session.id, .shutdown)
  | .cleanup (.retain now) =>
    (evicted cfg s (.cleanup (.retain now))).map fun session =>
      (session.id, if isDead s session then .error else .idleTimeout)
  | _ => []

theorem closed_effect (cfg : ProxyConfig) (s : State) (l : Label)
    : (effect cfg s l).closed = s.closed ++ counted cfg s l := by
  cases l with
  | env act => cases act <;> exact (List.append_nil _).symm
  | listener act =>
    cases act with
    | evict src data session => rfl
    | shutdown =>
      simp only [effect, ListenerAct.effect, counted, List.map_map]
      rfl
    | _ => exact (List.append_nil _).symm
  | setup i task act => cases act <;> exact (List.append_nil _).symm
  | relay id side act => exact (List.append_nil _).symm
  | cleanup act =>
    cases act with
    | retain now => rfl
    | _ => exact (List.append_nil _).symm

theorem closedIds_effect (cfg : ProxyConfig) (s : State) (l : Label)
    : (effect cfg s l).closedIds = s.closedIds ++ (counted cfg s l).map Prod.fst := by
  rw [State.closedIds, closed_effect, List.map_append]
  rfl

def leaving (s : State) : Label → Option Leave
  | .listener .drained => some .drained
  | .listener .shutdown => some (.forced (s.sessionList.map Session.id))
  | _ => none

theorem leave_effect (cfg : ProxyConfig) (hguard : guard s l)
    : (effect cfg s l).listener.leave? = (leaving s l).or s.listener.leave? := by
  cases l with
  | listener act =>
    by_cases hact : ∃ how, act = .leave how
    . rcases hact with ⟨how, rfl⟩
      rw [hguard]
      rfl
    . rw [leave_of_listener hguard fun how h => hact ⟨how, h⟩]
      cases act with
      | leave how => exact absurd ⟨how, rfl⟩ hact
      | _ => rfl
  | _ => exact congrArg ListenerPc.leave? (listener_effect (by simp))

theorem leaving_eq_none (hdrained : l ≠ .listener .drained) (hshutdown : l ≠ .listener .shutdown)
    : leaving s l = none := by
  unfold leaving
  split
  . exact absurd rfl hdrained
  . exact absurd rfl hshutdown
  . rfl

theorem found_effect (cfg : ProxyConfig) (hguard : guard s l)
    : (effect cfg s l).found
        = if l = .listener .shutdown then s.sessionList.map Session.id else s.found := by
  split
  . next hl =>
    subst hl
    rfl
  . next hl =>
    by_cases hdrained : l = .listener .drained
    . subst hdrained
      rw [State.found_eq_nil (leave_of_listener hguard (by simp))]
      rfl
    . rw [State.found, leave_effect cfg hguard, leaving_eq_none hdrained hl]
      rfl

theorem counted_sublist (cfg : ProxyConfig) (hguard : guard s l)
    : ((counted cfg s l).map Prod.fst).Sublist (s.sessionList.map Session.id) := by
  unfold counted
  split
  . next session =>
    rw [List.map_singleton, List.singleton_sublist]
    exact List.mem_map.mpr ⟨session, State.mem_sessionList.mpr ⟨_, hguard.2.1⟩, rfl⟩
  . rw [List.map_map]
    apply List.Sublist.refl
  . rw [List.map_map]
    exact List.filter_sublist.map Session.id
  . apply List.nil_sublist

theorem mem_ids_of_mem_counted (hguard : guard s l) {id : Nat}
    (h : id ∈ (counted cfg s l).map Prod.fst)
    : id ∈ s.ids := by
  rcases List.mem_map.mp ((counted_sublist cfg hguard).subset h) with ⟨session, hmem, rfl⟩
  exact mem_ids_of_mem_sessionList hmem

theorem Owned.nodup_sessionList (howned : Owned s) : (s.sessionList.map Session.id).Nodup := by
  have := howned.nodup
  rw [State.ids, State.held, Multiset.map_add, Multiset.nodup_add] at this
  exact this.1

theorem mem_dropped_of_mem_counted (hl : l ≠ .listener .shutdown) {id : Nat}
    (h : id ∈ (counted cfg s l).map Prod.fst)
    : id ∈ (dropped cfg s l).map Session.id := by
  unfold counted at h
  split at h
  . exact h
  . exact absurd rfl hl
  . rw [List.map_map] at h
    exact h
  . simp at h

/--
A session that was counted is gone, unless the force_shutdown branch counted it: then it is cancelled
and may still be in the map.
-/
structure Counted (s : State) : Prop where
  lt : ∀ id ∈ s.closedIds, id < s.nextId
  found : ∀ id ∈ s.closedIds, id ∈ s.ids → id ∈ s.found
  closed : ∀ id ∈ s.found, id ∈ s.closedIds
  cancel : ∀ id ∈ s.found, (s.cells id).cancel = true

theorem counted_start (cfg : ProxyConfig) : Counted (start cfg) := by
  constructor <;> simp [start, State.closedIds, State.found, ListenerPc.leave?]

theorem Counted.effect (hinv : Inv s) (hcounted : Counted s) (hguard : guard s l)
    : Counted (effect cfg s l) := by
  have hlt : ∀ id ∈ (Udp.effect cfg s l).closedIds, id < s.nextId := by
    intro id hid
    rw [closedIds_effect, List.mem_append] at hid
    rcases hid with hid | hid
    . exact hcounted.lt id hid
    . exact hinv.owned.lt id (mem_ids_of_mem_counted hguard hid)
  constructor
  . intro id hid
    rw [nextId_effect]
    apply Nat.lt_add_right _ (hlt id hid)
  . intro id hid hids
    have hold : id ∈ s.ids ∧ id ∉ (dropped cfg s l).map Session.id := by
      rw [mem_ids_effect cfg hinv.owned hguard] at hids
      refine ⟨hids.2.resolve_left ?_, hids.1⟩
      intro hmade
      rcases List.mem_map.mp hmade with ⟨session, hsession, rfl⟩
      have := hlt _ hid
      rw [id_of_mem_made hguard hsession] at this
      exact Nat.lt_irrefl _ this
    rw [closedIds_effect, List.mem_append] at hid
    rw [found_effect cfg hguard]
    split
    . next hl =>
      subst hl
      rcases hid with hid | hid
      . have := hcounted.found id hid hold.1
        rw [State.found_eq_nil (leave_of_listener hguard (by simp))] at this
        exact absurd this List.not_mem_nil
      . exact (counted_sublist cfg hguard).subset hid
    . next hl =>
      rcases hid with hid | hid
      . exact hcounted.found id hid hold.1
      . exact absurd (mem_dropped_of_mem_counted hl hid) hold.2
  . intro id hid
    rw [closedIds_effect, List.mem_append]
    rw [found_effect cfg hguard] at hid
    split at hid
    . next hl =>
      subst hl
      right
      rw [counted, List.map_map]
      exact hid
    . exact .inl (hcounted.closed id hid)
  . intro id hid
    rw [found_effect cfg hguard] at hid
    split at hid
    . next hl =>
      subst hl
      simp [Udp.effect, ListenerAct.effect, hid]
    . apply cancel_effect cfg hguard
      . exact hcounted.lt id (hcounted.closed id hid)
      . exact hcounted.cancel id hid

/--
No retain pass runs while the map still holds a session that the force_shutdown branch counted.
-/
def retainFresh (s : State) : Label → Prop
  | .cleanup (.retain _) => ∀ session ∈ s.sessionList, session.id ∉ s.found
  | _ => True

instance (s : State) (l : Label) : Decidable (retainFresh s l) :=
  decidable_of_bool
    (match l with
      | .cleanup (.retain _) => ∀ session ∈ s.sessionList, session.id ∉ s.found
      | _ => true)
    (by unfold retainFresh; split <;> simp)

def ClosedOnce (s : State) : Prop :=
  s.closedIds.Nodup

theorem Counted.retainFresh_iff (cfg : ProxyConfig) (hcounted : Counted s) (hguard : guard s l)
    : retainFresh s l ↔ ∀ id ∈ (counted cfg s l).map Prod.fst, id ∉ s.closedIds := by
  constructor
  . intro hok id hid hclosed
    have hfound := hcounted.found id hclosed (mem_ids_of_mem_counted hguard hid)
    unfold counted at hid
    split at hid
    . rw [State.found_eq_nil (leave_of_listener hguard (by simp))] at hfound
      exact absurd hfound List.not_mem_nil
    . rw [State.found_eq_nil (leave_of_listener hguard (by simp))] at hfound
      exact absurd hfound List.not_mem_nil
    . rw [List.map_map] at hid
      rcases List.mem_map.mp hid with ⟨session, hmem, rfl⟩
      exact hok session (List.mem_filter.mp hmem).1 hfound
    . simp at hid
  . intro hfresh
    unfold retainFresh
    split
    . next now =>
      intro session hmem hfound
      -- the branch cancelled it, so the pass evicts it
      have hdead : isDead s session = true := hcounted.cancel _ hfound
      apply hfresh session.id _ (hcounted.closed _ hfound)
      rw [counted, List.map_map]
      exact List.mem_map.mpr ⟨session, List.mem_filter.mpr ⟨hmem, by simp [hdead]⟩, rfl⟩
    . trivial

theorem ClosedOnce.effect_iff (hinv : Inv s) (hcounted : Counted s) (honce : ClosedOnce s)
    (hguard : guard s l)
    : ClosedOnce (effect cfg s l) ↔ retainFresh s l := by
  have hnodup := hinv.owned.nodup_sessionList.sublist (counted_sublist cfg hguard)
  rw [hcounted.retainFresh_iff cfg hguard, ClosedOnce, closedIds_effect,
    List.nodup_append']
  constructor
  . rintro ⟨_, _, hdisjoint⟩ id hid hclosed
    exact hdisjoint hclosed hid
  . intro hfresh
    exact ⟨honce, hnodup, fun id hclosed hid => hfresh id hid hclosed⟩

theorem closedOnce_iff_retainFresh {ls : List Label}
    (hruns : (serveGraceful cfg).Runs (start cfg) ls)
    : (serveGraceful cfg).States ClosedOnce (start cfg) ls
        ↔ (serveGraceful cfg).Steps retainFresh (start cfg) ls := by
  apply Machine.states_iff_steps fun s => Inv s ∧ Counted s
  . exact fun _ _ hinv hguard => ⟨hinv.1.effect hguard, hinv.2.effect hinv.1 hguard⟩
  . exact fun _ _ hinv honce hguard hok => (honce.effect_iff hinv.1 hinv.2 hguard).mpr hok
  . exact fun _ _ hinv honce hguard hnext => (honce.effect_iff hinv.1 hinv.2 hguard).mp hnext
  . exact ⟨inv_start cfg, counted_start cfg⟩
  . apply List.nodup_nil
  . exact hruns

namespace Label

def lateRetain (task : Task) (session : Session) : List Label :=
  [.cleanup .compute] ++ arrival task.src task.data ++ admission task.src task.data
    ++ opening 0 task session ++ handover 0 task session
    ++ [.cleanup (.notified 0 5000), .cleanup .compute, .env (.advance 5000),
      .cleanup (.timer 0 5000), .cleanup .readClock,
      -- the cleanup task waits for the lock
      .env .forceShutdown, .listener .pollForce, .listener .shutdown, .cleanup (.retain 5000)]

end Label

theorem closed_twice
    : let run := Label.lateRetain dnsQuery (dnsSession 0)
      let s := (serveGraceful dnsProxy).exec (start dnsProxy) run
      (serveGraceful dnsProxy).Runs (start dnsProxy) run
        ∧ s.opened = [0] ∧ s.closed = [(0, .shutdown), (0, .error)] := by
  decide

theorem closedOnce_iff_retainFresh_lateRetain
    : ¬ (serveGraceful dnsProxy).States ClosedOnce (start dnsProxy)
        (Label.lateRetain dnsQuery (dnsSession 0)) := by
  rw [closedOnce_iff_retainFresh (by decide)]
  decide

theorem opened_effect (cfg : ProxyConfig) (s : State) (l : Label)
    : (effect cfg s l).opened = s.opened ++ (inserted l).map Session.id := by
  cases l with
  | env act => cases act <;> exact (List.append_nil _).symm
  | listener act => cases act <;> exact (List.append_nil _).symm
  | setup i task act =>
    cases act with
    | insert session => rfl
    | _ => exact (List.append_nil _).symm
  | relay id side act => exact (List.append_nil _).symm
  | cleanup act => simp [effect, inserted]

structure Booked (s : State) : Prop where
  lt : ∀ id ∈ s.opened, id < s.nextId
  sessions : ∀ session ∈ s.sessionList, session.id ∈ s.opened
  tasks : ∀ session ∈ s.taskSessions, session.id ∉ s.opened

theorem booked_start (cfg : ProxyConfig) : Booked (start cfg) := by
  constructor
  . intro id hid
    exact absurd hid List.not_mem_nil
  . intro session hmem
    exact absurd hmem List.not_mem_nil
  . intro session _
    apply List.not_mem_nil

theorem mem_sessionList_effect (cfg : ProxyConfig) (hguard : guard s l) (session : Session)
    : session ∈ inserted l ∨ session ∈ s.sessionList
        ↔
      session ∈ evicted cfg s l ∨ session ∈ (effect cfg s l).sessionList := by
  have := congrArg (session ∈ ·) (values_effect cfg hguard)
  simpa only [← State.coe_sessionList, Multiset.coe_add, Multiset.mem_coe, List.mem_append,
    eq_iff_iff] using this

theorem nodup_inserted_add_taskSessions (cfg : ProxyConfig) (howned : Owned s) (hguard : guard s l)
    : ((inserted l : Multiset Session) + (effect cfg s l).taskSessions).map Session.id |>.Nodup := by
  have hnodup := nodup_made_add_ids howned hguard
  have htasks := taskSessions_effect cfg hguard
  apply Multiset.nodup_of_le _ hnodup
  rw [← Multiset.map_coe, State.ids, ← Multiset.map_add]
  apply Multiset.map_le_map
  rw [State.held, add_left_comm, htasks, add_right_comm _ (abandoned l : Multiset Session)]
  exact (Multiset.le_add_right _ _).trans (Multiset.le_add_left _ _)

theorem Booked.effect (hinv : Inv s) (hbooked : Booked s) (hguard : guard s l)
    : Booked (effect cfg s l) := by
  have htasks := taskSessions_effect cfg hguard
  constructor
  . intro id hid
    rw [opened_effect, List.mem_append] at hid
    rw [nextId_effect]
    apply Nat.lt_add_right
    rcases hid with hid | hid
    . exact hbooked.lt id hid
    . unfold inserted at hid
      split at hid
      . next i task session =>
        rw [List.map_singleton, List.mem_singleton] at hid
        rw [hid]
        apply hinv.owned.lt
        apply mem_ids_of_task hguard.1
        simp [SetupAct.pre, SetupPc.sessions]
      . simp at hid
  . intro session hmem
    rw [opened_effect, List.mem_append]
    rcases (mem_sessionList_effect cfg hguard session).mpr (.inr hmem) with h | h
    . exact .inr (List.mem_map_of_mem h)
    . exact .inl (hbooked.sessions session h)
  . intro session hmem hopened
    rw [opened_effect, List.mem_append] at hopened
    have hbefore : session ∈ (made l : Multiset Session) + s.taskSessions := by
      rw [htasks, Multiset.mem_add]
      exact .inr hmem
    rcases hopened with hopened | hopened
    . rcases Multiset.mem_add.mp hbefore with h | h
      . have := hbooked.lt _ hopened
        rw [id_of_mem_made hguard (Multiset.mem_coe.mp h)] at this
        exact Nat.lt_irrefl _ this
      . exact hbooked.tasks session h hopened
    . have hnodup := nodup_inserted_add_taskSessions cfg hinv.owned hguard
      rw [Multiset.map_add, Multiset.nodup_add] at hnodup
      exact Multiset.disjoint_left.mp hnodup.2.2 (Multiset.mem_coe.mpr hopened)
        (Multiset.mem_map_of_mem _ hmem)

structure BookInv (s : State) : Prop where
  inv : Inv s
  counted : Counted s
  booked : Booked s

theorem bookInv_start (cfg : ProxyConfig) : BookInv (start cfg) :=
  ⟨inv_start cfg, counted_start cfg, booked_start cfg⟩

theorem BookInv.effect (hbook : BookInv s) (hguard : guard s l) : BookInv (effect cfg s l) :=
  ⟨hbook.inv.effect hguard, hbook.counted.effect hbook.inv hguard,
    hbook.booked.effect hbook.inv hguard⟩

def ForcedSettled (s : State) : Prop :=
  ∀ found, s.listener.leave? = some (.forced found) →
    s.active = 0 ∧ ∀ id ∈ s.opened, id ∈ s.closedIds

/--
No setup task inserts its session over another one, nor after the force_shutdown branch. (A listener
that drained never gets to that branch.)
-/
def insertFresh (s : State) : Label → Prop
  | .setup _ task (.insert _) =>
    s.listener.leave? ≠ some .drained → s.listener.leave? = none ∧ task.src ∉ s.sessions
  | _ => True

instance (s : State) (l : Label) : Decidable (insertFresh s l) :=
  decidable_of_bool
    (match l with
      | .setup _ task (.insert _) =>
        s.listener.leave? ≠ some .drained → s.listener.leave? = none ∧ task.src ∉ s.sessions
      | _ => true)
    (by unfold insertFresh; split <;> simp [or_iff_not_imp_left])

structure Settled (s : State) : Prop where
  opened : s.listener.leave? ≠ some .drained → ∀ id ∈ s.opened,
    id ∈ s.closedIds ∨ s.listener.leave? = none ∧ id ∈ s.sessionList.map Session.id
  forced : ∀ found, s.listener.leave? = some (.forced found) →
    s.active = 0 ∧ ∀ session ∈ s.sessionList, session.id ∈ found

theorem settled_start (cfg : ProxyConfig) : Settled (start cfg) := by
  constructor
  . intro _ id hid
    exact absurd hid List.not_mem_nil
  . intro found h
    simp [start, ListenerPc.leave?] at h

theorem mem_counted_of_mem_evicted (hguard : guard s l) (hok : insertFresh s l)
    (hleave : s.listener.leave? = none) {session : Session} (hmem : session ∈ evicted cfg s l)
    : session.id ∈ (counted cfg s l).map Prod.fst := by
  cases l with
  | env act =>
    cases act with
    | teardown =>
      have hreturned := hguard.1
      cases hlistener : s.listener <;> simp_all [ListenerPc.isReturned, ListenerPc.leave?]
    | _ => exact absurd hmem List.not_mem_nil
  | listener act =>
    cases act with
    | evict src data session' => exact List.mem_map_of_mem hmem
    | _ => exact absurd hmem List.not_mem_nil
  | setup i task act =>
    cases act with
    | insert session' =>
      have habsent := (hok (by simp [hleave])).2
      simp [evicted, AList.lookup_eq_none.mpr habsent] at hmem
    | _ => exact absurd hmem List.not_mem_nil
  | relay id side act => exact absurd hmem List.not_mem_nil
  | cleanup act =>
    cases act with
    | retain now =>
      rw [counted, List.map_map]
      apply List.mem_map_of_mem hmem
    | _ => exact absurd hmem List.not_mem_nil

theorem leave_of_leave_effect (hguard : guard s l)
    (hleave : (effect cfg s l).listener.leave? ≠ some .drained)
    : s.listener.leave? ≠ some .drained := by
  intro hdrained
  rw [leave_effect cfg hguard] at hleave
  unfold leaving at hleave
  split at hleave
  . exact hleave rfl
  . rw [leave_of_listener hguard (by simp)] at hdrained
    exact absurd hdrained (by simp)
  . exact hleave hdrained

theorem Settled.opened_effect (hsettled : Settled s) (hguard : guard s l) (hok : insertFresh s l)
    (hleave : (Udp.effect cfg s l).listener.leave? ≠ some .drained) {id : Nat}
    (hid : id ∈ (Udp.effect cfg s l).opened)
    : id ∈ (Udp.effect cfg s l).closedIds
        ∨ (Udp.effect cfg s l).listener.leave? = none
            ∧ id ∈ (Udp.effect cfg s l).sessionList.map Session.id := by
  have hbefore := leave_of_leave_effect hguard hleave
  rw [closedIds_effect, List.mem_append]
  by_cases hclosed : id ∈ s.closedIds
  . exact .inl (.inl hclosed)
  . -- an open session enters the map or was there, and the listener is in its loop
    have hopen : s.listener.leave? = none
        ∧ ∃ session, (session ∈ inserted l ∨ session ∈ s.sessionList) ∧ session.id = id := by
      rw [Udp.opened_effect, List.mem_append] at hid
      rcases hid with hid | hid
      . have := (hsettled.opened hbefore id hid).resolve_left hclosed
        rcases List.mem_map.mp this.2 with ⟨session, hmem, hsession⟩
        exact ⟨this.1, session, .inr hmem, hsession⟩
      . rcases List.mem_map.mp hid with ⟨session, hmem, hsession⟩
        refine ⟨?_, session, .inl hmem, hsession⟩
        unfold inserted at hmem
        split at hmem
        . exact (hok hbefore).1
        . exact absurd hmem List.not_mem_nil
    rcases hopen with ⟨hnone, session, hmem, rfl⟩
    rcases (mem_sessionList_effect cfg hguard session).mp hmem with hmem | hmem
    . exact .inl (.inr (mem_counted_of_mem_evicted hguard hok hnone hmem))
    . by_cases hl : l = .listener .shutdown
      . subst hl
        left
        right
        rw [counted, List.map_map]
        apply List.mem_map_of_mem hmem
      . right
        refine ⟨?_, List.mem_map_of_mem hmem⟩
        rw [leave_effect cfg hguard]
        by_cases hdrained : l = .listener .drained
        . subst hdrained
          exact absurd rfl hleave
        . rw [leaving_eq_none hdrained hl, hnone]
          rfl

theorem leave_of_forced_effect (hguard : guard s l) (hl : l ≠ .listener .shutdown)
    {found : List Nat} (hleave : (effect cfg s l).listener.leave? = some (.forced found))
    : s.listener.leave? = some (.forced found) := by
  rw [leave_effect cfg hguard] at hleave
  by_cases hdrained : l = .listener .drained
  . subst hdrained
    simp [leaving] at hleave
  . rw [leaving_eq_none hdrained hl] at hleave
    exact hleave

theorem Settled.size_retainPass (cfg : ProxyConfig) (hcounted : Counted s) (hsettled : Settled s)
    {found : List Nat} (hleave : s.listener.leave? = some (.forced found)) (now : Nat)
    : (retainPass cfg now s).sessions.size = 0 := by
  -- everything the force_shutdown branch left in the map is dead
  have hempty : (retainPass cfg now s).sessions.values = 0 := by
    apply Multiset.eq_zero_of_forall_notMem
    intro session hmem
    simp only [retainPass, Dict.values_retain, Multiset.mem_filter] at hmem
    have hdead : isDead s session = true := by
      apply hcounted.cancel
      rw [State.found_of_leave hleave]
      exact (hsettled.forced found hleave).2 session hmem.1
    simp [hdead] at hmem
  rw [← Dict.card_values, hempty]
  rfl

theorem Settled.forced_effect (hcounted : Counted s) (hsettled : Settled s) (hguard : guard s l)
    (hok : insertFresh s l) {found : List Nat}
    (hleave : (Udp.effect cfg s l).listener.leave? = some (.forced found))
    : (Udp.effect cfg s l).active = 0
        ∧ ∀ session ∈ (Udp.effect cfg s l).sessionList, session.id ∈ found := by
  by_cases hl : l = .listener .shutdown
  . subst hl
    simp only [leave_effect cfg hguard, leaving, Option.some_or, Option.some.injEq,
      Leave.forced.injEq] at hleave
    rw [← hleave]
    exact ⟨rfl, fun session hmem => List.mem_map_of_mem hmem⟩
  . have hbefore := leave_of_forced_effect hguard hl hleave
    have hnot : inserted l = [] := by
      unfold inserted
      split
      . have := (hok (by simp [hbefore])).1
        simp [hbefore] at this
      . rfl
    rcases hsettled.forced found hbefore with ⟨hactive, hfound⟩
    constructor
    . cases l with
      | env act => cases act <;> exact hactive
      | listener act =>
        cases act with
        | evict =>
          rw [leave_of_listener hguard (by simp)] at hbefore
          exact absurd hbefore (by simp)
        | shutdown => exact absurd rfl hl
        | _ => exact hactive
      | setup i task act =>
        cases act with
        | insert session => exact absurd hnot (by simp [inserted])
        | _ => exact hactive
      | relay id side act => exact hactive
      | cleanup act =>
        cases act with
        | retain now =>
          have hsize := hsettled.size_retainPass cfg hcounted hbefore now
          exact congrArg Int.ofNat hsize
        | _ => exact hactive
    . intro session hmem
      have := (mem_sessionList_effect cfg hguard session).mpr (.inr hmem)
      rw [hnot] at this
      exact hfound session (this.resolve_left List.not_mem_nil)

theorem Settled.effect (hcounted : Counted s) (hsettled : Settled s) (hguard : guard s l)
    (hok : insertFresh s l)
    : Settled (effect cfg s l) := by
  constructor
  . intro hleave id
    exact hsettled.opened_effect hguard hok hleave
  . intro found
    exact hsettled.forced_effect hcounted hguard hok

theorem insertFresh_of_settled (hbook : BookInv s) (hguard : guard s l)
    (hsettled : Settled (effect cfg s l))
    : insertFresh s l := by
  unfold insertFresh
  split
  . next i task session =>
    intro hdrained
    have hleave : (Udp.effect cfg s (.setup i task (.insert session))).listener.leave?
        = s.listener.leave? := rfl
    have hnone : s.listener.leave? = none := by
      cases h : s.listener.leave? with
      | none => rfl
      | some how =>
        cases how with
        | drained => exact absurd h hdrained
        | forced found =>
          have hactive := (hsettled.forced found (hleave.trans h)).1
          have hsize : 0 < Dict.size (s.sessions.insert task.src session) :=
            Dict.size_insert_pos _ _ _
          have : (Dict.size (s.sessions.insert task.src session) : Int) = 0 := hactive
          omega
    refine ⟨hnone, ?_⟩
    intro hmem
    rcases Option.isSome_iff_exists.mp (AList.lookup_isSome.mpr hmem) with ⟨old, hold⟩
    have hevicted : old ∈ evicted cfg s (.setup i task (.insert session)) := by
      simp [evicted, hold]
    have hlist : old ∈ s.sessionList := State.mem_sessionList.mpr ⟨task.src, hold⟩
    have hopened : old.id ∈ (Udp.effect cfg s (.setup i task (.insert session))).opened := by
      rw [opened_effect]
      apply List.mem_append_left _ (hbook.booked.sessions old hlist)
    rcases hsettled.opened (by rw [hleave]; exact hdrained) old.id hopened with h | ⟨_, h⟩
    . have := hbook.counted.found old.id h (mem_ids_of_mem_sessionList hlist)
      rw [State.found_eq_nil hnone] at this
      apply List.not_mem_nil this
    . rcases List.mem_map.mp h with ⟨session', hsession', heq⟩
      have := mem_ids_of_mem_sessionList hsession'
      rw [heq, mem_ids_effect cfg hbook.inv.owned hguard] at this
      exact this.1 (List.mem_map_of_mem hevicted)
  . trivial

theorem lost_effect (hbook : BookInv s) (hguard : guard s l) {id : Nat}
    (hlost : id ∈ s.opened ∧ id ∉ s.closedIds ∧ id ∉ s.ids)
    : id ∈ (effect cfg s l).opened ∧ id ∉ (effect cfg s l).closedIds
        ∧ id ∉ (effect cfg s l).ids := by
  rcases hlost with ⟨hopened, hclosed, hids⟩
  rw [opened_effect, closedIds_effect, mem_ids_effect cfg hbook.inv.owned hguard]
  refine ⟨List.mem_append_left _ hopened, ?_, ?_⟩
  . rw [List.mem_append, not_or]
    exact ⟨hclosed, fun h => hids (mem_ids_of_mem_counted hguard h)⟩
  . rintro ⟨_, hmade | h⟩
    . rcases List.mem_map.mp hmade with ⟨session, hmem, rfl⟩
      have := hbook.booked.lt _ hopened
      rw [id_of_mem_made hguard hmem] at this
      exact Nat.lt_irrefl _ this
    . exact hids h

theorem lost_exec {ls : List Label} (hbook : BookInv s) (hruns : (serveGraceful cfg).Runs s ls)
    {id : Nat} (hlost : id ∈ s.opened ∧ id ∉ s.closedIds ∧ id ∉ s.ids)
    : id ∈ ((serveGraceful cfg).exec s ls).opened
        ∧ id ∉ ((serveGraceful cfg).exec s ls).closedIds := by
  induction ls generalizing s with
  | nil => exact ⟨hlost.1, hlost.2.1⟩
  | cons l ls ih => exact ih (hbook.effect hruns.1) hruns.2 (lost_effect hbook hruns.1 hlost)

theorem Settled.forcedSettled (hsettled : Settled s) : ForcedSettled s := by
  intro found hleave
  refine ⟨(hsettled.forced found hleave).1, fun id hid => ?_⟩
  rcases hsettled.opened (by simp [hleave]) id hid with h | ⟨h, _⟩
  . exact h
  . simp [hleave] at h

theorem settled_of_forcedSettled {ls : List Label} (hbook : BookInv s)
    (hruns : (serveGraceful cfg).Runs s ls) {found : List Nat}
    (hleave : ((serveGraceful cfg).exec s ls).listener.leave? = some (.forced found))
    (hhead : ForcedSettled s) (hlast : ForcedSettled ((serveGraceful cfg).exec s ls))
    : Settled s := by
  have hforced : ∀ found, s.listener.leave? = some (.forced found) → ∀ session ∈ s.sessionList,
      session.id ∈ found := by
    intro found h session hmem
    have := (hhead found h).2 session.id (hbook.booked.sessions session hmem)
    have := hbook.counted.found session.id this (mem_ids_of_mem_sessionList hmem)
    rwa [State.found_of_leave h] at this
  constructor
  . intro hdrained id hopened
    by_cases hclosed : id ∈ s.closedIds
    . exact .inl hclosed
    . have hids : id ∈ s.ids := by
        by_contra hids
        have := lost_exec hbook hruns ⟨hopened, hclosed, hids⟩
        exact this.2 ((hlast found hleave).2 id this.1)
      cases h : s.listener.leave? with
      | none =>
        refine .inr ⟨rfl, ?_⟩
        rcases Multiset.mem_map.mp hids with ⟨session, hmem, rfl⟩
        rcases Multiset.mem_add.mp hmem with hmem | hmem
        . rw [← State.coe_sessionList, Multiset.mem_coe] at hmem
          apply List.mem_map_of_mem hmem
        . exact absurd hopened (hbook.booked.tasks session hmem)
      | some how =>
        cases how with
        | drained => exact absurd h hdrained
        | forced found => exact absurd ((hhead found h).2 id hopened) hclosed
  . intro found h
    exact ⟨(hhead found h).1, hforced found h⟩

theorem states_forcedSettled_iff {ls : List Label} (hbook : BookInv s)
    (hruns : (serveGraceful cfg).Runs s ls) {found : List Nat}
    (hleave : ((serveGraceful cfg).exec s ls).listener.leave? = some (.forced found))
    : (serveGraceful cfg).States ForcedSettled s ls
        ↔ (serveGraceful cfg).States Settled s ls := by
  induction ls generalizing s with
  | nil =>
    exact ⟨fun h => settled_of_forcedSettled hbook hruns hleave h h, Settled.forcedSettled⟩
  | cons l ls ih =>
    have htail := ih (hbook.effect hruns.1) hruns.2 hleave
    constructor
    . rintro ⟨hhead, hstates⟩
      exact ⟨settled_of_forcedSettled hbook hruns hleave hhead hstates.last, htail.mp hstates⟩
    . rintro ⟨hhead, hstates⟩
      exact ⟨hhead.forcedSettled, htail.mpr hstates⟩

theorem forcedSettled_iff_insertFresh {ls : List Label}
    (hruns : (serveGraceful cfg).Runs (start cfg) ls) {found : List Nat}
    (hleave : ((serveGraceful cfg).exec (start cfg) ls).listener.leave? = some (.forced found))
    : (serveGraceful cfg).States ForcedSettled (start cfg) ls
        ↔ (serveGraceful cfg).Steps insertFresh (start cfg) ls := by
  rw [states_forcedSettled_iff (bookInv_start cfg) hruns hleave]
  apply Machine.states_iff_steps BookInv
  . exact fun _ _ hbook hguard => hbook.effect hguard
  . exact fun _ _ hbook hsettled hguard hok => hsettled.effect hbook.counted hguard hok
  . exact fun _ _ hbook _ hguard hsettled => insertFresh_of_settled hbook hguard hsettled
  . exact bookInv_start cfg
  . exact settled_start cfg
  . exact hruns

namespace Label

def lateInsert (task : Task) (session : Session) : List Label :=
  arrival task.src task.data ++ admission task.src task.data ++ opening 0 task session
    -- the setup has found the token not set
    ++ [.env .forceShutdown, .listener .pollForce, .listener .shutdown] ++ handover 0 task session

end Label

theorem open_after_force_shutdown
    : let run := Label.lateInsert dnsQuery (dnsSession 0)
      let s := (serveGraceful dnsProxy).exec (start dnsProxy) run
      (serveGraceful dnsProxy).Runs (start dnsProxy) run
        ∧ s.listener = .left (.forced [])
        ∧ s.active = 1 ∧ s.opened = [0] ∧ s.closed = [] := by
  decide

theorem forcedSettled_iff_insertFresh_lateInsert
    : ¬ (serveGraceful dnsProxy).States ForcedSettled (start dnsProxy)
        (Label.lateInsert dnsQuery (dnsSession 0)) := by
  rw [@forcedSettled_iff_insertFresh dnsProxy _ (by decide) [] (by decide)]
  decide

end Udp
