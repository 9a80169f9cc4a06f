import Mathlib.Algebra.Ring.Nat
import Oxiduct.Udp.Lemmas.Shutdown

/-!
This module contains the way of one datagram through the UDP proxy while nothing stops it: from
wherever the tasks are, their own steps take the next datagram of any source to its upstream, unless
the limiter refuses the source.
-/

namespace Udp

open Limits Machine

variable {cfg : ProxyConfig} {s : State} {l : Label}

/--
The steps on a datagram's way, none of which fails: those of the listener, of the setup tasks and of
the relay tasks towards the upstream.
-/
def Label.forwards : Label → Bool
  | .listener .recvErr => false
  | .listener _ => true
  | .setup _ _ (.openErr _) => false
  | .setup .. => true
  | .relay _ .up (.sendErr _) => false
  | .relay _ .up _ => true
  | _ => false

theorem forwards_of_isOwn {act : ListenerAct} (hown : Label.isOwn (.listener act) = true)
    : Label.forwards (.listener act) = true := by
  cases act with
  | recvErr => cases hown
  | _ => rfl

structure Serving (s : State) : Prop where
  inv : Inv s
  done : DoneCancels s
  caused : Caused s
  stop : s.stopAccepting = false
  force : s.forceShutdown = false

namespace Serving

theorem effect (h : Serving s) (hguard : (serveGraceful cfg).guard s l) (hl : l.forwards = true)
    : Serving ((serveGraceful cfg).effect s l) where
  inv := h.inv.effect hguard
  done := h.done.effect hguard
  caused := h.caused.effect hguard
  stop := by
    cases l with
    | listener act => cases act <;> exact h.stop
    | setup i task act => cases act <;> exact h.stop
    | relay id side act => exact h.stop
    | _ => cases hl
  force := by
    cases l with
    | listener act => cases act <;> exact h.force
    | setup i task act => cases act <;> exact h.force
    | relay id side act => exact h.force
    | _ => cases hl

theorem draining (h : Serving s) : s.draining = false := by
  have hstop := h.stop
  cases hdraining : s.draining with
  | false => rfl
  | true =>
    rw [h.caused.draining hdraining] at hstop
    cases hstop

theorem not_returned (h : Serving s) (how : Leave) : s.listener ≠ .returned how := by
  intro hpc
  rcases h.caused.of_returned (by rw [hpc]; rfl) with hset | hset
  . rw [h.stop] at hset
    cases hset
  . rw [h.force] at hset
    cases hset

end Serving

theorem received_of_isOwn {act : ListenerAct} (hown : Label.isOwn (.listener act) = true)
    : (act.effect s).received = s.received := by
  cases act with
  | recv => cases hown
  | _ => rfl

theorem Serving.exists_polled (h : Serving s)
    : (serveGraceful cfg).CanReach Label.forwards s fun t =>
        Serving t ∧ t.listener = .polled ∧ t.received = s.received := by
  have hstep : ∀ t, (Serving t ∧ t.received = s.received) →
      ¬ (t.listener = .select ∨ t.listener = .polled) →
      ∃ l, (serveGraceful cfg).guard t l ∧ l.forwards = true
        ∧ (Serving ((serveGraceful cfg).effect t l)
          ∧ ((serveGraceful cfg).effect t l).received = s.received)
        ∧ ((serveGraceful cfg).effect t l).rank < t.rank := by
    rintro t ⟨ht, hreceived⟩ hwaiting
    rcases not_or.mp hwaiting with ⟨hselect, hpolled⟩
    have hadvances : ∃ act, Advances cfg t (.listener act) :=
      exists_handling_step hselect hpolled ht.not_returned
    rcases hadvances with ⟨act, hguard, hown, hlt⟩
    have hforwards := forwards_of_isOwn hown
    refine ⟨.listener act, hguard, hforwards, ⟨ht.effect hguard hforwards, ?_⟩, hlt⟩
    exact (received_of_isOwn hown).trans hreceived
  have hback : (serveGraceful cfg).CanReach Label.forwards s fun t =>
      (Serving t ∧ t.received = s.received) ∧ (t.listener = .select ∨ t.listener = .polled) :=
    .of_measure _ State.rank hstep ⟨h, rfl⟩
  apply hback.trans
  rintro t ⟨⟨ht, hreceived⟩, hpc | hpc⟩
  . have hguard : (serveGraceful cfg).guard t (.listener .pollNone) :=
      ⟨hpc, ht.force, by simp [ht.stop]⟩
    exact .step hguard rfl (.refl ⟨ht.effect hguard rfl, rfl, hreceived⟩)
  . exact .refl ⟨ht, hpc, hreceived⟩

structure Ready (src : SocketAddr) (received : List (SocketAddr × Packet)) (s : State) : Prop where
  serving : Serving s
  listener : s.listener = .polled
  received : s.received = received
  pending : src ∉ s.pending

def SetupPc.ahead : SetupPc → Nat
  | .opening _ => 5
  | .opened _ => 4
  | .checked _ => 3
  | .sent _ => 2
  | .aborting _ => 2
  | .finished _ => 1
  | .done => 0

def State.setupsAhead (s : State) : Nat :=
  (s.tasks.map fun task => task.2.ahead).sum

theorem Serving.exists_setup_act (h : Serving s) {pc : SetupPc} (hpc : pc ≠ .done) (i : Nat)
    (task : Task)
    : ∃ act : SetupAct, act.pre = pc ∧ act.guard s ∧ Label.forwards (.setup i task act) = true
        ∧ act.post.ahead < pc.ahead := by
  cases pc with
  | opening slot =>
    exact ⟨.openOk slot s.nextId, rfl, rfl, rfl, by simp [SetupAct.post, SetupPc.ahead]⟩
  | opened session =>
    exact ⟨.pass session, rfl, h.force, rfl, by simp [SetupAct.post, SetupPc.ahead]⟩
  | checked session =>
    exact ⟨.trySend session, rfl, trivial, rfl, by simp [SetupAct.post, SetupPc.ahead]⟩
  | sent session =>
    exact ⟨.insert session, rfl, trivial, rfl, by simp [SetupAct.post, SetupPc.ahead]⟩
  | aborting session =>
    exact ⟨.dropSession session, rfl, trivial, rfl, by simp [SetupAct.post, SetupPc.ahead]⟩
  | finished outcome =>
    exact ⟨.dropGuard outcome, rfl, trivial, rfl, by simp [SetupAct.post, SetupPc.ahead]⟩
  | done => exact absurd rfl hpc

theorem Serving.exists_task (h : Serving s) (hpolled : s.listener = .polled) {src : SocketAddr}
    (hpending : src ∈ s.pending)
    : ∃ (i : Nat) (task : Task) (pc : SetupPc), s.tasks[i]? = some (task, pc) ∧ pc ≠ .done := by
  -- a mark of the listener's own is gone when it waits, so that every mark is a task's
  rw [h.inv.mem_pending_iff, State.marks, hpolled] at hpending
  have hmem : src ∈ s.taskMarks := by simpa [ListenerPc.marks] using hpending
  rcases State.mem_taskMarks_iff.mp hmem with ⟨i, task, pc, hi, hpc, _⟩
  exact ⟨i, task, pc, hi, hpc⟩

theorem Serving.exists_ready (h : Serving s) (hpolled : s.listener = .polled) (src : SocketAddr)
    : (serveGraceful cfg).CanReach Label.forwards s (Ready src s.received) := by
  have hstep : ∀ t, (Serving t ∧ t.listener = .polled ∧ t.received = s.received) →
      ¬ src ∉ t.pending →
      ∃ l, (serveGraceful cfg).guard t l ∧ l.forwards = true
        ∧ (Serving ((serveGraceful cfg).effect t l)
          ∧ ((serveGraceful cfg).effect t l).listener = .polled
          ∧ ((serveGraceful cfg).effect t l).received = s.received)
        ∧ ((serveGraceful cfg).effect t l).setupsAhead < t.setupsAhead := by
    rintro t ⟨ht, hpolled, hreceived⟩ hpending
    rcases ht.exists_task hpolled (not_not.mp hpending) with ⟨i, task, pc, hi, hpc⟩
    rcases ht.exists_setup_act hpc i task with ⟨act, rfl, hact, hforwards, hlt⟩
    have hguard : (serveGraceful cfg).guard t (.setup i task act) := ⟨hi, hact⟩
    have hlistener : (Udp.effect cfg t (.setup i task act)).listener = t.listener :=
      listener_effect (by simp)
    have hsame : (Udp.effect cfg t (.setup i task act)).received = t.received := by
      cases act <;> rfl
    refine ⟨_, hguard, hforwards, ⟨ht.effect hguard hforwards, hlistener.trans hpolled,
      hsame.trans hreceived⟩, ?_⟩
    rcases List.exists_sum_map_set (fun task => task.2.ahead) hi with ⟨rest, hbefore, hafter⟩
    have hnext := hafter (task, act.post)
    simp only [State.setupsAhead, serveGraceful, Udp.effect, hbefore, hnext]
    omega
  have hclear : (serveGraceful cfg).CanReach Label.forwards s fun t =>
      (Serving t ∧ t.listener = .polled ∧ t.received = s.received) ∧ src ∉ t.pending :=
    .of_measure _ State.setupsAhead hstep ⟨h, hpolled, rfl⟩
  refine hclear.mono (fun _ hl => hl) ?_
  rintro t ⟨⟨ht, hpolled, hreceived⟩, hpending⟩
  exact ⟨ht, hpolled, hreceived, hpending⟩

def Cell.Waiting (c : Cell) : Prop :=
  c.queue = [] ∧ (c.up = .select ∨ c.up = .polled)

namespace Ready

variable {src : SocketAddr} {received : List (SocketAddr × Packet)} {session : Session}

theorem lt_nextId (h : Ready src received s) (hlookup : s.sessions.lookup src = some session)
    : session.id < s.nextId :=
  h.serving.inv.owned.lt _
    (mem_ids_of_mem_sessionList (State.mem_sessionList.mpr ⟨src, hlookup⟩))

theorem relay_effect (h : Ready src received s) {id : Nat} {act : RelayAct}
    (hguard : (serveGraceful cfg).guard s (.relay id .up act))
    (hforwards : Label.forwards (.relay id .up act) = true)
    : Ready src received ((serveGraceful cfg).effect s (.relay id .up act)) where
  serving := h.serving.effect hguard hforwards
  listener := h.listener
  received := h.received
  pending := h.pending

theorem exists_relay_act (h : Ready src received s) (hlookup : s.sessions.lookup src = some session)
    (hcancel : (s.cells session.id).cancel = false) (hbusy : ¬ (s.cells session.id).Waiting)
    : ∃ act : RelayAct, act.guard s session.id .up
        ∧ Label.forwards (.relay session.id .up act) = true := by
  have hpc : (s.cells session.id).pc .up = (s.cells session.id).up := rfl
  cases hup : (s.cells session.id).up with
  | select => exact ⟨.poll, ⟨hpc.trans hup, h.serving.force, hcancel⟩, rfl⟩
  | polled =>
    cases hqueue : (s.cells session.id).queue with
    | nil => exact absurd ⟨hqueue, .inr hup⟩ hbusy
    | cons data rest => exact ⟨.take data, ⟨hpc.trans hup, fun _ => by rw [hqueue]; rfl⟩, rfl⟩
  | send data => exact ⟨.sent data, hpc.trans hup, rfl⟩
  | exit => exact ⟨.cancel, hpc.trans hup, rfl⟩
  | done =>
    rw [h.serving.done _ (h.lt_nextId hlookup) .up (hpc.trans hup)] at hcancel
    cases hcancel

theorem exists_waiting (h : Ready src received s) (hlookup : s.sessions.lookup src = some session)
    : (serveGraceful cfg).CanReach Label.forwards s fun t =>
        (Ready src received t ∧ t.sessions.lookup src = some session)
          ∧ ((t.cells session.id).cancel = true ∨ (t.cells session.id).Waiting) := by
  have hstep : ∀ t, (Ready src received t ∧ t.sessions.lookup src = some session) →
      ¬ ((t.cells session.id).cancel = true ∨ (t.cells session.id).Waiting) →
      ∃ l, (serveGraceful cfg).guard t l ∧ l.forwards = true
        ∧ (Ready src received ((serveGraceful cfg).effect t l)
          ∧ ((serveGraceful cfg).effect t l).sessions.lookup src = some session)
        ∧ (((serveGraceful cfg).effect t l).cells session.id).steps
          < (t.cells session.id).steps := by
    rintro t ⟨ht, hlookup⟩ hgoal
    rcases not_or.mp hgoal with ⟨hcancel, hbusy⟩
    rcases ht.exists_relay_act hlookup (by simpa using hcancel) hbusy with ⟨act, hact, hforwards⟩
    have hguard : (serveGraceful cfg).guard t (.relay session.id .up act) :=
      ⟨ht.lt_nextId hlookup, hact⟩
    refine ⟨_, hguard, hforwards, ⟨ht.relay_effect hguard hforwards, hlookup⟩, ?_⟩
    simp only [serveGraceful, effect, RelayAct.effect, State.cells_updCell, ↓reduceIte]
    exact Cell.steps_apply hact (by simp)
  exact .of_measure _ (fun t => (t.cells session.id).steps) hstep ⟨h, hlookup⟩

end Ready

def State.Sent (s : State) (src : SocketAddr) (data : Packet) : Prop :=
  ∃ session, s.sessions.lookup src = some session ∧ [data] <:+ (s.cells session.id).upstream

def State.Refused (s : State) (src : SocketAddr) (data : Packet) : Prop :=
  ∃ why, ListenerAct.guard s (.reject src data why)

structure Queued (src : SocketAddr) (data : Packet) (session : Session) (s : State) : Prop where
  lookup : s.sessions.lookup src = some session
  lt : session.id < s.nextId
  force : s.forceShutdown = false
  cancel : (s.cells session.id).cancel = false
  queue : (s.cells session.id).queue = [data]
  up : (s.cells session.id).up = .select ∨ (s.cells session.id).up = .polled

namespace Queued

variable {src : SocketAddr} {data : Packet} {session : Session}

theorem exists_sent_of_polled (h : Queued src data session s)
    (hpolled : (s.cells session.id).up = .polled)
    : (serveGraceful cfg).CanReach Label.forwards s fun t =>
        t.received = s.received ∧ t.Sent src data := by
  have htake : RelayAct.guard s session.id .up (.take data) :=
    ⟨hpolled, fun _ => by rw [h.queue]; rfl⟩
  refine ⟨[.relay session.id .up (.take data), .relay session.id .up (.sent data)], ?_, rfl, rfl,
    session, h.lookup, ?_⟩
  . refine ⟨⟨h.lt, htake⟩, ⟨h.lt, ?_⟩, trivial⟩
    simp [serveGraceful, effect, RelayAct.effect, State.cells_updCell, RelayAct.guard,
      RelayAct.apply, Cell.setPc, Cell.pc]
  . simp [serveGraceful, effect, RelayAct.effect, State.cells_updCell, RelayAct.apply, Cell.setPc]

theorem exists_sent (h : Queued src data session s)
    : (serveGraceful cfg).CanReach Label.forwards s fun t =>
        t.received = s.received ∧ t.Sent src data := by
  rcases h.up with hselect | hpolled
  . have hguard : (serveGraceful cfg).guard s (.relay session.id .up .poll) :=
      ⟨h.lt, hselect, h.force, h.cancel⟩
    have hcell : ((serveGraceful cfg).effect s (.relay session.id .up .poll)).cells session.id
        = { s.cells session.id with up := .polled } := by
      simp [serveGraceful, effect, RelayAct.effect, State.cells_updCell, RelayAct.apply, Cell.setPc]
    have hnext : Queued src data session
        ((serveGraceful cfg).effect s (.relay session.id .up .poll)) := by
      refine ⟨h.lookup, h.lt, h.force, ?_, ?_, ?_⟩
      . rw [hcell]
        exact h.cancel
      . rw [hcell]
        exact h.queue
      . rw [hcell]
        exact .inr rfl
    exact .step hguard rfl (hnext.exists_sent_of_polled (by rw [hcell]))
  . exact h.exists_sent_of_polled hpolled

end Queued

theorem Cell.trySend_of_nil {c : Cell} {data : Packet} (hqueue : c.queue = []) (hup : c.up ≠ .done)
    : c.trySend data = { c with queue := [data] } := by
  simp [Cell.trySend, hqueue, hup, capacity]

theorem Ready.exists_hit {src : SocketAddr} {received : List (SocketAddr × Packet)}
    {session : Session} (h : Ready src received s)
    (hlookup : s.sessions.lookup src = some session)
    (hcancel : (s.cells session.id).cancel = false) (hwaiting : (s.cells session.id).Waiting)
    (data : Packet)
    : (serveGraceful cfg).CanReach Label.forwards s fun t =>
        t.received = received ++ [(src, data)] ∧ t.Sent src data := by
  have hrecv : (serveGraceful cfg).guard s (.listener (.recv src data)) := h.listener
  have hhit : (serveGraceful cfg).guard ((serveGraceful cfg).effect s (.listener (.recv src data)))
      (.listener (.hit src data session)) := ⟨rfl, hlookup, hcancel⟩
  refine .step hrecv rfl (.step hhit rfl ?_)
  have hnotDone : (s.cells session.id).up ≠ .done := by
    rcases hwaiting.2 with hup | hup <;> simp [hup]
  have hcell : ((serveGraceful cfg).effect
        ((serveGraceful cfg).effect s (.listener (.recv src data)))
        (.listener (.hit src data session))).cells session.id
      = { s.cells session.id with lastActivity := s.now, queue := [data] } := by
    simp only [serveGraceful, effect, ListenerAct.effect, State.cells_updCell, ↓reduceIte]
    exact Cell.trySend_of_nil hwaiting.1 hnotDone
  have hqueued : Queued src data session ((serveGraceful cfg).effect
      ((serveGraceful cfg).effect s (.listener (.recv src data)))
      (.listener (.hit src data session))) := by
    refine ⟨hlookup, h.lt_nextId hlookup, h.serving.force, ?_, ?_, ?_⟩
    . rw [hcell]
      exact hcancel
    . rw [hcell]
    . rw [hcell]
      exact hwaiting.2
  refine hqueued.exists_sent.mono (fun _ hl => hl) ?_
  rintro t ⟨hreceived, hsent⟩
  refine ⟨hreceived.trans ?_, hsent⟩
  rw [← h.received]
  rfl

def Label.opened (s : State) (src : SocketAddr) (data : Packet) (slot : Guard) : List Label :=
  let task : Task := ⟨src, data, s.received.length - 1⟩
  [.listener (.acquire src data slot), .listener (.spawn src data slot)]
    ++ Label.opening s.tasks.length task ⟨s.nextId, slot⟩
    ++ [.setup s.tasks.length task (.insert ⟨s.nextId, slot⟩)]

theorem Serving.exists_queued (h : Serving s) {src : SocketAddr} {data : Packet}
    (hmarked : s.listener = .marked src data) (hmiss : s.sessions.lookup src = none) {slot : Guard}
    (hslot : (s.limits.tryAcquire src.ip).result = .ok slot)
    : (serveGraceful cfg).CanReach Label.forwards s fun t =>
        t.received = s.received ∧ ∃ session, Queued src data session t := by
  refine ⟨Label.opened s src data slot, ?_, rfl, ?_, ⟨s.nextId, slot⟩, ?_⟩
  . simp [Label.opened, Label.opening, serveGraceful, guard, Udp.effect, ListenerAct.guard,
      ListenerAct.effect, SetupAct.guard, SetupAct.effect, SetupAct.pre, SetupAct.post, hmarked,
      hslot, h.force, State.updCell]
  . simp [Label.opened, Label.opening, serveGraceful, Udp.effect, ListenerAct.effect,
      SetupAct.effect, State.updCell, State.dropSessions]
  . constructor <;>
      simp [Label.opened, Label.opening, serveGraceful, Udp.effect, ListenerAct.effect,
        SetupAct.effect, hmiss, h.force, State.updCell, State.dropSessions, Cell.opened,
        Cell.trySend, Cell.capacity]

theorem Serving.exists_admitted (h : Serving s) {src : SocketAddr} {data : Packet}
    (hslow : s.listener = .slow src data) (hpending : src ∉ s.pending)
    (hmiss : s.sessions.lookup src = none)
    : (serveGraceful cfg).CanReach Label.forwards s fun t =>
        t.received = s.received
          ∧ (t.Sent src data ∨ t.Refused src data) := by
  have hguard : (serveGraceful cfg).guard s (.listener (.mark src data)) :=
    ⟨hslow, h.draining, hpending⟩
  refine .step hguard rfl ?_
  cases hresult : (s.limits.tryAcquire src.ip).result with
  | error why => exact .refl ⟨rfl, .inr ⟨why, rfl, hresult⟩⟩
  | ok slot =>
    apply ((h.effect hguard rfl).exists_queued rfl hmiss hresult).trans
    rintro t ⟨hreceived, session, hqueued⟩
    refine hqueued.exists_sent.mono (fun _ hl => hl) ?_
    rintro u ⟨hsame, hsent⟩
    exact ⟨hsame.trans hreceived, .inl hsent⟩

theorem Ready.exists_opened {src : SocketAddr} {received : List (SocketAddr × Packet)}
    (h : Ready src received s)
    (hdead : ∀ session, s.sessions.lookup src = some session → (s.cells session.id).cancel = true)
    (data : Packet)
    : (serveGraceful cfg).CanReach Label.forwards s fun t =>
        t.received = received ++ [(src, data)]
          ∧ (t.Sent src data ∨ t.Refused src data) := by
  have hrecv : (serveGraceful cfg).guard s (.listener (.recv src data)) := h.listener
  have hserving := h.serving.effect hrecv rfl
  have hlog : ((serveGraceful cfg).effect s (.listener (.recv src data))).received
      = received ++ [(src, data)] := by
    rw [← h.received]
    rfl
  refine .step hrecv rfl ?_
  cases hlookup : s.sessions.lookup src with
  | none =>
    have hmiss : (serveGraceful cfg).guard
        ((serveGraceful cfg).effect s (.listener (.recv src data)))
        (.listener (.miss src data)) := ⟨rfl, hlookup⟩
    refine .step hmiss rfl ?_
    refine ((hserving.effect hmiss rfl).exists_admitted rfl h.pending hlookup).mono
      (fun _ hl => hl) ?_
    rintro t ⟨hsame, hgoal⟩
    exact ⟨hsame.trans hlog, hgoal⟩
  | some session =>
    have hevict : (serveGraceful cfg).guard
        ((serveGraceful cfg).effect s (.listener (.recv src data)))
        (.listener (.evict src data session)) := ⟨rfl, hlookup, hdead session hlookup⟩
    refine .step hevict rfl ?_
    refine ((hserving.effect hevict rfl).exists_admitted rfl h.pending ?_).mono
      (fun _ hl => hl) ?_
    . exact AList.lookup_erase ..
    . rintro t ⟨hsame, hgoal⟩
      exact ⟨hsame.trans hlog, hgoal⟩

theorem serving_of_reachable (hreach : (serveGraceful cfg).Reachable (start cfg) s)
    (hstop : s.stopAccepting = false) (hforce : s.forceShutdown = false)
    : Serving s where
  inv := (relayInv_of_reachable hreach).1
  done := (relayInv_of_reachable hreach).2
  caused := caused_of_reach hreach
  stop := hstop
  force := hforce

theorem datagram_gets_through (hreach : (serveGraceful cfg).Reachable (start cfg) s)
    (hstop : s.stopAccepting = false) (hforce : s.forceShutdown = false) (src : SocketAddr)
    (data : Packet)
    : (serveGraceful cfg).CanReach Label.forwards s fun t =>
        t.received = s.received ++ [(src, data)]
          ∧ (t.Sent src data ∨ t.Refused src data) := by
  apply (serving_of_reachable hreach hstop hforce).exists_polled.trans
  rintro t ⟨ht, hpolled, hreceived⟩
  rw [← hreceived]
  apply (ht.exists_ready hpolled src).trans
  intro u hu
  cases hlookup : u.sessions.lookup src with
  | none => exact hu.exists_opened (by simp [hlookup]) data
  | some session =>
    apply (hu.exists_waiting hlookup).trans
    rintro v ⟨⟨hv, hlookup⟩, hcell⟩
    cases hcancel : (v.cells session.id).cancel with
    | true =>
      refine hv.exists_opened ?_ data
      intro session' hlookup'
      rw [hlookup, Option.some.injEq] at hlookup'
      rw [← hlookup', hcancel]
    | false =>
      have hwaiting := hcell.resolve_left (by simp [hcancel])
      refine (hv.exists_hit hlookup hcancel hwaiting data).mono (fun _ hl => hl) ?_
      rintro w ⟨hlog, hsent⟩
      exact ⟨hlog, .inl hsent⟩

def Label.unreachable : List Label :=
  -- the upstream's port was closed, so that the session is dead in the map
  Label.arrival dnsClient [1] ++ Label.admission dnsClient [1]
    ++ Label.opening 0 dnsQuery (dnsSession 0) ++ Label.handover 0 dnsQuery (dnsSession 0)
    ++ [.relay 0 .up .poll, .relay 0 .up (.take [1]), .relay 0 .up (.sendErr [1]),
      .relay 0 .up .cancel]

theorem datagram_gets_through_unreachable
    : (serveGraceful dnsProxy).CanReach Label.forwards
        ((serveGraceful dnsProxy).exec (start dnsProxy) Label.unreachable) fun t =>
          t.received = [(dnsClient, [1]), (dnsClient, [2])]
            ∧ (t.Sent dnsClient [2] ∨ t.Refused dnsClient [2]) := by
  have hruns : (serveGraceful dnsProxy).Runs (start dnsProxy) Label.unreachable := by decide
  exact datagram_gets_through hruns.reachable (by decide) (by decide) dnsClient [2]

end Udp
