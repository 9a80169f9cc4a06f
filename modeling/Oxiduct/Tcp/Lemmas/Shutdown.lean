import Oxiduct.Machine.Progress
import Oxiduct.Tcp.Lemmas.Books
import Oxiduct.Tcp.Lemmas.Teardown

/-!
This module contains the forced shutdown of the TCP proxy: from wherever it is when both tokens are
set, its own steps bring every connection to its end and let `serve_graceful` return.
-/

namespace Tcp

open Limits Machine

variable {conn : Conn} {s : State}

/--
The steps of a connection that wait for no peer and no timer once `force_shutdown` is set.
-/
def Label.isOwn : Label → Bool
  | .handle .abortConnect => true
  | .handle .abortHeader => true
  | .handle .headerWritten => true
  | .handle .start => true
  | l => l.unaided

theorem Label.isOwn_of_unaided {l : Label} (h : l.unaided = true) : l.isOwn = true := by
  cases l with
  | handle act => cases act <;> first | rfl | exact h
  | _ => exact h

theorem Label.isEnv_of_isOwn {l : Label} (h : l.isOwn = true) : l.isEnv = false := by
  cases l with
  | env act => cases h
  | _ => rfl

structure Forced (conn : Conn) (s : State) : Prop where
  teardown : TeardownInv conn s
  shutdown : s.shutdown = true

namespace Forced

theorem effect {l : Label} (h : Forced conn s) (hguard : guard conn s l) (hl : l.isOwn = true)
    : Forced conn (effect conn s l) where
  teardown := h.teardown.effect hguard
  shutdown := ((clock_effect (Label.isEnv_of_isOwn hl)).2).trans h.shutdown

theorem step (h : Forced conn s) {goal : State → Prop} (l : Label) (hl : l.isOwn = true)
    (hguard : guard conn s l)
    (hrest : Forced conn (Tcp.effect conn s l) →
      (connection conn).CanReach Label.isOwn (Tcp.effect conn s l) goal)
    : (connection conn).CanReach Label.isOwn s goal :=
  .step hguard hl (hrest (h.effect hguard hl))

theorem of_ending (h : Forced conn s) (hending : s.ending)
    : (connection conn).CanReach Label.isOwn s fun t => t.finished = true := by
  rcases h.teardown.exists_returned_of_ending hending with
    ⟨ls, reason, checked, hruns, hall, hreturned⟩
  have hfinished : ((connection conn).exec s ls).finished = true := by
    rw [State.finished, hreturned]
    rfl
  have hreach : (connection conn).CanReach Label.unaided s fun t => t.finished = true :=
    ⟨ls, hruns, hall, hfinished⟩
  exact hreach.mono (fun _ => Label.isOwn_of_unaided) fun _ => id

theorem of_joining (h : Forced conn s) (hjoining : s.joining)
    : (connection conn).CanReach Label.isOwn s fun t => t.finished = true := by
  rcases hjoining with ⟨reason, checked, hpc⟩
  exact h.of_ending (.inl (by simp [hpc, HandlePc.verdict?]))

theorem of_select (h : Forced conn s) {wake : Nat} (hpc : s.handle = .watch (.select wake))
    : (connection conn).CanReach Label.isOwn s fun t => t.finished = true :=
  h.step (.watch (.shutdown wake)) rfl ⟨hpc, h.shutdown⟩
    fun hforced => hforced.of_joining ⟨_, _, rfl⟩

theorem of_clock (h : Forced conn s) {now : Nat} (hpc : s.handle = .watch (.clock now))
    : (connection conn).CanReach Label.isOwn s fun t => t.finished = true := by
  by_cases hidle : idleLeft conn now s.lastActivity = some 0
  . apply h.step (.watch (.idle now s.lastActivity)) rfl ⟨hpc, rfl, hidle⟩
    exact fun hforced => hforced.of_joining ⟨_, _, rfl⟩
  . by_cases hhalf : halfCloseLeft conn s now s.lastActivity = some 0
    . apply h.step (.watch (.halfClose now s.lastActivity)) rfl ⟨hpc, rfl, hidle, hhalf⟩
      exact fun hforced => hforced.of_joining ⟨_, _, rfl⟩
    . apply h.step (.watch (.sleep now s.lastActivity)) rfl ⟨hpc, rfl, hidle, hhalf⟩
      exact fun hforced => hforced.of_select rfl

theorem of_top (h : Forced conn s) (hpc : s.handle = .watch .top)
    : (connection conn).CanReach Label.isOwn s fun t => t.finished = true := by
  by_cases hdone : s.upDone = true ∧ s.downDone = true
  . apply h.step (.watch .eof) rfl ⟨hpc, hdone⟩
    exact fun hforced => hforced.of_joining ⟨_, _, rfl⟩
  . apply h.step (.watch .readClock) rfl ⟨hpc, hdone⟩
    exact fun hforced => hforced.of_clock rfl

theorem of_start (h : Forced conn s) (hpc : s.handle = .start)
    : (connection conn).CanReach Label.isOwn s fun t => t.finished = true :=
  h.step (.handle .start) rfl hpc fun hforced => hforced.of_top rfl

theorem canReach_finished (h : Forced conn s)
    : (connection conn).CanReach Label.isOwn s fun t => t.finished = true := by
  have habort : ∀ {pc}, s.handle = pc → pc = .connect ∨ pc = .connecting →
      (connection conn).CanReach Label.isOwn s fun t => t.finished = true := by
    intro pc hpc hconnect
    apply h.step (.handle .abortConnect) rfl ⟨hpc ▸ hconnect, h.shutdown⟩
    exact fun _ => .refl rfl
  cases hpc : s.handle with
  | connect => exact habort hpc (.inl rfl)
  | connecting => exact habort hpc (.inr rfl)
  | header =>
    apply h.step (.handle .abortHeader) rfl ⟨.inl hpc, h.shutdown⟩
    exact fun _ => .refl rfl
  | writingHeader =>
    -- the token is polled in front of every write, so a header that is out is not aborted
    by_cases hleft : s.headerLeft = []
    . apply h.step (.handle .headerWritten) rfl ⟨hpc, hleft⟩
      exact fun hforced => hforced.of_start rfl
    . apply h.step (.handle .abortHeader) rfl ⟨.inr ⟨hpc, hleft⟩, h.shutdown⟩
      exact fun _ => .refl rfl
  | start => exact h.of_start hpc
  | watch pc =>
    cases pc with
    | top => exact h.of_top hpc
    | clock now => exact h.of_clock hpc
    | select wake => exact h.of_select hpc
  | joining reason checked => exact h.of_joining ⟨reason, checked, hpc⟩
  | returned outcome checked =>
    apply CanReach.refl
    rw [State.finished, hpc]
    rfl

end Forced

def ServerLabel.isOwn : ServerLabel → Bool
  | .task _ l => l.isOwn
  | .listener .pollStop => true
  | .listener (.join _) => true
  -- the pause after a failed accept is the code's own
  | .listener .resume => true
  | .listener .drained => true
  | _ => false

variable {cfg : ProxyConfig} {server : Server} {l : ServerLabel}

theorem length_tasks_of_isOwn (hl : l.isOwn = true)
    : (Server.effect server l).tasks.length = server.tasks.length := by
  cases l with
  | env act => cases hl
  | listener act =>
    cases act with
    | join i => simp [Server.effect, ListenerAct.effect]
    | accept conn slot => cases hl
    | _ => rfl
  | task i l =>
    simp only [Server.effect]
    split
    . simp [Server.moveTask]
    . rfl

theorem tokens_of_isOwn (hl : l.isOwn = true)
    : (Server.effect server l).stopAccepting = server.stopAccepting
        ∧ (Server.effect server l).forceShutdown = server.forceShutdown := by
  cases l with
  | env act => cases hl
  | listener act => cases act <;> exact ⟨rfl, rfl⟩
  | task i l =>
    simp only [Server.effect]
    split <;> exact ⟨rfl, rfl⟩

theorem stop_effect_of_isOut (hguard : Server.guard cfg server l)
    (h : server.listener.isOut = true → server.stopAccepting = true)
    (hout : (Server.effect server l).listener.isOut = true)
    : (Server.effect server l).stopAccepting = true := by
  cases l with
  | env act =>
    cases act with
    | stopAccepting => rfl
    | _ => exact h hout
  | listener act =>
    cases act with
    | pollStop => exact hguard.2
    | join i =>
      apply h
      simp only [Server.effect, ListenerAct.effect] at hout
      split at hout
      . next hpc => rw [hpc]; rfl
      . cases hout
    | drained => exact h (by rw [hguard.1]; rfl)
    | _ => cases hout
  | task i l =>
    rcases hguard with ⟨_, task, hi, _⟩
    simp only [Server.effect, hi] at hout ⊢
    exact h hout

theorem stop_of_isOut {ok : Server → ServerLabel → Prop}
    (hreach : (serveGraceful cfg).Reach ok (listening cfg) server)
    : server.listener.isOut = true → server.stopAccepting = true :=
  hreach.invariant (p := fun server => server.listener.isOut = true → server.stopAccepting = true)
    (by simp [listening, ListenerPc.isOut]) fun _ _ h hguard _ => stop_effect_of_isOut hguard h

structure Uncut (server : Server) : Prop where
  aborted : ∀ task ∈ server.tasks, task.state.handle.endedIn Outcome.isAborted = false
  closed : Reason.shutdown ∉ server.closed

theorem uncut_of_reach {ok : Server → ServerLabel → Prop}
    (hreach : (serveGraceful cfg).Reach ok (listening cfg) server)
    (hforce : server.forceShutdown = false)
    : Uncut server := by
  have hinv := booksInv_of_reach hreach
  have hunset : ∀ task ∈ server.tasks, task.state.shutdown = false :=
    fun task hmem => (hinv.tasks.sync.shutdown task hmem).trans hforce
  constructor
  . intro task hmem
    by_contra hne
    have := (hinv.tasks.tasks task hmem).counted.forced (by simpa using hne)
    rw [hunset task hmem] at this
    cases this
  . rw [← Multiset.mem_coe, hinv.ledger.closed, hinv.tasks.sum_closed, List.mem_sum_map]
    rintro ⟨task, hmem, hclosed⟩
    have hverdict : ∃ checked, task.state.handle.verdict? = some (.shutdown, checked) := by
      cases hpc : task.state.handle with
      | returned outcome checked =>
        cases outcome <;> simp [hpc, HandlePc.closed] at hclosed
        exact ⟨checked, by simp [HandlePc.verdict?, hclosed]⟩
      | _ => simp [hpc, HandlePc.closed] at hclosed
    rcases hverdict with ⟨checked, hverdict⟩
    have := (hinv.tasks.tasks task hmem).relay.shutdown_of_verdict hverdict
    rw [hunset task hmem] at this
    cases this

structure Closing (server : Server) : Prop where
  tasks : TasksInv server
  drain : DrainInv server
  stop : server.stopAccepting = true
  force : server.forceShutdown = true

theorem Closing.effect (h : Closing server) (hguard : Server.guard cfg server l)
    (hl : l.isOwn = true)
    : Closing (Server.effect server l) where
  tasks := h.tasks.effect hguard
  drain := h.drain.effect hguard
  stop := (tokens_of_isOwn hl).1.trans h.stop
  force := (tokens_of_isOwn hl).2.trans h.force

namespace Closing

theorem step (h : Closing server) {goal : Server → Prop} (l : ServerLabel) (hl : l.isOwn = true)
    (hguard : Server.guard cfg server l)
    (hrest : Closing (Server.effect server l) →
      (serveGraceful cfg).CanReach ServerLabel.isOwn (Server.effect server l) goal)
    : (serveGraceful cfg).CanReach ServerLabel.isOwn server goal :=
  .step hguard hl (hrest (h.effect hguard hl))

theorem canReach_isOut (h : Closing server)
    : (serveGraceful cfg).CanReach ServerLabel.isOwn server
        fun t => Closing t ∧ t.listener.isOut = true := by
  have hstop : ∀ {t}, Closing t → (t.listener = .select ∨ t.listener = .polled) →
      (serveGraceful cfg).CanReach ServerLabel.isOwn t
        fun t => Closing t ∧ t.listener.isOut = true := by
    intro t ht hpc
    apply ht.step (.listener .pollStop) rfl ⟨hpc, ht.stop⟩
    exact fun hclosing => .refl ⟨hclosing, rfl⟩
  cases hpc : server.listener with
  | select => exact hstop h (.inl hpc)
  | polled => exact hstop h (.inr hpc)
  | backoff =>
    apply h.step (.listener .resume) rfl hpc
    exact fun hclosing => hstop hclosing (.inl rfl)
  | draining => exact .refl ⟨h, by rw [hpc]; rfl⟩
  | returned => exact .refl ⟨h, by rw [hpc]; rfl⟩

def Done (i : Nat) (server : Server) : Prop :=
  ∀ task, server.tasks[i]? = some task → task.state.finished = true

theorem done_effect (h : Closing server) (hguard : Server.guard cfg server l)
    (hl : l.isOwn = true) {i : Nat} (hdone : Done i server)
    : Done i (Server.effect server l) := by
  intro task' hi'
  have hlt := (List.getElem?_eq_some_iff.mp hi').1
  rw [length_tasks_of_isOwn hl] at hlt
  have hi := List.getElem?_eq_getElem hlt
  rcases task_effect h.tasks.sync hguard hi with ⟨hruns, joined, _, heffect⟩
  rw [hi'] at heffect
  cases heffect
  exact finished_exec hruns (hdone _ hi)

theorem canReach_done (h : Closing server) (i : Nat)
    : (serveGraceful cfg).CanReach ServerLabel.isOwn server (Done i) := by
  cases hi : server.tasks[i]? with
  | none =>
    apply CanReach.refl
    intro task hi'
    rw [hi] at hi'
    cases hi'
  | some task =>
    have hmem := List.mem_of_getElem? hi
    have hforced : Forced task.conn task.state :=
      ⟨teardownInv_of_reach (h.tasks.tasks task hmem).reach,
        (h.tasks.sync.shutdown task hmem).trans h.force⟩
    rcases hforced.canReach_finished with ⟨ls, hruns, hall, hfinished⟩
    have hown := List.all_eq_true.mp hall
    rcases exec_task cfg hi hruns (fun l hl => Label.isEnv_of_isOwn (hown l hl)) with
      ⟨hserver, htask, _⟩
    refine ⟨ls.map (.task i), hserver, ?_, ?_⟩
    . rw [List.all_map]
      exact hall
    . intro task' hi'
      rw [htask] at hi'
      cases hi'
      exact hfinished

theorem join_effect {i : Nat} {task : Task} (hi : server.tasks[i]? = some task)
    : (Server.effect server (.listener (.join i))).tasks
        = server.tasks.set i { task with joined := true } := by
  simp only [Server.effect, ListenerAct.effect]
  rw [List.modify_eq_set_getElem?, hi]
  rfl

def joinRank (server : Server) : Nat :=
  server.tasks.countP (fun task => !task.joined) + if server.listener = .returned then 0 else 1

theorem canReach_returned (h : Closing server) (hout : server.listener.isOut = true)
    (hfinished : ∀ task ∈ server.tasks, task.state.finished = true)
    : (serveGraceful cfg).CanReach ServerLabel.isOwn server
        fun t => Closing t ∧ t.listener = .returned := by
  have hstep : ∀ t : Server,
      (Closing t ∧ t.listener.isOut = true ∧ ∀ task ∈ t.tasks, task.state.finished = true) →
      ¬ t.listener = .returned →
      ∃ l, Server.guard cfg t l ∧ ServerLabel.isOwn l = true
        ∧ (Closing (Server.effect t l) ∧ (Server.effect t l).listener.isOut = true
          ∧ ∀ task ∈ (Server.effect t l).tasks, task.state.finished = true)
        ∧ joinRank (Server.effect t l) < joinRank t := by
    rintro t ⟨ht, hout, hfinished⟩ hreturned
    have hpc : t.listener = .draining := by
      cases hpc : t.listener with
      | draining => rfl
      | returned => exact absurd hpc hreturned
      | _ => rw [hpc] at hout; cases hout
    by_cases hjoined : ∀ task ∈ t.tasks, task.joined = true
    . have hguard : Server.guard cfg t (.listener .drained) := ⟨hpc, hjoined⟩
      refine ⟨_, hguard, rfl, ⟨ht.effect hguard rfl, rfl, hfinished⟩, ?_⟩
      simp [joinRank, Server.effect, ListenerAct.effect, hpc]
    . simp only [not_forall] at hjoined
      rcases hjoined with ⟨task, hmem, hne⟩
      rcases List.getElem?_of_mem hmem with ⟨i, hi⟩
      have hguard : Server.guard cfg t (.listener (.join i)) :=
        ⟨.inr hpc, task, hi, hfinished task hmem, by simpa using hne⟩
      have hlistener : (Server.effect t (.listener (.join i))).listener = .draining := by
        simp [Server.effect, ListenerAct.effect, hpc]
      refine ⟨_, hguard, rfl, ⟨ht.effect hguard rfl, by rw [hlistener]; rfl, ?_⟩, ?_⟩
      . intro task' hmem'
        rw [join_effect hi] at hmem'
        rcases List.mem_or_eq_of_mem_set hmem' with hmem' | rfl
        . exact hfinished task' hmem'
        . exact hfinished task hmem
      . have hlt := List.countP_set_lt (p := fun task => !task.joined) hi
          (b := { task with joined := true }) (by simpa using hne) rfl
        simp only [joinRank, join_effect hi, hlistener, hpc]
        omega
  apply CanReach.mono (CanReach.of_measure _ joinRank hstep ⟨h, hout, hfinished⟩) (fun _ => id)
  rintro t ⟨⟨ht, _, _⟩, hreturned⟩
  exact ⟨ht, hreturned⟩

theorem canReach_end (h : Closing server)
    : (serveGraceful cfg).CanReach ServerLabel.isOwn server fun t =>
        Closing t ∧ t.listener = .returned ∧ ∀ task ∈ t.tasks, task.state.finished = true := by
  apply h.canReach_isOut.trans
  rintro t ⟨ht, hout⟩
  have hkeep : ∀ (u : Server) (l : ServerLabel),
      (Closing u ∧ u.listener.isOut = true ∧ u.tasks.length = t.tasks.length) →
      (serveGraceful cfg).guard u l → l.isOwn = true →
      Closing (Server.effect u l) ∧ (Server.effect u l).listener.isOut = true
        ∧ (Server.effect u l).tasks.length = t.tasks.length := by
    rintro u l ⟨hu, hout, hlength⟩ hguard hl
    exact ⟨hu.effect hguard hl, (isOut_effect hguard hout).1,
      (length_tasks_of_isOwn hl).trans hlength⟩
  apply (CanReach.forall_mem _ Done (List.range t.tasks.length) hkeep
    (fun i u l hu hguard hl => hu.1.1.done_effect hguard hl hu.2)
    (fun u hu i _ => hu.1.canReach_done i) ⟨ht, hout, rfl⟩).trans
  rintro u ⟨⟨hu, hout, hlength⟩, hdone⟩
  have hfinished : ∀ task ∈ u.tasks, task.state.finished = true := by
    intro task hmem
    rcases List.getElem?_of_mem hmem with ⟨i, hi⟩
    have hlt := (List.getElem?_eq_some_iff.mp hi).1
    exact hdone i (List.mem_range.mpr (hlength ▸ hlt)) task hi
  apply (hu.canReach_returned hout hfinished).mono (fun _ => id)
  rintro v ⟨hv, hreturned⟩
  refine ⟨hv, hreturned, ?_⟩
  intro task hmem
  exact (hv.tasks.tasks task hmem).joined (hv.drain hreturned task hmem)

end Closing

theorem card_slots_of_isOwn (hguard : Server.guard cfg server l) (hl : l.isOwn = true)
    : (Server.effect server l).slots.card ≤ server.slots.card := by
  by_cases htask : ∃ i l', l = .task i l'
  . rcases htask with ⟨i, l', rfl⟩
    rcases hguard with ⟨_, task, hi, hguard⟩
    rcases List.exists_sum_map_set Task.slots hi with ⟨rest, hbefore, hafter⟩
    have hmono := finished_effect hguard
    simp only [Server.effect, hi, Server.slots, Server.moveTask, hbefore, hafter,
      Multiset.card_add, Task.slots]
    cases hfinished : task.state.finished with
    | true => simp [hmono hfinished]
    | false => split <;> simp
  . have hentered : entered server l = [] := by
      cases l with
      | listener act =>
        cases act with
        | accept conn slot => cases hl
        | _ => rfl
      | _ => rfl
    rw [Server.slots, own_slots.sum_effect (by simpa using htask) (by simp [hentered])]
    rfl

theorem steps_roomy {ls : List ServerLabel}
    (hroom : 0 < cfg.maxConnections ∨ server.slots.card < 2 ^ 32)
    (hruns : (serveGraceful cfg).Runs server ls) (hall : ls.all ServerLabel.isOwn = true)
    : (serveGraceful cfg).Steps (roomy cfg) server ls := by
  induction ls generalizing server with
  | nil => trivial
  | cons l ls ih =>
    rw [List.all_cons, Bool.and_eq_true] at hall
    have hle := card_slots_of_isOwn hruns.1 hall.1
    have hnext : roomy cfg server l := hroom.imp_right (Nat.lt_of_le_of_lt hle)
    exact ⟨hnext, ih hnext hruns.2 hall.2⟩

theorem room_of_reach (h : (serveGraceful cfg).Reach (roomy cfg) (listening cfg) server)
    : 0 < cfg.maxConnections ∨ server.slots.card < 2 ^ 32 := by
  cases h with
  | refl => exact .inr (by simp [Server.slots, listening])
  | step l _ _ hok => exact hok

structure Balanced (t : Server) : Prop where
  finished : ∀ task ∈ t.tasks, task.state.finished = true ∧ task.joined = true
  active : t.active = 0
  closed : ∀ reason, t.closed.count reason
    = t.tasks.countP fun task => task.state.handle.endedIn (· = .relayed reason)
  counted : t.total = t.closed.length + t.connectFailures + t.connectTimeouts
    + t.tasks.countP fun task => task.state.handle.endedIn Outcome.isAborted

theorem BooksInv.balanced (cfg : ProxyConfig) (h : BooksInv server)
    (hreturned : server.listener = .returned)
    : Balanced server := by
  have hbooks := h.connectionBooks cfg
  have hfinished := h.finished hreturned
  have hrunning : server.tasks.countP (fun task => !task.state.finished) = 0 := by
    apply List.countP_eq_zero.mpr
    intro task hmem
    simp [hfinished task hmem]
  constructor
  . exact fun task hmem => ⟨hfinished task hmem, h.drain hreturned task hmem⟩
  . exact (hbooks.returned hreturned).2
  . exact hbooks.closed
  . rw [hbooks.total, hrunning, Nat.zero_add]

/--
Nothing is left of a proxy that has returned: no copy task runs on, and no slot is held.
-/
structure Settled (t : Server) : Prop extends Balanced t where
  copies : ∀ task ∈ t.tasks, ∀ dir,
    (task.state.copy dir).pc = if task.state.handle.isSpawned then .ended else .unspawned
  slots : t.limits.state.total = 0
  perIp : ∀ ip, t.limits.currentIp ip = 0

theorem ServerInv.settled (h : ServerInv cfg server) (hreturned : server.listener = .returned)
    : Settled server := by
  have hbalanced := h.toBooksInv.balanced cfg hreturned
  have hlimits := h.limiterBooks.returned hreturned
  refine ⟨hbalanced, ?_, hlimits.1, hlimits.2⟩
  intro task hmem dir
  have hjoined := joinedInv_of_reach (h.tasks.tasks task hmem).reach
  exact hjoined.pc_of_finished (hbalanced.finished task hmem).1 dir

theorem connections_shut_down
    (hreach : (serveGraceful cfg).Reach (roomy cfg) (listening cfg) server)
    (hstop : server.stopAccepting = true) (hforce : server.forceShutdown = true)
    : (serveGraceful cfg).CanReach ServerLabel.isOwn server fun t =>
        t.listener = .returned ∧ Settled t := by
  have hinv := serverInv_of_reach hreach
  have hclosing : Closing server := ⟨hinv.tasks, hinv.drain, hstop, hforce⟩
  rcases hclosing.canReach_end with ⟨ls, hruns, hall, _, hreturned, _⟩
  have hok := steps_roomy (room_of_reach hreach) hruns hall
  have hlast := serverInv_of_reach (hreach.exec hruns hok)
  exact ⟨ls, hruns, hall, hreturned, hlast.settled hreturned⟩

def Label.stalled : List Label :=
  -- the upstream does not take the chunk the relay has read
  Label.connect ++ [.copy .up .poll, .copy .up (.read [1]), .copy .up .pollWrite]

def ServerLabel.stalled (conn : Conn) : List ServerLabel :=
  [.listener .pollNone, .listener (.accept conn ⟨conn.peer.ip⟩)]
    ++ Label.stalled.map (.task 0) ++ [.env .stopAccepting, .env .forceShutdown]

theorem connections_shut_down_stalled
    : (serveGraceful webProxy).CanReach ServerLabel.isOwn
        ((serveGraceful webProxy).exec (listening webProxy) (ServerLabel.stalled webConn))
        fun t => t.listener = .returned ∧ Settled t := by
  have hruns : (serveGraceful webProxy).Runs (listening webProxy)
      (ServerLabel.stalled webConn) := by
    decide
  have hreach : (serveGraceful webProxy).Reach (roomy webProxy) (listening webProxy) _ :=
    hruns.reachable.mono fun _ _ _ => .inl (by decide)
  exact connections_shut_down hreach (by decide) (by decide)

end Tcp
