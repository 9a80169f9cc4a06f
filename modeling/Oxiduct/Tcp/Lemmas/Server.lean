import Oxiduct.Limits.Lemmas
import Oxiduct.Tcp.Lemmas.Watchdog
import Oxiduct.Tcp.Server

/-!
This module contains the tasks of `tcp::serve_graceful`: whatever the proxy does is, to each of its
tasks, a run of that task's connection. What holds of every run of a connection then holds of every
task of a proxy.
-/

namespace Tcp

open Limits

variable {cfg : ProxyConfig} {s : Server} {l : ServerLabel}

def ServerLabel.project (i : Nat) : ServerLabel → List Label
  | .env act => act.act.map .env
  | .listener _ => []
  | .task j l => if j = i then [l] else []

structure Synced (s : Server) : Prop where
  now_lt : s.now < u64Max
  now : ∀ task ∈ s.tasks, task.state.now = s.now
  shutdown : ∀ task ∈ s.tasks, task.state.shutdown = s.forceShutdown

theorem exec_env (conn : Conn) (state : State) (acts : List EnvAct)
    : (connection conn).exec state (acts.map .env) = acts.foldl EnvAct.effect state := by
  induction acts generalizing state with
  | nil => rfl
  | cons act acts ih => exact ih _

theorem ServerEnvAct.tasks_effect (s : Server) (act : ServerEnvAct)
    : (act.effect s).tasks
        = s.tasks.map fun task => { task with state := act.act.foldl EnvAct.effect task.state } := by
  cases act with
  | stopAccepting => exact (List.map_id _).symm
  | _ => rfl

theorem ServerEnvAct.runs (hsync : Synced s) {act : ServerEnvAct} (hguard : act.guard s)
    {task : Task} (hmem : task ∈ s.tasks)
    : (connection task.conn).Runs task.state (act.act.map .env) := by
  cases act with
  | stopAccepting => trivial
  | forceShutdown => exact ⟨trivial, trivial⟩
  | advance now =>
    refine ⟨⟨?_, hguard.2⟩, trivial⟩
    rw [hsync.now task hmem]
    exact hguard.1

theorem task_effect (hsync : Synced s) (hguard : Server.guard cfg s l) {i : Nat} {task : Task}
    (hi : s.tasks[i]? = some task)
    : (connection task.conn).Runs task.state (l.project i)
        ∧ ∃ joined, (joined = task.joined ∨ task.state.finished = true)
            ∧ (Server.effect s l).tasks[i]?
              = some { task with
                  state := (connection task.conn).exec task.state (l.project i), joined } := by
  cases l with
  | env act =>
    refine ⟨act.runs hsync hguard (List.mem_of_getElem? hi), task.joined, .inl rfl, ?_⟩
    rw [Server.effect, act.tasks_effect, List.getElem?_map, hi, ServerLabel.project, exec_env]
    rfl
  | listener act =>
    refine ⟨trivial, ?_⟩
    cases act with
    | join j =>
      simp only [Server.effect, ListenerAct.effect, List.getElem?_modify, hi]
      split
      . next heq =>
        subst heq
        rcases hguard with ⟨_, task', hj, hfinished, _⟩
        rw [hi] at hj
        cases hj
        exact ⟨true, .inr hfinished, rfl⟩
      . exact ⟨task.joined, .inl rfl, rfl⟩
    | accept conn slot =>
      refine ⟨task.joined, .inl rfl, ?_⟩
      simp only [Server.effect, ListenerAct.effect]
      rw [List.getElem?_append_left (List.getElem?_eq_some_iff.mp hi).1]
      exact hi
    | _ => exact ⟨task.joined, .inl rfl, hi⟩
  | task j l =>
    rcases hguard with ⟨_, task', hj, hguard⟩
    simp only [Server.effect, hj, Server.moveTask, ServerLabel.project]
    split
    . next heq =>
      subst heq
      rw [hi] at hj
      cases hj
      refine ⟨⟨hguard, trivial⟩, task.joined, .inl rfl, ?_⟩
      rw [List.getElem?_set_self (List.getElem?_eq_some_iff.mp hi).1]
      rfl
    . next hne =>
      refine ⟨trivial, task.joined, .inl rfl, ?_⟩
      rw [List.getElem?_set_ne hne]
      exact hi

theorem exists_task_of_effect (hguard : Server.guard cfg s l) {task : Task}
    (hmem : task ∈ (Server.effect s l).tasks)
    : (∃ conn slot, l = .listener (.accept conn slot)
        ∧ task = ⟨conn, slot, { accepted with now := s.now, shutdown := s.forceShutdown }, false⟩)
      ∨ ∃ (i : Nat) (task' : Task),
          s.tasks[i]? = some task' ∧ (Server.effect s l).tasks[i]? = some task := by
  rcases List.getElem?_of_mem hmem with ⟨i, hi⟩
  by_cases hlt : i < s.tasks.length
  . exact .inr ⟨i, _, List.getElem?_eq_getElem hlt, hi⟩
  . left
    have hlength : (Server.effect s l).tasks.length ≠ s.tasks.length := by
      have := (List.getElem?_eq_some_iff.mp hi).1
      omega
    cases l with
    | env act =>
      rw [Server.effect, act.tasks_effect, List.length_map] at hlength
      exact absurd rfl hlength
    | listener act =>
      cases act with
      | join j => simp [Server.effect, ListenerAct.effect] at hlength
      | accept conn slot =>
        simp only [Server.effect, ListenerAct.effect] at hi
        rw [List.getElem?_append_right (by omega)] at hi
        exact ⟨conn, slot, rfl, List.mem_singleton.mp (List.mem_of_getElem? hi)⟩
      | _ => exact absurd rfl hlength
    | task j l =>
      rcases hguard with ⟨_, task', hj, _⟩
      simp [Server.effect, hj, Server.moveTask] at hlength

theorem clock_effect {conn : Conn} {state : State} {l : Label} (hl : l.isEnv = false)
    : (effect conn state l).now = state.now
        ∧ (effect conn state l).shutdown = state.shutdown := by
  cases l with
  | env act => cases hl
  | handle act =>
    have hframe := act.effect_frame conn state
    exact ⟨hframe.1, hframe.2.1⟩
  | watch act => exact ⟨act.now_effect conn state, act.shutdown_effect conn state⟩
  | copy dir act => exact ⟨act.now_effect state dir, act.shutdown_effect state dir⟩

theorem Synced.project (hguard : Server.guard cfg s l) {conn : Conn} {state : State}
    (hnow : state.now = s.now) (hshutdown : state.shutdown = s.forceShutdown) (i : Nat)
    : ((connection conn).exec state (l.project i)).now = (Server.effect s l).now
        ∧ ((connection conn).exec state (l.project i)).shutdown
            = (Server.effect s l).forceShutdown := by
  cases l with
  | env act =>
    cases act with
    | stopAccepting => exact ⟨hnow, hshutdown⟩
    | forceShutdown => exact ⟨hnow, rfl⟩
    | advance now => exact ⟨rfl, hshutdown⟩
  | listener act => cases act <;> exact ⟨hnow, hshutdown⟩
  | task j l =>
    rcases hguard with ⟨hl, task, hj, _⟩
    simp only [Server.effect, hj, Server.moveTask, ServerLabel.project]
    split
    . have hclock := @clock_effect conn state _ hl
      exact ⟨hclock.1.trans hnow, hclock.2.trans hshutdown⟩
    . exact ⟨hnow, hshutdown⟩

theorem State.finished_iff {state : State}
    : state.finished = true ↔ ∃ outcome checked, state.handle = .returned outcome checked := by
  unfold finished
  cases state.handle <;> simp [HandlePc.isReturned]

theorem finished_effect {conn : Conn} {state : State} {l : Label} (hguard : guard conn state l)
    (hfinished : state.finished = true)
    : (effect conn state l).finished = true := by
  rcases State.finished_iff.mp hfinished with ⟨outcome, checked, hpc⟩
  cases l with
  | env act => cases act <;> exact hfinished
  | handle act => cases act <;> simp [Tcp.guard, HandleAct.guard, hpc] at hguard
  | watch act =>
    have hwatch : ∃ pc, state.handle = .watch pc := by
      cases act <;> exact ⟨_, hguard.1⟩
    rcases hwatch with ⟨pc, hwatch⟩
    rw [hpc] at hwatch
    cases hwatch
  | copy dir act =>
    rw [State.finished, effect, CopyAct.handle_effect]
    exact hfinished

theorem finished_exec {conn : Conn} {state : State} {ls : List Label}
    (hruns : (connection conn).Runs state ls) (hfinished : state.finished = true)
    : ((connection conn).exec state ls).finished = true := by
  induction ls generalizing state with
  | nil => exact hfinished
  | cons l ls ih => exact ih hruns.2 (finished_effect hruns.1 hfinished)

structure TaskInv (task : Task) : Prop where
  reach : (connection task.conn).Reachable accepted task.state
  slot : task.slot.srcIp = task.conn.peer.ip
  joined : task.joined = true → task.state.finished = true

structure TasksInv (s : Server) : Prop where
  sync : Synced s
  tasks : ∀ task ∈ s.tasks, TaskInv task

theorem accepted_reachable (conn : Conn) {now : Nat} (hnow : now < u64Max) (shutdown : Bool)
    : (connection conn).Reachable accepted { accepted with now, shutdown } := by
  have htick : (connection conn).Runs accepted [.env (.advance now)] :=
    ⟨⟨Nat.zero_le _, hnow⟩, trivial⟩
  cases shutdown with
  | false => exact htick.reachable
  | true =>
    have hshutdown : (connection conn).Runs accepted [.env (.advance now), .env .shutdown] :=
      ⟨htick.1, trivial, trivial⟩
    exact hshutdown.reachable

theorem now_lt_effect (hsync : Synced s) (hguard : Server.guard cfg s l)
    : (Server.effect s l).now < u64Max := by
  cases l with
  | env act =>
    cases act with
    | advance now => exact hguard.2
    | _ => exact hsync.now_lt
  | listener act => cases act <;> exact hsync.now_lt
  | task i l =>
    rcases hguard with ⟨_, task, hi, _⟩
    simp only [Server.effect, hi]
    exact hsync.now_lt

theorem tasksInv_listening (cfg : ProxyConfig) : TasksInv (listening cfg) where
  sync := ⟨show 0 < u64Max by decide, by simp [listening], by simp [listening]⟩
  tasks := by simp [listening]

theorem TasksInv.effect (hinv : TasksInv s) (hguard : Server.guard cfg s l)
    : TasksInv (Server.effect s l) := by
  have htask : ∀ task ∈ (Server.effect s l).tasks,
      TaskInv task ∧ task.state.now = (Server.effect s l).now
        ∧ task.state.shutdown = (Server.effect s l).forceShutdown := by
    intro task hmem
    rcases exists_task_of_effect hguard hmem with ⟨conn, slot, rfl, rfl⟩ | ⟨i, old, hold, hi⟩
    . refine ⟨⟨?_, ?_, ?_⟩, rfl, rfl⟩
      . apply accepted_reachable conn hinv.sync.now_lt
      . exact ConnLimits.srcIp_of_ok hguard.2.2
      . simp
    . have hmem' := List.mem_of_getElem? hold
      have hbefore := hinv.tasks old hmem'
      rcases task_effect hinv.sync hguard hold with ⟨hruns, joined, hjoined, heffect⟩
      rw [hi] at heffect
      cases heffect
      refine ⟨⟨?_, hbefore.slot, ?_⟩, ?_⟩
      . exact hbefore.reach.exec hruns (Machine.steps_true _ _)
      . intro h
        apply finished_exec hruns
        rcases hjoined with rfl | hfinished
        . exact hbefore.joined h
        . exact hfinished
      . exact Synced.project hguard (hinv.sync.now old hmem') (hinv.sync.shutdown old hmem') i
  constructor
  . constructor
    . apply now_lt_effect hinv.sync hguard
    . exact fun task hmem => (htask task hmem).2.1
    . exact fun task hmem => (htask task hmem).2.2
  . exact fun task hmem => (htask task hmem).1

theorem exec_task (cfg : ProxyConfig) {i : Nat} {task : Task} (hi : s.tasks[i]? = some task)
    {ls : List Label}
    (hruns : (connection task.conn).Runs task.state ls) (henv : ∀ l ∈ ls, l.isEnv = false)
    : let last := (connection task.conn).exec task.state ls
      let s' := (serveGraceful cfg).exec s (ls.map (.task i))
      (serveGraceful cfg).Runs s (ls.map (.task i))
        ∧ s'.tasks[i]? = some { task with state := last }
        ∧ s'.limits
            = if last.finished && !task.state.finished then s.limits.release task.slot
              else s.limits := by
  induction ls generalizing s task with
  | nil => simp [hi]
  | cons l ls ih =>
    have heffect : Server.effect s (.task i l)
        = s.moveTask i task (effect task.conn task.state l) := by
      simp only [Server.effect, hi]
    have hmoved : (Server.effect s (.task i l)).tasks[i]?
        = some { task with state := effect task.conn task.state l } := by
      rw [heffect, Server.moveTask]
      exact List.getElem?_set_self (List.getElem?_eq_some_iff.mp hi).1
    have hguard : Server.guard cfg s (.task i l) :=
      ⟨henv l (List.mem_cons_self ..), task, hi, hruns.1⟩
    rcases ih hmoved hruns.2 (fun l' hl' => henv l' (List.mem_cons_of_mem l hl')) with
      ⟨hruns', htask, hlimits⟩
    refine ⟨⟨hguard, hruns'⟩, htask, hlimits.trans ?_⟩
    rw [heffect, Server.moveTask]
    -- a task ends once
    cases hbefore : task.state.finished with
    | true =>
      have hnow := finished_effect hruns.1 hbefore
      simp [connection, hnow]
    | false =>
      cases hnow : (effect task.conn task.state l).finished with
      | true =>
        have hlast := finished_exec hruns.2 hnow
        simp only [connection] at hlast ⊢
        simp [hlast]
      | false => simp [connection]

end Tcp
