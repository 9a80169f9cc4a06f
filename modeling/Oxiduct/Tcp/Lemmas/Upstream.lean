import Oxiduct.Net.ProxyProtocol.Decode
import Oxiduct.Tcp.Lemmas.Books

/-!
This module contains what an upstream that speaks the PROXY protocol makes of a connection, whenever it
looks at what it has received.
-/

namespace Tcp

open ProxyProtocol (Header v2Header announced decode)

variable {conn : Conn} {s : State}

/--
Until the whole header has arrived the upstream knows nothing. From then on it knows the addresses of
the client, and every byte after the header is the client's.
-/
def Understood (conn : Conn) (received : Bytes) : Option (Header × Bytes) → Prop
  | none => received <+: v2Header conn.peer conn.dst ∧ received ≠ v2Header conn.peer conn.dst
  | some (header, payload) =>
    header = announced conn.peer conn.dst ∧ payload <+: conn.sent .up
      ∧ received = v2Header conn.peer conn.dst ++ payload

theorem understood_of_prefix {received : Bytes}
    (h : received <+: v2Header conn.peer conn.dst ++ conn.sent .up)
    : Understood conn received (decode.run received) := by
  have hparses := ProxyProtocol.parses_v2Header conn.peer conn.dst
  have hwhole : v2Header conn.peer conn.dst <+: received →
      Understood conn received (decode.run received) := by
    rintro ⟨payload, rfl⟩
    rw [hparses payload]
    exact ⟨rfl, (List.prefix_append_right_inj _).mp h, rfl⟩
  rcases List.prefix_or_prefix_of_prefix h (List.prefix_append _ _) with hpart | hheader
  . by_cases heq : received = v2Header conn.peer conn.dst
    . apply hwhole
      rw [heq]
    . rw [ProxyProtocol.isLocal_decode.run_eq_none hparses hpart heq]
      exact ⟨hpart, heq⟩
  . exact hwhole hheader

structure Introduced (conn : Conn) (s : State) : Prop where
  understood : Understood conn s.up.written (decode.run s.up.written)
  first : s.up.readAt ≠ [] →
    ∃ payload, decode.run s.up.written = some (announced conn.peer conn.dst, payload)

theorem introduced_of_reach (hreach : (connection conn).Reachable accepted s)
    (hproxy : conn.cfg.proxyProtocol = true)
    : Introduced conn s := by
  have hheader : conn.preamble .up = v2Header conn.peer conn.dst := by
    simp [Conn.preamble, Conn.header, hproxy]
  have hdir := (streamInv_of_reach hreach).dirOk .up
  have hwritten := hdir.written
  have hpreamble := hdir.preamble
  rw [hheader] at hwritten hpreamble
  constructor
  . exact understood_of_prefix hwritten
  . intro hread
    rcases hpreamble (.inl hread) with ⟨payload, hpayload⟩
    refine ⟨payload, ?_⟩
    show decode.run (s.copy .up).written = _
    rw [← hpayload]
    exact ProxyProtocol.parses_v2Header conn.peer conn.dst payload

variable {cfg : ProxyConfig} {server : Server} {l : ServerLabel}

theorem own_conn : Own fun task => task.conn := by
  constructor <;> intros <;> rfl

theorem cfg_effect (hguard : Server.guard cfg server l)
    (h : ∀ conn ∈ server.tasks.map Task.conn, conn.cfg = cfg)
    : ∀ conn ∈ (Server.effect server l).tasks.map Task.conn, conn.cfg = cfg := by
  cases l with
  | task i l =>
    rcases hguard with ⟨_, task, hi, _⟩
    have hsame := List.map_set_of_eq (f := Task.conn)
      (b := { task with state := effect task.conn task.state l }) hi rfl
    simp only [Server.effect, hi, Server.moveTask, hsame]
    exact h
  | env act =>
    have htasks := own_conn.map_tasks_effect (l := .env act) server (by simp)
    rw [htasks, show entered server (.env act) = [] from rfl, List.map_nil, List.append_nil]
    exact h
  | listener act =>
    have htasks := own_conn.map_tasks_effect (l := .listener act) server (by simp)
    rw [htasks, List.forall_mem_append]
    refine ⟨h, ?_⟩
    cases act with
    | accept conn slot =>
      intro conn' hmem
      rw [List.mem_singleton.mp hmem]
      exact hguard.2.1
    | _ => simp [entered]

theorem cfg_of_reach {ok : Server → ServerLabel → Prop}
    (hreach : (serveGraceful cfg).Reach ok (listening cfg) server)
    : ∀ task ∈ server.tasks, task.conn.cfg = cfg := by
  have hconns : ∀ conn ∈ server.tasks.map Task.conn, conn.cfg = cfg :=
    hreach.invariant (p := fun server => ∀ conn ∈ server.tasks.map Task.conn, conn.cfg = cfg)
      (by simp [listening]) fun _ _ h hguard _ => cfg_effect hguard h
  exact fun task hmem => hconns task.conn (List.mem_map_of_mem hmem)

theorem introduced_of_serving {ok : Server → ServerLabel → Prop}
    (hreach : (serveGraceful cfg).Reach ok (listening cfg) server)
    (hproxy : cfg.proxyProtocol = true)
    : ∀ task ∈ server.tasks, Introduced task.conn task.state := by
  intro task hmem
  have hinv : TasksInv server :=
    hreach.invariant (tasksInv_listening cfg) fun _ _ h hguard _ => h.effect hguard
  apply introduced_of_reach (hinv.tasks task hmem).reach
  rw [cfg_of_reach hreach task hmem]
  exact hproxy

end Tcp
