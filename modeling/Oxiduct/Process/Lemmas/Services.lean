import Oxiduct.Process.Lemmas.Exit
import Oxiduct.Process.Lemmas.Registry
import Oxiduct.Tcp.Lemmas.Upstream

/-!
This module contains that the process is nothing but its services side by side, and what follows for
all of them from what is proved of one: what the upstreams of a TCP proxy are told, and how the books
of one stand when the process exits.
-/

namespace Process

open Metrics (Registry)

variable {settings : Settings} {s : State} {ok : Service → Prop}

theorem services_refine (hstart : ∀ spec w, ok (Spec.start w spec))
    (hreach : (main settings).Reach (fun s _ => Serving ok s) (launch settings) s)
    : ∀ task ∈ s.tasks, ∀ service, task.phase = .serving service →
        task.spec.Serves service ∧ service.Sees s.world ∧ service.Reached ok := by
  intro task hmem service hphase
  have hservice := ((inv_of_reach hstart hreach).tasks task hmem).service service hphase
  exact ⟨hservice.serves, hservice.sees, hservice.reached⟩

set_option maxRecDepth 4000 in
theorem services_refine_relaying
    : let s := (main webSettings).exec (launch webSettings) Label.relaying
      ∃ task ∈ s.tasks, ∃ service, task.phase = .serving service ∧ service.active = 1
        ∧ service.Reached fun _ => True := by
  intro s
  have hruns : (main webSettings).Runs (launch webSettings) Label.relaying := by
    decide
  have hreach : (main webSettings).Reach (fun s _ => Serving (fun _ => True) s)
      (launch webSettings) s :=
    hruns.reachable.mono fun _ _ _ _ _ _ _ => trivial
  have hrefine := services_refine (fun _ _ => trivial) hreach
  have hmem : s.tasks.get ⟨1, by decide⟩ ∈ s.tasks := List.get_mem ..
  exact ⟨_, hmem, _, rfl, rfl, (hrefine _ hmem _ rfl).2.2⟩

theorem upstreams_introduced (hreach : (main settings).Reachable (launch settings) s)
    : ∀ task ∈ s.tasks, ∀ cfg t, task.phase = .serving (.tcp cfg t) → cfg.proxyProtocol = true →
        ∀ conn ∈ t.tasks, Tcp.Introduced conn.conn conn.state := by
  intro task hmem cfg t hphase hproxy conn hconn
  have hservice := ((inv_of_reachable hreach).tasks task hmem).service _ hphase
  exact Tcp.introduced_of_serving hservice.reached hproxy conn hconn

def introducingProxy : ProxyConfig :=
  { webProxy with proxyProtocol := true }

def introducingConn : Tcp.Conn :=
  { webConn with cfg := introducingProxy }

def Label.introducing : List Tcp.ServerLabel :=
  [.listener .pollNone, .listener (.accept introducingConn ⟨introducingConn.peer.ip⟩)]
    ++ [Tcp.Label.handle .pollConnect, .handle .connected, .handle .pollHeader,
      .handle (.acceptHeader 28), .handle .headerWritten, .handle .start, .copy .up .poll,
      .copy .up (.read [1, 2]), .copy .up .pollWrite, .copy .up (.accept 1)].map (.task 0)

def State.upstreamBytes (s : State) : Nat :=
  (s.tasks.map fun task =>
    match task.phase with
    | .serving (.tcp _ t) => (t.tasks.map fun conn => conn.state.up.written.length).sum
    | _ => 0).sum

set_option maxRecDepth 4000 in
theorem upstreams_introduced_first_byte
    : let settings := { webSettings with proxies := [introducingProxy] }
      let s := (main settings).exec (launch settings)
        (Label.started ++ Label.introducing.map fun l => .task 1 (.step (.tcp l)))
      s.upstreamBytes = 29
        ∧ ∀ task ∈ s.tasks, ∀ cfg t, task.phase = .serving (.tcp cfg t) → cfg.proxyProtocol = true →
          ∀ conn ∈ t.tasks, Tcp.Introduced conn.conn conn.state := by
  intro settings s
  have hruns : (main settings).Runs (launch settings)
      (Label.started ++ Label.introducing.map fun l => .task 1 (.step (.tcp l))) := by
    decide
  exact ⟨by decide, upstreams_introduced hruns.reachable⟩

theorem Inv.returned_of_endedWell (h : Inv ok s) {task : Task} (hmem : task ∈ s.tasks)
    (hended : task.endedWell)
    : ∃ service, task.phase = .serving service ∧ service.returned = true
        ∧ ServiceInv ok s.world task.spec service := by
  rcases (h.tasks task hmem).returned hended.2 with ⟨service, hphase, hreturned⟩
  exact ⟨service, hphase, hreturned, (h.tasks task hmem).service service hphase⟩

def reasons : List Tcp.Reason :=
  [.eof, .reset, .idleTimeout, .halfCloseTimeout, .shutdown]

theorem sum_countP_reasons (closed : List Tcp.Reason)
    : (reasons.map fun reason => UInt64.ofNat
          ((closed.map Tcp.Reason.label).countP fun label => [label] = [reason.label])).sum
        = UInt64.ofNat closed.length := by
  induction closed with
  | nil => rfl
  | cons reason closed ih =>
    rw [List.length_cons, UInt64.ofNat_add, ← ih]
    cases reason <;>
      simp [reasons, Tcp.Reason.label, UInt64.ofNat_add] <;> ac_rfl

def closings (r : Registry) (name : String) : UInt64 :=
  (reasons.map fun reason => r.counter .connectionsClosed [name, reason.label]).sum

namespace Recorded

variable {r : Registry} {cfg : ProxyConfig} {t : Tcp.Server}

theorem counter_tcp (h : Recorded r cfg (.serving (.tcp cfg t))) (hprotocol : cfg.protocol = .tcp)
    (family : Metrics.Counter) (rest : Metrics.Labels)
    : r.counter family (cfg.name :: rest) = t.counts.counter "tcp" family rest := by
  rw [h.counter, hprotocol]
  rfl

theorem closings_eq (h : Recorded r cfg (.serving (.tcp cfg t))) (hprotocol : cfg.protocol = .tcp)
    : closings r cfg.name = UInt64.ofNat t.closed.length := by
  rw [← sum_countP_reasons, closings]
  congr 1
  apply List.map_congr_left
  intro reason _
  exact h.counter_tcp hprotocol .connectionsClosed [reason.label]

theorem total_eq (h : Recorded r cfg (.serving (.tcp cfg t))) (hprotocol : cfg.protocol = .tcp)
    (hbalanced : Tcp.Balanced t) (huncut : Tcp.Uncut t)
    : r.counter .connectionsTotal [cfg.name, "tcp"]
        = closings r cfg.name + r.counter .connectFailures [cfg.name]
          + r.counter .connectTimeouts [cfg.name] := by
  have haborted :
      t.tasks.countP (fun task => task.state.handle.endedIn Tcp.Outcome.isAborted) = 0 := by
    apply List.countP_eq_zero.mpr
    intro task hmem
    simp [huncut.aborted task hmem]
  have hcounted := hbalanced.counted
  rw [haborted, Nat.add_zero] at hcounted
  rw [h.closings_eq hprotocol, h.counter_tcp hprotocol, h.counter_tcp hprotocol,
    h.counter_tcp hprotocol]
  simp only [Metrics.Counts.counter, Tcp.Server.counts, if_true, hcounted, UInt64.ofNat_add]

end Recorded

theorem ServiceInv.balanced {w : World} {spec : Spec} {cfg : ProxyConfig} {t : Tcp.Server}
    (h : ServiceInv ok w spec (.tcp cfg t)) (hreturned : (Service.tcp cfg t).returned = true)
    : Tcp.Balanced t := by
  have hpc : t.listener = .returned := by simpa [Service.returned] using hreturned
  exact (Tcp.booksInv_of_reach h.reached).balanced cfg hpc

theorem exit_zero_balances {args : Cli} (hsettings : resolve args = .ok settings)
    (hreach : (main settings).Reachable (launch settings) s) (hexited : s.main = .exited 0)
    : ∀ task ∈ s.tasks, ∀ cfg, task.spec = .proxy cfg → cfg.protocol = .tcp →
        (∃ t, task.phase = .serving (.tcp cfg t)
            ∧ ∀ conn ∈ t.tasks, conn.state.finished = true ∧ conn.joined = true)
          ∧ s.registry.gauge .active [cfg.name] = 0
          ∧ (s.world.forceShutdown = false →
            s.registry.counter .connectionsTotal [cfg.name, "tcp"]
              = closings s.registry cfg.name + s.registry.counter .connectFailures [cfg.name]
                + s.registry.counter .connectTimeouts [cfg.name]) := by
  intro task hmem cfg hspec hprotocol
  have hended : task.endedWell := by
    have hmain := mainInv_of_reachable hsettings hreach
    rw [MainInv, hexited] at hmain
    rcases hmain with ⟨_, _, hall⟩ | ⟨hcode, _⟩
    . exact hall task hmem
    . cases hcode
  have hrecorded := (registryInv_of_reachable hsettings hreach).recorded task hmem cfg hspec
  rcases (inv_of_reachable hreach).returned_of_endedWell hmem hended with
    ⟨service, hphase, hreturned, hservice⟩
  rw [hspec] at hservice
  rw [hphase] at hrecorded
  have hserves := hservice.serves
  cases service with
  | tcp cfg' t =>
    rcases hserves with ⟨rfl, _⟩
    have hbalanced := hservice.balanced hreturned
    refine ⟨⟨t, hphase, hbalanced.finished⟩, ?_, ?_⟩
    . rw [hrecorded.gauge]
      exact hbalanced.active
    . intro hforce
      exact hrecorded.total_eq hprotocol hbalanced (hservice.uncut hforce)
  | udp cfg' t =>
    rw [hserves.2] at hprotocol
    cases hprotocol
  | exporter t => exact hserves.elim

def Label.refused : List Label :=
  Label.started
    ++ ([.listener .pollNone, .listener (.accept webConn ⟨webConn.peer.ip⟩),
      .task 0 (.handle .pollConnect), .task 0 (.handle .connectErr), .listener .pollNone,
      .listener (.join 0)] : List Tcp.ServerLabel).map (fun l => .task 1 (.step (.tcp l)))
    ++ Label.stopped

set_option maxRecDepth 4000 in
theorem exit_zero_balances_refused
    : let s := (main webSettings).exec (launch webSettings) Label.refused
      s.registry.gauge .active [webProxy.name] = 0
        ∧ s.registry.counter .connectionsTotal [webProxy.name, "tcp"]
          = closings s.registry webProxy.name + s.registry.counter .connectFailures [webProxy.name]
            + s.registry.counter .connectTimeouts [webProxy.name] := by
  intro s
  have hruns : (main webSettings).Runs (launch webSettings) Label.refused := by decide
  have hmem : s.tasks.get ⟨1, by decide⟩ ∈ s.tasks := List.get_mem ..
  have hbalances := exit_zero_balances resolve_webArgs hruns.reachable rfl _ hmem webProxy rfl rfl
  exact ⟨hbalances.2.1, hbalances.2.2 rfl⟩

end Process
