import Oxiduct.Config.Address
import Oxiduct.Config.Basic
import Mathlib.Logic.Unique

/-!
This module contains how a `ProxyConfig` comes about (`config.rs`): from the command line or from the
entries of a parsed config file, both checked by `ProxyConfig::validate`.
-/

def maxKeepaliveSecs : UInt64 := 32767
def maxKeepaliveRetries : UInt64 := 127

def withContext (context : String) : Except ErrorChain α → Except ErrorChain α
  | .ok a => .ok a
  | .error chain => .error (context :: chain)

def okOr (o : Option α) (message : String) : Except ErrorChain α :=
  match o with
  | some a => .ok a
  | none => .error [message]

def bailIf (p : Prop) [Decidable p] (message : String) : Except ErrorChain Unit :=
  if p then .error [message] else .ok ()

namespace ProxyConfig

open Config

def message (self : ProxyConfig) (text : String) : String :=
  "proxy \"" ++ self.name ++ "\": " ++ text

def checkKeepalive (self : ProxyConfig) (key : String) (value max : UInt64)
    : Except ErrorChain Unit :=
  bailIf (max < value) (self.message (key ++ " must be at most " ++ toString max))

def validate (self : ProxyConfig) : Except ErrorChain Unit := do
  let _ ← withContext (self.message "invalid listen address") (checkHostPort self.listen)
  let targetPort ← withContext (self.message "invalid target address") (checkHostPort self.target)
  bailIf (targetPort = 0) (self.message "target port must not be 0")
  bailIf (self.connectTimeoutSecs = 0) (self.message "connect_timeout must be at least 1 second")
  self.checkKeepalive "keepalive_idle" self.keepaliveIdleSecs maxKeepaliveSecs
  self.checkKeepalive "keepalive_interval" self.keepaliveIntervalSecs maxKeepaliveSecs
  self.checkKeepalive "keepalive_retries" self.keepaliveRetries.toUInt64 maxKeepaliveRetries

end ProxyConfig

structure Args where
  listen : Option String
  target : Option String
  protocol : Protocol
  connectTimeout : UInt64
  keepaliveIdle : UInt64
  keepaliveInterval : UInt64
  keepaliveRetries : UInt32
  userTimeoutMs : UInt32
  idleTimeout : UInt64
  halfCloseTimeout : UInt64
  maxConnections : UInt32
  maxPerIp : UInt32
  proxyProtocol : Bool

structure TomlTuning where
  connectTimeout : Option UInt64 := none
  keepaliveIdle : Option UInt64 := none
  keepaliveInterval : Option UInt64 := none
  keepaliveRetries : Option UInt32 := none
  userTimeoutMs : Option UInt32 := none
  idleTimeout : Option UInt64 := none
  halfCloseTimeout : Option UInt64 := none
  maxConnections : Option UInt32 := none
  maxPerIp : Option UInt32 := none
  proxyProtocol : Option Bool := none

structure TomlProxy extends TomlTuning where
  name : Option String
  listen : String
  target : String
  protocol : Protocol

structure TomlFile where
  defaults : TomlTuning
  metricsListen : Option String
  shutdownGrace : Option UInt64
  proxies : List TomlProxy

structure LoadedConfig where
  proxies : List ProxyConfig
  metricsListen : Option String
  shutdownGrace : Option UInt64

namespace ProxyConfig

open Config

def fromCli (args : Args) : Except ErrorChain ProxyConfig := do
  let listen ← okOr (args.listen.map expandListen) "--listen required in single-proxy mode"
  let target ← okOr args.target "--target required in single-proxy mode"
  let cfg := {
    name := listen ++ " -> " ++ target
    listen := listen
    target := target
    protocol := args.protocol
    connectTimeoutSecs := args.connectTimeout
    keepaliveIdleSecs := args.keepaliveIdle
    keepaliveIntervalSecs := args.keepaliveInterval
    keepaliveRetries := args.keepaliveRetries
    userTimeoutMs := args.userTimeoutMs
    idleTimeoutSecs := args.idleTimeout
    halfCloseTimeoutSecs := args.halfCloseTimeout
    maxConnections := args.maxConnections
    maxPerIp := args.maxPerIp
    proxyProtocol := args.proxyProtocol
  }
  cfg.validate
  .ok cfg

def knob (own base : Option α) (default : α) : α :=
  (own.or base).getD default

def fromToml (index : Nat) (p : TomlProxy) (base : TomlTuning) : ProxyConfig :=
  let listen := expandListen p.listen
  {
    name := p.name.getD ("proxy-" ++ toString index ++ ": " ++ listen ++ " -> " ++ p.target)
    listen := listen
    target := p.target
    protocol := p.protocol
    connectTimeoutSecs := knob p.connectTimeout base.connectTimeout Defaults.connectTimeoutSecs
    keepaliveIdleSecs := knob p.keepaliveIdle base.keepaliveIdle Defaults.keepaliveIdleSecs
    keepaliveIntervalSecs :=
      knob p.keepaliveInterval base.keepaliveInterval Defaults.keepaliveIntervalSecs
    keepaliveRetries := knob p.keepaliveRetries base.keepaliveRetries Defaults.keepaliveRetries
    userTimeoutMs := knob p.userTimeoutMs base.userTimeoutMs Defaults.userTimeoutMs
    idleTimeoutSecs := knob p.idleTimeout base.idleTimeout Defaults.idleTimeoutSecs
    halfCloseTimeoutSecs :=
      knob p.halfCloseTimeout base.halfCloseTimeout Defaults.halfCloseTimeoutSecs
    maxConnections := knob p.maxConnections base.maxConnections Defaults.maxConnections
    maxPerIp := knob p.maxPerIp base.maxPerIp Defaults.maxPerIp
    proxyProtocol := knob p.proxyProtocol base.proxyProtocol false
  }

end ProxyConfig

def TomlFile.resolve (file : TomlFile) : List ProxyConfig :=
  file.proxies.mapIdx fun i p => ProxyConfig.fromToml i p file.defaults

namespace Config

def checkProxies (names : List String) (listens : List (Protocol × String))
    : List ProxyConfig → Except ErrorChain Unit
  | [] => .ok ()
  | p :: ps => do
    p.validate
    bailIf (p.name ∈ names) ("duplicate proxy name \"" ++ p.name ++ "\"")
    bailIf ((p.protocol, p.listen) ∈ listens) ("duplicate listen address \"" ++ p.listen ++ "\"")
    checkProxies (p.name :: names) ((p.protocol, p.listen) :: listens) ps

def load (file : TomlFile) : Except ErrorChain LoadedConfig := do
  bailIf (file.proxies = []) "config file defines no [[proxy]] entries"
  checkProxies [] [] file.resolve
  .ok ⟨file.resolve, file.metricsListen, file.shutdownGrace⟩

end Config

theorem bind_eq_ok_iff {x : Except ErrorChain α} {f : α → Except ErrorChain β} {b : β}
    : (x >>= f) = .ok b ↔ ∃ a, x = .ok a ∧ f a = .ok b := by
  cases x <;> simp [Bind.bind, Except.bind]

theorem bind_eq_error_iff {x : Except ErrorChain α} {f : α → Except ErrorChain β}
    {chain : ErrorChain}
    : (x >>= f) = .error chain ↔ x = .error chain ∨ ∃ a, x = .ok a ∧ f a = .error chain := by
  cases x <;> simp [Bind.bind, Except.bind]

@[simp]
theorem withContext_eq_ok_iff {context : String} {ret : Except ErrorChain α} {a : α}
    : withContext context ret = .ok a ↔ ret = .ok a := by
  cases ret <;> simp [withContext]

theorem withContext_eq_error_iff {context : String} {ret : Except ErrorChain α}
    {chain : ErrorChain}
    : withContext context ret = .error chain
        ↔ ∃ source, ret = .error source ∧ chain = context :: source := by
  cases ret <;> simp [withContext, eq_comm]

@[simp]
theorem bailIf_eq_ok_iff {p : Prop} [Decidable p] {message : String}
    : bailIf p message = .ok () ↔ ¬ p := by
  unfold bailIf
  split <;> simp [*]

theorem bailIf_eq_error_iff {p : Prop} [Decidable p] {message : String} {chain : ErrorChain}
    : bailIf p message = .error chain ↔ p ∧ chain = [message] := by
  unfold bailIf
  split <;> simp [*, eq_comm]

namespace ProxyConfig

open Config

theorem validate_eq_ok_iff {self : ProxyConfig}
    : self.validate = .ok ()
        ↔
      (∃ port, checkHostPort self.listen = .ok port)
        ∧ (∃ port, checkHostPort self.target = .ok port ∧ port ≠ 0)
        ∧ self.connectTimeoutSecs ≠ 0
        ∧ self.keepaliveIdleSecs ≤ maxKeepaliveSecs
        ∧ self.keepaliveIntervalSecs ≤ maxKeepaliveSecs
        ∧ self.keepaliveRetries.toUInt64 ≤ maxKeepaliveRetries := by
  unfold validate checkKeepalive
  simp only [bind_eq_ok_iff, Unique.exists_iff, PUnit.default_eq_unit, withContext_eq_ok_iff,
    bailIf_eq_ok_iff, UInt64.not_lt]
  constructor
  . rintro ⟨listenPort, hlisten, targetPort, htarget, hport, hknobs⟩
    exact ⟨⟨listenPort, hlisten⟩, ⟨targetPort, htarget, hport⟩, hknobs⟩
  . rintro ⟨⟨listenPort, hlisten⟩, ⟨targetPort, htarget, hport⟩, hknobs⟩
    exact ⟨listenPort, hlisten, targetPort, htarget, hport, hknobs⟩

theorem validate_error_names_proxy {self : ProxyConfig} {chain : ErrorChain}
    (h : self.validate = .error chain)
    : ∃ text rest, chain = self.message text :: rest := by
  unfold validate checkKeepalive at h
  simp only [bind_eq_error_iff, bailIf_eq_error_iff, withContext_eq_error_iff] at h
  grind

theorem validate_of_fromCli {args : Args} {cfg : ProxyConfig} (h : fromCli args = .ok cfg)
    : cfg.validate = .ok () := by
  unfold fromCli at h
  simp only [bind_eq_ok_iff, Unique.exists_iff, PUnit.default_eq_unit] at h
  rcases h with ⟨listen, _, target, _, hvalidate, hcfg⟩
  rw [Except.ok.injEq] at hcfg
  rwa [hcfg] at hvalidate

end ProxyConfig

namespace Config

theorem checkProxies_eq_ok_iff {names : List String} {listens : List (Protocol × String)}
    {ps : List ProxyConfig}
    : checkProxies names listens ps = .ok ()
        ↔
      (∀ p ∈ ps, p.validate = .ok ())
        ∧ (ps.map ProxyConfig.name).Nodup ∧ (∀ p ∈ ps, p.name ∉ names)
        ∧ (ps.map fun p => (p.protocol, p.listen)).Nodup
        ∧ ∀ p ∈ ps, (p.protocol, p.listen) ∉ listens := by
  induction ps generalizing names listens with
  | nil => simp [checkProxies]
  | cons p ps ih =>
    unfold checkProxies
    simp only [bind_eq_ok_iff, Unique.exists_iff, PUnit.default_eq_unit, bailIf_eq_ok_iff, ih,
      List.map_cons, List.nodup_cons, List.mem_map, List.mem_cons, forall_eq_or_imp]
    grind

theorem load_eq_ok {file : TomlFile} {loaded : LoadedConfig} (h : load file = .ok loaded)
    : (∀ p ∈ loaded.proxies, p.validate = .ok ())
        ∧ (loaded.proxies.map ProxyConfig.name).Nodup
        ∧ (loaded.proxies.map fun p => (p.protocol, p.listen)).Nodup := by
  unfold load at h
  simp only [bind_eq_ok_iff, Unique.exists_iff, PUnit.default_eq_unit, checkProxies_eq_ok_iff] at h
  rcases h with ⟨_, ⟨hvalidate, hnames, _, hlistens, _⟩, hloaded⟩
  rw [Except.ok.injEq] at hloaded
  rw [← hloaded]
  exact ⟨hvalidate, hnames, hlistens⟩

def SameBind (p q : ProxyConfig) : Prop :=
  p.protocol = q.protocol
    ∧ ∃ host pPort qPort port, Text.rsplitOnce ':' p.listen.toList = some (host, pPort)
      ∧ Text.rsplitOnce ':' q.listen.toList = some (host, qPort)
      ∧ parseU16 pPort = some port ∧ parseU16 qPort = some port ∧ port ≠ 0

/--
Two proxies of one protocol and host text whose port texts differ, but only in a leading `+` and
leading zeros, and are not all zeros.
-/
def Respelled (p q : ProxyConfig) : Prop :=
  p.protocol = q.protocol
    ∧ ∃ host pPort qPort, Text.rsplitOnce ':' p.listen.toList = some (host, pPort)
      ∧ Text.rsplitOnce ':' q.listen.toList = some (host, qPort)
      ∧ pPort ≠ qPort ∧ Text.significant pPort = Text.significant qPort
      ∧ Text.significant pPort ≠ []

theorem parseU16_of_validate {p : ProxyConfig} (h : p.validate = .ok ()) {host port : List Char}
    (hsplit : Text.rsplitOnce ':' p.listen.toList = some (host, port))
    : ∃ n, parseU16 port = some n := by
  rcases (ProxyConfig.validate_eq_ok_iff.mp h).1 with ⟨n, hlisten⟩
  rcases checkHostPort_eq_ok_iff.mp hlisten with ⟨host', port', hsplit', _, hport⟩
  rw [hsplit, Option.some.injEq, Prod.mk.injEq] at hsplit'
  rw [← hsplit'.2] at hport
  exact ⟨n, hport⟩

theorem significant_eq_nil_iff {port : List Char} {n : UInt16} (h : parseU16 port = some n)
    : Text.significant port = [] ↔ n = 0 := by
  rw [(parseU16_eq_some_iff.mp h).significant_eq, ← UInt16.toNat_inj, UInt16.toNat_zero]
  split <;> simp [*]

theorem significant_eq_iff {pPort qPort : List Char} {n m : UInt16} (hp : parseU16 pPort = some n)
    (hq : parseU16 qPort = some m)
    : Text.significant pPort = Text.significant qPort ↔ n = m := by
  rw [Text.significant_eq_iff (parseU16_eq_some_iff.mp hp) (parseU16_eq_some_iff.mp hq),
    UInt16.toNat_inj]

theorem sameBind_iff_respelled {p q : ProxyConfig} (hp : p.validate = .ok ())
    (hq : q.validate = .ok ()) (hne : (p.protocol, p.listen) ≠ (q.protocol, q.listen))
    : SameBind p q ↔ Respelled p q := by
  constructor
  . rintro ⟨hprotocol, host, pPort, qPort, port, hpSplit, hqSplit, hpPort, hqPort, hport⟩
    refine ⟨hprotocol, host, pPort, qPort, hpSplit, hqSplit, ?_, ?_, ?_⟩
    . rintro rfl
      apply hne
      have hp := (Text.rsplitOnce_eq_some_iff.mp hpSplit).1
      have hq := (Text.rsplitOnce_eq_some_iff.mp hqSplit).1
      rw [hprotocol, String.toList_inj.mp (hp.trans hq.symm)]
    . exact (significant_eq_iff hpPort hqPort).mpr rfl
    . rwa [ne_eq, significant_eq_nil_iff hpPort]
  . rintro ⟨hprotocol, host, pPort, qPort, hpSplit, hqSplit, _, hsignificant, hnonzero⟩
    rcases parseU16_of_validate hp hpSplit with ⟨n, hpPort⟩
    rcases parseU16_of_validate hq hqSplit with ⟨m, hqPort⟩
    rw [significant_eq_iff hpPort hqPort] at hsignificant
    subst hsignificant
    rw [ne_eq, significant_eq_nil_iff hpPort] at hnonzero
    exact ⟨hprotocol, host, pPort, qPort, n, hpSplit, hqSplit, hpPort, hqPort, hnonzero⟩

theorem uniqueBinds_iff_noRespelling {file : TomlFile} {loaded : LoadedConfig}
    (h : load file = .ok loaded)
    : (loaded.proxies.Pairwise fun p q => ¬ SameBind p q)
        ↔ loaded.proxies.Pairwise fun p q => ¬ Respelled p q := by
  rcases load_eq_ok h with ⟨hvalidate, _, hlistens⟩
  rw [List.Nodup, List.pairwise_map] at hlistens
  constructor
  . intro hbinds
    apply (hlistens.and hbinds).imp_of_mem
    rintro p q hp hq ⟨hne, hbind⟩
    rwa [← sameBind_iff_respelled (hvalidate p hp) (hvalidate q hq) hne]
  . intro hspelled
    apply (hlistens.and hspelled).imp_of_mem
    rintro p q hp hq ⟨hne, hrespelled⟩
    rwa [sameBind_iff_respelled (hvalidate p hp) (hvalidate q hq) hne]

def web (listen : String) : TomlProxy where
  name := none
  listen := listen
  target := "192.0.2.80:80"
  protocol := .tcp

def webFile (listens : List String) : TomlFile where
  defaults := {}
  metricsListen := none
  shutdownGrace := none
  proxies := listens.map web

theorem same_bind_loaded
    : ∃ loaded, load (webFile ["0.0.0.0:8080", "08080"]) = .ok loaded
        ∧ ¬ loaded.proxies.Pairwise fun p q => ¬ SameBind p q := by
  refine ⟨⟨(webFile ["0.0.0.0:8080", "08080"]).resolve, none, none⟩, rfl, ?_⟩
  intro hbinds
  rw [webFile, TomlFile.resolve] at hbinds
  apply List.rel_of_pairwise_cons hbinds (List.mem_singleton_self _)
  exact ⟨rfl, "0.0.0.0".toList, "8080".toList, "08080".toList, 8080, rfl, rfl, rfl, rfl, by decide⟩

theorem uniqueBinds_iff_noRespelling_ports
    : (webFile ["8080", "8081"]).resolve.Pairwise fun p q => ¬ SameBind p q := by
  have hload : load (webFile ["8080", "8081"])
      = .ok ⟨(webFile ["8080", "8081"]).resolve, none, none⟩ := rfl
  apply (uniqueBinds_iff_noRespelling hload).mpr
  apply List.Pairwise.cons ?_ (List.pairwise_singleton _ _)
  intro q hq
  rw [List.mem_singleton.mp hq]
  rintro ⟨_, host, pPort, qPort, hp, hq, _, hsignificant, _⟩
  have hpPort : some ("0.0.0.0".toList, "8080".toList) = some (host, pPort) := hp
  have hqPort : some ("0.0.0.0".toList, "8081".toList) = some (host, qPort) := hq
  simp only [Option.some.injEq, Prod.mk.injEq] at hpPort hqPort
  rw [← hpPort.2, ← hqPort.2] at hsignificant
  revert hsignificant
  decide

end Config
