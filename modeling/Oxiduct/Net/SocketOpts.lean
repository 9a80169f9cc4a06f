import Oxiduct.Config.Load

/-!
This module contains the liveness options that `apply_tcp` sets on a TCP stream (`socket_opts.rs`),
and for which validated configurations Linux takes all of them.
-/

inductive SocketOpt where
  | keepalive (on : Bool)
  | keepIdle (secs : UInt64)
  | keepIntvl (secs : UInt64)
  | keepCnt (probes : UInt32)
  | userTimeout (ms : UInt64)
  deriving DecidableEq, Repr

namespace SocketOpt

/--
What Linux accepts. `TCP_USER_TIMEOUT` is read as a signed number of 32 bits.
-/
def accepted : SocketOpt → Bool
  | .keepalive _ => true
  | .keepIdle secs => 1 ≤ secs && secs ≤ 32767
  | .keepIntvl secs => 1 ≤ secs && secs ≤ 32767
  | .keepCnt probes => 1 ≤ probes && probes ≤ 127
  | .userTimeout ms => ms ≤ 2147483647

end SocketOpt

def applyTcp (cfg : ProxyConfig) : List SocketOpt :=
  (if 0 < cfg.keepaliveIdleSecs then
    [.keepalive true, .keepIdle cfg.keepaliveIdleSecs]
      ++ (if 0 < cfg.keepaliveIntervalSecs then [.keepIntvl cfg.keepaliveIntervalSecs] else [])
      ++ (if 0 < cfg.keepaliveRetries then [.keepCnt cfg.keepaliveRetries] else [])
  else
    []) ++
  (if 0 < cfg.userTimeoutMs then [.userTimeout cfg.userTimeoutMs.toUInt64] else [])

def ProxyConfig.Checked (cfg : ProxyConfig) : Prop :=
  cfg.validate = .ok ()
    ∨ (∃ args, ProxyConfig.fromCli args = .ok cfg)
    ∨ ∃ file loaded, Config.load file = .ok loaded ∧ cfg ∈ loaded.proxies

theorem ProxyConfig.Checked.validate {cfg : ProxyConfig} (h : cfg.Checked)
    : cfg.validate = .ok () := by
  rcases h with h | ⟨args, h⟩ | ⟨file, loaded, h, hmem⟩
  . exact h
  . apply ProxyConfig.validate_of_fromCli h
  . apply (Config.load_eq_ok h).1 cfg hmem

section

variable {cfg : ProxyConfig}

theorem accepted_keepIdle (h : cfg.validate = .ok ()) (hpos : 0 < cfg.keepaliveIdleSecs)
    : (SocketOpt.keepIdle cfg.keepaliveIdleSecs).accepted := by
  rcases ProxyConfig.validate_eq_ok_iff.mp h with ⟨_, _, _, hmax, _, _⟩
  simp only [SocketOpt.accepted, Bool.and_eq_true, decide_eq_true_eq]
  exact ⟨hpos, hmax⟩

theorem accepted_keepIntvl (h : cfg.validate = .ok ()) (hpos : 0 < cfg.keepaliveIntervalSecs)
    : (SocketOpt.keepIntvl cfg.keepaliveIntervalSecs).accepted := by
  rcases ProxyConfig.validate_eq_ok_iff.mp h with ⟨_, _, _, _, hmax, _⟩
  simp only [SocketOpt.accepted, Bool.and_eq_true, decide_eq_true_eq]
  exact ⟨hpos, hmax⟩

theorem accepted_keepCnt (h : cfg.validate = .ok ()) (hpos : 0 < cfg.keepaliveRetries)
    : (SocketOpt.keepCnt cfg.keepaliveRetries).accepted := by
  rcases ProxyConfig.validate_eq_ok_iff.mp h with ⟨_, _, _, _, _, hmax⟩
  rw [UInt64.le_iff_toNat_le, UInt32.toNat_toUInt64] at hmax
  simp only [SocketOpt.accepted, Bool.and_eq_true, decide_eq_true_eq]
  exact ⟨hpos, UInt32.le_iff_toNat_le.mpr hmax⟩

theorem accepted_userTimeout_iff (ms : UInt32)
    : (SocketOpt.userTimeout ms.toUInt64).accepted ↔ ms.toNat ≤ 2 ^ 31 - 1 := by
  simp only [SocketOpt.accepted, decide_eq_true_eq, UInt64.le_iff_toNat_le, UInt32.toNat_toUInt64]
  rfl

theorem mem_applyTcp_iff {opt : SocketOpt}
    : opt ∈ applyTcp cfg
        ↔
      (0 < cfg.keepaliveIdleSecs
          ∧ (opt = .keepalive true ∨ opt = .keepIdle cfg.keepaliveIdleSecs
            ∨ (0 < cfg.keepaliveIntervalSecs ∧ opt = .keepIntvl cfg.keepaliveIntervalSecs)
            ∨ (0 < cfg.keepaliveRetries ∧ opt = .keepCnt cfg.keepaliveRetries)))
        ∨ (0 < cfg.userTimeoutMs ∧ opt = .userTimeout cfg.userTimeoutMs.toUInt64) := by
  unfold applyTcp
  simp only [List.mem_append, List.mem_ite_nil_right, List.mem_cons, List.not_mem_nil, or_false]
  grind

theorem applyTcp_accepted_iff (h : cfg.Checked)
    : (∀ opt ∈ applyTcp cfg, opt.accepted) ↔ cfg.userTimeoutMs.toNat ≤ 2 ^ 31 - 1 := by
  have hvalidate := h.validate
  rw [← accepted_userTimeout_iff]
  constructor
  . intro hall
    by_cases hpos : 0 < cfg.userTimeoutMs
    . apply hall
      exact mem_applyTcp_iff.mpr (.inr ⟨hpos, rfl⟩)
    . have hzero : cfg.userTimeoutMs = 0 := by
        rw [UInt32.lt_iff_toNat_lt, UInt32.toNat_zero] at hpos
        apply UInt32.toNat_inj.mp
        rw [UInt32.toNat_zero]
        omega
      rw [hzero]
      rfl
  . intro huser opt hopt
    rcases mem_applyTcp_iff.mp hopt with
      ⟨hpos, rfl | rfl | ⟨hpos', rfl⟩ | ⟨hpos', rfl⟩⟩ | ⟨_, rfl⟩
    . rfl
    . apply accepted_keepIdle hvalidate hpos
    . apply accepted_keepIntvl hvalidate hpos'
    . apply accepted_keepCnt hvalidate hpos'
    . exact huser

end

def webArgs (userTimeoutMs : UInt32) : Args where
  listen := some "8080"
  target := some "192.0.2.80:80"
  protocol := .tcp
  connectTimeout := Defaults.connectTimeoutSecs
  keepaliveIdle := Defaults.keepaliveIdleSecs
  keepaliveInterval := Defaults.keepaliveIntervalSecs
  keepaliveRetries := Defaults.keepaliveRetries
  userTimeoutMs := userTimeoutMs
  idleTimeout := Defaults.idleTimeoutSecs
  halfCloseTimeout := Defaults.halfCloseTimeoutSecs
  maxConnections := Defaults.maxConnections
  maxPerIp := Defaults.maxPerIp
  proxyProtocol := false

theorem user_timeout_refused
    : ∃ cfg, ProxyConfig.fromCli (webArgs 2147483648) = .ok cfg ∧ cfg.validate = .ok ()
        ∧ ¬ ∀ opt ∈ applyTcp cfg, opt.accepted := by
  refine ⟨_, rfl, rfl, ?_⟩
  decide

theorem applyTcp_accepted_iff_defaults
    : ∃ cfg, ProxyConfig.fromCli (webArgs Defaults.userTimeoutMs) = .ok cfg
        ∧ ∀ opt ∈ applyTcp cfg, opt.accepted := by
  have hargs : ∃ cfg, ProxyConfig.fromCli (webArgs Defaults.userTimeoutMs) = .ok cfg
      ∧ cfg.userTimeoutMs.toNat ≤ 2 ^ 31 - 1 := ⟨_, rfl, by decide⟩
  rcases hargs with ⟨cfg, hcli, huser⟩
  exact ⟨cfg, hcli, (applyTcp_accepted_iff (.inr (.inl ⟨_, hcli⟩))).mpr huser⟩
