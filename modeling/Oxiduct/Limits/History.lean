import Oxiduct.Limits.Lemmas
import Oxiduct.Machine.Basic

/-!
This module contains the histories of one `ConnLimits`: calls of `try_acquire` and drops of guards in
any order, with fewer than 2^32 guards live at once. `live` is the environment's own account of the
guards it holds; the code never sees it.
-/

namespace Limits

inductive Event where
  | admitted (srcIp : IpAddr) (warnings : List Warning)
  | rejected (srcIp : IpAddr) (reject : Reject)
  | released (srcIp : IpAddr)
  deriving DecidableEq

structure History where
  limits : ConnLimits
  live : Multiset IpAddr
  log : List Event

namespace History

inductive Op where
  | tryAcquire (srcIp : IpAddr)
  | drop (guard : Guard)
  deriving DecidableEq, Repr

def new (maxTotal maxPerIp : UInt32) : History :=
  ⟨ConnLimits.new maxTotal maxPerIp, 0, []⟩

def effect (h : History) : Op → History
  | .tryAcquire srcIp =>
    let ret := h.limits.tryAcquire srcIp
    match ret.result with
    | .ok guard => ⟨ret.limits, guard.srcIp ::ₘ h.live, h.log ++ [.admitted srcIp ret.warnings]⟩
    | .error reject => ⟨ret.limits, h.live, h.log ++ [.rejected srcIp reject]⟩
  | .drop guard =>
    ⟨h.limits.release guard, h.live.erase guard.srcIp, h.log ++ [.released guard.srcIp]⟩

def machine : Machine History Op where
  guard h
    | .tryAcquire srcIp => (h.effect (.tryAcquire srcIp)).live.card < 2 ^ 32
    | .drop guard => guard.srcIp ∈ h.live
  effect := effect

instance (h : History) (op : Op) : Decidable (machine.guard h op) := by
  cases op <;> simp only [machine] <;> infer_instance

theorem effect_of_error {h : History} {srcIp : IpAddr} {reject : Reject}
    (herror : (h.limits.tryAcquire srcIp).result = .error reject)
    : h.effect (.tryAcquire srcIp)
        = ⟨h.limits, h.live, h.log ++ [.rejected srcIp reject]⟩ := by
  simp only [effect, herror, ConnLimits.limits_of_error herror]

theorem effect_of_grant {h : History} {srcIp : IpAddr} (htallies : h.limits.Tallies h.live)
    (hgrant : h.limits.caps.refusal h.live srcIp = none)
    : (h.effect (.tryAcquire srcIp)).limits = (h.limits.grant srcIp).limits
        ∧ (h.effect (.tryAcquire srcIp)).live = srcIp ::ₘ h.live := by
  simp [effect, htallies.tryAcquire_eq_grant hgrant, ConnLimits.grant]

structure Sound (caps : Caps) (h : History) : Prop where
  capsEq : h.limits.caps = caps
  tallies : h.limits.Tallies h.live
  within : caps.Within h.live

theorem sound_new (maxTotal maxPerIp : UInt32)
    : (new maxTotal maxPerIp).Sound ⟨maxTotal.toNat, maxPerIp.toNat⟩ where
  capsEq := rfl
  tallies := ConnLimits.tallies_new maxTotal maxPerIp
  within := Caps.within_zero _

theorem Sound.step {caps : Caps} {h : History} {op : Op} (hsound : h.Sound caps)
    (hguard : machine.guard h op)
    : (machine.effect h op).Sound caps := by
  rcases hsound with ⟨rfl, htallies, hwithin⟩
  cases op with
  | tryAcquire srcIp =>
    have hresult := htallies.tryAcquire_result srcIp
    cases hrefusal : h.limits.caps.refusal h.live srcIp with
    | none =>
      rcases effect_of_grant htallies hrefusal with ⟨hlimits, hlive⟩
      have hroom : h.live.card + 1 < 2 ^ 32 := by
        have : (h.effect (.tryAcquire srcIp)).live.card < 2 ^ 32 := hguard
        rwa [hlive, Multiset.card_cons] at this
      constructor
      . simp only [machine, hlimits]
        rfl
      . simp only [machine, hlimits, hlive]
        exact htallies.grant srcIp hroom
      . simp only [machine, hlive]
        exact hwithin.cons hrefusal
    | some refusal =>
      rw [hrefusal] at hresult
      simp only [machine, effect_of_error hresult]
      exact ⟨rfl, htallies, hwithin⟩
  | drop guard =>
    have hlive : guard.srcIp ::ₘ h.live.erase guard.srcIp = h.live := Multiset.cons_erase hguard
    constructor
    . rfl
    . apply ConnLimits.Tallies.release
      rw [← hlive] at htallies
      exact htallies
    . exact hwithin.mono (Multiset.erase_le _ _)

theorem sound_of_reachable {maxTotal maxPerIp : UInt32} {h : History}
    (hreach : machine.Reachable (new maxTotal maxPerIp) h)
    : h.Sound ⟨maxTotal.toNat, maxPerIp.toNat⟩ :=
  hreach.invariant (sound_new maxTotal maxPerIp) (fun _ _ hsound hguard _ => hsound.step hguard)

namespace Sound

variable {maxTotal maxPerIp : UInt32} {h : History}

theorem lookup_isSome_iff (hsound : h.Sound ⟨maxTotal.toNat, maxPerIp.toNat⟩) (ip : IpAddr)
    : (h.limits.state.perIp.lookup ip).isSome ↔ ip ∈ h.live := by
  have := hsound.tallies.perIp ip
  rw [← Option.isSome_map (f := fun stat : IpStat => stat.count.toNat), this]
  split <;> simp [*]

theorem count_of_lookup (hsound : h.Sound ⟨maxTotal.toNat, maxPerIp.toNat⟩) {ip : IpAddr}
    {stat : IpStat} (hlookup : h.limits.state.perIp.lookup ip = some stat)
    : stat.count.toNat = h.live.count ip := by
  have hmem : ip ∈ h.live := by
    rw [← hsound.lookup_isSome_iff, hlookup]
    rfl
  rcases hsound.tallies.stat_of_mem hmem with ⟨stat', hstat', hcount⟩
  rw [hlookup, Option.some.injEq] at hstat'
  rw [hstat', hcount]

theorem tryAcquire_result_total_iff (hsound : h.Sound ⟨maxTotal.toNat, maxPerIp.toNat⟩)
    (ip : IpAddr)
    : (h.limits.tryAcquire ip).result = .error .total
        ↔
      0 < maxTotal ∧ h.live.card = maxTotal.toNat := by
  have hiff := hsound.within.refusal_eq_total_iff ip
  rw [hsound.tallies.tryAcquire_result, hsound.capsEq, UInt32.lt_iff_toNat_lt]
  refine Iff.trans ?_ hiff
  cases Caps.refusal ⟨maxTotal.toNat, maxPerIp.toNat⟩ h.live ip with
  | none => simp
  | some refusal => cases refusal <;> simp [ConnLimits.Reject.ofRefusal]

theorem tryAcquire_result_perIp_iff (hsound : h.Sound ⟨maxTotal.toNat, maxPerIp.toNat⟩)
    (ip : IpAddr)
    : (h.limits.tryAcquire ip).result = .error .perIp
        ↔
      ¬ (0 < maxTotal ∧ h.live.card = maxTotal.toNat)
        ∧ 0 < maxPerIp ∧ h.live.count ip = maxPerIp.toNat := by
  have hiff := hsound.within.refusal_eq_perKey_iff ip
  rw [hsound.tallies.tryAcquire_result, hsound.capsEq, UInt32.lt_iff_toNat_lt,
    UInt32.lt_iff_toNat_lt]
  refine Iff.trans ?_ hiff
  cases Caps.refusal ⟨maxTotal.toNat, maxPerIp.toNat⟩ h.live ip with
  | none => simp
  | some refusal => cases refusal <;> simp [ConnLimits.Reject.ofRefusal]

theorem tryAcquire_result_ok_iff (hsound : h.Sound ⟨maxTotal.toNat, maxPerIp.toNat⟩)
    (ip : IpAddr)
    : (h.limits.tryAcquire ip).result = .ok ⟨ip⟩
        ↔
      ¬ (0 < maxTotal ∧ h.live.card = maxTotal.toNat)
        ∧ ¬ (0 < maxPerIp ∧ h.live.count ip = maxPerIp.toNat) := by
  have htotal := hsound.tryAcquire_result_total_iff ip
  have hperIp := hsound.tryAcquire_result_perIp_iff ip
  have hresult := hsound.tallies.tryAcquire_result ip
  cases hrefusal : h.limits.caps.refusal h.live ip with
  | none =>
    rw [hrefusal] at hresult
    simp only [hresult, reduceCtorEq, false_iff, true_iff] at htotal hperIp ⊢
    exact ⟨htotal, fun hcap => hperIp ⟨htotal, hcap⟩⟩
  | some refusal =>
    rw [hrefusal] at hresult
    cases refusal <;> simp_all [ConnLimits.Reject.ofRefusal]

end Sound

theorem reachable_accounting {maxTotal maxPerIp : UInt32} {h : History}
    (hreach : machine.Reachable (new maxTotal maxPerIp) h)
    : h.limits.state.total.toNat = h.live.card
        ∧ (∀ ip, (h.limits.state.perIp.lookup ip).isSome ↔ ip ∈ h.live)
        ∧ (∀ ip stat, h.limits.state.perIp.lookup ip = some stat →
            stat.count.toNat = h.live.count ip)
        ∧ (∀ ip ∈ h.live, 1 ≤ h.limits.state.total
            ∧ ∃ stat, h.limits.state.perIp.lookup ip = some stat ∧ 1 ≤ stat.count)
        ∧ (0 < maxTotal → h.limits.state.total ≤ maxTotal)
        ∧ (0 < maxPerIp → ∀ ip stat, h.limits.state.perIp.lookup ip = some stat →
            stat.count ≤ maxPerIp)
        ∧ ∀ ip,
            ((h.limits.tryAcquire ip).result = .error .total
                ↔ 0 < maxTotal ∧ h.live.card = maxTotal.toNat)
              ∧ ((h.limits.tryAcquire ip).result = .error .perIp
                ↔ ¬ (0 < maxTotal ∧ h.live.card = maxTotal.toNat)
                    ∧ 0 < maxPerIp ∧ h.live.count ip = maxPerIp.toNat)
              ∧ ((h.limits.tryAcquire ip).result = .ok ⟨ip⟩
                ↔ ¬ (0 < maxTotal ∧ h.live.card = maxTotal.toNat)
                    ∧ ¬ (0 < maxPerIp ∧ h.live.count ip = maxPerIp.toNat))
              ∧ ∀ reject, (h.limits.tryAcquire ip).result = .error reject →
                  (h.limits.tryAcquire ip).limits = h.limits := by
  have hsound := sound_of_reachable hreach
  have htotal := hsound.tallies.total
  refine ⟨htotal, hsound.lookup_isSome_iff, fun _ _ => hsound.count_of_lookup, ?_, ?_, ?_, ?_⟩
  . intro ip hmem
    rcases hsound.tallies.stat_of_mem hmem with ⟨stat, hstat, hcount⟩
    have hpos := Multiset.count_pos.mpr hmem
    have := Multiset.count_le_card ip h.live
    refine ⟨?_, stat, hstat, ?_⟩
    . rw [UInt32.le_iff_toNat_le, UInt32.toNat_one]
      omega
    . rw [UInt32.le_iff_toNat_le, UInt32.toNat_one]
      omega
  . intro hpos
    rw [UInt32.le_iff_toNat_le, htotal]
    exact hsound.within.total (UInt32.lt_iff_toNat_lt.mp hpos)
  . intro hpos ip stat hlookup
    rw [UInt32.le_iff_toNat_le, hsound.count_of_lookup hlookup]
    exact hsound.within.perKey (UInt32.lt_iff_toNat_lt.mp hpos) ip
  . intro ip
    exact ⟨hsound.tryAcquire_result_total_iff ip, hsound.tryAcquire_result_perIp_iff ip,
      hsound.tryAcquire_result_ok_iff ip, fun _ => ConnLimits.limits_of_error⟩

def loopback : IpAddr := .v4 ⟨127, 0, 0, 1⟩

def neighbour : IpAddr := .v4 ⟨127, 0, 0, 2⟩

def crowded : List Op :=
  [.tryAcquire loopback, .tryAcquire loopback, .tryAcquire loopback, .tryAcquire neighbour,
    .tryAcquire neighbour]

def vacated : List Op :=
  [.drop ⟨loopback⟩, .drop ⟨loopback⟩, .tryAcquire neighbour]

theorem reachable_accounting_crowded
    : let full := machine.exec (new 3 2) crowded
      let h := machine.exec (new 3 2) (crowded ++ vacated)
      full.limits.state.total.toNat = 3
        ∧ (full.limits.tryAcquire neighbour).result = .error .total
        ∧ h.limits.state.total.toNat = 2
        ∧ ¬ (h.limits.state.perIp.lookup loopback).isSome
        ∧ (h.limits.tryAcquire neighbour).result = .error .perIp
        ∧ (h.limits.tryAcquire loopback).result = .ok ⟨loopback⟩ := by
  intro full h
  have hfull : machine.Runs (new 3 2) crowded := by decide
  have hruns : machine.Runs (new 3 2) (crowded ++ vacated) := by decide
  rcases reachable_accounting hfull.reachable with ⟨hfullTotal, _, _, _, _, _, hfullResult⟩
  rcases reachable_accounting hruns.reachable with ⟨htotal, hperIp, _, _, _, _, hresult⟩
  refine ⟨hfullTotal.trans (by decide), (hfullResult neighbour).1.mpr (by decide),
    htotal.trans (by decide), ?_, (hresult neighbour).2.1.mpr (by decide),
    (hresult loopback).2.2.1.mpr (by decide)⟩
  rw [hperIp]
  decide

end History
end Limits
