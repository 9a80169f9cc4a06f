import Oxiduct.Data.HighWater
import Oxiduct.Limits.History

/-!
This module contains when `try_acquire` warns: at the first admission of an occupancy period that
brings a count to 90% of its cap, and so before anything is rejected in that period.
-/

namespace Limits

open Log

def Warning.isTotal : Warning → Bool
  | .total .. => true
  | .perIp .. => false

def Warning.isPerIp (ip : IpAddr) : Warning → Bool
  | .total .. => false
  | .perIp srcIp .. => srcIp = ip

namespace Event

def warnings : Event → List Warning
  | .admitted _ warnings => warnings
  | _ => []

def isAdmitted : Event → Bool
  | .admitted .. => true
  | _ => false

def admits (ip : IpAddr) : Event → Bool
  | .admitted srcIp _ => srcIp = ip
  | _ => false

def warnsTotal (e : Event) : Bool :=
  e.warnings.any Warning.isTotal

def warnsPerIp (ip : IpAddr) (e : Event) : Bool :=
  e.warnings.any (Warning.isPerIp ip)

def apply (live : Multiset IpAddr) : Event → Multiset IpAddr
  | .admitted srcIp _ => srcIp ::ₘ live
  | .rejected .. => live
  | .released srcIp => live.erase srcIp

end Event

def liveAfter (log : List Event) : Multiset IpAddr :=
  log.foldl Event.apply 0

@[simp]
theorem liveAfter_concat (log : List Event) (e : Event)
    : liveAfter (log ++ [e]) = e.apply (liveAfter log) := by
  simp [liveAfter]

def NearTotal (maxTotal : UInt32) (log : List Event) : Prop :=
  0 < maxTotal ∧ 9 * maxTotal.toNat ≤ 10 * (liveAfter log).card

def NearPerIp (maxPerIp : UInt32) (ip : IpAddr) (log : List Event) : Prop :=
  0 < maxPerIp ∧ 9 * maxPerIp.toNat ≤ 10 * (liveAfter log).count ip

theorem NearPerIp.mem {maxPerIp : UInt32} {ip : IpAddr} {log : List Event}
    (h : NearPerIp maxPerIp ip log)
    : ip ∈ liveAfter log := by
  have hpos := UInt32.lt_iff_toNat_lt.mp h.1
  have hnear := h.2
  rw [← Multiset.count_pos]
  rw [UInt32.toNat_zero] at hpos
  omega

theorem reached90pct_iff (used cap : UInt32)
    : reached90pct used cap = true ↔ 9 * cap.toNat ≤ 10 * used.toNat := by
  have hused := used.toNat_lt
  have hcap := cap.toNat_lt
  unfold reached90pct
  rw [decide_eq_true_eq, UInt64.le_iff_toNat_le, UInt64.toNat_mul, UInt64.toNat_mul,
    UInt32.toNat_toUInt64, UInt32.toNat_toUInt64, Nat.mod_eq_of_lt, Nat.mod_eq_of_lt]
  . change cap.toNat * 9 ≤ used.toNat * 10 ↔ _
    omega
  . change used.toNat * 10 < _
    omega
  . change cap.toNat * 9 < _
    omega

namespace ConnLimits

def warnedIp (self : ConnLimits) (ip : IpAddr) : Bool :=
  ((self.state.perIp.lookup ip).map IpStat.warned).getD false

def warnsTotal (self : ConnLimits) : Bool :=
  !self.state.totalWarned && decide (0 < self.maxTotal)
    && reached90pct (self.state.total + 1) self.maxTotal

def warnsPerIp (self : ConnLimits) (ip : IpAddr) : Bool :=
  !self.warnedIp ip && decide (0 < self.maxPerIp)
    && reached90pct (self.currentIp ip + 1) self.maxPerIp

theorem default_stat_warned (self : ConnLimits) (ip : IpAddr)
    : ((self.state.perIp.lookup ip).getD default).warned = self.warnedIp ip := by
  unfold warnedIp
  cases self.state.perIp.lookup ip <;> rfl

theorem default_stat_count (self : ConnLimits) (ip : IpAddr)
    : ((self.state.perIp.lookup ip).getD default).count = self.currentIp ip := by
  unfold currentIp
  cases self.state.perIp.lookup ip <;> rfl

theorem warnings_grant (self : ConnLimits) (ip : IpAddr)
    : (self.grant ip).warnings
        =
      (if self.warnsTotal then [.total (self.state.total + 1) self.maxTotal] else []) ++
      (if self.warnsPerIp ip then [.perIp ip (self.currentIp ip + 1) self.maxPerIp] else []) := by
  unfold grant warnsTotal warnsPerIp
  rw [← default_stat_warned, ← default_stat_count]

theorem any_isTotal_grant (self : ConnLimits) (ip : IpAddr)
    : (self.grant ip).warnings.any Warning.isTotal = self.warnsTotal := by
  rw [warnings_grant]
  cases self.warnsTotal <;> cases self.warnsPerIp ip <;> rfl

theorem any_isPerIp_grant (self : ConnLimits) (ip ip' : IpAddr)
    : (self.grant ip).warnings.any (Warning.isPerIp ip')
        = (decide (ip = ip') && self.warnsPerIp ip) := by
  rw [warnings_grant]
  cases self.warnsTotal <;> cases self.warnsPerIp ip <;> simp [Warning.isPerIp]

theorem countP_warnings_grant_le (self : ConnLimits) (ip : IpAddr)
    : (self.grant ip).warnings.countP Warning.isTotal ≤ 1
        ∧ ∀ ip', (self.grant ip).warnings.countP (Warning.isPerIp ip') ≤ 1 := by
  rw [warnings_grant]
  constructor
  . cases self.warnsTotal <;> cases self.warnsPerIp ip <;> simp [Warning.isTotal, List.countP_cons]
  . intro ip'
    have hsingle : ([.perIp ip (self.currentIp ip + 1) self.maxPerIp] : List Warning).countP
        (Warning.isPerIp ip') ≤ 1 := List.countP_le_length
    cases self.warnsTotal <;> cases self.warnsPerIp ip
      <;> simp_all [Warning.isPerIp, List.countP_cons]

theorem totalWarned_grant (self : ConnLimits) (ip : IpAddr)
    : (self.grant ip).limits.state.totalWarned = (self.state.totalWarned || self.warnsTotal) := rfl

theorem warnedIp_grant (self : ConnLimits) (ip ip' : IpAddr)
    : (self.grant ip).limits.warnedIp ip'
        = (self.warnedIp ip' || decide (ip = ip') && self.warnsPerIp ip) := by
  by_cases heq : ip' = ip
  . subst heq
    have hgrant : (self.grant ip').limits.state.perIp.lookup ip'
        = some ⟨self.currentIp ip' + 1, self.warnedIp ip' || self.warnsPerIp ip'⟩ := by
      unfold warnsPerIp
      rw [← default_stat_warned, ← default_stat_count]
      simp [grant]
    rw [warnedIp, hgrant]
    simp
  . simp [warnedIp, grant, AList.lookup_insert_ne heq, Ne.symm heq]

section

variable {self : ConnLimits} {live : Multiset IpAddr}

theorem Tallies.warnsTotal_iff (h : self.Tallies live) (hroom : live.card + 1 < 2 ^ 32)
    : self.warnsTotal
        ↔
      (0 < self.maxTotal ∧ 9 * self.maxTotal.toNat ≤ 10 * (live.card + 1))
        ∧ ¬ self.state.totalWarned := by
  have hnow : (self.state.total + 1).toNat = live.card + 1 := by
    rw [UInt32.toNat_add_one, h.total]
    rwa [h.total]
  unfold warnsTotal
  simp only [Bool.and_eq_true, Bool.not_eq_true', decide_eq_true_eq, reached90pct_iff, hnow,
    Bool.not_eq_true]
  rw [and_assoc]
  apply and_comm

theorem Tallies.warnsPerIp_iff (h : self.Tallies live) (hroom : live.card + 1 < 2 ^ 32)
    (ip : IpAddr)
    : self.warnsPerIp ip
        ↔
      (0 < self.maxPerIp ∧ 9 * self.maxPerIp.toNat ≤ 10 * (live.count ip + 1))
        ∧ ¬ self.warnedIp ip := by
  have hnow : (self.currentIp ip + 1).toNat = live.count ip + 1 := by
    have := Multiset.count_le_card ip live
    rw [UInt32.toNat_add_one, h.currentIp]
    rw [h.currentIp]
    omega
  unfold warnsPerIp
  simp only [Bool.and_eq_true, Bool.not_eq_true', decide_eq_true_eq, reached90pct_iff, hnow,
    Bool.not_eq_true]
  rw [and_assoc]
  apply and_comm

theorem Tallies.mem_of_warnedIp (h : self.Tallies live) {ip : IpAddr} (hwarned : self.warnedIp ip)
    : ip ∈ live := by
  have hperIp := h.perIp ip
  unfold warnedIp at hwarned
  cases hlookup : self.state.perIp.lookup ip with
  | none => simp [hlookup] at hwarned
  | some stat =>
    rw [hlookup] at hperIp
    by_contra hmem
    simp [hmem] at hperIp

theorem Tallies.warnedIp_release {guard : Guard} (h : self.Tallies (guard.srcIp ::ₘ live))
    (ip : IpAddr)
    : (self.release guard).warnedIp ip ↔ self.warnedIp ip ∧ ip ∈ live := by
  by_cases hmem : ip ∈ live
  . rcases h.stat_of_mem (Multiset.mem_cons_self ..) with ⟨stat, hstat, hcount⟩
    simp only [hmem, and_true, warnedIp, ConnLimits.release, hstat]
    by_cases heq : ip = guard.srcIp
    . subst heq
      have hpos := Multiset.count_pos.mpr hmem
      have hsub : stat.count.saturatingSub 1 ≠ 0 := by
        rw [← UInt32.toNat_inj.ne, UInt32.toNat_saturatingSub, hcount, Multiset.count_cons_self]
        simp
        omega
      simp [hsub, hstat]
    . split
      . rw [AList.lookup_erase_ne heq]
      . rw [AList.lookup_insert_ne heq]
  . simp only [hmem, and_false, iff_false]
    intro hwarned
    apply hmem
    apply h.release.mem_of_warnedIp hwarned

end

end ConnLimits

namespace History

structure Recorded (maxTotal maxPerIp : UInt32) (h : History) : Prop where
  live : h.live = liveAfter h.log
  total : HighWater (fun _ => True) (fun e => e.isAdmitted) (fun e => e.warnsTotal)
    (NearTotal maxTotal) h.limits.state.totalWarned h.log
  perIp : ∀ ip, HighWater (ip ∈ liveAfter ·) (fun e => e.admits ip) (fun e => e.warnsPerIp ip)
    (NearPerIp maxPerIp ip) (h.limits.warnedIp ip) h.log
  single : Each (fun _ e => e.warnings.countP Warning.isTotal ≤ 1
    ∧ ∀ ip, e.warnings.countP (Warning.isPerIp ip) ≤ 1) h.log
  totalRejected : Each (fun pre e => ∀ ip, e = .rejected ip .total →
    Once (fun _ e => e.warnsTotal) pre) h.log
  perIpRejected : Each (fun pre e => ∀ ip, e = .rejected ip .perIp →
    Since (ip ∈ liveAfter ·) (fun _ e => e.warnsPerIp ip) pre) h.log

variable {maxTotal maxPerIp : UInt32}

theorem Sound.maxTotal_eq {h : History} (hsound : h.Sound ⟨maxTotal.toNat, maxPerIp.toNat⟩)
    : h.limits.maxTotal = maxTotal := by
  apply UInt32.toNat_inj.mp
  apply congrArg Caps.total hsound.capsEq

theorem Sound.maxPerIp_eq {h : History} (hsound : h.Sound ⟨maxTotal.toNat, maxPerIp.toNat⟩)
    : h.limits.maxPerIp = maxPerIp := by
  apply UInt32.toNat_inj.mp
  apply congrArg Caps.perKey hsound.capsEq

theorem recorded_new : (new maxTotal maxPerIp).Recorded maxTotal maxPerIp where
  live := rfl
  total := by
    apply HighWater.nil
    . simp [new, ConnLimits.new, default]
    . rintro ⟨hpos, hnear⟩
      rw [UInt32.lt_iff_toNat_lt] at hpos
      simp [liveAfter] at hnear hpos
      omega
  perIp ip := by
    apply HighWater.nil
    . simp [new, ConnLimits.new, default, ConnLimits.warnedIp]
    . rintro ⟨hpos, hnear⟩
      rw [UInt32.lt_iff_toNat_lt] at hpos
      simp [liveAfter] at hnear hpos
      omega
  single := each_nil
  totalRejected := each_nil
  perIpRejected := each_nil

theorem Recorded.admitted {h : History} (hrecorded : h.Recorded maxTotal maxPerIp) (ip : IpAddr)
    (hsound : h.Sound ⟨maxTotal.toNat, maxPerIp.toNat⟩) (hroom : h.live.card + 1 < 2 ^ 32)
    : Recorded maxTotal maxPerIp ⟨(h.limits.grant ip).limits, ip ::ₘ h.live,
        h.log ++ [.admitted ip (h.limits.grant ip).warnings]⟩ := by
  have hmaxTotal := hsound.maxTotal_eq
  have hmaxPerIp := hsound.maxPerIp_eq
  have hlive := hrecorded.live
  constructor
  . simp [Event.apply, hlive]
  . apply hrecorded.total.concat
    . have := hsound.tallies.warnsTotal_iff hroom
      simp only [Event.warnsTotal, Event.warnings, ConnLimits.any_isTotal_grant, this, Reaches,
        Event.isAdmitted, NearTotal, liveAfter_concat, Event.apply, Multiset.card_cons, ← hlive,
        hmaxTotal, true_and]
    . simp [Event.isAdmitted]
    . simp
    . simp [ConnLimits.totalWarned_grant, Event.warnsTotal, Event.warnings,
        ConnLimits.any_isTotal_grant]
  . intro ip'
    apply (hrecorded.perIp ip').concat
    . by_cases heq : ip = ip'
      . subst heq
        have := hsound.tallies.warnsPerIp_iff hroom ip
        simp only [Event.warnsPerIp, Event.warnings, ConnLimits.any_isPerIp_grant, decide_true,
          Bool.true_and, this, Reaches, Event.admits, NearPerIp, liveAfter_concat, Event.apply,
          Multiset.count_cons_self, ← hlive, hmaxPerIp, true_and]
      . simp [Event.warnsPerIp, Event.warnings, ConnLimits.any_isPerIp_grant, heq, Reaches,
          Event.admits]
    . intro hother
      have hne : ip' ≠ ip := by
        rintro rfl
        simp [Event.admits] at hother
      simp [NearPerIp, Event.apply, Multiset.count_cons_of_ne hne]
    . apply NearPerIp.mem
    . have hmem : h.limits.warnedIp ip' → ip' ∈ h.live := hsound.tallies.mem_of_warnedIp
      simp only [ConnLimits.warnedIp_grant, Event.warnsPerIp, Event.warnings,
        ConnLimits.any_isPerIp_grant, liveAfter_concat, Event.apply, ← hlive, Multiset.mem_cons,
        Bool.or_eq_true, Bool.and_eq_true, decide_eq_true_eq]
      grind
  . rw [each_concat]
    exact ⟨hrecorded.single, h.limits.countP_warnings_grant_le ip⟩
  . rw [each_concat]
    exact ⟨hrecorded.totalRejected, by simp⟩
  . rw [each_concat]
    exact ⟨hrecorded.perIpRejected, by simp⟩

theorem Recorded.rejected {h : History} {ip : IpAddr} {reject : Reject}
    (hrecorded : h.Recorded maxTotal maxPerIp) (hsound : h.Sound ⟨maxTotal.toNat, maxPerIp.toNat⟩)
    (herror : (h.limits.tryAcquire ip).result = .error reject)
    : Recorded maxTotal maxPerIp ⟨h.limits, h.live, h.log ++ [.rejected ip reject]⟩ := by
  constructor
  . simp [Event.apply, hrecorded.live]
  . apply hrecorded.total.concat <;> simp [Event.warnsTotal, Event.warnings, Reaches,
      Event.isAdmitted, NearTotal, Event.apply]
  . intro ip'
    apply (hrecorded.perIp ip').concat
    . simp [Event.warnsPerIp, Event.warnings, Reaches, Event.admits]
    . simp [NearPerIp, Event.apply]
    . apply NearPerIp.mem
    . have hmem : h.limits.warnedIp ip' → ip' ∈ h.live := hsound.tallies.mem_of_warnedIp
      simpa [Event.warnsPerIp, Event.warnings, Event.apply, ← hrecorded.live] using hmem
  . rw [each_concat]
    exact ⟨hrecorded.single, by simp [Event.warnings]⟩
  . rw [each_concat]
    refine ⟨hrecorded.totalRejected, ?_⟩
    rintro ip' ⟨_, _⟩
    rcases (hsound.tryAcquire_result_total_iff ip).mp herror with ⟨hpos, hfull⟩
    apply hrecorded.total.warned.mp
    apply hrecorded.total.raised
    rw [hrecorded.live] at hfull
    exact ⟨hpos, by omega⟩
  . rw [each_concat]
    refine ⟨hrecorded.perIpRejected, ?_⟩
    rintro ip' ⟨_, _⟩
    rcases (hsound.tryAcquire_result_perIp_iff ip).mp herror with ⟨_, hpos, hfull⟩
    apply (hrecorded.perIp ip).warned.mp
    apply (hrecorded.perIp ip).raised
    rw [hrecorded.live] at hfull
    exact ⟨hpos, by omega⟩

theorem Recorded.released {h : History} {guard : Guard} (hrecorded : h.Recorded maxTotal maxPerIp)
    (hsound : h.Sound ⟨maxTotal.toNat, maxPerIp.toNat⟩) (hmem : guard.srcIp ∈ h.live)
    : Recorded maxTotal maxPerIp ⟨h.limits.release guard, h.live.erase guard.srcIp,
        h.log ++ [.released guard.srcIp]⟩ := by
  have hle := Multiset.erase_le guard.srcIp h.live
  have hlive := hrecorded.live
  constructor
  . simp [Event.apply, hlive]
  . apply hrecorded.total.concat
    . simp [Event.warnsTotal, Event.warnings, Reaches, Event.isAdmitted]
    . have := Multiset.card_le_card hle
      simp only [NearTotal, liveAfter_concat, Event.apply, ← hlive]
      intro _ hnear
      exact ⟨hnear.1, by omega⟩
    . simp
    . simp [Event.warnsTotal, Event.warnings, ConnLimits.release]
  . intro ip'
    apply (hrecorded.perIp ip').concat
    . simp [Event.warnsPerIp, Event.warnings, Reaches, Event.admits]
    . have := Multiset.count_le_of_le ip' hle
      simp only [NearPerIp, liveAfter_concat, Event.apply, ← hlive]
      intro _ hnear
      exact ⟨hnear.1, by omega⟩
    . apply NearPerIp.mem
    . have htallies := hsound.tallies
      rw [← Multiset.cons_erase hmem] at htallies
      have hrelease := htallies.warnedIp_release ip'
      simp only [hrelease, Event.warnsPerIp, Event.warnings, liveAfter_concat, Event.apply, ← hlive]
      simp [and_comm]
  . rw [each_concat]
    exact ⟨hrecorded.single, by simp [Event.warnings]⟩
  . rw [each_concat]
    exact ⟨hrecorded.totalRejected, by simp⟩
  . rw [each_concat]
    exact ⟨hrecorded.perIpRejected, by simp⟩

theorem Recorded.step {h : History} {op : Op} (hrecorded : h.Recorded maxTotal maxPerIp)
    (hsound : h.Sound ⟨maxTotal.toNat, maxPerIp.toNat⟩) (hguard : machine.guard h op)
    : (machine.effect h op).Recorded maxTotal maxPerIp := by
  cases op with
  | tryAcquire ip =>
    cases hresult : (h.limits.tryAcquire ip).result with
    | ok guard =>
      have hgrant := hsound.tallies.refusal_of_ok hresult
      rcases effect_of_grant hsound.tallies hgrant with ⟨_, hlive⟩
      have hroom : h.live.card + 1 < 2 ^ 32 := by
        have : (h.effect (.tryAcquire ip)).live.card < 2 ^ 32 := hguard
        rwa [hlive, Multiset.card_cons] at this
      have := hrecorded.admitted ip hsound hroom
      simpa [machine, effect, hsound.tallies.tryAcquire_eq_grant hgrant, ConnLimits.grant] using this
    | error reject =>
      simp only [machine, effect_of_error hresult]
      apply hrecorded.rejected hsound hresult
  | drop guard => apply hrecorded.released hsound hguard

theorem recorded_of_reachable {h : History} (hreach : machine.Reachable (new maxTotal maxPerIp) h)
    : h.Recorded maxTotal maxPerIp := by
  have hboth : h.Sound ⟨maxTotal.toNat, maxPerIp.toNat⟩ ∧ h.Recorded maxTotal maxPerIp := by
    apply hreach.invariant (p := fun h =>
      h.Sound ⟨maxTotal.toNat, maxPerIp.toNat⟩ ∧ h.Recorded maxTotal maxPerIp)
    . exact ⟨sound_new maxTotal maxPerIp, recorded_new⟩
    . rintro s op ⟨hsound, hrecorded⟩ hguard _
      exact ⟨hsound.step hguard, hrecorded.step hsound hguard⟩
  exact hboth.2

theorem reachable_warnings {h : History} (hreach : machine.Reachable (new maxTotal maxPerIp) h)
    : h.live = liveAfter h.log
        ∧ Each (fun pre e => e.warnsTotal
            ↔ Reaches (fun e => e.isAdmitted) (NearTotal maxTotal) pre e
                ∧ ¬ Once (Reaches (fun e => e.isAdmitted) (NearTotal maxTotal)) pre) h.log
        ∧ Each (fun pre e => e.warnsTotal → ¬ Once (fun _ e => e.warnsTotal) pre) h.log
        ∧ (∀ ip, Each (fun pre e => e.warnsPerIp ip
            ↔ Reaches (fun e => e.admits ip) (NearPerIp maxPerIp ip) pre e
                ∧ ¬ Since (ip ∈ liveAfter ·)
                    (Reaches (fun e => e.admits ip) (NearPerIp maxPerIp ip)) pre) h.log)
        ∧ (∀ ip, Each (fun pre e => e.warnsPerIp ip →
            ¬ Since (ip ∈ liveAfter ·) (fun _ e => e.warnsPerIp ip) pre) h.log)
        ∧ Each (fun _ e => e.warnings.countP Warning.isTotal ≤ 1
            ∧ ∀ ip, e.warnings.countP (Warning.isPerIp ip) ≤ 1) h.log
        ∧ Each (fun pre e => ∀ ip, e = .rejected ip .total →
            Once (fun _ e => e.warnsTotal) pre) h.log
        ∧ Each (fun pre e => ∀ ip, e = .rejected ip .perIp →
            Since (ip ∈ liveAfter ·) (fun _ e => e.warnsPerIp ip) pre) h.log := by
  have hrecorded := recorded_of_reachable hreach
  exact ⟨hrecorded.live, hrecorded.total.exact, hrecorded.total.once,
    fun ip => (hrecorded.perIp ip).exact, fun ip => (hrecorded.perIp ip).once, hrecorded.single,
    hrecorded.totalRejected, hrecorded.perIpRejected⟩

def returned : List Op :=
  crowded ++ vacated ++ [.tryAcquire neighbour, .tryAcquire loopback]

theorem reachable_warnings_returned
    : let log := (machine.exec (new 3 2) returned).log
      log = [.admitted loopback [], .admitted loopback [.perIp loopback 2 2],
          .rejected loopback .perIp, .admitted neighbour [.total 3 3], .rejected neighbour .total,
          .released loopback, .released loopback, .admitted neighbour [.perIp neighbour 2 2],
          .rejected neighbour .perIp, .admitted loopback []]
        ∧ Once (fun _ e => Event.warnsTotal e) (log.take 4)
        ∧ Since (neighbour ∈ liveAfter ·) (fun _ e => Event.warnsPerIp neighbour e) (log.take 8) := by
  intro log
  have hruns : machine.Runs (new 3 2) returned := by decide
  have hwarnings := reachable_warnings hruns.reachable
  have hlog : log = [.admitted loopback [], .admitted loopback [.perIp loopback 2 2],
      .rejected loopback .perIp, .admitted neighbour [.total 3 3], .rejected neighbour .total,
      .released loopback, .released loopback, .admitted neighbour [.perIp neighbour 2 2],
      .rejected neighbour .perIp, .admitted loopback []] := by
    decide
  have htotal : log = log.take 4 ++ .rejected neighbour .total :: log.drop 5 := by decide
  have hperIp : log = log.take 8 ++ .rejected neighbour .perIp :: log.drop 9 := by decide
  exact ⟨hlog, hwarnings.2.2.2.2.2.2.1 _ _ _ htotal neighbour rfl,
    hwarnings.2.2.2.2.2.2.2 _ _ _ hperIp neighbour rfl⟩

end History
end Limits
