import Oxiduct.Limits.Basic
import Oxiduct.Limits.Pool

/-!
This module contains the refinement of the abstract slot limiter by `ConnLimits`: its two counters
tally the live guards, and `try_acquire` decides what the caps decide.
-/

namespace Limits
namespace ConnLimits

def caps (self : ConnLimits) : Caps :=
  ⟨self.maxTotal.toNat, self.maxPerIp.toNat⟩

structure Tallies (limits : ConnLimits) (live : Multiset IpAddr) : Prop where
  total : limits.state.total.toNat = live.card
  perIp : ∀ ip, (limits.state.perIp.lookup ip).map (fun stat => stat.count.toNat)
    = if ip ∈ live then some (live.count ip) else none

def Reject.ofRefusal : Caps.Refusal → Reject
  | .total => .total
  | .perKey => .perIp

theorem tallies_new (maxTotal maxPerIp : UInt32) : (new maxTotal maxPerIp).Tallies 0 := by
  constructor
  . rfl
  . simp [new, default]

@[simp]
theorem caps_tryAcquire (self : ConnLimits) (ip : IpAddr)
    : (self.tryAcquire ip).limits.caps = self.caps := by
  unfold tryAcquire
  split
  . rfl
  . split <;> rfl

theorem Tallies.currentIp {self : ConnLimits} {live : Multiset IpAddr} (h : self.Tallies live)
    (ip : IpAddr)
    : (self.currentIp ip).toNat = live.count ip := by
  have := h.perIp ip
  unfold ConnLimits.currentIp
  cases hlookup : self.state.perIp.lookup ip with
  | none =>
    rw [hlookup] at this
    split at this
    . simp at this
    . next hmem => simp [Multiset.count_eq_zero_of_notMem hmem]
  | some stat =>
    rw [hlookup] at this
    split at this
    . simpa using this
    . simp at this

theorem Tallies.tryAcquire_result {self : ConnLimits} {live : Multiset IpAddr}
    (h : self.Tallies live) (ip : IpAddr)
    : (self.tryAcquire ip).result
        =
      match self.caps.refusal live ip with
      | some refusal => .error (Reject.ofRefusal refusal)
      | none => .ok ⟨ip⟩ := by
  have htotal : (0 < self.maxTotal ∧ self.maxTotal ≤ self.state.total)
      ↔ (0 < self.caps.total ∧ self.caps.total ≤ live.card) := by
    rw [← h.total, UInt32.lt_iff_toNat_lt, UInt32.le_iff_toNat_le]
    rfl
  have hperIp : (0 < self.maxPerIp ∧ self.maxPerIp ≤ self.currentIp ip)
      ↔ (0 < self.caps.perKey ∧ self.caps.perKey ≤ live.count ip) := by
    rw [← h.currentIp, UInt32.lt_iff_toNat_lt, UInt32.le_iff_toNat_le]
    rfl
  unfold tryAcquire Caps.refusal
  simp only [htotal, hperIp]
  split
  . rfl
  . split <;> rfl

theorem Tallies.tryAcquire_eq_grant {self : ConnLimits} {live : Multiset IpAddr}
    (h : self.Tallies live) {ip : IpAddr} (hgrant : self.caps.refusal live ip = none)
    : self.tryAcquire ip = self.grant ip := by
  have hresult := h.tryAcquire_result ip
  rw [hgrant] at hresult
  unfold tryAcquire at hresult ⊢
  split at hresult
  . simp at hresult
  . split at hresult
    . simp at hresult
    . next h1 h2 => simp [h1, h2]

theorem limits_of_error {self : ConnLimits} {ip : IpAddr} {reject : Reject}
    (h : (self.tryAcquire ip).result = .error reject)
    : (self.tryAcquire ip).limits = self := by
  unfold tryAcquire at h ⊢
  split
  . rfl
  . next h1 =>
    split
    . rfl
    . next h2 => simp [h1, h2, grant] at h

theorem Tallies.grant {self : ConnLimits} {live : Multiset IpAddr} (h : self.Tallies live)
    (ip : IpAddr) (hroom : live.card + 1 < 2 ^ 32)
    : (self.grant ip).limits.Tallies (ip ::ₘ live) := by
  constructor
  . simp only [ConnLimits.grant, Multiset.card_cons]
    rw [UInt32.toNat_add_one]
    . rw [h.total]
    . rw [h.total]
      exact hroom
  . intro ip'
    by_cases heq : ip' = ip
    . subst heq
      have hcount : (((self.state.perIp.lookup ip').getD default).count).toNat
          = live.count ip' := by
        rw [← h.currentIp]
        unfold ConnLimits.currentIp
        cases self.state.perIp.lookup ip' <;> rfl
      have := Multiset.count_le_card ip' live
      simp only [ConnLimits.grant, AList.lookup_insert, Option.map_some, Multiset.mem_cons_self,
        ↓reduceIte, Multiset.count_cons_self]
      rw [UInt32.toNat_add_one]
      . rw [hcount]
      . rw [hcount]
        omega
    . simp only [ConnLimits.grant, AList.lookup_insert_ne heq, h.perIp ip', Multiset.mem_cons, heq,
        false_or, Multiset.count_cons_of_ne heq]

theorem Tallies.stat_of_mem {self : ConnLimits} {live : Multiset IpAddr} (h : self.Tallies live)
    {ip : IpAddr} (hmem : ip ∈ live)
    : ∃ stat, self.state.perIp.lookup ip = some stat ∧ stat.count.toNat = live.count ip := by
  have := h.perIp ip
  rw [if_pos hmem, Option.map_eq_some_iff] at this
  exact this

theorem Tallies.release {self : ConnLimits} {live : Multiset IpAddr} {guard : Guard}
    (h : self.Tallies (guard.srcIp ::ₘ live))
    : (self.release guard).Tallies live := by
  rcases h.stat_of_mem (Multiset.mem_cons_self ..) with ⟨stat, hstat, hcount⟩
  rw [Multiset.count_cons_self] at hcount
  constructor
  . simp only [ConnLimits.release, UInt32.toNat_saturatingSub, h.total, Multiset.card_cons]
    rfl
  . have hsub : (stat.count.saturatingSub 1).toNat = live.count guard.srcIp := by
      rw [UInt32.toNat_saturatingSub, hcount]
      rfl
    intro ip
    simp only [ConnLimits.release, hstat]
    by_cases heq : ip = guard.srcIp
    . subst heq
      split
      . next hzero =>
        rw [hzero] at hsub
        have : guard.srcIp ∉ live := Multiset.count_eq_zero.mp hsub.symm
        simp [this]
      . next hzero =>
        have : guard.srcIp ∈ live := by
          rw [← Multiset.count_pos, ← hsub]
          have := UInt32.toNat_inj.not.mpr hzero
          simp only [UInt32.toNat_zero] at this
          omega
        simp [this, hsub]
    . have hperIp := h.perIp ip
      simp only [Multiset.mem_cons, heq, false_or, Multiset.count_cons_of_ne heq] at hperIp
      rw [← hperIp]
      split
      . rw [AList.lookup_erase_ne heq]
      . rw [AList.lookup_insert_ne heq]

theorem Tallies.foldl_release {limits : ConnLimits} {guards : List Guard} {live : Multiset IpAddr}
    (h : limits.Tallies ((guards.map Guard.srcIp : Multiset IpAddr) + live))
    : (guards.foldl ConnLimits.release limits).Tallies live := by
  induction guards generalizing limits with
  | nil => simpa using h
  | cons guard guards ih =>
    apply ih
    apply Tallies.release
    rw [List.map_cons, ← Multiset.cons_coe, Multiset.cons_add] at h
    exact h

theorem caps_foldl_release (limits : ConnLimits) (guards : List Guard)
    : (guards.foldl release limits).caps = limits.caps := by
  induction guards generalizing limits with
  | nil => rfl
  | cons guard guards ih => exact ih (limits.release guard)

theorem srcIp_of_ok {limits : ConnLimits} {ip : IpAddr} {guard : Guard}
    (h : (limits.tryAcquire ip).result = .ok guard)
    : guard.srcIp = ip := by
  unfold tryAcquire at h
  split at h
  . simp at h
  . split at h
    . simp at h
    . rw [grant, Except.ok.injEq] at h
      rw [← h]

theorem Tallies.refusal_of_ok {limits : ConnLimits} {live : Multiset IpAddr}
    (htallies : limits.Tallies live) {ip : IpAddr} {guard : Guard}
    (h : (limits.tryAcquire ip).result = .ok guard)
    : limits.caps.refusal live ip = none := by
  rw [htallies.tryAcquire_result] at h
  split at h
  . simp at h
  . assumption

theorem Tallies.acquire {limits : ConnLimits} {live : Multiset IpAddr}
    (htallies : limits.Tallies live) (hwithin : limits.caps.Within live) {ip : IpAddr}
    {guard : Guard} (hok : (limits.tryAcquire ip).result = .ok guard)
    (hroom : 0 < limits.caps.total ∨ live.card + 1 < 2 ^ 32)
    : (limits.tryAcquire ip).limits.Tallies (ip ::ₘ live) ∧ limits.caps.Within (ip ::ₘ live) := by
  have hrefusal := htallies.refusal_of_ok hok
  have hcard : live.card + 1 < 2 ^ 32 := by
    rcases hroom with hpos | hroom
    . have hlt := (Caps.refusal_eq_none_iff.mp hrefusal).1 hpos
      have := limits.maxTotal.toNat_lt
      simp only [caps] at hlt
      omega
    . exact hroom
  rw [htallies.tryAcquire_eq_grant hrefusal]
  exact ⟨htallies.grant ip hcard, hwithin.cons hrefusal⟩

end ConnLimits
end Limits
