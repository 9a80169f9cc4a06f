import Oxiduct.Data.Dict
import Oxiduct.Data.Saturating
import Oxiduct.Net.Addr

/-!
This module contains the connection limiter (`limits.rs`): `ConnLimits::try_acquire` and the drop of
a `Guard`. The mutex makes each of them one step. The `warn!` events of a call are returned as data.
-/

namespace Limits

inductive Reject where
  | total
  | perIp
  deriving DecidableEq, Repr

def Reject.label : Reject → String
  | .total => "total"
  | .perIp => "per_ip"

structure Guard where
  srcIp : IpAddr
  deriving DecidableEq, Repr

structure IpStat where
  count : UInt32
  warned : Bool

instance : Inhabited IpStat where
  default := ⟨0, false⟩

structure State where
  total : UInt32
  perIp : Dict IpAddr IpStat
  totalWarned : Bool

instance : Inhabited State where
  default := ⟨0, ∅, false⟩

structure ConnLimits where
  maxTotal : UInt32
  maxPerIp : UInt32
  state : State

def ConnLimits.new (maxTotal maxPerIp : UInt32) : ConnLimits :=
  ⟨maxTotal, maxPerIp, default⟩

inductive Warning where
  | total (used limit : UInt32)
  | perIp (srcIp : IpAddr) (used limit : UInt32)
  deriving DecidableEq, Repr

structure Acquired where
  result : Except Reject Guard
  limits : ConnLimits
  warnings : List Warning

def reached90pct (used cap : UInt32) : Bool :=
  cap.toUInt64 * 9 ≤ used.toUInt64 * 10

def ConnLimits.currentIp (self : ConnLimits) (srcIp : IpAddr) : UInt32 :=
  ((self.state.perIp.lookup srcIp).map IpStat.count).getD 0

def ConnLimits.grant (self : ConnLimits) (srcIp : IpAddr) : Acquired :=
  let s := self.state
  -- release builds do not check `+= 1`: both counters wrap at 2^32
  let totalNow := s.total + 1
  let totalShouldWarn := !s.totalWarned && 0 < self.maxTotal && reached90pct totalNow self.maxTotal
  let stat := (s.perIp.lookup srcIp).getD default
  let perIpCount := stat.count + 1
  let perIpShouldWarn := !stat.warned && 0 < self.maxPerIp && reached90pct perIpCount self.maxPerIp
  {
    result := .ok ⟨srcIp⟩
    limits := { self with
      state := {
        total := totalNow
        perIp := s.perIp.insert srcIp ⟨perIpCount, stat.warned || perIpShouldWarn⟩
        totalWarned := s.totalWarned || totalShouldWarn
      }
    }
    warnings :=
      (if totalShouldWarn then [.total totalNow self.maxTotal] else []) ++
      (if perIpShouldWarn then [.perIp srcIp perIpCount self.maxPerIp] else [])
  }

def ConnLimits.tryAcquire (self : ConnLimits) (srcIp : IpAddr) : Acquired :=
  if 0 < self.maxTotal ∧ self.maxTotal ≤ self.state.total then
    ⟨.error .total, self, []⟩
  else if 0 < self.maxPerIp ∧ self.maxPerIp ≤ self.currentIp srcIp then
    ⟨.error .perIp, self, []⟩
  else
    self.grant srcIp

def ConnLimits.release (self : ConnLimits) (guard : Guard) : ConnLimits :=
  let s := self.state
  { self with
    state := { s with
      total := s.total.saturatingSub 1
      perIp :=
        match s.perIp.lookup guard.srcIp with
        | some stat =>
          let count := stat.count.saturatingSub 1
          if count = 0 then
            s.perIp.erase guard.srcIp
          else
            s.perIp.insert guard.srcIp { stat with count }
        | none => s.perIp
    }
  }

end Limits
