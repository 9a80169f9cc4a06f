import Mathlib.Algebra.BigOperators.Group.List.Basic
import Mathlib.Data.List.ProdSigma
import Mathlib.Data.UInt
import Oxiduct.Data.Dict

/-!
This module contains the registry behind `metrics::Metrics`: the metric families and the label values
their series are kept under. A series exists from the first `with_label_values` that names it.
-/

namespace Metrics

abbrev Labels := List String

structure Desc where
  name : String
  help : String
  labels : List String

inductive Counter where
  | connectionsTotal
  | connectionsRejected
  | connectFailures
  | connectTimeouts
  | bytesTotal
  | connectionsClosed
  deriving DecidableEq, Repr

def Counter.desc : Counter → Desc
  | .connectionsTotal =>
    ⟨"oxiduct_connections_total", "Connections accepted / UDP sessions opened",
      ["proxy", "protocol"]⟩
  | .connectionsRejected =>
    ⟨"oxiduct_connections_rejected_total", "Connections refused by the connection limiter",
      ["proxy", "reason"]⟩
  | .connectFailures =>
    ⟨"oxiduct_connect_failures_total", "Upstream TCP connect failures", ["proxy"]⟩
  | .connectTimeouts =>
    ⟨"oxiduct_connect_timeouts_total", "Upstream TCP connect timeouts", ["proxy"]⟩
  | .bytesTotal => ⟨"oxiduct_bytes_total", "Bytes relayed", ["proxy", "direction"]⟩
  | .connectionsClosed =>
    ⟨"oxiduct_connections_closed_total", "Connections / sessions closed, by reason",
      ["proxy", "reason"]⟩

def Counter.values : Counter → List Labels
  | .connectionsTotal => [["tcp"], ["udp"]]
  | .connectionsRejected => [["total"], ["per_ip"]]
  | .connectFailures => [[]]
  | .connectTimeouts => [[]]
  | .bytesTotal => [["up"], ["down"]]
  | .connectionsClosed =>
    [["eof"], ["reset"], ["idle_timeout"], ["half_close_timeout"], ["shutdown"], ["error"]]

inductive Gauge where
  | active
  | limitMaxConnections
  | limitMaxPerIp
  deriving DecidableEq, Repr

def Gauge.desc : Gauge → Desc
  | .active =>
    ⟨"oxiduct_active_connections", "Currently active connections / sessions", ["proxy"]⟩
  | .limitMaxConnections =>
    ⟨"oxiduct_max_connections", "Configured total connection cap (0 = unlimited)", ["proxy"]⟩
  | .limitMaxPerIp =>
    ⟨"oxiduct_max_per_ip", "Configured per-source-IP connection cap (0 = unlimited)", ["proxy"]⟩

structure Registry where
  counters : Counter → Dict Labels UInt64
  gauges : Gauge → Dict Labels Int

def Registry.new : Registry where
  counters := fun _ => ∅
  gauges := fun _ => ∅

/--
An operation on one series. `with_label_values` alone is an increment by 0.
-/
inductive Op where
  | inc (family : Counter) (labels : Labels) (n : UInt64)
  | add (family : Gauge) (labels : Labels) (n : Int)
  | set (family : Gauge) (labels : Labels) (n : Int)
  deriving DecidableEq, Repr

namespace Registry

def counter (r : Registry) (family : Counter) (labels : Labels) : UInt64 :=
  ((r.counters family).lookup labels).getD 0

def gauge (r : Registry) (family : Gauge) (labels : Labels) : Int :=
  ((r.gauges family).lookup labels).getD 0

def setGauge (r : Registry) (family : Gauge) (labels : Labels) (n : Int) : Registry :=
  { r with
    gauges := Function.update r.gauges family ((r.gauges family).insert labels n)
  }

def apply (r : Registry) : Op → Registry
  | .inc family labels n =>
    { r with
      counters := Function.update r.counters family
        ((r.counters family).insert labels (r.counter family labels + n))
    }
  | .add family labels n => r.setGauge family labels (r.gauge family labels + n)
  | .set family labels n => r.setGauge family labels n

def applyAll (r : Registry) (ops : List Op) : Registry :=
  ops.foldl apply r

end Registry

namespace Op

def amount (family : Counter) (labels : Labels) : Op → UInt64
  | .inc family' labels' n => if family' = family ∧ labels' = labels then n else 0
  | _ => 0

def level (family : Gauge) (labels : Labels) (before : Int) : Op → Int
  | .add family' labels' n => if family' = family ∧ labels' = labels then before + n else before
  | .set family' labels' n => if family' = family ∧ labels' = labels then n else before
  | _ => before

def Names (name : String) : Op → Prop
  | .inc family labels _ => ∃ rest ∈ family.values, labels = name :: rest
  | .add _ labels _ => labels = [name]
  | .set _ labels _ => labels = [name]

end Op

def amounts (family : Counter) (labels : Labels) (ops : List Op) : UInt64 :=
  (ops.map (Op.amount family labels)).sum

def levels (family : Gauge) (labels : Labels) (before : Int) (ops : List Op) : Int :=
  ops.foldl (Op.level family labels) before

section Names

variable (name : String)

@[simp]
theorem names_inc (family : Counter) (rest : Labels) (n : UInt64)
    : (Op.inc family (name :: rest) n).Names name ↔ rest ∈ family.values := by
  simp [Op.Names]

@[simp]
theorem names_add (family : Gauge) (n : Int) : (Op.add family [name] n).Names name := rfl

@[simp]
theorem names_set (family : Gauge) (n : Int) : (Op.set family [name] n).Names name := rfl

end Names

section Amounts

variable (family : Counter) (name : String) (rest : Labels)

@[simp]
theorem amount_inc (family' : Counter) (rest' : Labels) (n : UInt64)
    : Op.amount family (name :: rest) (.inc family' (name :: rest') n)
        = if family' = family ∧ rest' = rest then n else 0 := by
  simp [Op.amount]

@[simp]
theorem amount_add (family' : Gauge) (labels : Labels) (n : Int)
    : Op.amount family rest (.add family' labels n) = 0 := rfl

@[simp]
theorem amount_set (family' : Gauge) (labels : Labels) (n : Int)
    : Op.amount family rest (.set family' labels n) = 0 := rfl

@[simp]
theorem amounts_nil : amounts family rest [] = 0 := rfl

@[simp]
theorem amounts_cons (op : Op) (ops : List Op)
    : amounts family rest (op :: ops) = op.amount family rest + amounts family rest ops := by
  simp [amounts]

theorem amounts_append (ops ops' : List Op)
    : amounts family rest (ops ++ ops') = amounts family rest ops + amounts family rest ops' := by
  simp [amounts]

end Amounts

section Levels

variable (family : Gauge) (name : String) (rest : Labels) (before : Int)

@[simp]
theorem level_inc (family' : Counter) (labels : Labels) (n : UInt64)
    : Op.level family rest before (.inc family' labels n) = before := rfl

@[simp]
theorem level_add (family' : Gauge) (rest' : Labels) (n : Int)
    : Op.level family (name :: rest) before (.add family' (name :: rest') n)
        = if family' = family ∧ rest' = rest then before + n else before := by
  simp [Op.level]

@[simp]
theorem level_set (family' : Gauge) (rest' : Labels) (n : Int)
    : Op.level family (name :: rest) before (.set family' (name :: rest') n)
        = if family' = family ∧ rest' = rest then n else before := by
  simp [Op.level]

@[simp]
theorem levels_nil : levels family rest before [] = before := rfl

@[simp]
theorem levels_cons (op : Op) (ops : List Op)
    : levels family rest before (op :: ops)
        = levels family rest (op.level family rest before) ops := rfl

theorem levels_append (ops ops' : List Op)
    : levels family rest before (ops ++ ops')
        = levels family rest (levels family rest before ops) ops' :=
  List.foldl_append

end Levels

namespace Registry

variable (r : Registry)

@[simp]
theorem counter_new (family : Counter) (labels : Labels) : new.counter family labels = 0 := rfl

@[simp]
theorem gauge_new (family : Gauge) (labels : Labels) : new.gauge family labels = 0 := rfl

theorem gauge_setGauge (family family' : Gauge) (labels labels' : Labels) (n : Int)
    : (r.setGauge family' labels' n).gauge family labels
        = if family' = family ∧ labels' = labels then n else r.gauge family labels := by
  simp only [setGauge, gauge, Dict.lookup_update_insert]
  split <;> rfl

theorem counter_apply (op : Op) (family : Counter) (labels : Labels)
    : (r.apply op).counter family labels = r.counter family labels + op.amount family labels := by
  cases op with
  | inc family' labels' n =>
    simp only [apply, counter, Op.amount, Dict.lookup_update_insert]
    split
    . next h =>
      rw [h.1, h.2]
      rfl
    . exact (UInt64.add_zero _).symm
  | add family' labels' n => exact (UInt64.add_zero _).symm
  | set family' labels' n => exact (UInt64.add_zero _).symm

theorem gauge_apply (op : Op) (family : Gauge) (labels : Labels)
    : (r.apply op).gauge family labels = op.level family labels (r.gauge family labels) := by
  cases op with
  | inc family' labels' n => rfl
  | add family' labels' n =>
    rw [apply, gauge_setGauge, Op.level]
    split
    . next h => rw [h.1, h.2]
    . rfl
  | set family' labels' n =>
    rw [apply, gauge_setGauge]
    rfl

theorem counter_applyAll (ops : List Op) (family : Counter) (labels : Labels)
    : (r.applyAll ops).counter family labels
        = r.counter family labels + amounts family labels ops := by
  induction ops generalizing r with
  | nil => exact (UInt64.add_zero _).symm
  | cons op ops ih =>
    refine (ih (r.apply op)).trans ?_
    rw [counter_apply, amounts, amounts, List.map_cons, List.sum_cons, add_assoc]

theorem gauge_applyAll (ops : List Op) (family : Gauge) (labels : Labels)
    : (r.applyAll ops).gauge family labels
        = levels family labels (r.gauge family labels) ops := by
  induction ops generalizing r with
  | nil => rfl
  | cons op ops ih =>
    refine (ih (r.apply op)).trans ?_
    rw [gauge_apply]
    rfl

end Registry

@[ext]
structure Counts where
  total : Nat := 0
  rejected : List String := []
  failures : Nat := 0
  timeouts : Nat := 0
  up : UInt64 := 0
  down : UInt64 := 0
  closed : List String := []

namespace Counts

def add (c d : Counts) : Counts where
  total := c.total + d.total
  rejected := c.rejected ++ d.rejected
  failures := c.failures + d.failures
  timeouts := c.timeouts + d.timeouts
  up := c.up + d.up
  down := c.down + d.down
  closed := c.closed ++ d.closed

def counter (protocol : String) (c : Counts) (family : Counter) (rest : Labels) : UInt64 :=
  match family with
  | .connectionsTotal => if [protocol] = rest then UInt64.ofNat c.total else 0
  | .connectionsRejected => UInt64.ofNat (c.rejected.countP fun why => [why] = rest)
  | .connectFailures => if [] = rest then UInt64.ofNat c.failures else 0
  | .connectTimeouts => if [] = rest then UInt64.ofNat c.timeouts else 0
  | .bytesTotal => (if ["up"] = rest then c.up else 0) + (if ["down"] = rest then c.down else 0)
  | .connectionsClosed => UInt64.ofNat (c.closed.countP fun reason => [reason] = rest)

variable (protocol : String) (c d : Counts) (family : Counter) (rest : Labels)

theorem add_zero : c.add {} = c := by
  simp [add]

theorem counter_zero : ({} : Counts).counter protocol family rest = 0 := by
  cases family <;> simp [counter]

theorem counter_add
    : (c.add d).counter protocol family rest
        = c.counter protocol family rest + d.counter protocol family rest := by
  cases family with
  | connectionsTotal => simp only [counter, add]; split <;> simp [UInt64.ofNat_add]
  | connectionsRejected => simp only [counter, add, List.countP_append, UInt64.ofNat_add]
  | connectFailures => simp only [counter, add]; split <;> simp [UInt64.ofNat_add]
  | connectTimeouts => simp only [counter, add]; split <;> simp [UInt64.ofNat_add]
  | bytesTotal =>
    simp only [counter, add]
    split <;> split <;> simp [add_add_add_comm]
  | connectionsClosed => simp only [counter, add, List.countP_append, UInt64.ofNat_add]

end Counts

theorem amounts_of_other {name name' : String} {ops : List Op} (hops : ∀ op ∈ ops, op.Names name')
    (hne : name' ≠ name) (family : Counter) (rest : Labels)
    : amounts family (name :: rest) ops = 0 := by
  apply List.sum_eq_zero
  intro n hn
  rcases List.mem_map.mp hn with ⟨op, hop, rfl⟩
  have hnames := hops op hop
  cases op with
  | inc family' labels n =>
    rcases hnames with ⟨rest', _, rfl⟩
    simp [Op.amount, hne]
  | add family' labels n => rfl
  | set family' labels n => rfl

theorem levels_of_other {name name' : String} {ops : List Op} (hops : ∀ op ∈ ops, op.Names name')
    (hne : name' ≠ name) (family : Gauge) (rest : Labels) (before : Int)
    : levels family (name :: rest) before ops = before := by
  induction ops with
  | nil => rfl
  | cons op ops ih =>
    have hlevel : op.level family (name :: rest) before = before := by
      have hnames := hops op (List.mem_cons_self ..)
      cases op with
      | inc family' labels n => rfl
      | add family' labels n =>
        rw [show labels = [name'] from hnames]
        simp [Op.level, hne]
      | set family' labels n =>
        rw [show labels = [name'] from hnames]
        simp [Op.level, hne]
    rw [levels_cons, hlevel]
    exact ih fun op' hop' => hops op' (List.mem_cons_of_mem op hop')

namespace Registry

structure Within (names : List String) (r : Registry) : Prop where
  counters : ∀ family, ∀ labels ∈ r.counters family,
    ∃ name ∈ names, ∃ rest ∈ family.values, labels = name :: rest
  gauges : ∀ family, ∀ labels ∈ r.gauges family, ∃ name ∈ names, labels = [name]

variable {r : Registry} {names : List String}

theorem within_new : new.Within names := by
  constructor <;> simp [new]

theorem Within.apply (h : r.Within names) {op : Op} {name : String} (hname : name ∈ names)
    (hop : op.Names name)
    : (r.apply op).Within names := by
  have hgauge : ∀ {family labels n}, labels = [name] → (r.setGauge family labels n).Within names := by
    rintro family labels n rfl
    refine ⟨h.counters, fun family' labels' hmem => ?_⟩
    rcases Dict.mem_update_insert hmem with ⟨_, rfl⟩ | hmem
    . exact ⟨name, hname, rfl⟩
    . exact h.gauges family' labels' hmem
  cases op with
  | inc family labels n =>
    refine ⟨fun family' labels' hmem => ?_, h.gauges⟩
    rcases Dict.mem_update_insert hmem with ⟨rfl, rfl⟩ | hmem
    . exact ⟨name, hname, hop⟩
    . exact h.counters family' labels' hmem
  | add family labels n => exact hgauge hop
  | set family labels n => exact hgauge hop

theorem Within.applyAll (h : r.Within names) {ops : List Op} {name : String} (hname : name ∈ names)
    (hops : ∀ op ∈ ops, op.Names name)
    : (r.applyAll ops).Within names := by
  induction ops generalizing r with
  | nil => exact h
  | cons op ops ih =>
    apply ih (h.apply hname (hops op (List.mem_cons_self ..)))
    exact fun op' hop' => hops op' (List.mem_cons_of_mem op hop')

theorem Within.size_le (h : r.Within names) (family : Counter)
    : (r.counters family).size ≤ names.length * family.values.length := by
  have hkeys : (r.counters family).keys ⊆ (names ×ˢ family.values).map fun p => p.1 :: p.2 := by
    intro labels hmem
    rcases h.counters family labels (AList.mem_keys.mpr hmem) with ⟨name, hname, rest, hrest, rfl⟩
    exact List.mem_map.mpr ⟨(name, rest), List.mem_product.mpr ⟨hname, hrest⟩, rfl⟩
  have hle := ((r.counters family).keys_nodup.subperm hkeys).length_le
  rw [List.length_map, List.length_product] at hle
  refine Nat.le_trans (Nat.le_of_eq ?_) hle
  simp [Dict.size, AList.keys, List.keys]

theorem Within.size_gauges_le (h : r.Within names) (family : Gauge)
    : (r.gauges family).size ≤ names.length := by
  have hkeys : (r.gauges family).keys ⊆ names.map fun name => [name] := by
    intro labels hmem
    rcases h.gauges family labels (AList.mem_keys.mpr hmem) with ⟨name, hname, rfl⟩
    exact List.mem_map_of_mem hname
  have hle := ((r.gauges family).keys_nodup.subperm hkeys).length_le
  rw [List.length_map] at hle
  refine Nat.le_trans (Nat.le_of_eq ?_) hle
  simp [Dict.size, AList.keys, List.keys]

end Registry
end Metrics
