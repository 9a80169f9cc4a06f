import Mathlib.Data.List.Sort
import Oxiduct.Metrics.Basic
import Oxiduct.Metrics.Registry

/-!
This module contains the text exposition format, version 0.0.4, of a registry: the families that have
a series, sorted by name, and a line for each series, sorted by label values. A value is shown as the
integer it is, which is how an `f64` is displayed up to 2^53.
-/

namespace Metrics

inductive Kind where
  | counter
  | gauge

def Kind.text : Kind → String
  | .counter => "counter"
  | .gauge => "gauge"

structure Sample where
  labels : Labels
  value : Int

structure Family where
  desc : Desc
  kind : Kind
  samples : List Sample

namespace Registry

variable (r : Registry)

def counterFamily (family : Counter) : Family where
  desc := family.desc
  kind := .counter
  samples := (r.counters family).entries.map fun entry => ⟨entry.1, entry.2.toNat⟩

def gaugeFamily (family : Gauge) : Family where
  desc := family.desc
  kind := .gauge
  samples := (r.gauges family).entries.map fun entry => ⟨entry.1, entry.2⟩

def families : List Family :=
  let registered := [
    r.counterFamily .connectionsTotal,
    r.counterFamily .connectionsRejected,
    r.counterFamily .connectFailures,
    r.counterFamily .connectTimeouts,
    r.counterFamily .bytesTotal,
    r.counterFamily .connectionsClosed,
    r.gaugeFamily .active,
    r.gaugeFamily .limitMaxConnections,
    r.gaugeFamily .limitMaxPerIp
  ]
  let used := registered.filter fun f => !f.samples.isEmpty
  used.insertionSort fun f g => f.desc.name ≤ g.desc.name

end Registry

def escapeHelp (c : Char) : List Char :=
  if c = '\\' then
    ['\\', '\\']
  else if c = '\n' then
    ['\\', 'n']
  else
    [c]

def escapeValue (c : Char) : List Char :=
  if c = '"' then
    ['\\', '"']
  else
    escapeHelp c

def pairText (pair : String × String) : List Char :=
  pair.1.toList ++ "=\"".toList ++ pair.2.toList.flatMap escapeValue ++ "\"".toList

namespace Family

variable (f : Family)

def pairs (labels : Labels) : List (String × String) :=
  (f.desc.labels.zip labels).insertionSort fun p q => p.1 ≤ q.1

def values (labels : Labels) : List String :=
  (f.pairs labels).map Prod.snd

def sorted : List Sample :=
  f.samples.insertionSort fun a b => (f.values b.labels).lex (f.values a.labels) = false

def line (sample : Sample) : List Char :=
  f.desc.name.toList ++ "\x7b".toList
    ++ [','].intercalate ((f.pairs sample.labels).map pairText)
    ++ "\x7d ".toList ++ (toString sample.value).toList ++ "\n".toList

def header : List Char :=
  "# HELP ".toList ++ f.desc.name.toList ++ " ".toList ++ f.desc.help.toList.flatMap escapeHelp
    ++ "\n# TYPE ".toList ++ f.desc.name.toList ++ " ".toList ++ f.kind.text.toList ++ "\n".toList

def text : List Char :=
  f.header ++ f.sorted.flatMap f.line

theorem infix_flatMap {α : Type u} {β : Type v} {a : α} {l : List α} (h : a ∈ l) (g : α → List β)
    : g a <:+: l.flatMap g := by
  rw [List.flatMap_def]
  exact List.infix_of_mem_flatten (List.mem_map_of_mem h)

theorem line_infix_text {sample : Sample} (h : sample ∈ f.samples) : f.line sample <:+: f.text := by
  have hsorted : sample ∈ f.sorted := (List.mem_insertionSort _).mpr h
  exact (infix_flatMap hsorted f.line).trans (List.suffix_append ..).isInfix

end Family

namespace Registry

variable (r : Registry)

def exposition : Bytes :=
  Utf8.encode (r.families.flatMap Family.text)

theorem counterFamily_mem_families (family : Counter) (h : (r.counterFamily family).samples ≠ [])
    : r.counterFamily family ∈ r.families := by
  rw [families, List.mem_insertionSort, List.mem_filter]
  refine ⟨?_, by simpa using h⟩
  cases family <;> simp

theorem gaugeFamily_mem_families (family : Gauge) (h : (r.gaugeFamily family).samples ≠ [])
    : r.gaugeFamily family ∈ r.families := by
  rw [families, List.mem_insertionSort, List.mem_filter]
  refine ⟨?_, by simpa using h⟩
  cases family <;> simp

variable {r}

theorem line_infix_exposition {f : Family} (hf : f ∈ r.families) {sample : Sample}
    (h : sample ∈ f.samples)
    : Utf8.encode (f.line sample) <:+: r.exposition := by
  have htext := (f.line_infix_text h).trans (Family.infix_flatMap hf Family.text)
  rcases htext with ⟨before, after, heq⟩
  refine ⟨Utf8.encode before, Utf8.encode after, ?_⟩
  rw [exposition, ← heq, Utf8.encode, Utf8.encode, Utf8.encode, Utf8.encode, List.flatMap_append,
    List.flatMap_append]

theorem counter_line_infix {family : Counter} {labels : Labels} {n : UInt64}
    (h : (r.counters family).lookup labels = some n)
    : Utf8.encode ((r.counterFamily family).line ⟨labels, n.toNat⟩) <:+: r.exposition := by
  have hmem : ⟨labels, n.toNat⟩ ∈ (r.counterFamily family).samples :=
    List.mem_map.mpr ⟨⟨labels, n⟩, AList.mem_lookup_iff.mp h, rfl⟩
  exact line_infix_exposition (r.counterFamily_mem_families family (List.ne_nil_of_mem hmem)) hmem

theorem gauge_line_infix {family : Gauge} {labels : Labels} {n : Int}
    (h : (r.gauges family).lookup labels = some n)
    : Utf8.encode ((r.gaugeFamily family).line ⟨labels, n⟩) <:+: r.exposition := by
  have hmem : ⟨labels, n⟩ ∈ (r.gaugeFamily family).samples :=
    List.mem_map.mpr ⟨⟨labels, n⟩, AList.mem_lookup_iff.mp h, rfl⟩
  exact line_infix_exposition (r.gaugeFamily_mem_families family (List.ne_nil_of_mem hmem)) hmem

set_option maxRecDepth 4000 in
example :
    let r := new.applyAll [.inc .bytesTotal ["p\"1", "up"] 123, .inc .bytesTotal ["p\"1", "down"] 0]
    r.families.flatMap Family.text
      =
    ["# HELP oxiduct_bytes_total Bytes relayed\n",
      "# TYPE oxiduct_bytes_total counter\n",
      "oxiduct_bytes_total\x7bdirection=\"down\",proxy=\"p\\\"1\"\x7d 0\n",
      "oxiduct_bytes_total\x7bdirection=\"up\",proxy=\"p\\\"1\"\x7d 123\n"].flatMap
        String.toList := by
  decide +kernel

end Registry
end Metrics
