import Oxiduct.Net.Ipv6Text

/-!
This module contains the checks of address texts (`check_host_port` of `config.rs` and
`expand_listen` of `cli.rs`), and for which texts they admit only addresses that can work.
-/

abbrev ErrorChain := List String

namespace Config

def parseU16 (cs : List Char) : Option UInt16 :=
  (Text.readUnsigned (2 ^ 16) cs).map UInt16.ofNat

def checkHostPort (s : String) : Except ErrorChain UInt16 :=
  match Text.rsplitOnce ':' s.toList with
  | none => .error ["\"" ++ s ++ "\" is missing a :port"]
  | some (host, port) =>
    if host = [] then
      .error ["\"" ++ s ++ "\" is missing a host"]
    else
      match parseU16 port with
      | some port => .ok port
      | none => .error ["\"" ++ s ++ "\" has an invalid port \"" ++ String.ofList port ++ "\""]

def expandListen (s : String) : String :=
  if (parseU16 s.toList).isSome then "0.0.0.0:" ++ s else s

theorem parseU16_eq_some_iff {cs : List Char} {p : UInt16}
    : parseU16 cs = some p ↔ Text.Denotes (Text.unsigned cs) p.toNat := by
  unfold parseU16
  rw [Option.map_eq_some_iff]
  constructor
  . rintro ⟨n, hn, rfl⟩
    rcases (Text.readUnsigned_eq_some_iff (by omega)).mp hn with ⟨hdenotes, hlt⟩
    rwa [UInt16.toNat_ofNat', Nat.mod_eq_of_lt hlt]
  . intro h
    refine ⟨p.toNat, (Text.readUnsigned_eq_some_iff (by omega)).mpr ⟨h, p.toNat_lt⟩, ?_⟩
    simp

theorem checkHostPort_eq_ok_iff {s : String} {p : UInt16}
    : checkHostPort s = .ok p
        ↔
      ∃ host port, Text.rsplitOnce ':' s.toList = some (host, port) ∧ host ≠ []
        ∧ parseU16 port = some p := by
  unfold checkHostPort
  split
  . next hsplit => simp [hsplit]
  . next host port hsplit =>
    simp only [hsplit, Option.some.injEq, Prod.mk.injEq]
    constructor
    . intro h
      split at h
      . simp at h
      . next hhost =>
        split at h
        . next q hport =>
          rw [Except.ok.injEq] at h
          subst h
          exact ⟨host, port, ⟨rfl, rfl⟩, hhost, hport⟩
        . simp at h
    . rintro ⟨host', port', ⟨rfl, rfl⟩, hhost, hport⟩
      simp [hhost, hport]

def isIpv6Host (host : List Char) : Bool :=
  Ipv6Text.isIpv6 host
    || (host.head? = some '[' && host.getLast? = some ']' && Ipv6Text.isIpv6 host.tail.dropLast)

structure HostPort (cs host port : List Char) (p : UInt16) : Prop where
  split : cs = host ++ ':' :: port
  numeral : Text.Denotes (Text.unsigned port) p.toNat
  host_ne_nil : host ≠ []
  host_ok : ':' ∉ host ∨ isIpv6Host host

/--
What the check has to guarantee about `s`: an accepted text has the shape of an address that can
work, and an IPv6 address without a port is not taken for one with a port.
-/
def AdmitsUsable (s : String) : Prop :=
  (∀ p, checkHostPort s = .ok p → ∃ host port, HostPort s.toList host port p)
    ∧ (Ipv6Text.isIpv6 s.toList →
        (∀ host port, Text.rsplitOnce ':' s.toList = some (host, port) → ¬ Ipv6Text.isIpv6 host) →
        ∀ p, checkHostPort s ≠ .ok p)

/--
The text before the last `:` has no other `:` or is an IPv6 address, or else it is empty or what
follows the last `:` is not the numeral of a `u16`.
-/
def HostUnambiguous (s : String) : Prop :=
  ∀ host port, Text.rsplitOnce ':' s.toList = some (host, port) →
    ':' ∉ host ∨ isIpv6Host host ∨ host = [] ∨ parseU16 port = none

theorem colon_notMem_of_denotes {port : List Char} {n : Nat}
    (h : Text.Denotes (Text.unsigned port) n)
    : ':' ∉ port := by
  have hdigits := h.isDigit
  intro hmem
  have : ':' ∈ Text.unsigned port := by
    unfold Text.unsigned
    split
    . simpa using hmem
    . exact hmem
  have := hdigits ':' this
  simp at this

theorem HostPort.rsplitOnce {cs host port : List Char} {p : UInt16} (h : HostPort cs host port p)
    : Text.rsplitOnce ':' cs = some (host, port) := by
  rw [Text.rsplitOnce_eq_some_iff]
  exact ⟨h.split, colon_notMem_of_denotes h.numeral⟩

theorem not_isIpv6_of_head? {cs : List Char} (h : cs.head? = some '[') : ¬ Ipv6Text.isIpv6 cs := by
  intro hipv6
  have hmem : '[' ∈ cs := List.mem_of_head? h
  have := Ipv6Text.isAddressChar_of_isIpv6 hipv6 '[' hmem
  simp [Ipv6Text.isAddressChar, Char.isHexDigit] at this

theorem not_isIpv6_of_rsplitOnce {cs host port : List Char}
    (hsplit : Text.rsplitOnce ':' cs = some (host, port)) (hhost : host ≠ [])
    (hok : ':' ∉ host ∨ isIpv6Host host) (hnot : ¬ Ipv6Text.isIpv6 host)
    : ¬ Ipv6Text.isIpv6 cs := by
  intro hipv6
  rcases Text.rsplitOnce_eq_some_iff.mp hsplit with ⟨rfl, hport⟩
  rcases hok with hcolon | hhostOk
  . have := Ipv6Text.two_le_count_of_isIpv6 hipv6
    rw [List.count_append, List.count_cons_self, List.count_eq_zero.mpr hcolon,
      List.count_eq_zero.mpr hport] at this
    omega
  . simp only [isIpv6Host, Bool.or_eq_true, hnot, Bool.false_eq_true, false_or, Bool.and_eq_true,
      decide_eq_true_eq] at hhostOk
    apply not_isIpv6_of_head? ?_ hipv6
    rw [List.head?_append_of_ne_nil _ hhost]
    exact hhostOk.1.1

theorem admitsUsable_iff_hostUnambiguous (s : String) : AdmitsUsable s ↔ HostUnambiguous s := by
  constructor
  . rintro ⟨hshape, _⟩ host port hsplit
    cases hport : parseU16 port with
    | none => simp
    | some p =>
      by_cases hhost : host = []
      . simp [hhost]
      . have haccepts := checkHostPort_eq_ok_iff.mpr ⟨host, port, hsplit, hhost, hport⟩
        rcases hshape p haccepts with ⟨host', port', h⟩
        have heq := hsplit.symm.trans h.rsplitOnce
        simp only [Option.some.injEq, Prod.mk.injEq] at heq
        have := h.host_ok
        rw [← heq.1] at this
        tauto
  . intro hunambiguous
    have hok : ∀ host port p, Text.rsplitOnce ':' s.toList = some (host, port) → host ≠ [] →
        parseU16 port = some p → ':' ∉ host ∨ isIpv6Host host := by
      intro host port p hsplit hhost hport
      have := hunambiguous host port hsplit
      simp only [hhost, hport, reduceCtorEq, or_false] at this
      exact this
    constructor
    . intro p haccepts
      rcases checkHostPort_eq_ok_iff.mp haccepts with ⟨host, port, hsplit, hhost, hport⟩
      exact ⟨host, port, (Text.rsplitOnce_eq_some_iff.mp hsplit).1, parseU16_eq_some_iff.mp hport,
        hhost, hok host port p hsplit hhost hport⟩
    . intro hipv6 hnot p haccepts
      rcases checkHostPort_eq_ok_iff.mp haccepts with ⟨host, port, hsplit, hhost, hport⟩
      have := hok host port p hsplit hhost hport
      exact not_isIpv6_of_rsplitOnce hsplit hhost this (hnot host port hsplit) hipv6

theorem loopback_admitted_as_host_port : ¬ AdmitsUsable "::1" := by
  rintro ⟨hshape, _⟩
  rcases hshape 1 rfl with ⟨host, port, h⟩
  have hsplit : Text.rsplitOnce ':' "::1".toList = some ([':'], ['1']) := by decide
  have heq := hsplit.symm.trans h.rsplitOnce
  simp only [Option.some.injEq, Prod.mk.injEq] at heq
  have hok := h.host_ok
  rw [← heq.1] at hok
  revert hok
  decide

end Config
