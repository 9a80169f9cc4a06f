import Oxiduct.Data.Parser
import Oxiduct.Net.ProxyProtocol

/-!
This module contains a reference parser of PROXY protocol v2 headers on a stream, and that it reads
back what `v2_header` announces.
-/

inductive AddressFamily where
  | inet
  | inet6
  deriving DecidableEq, Repr

def IpAddr.family : IpAddr → AddressFamily
  | .v4 _ => .inet
  | .v6 _ => .inet6

namespace ProxyProtocol

structure Endpoint where
  ip : IpAddr
  port : UInt16
  deriving DecidableEq, Repr

inductive Header where
  | locally
  | proxy (src dst : Endpoint)
  deriving DecidableEq, Repr

def ipv4 : Parser UInt8 IpAddr := do
  let v ← Parser.vector 4
  pure (.v4 ⟨v[0], v[1], v[2], v[3]⟩)

def ipv6 : Parser UInt8 IpAddr := do
  let v ← Parser.vector 16
  pure (.v6 ⟨v⟩)

def addressBlock (address : Parser UInt8 IpAddr) : Parser UInt8 Header := do
  let srcIp ← address
  let dstIp ← address
  let srcPort ← Parser.be16
  let dstPort ← Parser.be16
  pure (.proxy ⟨srcIp, srcPort⟩ ⟨dstIp, dstPort⟩)

/--
What the block after the length means. The receiver of a `LOCAL` command ignores the family.
-/
def block (verCmd family : UInt8) : Parser UInt8 Header :=
  match verCmd, family with
  | 0x20, _ => pure .locally
  | 0x21, 0x11 => addressBlock ipv4
  | 0x21, 0x21 => addressBlock ipv6
  | _, _ => failure

def decode : Parser UInt8 Header := do
  Parser.tag signature
  let verCmd ← Parser.token
  let family ← Parser.token
  let length ← Parser.be16
  Parser.delimited length.toNat (block verCmd family)

open Parser (Parses IsLocal)

theorem parses_ipv4 (addr : Ipv4Addr) : Parses ipv4 addr.octets (.v4 addr) := by
  apply (Parses.vector #v[addr.a, addr.b, addr.c, addr.d]).map
    (fun v => IpAddr.v4 ⟨v[0], v[1], v[2], v[3]⟩)

theorem parses_ipv6 (addr : Ipv6Addr) : Parses ipv6 addr.octets.toList (.v6 addr) := by
  apply (Parses.vector addr.octets).map (fun v => IpAddr.v6 ⟨v⟩)

theorem parses_addressBlock {address : Parser UInt8 IpAddr} {srcIp dstIp : IpAddr}
    {srcBytes dstBytes : List UInt8} (hsrc : Parses address srcBytes srcIp)
    (hdst : Parses address dstBytes dstIp) (srcPort dstPort : UInt16)
    : Parses (addressBlock address)
        (srcBytes ++ (dstBytes ++ (toBeBytes srcPort ++ toBeBytes dstPort)))
        (.proxy ⟨srcIp, srcPort⟩ ⟨dstIp, dstPort⟩) := by
  apply hsrc.bind
  apply hdst.bind
  apply (Parses.be16 srcPort).bind
  apply (Parses.be16 dstPort).map

theorem parses_decode (verCmd family : UInt8) (length : UInt16) {bytes : List UInt8}
    {header : Header} (hblock : Parses (block verCmd family) bytes header)
    (hlength : length.toNat = bytes.length)
    : Parses decode
        (signature ++ ([verCmd] ++ ([family] ++ (toBeBytes length ++ bytes)))) header := by
  apply (Parses.tag signature).bind
  apply (Parses.token verCmd).bind
  apply (Parses.token family).bind
  apply (Parses.be16 length).bind
  have h := hblock.delimited []
  rwa [List.append_nil, ← hlength] at h

def announced (src dst : SocketAddr) : Header :=
  if src.ip.toCanonical.family = dst.ip.toCanonical.family then
    .proxy ⟨src.ip.toCanonical, src.port⟩ ⟨dst.ip.toCanonical, dst.port⟩
  else
    .locally

theorem parses_v2Header (src dst : SocketAddr)
    : Parses decode (v2Header src dst) (announced src dst) := by
  unfold v2Header announced
  split
  . next s d hsrc hdst =>
    have hblock := parses_addressBlock (parses_ipv4 s) (parses_ipv4 d) src.port dst.port
    have h := parses_decode verCmdProxy tpTcp4 12 hblock rfl
    simpa [hsrc, hdst, IpAddr.family] using h
  . next s d hsrc hdst =>
    have hblock := parses_addressBlock (parses_ipv6 s) (parses_ipv6 d) src.port dst.port
    have hlength : (36 : UInt16).toNat
        = (s.octets.toList ++ (d.octets.toList ++ (toBeBytes src.port ++ toBeBytes dst.port))).length
        := by
      simp [toBeBytes]
    have h := parses_decode verCmdProxy tpTcp6 36 hblock hlength
    simpa [hsrc, hdst, IpAddr.family] using h
  . next hv4 hv6 =>
    have hfamily : src.ip.toCanonical.family ≠ dst.ip.toCanonical.family := by
      cases hsrc : src.ip.toCanonical <;> cases hdst : dst.ip.toCanonical
        <;> simp_all [IpAddr.family]
    have hblock : Parses (block verCmdLocal tpUnspec) [] .locally := Parses.pure Header.locally
    have h := parses_decode verCmdLocal tpUnspec 0 hblock rfl
    simpa [hfamily] using h

theorem isLocal_decode : IsLocal decode := by
  apply (IsLocal.tag signature).bind fun _ => ?_
  apply IsLocal.token.bind fun verCmd => ?_
  apply IsLocal.token.bind fun family => ?_
  apply IsLocal.be16.bind fun length => ?_
  apply IsLocal.delimited

end ProxyProtocol
