import Mathlib.Tactic.Common

/-!
This module contains the socket addresses of `std::net`, as far as the proxy looks into them.
-/

structure Ipv4Addr where
  a : UInt8
  b : UInt8
  c : UInt8
  d : UInt8
  deriving DecidableEq, Repr

def Ipv4Addr.octets (addr : Ipv4Addr) : List UInt8 :=
  [addr.a, addr.b, addr.c, addr.d]

structure Ipv6Addr where
  octets : Vector UInt8 16
  deriving DecidableEq, Repr

def Ipv6Addr.toIpv4Mapped (addr : Ipv6Addr) : Option Ipv4Addr :=
  match addr.octets.toList with
  | [0, 0, 0, 0, 0, 0, 0, 0, 0, 0, 0xff, 0xff, a, b, c, d] => some ⟨a, b, c, d⟩
  | _ => none

inductive IpAddr where
  | v4 (addr : Ipv4Addr)
  | v6 (addr : Ipv6Addr)
  deriving DecidableEq, Repr

def IpAddr.toCanonical : IpAddr → IpAddr
  | .v4 addr => .v4 addr
  | .v6 addr =>
    match addr.toIpv4Mapped with
    | some mapped => .v4 mapped
    | none => .v6 addr

inductive SocketAddr where
  | v4 (addr : Ipv4Addr) (port : UInt16)
  | v6 (addr : Ipv6Addr) (port : UInt16) (flowinfo scopeId : UInt32)
  deriving DecidableEq, Repr

def SocketAddr.ip : SocketAddr → IpAddr
  | .v4 addr _ => .v4 addr
  | .v6 addr .. => .v6 addr

def SocketAddr.port : SocketAddr → UInt16
  | .v4 _ port => port
  | .v6 _ port .. => port
