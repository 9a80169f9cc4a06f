import Oxiduct.Net.Addr

/-!
This module contains the construction of PROXY protocol v2 headers (`proxy/proxy_protocol.rs`).
-/

namespace ProxyProtocol

def signature : List UInt8 :=
  [0x0D, 0x0A, 0x0D, 0x0A, 0x00, 0x0D, 0x0A, 0x51, 0x55, 0x49, 0x54, 0x0A]

def verCmdProxy : UInt8 := 0x21
def verCmdLocal : UInt8 := 0x20
def tpTcp4 : UInt8 := 0x11
def tpTcp6 : UInt8 := 0x21
def tpUnspec : UInt8 := 0x00

def toBeBytes (x : UInt16) : List UInt8 :=
  [(x >>> 8).toUInt8, x.toUInt8]

def v2Header (src dst : SocketAddr) : List UInt8 :=
  signature ++
    match src.ip.toCanonical, dst.ip.toCanonical with
    | .v4 s, .v4 d =>
      [verCmdProxy, tpTcp4] ++ toBeBytes 12 ++ s.octets ++ d.octets
        ++ toBeBytes src.port ++ toBeBytes dst.port
    | .v6 s, .v6 d =>
      [verCmdProxy, tpTcp6] ++ toBeBytes 36 ++ s.octets.toList ++ d.octets.toList
        ++ toBeBytes src.port ++ toBeBytes dst.port
    | _, _ => [verCmdLocal, tpUnspec] ++ toBeBytes 0

end ProxyProtocol
