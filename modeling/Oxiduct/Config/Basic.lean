import Mathlib.Tactic.Common

/-!
This module contains the resolved configuration of one proxy (`config.rs`).
-/

inductive Protocol where
  | tcp
  | udp
  deriving DecidableEq, Repr

namespace Defaults

def connectTimeoutSecs : UInt64 := 3
def keepaliveIdleSecs : UInt64 := 60
def keepaliveIntervalSecs : UInt64 := 10
def keepaliveRetries : UInt32 := 6
def userTimeoutMs : UInt32 := 90000
def idleTimeoutSecs : UInt64 := 300
def halfCloseTimeoutSecs : UInt64 := 30
def shutdownGraceSecs : UInt64 := 10
def maxConnections : UInt32 := 32000
def maxPerIp : UInt32 := 320

end Defaults

structure ProxyConfig where
  name : String
  listen : String
  target : String
  protocol : Protocol
  connectTimeoutSecs : UInt64
  keepaliveIdleSecs : UInt64
  keepaliveIntervalSecs : UInt64
  keepaliveRetries : UInt32
  userTimeoutMs : UInt32
  idleTimeoutSecs : UInt64
  halfCloseTimeoutSecs : UInt64
  maxConnections : UInt32
  maxPerIp : UInt32
  proxyProtocol : Bool
  deriving DecidableEq, Repr

def ProxyConfig.untuned (listen target : String) (protocol : Protocol) : ProxyConfig where
  name := listen ++ " -> " ++ target
  listen := listen
  target := target
  protocol := protocol
  connectTimeoutSecs := Defaults.connectTimeoutSecs
  keepaliveIdleSecs := Defaults.keepaliveIdleSecs
  keepaliveIntervalSecs := Defaults.keepaliveIntervalSecs
  keepaliveRetries := Defaults.keepaliveRetries
  userTimeoutMs := Defaults.userTimeoutMs
  idleTimeoutSecs := Defaults.idleTimeoutSecs
  halfCloseTimeoutSecs := Defaults.halfCloseTimeoutSecs
  maxConnections := Defaults.maxConnections
  maxPerIp := Defaults.maxPerIp
  proxyProtocol := false
