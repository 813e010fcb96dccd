import Mathlib.Data.List.Basic
import Mathlib.Tactic.Linarith

/-!
# Anywhere — the data model of `ProxyConfiguration.kt`

The records a connection is configured with, field by field with the source's
defaults. A nullable Kotlin field is an `Option`, a `Map<String, String>` is an
association list, and the two `UUID`s are their sixteen bytes. The display
names, the share-link texts and the serializers are not part of the record.
-/

namespace Anywhere

abbrev Bytes := List UInt8

/-- Two bytes, the upper one first, hold a 16-bit number. -/
theorem bytes16_value {n : Nat} (h : n < 65536) :
    (UInt8.ofNat (n / 256)).toNat * 256 + (UInt8.ofNat n).toNat = n := by
  rw [UInt8.toNat_ofNat', UInt8.toNat_ofNat']
  omega

inductive TlsFingerprint where
  | chrome133 | firefox148 | safari26 | ios14 | edge85 | android11 | qq11 | browser360
  | chrome120 | firefox120 | safari16 | edge106 | random
  deriving DecidableEq

/-- `TlsVersion`; the wire value is `TlsVersion.value`. -/
inductive TlsVersion where
  | tls12 | tls13
  deriving DecidableEq, Repr

def TlsVersion.value : TlsVersion → Nat
  | .tls12 => 0x0303
  | .tls13 => 0x0304

structure TlsConfiguration where
  serverName : String
  alpn : Option (List String) := none
  allowInsecure : Bool := false
  fingerprint : TlsFingerprint := .chrome133
  minVersion : Option TlsVersion := none
  maxVersion : Option TlsVersion := none

structure RealityConfiguration where
  serverName : String
  publicKey : Bytes
  shortId : Bytes
  fingerprint : TlsFingerprint := .chrome133

structure WebSocketConfiguration where
  host : String
  path : String := "/"
  headers : List (String × String) := []
  maxEarlyData : Int := 0
  earlyDataHeaderName : String := "Sec-WebSocket-Protocol"
  heartbeatPeriod : UInt32 := 0

structure HttpUpgradeConfiguration where
  host : String
  path : String := "/"
  headers : List (String × String) := []

inductive XHttpMode where
  | auto | streamOne | packetUp | streamUp
  deriving DecidableEq

/-- The part of `XHttpConfiguration` that chooses the connections to open. -/
structure XHttpConfiguration where
  host : String
  path : String := "/"
  mode : XHttpMode := .auto

structure GrpcConfiguration where
  serviceName : String := ""
  authority : String := ""
  multiMode : Bool := false

inductive OutboundProtocol where
  | vless | trojan | shadowsocks | socks5 | naiveHttp11 | naiveHttp2
  deriving DecidableEq

/-- Whether the first bytes of the caller travel inside the protocol handshake. -/
def OutboundProtocol.handshakeCarriesInitialData (p : OutboundProtocol) : Bool :=
  p == .vless

structure ProxyConfiguration where
  serverAddress : String
  serverPort : UInt16
  resolvedIP : Option String := none
  uuid : Bytes := []
  transport : String := "tcp"
  flow : Option String := none
  tls : Option TlsConfiguration := none
  reality : Option RealityConfiguration := none
  websocket : Option WebSocketConfiguration := none
  httpUpgrade : Option HttpUpgradeConfiguration := none
  xhttp : Option XHttpConfiguration := none
  grpc : Option GrpcConfiguration := none
  testseed : List UInt32 := [900, 500, 900, 256]
  outboundProtocol : OutboundProtocol := .vless
  chain : Option (List ProxyConfiguration) := none

/-- `withChain(chain)`: a copy with another chain. -/
def ProxyConfiguration.withChain (c : ProxyConfiguration)
    (chain : Option (List ProxyConfiguration)) : ProxyConfiguration :=
  { c with chain := chain }

end Anywhere
