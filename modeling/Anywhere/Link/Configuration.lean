import Anywhere.Config
import Anywhere.Lib.PercentCoding

/-!
# Anywhere — the configurations of share links

The fields of `ProxyConfiguration` that a share link carries, as texts, and the words that its
enumerations stand under.
-/

namespace Anywhere.Link

open Lib

-- ----
-- Enumerations

/-- `TlsFingerprint.raw`. -/
def raw : TlsFingerprint → Text
  | .chrome133 => "chrome_133".toList
  | .firefox148 => "firefox_148".toList
  | .safari26 => "safari_26".toList
  | .ios14 => "ios_14".toList
  | .edge85 => "edge_85".toList
  | .android11 => "android_11".toList
  | .qq11 => "qq_11".toList
  | .browser360 => "360_7".toList
  | .chrome120 => "chrome_120".toList
  | .firefox120 => "firefox_120".toList
  | .safari16 => "safari_16".toList
  | .edge106 => "edge_106".toList
  | .random => "random".toList

/-- `TlsFingerprint.entries`. -/
def fingerprints : List TlsFingerprint :=
  [.chrome133, .firefox148, .safari26, .ios14, .edge85, .android11, .qq11, .browser360, .chrome120,
    .firefox120, .safari16, .edge106, .random]

/-- `TlsFingerprint.fromRaw(value)`. -/
def fromRaw (value : Text) : TlsFingerprint :=
  (fingerprints.find? fun entry => raw entry = value).getD .chrome133

/-- `TlsVersion.urlValue`. -/
def urlValue : TlsVersion → Text
  | .tls12 => "1.2".toList
  | .tls13 => "1.3".toList

/-- `XHttpMode.raw`. -/
def rawMode : XHttpMode → Text
  | .auto => "auto".toList
  | .streamOne => "stream-one".toList
  | .packetUp => "packet-up".toList
  | .streamUp => "stream-up".toList

/-- `XHttpMode.fromRaw(value)`. -/
def modeFromRaw (value : Text) : XHttpMode :=
  ([XHttpMode.auto, .streamOne, .packetUp, .streamUp].find? fun mode => rawMode mode = value).getD
    .auto

inductive NaiveProtocol
  | http11
  | http2
  deriving DecidableEq

-- ----
-- Records

structure TlsConfiguration where
  serverName : Text
  alpn : Option (List Text) := none
  allowInsecure : Bool := false
  fingerprint : TlsFingerprint := .chrome133
  minVersion : Option TlsVersion := none
  maxVersion : Option TlsVersion := none
  deriving DecidableEq

structure RealityConfiguration where
  serverName : Text
  publicKey : Bytes
  shortId : Bytes
  fingerprint : TlsFingerprint := .chrome133
  deriving DecidableEq

structure WebSocketConfiguration where
  host : Text
  path : Text := ['/']
  maxEarlyData : Int := 0
  deriving DecidableEq

structure HttpUpgradeConfiguration where
  host : Text
  path : Text := ['/']
  deriving DecidableEq

/-- The other members are what `fromExtraJson` reads from `extra`, or defaults. -/
structure XHttpConfiguration where
  host : Text
  path : Text := ['/']
  mode : XHttpMode := .auto
  extra : Option Text := none
  deriving DecidableEq

structure GrpcConfiguration where
  serviceName : Text := []
  authority : Text := []
  multiMode : Bool := false
  userAgent : Text := []
  initialWindowsSize : Int := 0
  idleTimeout : Int := 0
  healthCheckTimeout : Int := 0
  permitWithoutStream : Bool := false
  deriving DecidableEq

/-- `java.util.UUID`. -/
structure Uuid where
  mostSigBits : UInt64
  leastSigBits : UInt64
  deriving DecidableEq

structure ProxyConfiguration where
  name : Text
  serverAddress : Text
  serverPort : UInt16
  uuid : Uuid
  encryption : Text
  transport : Text := "tcp".toList
  flow : Option Text := none
  security : Text := "none".toList
  tls : Option TlsConfiguration := none
  reality : Option RealityConfiguration := none
  websocket : Option WebSocketConfiguration := none
  httpUpgrade : Option HttpUpgradeConfiguration := none
  xhttp : Option XHttpConfiguration := none
  grpc : Option GrpcConfiguration := none
  testseed : List UInt32 := [900, 500, 900, 256]
  muxEnabled : Bool := true
  xudpEnabled : Bool := true
  outboundProtocol : OutboundProtocol := .vless
  ssPassword : Option Text := none
  ssMethod : Option Text := none
  socks5Username : Option Text := none
  socks5Password : Option Text := none
  naiveUsername : Option Text := none
  naivePassword : Option Text := none
  naiveProtocol : Option NaiveProtocol := none
  trojanPassword : Option Text := none
  trojanTls : Option TlsConfiguration := none
  deriving DecidableEq

end Anywhere.Link
