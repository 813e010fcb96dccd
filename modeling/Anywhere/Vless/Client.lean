import Anywhere.Lib.Effects
import Anywhere.Lib.Text
import Anywhere.Vless.Uplink
import Anywhere.Vless.UdpFraming

/-!
# Anywhere — `VlessClient`

`VlessClient` opens the connection the configuration asks for, transport by transport,
each with its own loop of attempts, and sends the request on it. The model records
every write of the request and of the payload with the connection it is made on: a bare
transport, or the `TlsRecordConnection` that a TLS or Reality client has established
over it. The bytes the WebSocket, HTTP and gRPC layers put around the data are left
out; what they write, they write on the connection they were given.
-/

namespace Anywhere.Vless

open Lib

-- ----
-- The request

inductive VlessCommand where
  | tcp | udp | mux
  deriving DecidableEq, Repr

def VlessCommand.value : VlessCommand → UInt8
  | .tcp => 0x01
  | .udp => 0x02
  | .mux => 0x03

/-- `toByteArray(Charsets.UTF_8)`. -/
def utf8Bytes (text : Text) : Bytes := text.flatMap String.utf8EncodeChar

/-- `encodeAddons`: a protobuf message with the flow as field 1. -/
def encodeAddons (flow : Option Text) : Bytes :=
  match flow with
  | none | some [] => []
  | some flow => [0x0A, UInt8.ofNat (utf8Bytes flow).length] ++ utf8Bytes flow

/-- `VlessProtocol.parseIPv4`. -/
def parseIPv4 (address : Text) : Option Bytes :=
  let parts := address.splitOn '.'
  if parts.length ≠ 4 then none
  else
    parts.mapM fun part =>
      match Text.toNumberOrNull 32 10 part with
      | none => none
      | some value => if value < 0 ∨ value > 255 then none else some (UInt8.ofNat value.toNat)

/-- `VlessProtocol.parseIPv6`: the first empty part stands for the missing groups, and
the other empty parts behind it are dropped. -/
def parseIPv6 (address : Text) : Option Bytes :=
  let addr :=
    if address.head? = some '[' ∧ address.getLast? = some ']' then (address.drop 1).dropLast
    else address
  let parts := addr.splitOn ':'
  let groups :=
    match parts.idxOf? [] with
    | none => some parts
    | some emptyIndex =>
      let before := parts.take emptyIndex
      let after := (parts.drop (emptyIndex + 1)).filter (· ≠ [])
      if before.length + after.length > 8 then none
      else some (before ++ List.replicate (8 - before.length - after.length) ['0'] ++ after)
  match groups with
  | none => none
  | some groups =>
    if groups.length ≠ 8 then none
    else
      (groups.mapM fun group =>
        match Text.toNumberOrNull 32 16 group with
        | none => none
        | some value =>
          if value < 0 ∨ value > 0xFFFF then none
          else some [UInt8.ofNat (value.toNat / 256), UInt8.ofNat value.toNat]).map List.flatten

def encodeAddress (destinationAddress : Text) : Bytes :=
  match parseIPv4 destinationAddress, parseIPv6 destinationAddress with
  | some ipv4, _ => 0x01 :: ipv4
  | none, some ipv6 => 0x03 :: ipv6
  | none, none =>
    let domainBytes := utf8Bytes destinationAddress
    0x02 :: UInt8.ofNat domainBytes.length :: domainBytes

/-- `VlessProtocol.encodeRequestHeader`; a mux request has no destination. -/
def encodeRequestHeader (uuid : Bytes) (command : VlessCommand) (destinationAddress : Text)
    (destinationPort : Nat) (flow : Option Text) : Bytes :=
  let addons := encodeAddons flow
  [0x00] ++ uuid ++ [UInt8.ofNat addons.length] ++ addons ++ [command.value] ++
    if command = .mux then []
    else
      [UInt8.ofNat (destinationPort / 256), UInt8.ofNat destinationPort] ++
        encodeAddress destinationAddress

-- ----
-- Connections and writes

/-- Where bytes leave the client: a socket to the server, the connection through the
previous hop, or a second one that is built for the upload. -/
inductive Transport where
  | socket | tunnel | uploadTunnel

/-- The client that has established a `TlsRecordConnection`, with its configuration. -/
inductive Protection where
  | tls (configuration : TlsConfiguration)
  | reality (configuration : RealityConfiguration)

/-- What a connection writes on: a record connection over a transport, or the bare
transport. The attempt that has opened it, and whether it is the upload connection of that
attempt, tell it from the others. -/
structure Carrier where
  transport : Transport
  protection : Option Protection
  attempt : Nat
  upload : Bool := false

/-- What `TlsRecordConnection.sendRaw` writes on: the transport of this connection. -/
def Carrier.bare (c : Carrier) : Carrier := { c with protection := none }

structure Write where
  carrier : Carrier
  data : Bytes

/-- What is thrown; what the network and the peer throw is `other`, unless it is a
`TlsError.CertificateValidationFailed`. -/
inductive Failure where
  | dropped
  | protocolError (message : String)
  | connectionFailed (message : String)
  | setupFailed (reason : String)
  | certificateValidationFailed
  | other
  deriving DecidableEq

abbrev Sends := Effects Write Failure

structure Attempt where
  /-- Which attempt of the loop it is; the loop sets it. -/
  number : Nat := 0
  /-- What `connect` of the socket, the TLS client or the Reality client throws. -/
  connect : Option Failure := none
  /-- The version the TLS handshake has ended with. -/
  version : TlsVersion := .tls13
  /-- What the upgrade or the setup of the HTTP layer throws. -/
  setup : Option Failure := none
  /-- What opening the upload connection throws. -/
  upload : Option Failure := none
  /-- Whether `cancel` was called before the request is sent. -/
  cancelled : Bool := false
  /-- What the request throws when it is sent, after it was written or a part of it. -/
  request : Option Failure := none
  /-- What the first Vision frames throw when they are sent. -/
  opening : Option Failure := none
  /-- The random numbers of these frames. -/
  outcomes : Nat → Outcome

structure XHttpConnection where
  mode : XHttpMode
  useHTTP2 : Bool
  download : Carrier
  upload : Option Carrier := none

/-- `uploadSend`, which the setup has to have opened. -/
def XHttpConnection.uploadSend (x : XHttpConnection) (data : Bytes) : Sends Unit :=
  match x.upload with
  | none => .throw (.setupFailed "Upload connection not established")
  | some upload => .write ⟨upload, data⟩

/-- `XHttpConnection.send`; a packet-up write goes through the queue of the flusher. -/
def XHttpConnection.send (x : XHttpConnection) (data : Bytes) : Sends Unit :=
  if x.useHTTP2 then .write ⟨x.download, data⟩
  else
    match x.mode with
    | .packetUp | .streamUp => x.uploadSend data
    | .streamOne => .write ⟨x.download, data⟩
    | .auto => pure ()

/-- `XHttpConnection.performSetup`. Over HTTP/1.1 the modes with an upload connection
open it here. -/
def XHttpConnection.performSetup (x : XHttpConnection) (setup : Option Failure)
    (uploadConnectionFactory : Option (Sends Carrier)) : Sends XHttpConnection := do
  Effects.check setup
  if x.useHTTP2 ∨ x.mode = .streamOne then return x
  match uploadConnectionFactory with
  | none =>
    .throw (.setupFailed (if x.mode = .streamUp then "No upload connection factory for stream-up"
      else "No upload connection factory"))
  | some factory =>
    let upload ← factory
    return { x with upload := some upload }

/-- The connections under the VLESS layer, each with what it was built over. -/
inductive VlessConnection where
  | direct (connection : Carrier)
  | tls (tlsConnection : Carrier) (version : TlsVersion)
  | reality (realityConnection : Carrier)
  | webSocket (wsConnection : Carrier)
  | httpUpgrade (huConnection : Carrier)
  | xhttp (xhttpConnection : XHttpConnection)
  | grpc (grpcConnection : Carrier)

namespace VlessConnection

def outerTlsVersion : VlessConnection → Option TlsVersion
  | .tls _ version => some version
  | .reality _ => some .tls13
  | _ => none

def sendRaw (data : Bytes) : VlessConnection → Sends Unit
  | .direct c | .tls c _ | .reality c | .webSocket c | .httpUpgrade c | .grpc c =>
    .write ⟨c, data⟩
  | .xhttp x => x.send data

/-- Only the two record connections can be bypassed. -/
def sendDirectRaw (data : Bytes) : VlessConnection → Sends Unit
  | .tls c _ | .reality c => .write ⟨c.bare, data⟩
  | c => c.sendRaw data

end VlessConnection

/-- What a connect returns: the connection itself, or one with UDP framing or Vision
around it. -/
inductive ProxyConnection where
  | plain (inner : VlessConnection)
  | udp (inner : VlessConnection)
  | vision (inner : VlessConnection) (trafficState : VisionTrafficState)

/-- `VlessVisionConnection.sendRaw`. -/
def visionSend (inner : VlessConnection) (s : VisionTrafficState) (data : Bytes)
    (outcomes : Nat → Outcome) : Sends VisionTrafficState :=
  match Vless.sendRaw s data outcomes with
  | none => .throw .other
  | some (s', .inner, paddedData) => do
    inner.sendRaw paddedData
    return s'
  | some (s', .direct, paddedData) => do
    inner.sendDirectRaw paddedData
    return s'

/-- A write of the caller to the connection it was given, or a chunk the connection
receives in between. -/
def ProxyConnection.step : ProxyConnection → VisionEvent → Sends ProxyConnection
  | .plain inner, .write data _ => do
    inner.sendRaw data
    return .plain inner
  | .udp inner, .write data _ => do
    inner.sendRaw (frame data)
    return .udp inner
  | .vision inner s, .write data outcomes => do
    return .vision inner (← visionSend inner s data outcomes)
  | .vision inner s, .receive data => return .vision inner (processReceiveData s data).1
  | c, .receive _ => return c

-- ----
-- The client

/-- `VlessClient`, of whose tunnel only the presence is looked at. -/
structure VlessClient where
  configuration : ProxyConfiguration
  tunneled : Bool := false

def visionFlow : String := "xtls-rprx-vision"

def isVisionFlow (c : ProxyConfiguration) : Bool :=
  c.flow == some visionFlow || c.flow == some (visionFlow ++ "-udp443")

def allowUDP443 (c : ProxyConfiguration) : Bool := c.flow == some (visionFlow ++ "-udp443")

def maxRetryAttempts : Nat := 5

/-- `GrpcClient.sanitizedTlsConfiguration`. -/
def sanitizedTlsConfiguration (base : TlsConfiguration) : TlsConfiguration where
  serverName := base.serverName
  alpn := some ["h2"]
  allowInsecure := base.allowInsecure
  fingerprint := base.fingerprint
  minVersion := base.minVersion
  maxVersion := base.maxVersion

/-- The TLS configuration of `connectWssWithRetry`. -/
def webSocketTlsConfig (base : TlsConfiguration) : TlsConfiguration where
  serverName := base.serverName
  alpn := some ["http/1.1"]
  allowInsecure := base.allowInsecure
  fingerprint := base.fingerprint

inductive XHttpHttpVersion where
  | http11 | http2 | http3
  deriving DecidableEq

/-- `lowercase()` of an ALPN name. -/
def lowercase (name : String) : String := name.map Char.toLower

def decideXHttpHttpVersion (c : ProxyConfiguration) : XHttpHttpVersion :=
  if c.reality.isSome then .http2
  else
    match c.tls with
    | none => .http11
    | some tlsConfig =>
      match tlsConfig.alpn.getD [] with
      | [name] =>
        if lowercase name = "http/1.1" then .http11
        else if lowercase name = "h3" then .http3
        else .http2
      | _ => .http2

def sanitizedXHttpTlsConfig (base : TlsConfiguration) (httpVersion : XHttpHttpVersion) :
    TlsConfiguration where
  serverName := base.serverName
  alpn :=
    match httpVersion with
    | .http11 => some ["http/1.1"]
    | .http3 => some ["h3"]
    | .http2 =>
      base.alpn.map fun configured =>
        let filtered :=
          configured.filter fun name => lowercase name == "h2" || lowercase name == "http/1.1"
        if filtered = [] ∨ filtered.map lowercase = ["http/1.1"] then ["h2", "http/1.1"]
        else filtered
  allowInsecure := base.allowInsecure
  fingerprint := base.fingerprint

/-- `XHttpMode.AUTO` is stream-one for Reality and packet-up for the others. -/
def resolvedMode (c : ProxyConfiguration) (xhttpConfig : XHttpConfiguration) : XHttpMode :=
  if xhttpConfig.mode = .auto then if c.reality.isSome then .streamOne else .packetUp
  else xhttpConfig.mode

def validateOuterTlsForVision (c : VlessConnection) : Option Failure :=
  match c.outerTlsVersion with
  | none => some (.protocolError "Vision requires outer TLS or REALITY transport")
  | some .tls12 => some (.protocolError "Vision requires outer TLS 1.3, found TLS12")
  | some .tls13 => none

namespace VlessClient

/-- `connect` of a client over the socket or the tunnel. -/
def transport (client : VlessClient) : Transport := if client.tunneled then .tunnel else .socket

/-- The transport of an upload connection; `buildUploadTunnel` goes through the chain
once more, and falls back to the tunnel itself when there is none. -/
def uploadTransport (client : VlessClient) : Transport :=
  if client.tunneled then
    if (client.configuration.chain.getD []).isEmpty then .tunnel else .uploadTunnel
  else .socket

/-- `socket.connect`, or the tunnel that is there. -/
def openTransport (client : VlessClient) (attempt : Attempt) : Sends Carrier := do
  if client.tunneled then return ⟨client.transport, none, attempt.number, false⟩
  Effects.check attempt.connect
  return ⟨client.transport, none, attempt.number, false⟩

/-- `TlsClient(tlsConfig).connect`. -/
def openTls (client : VlessClient) (tlsConfig : TlsConfiguration) (attempt : Attempt) :
    Sends Carrier := do
  Effects.check attempt.connect
  return ⟨client.transport, some (.tls tlsConfig), attempt.number, false⟩

/-- `RealityClient(realityConfig).connect`. -/
def openReality (client : VlessClient) (realityConfig : RealityConfiguration)
    (attempt : Attempt) : Sends Carrier := do
  Effects.check attempt.connect
  return ⟨client.transport, some (.reality realityConfig), attempt.number, false⟩

/-- The upload connection of XHTTP over HTTP/1.1, with the protection of the other one. -/
def openUpload (client : VlessClient) (protection : Option Protection) (attempt : Attempt) :
    Sends Carrier := do
  Effects.check attempt.upload
  return ⟨client.uploadTransport, protection, attempt.number, true⟩

/-- The loop around an attempt. A tunnel is used once, and a rejected certificate is
not tried again. -/
def withRetry (client : VlessClient) (env : Nat → Attempt)
    (body : Attempt → Sends ProxyConnection) : Sends ProxyConnection :=
  Effects.attempts (· == .certificateValidationFailed)
    (fun attempt => body { env attempt with number := attempt })
    ((List.range maxRetryAttempts).takeWhile fun attempt => !(client.tunneled && attempt > 0))
    (.connectionFailed "All retry attempts failed")

/-- The request is sent, and when that throws it may have been written all the same. -/
def sendRequest (base : VlessConnection) (requestData : Bytes) (attempt : Attempt) :
    Sends Unit := do
  base.sendRaw requestData
  Effects.check attempt.request
  return ()

def performStreamHandshake (client : VlessClient) (base : VlessConnection)
    (command : VlessCommand) (destinationHost : Text) (destinationPort : Nat)
    (initialData : Option Bytes) (attempt : Attempt) : Sends ProxyConnection := do
  let header := encodeRequestHeader client.configuration.uuid command destinationHost
    destinationPort none
  sendRequest base (header ++ initialData.getD []) attempt
  return if command = .udp then .udp base else .plain base

/-- `wrapWithVision`; the seeds are 32-bit numbers. -/
def wrapWithVision (c : ProxyConfiguration) : VisionTrafficState :=
  .new c.uuid (c.testseed.map fun seed => (seed.toNat : Int).bmod (2 ^ 32))

/-- The first bytes of a Vision connection: the initial data or an empty frame. -/
def openVision (client : VlessClient) (base : VlessConnection) (initialData : Option Bytes)
    (attempt : Attempt) : Sends ProxyConnection := do
  let s := wrapWithVision client.configuration
  match initialData with
  | some data =>
    let s ← visionSend base s data attempt.outcomes
    Effects.check attempt.opening
    return .vision base s
  | none =>
    match sendEmptyPadding s (attempt.outcomes 0) with
    | none => .throw .other
    | some (s, padded) =>
      base.sendRaw padded
      Effects.check attempt.opening
      return .vision base s

/-- The handshake over the socket, TLS or Reality. With Vision the initial data does
not follow the header but goes through the padding. -/
def performBaseHandshake (client : VlessClient) (base : VlessConnection)
    (command : VlessCommand) (destinationHost : Text) (destinationPort : Nat)
    (initialData : Option Bytes) (attempt : Attempt) : Sends ProxyConnection := do
  let isVision := isVisionFlow client.configuration && (command == .tcp || command == .mux)
  let header := encodeRequestHeader client.configuration.uuid command destinationHost
    destinationPort (if isVision then some visionFlow.toList else none)
  let requestData := if isVision then header else header ++ initialData.getD []
  if attempt.cancelled then .throw (.connectionFailed "Connection cancelled")
  else
    sendRequest base requestData attempt
    if command = .udp then return .udp base
    else if isVision then
      Effects.check (validateOuterTlsForVision base)
      client.openVision base initialData attempt
    else return .plain base

section Connect

variable (client : VlessClient) (command : VlessCommand) (destinationHost : Text)
  (destinationPort : Nat) (initialData : Option Bytes) (env : Nat → Attempt)

/-- Over a tunnel there is one attempt and no loop around it. -/
def connectDirect : Sends ProxyConnection :=
  let connect (attempt : Attempt) : Sends ProxyConnection := do
    let connection ← client.openTransport attempt
    client.performBaseHandshake (.direct connection) command destinationHost destinationPort
      initialData attempt
  if client.tunneled then connect { env 0 with number := 0 } else client.withRetry env connect

/-- Over a tunnel there is one attempt and no loop around it. -/
def connectWithTls (tlsConfig : TlsConfiguration) : Sends ProxyConnection :=
  let connect (attempt : Attempt) : Sends ProxyConnection := do
    let tlsConnection ← client.openTls tlsConfig attempt
    client.performBaseHandshake (.tls tlsConnection attempt.version) command destinationHost
      destinationPort initialData attempt
  if client.tunneled then connect { env 0 with number := 0 } else client.withRetry env connect

def connectWithReality (realityConfig : RealityConfiguration) : Sends ProxyConnection :=
  client.withRetry env fun attempt => do
    let realityConnection ← client.openReality realityConfig attempt
    client.performBaseHandshake (.reality realityConnection) command destinationHost
      destinationPort initialData attempt

/-- An HTTP layer over a connection, which is set up before the request is sent. -/
def connectStream (carrier : Attempt → Sends Carrier) (layer : Carrier → VlessConnection) :
    Sends ProxyConnection :=
  client.withRetry env fun attempt => do
    let connection ← carrier attempt
    Effects.check attempt.setup
    client.performStreamHandshake (layer connection) command destinationHost destinationPort
      initialData attempt

def connectWsWithRetry : Sends ProxyConnection :=
  client.connectStream command destinationHost destinationPort initialData env
    client.openTransport .webSocket

def connectWssWithRetry (baseTlsConfig : TlsConfiguration) : Sends ProxyConnection :=
  client.connectStream command destinationHost destinationPort initialData env
    (client.openTls (webSocketTlsConfig baseTlsConfig)) .webSocket

def connectHttpUpgradeWithRetry : Sends ProxyConnection :=
  client.connectStream command destinationHost destinationPort initialData env
    client.openTransport .httpUpgrade

def connectHttpsUpgradeWithRetry (baseTlsConfig : TlsConfiguration) : Sends ProxyConnection :=
  client.connectStream command destinationHost destinationPort initialData env
    (client.openTls baseTlsConfig) .httpUpgrade

def connectGrpcPlainWithRetry : Sends ProxyConnection :=
  client.connectStream command destinationHost destinationPort initialData env
    client.openTransport .grpc

def connectGrpcsWithRetry (baseTlsConfig : TlsConfiguration) : Sends ProxyConnection :=
  client.connectStream command destinationHost destinationPort initialData env
    (client.openTls (sanitizedTlsConfiguration baseTlsConfig)) .grpc

def connectGrpcRealityWithRetry (realityConfig : RealityConfiguration) : Sends ProxyConnection :=
  client.connectStream command destinationHost destinationPort initialData env
    (client.openReality realityConfig) .grpc

/-- XHTTP over a connection; `protection` is that of the upload connection. -/
def connectXHttpLayer (carrier : Attempt → Sends Carrier) (protection : Option Protection)
    (mode : XHttpMode) (useHTTP2 needsUpload : Bool) : Sends ProxyConnection :=
  client.withRetry env fun attempt => do
    let download ← carrier attempt
    let factory := if needsUpload then some (client.openUpload protection attempt) else none
    let xhttpConnection ←
      XHttpConnection.performSetup ⟨mode, useHTTP2, download, none⟩ attempt.setup factory
    client.performStreamHandshake (.xhttp xhttpConnection) command destinationHost
      destinationPort initialData attempt

def connectXHttpWithRetry (mode : XHttpMode) : Sends ProxyConnection :=
  client.connectXHttpLayer command destinationHost destinationPort initialData env
    client.openTransport none mode false (mode == .packetUp || mode == .streamUp)

def connectXHttpsWithRetry (baseTlsConfig : TlsConfiguration) (mode : XHttpMode)
    (useHTTP2 : Bool) : Sends ProxyConnection :=
  let tlsConfig := sanitizedXHttpTlsConfig baseTlsConfig (if useHTTP2 then .http2 else .http11)
  client.connectXHttpLayer command destinationHost destinationPort initialData env
    (client.openTls tlsConfig) (some (.tls tlsConfig)) mode useHTTP2
    (!useHTTP2 && (mode == .packetUp || mode == .streamUp))

def connectXHttpRealityWithRetry (realityConfig : RealityConfiguration) (mode : XHttpMode) :
    Sends ProxyConnection :=
  client.connectXHttpLayer command destinationHost destinationPort initialData env
    (client.openReality realityConfig) none mode true false

def connectWithWebSocket : Sends ProxyConnection :=
  match client.configuration.websocket, client.configuration.tls with
  | none, _ =>
    .throw (.connectionFailed "WebSocket transport specified but no WebSocket configuration")
  | some _, some tls =>
    client.connectWssWithRetry command destinationHost destinationPort initialData env tls
  | some _, none =>
    client.connectWsWithRetry command destinationHost destinationPort initialData env

def connectWithHttpUpgrade : Sends ProxyConnection :=
  match client.configuration.httpUpgrade, client.configuration.tls with
  | none, _ =>
    .throw (.connectionFailed "HTTP upgrade transport specified but no configuration")
  | some _, some tls =>
    client.connectHttpsUpgradeWithRetry command destinationHost destinationPort initialData env tls
  | some _, none =>
    client.connectHttpUpgradeWithRetry command destinationHost destinationPort initialData env

def connectWithXHttp : Sends ProxyConnection :=
  match client.configuration.xhttp with
  | none => .throw (.connectionFailed "XHTTP transport specified but no XHTTP configuration")
  | some xhttpConfig =>
    let httpVersion := decideXHttpHttpVersion client.configuration
    let mode := resolvedMode client.configuration xhttpConfig
    if httpVersion = .http3 then
      .throw (.connectionFailed
        "XHTTP over TLS with ALPN h3 requires QUIC/HTTP/3, which is not implemented")
    else
      match client.configuration.reality, client.configuration.tls with
      | some reality, _ =>
        client.connectXHttpRealityWithRetry command destinationHost destinationPort initialData
          env reality mode
      | none, some tls =>
        client.connectXHttpsWithRetry command destinationHost destinationPort initialData env tls
          mode (httpVersion == .http2)
      | none, none =>
        client.connectXHttpWithRetry command destinationHost destinationPort initialData env mode

def connectWithGrpc : Sends ProxyConnection :=
  match client.configuration.grpc, client.configuration.reality, client.configuration.tls with
  | none, _, _ => .throw (.connectionFailed "gRPC transport specified but no gRPC configuration")
  | some _, some reality, _ =>
    client.connectGrpcRealityWithRetry command destinationHost destinationPort initialData env
      reality
  | some _, none, some tls =>
    client.connectGrpcsWithRetry command destinationHost destinationPort initialData env tls
  | some _, none, none =>
    client.connectGrpcPlainWithRetry command destinationHost destinationPort initialData env

/-- A transport that Vision does not work over. -/
def withoutVision (name : String) (connect : Sends ProxyConnection) : Sends ProxyConnection :=
  if isVisionFlow client.configuration then
    .throw (.protocolError ("Vision flow is not supported over " ++ name ++ " transport"))
  else connect

def connectWithCommand : Sends ProxyConnection :=
  if command = .udp ∧ destinationPort = 443 ∧ isVisionFlow client.configuration ∧
      !allowUDP443 client.configuration then .throw .dropped
  else
    match client.configuration.transport with
    | "ws" => client.withoutVision "WebSocket"
        (client.connectWithWebSocket command destinationHost destinationPort initialData env)
    | "httpupgrade" => client.withoutVision "HTTP upgrade"
        (client.connectWithHttpUpgrade command destinationHost destinationPort initialData env)
    | "xhttp" => client.withoutVision "XHTTP"
        (client.connectWithXHttp command destinationHost destinationPort initialData env)
    | "grpc" => client.withoutVision "gRPC"
        (client.connectWithGrpc command destinationHost destinationPort initialData env)
    | _ =>
      match client.configuration.tls, client.configuration.reality with
      | some tls, _ =>
        client.connectWithTls command destinationHost destinationPort initialData env tls
      | none, some reality =>
        client.connectWithReality command destinationHost destinationPort initialData env reality
      | none, none =>
        client.connectDirect command destinationHost destinationPort initialData env

/-- The entry points. What is proved of `connectWithCommand`, for every command and
destination, is proved of them. -/
def connect : Sends ProxyConnection :=
  client.connectWithCommand .tcp destinationHost destinationPort initialData env

def connectUDP : Sends ProxyConnection :=
  client.connectWithCommand .udp destinationHost destinationPort none env

def connectMux : Sends ProxyConnection :=
  client.connectWithCommand .mux "v1.mux.cool".toList 666 none env

def session (events : List VisionEvent) : Sends ProxyConnection := do
  let connection ← client.connectWithCommand command destinationHost destinationPort initialData env
  events.foldlM ProxyConnection.step connection

end Connect

end VlessClient

end Anywhere.Vless
