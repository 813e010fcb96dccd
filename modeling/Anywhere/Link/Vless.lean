import Anywhere.Link.Credentials
import Anywhere.Link.Encodings

/-!
# Anywhere — VLESS links

How a VLESS link is written and read: the parameters of its encryption, security and transport,
each with its own default on either side. The members that the `extra` parameter of XHTTP carries
in JSON stay as that text.
-/

namespace Anywhere.Link

open Lib PercentCoding

-- ----
-- Writing

def tcp : Text := "tcp".toList

def noSecurity : Text := "none".toList

/-- `appendTlsParams`. -/
def tlsParams (c : ProxyConfiguration) (tls : TlsConfiguration) : List Text :=
  (if tls.serverName ≠ c.serverAddress then [param "sni".toList tls.serverName] else []) ++
    alpnParam tls ++
    (if tls.fingerprint ≠ .chrome120 then [param "fp".toList (raw tls.fingerprint)] else []) ++
    (if tls.allowInsecure then [param "allowInsecure".toList ['1']] else []) ++
    (match tls.minVersion with
      | some version => [param "minVersion".toList (urlValue version)]
      | none => []) ++
    (match tls.maxVersion with
      | some version => [param "maxVersion".toList (urlValue version)]
      | none => [])

def realityParams (reality : RealityConfiguration) : List Text :=
  [param "sni".toList reality.serverName, param "pbk".toList (toBase64Url reality.publicKey)] ++
    (if reality.shortId ≠ [] then [param "sid".toList (toHex reality.shortId)] else []) ++
    (if reality.fingerprint ≠ .chrome120 then [param "fp".toList (raw reality.fingerprint)] else [])

def hostParams (c : ProxyConfiguration) (host path : Text) : List Text :=
  (if host ≠ c.serverAddress then [param "host".toList host] else []) ++
    (if path ≠ ['/'] then [param "path".toList (urlEncode path)] else [])

/-- `appendTransportParams`. -/
def transportParams (c : ProxyConfiguration) : List Text :=
  (match c.websocket with
    | some ws =>
      if c.transport = "ws".toList then
        hostParams c ws.host ws.path ++
          (if ws.maxEarlyData > 0 then [param "ed".toList (Nat.toDigits 10 ws.maxEarlyData.toNat)]
            else [])
      else []
    | none => []) ++
    (match c.httpUpgrade with
      | some httpUpgrade =>
        if c.transport = "httpupgrade".toList then hostParams c httpUpgrade.host httpUpgrade.path
        else []
      | none => []) ++
    (match c.xhttp with
      | some xhttp =>
        if c.transport = "xhttp".toList then
          hostParams c xhttp.host xhttp.path ++
            (if xhttp.mode ≠ .auto then [param "mode".toList (rawMode xhttp.mode)] else [])
        else []
      | none => []) ++
    (match c.grpc with
      | some grpc =>
        if c.transport = "grpc".toList then
          (if grpc.serviceName ≠ [] then
              [param "serviceName".toList (urlEncode grpc.serviceName)] else []) ++
            (if grpc.authority ≠ [] then [param "authority".toList (urlEncode grpc.authority)]
              else []) ++
            (if grpc.multiMode then [param "mode".toList "multi".toList] else [])
        else []
      | none => [])

def vlessParams (c : ProxyConfiguration) : List Text :=
  (if c.encryption ≠ noSecurity then [param "encryption".toList c.encryption] else []) ++
    (match c.flow with
      | some flow => if flow ≠ [] then [param "flow".toList flow] else []
      | none => []) ++
    [param "security".toList c.security] ++
    (if c.transport ≠ tcp then [param "type".toList c.transport] else []) ++
    (match c.tls with
      | some tls => if c.security = "tls".toList then tlsParams c tls else []
      | none => []) ++
    (match c.reality with
      | some reality => if c.security = "reality".toList then realityParams reality else []
      | none => []) ++
    transportParams c ++
    (if c.muxEnabled then [] else [param "mux".toList "false".toList]) ++
    (if c.xudpEnabled then [] else [param "xudp".toList "false".toList])

def toVlessUrl (platform : Platform) (c : ProxyConfiguration) : Text :=
  vlessScheme ++ (platform.lowercase c.uuid.toText ++
    '@' :: (serverPart c.serverAddress c.serverPort ++ '/' :: joinParams (vlessParams c)) ++
      '#' :: urlEncode c.name)

-- ----
-- Reading

/-- `parseTlsVersion(version)`. -/
def parseTlsVersion (version : Option Text) : Option TlsVersion :=
  match version with
  | none => none
  | some version =>
    if version ∈ ["1.0".toList, "1.1".toList, "1.2".toList] then some .tls12
    else if version = "1.3".toList then some .tls13
    else none

def defaultFingerprint : Text := "chrome_133".toList

/-- `TlsConfiguration.parse(params, serverAddress)`. -/
def parseTls (params : Params) (serverAddress : Text) : Option TlsConfiguration :=
  if params "security".toList ≠ some "tls".toList then none
  else some
    { serverName := (params "sni".toList).getD serverAddress
      alpn := ((params "alpn".toList).filter (· ≠ [])).map (·.splitOn ',')
      allowInsecure := params "allowInsecure".toList = some ['1'] ∨
        params "allowInsecure".toList = some "true".toList
      fingerprint := fromRaw ((params "fp".toList).getD defaultFingerprint)
      minVersion := parseTlsVersion (params "minVersion".toList)
      maxVersion := parseTlsVersion (params "maxVersion".toList) }

/-- `RealityConfiguration.parse(params)`. -/
def parseReality (params : Params) : Except LinkError (Option RealityConfiguration) :=
  if params "security".toList ≠ some "reality".toList then .ok none
  else
    match (params "sni".toList).filter (· ≠ []) with
    | none => .error (.invalidUrl "Missing Reality parameter: sni")
    | some sni =>
      match (params "pbk".toList).filter (· ≠ []) with
      | none => .error (.invalidUrl "Missing Reality parameter: pbk (public key)")
      | some pbk =>
        match base64UrlToByteArrayOrNull pbk with
        | none => .error (.invalidUrl "Invalid Reality public key")
        | some publicKey =>
          if publicKey.length ≠ 32 then .error (.invalidUrl "Invalid Reality public key")
          else .ok (some
            { serverName := sni
              publicKey
              shortId := (hexToByteArrayOrNull ((params "sid".toList).getD [])).getD []
              fingerprint := fromRaw ((params "fp".toList).getD defaultFingerprint) })

/-- The path of a transport, which is decoded once more. -/
def parsePath (params : Params) : Except LinkError Text :=
  match params "path".toList with
  | some path => percentDecode path
  | none => .ok ['/']

/-- `WebSocketConfiguration.parse(params, serverAddress)`. -/
def parseWebSocket (params : Params) (serverAddress : Text) :
    Except LinkError WebSocketConfiguration := do
  let path ← parsePath params
  return { host := (params "host".toList).getD serverAddress
           path
           maxEarlyData := ((params "ed".toList).bind (Text.toNumberOrNull 32 10)).getD 0 }

/-- `HttpUpgradeConfiguration.parse(params, serverAddress)`. -/
def parseHttpUpgrade (params : Params) (serverAddress : Text) :
    Except LinkError HttpUpgradeConfiguration := do
  let path ← parsePath params
  return { host := (params "host".toList).getD serverAddress
           path := if path.head? = some '/' then path else '/' :: path }

/-- `XHttpConfiguration.parse(params, serverAddress)`. -/
def parseXHttp (params : Params) (serverAddress : Text) : Except LinkError XHttpConfiguration := do
  let path ← parsePath params
  return { host := (params "host".toList).getD serverAddress
           path
           mode := modeFromRaw ((params "mode".toList).getD "auto".toList)
           extra := (params "extra".toList).filter fun extra =>
             extra.any fun c => !Text.isWhitespace c }

/-- A switch that is on unless it says so. -/
def isEnabled (value : Text) : Bool := value ≠ "false".toList && value ≠ ['0']

/-- `GrpcConfiguration.parse(params)`. -/
def parseGrpc (platform : Platform) (params : Params) : GrpcConfiguration :=
  let mode := platform.lowercase ((params "mode".toList).getD "gun".toList)
  let number := fun key : Text => ((params key).bind (Text.toNumberOrNull 32 10)).getD 0
  { serviceName := (params "serviceName".toList).getD []
    authority := (params "authority".toList).getD []
    multiMode := mode = "multi".toList
    userAgent := (params "userAgent".toList).getD []
    initialWindowsSize := number "initial_windows_size".toList
    idleTimeout := number "idle_timeout".toList
    healthCheckTimeout := number "health_check_timeout".toList
    permitWithoutStream := ((params "permit_without_stream".toList).map isEnabled).getD false }

/-- The four numbers of `testseed`, if they are there. -/
def parseTestseed (params : Params) : List UInt32 :=
  match params "testseed".toList with
  | some str =>
    let values := (str.splitOn ',').filterMap (Text.toUnsignedOrNull 32 10)
    if values.length ≥ 4 then (values.take 4).map UInt32.ofNat else [900, 500, 900, 256]
  | none => [900, 500, 900, 256]

def vlessConfiguration (platform : Platform) (fragmentName : Option Text) (uuid : Uuid)
    (host : Text) (port : UInt16) (params : Params) : Except LinkError ProxyConfiguration := do
  let security := (params "security".toList).getD noSecurity
  let transport := (params "type".toList).getD tcp
  let reality ← if security = "reality".toList then parseReality params else .ok none
  let tls := if security = "tls".toList then parseTls params host else none
  let websocket ←
    if transport = "ws".toList then (parseWebSocket params host).map some else .ok none
  let httpUpgrade ←
    if transport = "httpupgrade".toList then (parseHttpUpgrade params host).map some else .ok none
  let xhttpHost := ((params "host".toList).or ((tls.map (·.serverName)).or
    (reality.map (·.serverName)))).getD host
  let xhttp ←
    if transport = "xhttp".toList then
      (parseXHttp (Function.update params "host".toList (some xhttpHost)) host).map some
    else .ok none
  return { name := fragmentName.getD untitled, serverAddress := host, serverPort := port, uuid,
           encryption := (params "encryption".toList).getD noSecurity, transport,
           flow := params "flow".toList, security, tls, reality, websocket, httpUpgrade, xhttp,
           grpc := if transport = "grpc".toList then some (parseGrpc platform params) else none,
           testseed := parseTestseed params,
           muxEnabled := ((params "mux".toList).map isEnabled).getD true,
           xudpEnabled := ((params "xudp".toList).map isEnabled).getD true }

def fromVlessUrl (platform : Platform) (url : Text) : Except LinkError ProxyConfiguration := do
  let (fragmentName, remaining) ← cutFragment (removePrefix vlessScheme url)
  match Text.cutLast '@' remaining with
  | none => .error (.invalidUrl "Missing @ separator")
  | some (uuidString, serverPart) =>
    match Uuid.fromString uuidString with
    | none => .error (.invalidUrl ("Invalid UUID: " ++ String.ofList uuidString))
    | some uuid =>
      let (hostPort, queryString) :=
        match Text.cut '?' serverPart with
        | (before, some queryString) =>
          (if before.getLast? = some '/' then before.dropLast else before, some queryString)
        | (_, none) => (substringBefore '/' serverPart, none)
      let (host, port) ← parseHostPort hostPort
      let params ← parseQueryParams queryString
      vlessConfiguration platform fragmentName uuid host port params

end Anywhere.Link
