import Mathlib.Data.List.DropRight
import Anywhere.Lib.Base64
import Anywhere.Link.Url
import Anywhere.Shadowsocks.Aead

/-!
# Anywhere — links that carry credentials

How the links of Trojan, Shadowsocks, Naive and SOCKS5 are written and read. The credentials of
Shadowsocks are in Base64, the others are percent-coded.

* `fromTrojanUrl_toTrojanUrl`, `fromShadowsocksUrl_toShadowsocksUrl`, `fromNaiveUrl_toNaiveUrl`,
  `fromSocks5Url_toSocks5Url` — what is read back of a configuration.
-/

namespace Anywhere.Link

open Lib PercentCoding List

/-- `String.lowercase()`. -/
structure Platform where
  lowercase : Text → Text
  /-- A colon has no other case. -/
  lowercase_colon : ∀ text, ':' ∈ text → ':' ∈ lowercase text
  /-- An ASCII text without capital letters stays as it is. -/
  lowercase_lower : ∀ text, (∀ c ∈ text, c.toNat < 128 ∧ c.isUpper = false) → lowercase text = text

-- ----
-- Trojan

def untitled : Text := "Untitled".toList

def alpnParam (tls : TlsConfiguration) : List Text :=
  match tls.alpn with
  | some alpn =>
    if alpn = [] then [] else [param "alpn".toList (urlEncode ([','].intercalate alpn))]
  | none => []

def trojanParams (c : ProxyConfiguration) : List Text :=
  match c.trojanTls with
  | some tls =>
    (if tls.serverName ≠ c.serverAddress then [param "sni".toList tls.serverName] else []) ++
      alpnParam tls ++
      (if tls.fingerprint ≠ .chrome133 then [param "fp".toList (raw tls.fingerprint)] else [])
  | none => []

def toTrojanUrl (c : ProxyConfiguration) : Text :=
  let password := urlEncode (c.trojanPassword.getD [])
  trojanScheme ++ (password ++ '@' :: serverPart c.serverAddress c.serverPort ++
    joinParams (trojanParams c) ++ '#' :: urlEncode c.name)

def fromTrojanUrl (randomUUID : Uuid) (url : Text) : Except LinkError ProxyConfiguration := do
  let (fragmentName, remaining) ← cutFragment (removePrefix trojanScheme url)
  let (remaining, queryString) := Text.cut '?' remaining
  match Text.cutLast '@' remaining with
  | none => .error (.invalidUrl "Missing @ separator in trojan URL")
  | some (userInfo, serverPart) =>
    let serverPart := if serverPart.getLast? = some '/' then serverPart.dropLast else serverPart
    let password ← percentDecode userInfo
    let (host, port) ← parseHostPort (substringBefore '/' serverPart)
    let params ← parseQueryParams queryString
    let sni := (((params "sni".toList).filter (· ≠ [])).or
      ((params "peer".toList).filter (· ≠ []))).getD host
    let tls : TlsConfiguration :=
      { serverName := sni
        alpn := ((params "alpn".toList).filter (· ≠ [])).map (·.splitOn ',')
        fingerprint := fromRaw ((params "fp".toList).getD "chrome_133".toList) }
    return { name := fragmentName.getD untitled, serverAddress := host, serverPort := port,
             uuid := randomUUID, encryption := "none".toList, security := "tls".toList,
             tls := some tls, outboundProtocol := .trojan, trojanPassword := some password,
             trojanTls := some tls }

-- ----
-- Shadowsocks

section Shadowsocks

open Shadowsocks

def methods : List (Text × ShadowsocksCipher) :=
  [("aes-128-gcm".toList, .aes128Gcm), ("aes-256-gcm".toList, .aes256Gcm),
    ("chacha20-ietf-poly1305".toList, .chacha20Poly1305),
    ("chacha20-poly1305".toList, .chacha20Poly1305), ("none".toList, .none),
    ("plain".toList, .none), ("2022-blake3-aes-128-gcm".toList, .blake3Aes128Gcm),
    ("2022-blake3-aes-256-gcm".toList, .blake3Aes256Gcm),
    ("2022-blake3-chacha20-poly1305".toList, .blake3Chacha20Poly1305)]

/-- `ShadowsocksCipher.fromMethod(method)`. -/
def fromMethod (platform : Platform) (method : Text) : Option ShadowsocksCipher :=
  (methods.find? fun entry => entry.1 = platform.lowercase method).map (·.2)

def toShadowsocksUrl (c : ProxyConfiguration) : Text :=
  match c.ssMethod, c.ssPassword with
  | some method, some password =>
    let userInfo := method ++ ':' :: password
    let encoded := (Base64.encode Base64.standard
      (userInfo.flatMap String.utf8EncodeChar)).rdropWhile (· = '=')
    ssScheme ++ (encoded ++ '@' :: (serverPart c.serverAddress c.serverPort ++ ['/']) ++
      '#' :: urlEncode c.name)
  | _, _ => "ss://invalid".toList

def padBase64 (str : Text) : Text :=
  let remainder := str.length % 4
  if remainder = 0 then str else str ++ List.replicate (4 - remainder) '='

def decodeBase64Text (value : Text) : Option Text :=
  let padded := padBase64 value
  ((Base64.decode Base64.urlSafe padded).or (Base64.decode Base64.standard padded)).map decodeUtf8

def decodeShadowsocksUserInfo (userInfo : Text) : Except LinkError (Text × Text) :=
  match Text.cut ':' userInfo with
  | (method, some password) => do
    let password ← percentDecode password
    return (method, password)
  | (_, none) =>
    match decodeBase64Text userInfo with
    | none => .error (.invalidUrl "Invalid SS user info encoding")
    | some decoded =>
      match Text.cut ':' decoded with
      | (_, none) => .error (.invalidUrl "Invalid SS user info format")
      | (method, some password) => .ok (method, password)

/-- The method, the password and the server behind the scheme: either all but the server is in
Base64, or all of it. -/
def parseShadowsocks (remaining : Text) : Except LinkError ((Text × Text) × (Text × UInt16)) :=
  match Text.cut '@' remaining with
  | (userInfo, some serverPart) => do
    let serverPart := substringBefore '/' (substringBefore '?' serverPart)
    let credentials ← decodeShadowsocksUserInfo userInfo
    let server ← parseHostPort serverPart
    return (credentials, server)
  | (_, none) =>
    match decodeBase64Text remaining with
    | none => .error (.invalidUrl "Invalid SS URL encoding")
    | some decoded =>
      match Text.cut ':' decoded with
      | (_, none) => .error (.invalidUrl "Missing method:password separator")
      | (method, some rest) =>
        match Text.cutLast '@' rest with
        | none => .error (.invalidUrl "Missing @ separator in decoded SS URL")
        | some (password, serverPart) => do
          let server ← parseHostPort serverPart
          return ((method, password), server)

def fromShadowsocksUrl (platform : Platform) (randomUUID : Uuid) (url : Text) :
    Except LinkError ProxyConfiguration := do
  let (fragmentName, remaining) ← cutFragment (removePrefix ssScheme url)
  let ((method, password), (host, port)) ← parseShadowsocks remaining
  if fromMethod platform method = none then
    .error (.invalidUrl ("Unsupported SS method: " ++ String.ofList method))
  else
    return { name := fragmentName.getD untitled, serverAddress := host, serverPort := port,
             uuid := randomUUID, encryption := "none".toList, outboundProtocol := .shadowsocks,
             ssPassword := some password, ssMethod := some method }

end Shadowsocks

-- ----
-- Naive

def toNaiveUrl (c : ProxyConfiguration) : Text :=
  let user := urlEncode (c.naiveUsername.getD [])
  let pass := urlEncode (c.naivePassword.getD [])
  naiveScheme ++ (user ++ ':' :: pass ++ '@' :: serverPart c.serverAddress c.serverPort ++
    '#' :: urlEncode c.name)

def fromNaiveUrl (randomUUID : Uuid) (url : Text) (protocolOverride : Option OutboundProtocol) :
    Except LinkError ProxyConfiguration := do
  let remaining ←
    if naiveScheme.isPrefixOf url then .ok (removePrefix naiveScheme url)
    else .error (.invalidUrl "Naive URL must start with https://")
  let (fragmentName, remaining) ← cutFragment remaining
  match Text.cutLast '@' remaining with
  | none => .error (.invalidUrl "Missing @ separator in naive URL")
  | some (userInfo, serverPart) =>
    match Text.cut ':' userInfo with
    | (_, none) => .error (.invalidUrl "Missing password in naive URL (expected user:pass)")
    | (username, some password) =>
      let username ← percentDecode username
      let password ← percentDecode password
      let (host, port) ← parseHostPort (substringBefore '/' serverPart)
      let proto := protocolOverride.getD .naiveHttp2
      return { name := fragmentName.getD untitled, serverAddress := host, serverPort := port,
               uuid := randomUUID, encryption := "none".toList, outboundProtocol := proto,
               naiveUsername := some username, naivePassword := some password,
               naiveProtocol := some (if proto = .naiveHttp11 then .http11 else .http2) }

-- ----
-- SOCKS5

def toSocks5Url (c : ProxyConfiguration) : Text :=
  let userInfo :=
    match c.socks5Username with
    | some (first :: rest) =>
      urlEncode (first :: rest) ++ ':' :: urlEncode (c.socks5Password.getD []) ++ ['@']
    | _ => []
  socks5Scheme ++ (userInfo ++ serverPart c.serverAddress c.serverPort ++
    '#' :: urlEncode c.name)

def parseSocks5UserInfo (userInfo : Text) : Except LinkError (Option Text × Option Text) :=
  match Text.cut ':' userInfo with
  | (username, some password) => do
    let username ← percentDecode username
    let password ← percentDecode password
    return (some username, some password)
  | (username, none) => do
    let username ← percentDecode username
    return (some username, none)

def parseSocks5 (remaining : Text) : Except LinkError ((Option Text × Option Text) × Text) :=
  match Text.cutLast '@' remaining with
  | some (userInfo, rest) => do
    let credentials ← parseSocks5UserInfo userInfo
    return (credentials, substringBefore '/' rest)
  | none => .ok ((none, none), substringBefore '/' remaining)

def fromSocks5Url (randomUUID : Uuid) (url : Text) : Except LinkError ProxyConfiguration := do
  let remaining ←
    if socks5Scheme.isPrefixOf url then .ok (removePrefix socks5Scheme url)
    else if socksScheme.isPrefixOf url then .ok (removePrefix socksScheme url)
    else .error (.invalidUrl "SOCKS5 URL must start with socks5:// or socks://")
  let (fragmentName, remaining) ← cutFragment remaining
  let ((username, password), serverPart) ← parseSocks5 remaining
  let (host, port) ← parseHostPort serverPart
  return { name := fragmentName.getD untitled, serverAddress := host, serverPort := port,
           uuid := randomUUID, encryption := "none".toList, outboundProtocol := .socks5,
           socks5Username := username, socks5Password := password }

-- ----
-- Reading back

section ReadingBack

variable {c : ProxyConfiguration} (randomUUID : Uuid)

theorem readable_trojanParams
    (htls : ∀ tls, c.trojanTls = some tls → Readable (param "sni".toList tls.serverName)) :
    ∀ param ∈ trojanParams c, Readable param := by
  intro param hparam
  rw [trojanParams] at hparam
  cases hc : c.trojanTls with
  | none =>
    rw [hc] at hparam
    cases hparam
  | some tls =>
    rw [hc] at hparam
    simp only [mem_append] at hparam
    rcases hparam with (hsni | halpn) | hfp
    · split_ifs at hsni
      · rw [mem_singleton.mp hsni]
        exact htls tls hc
      · cases hsni
    · rw [alpnParam] at halpn
      split at halpn
      · split_ifs at halpn
        · cases halpn
        · rw [mem_singleton.mp halpn]
          refine readable_of_wellEscaped ?_
          rw [wellEscaped_param, wellEscaped_urlEncode]
          rfl
      · cases halpn
    · have hraw : ∀ fingerprint, wellEscaped (raw fingerprint) = true := by
        intro fingerprint
        cases fingerprint <;> decide
      split_ifs at hfp
      · rw [mem_singleton.mp hfp]
        refine readable_of_wellEscaped ?_
        rw [wellEscaped_param, hraw]
        rfl
      · cases hfp

/-- What is read back of a Trojan link, if the server name can be read as a parameter. -/
theorem fromTrojanUrl_toTrojanUrl (hhost : HostText c.serverAddress)
    (htls : ∀ tls, c.trojanTls = some tls → Readable (param "sni".toList tls.serverName)) :
    ∃ back, fromTrojanUrl randomUUID (toTrojanUrl c) = .ok back ∧ back.name = c.name ∧
      back.serverAddress = c.serverAddress ∧ back.serverPort = c.serverPort ∧
      back.outboundProtocol = .trojan ∧
      back.trojanPassword = some (c.trojanPassword.getD []) := by
  have hserver : ∀ sep ∈ ['/', '?', '#', '@'], sep ∉ serverPart c.serverAddress c.serverPort :=
    fun sep hsep => notMem_serverPart hhost hsep c.serverPort
  have hquestion : '?' ∉ urlEncode (c.trojanPassword.getD []) ++
      '@' :: serverPart c.serverAddress c.serverPort := by
    rw [mem_append, mem_cons, not_or, not_or]
    exact ⟨notMem_urlEncode (by decide) _, by decide, hserver _ (by decide)⟩
  obtain ⟨queryString, params, hcut, hparams⟩ :=
    cut_joinParams hquestion (readable_trojanParams htls)
  have hslash : (serverPart c.serverAddress c.serverPort).getLast? ≠ some '/' :=
    fun hlast => hserver '/' (by decide) (List.mem_of_getLast? hlast)
  rw [toTrojanUrl, fromTrojanUrl, removePrefix_append, cutFragment_urlEncode]
  simp only [ok_bind, hcut, Text.cutLast_append (hserver '@' (by decide)), if_neg hslash,
    substringBefore_of_notMem (hserver '/' (by decide)), percentDecode_urlEncode,
    parseHostPort_serverPart hhost, hparams]
  exact ⟨_, rfl, rfl, rfl, rfl, rfl, rfl⟩

/-- The digits are what is left when the padding is cut off. -/
theorem rdropWhile_encode (bytes : Bytes) :
    (Base64.encode Base64.standard bytes).rdropWhile (· = '=') =
      Base64.encodeUnpadded Base64.standard bytes := by
  rw [Base64.encode]
  generalize (3 - bytes.length % 3) % 3 = k
  induction k with
  | zero =>
    rw [replicate_zero, append_nil, rdropWhile_eq_self_iff]
    intro hnil
    obtain ⟨n, hn, heq⟩ := Base64.mem_encodeUnpadded (getLast_mem hnil)
    simpa [heq] using Base64.proper_standard.ne hn
  | succ k ih =>
    rw [replicate_succ', ← append_assoc, rdropWhile_concat_pos _ _ _ (by simp), ih]

theorem padBase64_encodeUnpadded (bytes : Bytes) :
    padBase64 (Base64.encodeUnpadded Base64.standard bytes) =
      Base64.encode Base64.standard bytes := by
  have hlen := Base64.length_encodeUnpadded Base64.standard bytes
  rw [padBase64, Base64.encode]
  split_ifs with hfull
  · have hzero : (3 - bytes.length % 3) % 3 = 0 := by omega
    rw [hzero, replicate_zero, append_nil]
  · have hpad : 4 - (Base64.encodeUnpadded Base64.standard bytes).length % 4 =
        (3 - bytes.length % 3) % 3 := by omega
    rw [hpad]

theorem decodeBase64Text_encode (text : Text) :
    decodeBase64Text (Base64.encodeUnpadded Base64.standard
      (text.flatMap String.utf8EncodeChar)) = some text := by
  generalize hbytes : text.flatMap String.utf8EncodeChar = bytes
  have hpartial : ∀ c ∈ Base64.encode Base64.standard bytes, Base64.Partial Base64.urlSafe c := by
    intro c hc
    rw [Base64.encode, mem_append] at hc
    rcases hc with hc | hc
    · obtain ⟨n, hn, rfl⟩ := Base64.mem_encodeUnpadded hc
      exact Base64.partial_urlSafe hn
    · rw [eq_of_mem_replicate hc]
      exact Base64.partial_padding
  have hdecode : decodeUtf8 bytes = text := by rw [← hbytes, decodeUtf8_encode]
  rw [decodeBase64Text, padBase64_encodeUnpadded, Base64.decode_encode Base64.proper_standard]
  rcases Base64.decode_partial hpartial with hnone | hsome
  · rw [hnone, Option.none_or, Option.map_some, hdecode]
  · rw [hsome, Base64.decode_encode Base64.proper_standard, Option.some_or,
      Option.map_some, hdecode]

theorem notMem_method {platform : Platform} {method : Text}
    (h : fromMethod platform method ≠ none) : ':' ∉ method := by
  intro hcolon
  have hall : ∀ entry ∈ methods, ':' ∉ entry.1 := by decide
  obtain ⟨entry, hfind⟩ : ∃ entry, methods.find? (fun entry => entry.1 =
      platform.lowercase method) = some entry := by
    cases hfind : methods.find? (fun entry => entry.1 = platform.lowercase method) with
    | none => exact absurd (by rw [fromMethod, hfind]; rfl) h
    | some entry => exact ⟨entry, rfl⟩
  have hsame : entry.1 = platform.lowercase method := by simpa using List.find?_some hfind
  refine hall entry (List.mem_of_find?_eq_some hfind) ?_
  rw [hsame]
  exact platform.lowercase_colon method hcolon

/-- The characters of an encoded text are none of the separators of a link. -/
theorem notMem_encodeUnpadded {last : Char × Char} (hlast : Base64.Proper last) {sep : Char}
    (h : sep ∈ ['=', ':', '@', '&', '%']) (bytes : Bytes) :
    sep ∉ Base64.encodeUnpadded last bytes := by
  intro hmem
  obtain ⟨n, hn, rfl⟩ := Base64.mem_encodeUnpadded hmem
  exact (hlast n hn).2 h

/-- What is read back of a Shadowsocks link of a supported method. -/
theorem fromShadowsocksUrl_toShadowsocksUrl {platform : Platform} (hhost : HostText c.serverAddress)
    {method password : Text} (hmethod : c.ssMethod = some method)
    (hpassword : c.ssPassword = some password) (hsupported : fromMethod platform method ≠ none) :
    ∃ back, fromShadowsocksUrl platform randomUUID (toShadowsocksUrl c) = .ok back ∧
      back.name = c.name ∧ back.serverAddress = c.serverAddress ∧ back.serverPort = c.serverPort ∧
      back.outboundProtocol = .shadowsocks ∧ back.ssMethod = some method ∧
      back.ssPassword = some password := by
  have hserver : ∀ sep ∈ ['/', '?', '#', '@'], sep ∉ serverPart c.serverAddress c.serverPort :=
    fun sep hsep => notMem_serverPart hhost hsep c.serverPort
  have hquestion : '?' ∉ serverPart c.serverAddress c.serverPort ++ ['/'] := by
    rw [mem_append, not_or]
    exact ⟨hserver _ (by decide), by decide⟩
  generalize hencoded : Base64.encodeUnpadded Base64.standard
    ((method ++ ':' :: password).flatMap String.utf8EncodeChar) = encoded
  have hinfo : decodeShadowsocksUserInfo encoded = .ok (method, password) := by
    rw [decodeShadowsocksUserInfo, Text.cut_notMem
      (hencoded ▸ notMem_encodeUnpadded Base64.proper_standard (by decide) _)]
    simp only [← hencoded, decodeBase64Text_encode,
      Text.cut_eq_some.mpr ⟨rfl, notMem_method hsupported⟩]
  have hparse : parseShadowsocks (encoded ++
      '@' :: (serverPart c.serverAddress c.serverPort ++ ['/'])) =
        .ok ((method, password), (c.serverAddress, c.serverPort)) := by
    rw [parseShadowsocks, Text.cut_eq_some.mpr
      ⟨rfl, hencoded ▸ notMem_encodeUnpadded Base64.proper_standard (by decide) _⟩]
    simp only [substringBefore_of_notMem hquestion,
      substringBefore_append (hserver '/' (by decide)), hinfo, ok_bind,
      parseHostPort_serverPart hhost]
    rfl
  rw [toShadowsocksUrl, hmethod, hpassword]
  simp only [rdropWhile_encode, hencoded]
  rw [fromShadowsocksUrl, removePrefix_append, cutFragment_urlEncode]
  simp only [ok_bind, hparse, if_neg hsupported]
  exact ⟨_, rfl, rfl, rfl, rfl, rfl, rfl, rfl⟩

/-- What is read back of a Naive link; the protocol is what the import asks for. -/
theorem fromNaiveUrl_toNaiveUrl (hhost : HostText c.serverAddress) {username password : Text}
    (husername : c.naiveUsername = some username) (hpassword : c.naivePassword = some password)
    (protocolOverride : Option OutboundProtocol) :
    ∃ back, fromNaiveUrl randomUUID (toNaiveUrl c) protocolOverride = .ok back ∧
      back.name = c.name ∧ back.serverAddress = c.serverAddress ∧ back.serverPort = c.serverPort ∧
      back.outboundProtocol = protocolOverride.getD .naiveHttp2 ∧
      back.naiveUsername = some username ∧ back.naivePassword = some password ∧
      back.naiveProtocol =
        some (if protocolOverride.getD .naiveHttp2 = .naiveHttp11 then .http11 else .http2) := by
  have hserver : ∀ sep ∈ ['/', '?', '#', '@'], sep ∉ serverPart c.serverAddress c.serverPort :=
    fun sep hsep => notMem_serverPart hhost hsep c.serverPort
  have hcolon : ':' ∉ urlEncode username := notMem_urlEncode (by decide) username
  rw [toNaiveUrl, husername, hpassword, fromNaiveUrl,
    if_pos ( isPrefixOf_iff_prefix.mpr (prefix_append ..)), removePrefix_append]
  simp only [ok_bind, Option.getD_some, cutFragment_urlEncode,
    Text.cutLast_append (hserver '@' (by decide)), Text.cut_eq_some.mpr ⟨rfl, hcolon⟩,
    percentDecode_urlEncode, substringBefore_of_notMem (hserver '/' (by decide)),
    parseHostPort_serverPart hhost]
  exact ⟨_, rfl, rfl, rfl, rfl, rfl, rfl, rfl, rfl⟩

/-- What is read back of a SOCKS5 link with credentials. -/
theorem fromSocks5Url_toSocks5Url (hhost : HostText c.serverAddress) {username password : Text}
    (husername : c.socks5Username = some username) (hpassword : c.socks5Password = some password)
    (hne : username ≠ []) :
    ∃ back, fromSocks5Url randomUUID (toSocks5Url c) = .ok back ∧
      back.name = c.name ∧ back.serverAddress = c.serverAddress ∧ back.serverPort = c.serverPort ∧
      back.outboundProtocol = .socks5 ∧ back.socks5Username = some username ∧
      back.socks5Password = some password := by
  have hserver : ∀ sep ∈ ['/', '?', '#', '@'], sep ∉ serverPart c.serverAddress c.serverPort :=
    fun sep hsep => notMem_serverPart hhost hsep c.serverPort
  have hcolon : ':' ∉ urlEncode username := notMem_urlEncode (by decide) username
  have hparse : parseSocks5 (urlEncode username ++ ':' :: urlEncode password ++
      '@' :: serverPart c.serverAddress c.serverPort) =
        .ok ((some username, some password), serverPart c.serverAddress c.serverPort) := by
    rw [parseSocks5, Text.cutLast_append (hserver '@' (by decide))]
    simp only [parseSocks5UserInfo, Text.cut_eq_some.mpr ⟨rfl, hcolon⟩, percentDecode_urlEncode,
      ok_bind, substringBefore_of_notMem (hserver '/' (by decide))]
    rfl
  have htext : urlEncode username ++ ':' :: urlEncode password ++ ['@'] ++
      serverPart c.serverAddress c.serverPort ++ '#' :: urlEncode c.name =
        urlEncode username ++ ':' :: urlEncode password ++
          '@' :: serverPart c.serverAddress c.serverPort ++ '#' :: urlEncode c.name := by
    simp only [append_assoc, singleton_append]
  obtain ⟨first, rest, rfl⟩ := exists_cons_of_ne_nil hne
  rw [toSocks5Url, husername, hpassword, fromSocks5Url,
    if_pos ( isPrefixOf_iff_prefix.mpr (prefix_append ..)), removePrefix_append]
  simp only [ok_bind, Option.getD_some]
  rw [htext, cutFragment_urlEncode]
  simp only [ok_bind, hparse]
  simp only [ok_bind, parseHostPort_serverPart hhost]
  exact ⟨_, rfl, rfl, rfl, rfl, rfl, rfl, rfl⟩

end ReadingBack

end Anywhere.Link
