import Anywhere.Link.Vless

/-!
# Anywhere — share links

`toUrl` and `fromUrl` of a configuration.

* `credentials_roundTrip` — what a link of the protocols with credentials brings back.
-/

namespace Anywhere.Link

open Lib PercentCoding

def toUrl (platform : Platform) (c : ProxyConfiguration) : Text :=
  match c.outboundProtocol with
  | .vless => toVlessUrl platform c
  | .trojan => toTrojanUrl c
  | .shadowsocks => toShadowsocksUrl c
  | .socks5 => toSocks5Url c
  | .naiveHttp11 | .naiveHttp2 => toNaiveUrl c

def fromUrl (platform : Platform) (randomUUID : Uuid) (url : Text)
    (naiveProtocol : Option OutboundProtocol) : Except LinkError ProxyConfiguration :=
  if ssScheme.isPrefixOf url then fromShadowsocksUrl platform randomUUID url
  else if socks5Scheme.isPrefixOf url || socksScheme.isPrefixOf url then
    fromSocks5Url randomUUID url
  else if naiveScheme.isPrefixOf url then fromNaiveUrl randomUUID url naiveProtocol
  else if vlessScheme.isPrefixOf url then fromVlessUrl platform url
  else if trojanScheme.isPrefixOf url then fromTrojanUrl randomUUID url
  else .error (.invalidUrl
    "URL must start with vless://, trojan://, ss://, socks5://, or https://")

-- ----
-- Credentials

/-- A configuration whose link carries its credentials: a supported method, a user and a
password that are not empty, and a server name that a Trojan link can carry as it is. -/
def HasCredentials (platform : Platform) (c : ProxyConfiguration) : Prop :=
  match c.outboundProtocol with
  | .vless => False
  | .trojan => c.trojanPassword ≠ none ∧
      ∀ tls, c.trojanTls = some tls → Readable (param "sni".toList tls.serverName)
  | .shadowsocks =>
    (∃ method, c.ssMethod = some method ∧ fromMethod platform method ≠ none) ∧ c.ssPassword ≠ none
  | .socks5 => ∃ username password, c.socks5Username = some username ∧
      c.socks5Password = some password ∧ username ≠ [] ∧ password ≠ []
  | .naiveHttp11 | .naiveHttp2 => ∃ username password, c.naiveUsername = some username ∧
      c.naivePassword = some password ∧ username ≠ [] ∧ password ≠ []

/-- The same server, port, name, protocol, method and credentials; the protocol of Naive is
the one the import asks for. -/
structure SameCredentials (protocolOverride : Option OutboundProtocol)
    (c back : ProxyConfiguration) :
    Prop where
  name : back.name = c.name
  server : back.serverAddress = c.serverAddress
  port : back.serverPort = c.serverPort
  credentials :
    match c.outboundProtocol with
    | .vless => False
    | .trojan => back.outboundProtocol = .trojan ∧ back.trojanPassword = c.trojanPassword
    | .shadowsocks => back.outboundProtocol = .shadowsocks ∧ back.ssMethod = c.ssMethod ∧
        back.ssPassword = c.ssPassword
    | .socks5 => back.outboundProtocol = .socks5 ∧ back.socks5Username = c.socks5Username ∧
        back.socks5Password = c.socks5Password
    | .naiveHttp11 | .naiveHttp2 =>
      back.outboundProtocol = protocolOverride.getD .naiveHttp2 ∧
        back.naiveProtocol = some
          (if protocolOverride.getD .naiveHttp2 = .naiveHttp11 then .http11 else .http2) ∧
        back.naiveUsername = c.naiveUsername ∧ back.naivePassword = c.naivePassword

/-- The links of Trojan, Shadowsocks, SOCKS5 and Naive bring their credentials back. -/
theorem credentials_roundTrip (platform : Platform) (randomUUID : Uuid) (c : ProxyConfiguration)
    (protocolOverride : Option OutboundProtocol) (hhost : HostText c.serverAddress)
    (hcredentials : HasCredentials platform c) :
    ∃ back, fromUrl platform randomUUID (toUrl platform c) protocolOverride = .ok back ∧
      SameCredentials protocolOverride c back := by
  have hnaive : ∀ username password, c.naiveUsername = some username →
      c.naivePassword = some password →
      ∃ back, fromUrl platform randomUUID (toNaiveUrl c) protocolOverride = .ok back ∧
        back.name = c.name ∧ back.serverAddress = c.serverAddress ∧
        back.serverPort = c.serverPort ∧
        back.outboundProtocol = protocolOverride.getD .naiveHttp2 ∧
        back.naiveUsername = some username ∧ back.naivePassword = some password ∧
        back.naiveProtocol = some
          (if protocolOverride.getD .naiveHttp2 = .naiveHttp11 then .http11 else .http2) :=
    fun username password husername hpassword =>
      fromNaiveUrl_toNaiveUrl randomUUID hhost husername hpassword protocolOverride
  rw [HasCredentials] at hcredentials
  rw [toUrl]
  cases hprotocol : c.outboundProtocol with
  | vless =>
    rw [hprotocol] at hcredentials
    exact hcredentials.elim
  | trojan =>
    rw [hprotocol] at hcredentials
    obtain ⟨hpassword, htls⟩ := hcredentials
    obtain ⟨password, hpassword⟩ := Option.ne_none_iff_exists'.mp hpassword
    obtain ⟨back, hback, hname, hserver, hport, houtbound, hcredential⟩ :=
      fromTrojanUrl_toTrojanUrl randomUUID hhost htls
    refine ⟨back, hback, hname, hserver, hport, ?_⟩
    rw [hprotocol]
    exact ⟨houtbound, by rw [hcredential, hpassword]; rfl⟩
  | shadowsocks =>
    rw [hprotocol] at hcredentials
    obtain ⟨⟨method, hmethod, hsupported⟩, hpassword⟩ := hcredentials
    obtain ⟨password, hpassword⟩ := Option.ne_none_iff_exists'.mp hpassword
    obtain ⟨back, hback, hname, hserver, hport, houtbound, hssMethod, hssPassword⟩ :=
      fromShadowsocksUrl_toShadowsocksUrl randomUUID hhost hmethod hpassword hsupported
    have hscheme : ssScheme.isPrefixOf (toShadowsocksUrl c) = true := by
      rw [toShadowsocksUrl, hmethod, hpassword]
      exact List.isPrefixOf_iff_prefix.mpr (List.prefix_append ..)
    refine ⟨back, by rw [fromUrl, if_pos hscheme, hback], hname, hserver, hport, ?_⟩
    rw [hprotocol]
    exact ⟨houtbound, by rw [hssMethod, hmethod], by rw [hssPassword, hpassword]⟩
  | socks5 =>
    rw [hprotocol] at hcredentials
    obtain ⟨username, password, husername, hpassword, hne, -⟩ := hcredentials
    obtain ⟨back, hback, hname, hserver, hport, houtbound, huser, hpass⟩ :=
      fromSocks5Url_toSocks5Url randomUUID hhost husername hpassword hne
    refine ⟨back, hback, hname, hserver, hport, ?_⟩
    rw [hprotocol]
    exact ⟨houtbound, by rw [huser, husername], by rw [hpass, hpassword]⟩
  | naiveHttp11 | naiveHttp2 =>
    rw [hprotocol] at hcredentials
    obtain ⟨username, password, husername, hpassword, -⟩ := hcredentials
    obtain ⟨back, hback, hname, hserver, hport, houtbound, huser, hpass, hnaiveProtocol⟩ :=
      hnaive username password husername hpassword
    refine ⟨back, hback, hname, hserver, hport, ?_⟩
    rw [hprotocol]
    exact ⟨houtbound, hnaiveProtocol, by rw [huser, husername], by rw [hpass, hpassword]⟩

/-- A platform that changes the case of ASCII letters only. -/
def asciiPlatform : Platform where
  lowercase := List.map Char.toLower
  lowercase_colon text h := List.mem_map.mpr ⟨':', h, rfl⟩
  lowercase_lower text h := by
    refine (List.map_congr_left fun c hc => ?_).trans (List.map_id text)
    have hupper : ¬ (c.val ≥ 'A'.val ∧ c.val ≤ 'Z'.val) := of_decide_eq_false (h c hc).2
    exact dif_neg hupper

/-- A server of every kind, with credentials full of separators. -/
theorem credentials_roundTrip_socks5 :
    let c : ProxyConfiguration :=
      { name := "a#b".toList, serverAddress := "2001:db8::1".toList, serverPort := 1080,
        uuid := ⟨0, 0⟩, encryption := noSecurity, outboundProtocol := .socks5,
        socks5Username := some "u:@/".toList, socks5Password := some "%+?é".toList }
    ∃ back, fromUrl asciiPlatform ⟨0, 0⟩ (toUrl asciiPlatform c) none = .ok back ∧
      SameCredentials none c back :=
  credentials_roundTrip asciiPlatform ⟨0, 0⟩ _ none (by decide)
    ⟨_, _, rfl, rfl, by decide, by decide⟩

/-- The link of a Naive configuration does not say that it speaks HTTP/1.1, and a server name
that is not percent-coded can break the link of a Trojan configuration. -/
theorem credentials_lost :
    (let c : ProxyConfiguration :=
      { name := ['n'], serverAddress := "a.b".toList, serverPort := 443, uuid := ⟨0, 0⟩,
        encryption := noSecurity, outboundProtocol := .naiveHttp11, naiveUsername := some ['u'],
        naivePassword := some ['p'], naiveProtocol := some .http11 }
    (fromUrl asciiPlatform ⟨0, 0⟩ (toUrl asciiPlatform c) none).map (·.naiveProtocol) =
      .ok (some .http2)) ∧
    (let c : ProxyConfiguration :=
      { name := ['n'], serverAddress := "a.b".toList, serverPort := 443, uuid := ⟨0, 0⟩,
        encryption := noSecurity, outboundProtocol := .trojan, trojanPassword := some ['p'],
        trojanTls := some { serverName := ['%'] } }
    fromUrl asciiPlatform ⟨0, 0⟩ (toUrl asciiPlatform c) none = .error .illegalArgument) := by
  decide

end Anywhere.Link
