import Anywhere.Shadowsocks.Header
import Anywhere.Trojan.Protocol
import Anywhere.Socks5.Handshake

/-!
# Anywhere — one destination over five protocols

A destination is printed by `inet_ntop` and given as a text to whichever protocol is
configured, which takes the text apart again.

* `Agree` — all five put the bytes of the address, its family and the port on the wire.
* `agree_iff` — they do unless an IPv4 address is printed into an IPv6 one.
-/

namespace Anywhere.Net

open Lib Lib.Text FakeIp Shadowsocks

/-- The type and the address as VLESS and mux write them. -/
def vlessHeader : IpAddress → Bytes
  | .ipv4 bytes => 0x01 :: bytes.1
  | .ipv6 bytes => 0x03 :: bytes.1

/-- The five encoders write an address of its own family, with its own bytes and the
port, whatever else stands in the request. -/
structure Agree (inet : Inet) (a : IpAddress) (port : Nat) : Prop where
  vless : ∀ uuid command flow, command ≠ .mux →
    Vless.encodeRequestHeader uuid command a.toText port flow =
      [0x00] ++ uuid ++ [UInt8.ofNat (Vless.encodeAddons flow).length] ++ Vless.encodeAddons flow ++
        [command.value] ++ (Mux.bytes16 port ++ vlessHeader a)
  mux : ∀ hostAddress sessionID option net globalID,
    Mux.encode (inet.mux hostAddress)
        ⟨sessionID, .new, option, some net, some a.toText, some port, globalID⟩ =
      Mux.bytes16 sessionID ++ [0x01, UInt8.ofNat option] ++
        net.value :: (Mux.bytes16 port ++ vlessHeader a ++ Mux.encodeGlobalID net globalID)
  shadowsocks : buildAddressHeader inet a.toText port = some (a.header ++ Mux.bytes16 port)
  trojan : Trojan.encodeAddressPort inet a.toText port = a.header ++ Mux.bytes16 port
  socks5 : ∀ command, Socks5.commandRequest inet command a.toText port =
    [0x05, command, 0x00] ++ a.header ++ Mux.bytes16 port
  socks5Udp : Socks5.udpHeader inet a.toText port = [0x00, 0x00, 0x00] ++ a.header ++
    Mux.bytes16 port

-- ----
-- The encoders

theorem javaAddress_of_embeds {a : IpAddress} (h : embeds a = false) : javaAddress a = a := by
  rcases a with bytes | bytes
  · rfl
  · have hm : mappedGroups (groupsOf bytes) = false := (Bool.or_eq_false_iff.1 h).1
    rw [javaAddress, hm]
    rfl

/-- The hand-written parser of IPv4 addresses, which three of the encoders have. -/
theorem vless_parseIPv4_toText (a : IpAddress) : Vless.parseIPv4 a.toText = inet4 a := by
  rcases a with bytes | bytes
  · exact vless_parseIPv4_inetNtop4 bytes.2
  · exact vless_parseIPv4_colon (colon_mem_inetNtop6 bytes.2)

theorem vless_encodeAddress_toText (a : IpAddress) :
    (embeds a = false → Vless.encodeAddress a.toText = vlessHeader a) ∧
      (embeds a = true → ∃ rest, Vless.encodeAddress a.toText = 0x02 :: rest) := by
  unfold Vless.encodeAddress
  rw [vless_parseIPv4_toText]
  rcases a with bytes | bytes
  · exact ⟨fun _ => rfl, fun h => by cases h⟩
  · refine ⟨fun h => ?_, fun h => ?_⟩
    · rw [show (IpAddress.ipv6 bytes).toText = inetNtop6 bytes from rfl,
        vless_parseIPv6_plain bytes h]
      rfl
    · rw [show (IpAddress.ipv6 bytes).toText = inetNtop6 bytes from rfl,
        vless_parseIPv6_embedded bytes h]
      exact ⟨_, rfl⟩

theorem mux_encodeAddress_toText {inet : Inet} {a : IpAddress}
    (hinet : inet.getByName a.toText = some (javaAddress a)) (h : embeds a = false)
    (hostAddress : Bytes → Text) :
    Mux.encodeAddress (inet.mux hostAddress) a.toText = vlessHeader a := by
  have h6 : Mux.parseIPv6 (inet.mux hostAddress) a.toText = inet6 (javaAddress a) :=
    parseIPv6_toText hinet
  unfold Mux.encodeAddress
  rw [h6, Mux.parseIPv4, vless_parseIPv4_toText, javaAddress_of_embeds h]
  rcases a with bytes | bytes <;> rfl

theorem addressBytes_of_embeds {a : IpAddress} (h : embeds a = false) (domain : Bytes) :
    addressBytes (inet4 a) (inet6 (javaAddress a)) domain = a.header := by
  rcases addressBytes_toText a domain with heq | ⟨hemb, -⟩
  · exact heq
  · rw [h] at hemb
    cases hemb

-- ----
-- Agreement

theorem agree_of_embeds {inet : Inet} {a : IpAddress}
    (hinet : inet.getByName a.toText = some (javaAddress a)) (h : embeds a = false) (port : Nat) :
    Agree inet a port := by
  have hhost : encodeHost inet a.toText = a.header := by
    rw [encodeHost, parseIPv4_toText hinet, parseIPv6_toText hinet]
    exact addressBytes_of_embeds h _
  have hsocks : Socks5.encodeAddress inet a.toText = a.header := by
    rw [Socks5.encodeAddress, Socks5.parseIPv4, Socks5.parseIPv6, vless_parseIPv4_toText,
      parseIPv6_toText hinet]
    exact addressBytes_of_embeds h _
  refine ⟨?_, ?_, ?_, ?_, ?_, ?_⟩
  · intro uuid command flow hcommand
    unfold Vless.encodeRequestHeader
    dsimp only
    rw [if_neg hcommand, (vless_encodeAddress_toText a).1 h]
    rfl
  · intro hostAddress sessionID option net globalID
    unfold Mux.encode
    rw [if_pos rfl, Mux.encodeTarget]
    dsimp only
    rw [mux_encodeAddress_toText hinet h]
    rfl
  · have hlen := length_header_le a
    rw [buildAddressHeader_of_le (by rw [hhost]; omega), hhost]
  · rw [Trojan.encodeAddressPort, parseIPv4_toText hinet, parseIPv6_toText hinet,
      addressBytes_of_embeds h]
  · intro command
    rw [Socks5.commandRequest, hsocks]
  · rw [Socks5.udpHeader, hsocks]

/-- The five protocols put a destination on the wire alike unless it is an IPv6 address
with an IPv4 address in it, which VLESS sends as a domain. -/
theorem agree_iff (inet : Inet) (a : IpAddress) (port : Nat)
    (hinet : inet.getByName a.toText = some (javaAddress a)) :
    Agree inet a port ↔ embeds a = false := by
  refine ⟨fun hagree => ?_, fun h => agree_of_embeds hinet h port⟩
  rw [Bool.eq_false_iff]
  intro hemb
  obtain ⟨rest, hrest⟩ := (vless_encodeAddress_toText a).2 hemb
  have hvless := hagree.vless [] .tcp none (by decide)
  unfold Vless.encodeRequestHeader at hvless
  dsimp only at hvless
  rw [if_neg (by decide), hrest] at hvless
  rcases a with bytes | bytes
  · cases hemb
  · have htail := List.append_cancel_left hvless
    simp [Mux.bytes16, vlessHeader] at htail

theorem length_documentation :
    ([0x20, 0x01, 0x0D, 0xB8, 0, 0, 0, 0, 0, 0, 0, 0, 0, 0, 0, 1] : Bytes).length = 16 := rfl

def documentation : IpAddress :=
  .ipv6 ⟨[0x20, 0x01, 0x0D, 0xB8, 0, 0, 0, 0, 0, 0, 0, 0, 0, 0, 0, 1], length_documentation⟩

def documentationInet : Inet :=
  ⟨fun text => if text = "2001:db8::1".toList then some documentation else none⟩

theorem agree_iff_documentation :
    documentationInet.getByName documentation.toText = some (javaAddress documentation) ∧
    (Agree documentationInet documentation 443 ↔ embeds documentation = false) := by
  have hinet : documentationInet.getByName documentation.toText =
      some (javaAddress documentation) := by
    decide
  exact ⟨hinet, agree_iff documentationInet documentation 443 hinet⟩

def mapped : IpAddress := .ipv6 ⟨[0, 0, 0, 0, 0, 0, 0, 0, 0, 0, 0xFF, 0xFF, 192, 0, 2, 1], rfl⟩

/-- Java knows it as 192.0.2.1, and nobody sends it as an IPv6 address. -/
def mappedInet : Inet :=
  ⟨fun text => if text = "::ffff:192.0.2.1".toList then some (.ipv4 ⟨[192, 0, 2, 1], rfl⟩)
    else none⟩

theorem mapped_sent_as_domain :
    mapped.toText = "::ffff:192.0.2.1".toList ∧
    mappedInet.getByName mapped.toText = some (javaAddress mapped) ∧
    Vless.encodeAddress mapped.toText = 0x02 :: 16 :: Vless.utf8Bytes "::ffff:192.0.2.1".toList ∧
    buildAddressHeader mappedInet mapped.toText 443 =
      some (0x03 :: 16 :: Vless.utf8Bytes "::ffff:192.0.2.1".toList ++ [1, 187]) ∧
    ¬ Agree mappedInet mapped 443 := by
  have htext : mapped.toText = "::ffff:192.0.2.1".toList := by decide
  have hvless : Vless.encodeAddress mapped.toText =
      0x02 :: 16 :: Vless.utf8Bytes "::ffff:192.0.2.1".toList := by decide
  have hheader : buildAddressHeader mappedInet mapped.toText 443 =
      some (0x03 :: 16 :: Vless.utf8Bytes "::ffff:192.0.2.1".toList ++ [1, 187]) := by decide
  refine ⟨htext, by decide, hvless, hheader, fun hagree => ?_⟩
  have hwrong := hagree.shadowsocks
  rw [hheader] at hwrong
  revert hwrong
  decide

end Anywhere.Net
