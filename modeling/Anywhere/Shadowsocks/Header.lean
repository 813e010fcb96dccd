import Anywhere.Net.Inet

/-!
# Anywhere — the address header of Shadowsocks

`buildAddressHeader` writes the destination of a request in front of its payload, and
`decodeUDPPacket` reads the source of a reply from there.
-/

namespace Anywhere.Shadowsocks

open Lib FakeIp List

/-- The address of `buildAddressHeader`. -/
def encodeHost (inet : Net.Inet) (host : Text) : Bytes :=
  Net.addressBytes (Net.parseIPv4 inet host) (Net.parseIPv6 inet host) (Vless.utf8Bytes host)

/-- `buildAddressHeader`; null where its buffer overflows. -/
def buildAddressHeader (inet : Net.Inet) (host : Text) (port : Nat) : Option Bytes :=
  if (encodeHost inet host).length + 2 > 1 + 256 + 2 then none
  else some (encodeHost inet host ++ Mux.bytes16 port)

def encodeUDPPacket (inet : Net.Inet) (host : Text) (port : Nat) (payload : Bytes) : Option Bytes :=
  (buildAddressHeader inet host port).map (· ++ payload)

/-- The header of a printed address. -/
theorem encodeHost_toText {inet : Net.Inet} {a : IpAddress}
    (h : inet.getByName a.toText = some (Net.javaAddress a)) :
    encodeHost inet a.toText = a.header ∨
      Net.embeds a = true ∧ ∃ rest, encodeHost inet a.toText = 0x03 :: rest := by
  unfold encodeHost
  rw [Net.parseIPv4_toText h, Net.parseIPv6_toText h]
  exact Net.addressBytes_toText a _

theorem length_header_le (a : IpAddress) : a.header.length ≤ 17 := by
  rcases a with bytes | bytes
  · simp [IpAddress.header, bytes.2]
  · simp [IpAddress.header, bytes.2]

theorem buildAddressHeader_of_le {inet : Net.Inet} {host : Text}
    (h : (encodeHost inet host).length ≤ 257) (port : Nat) :
    buildAddressHeader inet host port = some (encodeHost inet host ++ Mux.bytes16 port) := by
  rw [buildAddressHeader, if_neg (by omega)]

/-- A destination that `decodeUDPPacket` makes the same text of: an address that
`inet_ntop` does not shorten, or a domain that fits its length byte. -/
inductive Readable (inet : Net.Inet) : Text → Prop
  | address (a : IpAddress) (hinet : inet.getByName a.toText = some (Net.javaAddress a))
      (hplain : a.Plain) : Readable inet a.toText
  | domain (host : Text) (h4 : Net.parseIPv4 inet host = none) (h6 : Net.parseIPv6 inet host = none)
      (hlen : (Vless.utf8Bytes host).length ≤ 255) : Readable inet host

/-- An IPv4 address stands behind a run of zeros. -/
theorem embeds_of_plain {a : IpAddress} (h : a.Plain) : Net.embeds a = false := by
  rcases a with bytes | bytes
  · rfl
  · rw [Bool.eq_false_iff]
    intro hemb
    change adjacentZeros (groupsOf bytes) = false at h
    rcases Bool.or_eq_true_iff.1 hemb with hm | hm
    · obtain ⟨g, k, hws⟩ := Net.mappedGroups_eq_true hm
      rw [hws] at h
      cases h
    · obtain ⟨g, k, -, hws⟩ := Net.compatibleGroups_eq_true hm
      rw [hws] at h
      cases h

/-- A domain is read back as it was written. -/
theorem decodeUDPPacket_domain {host : Text} (hlen : (Vless.utf8Bytes host).length ≤ 255)
    {port : Nat} (hport : port < 65536) (payload : Bytes) :
    decodeUDPPacket (0x03 :: UInt8.ofNat (Vless.utf8Bytes host).length :: Vless.utf8Bytes host ++
      Mux.bytes16 port ++ payload) = some ⟨host, port, payload⟩ := by
  have hbyte : (UInt8.ofNat (Vless.utf8Bytes host).length).toNat =
      (Vless.utf8Bytes host).length := by
    rw [UInt8.toNat_ofNat']
    omega
  have hshort : ¬ (Vless.utf8Bytes host ++ (Mux.bytes16 port ++ payload)).length <
      (Vless.utf8Bytes host).length + 2 := by
    simp [Mux.bytes16]
  rw [cons_append, cons_append, cons_append, cons_append, append_assoc,
    decodeUDPPacket, if_neg (by decide), if_pos rfl, decodeDomain, hbyte, if_neg hshort,
    take_left, drop_left, Vless.utf8Bytes, decodeUtf8_encode]
  exact decodePort_bytes host hport payload

/-- A server that echoes the header of a request: its destination is read back. -/
theorem decodeUDPPacket_encodeUDPPacket {inet : Net.Inet} {host : Text} (h : Readable inet host)
    {port : Nat} (hport : port < 65536) (payload : Bytes) :
    ∃ packet, encodeUDPPacket inet host port payload = some packet ∧
      decodeUDPPacket packet = some ⟨host, port, payload⟩ := by
  rcases h with ⟨a, hinet, hplain⟩ | ⟨host, h4, h6, hlen⟩
  · have hhost : encodeHost inet a.toText = a.header := by
      rcases encodeHost_toText hinet with heq | ⟨hemb, -⟩
      · exact heq
      · rw [embeds_of_plain hplain] at hemb
        cases hemb
    have hlen := length_header_le a
    refine ⟨a.header ++ Mux.bytes16 port ++ payload, ?_, ?_⟩
    · rw [encodeUDPPacket, buildAddressHeader_of_le (by rw [hhost]; omega), hhost]
      rfl
    · rw [append_assoc, ← (replyText_eq_iff a).2 hplain]
      exact decodeUDPPacket_packet a hport payload
  · have hhost : encodeHost inet host =
        0x03 :: UInt8.ofNat (Vless.utf8Bytes host).length :: Vless.utf8Bytes host := by
      rw [encodeHost, h4, h6]
      rfl
    refine ⟨_, ?_, decodeUDPPacket_domain hlen hport payload⟩
    rw [encodeUDPPacket, buildAddressHeader_of_le (by rw [hhost]; simp; omega), hhost]
    rfl

end Anywhere.Shadowsocks
