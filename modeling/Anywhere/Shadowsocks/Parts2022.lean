import Anywhere.Lib.BigEndian
import Anywhere.Shadowsocks.Header
import Anywhere.Shadowsocks.Request2022
import Anywhere.Shadowsocks.UdpSession

/-!
# Anywhere — the parts of a Shadowsocks-2022 datagram

Datagrams hold `Long`s in eight bytes, and addresses as the streams do. The ChaCha variant has a
nonce of 24 bytes: `HChaCha20` makes a key of the first sixteen.
-/

namespace Anywhere.Shadowsocks

open Lib List

-- ----
-- Numbers

abbrev Long := {n : Int // -2 ^ 63 ≤ n ∧ n < 2 ^ 63}

/-- `Long.toBigEndianBytes`, of a `Long` that may be negative. -/
def toBigEndianBytes (v : Int) : Bytes := longBytes (v % 2 ^ 64).toNat

/-- The number in some bytes, most significant first. -/
def beNat (bytes : Bytes) : Nat := bytes.foldl (fun v b => v * 256 + b.toNat) 0

theorem toLong_val (n : Long) : toLong n.1 = n.1 := by
  obtain ⟨n, hlo, hhi⟩ := n
  show n.bmod (2 ^ 64) = n
  apply Int.bmod_eq_of_le <;> omega

theorem toLong_emod (n : Int) : toLong n % 2 ^ 64 = n % 2 ^ 64 := Int.bmod_emod

theorem toLong_add_toLong (n m : Int) : toLong (toLong n + m) = toLong (n + m) := Int.bmod_add_bmod

@[simp] theorem length_longBytes (n : Nat) : (longBytes n).length = 8 := by
  simp [longBytes]

@[simp] theorem length_toBigEndianBytes (v : Int) : (toBigEndianBytes v).length = 8 :=
  length_longBytes _

theorem longBytes_eq (n : Nat) : longBytes n = BigEndian.digits 8 n := by
  simp [longBytes, range_succ, BigEndian.digits]

theorem beNat_longBytes (n : Nat) : beNat (longBytes n) = n % 2 ^ 64 := by
  rw [longBytes_eq]
  exact BigEndian.value_digits 8 n

variable {bytes data : Bytes}

theorem longBytes_beNat (h : bytes.length = 8) :
    longBytes (beNat bytes) = bytes := by
  rw [longBytes_eq, ← h]
  exact BigEndian.digits_value bytes

theorem beNat_lt (h : bytes.length = 8) : beNat bytes < 2 ^ 64 := by
  have hlt := BigEndian.value_lt bytes
  rwa [h] at hlt

theorem beNat_toBigEndianBytes (n : Nat) : beNat (toBigEndianBytes (toLong n)) = n % 2 ^ 64 := by
  have hmod : ((n : Int) % 2 ^ 64).toNat = n % 2 ^ 64 := by omega
  rw [toBigEndianBytes, toLong_emod, hmod, beNat_longBytes, Nat.mod_mod]

theorem readLongBE_eq (bytes : Bytes) (offset : Nat) :
    readLongBE bytes offset = toLong (beNat ((bytes.drop offset).take 8)) := by
  have hfold : ∀ (bs : Bytes) (v : Nat), bs.foldl (fun (v : Int) b => v * 256 + b.toNat) v =
      (bs.foldl (fun v b => v * 256 + b.toNat) v : Nat) := by
    intro bs
    induction bs with
    | nil => exact fun _ => rfl
    | cons b bs ih => exact fun v => ih (v * 256 + b.toNat)
  exact congrArg toLong (hfold _ 0)

/-- A `Long` is read off its bytes. -/
theorem readLongBE_append {front : Bytes} {offset : Nat} (h : front.length = offset) (v : Int)
    (rest : Bytes) :
    readLongBE (front ++ (toBigEndianBytes v ++ rest)) offset = toLong v := by
  rw [readLongBE_eq, drop_left' h, take_left' (length_toBigEndianBytes v),
    toBigEndianBytes,
    beNat_longBytes]
  show Int.bmod _ _ = Int.bmod _ _
  have hpos : (((v % 2 ^ 64).toNat % 2 ^ 64 : Nat) : Int) = v % 2 ^ 64 := by omega
  rw [hpos]
  exact Int.emod_bmod v (2 ^ 64)

/-- Eight bytes are those of their `Long`. -/
theorem toBigEndianBytes_readLongBE {offset : Nat} (h : offset + 8 ≤ bytes.length) :
    toBigEndianBytes (readLongBE bytes offset) = (bytes.drop offset).take 8 := by
  have hlen : ((bytes.drop offset).take 8).length = 8 := by
    rw [length_take, length_drop]
    omega
  have hlt := beNat_lt hlen
  rw [readLongBE_eq, toBigEndianBytes, toLong_emod]
  have hmod : ((beNat ((bytes.drop offset).take 8) : Int) % 2 ^ 64).toNat =
      beNat ((bytes.drop offset).take 8) := by omega
  rw [hmod, longBytes_beNat hlen]

-- ----
-- Addresses

namespace Destination

/-- The text `decodeUDPPacket` makes of it. -/
def text : Destination → Text
  | ip a => a.replyText
  | domain bytes => decodeUtf8 bytes.1

end Destination

/-- The text of an IP address, or a domain of at most 255 bytes. -/
def IsDestination (inet : Net.Inet) (host : Text) : Prop :=
  (Net.parseIPv4 inet host).isSome ∨ (Net.parseIPv6 inet host).isSome ∨
  (Vless.utf8Bytes host).length ≤ 255

def Destination.ofHost (inet : Net.Inet) (host : {host : Text // IsDestination inet host}) :
    Destination :=
  match h4 : Net.parseIPv4 inet host.1, h6 : Net.parseIPv6 inet host.1 with
  | some ipv4, _ => ip (.ipv4 ⟨ipv4, Net.length_parseIPv4 h4⟩)
  | none, some ipv6 => ip (.ipv6 ⟨ipv6, Net.length_parseIPv6 h6⟩)
  | none, none => domain ⟨Vless.utf8Bytes host.1, by simpa [IsDestination, h4, h6] using host.2⟩

def readPort (d : Destination) : Bytes → Option (Destination × Nat × Bytes)
  | hi :: lo :: payload => some (d, hi.toNat * 256 + lo.toNat, payload)
  | _ => none

theorem domain_le {domainLen : UInt8} {data : Bytes}
    (h : (data.take domainLen.toNat).length = domainLen.toNat) :
    (data.take domainLen.toNat).length ≤ 255 := by
  have := domainLen.toNat_lt
  omega

def readDomain : Bytes → Option (Destination × Nat × Bytes)
  | [] => none
  | domainLen :: data =>
    if h : (data.take domainLen.toNat).length = domainLen.toNat then
      readPort (.domain ⟨data.take domainLen.toNat, domain_le h⟩) (data.drop domainLen.toNat)
    else none

/-- The address at the front, its port, and what is behind them. -/
def readDestination : Bytes → Option (Destination × Nat × Bytes)
  | [] => none
  | atyp :: data =>
    if atyp = 0x01 then
      if h : (data.take 4).length = 4 then readPort (.ip (.ipv4 ⟨data.take 4, h⟩)) (data.drop 4)
      else none
    else if atyp = 0x03 then readDomain data
    else if atyp = 0x04 then
      if h : (data.take 16).length = 16 then readPort (.ip (.ipv6 ⟨data.take 16, h⟩)) (data.drop 16)
      else none
    else none

variable {port : Nat}

theorem readPort_sizeBytes (d : Destination) (h : port < 65536) (payload : Bytes) :
    readPort d (sizeBytes port ++ payload) = some (d, port, payload) := by
  show some (d, _, payload) = _
  rw [bytes16_value h]

theorem sizeBytes_toNat (hi lo : UInt8) : sizeBytes (hi.toNat * 256 + lo.toNat) = [hi, lo] := by
  have hhi := hi.toNat_lt
  have hlo := lo.toNat_lt
  have hhigh : UInt8.ofNat ((hi.toNat * 256 + lo.toNat) / 256) = hi := by
    rw [← UInt8.toNat_inj, UInt8.toNat_ofNat']
    omega
  have hlow : UInt8.ofNat (hi.toNat * 256 + lo.toNat) = lo := by
    rw [← UInt8.toNat_inj, UInt8.toNat_ofNat']
    omega
  rw [sizeBytes, hhigh, hlow]

theorem readPort_eq_some {d d' : Destination} {payload : Bytes}
    (h : readPort d data = some (d', port, payload)) :
    d' = d ∧ port < 65536 ∧ data = sizeBytes port ++ payload := by
  rcases data with _ | ⟨hi, _ | ⟨lo, rest⟩⟩
  · cases h
  · cases h
  · obtain ⟨rfl, hport⟩ := Prod.mk.inj (Option.some.inj h)
    obtain ⟨rfl, rfl⟩ := Prod.mk.inj hport
    have hhi := hi.toNat_lt
    have hlo := lo.toNat_lt
    rw [sizeBytes_toNat]
    exact ⟨rfl, by omega, rfl⟩

/-- A header is read back. -/
theorem readDestination_header (d : Destination) (h : port < 65536) (payload : Bytes) :
    readDestination (d.header port ++ payload) = some (d, port, payload) := by
  rcases d with (⟨bytes, hlen⟩ | ⟨bytes, hlen⟩) | ⟨bytes, hlen⟩
  · show readDestination (0x01 :: (bytes ++ sizeBytes port ++ payload)) = _
    have htake : (bytes ++ sizeBytes port ++ payload).take 4 = bytes := by
      rw [append_assoc, take_left' hlen]
    have hdrop : (bytes ++ sizeBytes port ++ payload).drop 4 = sizeBytes port ++ payload := by
      rw [append_assoc, drop_left' hlen]
    rw [readDestination, if_pos rfl, dif_pos (by rw [htake, hlen]), hdrop, readPort_sizeBytes _ h]
    simp only [htake]
  · show readDestination (0x04 :: (bytes ++ sizeBytes port ++ payload)) = _
    have htake : (bytes ++ sizeBytes port ++ payload).take 16 = bytes := by
      rw [append_assoc, take_left' hlen]
    have hdrop : (bytes ++ sizeBytes port ++ payload).drop 16 = sizeBytes port ++ payload := by
      rw [append_assoc, drop_left' hlen]
    rw [readDestination, if_neg (by decide), if_neg (by decide), if_pos rfl,
      dif_pos (by rw [htake, hlen]), hdrop, readPort_sizeBytes _ h]
    simp only [htake]
  · show readDestination
      (0x03 :: UInt8.ofNat bytes.length :: (bytes ++ sizeBytes port ++ payload)) = _
    have hbyte : (UInt8.ofNat bytes.length).toNat = bytes.length := by
      rw [UInt8.toNat_ofNat']
      omega
    have htake : (bytes ++ sizeBytes port ++ payload).take (UInt8.ofNat bytes.length).toNat =
        bytes := by
      rw [hbyte, append_assoc, take_left]
    have hdrop : (bytes ++ sizeBytes port ++ payload).drop (UInt8.ofNat bytes.length).toNat =
        sizeBytes port ++ payload := by
      rw [hbyte, append_assoc, drop_left]
    rw [readDestination, if_neg (by decide), if_pos rfl, readDomain, dif_pos (by rw [htake, hbyte]),
      hdrop, readPort_sizeBytes _ h]
    simp only [htake]

/-- What is read has a header in front of it. -/
theorem readDestination_eq_some {payload : Bytes} {d : Destination}
    (h : readDestination data = some (d, port, payload)) :
    port < 65536 ∧ data = d.header port ++ payload := by
  rcases data with _ | ⟨atyp, data⟩
  · cases h
  rw [readDestination] at h
  split at h
  · rename_i htype
    split at h
    · obtain ⟨rfl, hport, hdrop⟩ := readPort_eq_some h
      refine ⟨hport, ?_⟩
      show atyp :: data = 0x01 :: (data.take 4 ++ sizeBytes port ++ payload)
      rw [htype, append_assoc, ← hdrop, take_append_drop]
    · cases h
  · split at h
    · rename_i htype
      rcases data with _ | ⟨domainLen, data⟩
      · cases h
      rw [readDomain] at h
      split at h
      · rename_i hlen
        obtain ⟨rfl, hport, hdrop⟩ := readPort_eq_some h
        refine ⟨hport, ?_⟩
        show atyp :: domainLen :: data = 0x03 :: UInt8.ofNat (data.take domainLen.toNat).length ::
          (data.take domainLen.toNat ++ sizeBytes port ++ payload)
        rw [htype, hlen, UInt8.ofNat_toNat, append_assoc, ← hdrop, take_append_drop]
      · cases h
    · split at h
      · rename_i htype
        split at h
        · obtain ⟨rfl, hport, hdrop⟩ := readPort_eq_some h
          refine ⟨hport, ?_⟩
          show atyp :: data = 0x04 :: (data.take 16 ++ sizeBytes port ++ payload)
          rw [htype, append_assoc, ← hdrop, take_append_drop]
        · cases h
      · cases h

def toPacket (t : Destination × Nat × Bytes) : UdpPacket := ⟨t.1.text, t.2.1, t.2.2⟩

theorem decodePort_eq (d : Destination) (data : Bytes) :
    decodePort d.text data = (readPort d data).map toPacket := by
  rcases data with _ | ⟨hi, _ | ⟨lo, payload⟩⟩ <;> rfl

theorem readPort_short (d : Destination) (h : data.length < 2) :
    readPort d data = none := by
  rcases data with _ | ⟨hi, _ | ⟨lo, payload⟩⟩
  · rfl
  · rfl
  · simp only [length_cons] at h
    omega

/-- **`decodeUDPPacket`** reads an address and makes a text of it. -/
theorem decodeUDPPacket_eq (data : Bytes) :
    decodeUDPPacket data = (readDestination data).map toPacket := by
  rcases data with _ | ⟨atyp, data⟩
  · rfl
  rw [decodeUDPPacket, readDestination]
  by_cases h1 : atyp = 0x01
  · rw [if_pos h1, if_pos h1]
    by_cases hshort : data.length < 4 + 2
    · rw [if_pos hshort]
      split
      · rw [readPort_short _ (by rw [length_drop]; omega)]
        rfl
      · rfl
    · rw [if_neg hshort, dif_pos (by rw [length_take]; omega), ← decodePort_eq]
      rfl
  rw [if_neg h1, if_neg h1]
  by_cases h3 : atyp = 0x03
  · rw [if_pos h3, if_pos h3]
    rcases data with _ | ⟨domainLen, data⟩
    · rfl
    rw [decodeDomain, readDomain]
    by_cases hshort : data.length < domainLen.toNat + 2
    · rw [if_pos hshort]
      split
      · rw [readPort_short _ (by rw [length_drop]; omega)]
        rfl
      · rfl
    · rw [if_neg hshort, dif_pos (by rw [length_take]; omega), ← decodePort_eq]
      rfl
  rw [if_neg h3, if_neg h3]
  by_cases h4 : atyp = 0x04
  · rw [if_pos h4, if_pos h4]
    by_cases hshort : data.length < 16 + 2
    · rw [if_pos hshort]
      split
      · rw [readPort_short _ (by rw [length_drop]; omega)]
        rfl
      · rfl
    · rw [if_neg hshort, dif_pos (by rw [length_take]; omega), ← decodePort_eq]
      rfl
  · rw [if_neg h4, if_neg h4]
    rfl

/-- The packets `decodeUDPPacket` returns. -/
theorem decodeUDPPacket_iff {packet : UdpPacket} :
    decodeUDPPacket data = some packet ↔
      ∃ (d : Destination) (port : Nat) (payload : Bytes), port < 65536 ∧
        data = d.header port ++ payload ∧ packet = ⟨d.text, port, payload⟩ := by
  rw [decodeUDPPacket_eq, Option.map_eq_some_iff]
  constructor
  · rintro ⟨⟨d, port, payload⟩, h, rfl⟩
    obtain ⟨hport, hdata⟩ := readDestination_eq_some h
    exact ⟨d, port, payload, hport, hdata, rfl⟩
  · rintro ⟨d, port, payload, hport, rfl, rfl⟩
    exact ⟨_, readDestination_header d hport payload, rfl⟩

/-- The header of every destination. -/
theorem buildAddressHeader_eq {inet : Net.Inet} (host : {host : Text // IsDestination inet host})
    (port : Nat) :
    buildAddressHeader inet host.1 port = some ((Destination.ofHost inet host).header port) := by
  have hhost : encodeHost inet host.1 ++ sizeBytes port =
      (Destination.ofHost inet host).header port ∧
      (encodeHost inet host.1).length ≤ 257 := by
    unfold Destination.ofHost
    split
    · rename_i ipv4 h4
      have hlen := Net.length_parseIPv4 h4
      have henc : encodeHost inet host.1 = 0x01 :: ipv4 := by
        rw [encodeHost, h4]
        rfl
      rw [henc, length_cons]
      exact ⟨rfl, by omega⟩
    · rename_i ipv6 h4 h6
      have hlen := Net.length_parseIPv6 h6
      have henc : encodeHost inet host.1 = 0x04 :: ipv6 := by
        rw [encodeHost, h4, h6]
        rfl
      rw [henc, length_cons]
      exact ⟨rfl, by omega⟩
    · rename_i h4 h6
      have hlen : (Vless.utf8Bytes host.1).length ≤ 255 := by simpa [IsDestination, h4,
          h6] using host.2
      have henc : encodeHost inet host.1 =
          0x03 :: UInt8.ofNat (Vless.utf8Bytes host.1).length :: Vless.utf8Bytes host.1 := by
        rw [encodeHost, h4, h6]
        rfl
      rw [henc, length_cons, length_cons]
      exact ⟨rfl, by omega⟩
  rw [buildAddressHeader_of_le hhost.2, ← hhost.1]
  rfl

-- ----
-- `XChaCha20Poly1305`

def rotateLeft (x count : UInt32) : UInt32 := (x <<< count) ||| (x >>> (32 - count))

def quarterRound (s : List UInt32) (a b c d : Nat) : List UInt32 :=
  let s := s.set a (s.getD a 0 + s.getD b 0)
  let s := s.set d (rotateLeft (s.getD d 0 ^^^ s.getD a 0) 16)
  let s := s.set c (s.getD c 0 + s.getD d 0)
  let s := s.set b (rotateLeft (s.getD b 0 ^^^ s.getD c 0) 12)
  let s := s.set a (s.getD a 0 + s.getD b 0)
  let s := s.set d (rotateLeft (s.getD d 0 ^^^ s.getD a 0) 8)
  let s := s.set c (s.getD c 0 + s.getD d 0)
  s.set b (rotateLeft (s.getD b 0 ^^^ s.getD c 0) 7)

example : quarterRound [0x11111111, 0x01020304, 0x9b8d6f43, 0x01234567] 0 1 2 3 =
    [0xea2a92f4, 0xcb1cf8ce, 0x4581472e, 0x5881c4bb] := by decide

def doubleRound (s : List UInt32) : List UInt32 :=
  let s := quarterRound s 0 4 8 12
  let s := quarterRound s 1 5 9 13
  let s := quarterRound s 2 6 10 14
  let s := quarterRound s 3 7 11 15
  let s := quarterRound s 0 5 10 15
  let s := quarterRound s 1 6 11 12
  let s := quarterRound s 2 7 8 13
  quarterRound s 3 4 9 14

def readIntLE (bytes : Bytes) (offset : Nat) : UInt32 :=
  (bytes.getD offset 0).toUInt32 ||| ((bytes.getD (offset + 1) 0).toUInt32 <<< 8) |||
    ((bytes.getD (offset + 2) 0).toUInt32 <<< 16) ||| ((bytes.getD (offset + 3) 0).toUInt32 <<< 24)

def writeIntLE (x : UInt32) : Bytes :=
  [x.toUInt8, (x >>> 8).toUInt8, (x >>> 16).toUInt8, (x >>> 24).toUInt8]

def hChaCha20 (key nonce : Bytes) : Bytes :=
  let state : List UInt32 := [0x61707865, 0x3320646e, 0x79622d32, 0x6b206574] ++
    (List.range 8).map (fun i => readIntLE key (i * 4)) ++
    (List.range 4).map (fun i => readIntLE nonce (i * 4))
  let state := doubleRound^[10] state
  (state.take 4 ++ (state.drop 12).take 4).flatMap writeIntLE

/-- The key that `XChaCha20Poly1305` seals with. -/
def xChaChaKey (key nonce : Bytes) : Bytes := hChaCha20 key (nonce.take 16)

def xChaChaNonce (nonce : Bytes) : Bytes := List.replicate 4 0 ++ (nonce.drop 16).take 8

end Anywhere.Shadowsocks
