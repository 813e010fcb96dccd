import Mathlib.Data.List.GetD
import Anywhere.Net.Inet

/-!
# Anywhere — `TrojanProtocol`

A datagram goes over the TLS connection behind its address, its length and CRLF. The
decoder reads its buffer by index; an index outside of it is a fault of its own in the
model, next to the two the code throws.
-/

namespace Anywhere.Trojan

open Lib List

-- ----
-- The model

def maxUdpPayloadLength : Nat := 8192

def crlf : Bytes := [0x0D, 0x0A]

def encodeAddressPort (inet : Net.Inet) (host : Text) (port : Nat) : Bytes :=
  Net.addressBytes (Net.parseIPv4 inet host) (Net.parseIPv6 inet host)
    ((Vless.utf8Bytes host).take 255) ++ Mux.bytes16 port

def buildRequestHeader (inet : Net.Inet) (passwordKey : Bytes) (command : UInt8) (host : Text)
    (port : Nat) : Bytes :=
  passwordKey ++ crlf ++ command :: encodeAddressPort inet host port ++ crlf

def encodeUDPPacket (inet : Net.Inet) (host : Text) (port : Nat) (payload : Bytes) : Bytes :=
  encodeAddressPort inet host port ++ Mux.bytes16 (min payload.length maxUdpPayloadLength) ++
    crlf ++
    payload.take maxUdpPayloadLength

/-- What the decoder throws, and what the runtime throws at an index outside of the
buffer. -/
inductive Fault
  | unknownAtyp (atyp : UInt8)
  | oversize (length : Nat)
  | indexOutOfBounds
  deriving DecidableEq

def Fault.message : Fault → String
  | unknownAtyp atyp => "Trojan: unknown ATYP " ++ toString atyp.toInt8.toInt
  | oversize length => "Trojan: oversize UDP payload (" ++ toString length ++ ")"
  | indexOutOfBounds => "index out of bounds"

/-- `buffer[i]`. -/
def byteAt (buffer : Bytes) (i : Nat) : Except Fault UInt8 :=
  match buffer[i]? with
  | some b => .ok b
  | none => .error .indexOutOfBounds

/-- `buffer.copyOfRange(first, last)`. -/
def copyOfRange (buffer : Bytes) (first last : Nat) : Except Fault Bytes :=
  if last < first ∨ buffer.length < last then .error .indexOutOfBounds
  else .ok ((buffer.drop first).take (last - first))

structure DecodedPacket where
  payload : Bytes
  consumed : Nat
  deriving DecidableEq

/-- `tryDecodeUDPPacket` from the address on. -/
def decodeBehindAtyp (buffer : Bytes) (offset addrLen : Nat) :
    Except Fault (Option DecodedPacket) :=
  if buffer.length < offset + (addrLen + 2 + 2 + 2) then .ok none
  else do
    let offset := offset + (addrLen + 2)
    let hi ← byteAt buffer offset
    let lo ← byteAt buffer (offset + 1)
    let length := hi.toNat * 256 + lo.toNat
    let offset := offset + 2 + 2
    if length > maxUdpPayloadLength then .error (.oversize length)
    else if buffer.length < offset + length then .ok none
    else do
      let payload ← copyOfRange buffer offset (offset + length)
      return some ⟨payload, offset + length⟩

/-- `tryDecodeUDPPacket`; null when the buffer is short. -/
def tryDecodeUDPPacket (buffer : Bytes) : Except Fault (Option DecodedPacket) :=
  if buffer = [] then .ok none
  else do
    let atyp ← byteAt buffer 0
    if atyp = 0x01 then decodeBehindAtyp buffer 1 4
    else if atyp = 0x04 then decodeBehindAtyp buffer 1 16
    else if atyp = 0x03 then
      if buffer.length ≤ 1 then .ok none
      else do
        let domainLen ← byteAt buffer 1
        decodeBehindAtyp buffer 2 domainLen.toNat
    else .error (.unknownAtyp atyp)

-- ----
-- The decoder

/-- The type of an address, with its length byte, and the bytes that follow it. -/
inductive Front : Bytes → Nat → Prop
  | ipv4 : Front [0x01] 4
  | ipv6 : Front [0x04] 16
  | domain (domainLen : UInt8) : Front [0x03, domainLen] domainLen.toNat

/-- The length of the payload, behind an address of `k` bytes and its port. -/
def payloadLength (k : Nat) (xs : Bytes) : Nat :=
  (xs.getD (k + 2) 0).toNat * 256 + (xs.getD (k + 3) 0).toNat

theorem decodeBehindAtyp_eq (front : Bytes) (k : Nat) (xs : Bytes) :
    decodeBehindAtyp (front ++ xs) front.length k =
      if xs.length < k + 6 then .ok none
      else if payloadLength k xs > maxUdpPayloadLength then .error (.oversize (payloadLength k xs))
      else if xs.length < k + 6 + payloadLength k xs then .ok none
      else .ok (some ⟨(xs.drop (k + 6)).take (payloadLength k xs),
        front.length + (k + 6 + payloadLength k xs)⟩) := by
  have hbyte : ∀ i, i < xs.length → byteAt (front ++ xs) (front.length + i) =
      .ok (xs.getD i 0) := by
    intro i hi
    rw [byteAt, List.getElem?_append_right (by omega), Nat.add_sub_cancel_left,
      List.getElem?_eq_getElem hi, getD_eq_getElem _ _ hi]
  unfold decodeBehindAtyp
  rw [length_append]
  by_cases hshort : xs.length < k + 6
  · rw [if_pos (by omega), if_pos hshort]
  · rw [if_neg (by omega), if_neg hshort]
    dsimp only
    rw [hbyte (k + 2) (by omega), Nat.add_assoc, hbyte (k + 2 + 1) (by omega)]
    show (if payloadLength k xs > maxUdpPayloadLength then _ else _) = _
    by_cases hbig : payloadLength k xs > maxUdpPayloadLength
    · rw [if_pos hbig, if_pos hbig]
      rfl
    · rw [if_neg hbig, if_neg hbig]
      show (if front.length + xs.length < front.length + (k + 2) + 2 + 2 + payloadLength k xs then _
        else _) = _
      by_cases htail : xs.length < k + 6 + payloadLength k xs
      · rw [if_pos (by omega), if_pos htail]
      · rw [if_neg (by omega), if_neg htail]
        have hcopy : copyOfRange (front ++ xs) (front.length + (k + 2) + 2 + 2)
            (front.length + (k + 2) + 2 + 2 + payloadLength k xs) =
            .ok ((xs.drop (k + 6)).take (payloadLength k xs)) := by
          rw [copyOfRange, if_neg (by simp; omega), drop_append,
            drop_of_length_le (by omega), nil_append, Nat.add_sub_cancel_left]
          congr 3
          omega
        show (copyOfRange (front ++ xs) (front.length + (k + 2) + 2 + 2)
            (front.length + (k + 2) + 2 + 2 + payloadLength k xs) >>= _) = _
        rw [hcopy]
        show Except.ok (some (DecodedPacket.mk _
          (front.length + (k + 2) + 2 + 2 + payloadLength k xs))) = _
        congr 3
        omega

theorem tryDecodeUDPPacket_front {front : Bytes} {k : Nat} (h : Front front k) (xs : Bytes) :
    tryDecodeUDPPacket (front ++ xs) = decodeBehindAtyp (front ++ xs) front.length k := by
  rcases h with _ | _ | n
  · rfl
  · rfl
  · rfl

/-- A buffer is empty, too short for its address, of a type that is not known, or it has
a front. -/
theorem front_cases (buffer : Bytes) :
    buffer = [] ∨ buffer = [0x03] ∨
    (∃ atyp rest, buffer = atyp :: rest ∧ atyp ≠ 0x01 ∧ atyp ≠ 0x03 ∧ atyp ≠ 0x04) ∨
    ∃ front k xs, Front front k ∧ buffer = front ++ xs := by
  rcases buffer with _ | ⟨atyp, rest⟩
  · exact .inl rfl
  · by_cases h1 : atyp = 0x01
    · exact .inr (.inr (.inr ⟨[0x01], 4, rest, .ipv4, by rw [h1]; rfl⟩))
    by_cases h4 : atyp = 0x04
    · exact .inr (.inr (.inr ⟨[0x04], 16, rest, .ipv6, by rw [h4]; rfl⟩))
    by_cases h3 : atyp = 0x03
    · rcases rest with _ | ⟨n, rest⟩
      · exact .inr (.inl (by rw [h3]))
      · exact .inr (.inr (.inr ⟨[0x03, n], n.toNat, rest, .domain n, by rw [h3]; rfl⟩))
    · exact .inr (.inr (.inl ⟨atyp, rest, rfl, h1, h3, h4⟩))

theorem tryDecodeUDPPacket_unknown {atyp : UInt8} (h1 : atyp ≠ 0x01) (h3 : atyp ≠ 0x03)
    (h4 : atyp ≠ 0x04) (rest : Bytes) :
    tryDecodeUDPPacket (atyp :: rest) = .error (.unknownAtyp atyp) := by
  show (if atyp = 0x01 then _ else if atyp = 0x04 then _ else if atyp = 0x03 then _ else _) = _
  rw [if_neg h1, if_neg h4, if_neg h3]

/-- The decoder stays within its buffer. -/
theorem tryDecodeUDPPacket_bounds (buffer : Bytes) :
    tryDecodeUDPPacket buffer ≠ .error .indexOutOfBounds := by
  rcases front_cases buffer with rfl | rfl | ⟨atyp, rest, rfl, h1, h3, h4⟩ |
    ⟨front, k, xs, hfront, rfl⟩
  · rintro ⟨⟩
  · rintro ⟨⟩
  · rw [tryDecodeUDPPacket_unknown h1 h3 h4]
    rintro ⟨⟩
  · rw [tryDecodeUDPPacket_front hfront, decodeBehindAtyp_eq]
    split
    · rintro ⟨⟩
    · split
      · rintro ⟨⟩
      · split <;> rintro ⟨⟩

/-- Once it has decided, more bytes change nothing. -/
theorem tryDecodeUDPPacket_append {buffer : Bytes} (h : tryDecodeUDPPacket buffer ≠ .ok none)
    (more : Bytes) : tryDecodeUDPPacket (buffer ++ more) = tryDecodeUDPPacket buffer := by
  rcases front_cases buffer with rfl | rfl | ⟨atyp, rest, rfl, h1, h3, h4⟩ |
    ⟨front, k, xs, hfront, rfl⟩
  · exact absurd rfl h
  · exact absurd rfl h
  · rw [cons_append, tryDecodeUDPPacket_unknown h1 h3 h4, tryDecodeUDPPacket_unknown h1 h3 h4]
  · rw [tryDecodeUDPPacket_front hfront, decodeBehindAtyp_eq] at h
    rw [append_assoc, tryDecodeUDPPacket_front hfront, tryDecodeUDPPacket_front hfront,
      decodeBehindAtyp_eq, decodeBehindAtyp_eq, length_append]
    by_cases hshort : xs.length < k + 6
    · rw [if_pos hshort] at h
      exact absurd rfl h
    · have hlength : payloadLength k (xs ++ more) = payloadLength k xs := by
        rw [payloadLength, payloadLength, getD_append _ _ _ _ (by omega),
          getD_append _ _ _ _ (by omega)]
      rw [if_neg hshort] at h
      rw [if_neg hshort, if_neg (by omega), hlength]
      by_cases hbig : payloadLength k xs > maxUdpPayloadLength
      · rw [if_pos hbig, if_pos hbig]
      · rw [if_neg hbig] at h ⊢
        rw [if_neg hbig]
        by_cases htail : xs.length < k + 6 + payloadLength k xs
        · rw [if_pos htail] at h
          exact absurd rfl h
        · rw [if_neg htail, if_neg (by omega), drop_append_of_le_length (by omega),
            take_append_of_le_length (by simp; omega)]

/-- A packet on the wire: the front of its address, the address, the port, the length,
two bytes that are not looked at, and the payload. -/
def Packet (wire payload : Bytes) : Prop :=
  ∃ front k addr port hi lo end₁ end₂, Front front k ∧ addr.length = k ∧ port.length = 2 ∧
    hi.toNat * 256 + lo.toNat = payload.length ∧ payload.length ≤ maxUdpPayloadLength ∧
    wire = front ++ (addr ++ (port ++ hi :: lo :: end₁ :: end₂ :: payload))

/-- The decoder returns a packet that stands at the front of its buffer, and consumes
its bytes. -/
theorem tryDecodeUDPPacket_some {buffer payload : Bytes} {consumed : Nat}
    (h : tryDecodeUDPPacket buffer = .ok (some ⟨payload, consumed⟩)) :
    consumed ≤ buffer.length ∧ 0 < consumed ∧ Packet (buffer.take consumed) payload := by
  rcases front_cases buffer with rfl | rfl | ⟨atyp, rest, rfl, h1, h3, h4⟩ |
    ⟨front, k, xs, hfront, rfl⟩
  · cases h
  · cases h
  · rw [tryDecodeUDPPacket_unknown h1 h3 h4] at h
    cases h
  · rw [tryDecodeUDPPacket_front hfront, decodeBehindAtyp_eq] at h
    split at h
    · cases h
    split at h
    · cases h
    split at h
    · cases h
    rename_i hlong hsmall htail
    obtain ⟨rfl, rfl⟩ := DecodedPacket.mk.inj (Option.some.inj (Except.ok.inj h))
    have hlen : ((xs.drop (k + 6)).take (payloadLength k xs)).length = payloadLength k xs := by
      rw [length_take, length_drop]
      omega
    refine ⟨by rw [length_append]; omega, by omega, ?_⟩
    refine ⟨front, k, xs.take k, (xs.drop k).take 2, xs.getD (k + 2) 0, xs.getD (k + 3) 0,
      xs.getD (k + 4) 0, xs.getD (k + 5) 0, hfront, by simp; omega, by simp; omega, hlen.symm,
      by rw [hlen]; omega, ?_⟩
    have hsplit : ∀ i, i < xs.length → xs.drop i = xs.getD i 0 :: xs.drop (i + 1) := by
      intro i hi
      rw [drop_eq_getElem_cons hi, getD_eq_getElem _ _ hi]
    have hxs : xs = xs.take k ++ ((xs.drop k).take 2 ++ xs.getD (k + 2) 0 :: xs.getD (k + 3) 0 ::
        xs.getD (k + 4) 0 :: xs.getD (k + 5) 0 :: xs.drop (k + 6)) := by
      rw [← hsplit (k + 5) (by omega), ← hsplit (k + 4) (by omega), ← hsplit (k + 3) (by omega),
        ← hsplit (k + 2) (by omega), ← drop_drop, take_append_drop, take_append_drop]
    have hsix : xs.take (k + 6) = xs.take k ++ ((xs.drop k).take 2 ++
        [xs.getD (k + 2) 0, xs.getD (k + 3) 0, xs.getD (k + 4) 0, xs.getD (k + 5) 0]) := by
      refine append_cancel_right (?_ : _ ++ xs.drop (k + 6) = _ ++ xs.drop (k + 6))
      rw [take_append_drop]
      conv_lhs => rw [hxs]
      simp
    rw [take_length_add_append, take_add, hsix]
    simp

/-- The packets it accepts, byte by byte. -/
theorem tryDecodeUDPPacket_packet {wire payload : Bytes} (h : Packet wire payload) (more : Bytes) :
    tryDecodeUDPPacket (wire ++ more) = .ok (some ⟨payload, wire.length⟩) := by
  obtain ⟨front, k, addr, port, hi, lo, end₁, end₂, hfront, haddr, hport, hlen, hmax, rfl⟩ := h
  have hxs : (addr ++ (port ++ hi :: lo :: end₁ :: end₂ :: payload) ++ more) =
      (addr ++ port) ++ hi :: lo :: end₁ :: end₂ :: (payload ++ more) := by simp
  have hfour : (addr ++ port).length = k + 2 := by simp [haddr, hport]
  have hlength : payloadLength k ((addr ++ port) ++ hi :: lo :: end₁ :: end₂ :: (payload ++ more)) =
      payload.length := by
    rw [← hlen, payloadLength, getD_append_right _ _ _ _ (by omega),
      getD_append_right _ _ _ _ (by omega), hfour, Nat.sub_self,
      show k + 3 - (k + 2) = 1 by omega]
    rfl
  have hdrop : ((addr ++ port) ++ hi :: lo :: end₁ :: end₂ :: (payload ++ more)).drop (k + 6) =
      payload ++ more := by
    rw [show k + 6 = (addr ++ port).length + 4 by omega, drop_length_add_append]
    rfl
  rw [append_assoc, tryDecodeUDPPacket_front hfront, decodeBehindAtyp_eq, hxs, hlength, hdrop,
    if_neg (by simp [haddr, hport]; omega), if_neg (by omega),
    if_neg (by simp [haddr, hport]; omega), take_left]
  congr 3
  simp [haddr, hport]
  omega

/-- A shorter buffer than the packet it starts is asked to grow. -/
theorem tryDecodeUDPPacket_short {buffer payload : Bytes} {consumed : Nat}
    (h : tryDecodeUDPPacket buffer = .ok (some ⟨payload, consumed⟩)) {i : Nat} (hi : i < consumed) :
    tryDecodeUDPPacket (buffer.take i) = .ok none := by
  by_contra hne
  have happend := tryDecodeUDPPacket_append hne (buffer.drop i)
  rw [take_append_drop, h] at happend
  have hle := (tryDecodeUDPPacket_some happend.symm).1
  rw [length_take] at hle
  omega

-- ----
-- The encoder

/-- Whatever the host is taken for, the address in front of the port has the length its
front says. -/
theorem encodeAddressPort_front (inet : Net.Inet) (host : Text) (port : Nat) :
    ∃ front k addr, Front front k ∧ addr.length = k ∧
      encodeAddressPort inet host port = front ++ (addr ++ Mux.bytes16 port) := by
  unfold encodeAddressPort
  rcases h4 : Net.parseIPv4 inet host with _ | ipv4
  · rcases h6 : Net.parseIPv6 inet host with _ | ipv6
    · have hlen : ((Vless.utf8Bytes host).take 255).length ≤ 255 := length_take_le _ _
      refine ⟨_, _, (Vless.utf8Bytes host).take 255,
        .domain (UInt8.ofNat ((Vless.utf8Bytes host).take 255).length), ?_, rfl⟩
      rw [UInt8.toNat_ofNat']
      omega
    · exact ⟨_, _, ipv6, .ipv6, Net.length_parseIPv6 h6, rfl⟩
  · exact ⟨_, _, ipv4, .ipv4, Net.length_parseIPv4 h4, rfl⟩

theorem encodeUDPPacket_packet (inet : Net.Inet) (host : Text) (port : Nat) {payload : Bytes}
    (h : payload.length ≤ maxUdpPayloadLength) :
    Packet (encodeUDPPacket inet host port payload) payload := by
  obtain ⟨front, k, addr, hfront, haddr, heq⟩ := encodeAddressPort_front inet host port
  have hlt : payload.length < 65536 := Nat.lt_of_le_of_lt h (by decide)
  refine ⟨front, k, addr, Mux.bytes16 port, _, _, 0x0D, 0x0A, hfront, haddr, rfl,
    bytes16_value hlt, h, ?_⟩
  rw [encodeUDPPacket, heq, Nat.min_eq_left h, take_of_length_le h]
  simp [Mux.bytes16, crlf]

end Anywhere.Trojan
