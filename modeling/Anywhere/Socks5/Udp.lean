import Anywhere.Lib.ArrayReads
import Anywhere.Socks5.Handshake

/-!
# Anywhere — `SocksUdpConnection`

Datagrams go to the relay of a SOCKS5 proxy behind a header that names the destination, and come
back behind one that names their source, which may be any address. A call of `receiveRaw` passes
over what it cannot strip.

* `stripUdpHeader_iff` — what is stripped: a datagram that is no fragment and is not empty.
* `sendRaw_iff` — what a packet that is sent says, to whoever reads it.
* `receives_arrivals` — what the calls return, until the connection is cancelled and from then on.
-/

namespace Anywhere.Socks5

open Lib FakeIp Shadowsocks List

-- ----
-- The model

/-- The end of the header, by the type of its address. -/
def headerEnd (data : Bytes) : Except OutOfBounds (Option Nat) := do
  let atyp ← readByte data 3
  if atyp = 0x01 then .ok (some (4 + 4 + 2))
  else if atyp = 0x04 then .ok (some (4 + 16 + 2))
  else if atyp = 0x03 then
    if data.length < 5 then .ok none
    else (readByte data 4).map fun len => some (4 + 1 + len.toNat + 2)
  else .ok none

def stripUdpHeader (data : Bytes) : Except OutOfBounds (Option Bytes) :=
  if data.length < 4 then .ok none
  else do
    if (← readByte data 2) ≠ 0x00 then .ok none
    else
      match ← headerEnd data with
      | none => .ok none
      | some headerEnd =>
        if data.length ≤ headerEnd then .ok none
        else (readBytes data headerEnd (data.length - headerEnd)).map some

/-- What the loop meets at the socket: a datagram, an exception, or `cancel`, which closes it. What
is not yet read at a `cancel` is dropped, and no arrival. -/
inductive Arrival
  | packet (data : Bytes)
  | exception (message : String)
  | cancel
  deriving DecidableEq, Repr

namespace SocksUdpConnection

/-- The packet of `sendRaw`. -/
def sendRaw (inet : Net.Inet) (destinationHost : Text) (destinationPort : Nat)
    (data : Bytes) : Bytes :=
  udpHeader inet destinationHost destinationPort ++ data

/-- What a call returns or throws, and what is left; nothing, while it waits. The buffer of the
socket has 65536 bytes. -/
def receiveRaw : List Arrival → Option (Except String (Option Bytes) × List Arrival)
  | [] => none
  | .packet data :: arrivals =>
    match stripUdpHeader (data.take 65536) with
    | .ok none => receiveRaw arrivals
    | .ok (some payload) => some (.ok (some payload), arrivals)
    | .error _ => some (.error "ArrayIndexOutOfBoundsException", arrivals)
  | .exception message :: arrivals =>
      some (.error ("SOCKS5 UDP receive failed: " ++ message), arrivals)
  | .cancel :: arrivals => some (.ok none, .cancel :: arrivals)

/-- The results of `n` calls, without those that wait. -/
def receives : Nat → List Arrival → List (Except String (Option Bytes))
  | 0, _ => []
  | n + 1, arrivals =>
    match receiveRaw arrivals with
    | none => []
    | some (result, arrivals) => result :: receives n arrivals

end SocksUdpConnection

-- The relay's side

/-- A datagram of SOCKS5, with the address of the other side. -/
structure Datagram where
  reserved : UInt8 × UInt8
  fragment : UInt8
  address : BoundAddress
  port : UInt8 × UInt8
  data : Bytes

namespace Datagram

def header (d : Datagram) : Bytes :=
  [d.reserved.1, d.reserved.2, d.fragment, d.address.atyp] ++ d.address.wire ++ [d.port.1, d.port.2]

def wire (d : Datagram) : Bytes := d.header ++ d.data

end Datagram

/-- The destination of `encodeAddress`. -/
def destination (inet : Net.Inet) (host : Text) : BoundAddress :=
  match h4 : parseIPv4 host, h6 : parseIPv6 inet host with
  | some ipv4, _ => .ipv4 ⟨ipv4, Mux.length_parseIPv4 h4⟩
  | none, some ipv6 => .ipv6 ⟨ipv6, Net.length_parseIPv6 h6⟩
  | none, none => .domain ⟨(Vless.utf8Bytes host).take 255, List.length_take_le _ _⟩

-- ----
-- The header

namespace Datagram

theorem headerEnd_append (d : Datagram) (data : Bytes) :
    headerEnd (d.header ++ data) = .ok (some d.header.length) := by
  obtain ⟨reserved, fragment, address, port, _⟩ := d
  rcases address with bytes | bytes | bytes
  · simp [headerEnd, readByte, header, BoundAddress.atyp, BoundAddress.wire, bytes.2]
  · simp [headerEnd, readByte, header, BoundAddress.atyp, BoundAddress.wire, bytes.2]
  · have hbytes := bytes.2
    simp [headerEnd, readByte, Except.map, header, BoundAddress.atyp, BoundAddress.wire]
    rw [if_neg (by omega), Nat.mod_eq_of_lt (by omega)]
    congr 2
    omega

theorem strip_wire (d : Datagram) :
    stripUdpHeader d.wire = .ok (if d.fragment = 0 ∧ d.data ≠ [] then some d.data else none) := by
  have hfour : 4 ≤ d.wire.length := by simp [wire, header]
  have hfragment : readByte d.wire 2 = .ok d.fragment := rfl
  rw [stripUdpHeader, if_neg (Nat.not_lt.mpr hfour), hfragment, bind_ok]
  by_cases h0 : d.fragment = 0
  · rw [if_neg (not_not.mpr h0), wire, headerEnd_append, bind_ok]
    dsimp only
    rw [length_append]
    by_cases hdata : d.data = []
    · simp [hdata]
    · have hpos := length_pos_iff.mpr hdata
      rw [if_neg (by omega), if_pos ⟨h0, hdata⟩, readBytes_eq (by rw [length_append]; omega),
        drop_left, take_of_length_le (by omega)]
      rfl
  · rw [if_pos h0, if_neg fun h => h0 h.1]

end Datagram

/-- What is behind `n` bytes and a port. -/
theorem exists_port {rest : Bytes} {n : Nat} (h : n + 2 < rest.length) :
    ∃ (bytes : Bytes) (hi lo : UInt8), bytes.length = n ∧ rest = bytes ++ [hi, lo] ++ rest.drop
    (n + 2) := by
  have htwo : ((rest.drop n).take 2).length = 2 := by
    rw [length_take, length_drop]
    omega
  obtain ⟨hi, lo, hport⟩ := length_eq_two.mp htwo
  refine ⟨rest.take n, hi, lo, length_take_of_le (by omega), ?_⟩
  rw [← hport, append_assoc, ← drop_drop, take_append_drop, take_append_drop]

theorem drop_ne_nil {rest : Bytes} {n : Nat} (h : n < rest.length) : rest.drop n ≠ [] := by
  rw [ne_eq, drop_eq_nil_iff]
  omega

theorem strip_none {data : Bytes} (stop : Option Nat) (h : headerEnd data = .ok stop)
    (hshort : ∀ n ∈ stop, data.length ≤ n) : stripUdpHeader data = .ok none := by
  rw [stripUdpHeader]
  split_ifs with hfour
  · rfl
  · rw [readByte_eq (by omega), bind_ok, h, bind_ok]
    split_ifs
    · rfl
    · rcases stop with _ | n
      · rfl
      · exact if_pos (hshort n rfl)

/-- An array is dropped, or it is a datagram. -/
theorem dropped_or_datagram (data : Bytes) : stripUdpHeader data = .ok none ∨
    ∃ d : Datagram, d.fragment = 0 ∧ d.data ≠ [] ∧ d.wire = data := by
  by_cases hfour : data.length < 4
  · exact .inl (if_pos hfour)
  obtain ⟨r0, r1, fragment, atyp, rest, rfl⟩ : ∃ r0 r1 fragment atyp rest,
      data = r0 :: r1 :: fragment :: atyp :: rest := by
    rcases data with _ | ⟨r0, _ | ⟨r1, _ | ⟨fragment, _ | ⟨atyp, rest⟩⟩⟩⟩
    all_goals simp at hfour
    exact ⟨r0, r1, fragment, atyp, rest, rfl⟩
  by_cases hfragment : fragment = 0
  swap
  · exact .inl ((if_neg hfour).trans (if_pos hfragment))
  subst hfragment
  by_cases h4 : atyp = 0x01
  · subst h4
    by_cases hlen : 4 + 2 < rest.length
    · obtain ⟨bytes, hi, lo, hbytes, hrest⟩ := exists_port hlen
      exact .inr ⟨⟨(r0, r1), 0, .ipv4 ⟨bytes, hbytes⟩, (hi, lo), _⟩, rfl, drop_ne_nil hlen,
        congrArg (fun rest => r0 :: r1 :: 0 :: 0x01 :: rest) hrest.symm⟩
    · exact .inl (strip_none (some (4 + 4 + 2)) rfl (by simp; omega))
  by_cases h6 : atyp = 0x04
  · subst h6
    by_cases hlen : 16 + 2 < rest.length
    · obtain ⟨bytes, hi, lo, hbytes, hrest⟩ := exists_port hlen
      exact .inr ⟨⟨(r0, r1), 0, .ipv6 ⟨bytes, hbytes⟩, (hi, lo), _⟩, rfl, drop_ne_nil hlen,
        congrArg (fun rest => r0 :: r1 :: 0 :: 0x04 :: rest) hrest.symm⟩
    · exact .inl (strip_none (some (4 + 16 + 2)) rfl (by simp; omega))
  by_cases hdomain : atyp = 0x03
  · subst hdomain
    rcases rest with _ | ⟨len, rest⟩
    · exact .inl (strip_none none rfl (by simp))
    · by_cases hlen : len.toNat + 2 < rest.length
      · obtain ⟨bytes, hi, lo, hbytes, hrest⟩ := exists_port hlen
        have hlt := len.toNat_lt
        refine .inr ⟨⟨(r0, r1), 0, .domain ⟨bytes, by omega⟩, (hi, lo), _⟩, rfl,
          drop_ne_nil hlen, ?_⟩
        show r0 :: r1 :: 0 :: 0x03 :: UInt8.ofNat bytes.length :: (bytes ++ [hi, lo] ++ _) = _
        exact congrArg₂ (fun n rest => r0 :: r1 :: 0 :: 0x03 :: n :: rest)
          (by rw [hbytes, UInt8.ofNat_toNat]) hrest.symm
      · refine .inl (strip_none (some (4 + 1 + len.toNat + 2)) ?_ (by simp; omega))
        simp [headerEnd, readByte, Except.map]
  · exact .inl (strip_none none (by simp [headerEnd, readByte, h4, h6, hdomain]) (by simp))

/-- A datagram of the socket is stripped to a payload if and only if it is a datagram of SOCKS5 that
is no fragment and has that payload, which is not empty; whatever the address in it is. No read is
outside of the array. -/
theorem stripUdpHeader_iff (data payload : Bytes) :
    (∃ result, stripUdpHeader data = .ok result) ∧
    (stripUdpHeader data = .ok (some payload) ↔
      ∃ d : Datagram, d.fragment = 0 ∧ d.data = payload ∧ d.data ≠ [] ∧ d.wire = data) := by
  have hback : (∃ d : Datagram, d.fragment = 0 ∧ d.data = payload ∧ d.data ≠ [] ∧ d.wire = data) →
      stripUdpHeader data = .ok (some payload) := by
    rintro ⟨d, hfragment, rfl, hdata, rfl⟩
    rw [d.strip_wire, if_pos ⟨hfragment, hdata⟩]
  rcases dropped_or_datagram data with hnone | ⟨d, hfragment, hdata, rfl⟩
  · exact ⟨⟨_, hnone⟩, fun h => absurd (hnone.symm.trans h) (by simp), hback⟩
  · have hstrip : stripUdpHeader d.wire = .ok (some d.data) := by
      rw [d.strip_wire, if_pos ⟨hfragment, hdata⟩]
    refine ⟨⟨_, hstrip⟩, fun h => ⟨d, hfragment, ?_, hdata, rfl⟩, hback⟩
    exact Option.some.inj (Except.ok.inj (hstrip.symm.trans h))

theorem BoundAddress.ext {a a' : BoundAddress} (hatyp : a.atyp = a'.atyp)
    (hwire : a.wire = a'.wire) :
    a = a' := by
  rcases a with bytes | bytes | bytes
  · rcases a' with bytes' | bytes' | bytes'
    · exact congrArg BoundAddress.ipv4 (Subtype.ext hwire)
    · simp [BoundAddress.atyp] at hatyp
    · simp [BoundAddress.atyp] at hatyp
  · rcases a' with bytes' | bytes' | bytes'
    · simp [BoundAddress.atyp] at hatyp
    · exact congrArg BoundAddress.ipv6 (Subtype.ext hwire)
    · simp [BoundAddress.atyp] at hatyp
  · rcases a' with bytes' | bytes' | bytes'
    · simp [BoundAddress.atyp] at hatyp
    · simp [BoundAddress.atyp] at hatyp
    · exact congrArg BoundAddress.domain (Subtype.ext (cons.inj hwire).2)

theorem Datagram.wire_inj {d d' : Datagram} (h : d.wire = d'.wire) : d = d' := by
  have hlen : d.header.length = d'.header.length := by
    have hend := d.headerEnd_append d.data
    rw [show d.header ++ d.data = d'.header ++ d'.data from h, d'.headerEnd_append] at hend
    exact (Option.some.inj (Except.ok.inj hend)).symm
  obtain ⟨hheader, hdata⟩ := append_inj h hlen
  obtain ⟨hfront, hport⟩ := append_inj' hheader rfl
  obtain ⟨hfour, hwire⟩ := append_inj hfront rfl
  obtain ⟨⟨r0, r1⟩, fragment, address, ⟨hi, lo⟩, data⟩ := d
  obtain ⟨⟨r0', r1'⟩, fragment', address', ⟨hi', lo'⟩, data'⟩ := d'
  simp only [cons.injEq, and_true] at hfour hport
  obtain ⟨rfl, rfl, rfl, hatyp⟩ := hfour
  obtain ⟨rfl, rfl⟩ := hport
  obtain rfl : address = address' := BoundAddress.ext hatyp hwire
  obtain rfl : data = data' := hdata
  rfl

theorem encodeAddress_destination (inet : Net.Inet) (host : Text) :
    encodeAddress inet host = (destination inet host).atyp :: (destination inet host).wire := by
  unfold destination
  split
  · rename_i ipv4 h4
    have haddress : encodeAddress inet host = 0x01 :: ipv4 := by
      rw [encodeAddress, h4]
      rfl
    exact haddress
  · rename_i ipv6 h4 h6
    have haddress : encodeAddress inet host = 0x04 :: ipv6 := by
      rw [encodeAddress, h4, h6]
      rfl
    exact haddress
  · rename_i h4 h6
    have haddress : encodeAddress inet host = 0x03 :: UInt8.ofNat
        ((Vless.utf8Bytes host).take 255).length ::
        (Vless.utf8Bytes host).take 255 := by
      rw [encodeAddress, h4, h6]
      rfl
    exact haddress

namespace SocksUdpConnection

/-- A packet that is sent can be read in one way only: no fragment, to the destination, with the
port and the data. -/
theorem sendRaw_iff (inet : Net.Inet) (destinationHost : Text) (destinationPort : Nat)
    (data : Bytes) (d : Datagram) :
    d.wire = sendRaw inet destinationHost destinationPort data ↔
      d = ⟨(0, 0), 0, destination inet destinationHost,
        (UInt8.ofNat (destinationPort / 256), UInt8.ofNat destinationPort), data⟩ := by
  have hwire : sendRaw inet destinationHost destinationPort data =
      (⟨(0, 0), 0, destination inet destinationHost,
        (UInt8.ofNat (destinationPort / 256), UInt8.ofNat destinationPort), data⟩ :
        Datagram).wire := by
    rw [sendRaw, udpHeader, encodeAddress_destination]
    rfl
  rw [hwire]
  constructor
  · exact Datagram.wire_inj
  · rintro rfl
    rfl

-- ----
-- Receiving

/-- What a call that comes to it makes of an arrival. -/
def result : Arrival → Option (Except String (Option Bytes))
  | .packet data =>
    match stripUdpHeader (data.take 65536) with
    | .ok payload => payload.map fun payload => .ok (some payload)
    | .error _ => some (.error "ArrayIndexOutOfBoundsException")
  | .exception message => some (.error ("SOCKS5 UDP receive failed: " ++ message))
  | .cancel => some (.ok none)

theorem receives_cons {arrival : Arrival} (h : arrival ≠ Arrival.cancel) (n : Nat)
    (arrivals : List Arrival) :
    receives (n + 1) (arrival :: arrivals) =
      (result arrival).elim (receives (n + 1) arrivals) fun r => r :: receives n arrivals := by
  cases arrival with
  | packet data =>
    rcases hstrip : stripUdpHeader (data.take 65536) with _ | _ | payload
    · rw [result, hstrip, receives, receiveRaw, hstrip]
      rfl
    · rw [result, hstrip, receives, receiveRaw, hstrip]
      rfl
    · rw [result, hstrip, receives, receiveRaw, hstrip]
      rfl
  | exception message => rfl
  | cancel => exact absurd rfl h

/-- In every run: the calls return the payloads of what can be stripped and throw the exceptions of
the socket, in the order of their arrival, and once the connection is cancelled they return
nothing. -/
theorem receives_arrivals (n : Nat) (arrivals : List Arrival) :
    receives n arrivals = ((arrivals.takeWhile (· ≠ Arrival.cancel)).filterMap result ++
      if Arrival.cancel ∈ arrivals then replicate n (Except.ok none) else []).take n := by
  induction n generalizing arrivals with
  | zero => rw [take_zero, receives]
  | succ n ih =>
    induction arrivals with
    | nil => rfl
    | cons arrival arrivals iha =>
      by_cases hcancel : arrival = Arrival.cancel
      · subst hcancel
        rw [receives, receiveRaw]
        dsimp only
        rw [ih]
        simp [replicate_succ]
      · rw [receives_cons hcancel, takeWhile_cons_of_pos (by simpa using hcancel)]
        simp only [mem_cons, Ne.symm hcancel, false_or]
        rcases hresult : result arrival with _ | r
        · rw [filterMap_cons_none hresult, ← iha]
          rfl
        · rw [filterMap_cons_some hresult, Option.elim_some, ih, cons_append, take_succ_cons]
          generalize (arrivals.takeWhile (· ≠ Arrival.cancel)).filterMap result = results
          split_ifs
          · have hlong : n ≤ (results ++ replicate n (Except.ok none)).length := by simp
            rw [replicate_succ', ← append_assoc, take_append_of_le_length hlong]
          · rfl

end SocksUdpConnection

end Anywhere.Socks5
