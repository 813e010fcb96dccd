import Mathlib.Data.List.GetD
import Anywhere.Config

/-!
# Anywhere — `lwip_bridge_input`

The destination of a UDP datagram is captured in two globals before lwIP gets the packet, and
`udp_recv_cb` reads them. The capture looks at the IP header only; lwIP also walks the extension
headers of IPv6. What lwIP checks besides the headers (the addresses, the options in an
extension header, its PCBs) is an answer for each packet.

* `udp_destination_iff` — in a run, when each upcall gets the destination of its own packet.
-/

namespace Anywhere.Stack

open List

-- ----
-- The model

/-- The byte at an offset; the code looks behind the bytes only where they are counted. -/
def byteAt (p : Bytes) (i : Nat) : UInt8 := p.getD i 0

/-- Two bytes, most significant first. -/
def be16At (p : Bytes) (i : Nat) : Nat := (byteAt p i).toNat * 256 + (byteAt p (i + 1)).toNat

def ipVersion (p : Bytes) : Nat := (byteAt p 0).toNat / 16

/-- The header length of IPv4 in bytes. -/
def ihl (p : Bytes) : Nat := (byteAt p 0).toNat % 16 * 4

/-- An address with its family, and a port. -/
structure Endpoint where
  isIpv6 : Bool
  address : Bytes
  port : Nat
  deriving DecidableEq

/-- `s_current_udp_dst_ip` and `s_current_udp_dst_port` before the first packet. -/
def Endpoint.zero : Endpoint := ⟨false, [0, 0, 0, 0], 0⟩

/-- The first part of `lwip_bridge_input`: the globals behind it; none where it returns. -/
def capture (current : Endpoint) (pkt : Bytes) : Option Endpoint :=
  if ipVersion pkt = 4 ∧ pkt.length ≥ 20 then
    if byteAt pkt 9 = 17 ∧ pkt.length ≥ ihl pkt + 8 then
      some ⟨false, (pkt.drop 16).take 4, be16At pkt (ihl pkt + 2)⟩
    else some current
  else if ipVersion pkt = 6 ∧ pkt.length ≥ 40 then
    if byteAt pkt 6 = 17 ∧ pkt.length ≥ 48 then
      some ⟨true, (pkt.drop 24).take 16, be16At pkt 42⟩
    else some current
  else none

/-- A datagram as `udp_input` finds it. -/
structure Datagram where
  source : Endpoint
  destination : Endpoint
  payload : Bytes
  deriving DecidableEq

def udpInput (isIpv6 : Bool) (src dst p : Bytes) : Option Datagram :=
  if p.length < 8 then none
  else some ⟨⟨isIpv6, src, be16At p 0⟩, ⟨isIpv6, dst, be16At p 2⟩, p.drop 8⟩

def ip4Input (p : Bytes) : Option Datagram :=
  let len := be16At p 2
  let trimmed := p.take len
  if ipVersion p ≠ 4 then none
  else if ihl p > trimmed.length ∨ len > trimmed.length ∨ ihl p < 20 then none
  else if be16At p 6 % 0x4000 ≠ 0 then none
  else if ihl p > 20 then none
  else if byteAt p 9 = 17 then
    udpInput false ((p.drop 12).take 4) ((p.drop 16).take 4) (trimmed.drop (ihl p))
  else none

/-- The loop of `ip6_input` over the extension headers: what `udp_input` is given. A header has
at least eight bytes. -/
def skipHeaders : Nat → UInt8 → Bytes → Option Bytes
  | 0, _, _ => none
  | n + 1, nexth, p =>
    if nexth = 17 then some p
    else if nexth = 0 ∨ nexth = 60 ∨ nexth = 43 then
      let hlen := 8 * (1 + (byteAt p 1).toNat)
      if p.length < 8 ∨ hlen > p.length then none
      -- Hop-by-Hop header comes only as a first option
      else if byteAt p 0 = 0 then none
      else skipHeaders n (byteAt p 0) (p.drop hlen)
    else if nexth = 44 then
      if p.length < 8 then none
      -- only a packet of one fragment
      else if be16At p 2 % 8 % 2 + be16At p 2 / 8 ≠ 0 then none
      else if byteAt p 0 = 0 then none
      else skipHeaders n (byteAt p 0) (p.drop 8)
    else none

def ip6Input (p : Bytes) : Option Datagram :=
  if p.length < 40 ∨ be16At p 4 > p.length - 40 then none
  else
    let payload := (p.take (40 + be16At p 4)).drop 40
    (skipHeaders (payload.length + 1) (byteAt p 6) payload).bind
      (udpInput true ((p.drop 8).take 16) ((p.drop 24).take 16))

def ipInput (p : Bytes) : Option Datagram :=
  if ipVersion p = 6 then ip6Input p else ip4Input p

/-- What `s_udp_recv_fn` is called with. -/
structure Upcall where
  src : Bytes
  srcPort : Nat
  dst : Bytes
  dstPort : Nat
  isIpv6 : Bool
  data : Bytes
  deriving DecidableEq

/-- `udp_recv_cb`; the family that is passed is that of the destination. -/
def udpRecvCb (current : Endpoint) (d : Datagram) : Upcall :=
  ⟨d.source.address, d.source.port, current.address, current.port, current.isIpv6, d.payload⟩

def Upcall.destination (u : Upcall) : Endpoint := ⟨u.isIpv6, u.dst, u.dstPort⟩

/-- A packet, and whether lwIP takes it as far as the callback, when it is a datagram. -/
structure Input where
  packet : Bytes
  accepted : Bool

/-- What lwIP sees of a packet: the length of a pbuf has 16 bits. -/
def Input.pbuf (input : Input) : Bytes := input.packet.take (input.packet.length % 65536)

def Input.delivered (input : Input) : Option Datagram :=
  if input.accepted then ipInput input.pbuf else none

def lwipBridgeInput (current : Endpoint) (input : Input) : Endpoint × Option Upcall :=
  match capture current input.packet with
  | none => (current, none)
  | some captured => (captured, input.delivered.map (udpRecvCb captured))

/-- A call of `lwip_bridge_input`, with the globals in front of it and the upcall. -/
structure BridgeCall where
  before : Endpoint
  input : Input
  upcall : Option Upcall

def bridgeCalls : Endpoint → List Input → List BridgeCall
  | _, [] => []
  | current, input :: inputs =>
    ⟨current, input, (lwipBridgeInput current input).2⟩ ::
      bridgeCalls (lwipBridgeInput current input).1 inputs

-- ----
-- Bytes of a part of a packet

section

variable {p : Bytes} {n i : Nat}

theorem byteAt_take (h : i < n) : byteAt (p.take n) i = byteAt p i := by
  rw [byteAt, byteAt, List.getD_eq_getElem?_getD, List.getD_eq_getElem?_getD,
    List.getElem?_take_of_lt h]

theorem byteAt_drop : byteAt (p.drop n) i = byteAt p (n + i) := by
  rw [byteAt, byteAt, List.getD_eq_getElem?_getD, List.getD_eq_getElem?_getD, List.getElem?_drop]

theorem be16At_take (h : i + 1 < n) : be16At (p.take n) i = be16At p i := by
  rw [be16At, be16At, byteAt_take (Nat.lt_of_succ_lt h), byteAt_take h]

theorem be16At_drop : be16At (p.drop n) i = be16At p (n + i) := by
  rw [be16At, be16At, byteAt_drop, byteAt_drop, Nat.add_assoc]

theorem ipVersion_take (h : 0 < n) : ipVersion (p.take n) = ipVersion p := by
  rw [ipVersion, ipVersion, byteAt_take h]

theorem slice_take {k m : Nat} (h : k + m ≤ n) :
    ((p.take n).drop k).take m = (p.drop k).take m := by
  rw [drop_take, take_take, Nat.min_eq_left (by omega)]

end

-- ----
-- One packet

variable {d : Datagram}

theorem udpInput_some {isIpv6 : Bool} {src dst p : Bytes}
    (h : udpInput isIpv6 src dst p = some d) :
    8 ≤ p.length ∧ d.destination = ⟨isIpv6, dst, be16At p 2⟩ := by
  rw [udpInput] at h
  split at h
  · cases h
  · rename_i hlen
    cases h
    exact ⟨Nat.le_of_not_lt hlen, rfl⟩

variable {n : Nat} {pkt : Bytes}

/-- The destination of a datagram of IPv4 is captured. -/
theorem capture_of_ip4Input (current : Endpoint)
    (h : ip4Input (pkt.take n) = some d) : capture current pkt = some d.destination := by
  unfold ip4Input at h
  simp only at h
  split at h
  · cases h
  rename_i hversion
  split at h
  · cases h
  rename_i hlengths
  split at h
  · cases h
  split at h
  · cases h
  rename_i hoptions
  split at h
  · rename_i hproto
    obtain ⟨hudp, hdestination⟩ := udpInput_some h
    have hihl : ihl (pkt.take n) = 20 := by omega
    rw [hihl, length_drop] at hudp
    have hlength : 28 ≤ (pkt.take n).length := by
      rw [length_take] at hudp
      omega
    rw [length_take] at hlength
    have hn : 28 ≤ n := by omega
    have hversion : ipVersion pkt = 4 := by
      rw [← ipVersion_take (n := n) (by omega)]
      exact not_not.mp hversion
    have hproto : byteAt pkt 9 = 17 := by
      rw [← byteAt_take (n := n) (by omega)]
      exact hproto
    have hihl' : ihl pkt = 20 := by
      rw [← hihl, ihl, ihl, byteAt_take (by omega)]
    -- the port of the trimmed packet is the port of the packet
    have hport : d.destination = ⟨false, (pkt.drop 16).take 4, be16At pkt 22⟩ := by
      rw [length_take] at hudp
      rw [hdestination, slice_take (by omega), hihl, be16At_drop, be16At_take (by omega),
        be16At_take (by omega)]
    rw [capture, if_pos ⟨hversion, by omega⟩, if_pos ⟨hproto, by omega⟩, hihl', hport]
  · cases h

/-- The next header field of IPv6. -/
def nextHeader (p : Bytes) : UInt8 := byteAt p 6

theorem ip6Input_some (h : ip6Input (pkt.take n) = some d) :
    40 ≤ n ∧ 40 ≤ pkt.length ∧ d.destination.isIpv6 = true ∧
      (nextHeader pkt = 17 → 48 ≤ pkt.length ∧
        d.destination = ⟨true, (pkt.drop 24).take 16, be16At pkt 42⟩) := by
  unfold ip6Input at h
  split at h
  · cases h
  rename_i hlengths
  have hlength : 40 ≤ (pkt.take n).length := by omega
  rw [length_take] at hlength
  obtain ⟨p, hskip, hudp⟩ := Option.bind_eq_some_iff.mp h
  obtain ⟨hp, hdestination⟩ := udpInput_some hudp
  refine ⟨by omega, by omega, by rw [hdestination], ?_⟩
  intro hnext
  have hproto : byteAt (pkt.take n) 6 = 17 := by
    rw [byteAt_take (by omega)]
    exact hnext
  rw [skipHeaders, if_pos hproto] at hskip
  obtain rfl := Option.some.inj hskip
  rw [length_drop, length_take, length_take] at hp
  refine ⟨by omega, ?_⟩
  rw [hdestination, slice_take (by omega), be16At_drop, be16At_take (by omega),
    be16At_take (by omega)]

/-- The destination of a datagram right behind the header of IPv6 is captured. -/
theorem capture_of_ip6Input (current : Endpoint)
    (hversion : ipVersion pkt = 6) (hnext : nextHeader pkt = 17)
    (h : ip6Input (pkt.take n) = some d) : capture current pkt = some d.destination := by
  obtain ⟨-, hlength, -, hdirect⟩ := ip6Input_some h
  obtain ⟨hlong, hdestination⟩ := hdirect hnext
  have hnot4 : ¬ (ipVersion pkt = 4 ∧ pkt.length ≥ 20) := fun h4 => by omega
  rw [capture, if_neg hnot4, if_pos ⟨hversion, hlength⟩, if_pos ⟨hnext, hlong⟩, hdestination]

/-- A datagram behind an extension header leaves the globals. -/
theorem capture_behind_extension (current : Endpoint)
    (hversion : ipVersion pkt = 6) (hnext : nextHeader pkt ≠ 17)
    (h : ip6Input (pkt.take n) = some d) : capture current pkt = some current := by
  obtain ⟨-, hlength, -, -⟩ := ip6Input_some h
  have hnot4 : ¬ (ipVersion pkt = 4 ∧ pkt.length ≥ 20) := fun h4 => by omega
  rw [capture, if_neg hnot4, if_pos ⟨hversion, hlength⟩, if_neg fun hudp => hnext hudp.1]

/-- The UDP header stands right behind the IP header. -/
def Direct (p : Bytes) : Prop := ipVersion p = 6 → nextHeader p = 17

/-- What the upcall of a datagram gets: its own destination, or what was captured before. -/
theorem lwipBridgeInput_delivered (current : Endpoint) {input : Input}
    (h : input.delivered = some d) :
    ∃ u, (lwipBridgeInput current input).2 = some u ∧
      (Direct input.packet → u.destination = d.destination) ∧
      (¬ Direct input.packet → u.destination = current) := by
  have hin : ipInput input.pbuf = some d := by
    rw [Input.delivered] at h
    split at h
    · exact h
    · cases h
  have hpositive : 0 < input.packet.length % 65536 := by
    rw [Nat.pos_iff_ne_zero]
    intro hzero
    rw [Input.pbuf, hzero, take_zero] at hin
    cases hin
  rw [ipInput, Input.pbuf, ipVersion_take hpositive] at hin
  have hupcall : ∀ captured, capture current input.packet = some captured →
      (lwipBridgeInput current input).2 = some (udpRecvCb captured d) := by
    intro captured hcaptured
    rw [lwipBridgeInput, hcaptured, h]
    rfl
  split at hin
  · rename_i hversion
    by_cases hnext : nextHeader input.packet = 17
    · exact ⟨_, hupcall _ (capture_of_ip6Input current hversion hnext hin), fun _ => rfl,
        fun hnot => absurd (fun _ => hnext) hnot⟩
    · exact ⟨_, hupcall _ (capture_behind_extension current hversion hnext hin),
        fun hdirect => absurd (hdirect hversion) hnext, fun _ => rfl⟩
  · rename_i hversion
    exact ⟨_, hupcall _ (capture_of_ip4Input current hin), fun _ => rfl,
      fun hnot => absurd (fun h6 => absurd h6 hversion) hnot⟩

-- ----
-- Runs

theorem mem_bridgeCalls {current : Endpoint} {inputs : List Input} {call : BridgeCall}
    (h : call ∈ bridgeCalls current inputs) :
    call.upcall = (lwipBridgeInput call.before call.input).2 := by
  induction inputs generalizing current with
  | nil => cases h
  | cons input inputs ih =>
    rcases mem_cons.mp h with rfl | h
    · rfl
    · exact ih h

/-- In a run each upcall gets the destination of the datagram in its packet, if and only if each
datagram stands right behind its IP header, or has the destination that is in the globals. -/
theorem udp_destination_iff (inputs : List Input) :
    (∀ call ∈ bridgeCalls .zero inputs, ∀ d u, call.input.delivered = some d →
        call.upcall = some u → u.destination = d.destination) ↔
    ∀ call ∈ bridgeCalls .zero inputs, ∀ d, call.input.delivered = some d →
      Direct call.input.packet ∨ call.before = d.destination := by
  refine forall₂_congr fun call hcall => forall_congr' fun d => ?_
  constructor
  · intro h hdelivered
    obtain ⟨u, hupcall, -, hstale⟩ := lwipBridgeInput_delivered call.before hdelivered
    by_cases hdirect : Direct call.input.packet
    · exact Or.inl hdirect
    · refine Or.inr ?_
      rw [← hstale hdirect]
      exact h u hdelivered (by rw [mem_bridgeCalls hcall, hupcall])
  · intro h u hdelivered hu
    obtain ⟨u', hupcall, hown, hstale⟩ := lwipBridgeInput_delivered call.before hdelivered
    rw [mem_bridgeCalls hcall, hupcall] at hu
    cases hu
    by_cases hdirect : Direct call.input.packet
    · exact hown hdirect
    · rw [hstale hdirect]
      exact (h hdelivered).resolve_left hdirect

/-- An empty datagram from ::1 to 2::2, port 53, behind a destination options header with
padding. -/
def behindOptions : Bytes :=
  [0x60, 0, 0, 0, 0, 16, 60, 64] ++ (List.replicate 15 0 ++ [1]) ++
    ([0, 2] ++ List.replicate 13 0 ++ [2]) ++ [17, 0, 1, 4, 0, 0, 0, 0] ++ [0, 7, 0, 53, 0, 8, 0, 0]

/-- The upcall for it says 0.0.0.0, port 0. -/
theorem udp_destination_of_behindOptions : ¬ ∀ inputs : List Input,
    ∀ call ∈ bridgeCalls .zero inputs, ∀ d u, call.input.delivered = some d →
      call.upcall = some u → u.destination = d.destination := by
  intro h
  have hcall := h [⟨behindOptions, true⟩] _ mem_cons_self
    ⟨⟨true, List.replicate 15 0 ++ [1], 7⟩, ⟨true, [0, 2] ++ List.replicate 13 0 ++ [2], 53⟩, []⟩
    ⟨List.replicate 15 0 ++ [1], 7, [0, 0, 0, 0], 0, false, []⟩
    (by decide) (by decide)
  exact absurd hcall (by decide)

end Anywhere.Stack
