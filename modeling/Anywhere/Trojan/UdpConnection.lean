import Anywhere.Trojan.Protocol

/-!
# Anywhere — `TrojanUdpConnection`

Outgoing datagrams are framed one by one, the first behind the header of the request.
Incoming bytes are buffered until a packet is complete. `TlsRecordConnection.receive`
returns decrypted bytes or null, never an empty array.

* `udp_round_trip` — so are all of them, and the decoder behaves on every buffer.
-/

namespace Anywhere.Trojan

open Lib List

-- ----
-- The model

def commandUdp : UInt8 := 0x03

def frame (inet : Net.Inet) (passwordKey : Bytes) (dstHost : Text) (dstPort : Nat)
    (headerSent : Bool) (payload : Bytes) : Bytes × Bool :=
  let packet := encodeUDPPacket inet dstHost dstPort payload
  if headerSent then (packet, true)
  else (buildRequestHeader inet passwordKey commandUdp dstHost dstPort ++ packet, true)

/-- The receiving side: the buffer and what the TLS connection has yet to return. -/
structure Receiver where
  receiveBuffer : Bytes := []
  reads : List Bytes

/-- The loop of `deliverNextPacket` over the reads; null at the end of the stream. -/
def deliver : Bytes → List Bytes → Except Fault (Option Bytes × Receiver)
  | receiveBuffer, reads =>
    match tryDecodeUDPPacket receiveBuffer with
    | .error fault => .error fault
    | .ok (some parsed) => .ok (some parsed.payload, ⟨receiveBuffer.drop parsed.consumed, reads⟩)
    | .ok none =>
      match reads with
      | [] => .ok (none, ⟨receiveBuffer, []⟩)
      | data :: reads =>
        if data = [] then .ok (none, ⟨receiveBuffer, reads⟩)
        else deliver (if receiveBuffer = [] then data else receiveBuffer ++ data) reads

/-- `deliverNextPacket`, which is `receiveRaw`. -/
def deliverNextPacket (r : Receiver) : Except Fault (Option Bytes × Receiver) :=
  deliver r.receiveBuffer r.reads

/-- The results of `n` calls of `receiveRaw`. -/
def receives : Nat → Receiver → Except Fault (List (Option Bytes))
  | 0, _ => return []
  | n + 1, r => do
    let (result, r) ← deliverNextPacket r
    let results ← receives n r
    return result :: results

-- ----
-- One packet

theorem deliver_none {buffer data : Bytes} (h : tryDecodeUDPPacket buffer = .ok none)
    (hne : data ≠ []) (reads : List Bytes) :
    deliver buffer (data :: reads) = deliver (buffer ++ data) reads := by
  rw [deliver, h]
  show (if data = [] then _ else deliver (if buffer = [] then data else buffer ++ data) reads) = _
  rw [if_neg hne]
  by_cases hbuffer : buffer = []
  · rw [if_pos hbuffer, hbuffer]
    rfl
  · rw [if_neg hbuffer]

theorem deliver_some {buffer : Bytes} {parsed : DecodedPacket}
    (h : tryDecodeUDPPacket buffer = .ok (some parsed)) (reads : List Bytes) :
    deliver buffer reads = .ok (some parsed.payload, ⟨buffer.drop parsed.consumed, reads⟩) := by
  unfold deliver
  rw [h]

/-- The next packet of the stream is delivered, however the stream is cut. -/
theorem deliver_stream {wire payload more : Bytes} (hpacket : Packet wire payload) {buffer : Bytes}
    {reads : List Bytes} (hreads : ∀ data ∈ reads, data ≠ [])
    (hstream : buffer ++ reads.flatten = wire ++ more) :
    ∃ r : Receiver, deliver buffer reads = .ok (some payload, r) ∧ (∀ data ∈ r.reads, data ≠ []) ∧
      r.receiveBuffer ++ r.reads.flatten = more := by
  have hwhole := tryDecodeUDPPacket_packet hpacket more
  rw [← hstream] at hwhole
  induction reads generalizing buffer with
  | nil =>
    rw [flatten_nil, append_nil] at hwhole hstream
    refine ⟨_, deliver_some hwhole [], hreads, ?_⟩
    rw [hstream]
    simp
  | cons data reads ih =>
    by_cases hnone : tryDecodeUDPPacket buffer = .ok none
    · rw [deliver_none hnone (hreads data (by simp))]
      rw [flatten_cons, ← append_assoc] at hstream hwhole
      exact ih (fun d hd => hreads d (by simp [hd])) hstream hwhole
    · -- decided within the buffer, so decided as for the whole stream
      have hbuffer := tryDecodeUDPPacket_append hnone (data :: reads).flatten
      rw [hwhole] at hbuffer
      have hle := (tryDecodeUDPPacket_some hbuffer.symm).1
      refine ⟨_, deliver_some hbuffer.symm (data :: reads), hreads, ?_⟩
      have hdrop := congrArg (List.drop wire.length) hstream
      rwa [drop_append_of_le_length hle, drop_left] at hdrop

theorem deliver_end (reads : List Bytes) (hreads : reads.flatten = [])
    (hne : ∀ data ∈ reads, data ≠ []) :
    deliver [] reads = .ok (none, ⟨[], []⟩) := by
  rcases reads with _ | ⟨data, reads⟩
  · rfl
  · rw [flatten_cons, append_eq_nil_iff] at hreads
    exact absurd hreads.1 (hne data (by simp))

-- ----
-- All packets

theorem receives_stream (inet : Net.Inet) (host : Text) (port : Nat) {datagrams : List Bytes}
    (hdatagrams : ∀ d ∈ datagrams, d.length ≤ maxUdpPayloadLength) (n : Nat) {r : Receiver}
    (hreads : ∀ data ∈ r.reads, data ≠ [])
    (hstream : r.receiveBuffer ++ r.reads.flatten = datagrams.flatMap
      (encodeUDPPacket inet host port)) :
    receives n r = .ok ((datagrams.map some ++ List.replicate n none).take n) := by
  induction n generalizing datagrams r with
  | zero => simp [receives, pure, Except.pure]
  | succ n ih =>
    rcases datagrams with _ | ⟨datagram, datagrams⟩
    · obtain ⟨hbuffer, hflat⟩ := append_eq_nil_iff.1 hstream
      rw [receives, deliverNextPacket, hbuffer, deliver_end r.reads hflat hreads]
      show (receives n ⟨[], []⟩ >>= _) = _
      rw [@ih [] (by simp) ⟨[], []⟩ (by simp) rfl]
      simp [replicate_succ, bind, Except.bind, pure, Except.pure]
    · rw [flatMap_cons] at hstream
      obtain ⟨r', hdeliver, hreads', hmore⟩ :=
        deliver_stream (encodeUDPPacket_packet inet host port (hdatagrams datagram (by simp)))
          hreads
          hstream
      rw [receives, deliverNextPacket, hdeliver]
      show (receives n r' >>= _) = _
      rw [@ih datagrams (fun d hd => hdatagrams d (by simp [hd])) r' hreads' hmore]
      simp [take_append, replicate_succ', bind, Except.bind, pure, Except.pure]

/-- Datagrams come out of the connection as they were encoded, however their stream is
cut; and the decoder, on any buffer, stays within it, returns a packet that is there,
consumes that packet and would not have returned it from less. -/
theorem udp_round_trip (inet : Net.Inet) (host : Text) (port : Nat) :
    (∀ (datagrams chunks : List Bytes),
      (∀ d ∈ datagrams, 1 ≤ d.length ∧ d.length ≤ maxUdpPayloadLength) →
      (∀ chunk ∈ chunks, chunk ≠ []) →
      chunks.flatten = datagrams.flatMap (encodeUDPPacket inet host port) →
      ∀ n, receives n ⟨[], chunks⟩ = .ok ((datagrams.map some ++ List.replicate n none).take n)) ∧
    ∀ buffer : Bytes,
      tryDecodeUDPPacket buffer ≠ .error .indexOutOfBounds ∧
      ∀ payload consumed, tryDecodeUDPPacket buffer = .ok (some ⟨payload, consumed⟩) →
        consumed ≤ buffer.length ∧ Packet (buffer.take consumed) payload ∧
        (∀ more, tryDecodeUDPPacket (buffer.take consumed ++ more) =
          .ok (some ⟨payload, consumed⟩)) ∧
        ∀ i < consumed, tryDecodeUDPPacket (buffer.take i) = .ok none := by
  refine ⟨?_, ?_⟩
  · intro datagrams chunks hdatagrams hchunks hflat n
    exact receives_stream inet host port (fun d hd => (hdatagrams d hd).2) n hchunks hflat
  · intro buffer
    refine ⟨tryDecodeUDPPacket_bounds buffer, fun payload consumed h => ?_⟩
    obtain ⟨hle, -, hpacket⟩ := tryDecodeUDPPacket_some h
    refine ⟨hle, hpacket, fun more => ?_, fun i hi => tryDecodeUDPPacket_short h hi⟩
    rw [tryDecodeUDPPacket_packet hpacket, length_take, Nat.min_eq_left hle]

/-- Two datagrams for a domain, cut within the address and within the second length. -/
theorem udp_round_trip_cut :
    ([[3, 1], [97, 0, 53, 0, 1, 13, 10, 7, 3, 1, 97, 0, 53, 0], [2, 13, 10, 8, 9]] :
      List Bytes).flatten =
      [[7], [8, 9]].flatMap (encodeUDPPacket ⟨fun _ => none⟩ ['a'] 53) ∧
    ∀ n, receives n ⟨[], [[3, 1], [97, 0, 53, 0, 1, 13, 10, 7, 3, 1, 97, 0, 53, 0],
        [2, 13, 10, 8, 9]]⟩ =
        .ok ((([[7], [8, 9]] : List Bytes).map some ++ List.replicate n none).take n) := by
  have hflat : ([[3, 1], [97, 0, 53, 0, 1, 13, 10, 7, 3, 1, 97, 0, 53, 0], [2, 13, 10, 8, 9]] :
      List Bytes).flatten = [[7], [8, 9]].flatMap (encodeUDPPacket ⟨fun _ => none⟩ ['a'] 53) := by
    decide
  exact ⟨hflat, (udp_round_trip ⟨fun _ => none⟩ ['a'] 53).1 [[7], [8, 9]] _ (by decide)
    (by decide) hflat⟩

end Anywhere.Trojan
