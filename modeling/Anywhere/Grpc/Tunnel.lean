import Anywhere.Lib.Http2
import Anywhere.Grpc.Message

/-!
# Anywhere — `GrpcConnection`: receiving

The stream of a call comes in four layers: what the transport delivers is cut into HTTP/2 frames,
the DATA frames among them are put together to messages, and these hold the payloads. Two buffers
keep what is incomplete, and both are bounded.

* `receive` — one call, over any frames.
* `tunnel_round_trip` — the payloads, as long as neither buffer overflows.
* `large_frame_not_received` — a frame that does not fit into the first buffer.
-/

namespace Anywhere.Grpc

open Lib List
open Naive (int32 uint32 int32_of_nat)

-- ----
-- The connection

def streamId : Nat := 1

def maxH2ReadBufferSize : Nat := 2097152

def maxGrpcFrameBufferSize : Nat := 16777216

/-- `H2_FLAG_END_STREAM` and `H2_FLAG_ACK`. -/
def flag : Nat := 0x01

structure GrpcConnection where
  h2ReadBuffer : Bytes := []
  grpcFrameBuffer : Bytes := []
  decodedBuffer : Bytes := []
  h2ResponseReceived : Bool := false
  h2StreamClosed : Bool := false
  h2PeerConnectionWindow : Int := 65535
  h2PeerStreamSendWindow : Int := 65535
  h2PeerInitialWindowSize : Int := 65535
  h2MaxFrameSize : Int := 16384
  h2LocalWindowSize : Int := 4194304
  h2ConnectionReceiveConsumed : Int := 0
  h2StreamReceiveConsumed : Int := 0
  /-- What `receive` has written to the transport. -/
  written : List RawFrame := []

def buildH2Frame (type flags : UInt8) (streamId : Nat) (payload : Bytes) : Bytes :=
  RawFrame.bytes ⟨type, flags, streamId, payload⟩

def parseH2FrameLocked (h2ReadBuffer : Bytes) : Option (RawFrame × Bytes) :=
  RawFrame.take h2ReadBuffer

/-- The loop of `readH2Frame`; `incoming` is what the transport delivers. -/
def readMore (h2ReadBuffer : Bytes) : List Bytes → Bytes × List Bytes × Except Failure RawFrame
  | [] => (h2ReadBuffer, [], .error .connectionClosed)
  | data :: incoming =>
    if data = [] then (h2ReadBuffer, incoming, .error .connectionClosed)
    else if maxH2ReadBufferSize < (h2ReadBuffer ++ data).length then
      ([], incoming, .error .connectionClosed)
    else
      match parseH2FrameLocked (h2ReadBuffer ++ data) with
      | some (frame, rest) => (rest, incoming, .ok frame)
      | none => readMore (h2ReadBuffer ++ data) incoming

def readH2Frame (h2ReadBuffer : Bytes) (incoming : List Bytes) :
    Bytes × List Bytes × Except Failure RawFrame :=
  match parseH2FrameLocked h2ReadBuffer with
  | some (frame, rest) => (rest, incoming, .ok frame)
  | none => readMore h2ReadBuffer incoming

namespace GrpcConnection

def parseH2Settings : Bytes → GrpcConnection → GrpcConnection
  | i0 :: i1 :: v0 :: v1 :: v2 :: v3 :: rest, c =>
    let value := int32 (uint32 v0 v1 v2 v3)
    match i0.toNat * 256 + i1.toNat with
    | 0x04 =>
      parseH2Settings rest
        { c with
          h2PeerInitialWindowSize := value
          h2PeerStreamSendWindow :=
            int32 (c.h2PeerStreamSendWindow + int32 (value - c.h2PeerInitialWindowSize)) }
    | 0x05 => parseH2Settings rest { c with h2MaxFrameSize := value }
    | _ => parseH2Settings rest c
  | _, c => c

/-- The increment of `handleWindowUpdate`. -/
def windowIncrement : Bytes → Nat
  | b0 :: b1 :: b2 :: b3 :: _ => uint32 b0 b1 b2 b3 % 0x80000000
  | _ => 0

/-- `handleWindowUpdate`, as far as it concerns the windows. -/
def handleWindowUpdate (frame : RawFrame) (c : GrpcConnection) : GrpcConnection :=
  if frame.streamID = 0 then
    { c with
      h2PeerConnectionWindow := int32 (c.h2PeerConnectionWindow + windowIncrement frame.payload) }
  else if frame.streamID = streamId then
    { c with
      h2PeerStreamSendWindow := int32 (c.h2PeerStreamSendWindow + windowIncrement frame.payload) }
  else c

def write (frames : List RawFrame) (c : GrpcConnection) : GrpcConnection :=
  { c with written := c.written ++ frames }

def windowUpdateFrame (streamId : Nat) (increment : Int) : RawFrame :=
  ⟨0x08, 0, streamId, RawFrame.bigEndian 4 (increment % 0x100000000).toNat⟩

def emitWindowUpdatesIfNeeded (receivedBytes : Nat) (onOurStream : Bool) (c : GrpcConnection) :
    GrpcConnection :=
  if receivedBytes = 0 then c
  else
    let connection := int32 (c.h2ConnectionReceiveConsumed + receivedBytes)
    let stream := if onOurStream then int32 (c.h2StreamReceiveConsumed + receivedBytes)
      else c.h2StreamReceiveConsumed
    let threshold := c.h2LocalWindowSize.tdiv 2
    let cInc := if threshold ≤ connection then connection else 0
    let sInc := if onOurStream = true ∧ threshold ≤ stream then stream else 0
    { c with
      h2ConnectionReceiveConsumed := if threshold ≤ connection then 0 else connection
      h2StreamReceiveConsumed := if onOurStream = true ∧ threshold ≤ stream then 0
      else stream }.write
      ((if 0 < cInc then [windowUpdateFrame 0 cInc] else []) ++
        if 0 < sInc then [windowUpdateFrame streamId sInc] else [])

/-- The stream ends: what is still in `decodedBuffer` is the last result. -/
def finish (c : GrpcConnection) : GrpcConnection × Option Bytes :=
  ({ c with h2StreamClosed := true, decodedBuffer := [] },
    if c.decodedBuffer = [] then none else some c.decodedBuffer)

end GrpcConnection

-- ----
-- Frames

section Receiving

-- the turns `decodeHunkPayload` may make, and the checks of response and trailer
variable (turns : Nat) (checkH2ResponseStatus : Bytes → Option String)
    (parseGrpcTrailer : Bytes → Option Failure)

/-- The loop of `handleDataFrame`: the buffer and `out` behind it, and its `decodeError`. -/
def extractMessages : Nat → Bytes → Bytes → Bytes × Bytes × Option Failure
  | 0, buffer, out => (buffer, out, none)
  | fuel + 1, buffer, out =>
    match buffer with
    | compressed :: l0 :: l1 :: l2 :: l3 :: rest =>
      let total := int32 (5 + int32 (uint32 l0 l1 l2 l3))
      if (buffer.length : Int) < total then (buffer, out, none)
      else if total < 5 then (buffer, out, some .illegalArgument)
      else
        let messageData := rest.take (total - 5).toNat
        let buffer := rest.drop (total - 5).toNat
        if compressed ≠ 0 then (buffer, out, some .compressedMessageUnsupported)
        else
          match decodeHunkPayload messageData turns 0 [] with
          | .error e => (buffer, out, some e)
          | .ok payload => extractMessages fuel buffer (out ++ payload)
    | _ => (buffer, out, none)

/-- A `GrpcError`, which `handleDataFrame` keeps for later; others leave it at once. -/
def Failure.isGrpcError : Failure → Bool
  | .indexOutOfBounds | .illegalArgument | .running => false
  | _ => true

/-- What becomes of a frame in `readAndDecode`. -/
inductive Handled where
  | again
  | returns (result : Option Bytes)
  | throws (e : Failure)

def handleDataFrame (frame : RawFrame) (isOurStream : Bool) (c : GrpcConnection) :
    GrpcConnection × Except Failure (Option Bytes) :=
  let endOfStream := frame.flags.toNat &&& flag ≠ 0
  let c := c.emitWindowUpdatesIfNeeded frame.payload.length isOurStream
  if isOurStream = false then (c, .ok none)
  else
    let buffer := c.grpcFrameBuffer ++ frame.payload
    let extracted : Bytes × Bytes × Option Failure :=
      if frame.payload ≠ [] ∧ maxGrpcFrameBufferSize < buffer.length then
        ([], [], some (.invalidResponse "gRPC frame buffer overflow"))
      else extractMessages turns buffer.length buffer []
    let c := { c with grpcFrameBuffer := extracted.1 }
    match extracted.2.2 with
    | some e =>
      if e.isGrpcError ∧ endOfStream then ({ c with h2StreamClosed := true }, .error e)
      else (c, .error e)
    | none =>
      let c := if endOfStream then { c with h2StreamClosed := true } else c
      (c, .ok (if extracted.2.1 = [] then none else some extracted.2.1))

/-- `readAndDecode` on a HEADERS frame of the stream. -/
def handleHeadersFrame (frame : RawFrame) (c : GrpcConnection) : GrpcConnection × Handled :=
  let rejection := if c.h2ResponseReceived then none else checkH2ResponseStatus frame.payload
  match rejection with
  | some rejection =>
    ({ c with h2StreamClosed := true },
      .throws (.invalidResponse ("gRPC response rejected: " ++ rejection)))
  | none =>
    let c := { c with h2ResponseReceived := true }
    if frame.flags.toNat &&& flag ≠ 0 then
      match parseGrpcTrailer frame.payload with
      | some e => (c.finish.1, .throws e)
      | none => (c.finish.1, .returns c.finish.2)
    else (c, .again)

/-- `readAndDecode` on one frame. -/
def handleFrame (frame : RawFrame) (c : GrpcConnection) : GrpcConnection × Handled :=
  let isOurStream := frame.streamID = streamId
  match frame.type.toNat with
  | 0x00 =>
    match handleDataFrame turns frame isOurStream c with
    | (c, .error e) => (c, .throws e)
    | (c, .ok (some payload)) => (c, .returns (some payload))
    | (c, .ok none) => (c, if c.h2StreamClosed then .returns none else .again)
  | 0x01 => if isOurStream then handleHeadersFrame checkH2ResponseStatus parseGrpcTrailer frame c
      else (c, .again)
  | 0x04 =>
    if frame.flags.toNat &&& flag = 0 then
      ((c.parseH2Settings frame.payload).write [⟨0x04, 0x01, 0, []⟩], .again)
    else (c, .again)
  | 0x08 => (c.handleWindowUpdate frame, .again)
  | 0x06 => if frame.flags.toNat &&& flag = 0 then (c.write [⟨0x06, 0x01, 0, frame.payload⟩],
      .again) else (c, .again)
  | 0x07 => (c.finish.1, .returns c.finish.2)
  | 0x03 => if isOurStream then (c.finish.1, .returns c.finish.2) else (c, .again)
  | _ => (c, .again)

/-- `readAndDecode`: the connection, what is still to be delivered, and the result. -/
def readAndDecode : Nat → GrpcConnection → List Bytes → GrpcConnection × List Bytes × Except Failure
    (Option Bytes)
  | 0, c, incoming => (c, incoming, .error .running)
  | fuel + 1, c, incoming =>
    match readH2Frame c.h2ReadBuffer incoming with
    | (buffer, incoming, .error e) => ({ c with h2ReadBuffer := buffer }, incoming, .error e)
    | (buffer, incoming, .ok frame) =>
      match handleFrame turns checkH2ResponseStatus parseGrpcTrailer frame
        { c with h2ReadBuffer := buffer } with
      | (c, .again) => readAndDecode fuel c incoming
      | (c, .returns result) => (c, incoming, .ok result)
      | (c, .throws e) => (c, incoming, .error e)

/-- `receive`; a frame has nine bytes at least, so there is fuel for all that may come. -/
def receive (c : GrpcConnection) (incoming : List Bytes) : GrpcConnection × List Bytes ×
    Except Failure (Option Bytes) :=
  if c.decodedBuffer ≠ [] then ({ c with decodedBuffer := [] }, incoming,
    .ok (some c.decodedBuffer))
  else if c.h2StreamClosed then (c, incoming, .ok none)
  else
    readAndDecode turns checkH2ResponseStatus parseGrpcTrailer
      (c.h2ReadBuffer.length + incoming.flatten.length + 1) c
      incoming

/-- The results of `receive` until it returns null or throws, at most so many. -/
def receives : Nat → GrpcConnection → List Bytes → List Bytes
  | 0, _, _ => []
  | calls + 1, c, incoming =>
    match receive turns checkH2ResponseStatus parseGrpcTrailer c incoming with
    | (c, incoming, .ok (some data)) => data :: receives calls c incoming
    | _ => []

end Receiving

-- ----
-- A frame of the stream

theorem readMore_eq {buffer : Bytes} {incoming : List Bytes}
    (hnone : RawFrame.framing.next buffer = none) (hne : [] ∉ incoming)
    (hfits : RawFrame.framing.Fits maxH2ReadBufferSize buffer incoming) :
    (RawFrame.framing.next (buffer ++ incoming.flatten) = none →
      (readMore buffer incoming).2.2 = .error .connectionClosed) ∧
    ∀ frame more, RawFrame.framing.next (buffer ++ incoming.flatten) = some (frame, more) →
      ∃ buffer' incoming', readMore buffer incoming = (buffer', incoming', .ok frame) ∧
        buffer' ++ incoming'.flatten = more ∧ [] ∉ incoming' ∧
        RawFrame.framing.Fits maxH2ReadBufferSize buffer' incoming' := by
  induction incoming generalizing buffer with
  | nil =>
    rw [flatten_nil, append_nil]
    refine ⟨fun _ => rfl, fun frame more h => ?_⟩
    rw [hnone] at h
    exact absurd h nofun
  | cons data incoming ih =>
    rw [mem_cons, not_or] at hne
    have hlength := hfits.head
    rw [RawFrame.framing.rest_none hnone] at hlength
    rw [readMore, if_neg (Ne.symm hne.1), if_neg (by rw [length_append]; omega), flatten_cons,
      ← append_assoc]
    rcases hnext : RawFrame.framing.next (buffer ++ data) with _ | ⟨frame, rest⟩
    · have hparse : parseH2FrameLocked (buffer ++ data) = none := hnext
      rw [hparse]
      exact ih hnext hne.2 hfits.tail
    · have hparse : parseH2FrameLocked (buffer ++ data) = some (frame, rest) := hnext
      have hwhole := RawFrame.framing.extend incoming.flatten hnext
      rw [hparse]
      refine ⟨fun h => ?_, fun frame' more h => ?_⟩
      · rw [hwhole] at h
        exact absurd h nofun
      · rw [hwhole] at h
        obtain ⟨rfl, rfl⟩ := Prod.mk.inj (Option.some.inj h)
        refine ⟨rest, incoming, rfl, rfl, hne.2, hfits.tail.congr ?_⟩
        rw [RawFrame.framing.rest_some hnext]

/-- **The next frame of the stream, however it is cut.** -/
theorem readH2Frame_eq {buffer : Bytes} {incoming : List Bytes} (hne : [] ∉ incoming)
    (hfits : RawFrame.framing.Fits maxH2ReadBufferSize buffer incoming) :
    (RawFrame.framing.next (buffer ++ incoming.flatten) = none →
      (readH2Frame buffer incoming).2.2 = .error .connectionClosed) ∧
    ∀ frame more, RawFrame.framing.next (buffer ++ incoming.flatten) = some (frame, more) →
      ∃ buffer' incoming', readH2Frame buffer incoming = (buffer', incoming', .ok frame) ∧
        buffer' ++ incoming'.flatten = more ∧ [] ∉ incoming' ∧
        RawFrame.framing.Fits maxH2ReadBufferSize buffer' incoming' := by
  unfold readH2Frame
  rcases hnext : RawFrame.framing.next buffer with _ | ⟨frame, rest⟩
  · have hparse : parseH2FrameLocked buffer = none := hnext
    rw [hparse]
    exact readMore_eq hnext hne hfits
  · have hparse : parseH2FrameLocked buffer = some (frame, rest) := hnext
    have hwhole := RawFrame.framing.extend incoming.flatten hnext
    rw [hparse]
    refine ⟨fun h => ?_, fun frame' more h => ?_⟩
    · rw [hwhole] at h
      exact absurd h nofun
    · rw [hwhole] at h
      obtain ⟨rfl, rfl⟩ := Prod.mk.inj (Option.some.inj h)
      refine ⟨rest, incoming, rfl, rfl, hne, hfits.congr ?_⟩
      rw [RawFrame.framing.rest_some hnext]

-- ----
-- The messages of a frame

/-- What `send` hands to the stream. -/
def encoded (payload : Bytes) : Bytes := wrapGrpcMessage (encodeHunk payload)

theorem length_encoded (payload : Bytes) :
    (encoded payload).length = 5 + (encodeHunk payload).length := by
  simp only [encoded, wrapGrpcMessage, length_append, length_cons, length_nil]

theorem encoded_eq (payload : Bytes) :
    encoded payload =
      0x00 :: UInt8.ofNat ((encodeHunk payload).length / 16777216 % 256) ::
        UInt8.ofNat ((encodeHunk payload).length / 65536 % 256) ::
        UInt8.ofNat ((encodeHunk payload).length / 256 % 256) ::
        UInt8.ofNat ((encodeHunk payload).length % 256) :: encodeHunk payload := rfl

theorem encodes_encoded {payload : Bytes} (h : (encoded payload).length < 0x80000000) (zs : Bytes) :
    messages.next (encoded payload ++ zs) = some ((0, encodeHunk payload), zs) := by
  rw [length_encoded] at h
  exact takeMessage_wrap (by omega) zs

theorem total_eq {n : Nat} (h : 5 + n < 0x80000000) :
    int32 (5 + int32 (n : Nat)) = ((5 + n : Nat) : Int) := by
  rw [int32_of_nat (by omega), show (5 : Int) = ((5 : Nat) : Int) from rfl, ← Int.natCast_add,
    int32_of_nat h]

section Extracting

variable {turns : Nat} (hturns : 2 ≤ turns)

include hturns in
theorem extractMessages_whole {payload : Bytes} (h : (encoded payload).length < 0x80000000)
    (fuel : Nat) (buffer out : Bytes) :
    extractMessages turns (fuel + 1) (encoded payload ++ buffer) out =
      extractMessages turns fuel buffer (out ++ payload) := by
  have hlength := length_encoded payload
  have hhunk : (encodeHunk payload).length < 0x80000000 := by omega
  have htotal := total_eq (n := (encodeHunk payload).length) (by omega)
  have htake : (((5 + (encodeHunk payload).length : Nat) : Int) - 5).toNat =
      (encodeHunk payload).length := by omega
  rw [encoded_eq]
  simp only [cons_append, extractMessages]
  rw [uint32_bytes hhunk, htotal, htake, if_neg (by simp only [length_cons, length_append]; omega),
    if_neg (by omega), take_left, drop_left, decodeHunkPayload_encodeHunk hhunk hturns]
  rw [if_neg (by decide)]

theorem extractMessages_part {payload buffer rest : Bytes}
    (h : (encoded payload).length < 0x80000000) (hsplit : buffer ++ rest = encoded payload)
    (hrest : rest ≠ []) (fuel : Nat) (out : Bytes) :
    extractMessages turns fuel buffer out = (buffer, out, none) := by
  have hlength := length_encoded payload
  have hshort : buffer.length < (encoded payload).length := by
    have := congrArg List.length hsplit
    rw [length_append] at this
    have := length_pos_iff.mpr hrest
    omega
  rcases fuel with _ | fuel
  · rfl
  · match buffer, hsplit with
    | [], _ => rfl
    | [_], _ => rfl
    | [_, _], _ => rfl
    | [_, _, _], _ => rfl
    | [_, _, _, _], _ => rfl
    | b :: l0 :: l1 :: l2 :: l3 :: tail, hsplit =>
      rw [encoded_eq] at hsplit
      simp only [cons_append, List.cons.injEq] at hsplit
      obtain ⟨-, rfl, rfl, rfl, rfl, -⟩ := hsplit
      simp only [extractMessages]
      rw [uint32_bytes (by omega), total_eq (by omega), if_pos (by omega)]

include hturns in
theorem extractMessages_eq {payloads : List Bytes} {buffer more : Bytes}
    (hsize : ∀ p ∈ payloads, (encoded p).length < 0x80000000)
    (hstream : buffer ++ more = payloads.flatMap encoded) (fuel : Nat)
    (hfuel : buffer.length ≤ fuel) (out : Bytes) :
    ∃ done later tail, payloads = done ++ later ∧ tail ++ more = later.flatMap encoded ∧
      messages.rest buffer = tail ∧ messages.next tail = none ∧
      extractMessages turns fuel buffer out = (tail, out ++ done.flatten, none) := by
  induction payloads generalizing buffer fuel out with
  | nil =>
    obtain ⟨rfl, rfl⟩ := append_eq_nil_iff.mp hstream
    refine ⟨[], [], [], rfl, rfl, messages.rest_none messages.next_nil, messages.next_nil, ?_⟩
    rw [flatten_nil, append_nil]
    rcases fuel with _ | fuel <;> rfl
  | cons p payloads ih =>
    have hp := hsize p mem_cons_self
    rw [flatMap_cons] at hstream
    rcases Nat.lt_or_ge buffer.length (encoded p).length with hpart | hwhole
    · obtain ⟨rest, hrest, hne⟩ := exists_rest hstream hpart
      have hnone : messages.next buffer = none := by
        rcases hnext : messages.next buffer with _ | ⟨m, ys⟩
        · rfl
        · -- a message in front of the cut would leave the bytes behind it
          have hextended := messages.extend rest hnext
          have hfirst := encodes_encoded hp []
          rw [append_nil, ← hrest, hextended] at hfirst
          obtain ⟨-, hnil⟩ := Prod.mk.inj (Option.some.inj hfirst)
          exact absurd (append_eq_nil_iff.mp hnil).2 hne
      refine ⟨[], p :: payloads, buffer, rfl, hstream, messages.rest_none hnone, hnone, ?_⟩
      rw [extractMessages_part hp hrest hne, flatten_nil, append_nil]
    · obtain ⟨buffer', rfl, hlater⟩ := exists_beyond hstream hwhole
      have hlength := length_encoded p
      rw [length_append] at hfuel
      rcases fuel with _ | fuel
      · omega
      · obtain ⟨done, later, tail, rfl, hstays, hrest, hnone, hextract⟩ :=
          ih (fun q hq => hsize q (mem_cons_of_mem _ hq)) hlater fuel (by omega) (out ++ p)
        refine ⟨p :: done, later, tail, rfl, hstays, ?_, hnone, ?_⟩
        · rw [messages.rest_some (encodes_encoded hp buffer'), hrest]
        · rw [extractMessages_whole hturns hp, hextract, flatten_cons, append_assoc]

end Extracting

-- ----
-- A call

def dataFrame (data : Bytes) : RawFrame := ⟨0x00, 0x00, streamId, data⟩

theorem emitWindowUpdatesIfNeeded_same (receivedBytes : Nat) (onOurStream : Bool)
    (c : GrpcConnection) :
    (c.emitWindowUpdatesIfNeeded receivedBytes onOurStream).h2ReadBuffer = c.h2ReadBuffer ∧
      (c.emitWindowUpdatesIfNeeded receivedBytes onOurStream).grpcFrameBuffer = c.grpcFrameBuffer ∧
      (c.emitWindowUpdatesIfNeeded receivedBytes onOurStream).decodedBuffer = c.decodedBuffer ∧
      (c.emitWindowUpdatesIfNeeded receivedBytes onOurStream).h2StreamClosed =
        c.h2StreamClosed := by
  unfold GrpcConnection.emitWindowUpdatesIfNeeded
  split
  · exact ⟨rfl, rfl, rfl, rfl⟩
  · exact ⟨rfl, rfl, rfl, rfl⟩

/-- A connection that waits for DATA: what it has read and not used, and what the stream still
brings, are the DATA frames `datas`, and these complete the messages of `payloads`. -/
structure Receiving (c : GrpcConnection) (incoming datas payloads : List Bytes) : Prop where
  decoded : c.decodedBuffer = []
  opened : c.h2StreamClosed = false
  chunks : [] ∉ incoming
  frames : c.h2ReadBuffer ++ incoming.flatten = datas.flatMap fun d => (dataFrame d).bytes
  lengths : ∀ d ∈ datas, d.length < 0x1000000
  reads : RawFrame.framing.Fits maxH2ReadBufferSize c.h2ReadBuffer incoming
  messages : c.grpcFrameBuffer ++ datas.flatten = payloads.flatMap encoded
  sizes : ∀ p ∈ payloads, (encoded p).length < 0x80000000
  incomplete : Grpc.messages.next c.grpcFrameBuffer = none
  fits : Grpc.messages.Fits maxGrpcFrameBufferSize c.grpcFrameBuffer datas

section Calls

variable {turns : Nat} (hturns : 2 ≤ turns) {checkH2ResponseStatus : Bytes → Option String}
  {parseGrpcTrailer : Bytes → Option Failure} {c : GrpcConnection}
  {incoming datas payloads : List Bytes}

theorem handleFrame_eq (data : Bytes) :
    handleFrame turns checkH2ResponseStatus parseGrpcTrailer (dataFrame data) c =
      match handleDataFrame turns (dataFrame data) true c with
      | (c, .error e) => (c, Handled.throws e)
      | (c, .ok (some payload)) => (c, Handled.returns (some payload))
      | (c, .ok none) => (c, if c.h2StreamClosed then Handled.returns none else Handled.again) :=
        rfl

include hturns in
/-- **A DATA frame returns the payloads it completes.** -/
theorem handleFrame_data {data : Bytes} (hopened : c.h2StreamClosed = false)
    (hfits : c.grpcFrameBuffer.length + data.length ≤ maxGrpcFrameBufferSize)
    {more : Bytes} (hsize : ∀ p ∈ payloads, (encoded p).length < 0x80000000)
    (hstream : c.grpcFrameBuffer ++ data ++ more = payloads.flatMap encoded) :
    ∃ done later c', payloads = done ++ later ∧
      handleFrame turns checkH2ResponseStatus parseGrpcTrailer (dataFrame data) c =
        (c', if done.flatten = [] then .again else .returns (some done.flatten)) ∧
      c'.h2ReadBuffer = c.h2ReadBuffer ∧ c'.decodedBuffer = c.decodedBuffer ∧
        c'.h2StreamClosed = false ∧
      c'.grpcFrameBuffer ++ more = later.flatMap encoded ∧
      messages.rest (c.grpcFrameBuffer ++ data) = c'.grpcFrameBuffer ∧
        messages.next c'.grpcFrameBuffer = none := by
  obtain ⟨done, later, tail, hsplit, hlater, hrest, hnone, hextract⟩ :=
    extractMessages_eq hturns hsize hstream _ (Nat.le_refl _) []
  rw [nil_append] at hextract
  obtain ⟨hread, hgrpc, hdecoded, hclosed⟩ := emitWindowUpdatesIfNeeded_same data.length true c
  refine ⟨done, later,
    { c.emitWindowUpdatesIfNeeded data.length true with grpcFrameBuffer := tail }, hsplit, ?_,
    hread, hdecoded, hclosed.trans hopened, hlater, hrest, hnone⟩
  have hdata : handleDataFrame turns (dataFrame data) true c =
      ({ c.emitWindowUpdatesIfNeeded data.length true with grpcFrameBuffer := tail },
        .ok (if done.flatten = [] then none else some done.flatten)) := by
    have hroom : ¬ (data ≠ [] ∧ maxGrpcFrameBufferSize < (c.grpcFrameBuffer ++ data).length) := by
      rw [length_append]
      omega
    simp only [handleDataFrame, dataFrame, Bool.true_eq_false, if_false, hgrpc]
    rw [if_neg hroom, hextract]
    rfl
  rw [handleFrame_eq, hdata]
  by_cases hempty : done.flatten = []
  · rw [if_pos hempty, if_pos hempty]
    dsimp only
    rw [hclosed, hopened]
    rfl
  · rw [if_neg hempty, if_neg hempty]

include hturns in
/-- **One pass of `readAndDecode`.** It returns the payloads of the next frame that completes any,
and throws when there is none. -/
theorem readAndDecode_eq (h : Receiving c incoming datas payloads) (fuel : Nat)
    (hfuel : (c.h2ReadBuffer ++ incoming.flatten).length < fuel) :
    (payloads.flatten = [] ∧ ∃ c' incoming',
      readAndDecode turns checkH2ResponseStatus parseGrpcTrailer fuel c incoming =
        (c', incoming', .error .connectionClosed)) ∨
    ∃ done later c' incoming' datas', payloads.flatten = done ++ later.flatten ∧ done ≠ [] ∧
      readAndDecode turns checkH2ResponseStatus parseGrpcTrailer fuel c incoming = (c', incoming',
        .ok (some done)) ∧
      datas'.length < datas.length ∧ Receiving c' incoming' datas' later := by
  induction datas generalizing c incoming payloads fuel with
  | nil =>
    have hempty : c.h2ReadBuffer ++ incoming.flatten = [] := h.frames
    have hpayloads : payloads = [] := by
      rcases payloads with _ | ⟨p, payloads⟩
      · rfl
      · have hnext := h.incomplete
        have hstream := h.messages
        rw [flatten_nil, append_nil, flatMap_cons] at hstream
        rw [hstream, encodes_encoded (h.sizes p mem_cons_self)] at hnext
        exact absurd hnext nofun
    have hclosed :=
      (readH2Frame_eq h.chunks h.reads).1 (by rw [hempty]; exact RawFrame.framing.next_nil)
    rcases fuel with _ | fuel
    · omega
    · refine .inl ⟨by rw [hpayloads, flatten_nil], ?_⟩
      rcases hread : readH2Frame c.h2ReadBuffer incoming with ⟨buffer, incoming', result⟩
      rw [hread] at hclosed
      obtain rfl : result = .error .connectionClosed := hclosed
      rw [readAndDecode, hread]
      exact ⟨_, _, rfl⟩
  | cons data datas ih =>
    have hframes := h.frames
    rw [flatMap_cons] at hframes
    have hnext : RawFrame.framing.next (c.h2ReadBuffer ++ incoming.flatten) =
        some (dataFrame data, datas.flatMap fun d => (dataFrame d).bytes) := by
      rw [hframes]
      exact RawFrame.take_bytes (by show 1 < 2 ^ 31; decide) (h.lengths data mem_cons_self) _
    obtain ⟨buffer, incoming', hread, hmore, hchunks, hreads⟩ :=
      (readH2Frame_eq h.chunks h.reads).2 _ _ hnext
    have hmessages := h.messages
    rw [flatten_cons, ← append_assoc] at hmessages
    have hroom := h.fits.head
    rw [messages.rest_none h.incomplete] at hroom
    obtain ⟨done, later, c', hsplit, hhandle, hbuffer, hdecoded, hopened, hlater, hrest, hnone⟩ :=
      @handleFrame_data turns hturns checkH2ResponseStatus parseGrpcTrailer
        { c with h2ReadBuffer := buffer } payloads
        data h.opened hroom datas.flatten h.sizes hmessages
    have hfits : messages.Fits maxGrpcFrameBufferSize c'.grpcFrameBuffer datas := by
      refine h.fits.tail.congr ?_
      rw [messages.rest_none hnone]
      exact hrest.symm
    have hreceiving : Receiving c' incoming' datas later := {
      decoded := hdecoded.trans h.decoded
      opened := hopened
      chunks := hchunks
      frames := by rw [hbuffer]; exact hmore
      lengths := fun d hd => h.lengths d (mem_cons_of_mem _ hd)
      reads := by rw [hbuffer]; exact hreads
      messages := hlater
      sizes := fun p hp => h.sizes p (by rw [hsplit]; exact mem_append_right _ hp)
      incomplete := hnone
      fits := hfits }
    rcases fuel with _ | fuel
    · omega
    · rw [readAndDecode, hread]
      dsimp only
      rw [hhandle]
      by_cases hempty : done.flatten = []
      · -- nothing is complete yet: the loop goes on with a shorter stream
        have hshorter : (c'.h2ReadBuffer ++ incoming'.flatten).length < fuel := by
          have hlength := congrArg List.length hframes
          rw [← hmore] at hlength
          rw [hbuffer]
          simp only [length_append, RawFrame.length_bytes] at hlength hfuel ⊢
          omega
        have hsame : payloads.flatten =
            later.flatten := by rw [hsplit, flatten_append, hempty, nil_append]
        rw [if_pos hempty, hsame]
        rcases ih hreceiving fuel hshorter with hend | ⟨done', later', c₂, incoming₂, datas₂, hrest⟩
        · exact .inl hend
        · obtain ⟨hpayloads, hne, hresult, hlt, hreceiving₂⟩ := hrest
          refine .inr ⟨done', later', c₂, incoming₂, datas₂, hpayloads, hne, hresult,
            ?_, hreceiving₂⟩
          rw [length_cons]
          omega
      · rw [if_neg hempty]
        refine .inr ⟨done.flatten, later, c', incoming', datas, ?_, hempty, rfl,
          Nat.lt_succ_self _, hreceiving⟩
        rw [hsplit, flatten_append]

include hturns in
theorem receives_eq (h : Receiving c incoming datas payloads) (calls : Nat)
    (hcalls : datas.length < calls) :
    (receives turns checkH2ResponseStatus parseGrpcTrailer calls c incoming).flatten =
      payloads.flatten ∧
      [] ∉ receives turns checkH2ResponseStatus parseGrpcTrailer calls c incoming := by
  induction calls generalizing c incoming datas payloads with
  | zero => omega
  | succ calls ih =>
    have hreceive : receive turns checkH2ResponseStatus parseGrpcTrailer c incoming =
        readAndDecode turns checkH2ResponseStatus parseGrpcTrailer
          (c.h2ReadBuffer.length + incoming.flatten.length + 1) c incoming := by
      rw [receive, if_neg (by rw [h.decoded]; exact fun hne => hne rfl),
        if_neg (by rw [h.opened]; decide)]
    rcases readAndDecode_eq hturns h (c.h2ReadBuffer.length + incoming.flatten.length + 1)
      (by rw [length_append]; omega) with ⟨hpayloads, c', incoming', hresult⟩ |
      ⟨done, later, c', incoming', datas', hpayloads, hne, hresult, hlt, hreceiving⟩
    · rw [receives, hreceive, hresult, hpayloads]
      exact ⟨rfl, not_mem_nil⟩
    · obtain ⟨hlater, hfull⟩ := ih hreceiving (by omega)
      rw [receives, hreceive, hresult]
      refine ⟨?_, ?_⟩
      · rw [flatten_cons, hlater, hpayloads]
      · rw [mem_cons, not_or]
        exact ⟨Ne.symm hne, hfull⟩

end Calls

-- ----
-- Round trip

/-- A connection behind its setup, with nothing read. -/
structure Fresh (c : GrpcConnection) : Prop where
  h2ReadBuffer : c.h2ReadBuffer = []
  grpcFrameBuffer : c.grpcFrameBuffer = []
  decodedBuffer : c.decodedBuffer = []
  h2StreamClosed : c.h2StreamClosed = false

/-- **Whatever is sent arrives.** The messages of any payloads, split into DATA frames and these cut
into chunks in any way, are received as the payloads, as long as every chunk fits with the
incomplete frame before it into `MAX_H2_READ_BUFFER_SIZE` and every DATA frame with the incomplete
message before it into `MAX_GRPC_FRAME_BUFFER_SIZE`. A message is a byte array, and the length of
a frame has 24 bits. -/
theorem tunnel_round_trip {turns : Nat} (hturns : 2 ≤ turns)
    (checkH2ResponseStatus : Bytes → Option String) (parseGrpcTrailer : Bytes → Option Failure)
    {c : GrpcConnection} (hfresh : Fresh c) {payloads datas chunks : List Bytes}
    (hsizes : ∀ p ∈ payloads, (wrapGrpcMessage (encodeHunk p)).length < 0x80000000)
    (hsplit : datas.flatten = payloads.flatMap fun p => wrapGrpcMessage (encodeHunk p))
    (hlengths : ∀ d ∈ datas, d.length < 0x1000000)
    (hcut : chunks.flatten = datas.flatMap fun d => buildH2Frame 0x00 0x00 streamId d)
    (hne : [] ∉ chunks) (hreads : RawFrame.framing.Fits maxH2ReadBufferSize [] chunks)
    (hmessages : messages.Fits maxGrpcFrameBufferSize [] datas) {calls : Nat}
    (hcalls : datas.length < calls) :
    (receives turns checkH2ResponseStatus parseGrpcTrailer calls c chunks).flatten =
      payloads.flatten ∧
      [] ∉ receives turns checkH2ResponseStatus parseGrpcTrailer calls c chunks := by
  refine receives_eq hturns ?_ calls hcalls
  exact {
    decoded := hfresh.decodedBuffer
    opened := hfresh.h2StreamClosed
    chunks := hne
    frames := by rw [hfresh.h2ReadBuffer, nil_append]; exact hcut
    lengths := hlengths
    reads := by rw [hfresh.h2ReadBuffer]; exact hreads
    messages := by rw [hfresh.grpcFrameBuffer, nil_append]; exact hsplit
    sizes := hsizes
    incomplete := by rw [hfresh.grpcFrameBuffer]; exact messages.next_nil
    fits := by rw [hfresh.grpcFrameBuffer]; exact hmessages }

/-- Two payloads, a DATA frame that ends in the first prefix and one that ends in the second. -/
def cutDatas : List Bytes := [[0, 0, 0], [0, 3, 10, 1, 1, 0, 0, 0, 0, 4, 10], [2, 2, 3]]

/-- Their frames, cut in a header and in a payload. -/
def cutChunks : List Bytes :=
  [[0, 0, 3, 0], [0, 0, 0, 0, 1, 0, 0, 0, 0, 0, 11, 0, 0, 0, 0, 0, 1, 0, 3],
    [10, 1, 1, 0, 0, 0, 0, 4, 10, 0, 0, 3, 0, 0, 0, 0, 0, 1, 2, 2, 3]]

theorem tunnel_round_trip_cut :
    cutDatas.flatten = [[1], [2, 3]].flatMap (fun p => wrapGrpcMessage (encodeHunk p)) ∧
      cutChunks.flatten = cutDatas.flatMap (fun d => buildH2Frame 0x00 0x00 streamId d) ∧
      (receives 2 (fun _ => none) (fun _ => none) 4 {} cutChunks).flatten = [1, 2, 3] := by
  have hsplit : cutDatas.flatten = [[1], [2, 3]].flatMap
      (fun p => wrapGrpcMessage (encodeHunk p)) := by
    decide +kernel
  have hcut : cutChunks.flatten = cutDatas.flatMap
      (fun d => buildH2Frame 0x00 0x00 streamId d) := by
    decide
  refine ⟨hsplit, hcut, ?_⟩
  exact (tunnel_round_trip (by decide) _ _ ⟨rfl, rfl, rfl, rfl⟩ (by decide +kernel) hsplit
    (by decide) hcut (by decide) (Framing.fits_of_length_le (by decide))
    (Framing.fits_of_length_le (by decide)) (by decide)).1

/-- A chunk that does not fit ends the connection. -/
theorem receives_overflow {turns : Nat} {checkH2ResponseStatus : Bytes → Option String}
    {parseGrpcTrailer : Bytes → Option Failure} {chunk : Bytes}
    (h : maxH2ReadBufferSize < chunk.length) (calls : Nat) :
    receives turns checkH2ResponseStatus parseGrpcTrailer calls {} [chunk] = [] := by
  have hne : chunk ≠ [] := by
    rintro rfl
    exact absurd h (Nat.not_lt_zero _)
  have hread : readH2Frame [] [chunk] = ([], [], .error .connectionClosed) := by
    show readMore [] [chunk] = _
    rw [readMore, if_neg hne, if_pos (by rw [nil_append]; exact h)]
  rcases calls with _ | calls
  · rfl
  · rw [receives, receive, if_neg (fun hdecoded => hdecoded rfl), if_neg (by decide),
      readAndDecode, hread]

theorem length_buildH2Frame (type flags : UInt8) (streamId : Nat) (payload : Bytes) :
    (buildH2Frame type flags streamId payload).length = 9 + payload.length :=
      RawFrame.length_bytes _

/-- Two megabytes, in one message, in one DATA frame, in one chunk. -/
def largePayload : Bytes := List.replicate 2097152 0

theorem length_encoded_largePayload : (encoded largePayload).length = 2097162 := by
  have hvarint : (varintEncode 2097152).length = 4 := by decide +kernel
  rw [length_encoded, length_encodeHunk, largePayload, length_replicate, hvarint]

theorem large_frame_not_received :
    (∀ p ∈ [largePayload], p ≠ [] ∧ (wrapGrpcMessage (encodeHunk p)).length < 0x80000000) ∧
      (∀ d ∈ [encoded largePayload], d.length < 0x1000000) ∧
      [encoded largePayload].flatten = [largePayload].flatMap
      (fun p => wrapGrpcMessage (encodeHunk p)) ∧
      [] ∉ [buildH2Frame 0x00 0x00 streamId (encoded largePayload)] ∧
      ∀ calls, (receives 2 (fun _ => none) (fun _ => none) calls {}
        [buildH2Frame 0x00 0x00 streamId (encoded largePayload)]).flatten ≠
        [largePayload].flatten := by
  have hlength := length_encoded_largePayload
  have hpayload : largePayload ≠ [] := by
    intro h
    have := congrArg List.length h
    rw [largePayload, length_replicate] at this
    exact absurd this (by decide)
  have hframe : (buildH2Frame 0x00 0x00 streamId (encoded largePayload)).length = 2097171 := by
    rw [length_buildH2Frame, hlength]
  refine ⟨fun p hp => ?_, fun d hd => ?_, ?_, ?_, fun calls => ?_⟩
  · rw [mem_singleton.mp hp]
    refine ⟨hpayload, ?_⟩
    show (encoded largePayload).length < 0x80000000
    rw [hlength]
    decide
  · rw [mem_singleton.mp hd, hlength]
    decide
  · rw [flatten_singleton, flatMap_singleton]
    rfl
  · rw [mem_singleton]
    intro h
    rw [← h, length_nil] at hframe
    exact absurd hframe (by decide)
  · rw [receives_overflow (by rw [hframe]; decide), flatten_nil, flatten_singleton]
    exact Ne.symm hpayload

end Anywhere.Grpc
