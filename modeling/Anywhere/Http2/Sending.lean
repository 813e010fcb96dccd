import Mathlib.Logic.Function.Basic
import Anywhere.Lib.Machine
import Anywhere.Lib.Http2
import Anywhere.Naive.Session

/-!
# Anywhere — `GrpcConnection` and `XHttpClient`: sending over HTTP/2

Both clients send within the windows of the peer in the same way. A call takes under the lock as
many DATA frames as the windows allow and writes them behind it; when there are none it registers
to be resumed, under the lock again, and suspends. The frames of the peer raise the windows and
resume whoever is registered: `GrpcConnection` in one critical section, `XHttpClient` in two.

In packet-up mode every call of `XHttpClient` opens a stream of its own. The window of such a
stream is in `h2PacketStreamWindows` while its call is blocked and in a variable of the call
otherwise.

A step is a critical section, a write of the transport or a continuation that is resumed; a call
has a number, and each entry of SETTINGS is an event.

* `dataFrames` — the frames that fit.
* `step` — the machine.
* `Own`, `own_step` — the streams of packet-up mode have one call each, as long as their ids last.
-/

namespace Anywhere.Http2

open Lib List
open Naive (int32 parseWindowUpdate)

-- ----
-- The state

inductive XHttpMode
  | auto | streamOne | packetUp | streamUp
  deriving DecidableEq, Repr

inductive Client
  | grpc
  | xhttp (mode : XHttpMode)
  deriving DecidableEq, Repr

/-- The stream whose window is `h2PeerStreamSendWindow`: `STREAM_ID`, `h2UploadStreamId`, or the
default of `sendH2Data`. -/
def Client.activeStream : Client → Nat
  | .grpc => 1
  | .xhttp .streamUp => 3
  | .xhttp _ => 1

inductive Upload
  | active
  /-- A stream of its own; `streamWindow` is the variable of `sendH2PacketUpData`. -/
  | packet (streamId : Nat) (streamWindow : Int)
  deriving DecidableEq, Repr

inductive Point
  | idle
  /-- Before the critical section of a round. -/
  | loop
  /-- Behind it without frames, before the critical section of `awaitFlowResumption`. -/
  | blocked
  | parked
  /-- In the write of the transport; `next` is what is left behind it, and where it goes. -/
  | writing (frames : List RawFrame) (next : Bytes) (upload : Upload)
  | returned
  | failed
  deriving DecidableEq

def Upload.stream : Upload → Option Nat
  | .active => none
  | .packet streamId _ => some streamId

/-- A call of `sendH2Data` or `sendH2PacketUp`. -/
structure Call where
  point : Point := .idle
  /-- The data from `offset` on. -/
  rest : Bytes := []
  upload : Upload := .active

/-- What a connection keeps for sending. -/
structure Uplink where
  h2PeerConnectionWindow : Int := 65535
  h2PeerStreamSendWindow : Int := 65535
  h2PeerInitialWindowSize : Int := 65535
  h2MaxFrameSize : Int := 16384
  h2PacketStreamWindows : Nat → Option Int := fun _ => none
  h2NextPacketStreamId : Nat := 3
  h2StreamClosed : Bool := false
  isConnected : Bool := true
  h2FlowResumptions : List Nat := []
  /-- The waiters that are taken out and still to be resumed. -/
  resumed : List Nat := []
  /-- The same, to be resumed with `ConnectionClosed`. -/
  refused : List Nat := []
  /-- The calls of `drainH2FlowResumptions` that are still to come. -/
  drains : Nat := 0
  calls : Nat → Call := fun _ => {}

inductive Event
  /-- `sendH2Data`. -/
  | send (i : Nat) (data : Bytes)
  /-- `sendH2PacketUp`; `headerBlock` is what `encodeH2UploadHeaders` gives. -/
  | sendPacket (i : Nat) (data headerBlock : Bytes)
  | round (i : Nat)
  | awaitFlowResumption (i : Nat)
  /-- The write of the transport ends. -/
  | write (i : Nat) (succeeds : Bool)
  /-- The coroutine of a call that waits is cancelled. -/
  | abandon (i : Nat)
  | resume (i : Nat)
  | windowUpdate (streamId : Nat) (payload : Bytes)
  | drainH2FlowResumptions
  /-- One entry of `parseH2Settings`. -/
  | setting (id : Nat) (value : Int)
  | rstStream (streamId : Nat)
  /-- The end of the stream, GOAWAY, or an error of the reader. -/
  | closeStream
  | cancel
  deriving Repr

-- ----
-- The frames that fit

def dataFrame (flags : UInt8) (streamId : Nat) (chunk : Bytes) : RawFrame :=
  ⟨0x00, flags, streamId, chunk⟩

/-- The inner loop of `sendH2Data`, `sendH2PacketUp` and `sendH2PacketUpData`: the frames, the
data behind them and `windowRemaining`. -/
def dataFrames (endStream : UInt8) (streamId : Nat) (maxSize : Int) (data : Bytes)
    (windowRemaining : Int) :
    List RawFrame × Bytes × Int :=
  if data = [] then ([], [], windowRemaining)
  else
    let chunkSize := min (data.length : Int) (min maxSize windowRemaining)
    if _h : chunkSize ≤ 0 then ([], data, windowRemaining)
    else
      let next := data.drop chunkSize.toNat
      let flags := if next = [] then endStream else 0
      let more := dataFrames endStream streamId maxSize next (windowRemaining - chunkSize)
      (dataFrame flags streamId (data.take chunkSize.toNat) :: more.1, more.2)
termination_by data.length
decreasing_by
  rw [length_drop]
  omega

def dataBytes (frames : List RawFrame) : Int := (frames.map fun f => (f.payload.length : Int)).sum

section DataFrames

variable (endStream : UInt8) (streamId : Nat) (maxSize : Int) {windowRemaining : Int} {data : Bytes}

theorem dataBytes_nonneg (frames : List RawFrame) : 0 ≤ dataBytes frames := by
  induction frames with
  | nil => exact Int.le_refl 0
  | cons f frames ih => exact Int.add_nonneg (Int.natCast_nonneg _) ih

theorem length_take_chunk {chunkSize : Int} (hpos : 0 < chunkSize) (hle : chunkSize ≤ data.length) :
    ((data.take chunkSize.toNat).length : Int) = chunkSize := by
  rw [length_take]
  omega

theorem dataFrames_remaining (data : Bytes) (windowRemaining : Int) :
    (dataFrames endStream streamId maxSize data windowRemaining).2.2 =
      windowRemaining - dataBytes
      (dataFrames endStream streamId maxSize data windowRemaining).1 := by
  fun_induction dataFrames endStream streamId maxSize data windowRemaining with
  | case1 windowRemaining => exact (Int.sub_zero _).symm
  | case2 data windowRemaining hne chunkSize hchunk => exact (Int.sub_zero _).symm
  | case3 data windowRemaining hne chunkSize hchunk next flags more ih =>
    have hlength : ((data.take chunkSize.toNat).length : Int) = chunkSize :=
      length_take_chunk (by omega) (by omega)
    show more.2.2 = windowRemaining - (((data.take chunkSize.toNat).length : Int) +
        dataBytes more.1)
    have hmore : more.2.2 = windowRemaining - chunkSize - dataBytes more.1 := ih
    rw [hlength, hmore]
    omega

theorem dataFrames_fit (data : Bytes) (h : 0 ≤ windowRemaining) :
    dataBytes (dataFrames endStream streamId maxSize data windowRemaining).1 ≤ windowRemaining := by
  have hremaining : 0 ≤ (dataFrames endStream streamId maxSize data windowRemaining).2.2 := by
    fun_induction dataFrames endStream streamId maxSize data windowRemaining with
    | case1 windowRemaining => exact h
    | case2 data windowRemaining hne chunkSize hchunk => exact h
    | case3 data windowRemaining hne chunkSize hchunk next flags more ih => exact ih (by omega)
  have := dataFrames_remaining endStream streamId maxSize data windowRemaining
  omega

theorem dataFrames_shut (data : Bytes) (h : windowRemaining ≤ 0) :
    dataFrames endStream streamId maxSize data windowRemaining = ([], data, windowRemaining) := by
  rw [dataFrames]
  by_cases hempty : data = []
  · rw [if_pos hempty, hempty]
  · rw [if_neg hempty]
    exact dif_pos (by omega)

theorem dataFrames_ne_nil {maxSize : Int} (hdata : data ≠ []) (hsize : 0 < maxSize)
    (hwindow : 0 < windowRemaining) :
    (dataFrames endStream streamId maxSize data windowRemaining).1 ≠ [] := by
  have hlength := length_pos_iff.mpr hdata
  rw [dataFrames, if_neg hdata]
  dsimp only
  rw [dif_neg (by omega)]
  exact cons_ne_nil _ _

/-- Every frame holds some of the data, and not more than the peer takes. -/
theorem dataFrames_size (data : Bytes) (windowRemaining : Int) :
    ∀ f ∈ (dataFrames endStream streamId maxSize data windowRemaining).1,
      f.type = 0x00 ∧ f.streamID = streamId ∧ f.payload ≠ [] ∧ (f.payload.length : Int) ≤
        maxSize := by
  fun_induction dataFrames endStream streamId maxSize data windowRemaining with
  | case1 windowRemaining => exact fun f hf => absurd hf not_mem_nil
  | case2 data windowRemaining hne chunkSize hchunk => exact fun f hf => absurd hf not_mem_nil
  | case3 data windowRemaining hne chunkSize hchunk next flags more ih =>
    have hlength : ((data.take chunkSize.toNat).length : Int) = chunkSize :=
      length_take_chunk (by omega) (by omega)
    intro f hf
    rcases mem_cons.mp hf with rfl | hf
    · refine ⟨rfl, rfl, ?_, ?_⟩
      · intro hnil
        have : ((data.take chunkSize.toNat).length : Int) = 0 := by
          rw [show data.take chunkSize.toNat = [] from hnil]
          rfl
        omega
      · show ((data.take chunkSize.toNat).length : Int) ≤ maxSize
        omega
    · exact ih f hf

end DataFrames

namespace Uplink

def setCall (i : Nat) (call : Call) (s : Uplink) : Uplink :=
  { s with calls := Function.update s.calls i call }

def setPoint (i : Nat) (point : Point) (s : Uplink) : Uplink :=
  s.setCall i ⟨point, (s.calls i).rest, (s.calls i).upload⟩

@[simp] theorem setCall_calls (i : Nat) (call : Call) (s : Uplink) :
    (s.setCall i call).calls = Function.update s.calls i call := rfl

@[simp] theorem setPoint_calls (i : Nat) (point : Point) (s : Uplink) :
    (s.setPoint i point).calls = Function.update s.calls i ⟨point, (s.calls i).rest,
      (s.calls i).upload⟩ := rfl

-- ----
-- Calls

/-- The critical section of `sendH2Data`. -/
def roundActive (client : Client) (i : Nat) (s : Uplink) : Uplink :=
  if s.h2StreamClosed then s.setPoint i .failed
  else
    let window := min s.h2PeerConnectionWindow s.h2PeerStreamSendWindow
    if window ≤ 0 then s.setPoint i .blocked
    else
      let batch := dataFrames 0 client.activeStream s.h2MaxFrameSize (s.calls i).rest window
      let totalSent := window - batch.2.2
      { s with
        h2PeerConnectionWindow := s.h2PeerConnectionWindow - totalSent
        h2PeerStreamSendWindow := s.h2PeerStreamSendWindow - totalSent }.setPoint i
        (if batch.1 = [] then .blocked else .writing batch.1 batch.2.1 .active)

/-- The window of a stream of `sendH2PacketUpData`. -/
def effectiveStreamWindow (streamId : Nat) (streamWindow : Int) (s : Uplink) : Int :=
  (s.h2PacketStreamWindows streamId).getD streamWindow

/-- The critical section of `sendH2PacketUpData`. -/
def roundPacket (i streamId : Nat) (streamWindow : Int) (s : Uplink) : Uplink :=
  if s.h2StreamClosed then s.setPoint i .failed
  else
    let effective := s.effectiveStreamWindow streamId streamWindow
    let window := min s.h2PeerConnectionWindow effective
    if window ≤ 0 then
      { s with
        h2PacketStreamWindows := Function.update s.h2PacketStreamWindows streamId
          (some effective) }.setPoint i .blocked
    else
      let batch := dataFrames 0x01 streamId s.h2MaxFrameSize (s.calls i).rest window
      let totalSent := window - batch.2.2
      { s with
        h2PacketStreamWindows := Function.update s.h2PacketStreamWindows streamId none
        h2PeerConnectionWindow := s.h2PeerConnectionWindow - totalSent }.setPoint i
        (if batch.1 = [] then .blocked
          else .writing batch.1 batch.2.1 (.packet streamId (effective - totalSent)))

def sendH2PacketUp (i : Nat) (data headerBlock : Bytes) (s : Uplink) : Uplink :=
  if s.h2StreamClosed then s.setPoint i .failed
  else
    let streamId := s.h2NextPacketStreamId
    let streamWindow := s.h2PeerInitialWindowSize
    let headerFlags : UInt8 := if data = [] then 0x05 else 0x04
    let headers : RawFrame := ⟨0x01, headerFlags, streamId, headerBlock⟩
    let window := min s.h2PeerConnectionWindow streamWindow
    let batch := dataFrames 0x01 streamId s.h2MaxFrameSize data window
    let totalSent := window - batch.2.2
    { s with
      h2NextPacketStreamId := (streamId + 2) % 0x100000000
      h2PeerConnectionWindow := s.h2PeerConnectionWindow - totalSent }.setCall i
      ⟨.writing (headers :: batch.1) batch.2.1 (.packet streamId (streamWindow - totalSent)), data,
        .packet streamId (streamWindow - totalSent)⟩

/-- `awaitFlowResumption`. -/
def register (i : Nat) (s : Uplink) : Uplink :=
  if s.h2StreamClosed ∨ ¬ s.isConnected then s.setPoint i .failed
  else { s with h2FlowResumptions := s.h2FlowResumptions ++ [i] }.setPoint i .parked

def written (i : Nat) (succeeds : Bool) (next : Bytes) (upload : Upload) (s : Uplink) : Uplink :=
  if succeeds then s.setCall i ⟨if next = [] then .returned else .loop, next, upload⟩
  else { s with h2StreamClosed := true }.setPoint i .failed

-- ----
-- Frames of the peer

def takeWaiters (s : Uplink) : Uplink :=
  { s with h2FlowResumptions := [], resumed := s.resumed ++ s.h2FlowResumptions }

/-- `handleWindowUpdate` of `GrpcConnection`. -/
def handleWindowUpdate (streamId : Nat) (payload : Bytes) (s : Uplink) : Uplink :=
  let increment := (parseWindowUpdate payload).getD 0
  if streamId = 0 then
    { s with h2PeerConnectionWindow := int32 (s.h2PeerConnectionWindow + increment) }.takeWaiters
  else if streamId = 1 then
    { s with h2PeerStreamSendWindow := int32 (s.h2PeerStreamSendWindow + increment) }.takeWaiters
  else s.takeWaiters

/-- `applyH2WindowUpdate` of `XHttpClient`. -/
def applyH2WindowUpdate (streamId : Nat) (payload : Bytes) (s : Uplink) : Uplink :=
  match parseWindowUpdate payload with
  | none => s
  | some increment =>
    if streamId = 0 then
      { s with h2PeerConnectionWindow := int32 (s.h2PeerConnectionWindow + increment) }
    else
      match s.h2PacketStreamWindows streamId with
      | some window =>
        { s with
          h2PacketStreamWindows :=
            Function.update s.h2PacketStreamWindows streamId (some (int32 (window + increment))) }
      | none => { s with h2PeerStreamSendWindow := int32 (s.h2PeerStreamSendWindow + increment) }

/-- An entry of `parseH2Settings`, the same in both clients. -/
def setting (id : Nat) (value : Int) (s : Uplink) : Uplink :=
  match id with
  | 0x04 =>
    { s with
      h2PeerInitialWindowSize := value
      h2PeerStreamSendWindow :=
        int32 (s.h2PeerStreamSendWindow + int32 (value - s.h2PeerInitialWindowSize)) }
  | 0x05 => { s with h2MaxFrameSize := value }
  | _ => s

/-- RST_STREAM in `readAndDecode` and in `receiveH2Data`. -/
def rstStream (client : Client) (streamId : Nat) (s : Uplink) : Uplink :=
  match client with
  | .grpc => if streamId = 1 then { s with h2StreamClosed := true } else s
  | .xhttp _ =>
    if streamId = 0 ∨ streamId = 1 then { s with h2StreamClosed := true }
    else { s with h2PacketStreamWindows := Function.update s.h2PacketStreamWindows streamId none }

def cancel (s : Uplink) : Uplink :=
  { s with
    isConnected := false
    h2StreamClosed := true
    h2FlowResumptions := []
    refused := s.refused ++ s.h2FlowResumptions
    h2PacketStreamWindows := fun _ => none }

end Uplink

-- ----
-- The machine

open Uplink in
/-- One step; an event that does not apply changes nothing. -/
def step (client : Client) (s : Uplink) : Event → Uplink
  | .send i data =>
    if (s.calls i).point = .idle ∧ client ≠ .xhttp .packetUp then
      s.setCall i ⟨if data = [] then .returned else .loop, data, .active⟩
    else s
  | .sendPacket i data headerBlock =>
    if (s.calls i).point = .idle ∧ client = .xhttp .packetUp then
      s.sendH2PacketUp i data headerBlock else s
  | .round i =>
    if (s.calls i).point = .loop ∧ (s.calls i).rest ≠ [] then
      match (s.calls i).upload with
      | .active => s.roundActive client i
      | .packet streamId streamWindow => s.roundPacket i streamId streamWindow
    else s
  | .awaitFlowResumption i => if (s.calls i).point = .blocked then s.register i else s
  | .write i succeeds =>
    match (s.calls i).point with
    | .writing _ next upload => s.written i succeeds next upload
    | _ => s
  | .abandon i =>
    -- a waiter that is not active any more is skipped when it is resumed
    if (s.calls i).point = .parked then
      { s with
        h2FlowResumptions := s.h2FlowResumptions.filter (· ≠ i)
        resumed := s.resumed.filter (· ≠ i)
        refused := s.refused.filter (· ≠ i) }.setPoint i .failed
    else s
  | .resume i =>
    if (s.calls i).point = .parked then
      if i ∈ s.resumed then { s with resumed := s.resumed.filter (· ≠ i) }.setPoint i .loop
      else if i ∈ s.refused then { s with refused := s.refused.filter (· ≠ i) }.setPoint i .failed
      else s
    else s
  | .windowUpdate streamId payload =>
    match client with
    | .grpc => s.handleWindowUpdate streamId payload
    | .xhttp _ =>
      let applied := s.applyH2WindowUpdate streamId payload
      { applied with drains := s.drains + 1 }
  | .drainH2FlowResumptions =>
    if 0 < s.drains then { s with drains := s.drains - 1 }.takeWaiters else s
  | .setting id value => s.setting id value
  | .rstStream streamId => s.rstStream client streamId
  | .closeStream => { s with h2StreamClosed := true }
  | .cancel => s.cancel

-- ----
-- Streams of packet-up mode

/-- No two calls share a stream, none has the stream of `h2PeerStreamSendWindow`, and the streams to
come are new. -/
structure Own (client : Client) (s : Uplink) : Prop where
  mode : ∀ i id, (s.calls i).upload.stream = some id → client = .xhttp .packetUp
  apart : ∀ i j id, (s.calls i).upload.stream = some id → (s.calls j).upload.stream =
    some id → i = j
  below : ∀ i id, (s.calls i).upload.stream = some id →
    client.activeStream < id ∧ id < s.h2NextPacketStreamId
  writes : ∀ i frames next upload, (s.calls i).point = .writing frames next upload →
    upload.stream = (s.calls i).upload.stream
  entries : ∀ id, s.h2PacketStreamWindows id ≠ none → client.activeStream < id ∧
    id < s.h2NextPacketStreamId
  next : 3 ≤ s.h2NextPacketStreamId

def IdsLast (s : Uplink) : Event → Prop
  | .sendPacket .. => s.h2NextPacketStreamId + 2 < 0x100000000
  | _ => True

namespace Own

variable {client : Client} {s t : Uplink} {i : Nat} {call : Call} {point : Point}

theorem start : Own client {} where
  mode := by
    intro i id h
    cases h
  apart := by
    intro i j id h
    cases h
  below := by
    intro i id h
    cases h
  writes := by
    intro i frames next upload h
    cases h
  entries := fun id h => absurd rfl h
  next := by decide

/-- The calls stay, and windows are kept of streams that are open. -/
theorem same (h : Own client s) (hcalls : t.calls = s.calls)
    (hnext : t.h2NextPacketStreamId = s.h2NextPacketStreamId)
      (hentries : ∀ id, t.h2PacketStreamWindows id ≠ none → s.h2PacketStreamWindows id ≠ none ∨ ∃ i,
        (s.calls i).upload.stream = some id) : Own client t where
  mode := by
    rw [hcalls]
    exact h.mode
  apart := by
    rw [hcalls]
    exact h.apart
  below := by
    rw [hcalls, hnext]
    exact h.below
  writes := by
    rw [hcalls]
    exact h.writes
  entries := by
    intro id hid
    rw [hnext]
    rcases hentries id hid with hold | ⟨i, hi⟩
    · exact h.entries id hold
    · exact h.below i id hi
  next := by
    rw [hnext]
    exact h.next

theorem update (h : Own client s) {streamId : Nat} {window : Option Int}
    (hcalls : t.calls = s.calls) (hnext : t.h2NextPacketStreamId = s.h2NextPacketStreamId)
    (hwindows : t.h2PacketStreamWindows = Function.update s.h2PacketStreamWindows streamId window)
    (hopen : window ≠ none →
      s.h2PacketStreamWindows streamId ≠ none ∨ ∃ i, (s.calls i).upload.stream = some streamId) :
      Own client t := by
  refine h.same hcalls hnext ?_
  intro id hid
  rw [hwindows] at hid
  by_cases hid' : id = streamId
  · rw [hid', Function.update_self] at hid
    rw [hid']
    exact hopen hid
  · rw [Function.update_of_ne hid'] at hid
    exact .inl hid

theorem setCall (h : Own client s) (hstream : call.upload.stream = none ∨ call.upload.stream =
    (s.calls i).upload.stream)
    (hwrites : ∀ frames next upload, call.point = .writing frames next upload →
      upload.stream = call.upload.stream) : Own client (s.setCall i call) := by
  have hold : ∀ j id, ((s.setCall i call).calls j).upload.stream = some id →
      (s.calls j).upload.stream = some id := by
    intro j id hj
    by_cases hji : j = i
    · subst hji
      rw [Uplink.setCall_calls, Function.update_self] at hj
      rcases hstream with hnone | hsame
      · rw [hnone] at hj
        cases hj
      · rw [← hsame, hj]
    · rwa [Uplink.setCall_calls, Function.update_of_ne hji] at hj
  refine ⟨?_, ?_, ?_, ?_, h.entries, h.next⟩
  · exact fun j id hj => h.mode j id (hold j id hj)
  · exact fun j k id hj hk => h.apart j k id (hold j id hj) (hold k id hk)
  · exact fun j id hj => h.below j id (hold j id hj)
  · intro j frames next upload hj
    by_cases hji : j = i
    · subst hji
      rw [Uplink.setCall_calls, Function.update_self] at hj ⊢
      exact hwrites frames next upload hj
    · rw [Uplink.setCall_calls, Function.update_of_ne hji] at hj ⊢
      exact h.writes j frames next upload hj

theorem setPoint (h : Own client s) (hwrites : ∀ frames next upload,
    point = .writing frames next upload → upload.stream = (s.calls i).upload.stream) : Own client
    (s.setPoint i point) :=
  h.setCall (.inr rfl) hwrites

/-- One round of `sendH2Data`. -/
theorem roundActive (h : Own client s) (hactive : (s.calls i).upload = .active) :
    Own client (s.roundActive client i) := by
  rw [Uplink.roundActive]
  split
  · exact h.setPoint nofun
  · dsimp only
    split
    · exact h.setPoint nofun
    · refine Own.setPoint ?_ ?_
      · exact h.same rfl rfl fun id hid => .inl hid
      intro frames next upload hpoint
      split at hpoint
      · cases hpoint
      · cases hpoint
        rw [hactive]

/-- One round of `sendH2PacketUpData`. -/
theorem roundPacket (h : Own client s) {streamId : Nat} {streamWindow : Int}
    (hpacket : (s.calls i).upload = .packet streamId streamWindow) :
    Own client (s.roundPacket i streamId streamWindow) := by
  have hstream : (s.calls i).upload.stream = some streamId := by rw [hpacket]; rfl
  rw [Uplink.roundPacket]
  split
  · exact h.setPoint nofun
  · dsimp only
    split
    · exact Own.setPoint (h.update rfl rfl rfl fun _ => .inr ⟨i, hstream⟩) nofun
    · refine Own.setPoint (h.update rfl rfl rfl (absurd rfl)) ?_
      · intro frames next upload hpoint
        split at hpoint
        · cases hpoint
        · cases hpoint
          exact hstream.symm

theorem sendH2PacketUp (h : Own client s) (hclient : client = .xhttp .packetUp)
    (hlast : s.h2NextPacketStreamId + 2 < 0x100000000) (data headerBlock : Bytes) :
    Own client (s.sendH2PacketUp i data headerBlock) := by
  rw [Uplink.sendH2PacketUp]
  split
  · exact h.setPoint nofun
  · have hnext : (s.h2NextPacketStreamId + 2) % 0x100000000 = s.h2NextPacketStreamId + 2 :=
      Nat.mod_eq_of_lt hlast
    have hthree := h.next
    have hone : client.activeStream = 1 := by rw [hclient]; rfl
    dsimp only
    rw [hnext]
    -- a stream is the new one or an old one, which has a smaller id
    have hold : ∀ j id (call : Call), call.upload.stream = some s.h2NextPacketStreamId →
        ((Function.update s.calls i call) j).upload.stream = some id →
          (j = i ∧ id = s.h2NextPacketStreamId) ∨
            (j ≠ i ∧ (s.calls j).upload.stream = some id) := by
      intro j id call hcall hj
      by_cases hji : j = i
      · rw [hji, Function.update_self, hcall] at hj
        exact .inl ⟨hji, (Option.some.inj hj).symm⟩
      · rw [Function.update_of_ne hji] at hj
        exact .inr ⟨hji, hj⟩
    refine ⟨fun _ _ _ => hclient, ?_, ?_, ?_, ?_, ?_⟩
    · intro j k id hj hk
      rcases hold j id _ rfl hj with ⟨hji, hid⟩ | ⟨-, hj⟩ <;>
        rcases hold k id _ rfl hk with ⟨hki, hid'⟩ | ⟨-, hk⟩
      · rw [hji, hki]
      · exact absurd (h.below k id hk).2 (by omega)
      · exact absurd (h.below j id hj).2 (by omega)
      · exact h.apart j k id hj hk
    · intro j id hj
      show client.activeStream < id ∧ id < s.h2NextPacketStreamId + 2
      rcases hold j id _ rfl hj with ⟨-, hid⟩ | ⟨-, hj⟩
      · omega
      · have := h.below j id hj
        omega
    · intro j frames next upload hj
      by_cases hji : j = i
      · rw [hji, Uplink.setCall_calls, Function.update_self] at hj ⊢
        cases hj
        rfl
      · rw [Uplink.setCall_calls, Function.update_of_ne hji] at hj ⊢
        exact h.writes j frames next upload hj
    · intro id hid
      have := h.entries id hid
      show client.activeStream < id ∧ id < s.h2NextPacketStreamId + 2
      omega
    · show 3 ≤ s.h2NextPacketStreamId + 2
      omega

theorem written (h : Own client s) (succeeds : Bool) {frames : List RawFrame} {next : Bytes}
    {upload : Upload} (hpoint : (s.calls i).point = .writing frames next upload) :
    Own client (s.written i succeeds next upload) := by
  rw [Uplink.written]
  split
  · refine h.setCall (.inr (h.writes i frames next upload hpoint)) ?_
    intro frames' next' upload' hcall
    dsimp only at hcall
    split at hcall <;> cases hcall
  · exact Own.setPoint (h.same rfl rfl fun id hid => .inl hid) nofun

theorem applyH2WindowUpdate (h : Own client s) (streamId : Nat) (payload : Bytes) :
    Own client (s.applyH2WindowUpdate streamId payload) := by
  rw [Uplink.applyH2WindowUpdate]
  split
  · exact h
  · split
    · exact h.same rfl rfl fun id hid => .inl hid
    · split
      · rename_i window hwindow
        refine h.update rfl rfl rfl fun _ => .inl ?_
        rw [hwindow]
        exact nofun
      · exact h.same rfl rfl fun id hid => .inl hid

end Own

theorem own_step (client : Client) {s : Uplink} {e : Event} (hlast : IdsLast s e)
    (h : Own client s) :
    Own client (step client s e) := by
  rcases e with ⟨i, data⟩ | ⟨i, data, headerBlock⟩ | i | i | ⟨i, succeeds⟩ | i | i |
    ⟨streamId, payload⟩ | _ |
    ⟨id, value⟩ | streamId | _ | _ <;> dsimp only [step]
  · split
    · refine h.setCall (.inl rfl) ?_
      intro frames next upload hcall
      dsimp only at hcall
      split at hcall <;> cases hcall
    · exact h
  · split
    · rename_i hidle
      exact h.sendH2PacketUp hidle.2 hlast data headerBlock
    · exact h
  · split
    · split
      · rename_i hactive
        exact h.roundActive hactive
      · rename_i hpacket
        exact h.roundPacket hpacket
    · exact h
  · split
    · rw [Uplink.register]
      split
      · exact h.setPoint nofun
      · exact Own.setPoint (h.same rfl rfl fun id hid => .inl hid) nofun
    · exact h
  · split
    · rename_i hpoint
      exact h.written succeeds hpoint
    · exact h
  · split
    · exact Own.setPoint (h.same rfl rfl fun id hid => .inl hid) nofun
    · exact h
  · split
    · split
      · exact Own.setPoint (h.same rfl rfl fun id hid => .inl hid) nofun
      · split
        · exact Own.setPoint (h.same rfl rfl fun id hid => .inl hid) nofun
        · exact h
    · exact h
  · split
    · unfold Uplink.handleWindowUpdate
      dsimp only
      split
      · exact h.same rfl rfl fun id hid => .inl hid
      · split <;> exact h.same rfl rfl fun id hid => .inl hid
    · exact (h.applyH2WindowUpdate streamId payload).same rfl rfl fun id hid => .inl hid
  · split
    · exact h.same rfl rfl fun id hid => .inl hid
    · exact h
  · unfold Uplink.setting
    split <;> exact h.same rfl rfl fun id hid => .inl hid
  · unfold Uplink.rstStream
    split
    · split <;> exact h.same rfl rfl fun id hid => .inl hid
    · split
      · exact h.same rfl rfl fun id hid => .inl hid
      · exact h.update rfl rfl rfl (absurd rfl)
  · exact h.same rfl rfl fun id hid => .inl hid
  · exact h.same rfl rfl fun id hid => absurd rfl hid

end Anywhere.Http2
