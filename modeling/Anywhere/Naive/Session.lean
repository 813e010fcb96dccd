import Mathlib.Logic.Function.Basic
import Anywhere.Config
import Anywhere.Lib.Text
import Anywhere.Lib.Machine

/-!
# Anywhere — `Http2Session`

One TLS connection with many CONNECT streams. The session is a machine whose steps run
from one suspension point to the next: a call of a stream, a coroutine that goes on, a
frame at the write lock that is written, a frame of the server. A stream is named by the
order of its acquisition; its id on the wire is an `Int` that grows by two.

The write lock is fair, so the frames that wait for it are a queue. A coroutine that
awaits a window is a sender at that point: completing the awaiter lets all of them go on.
The history records what no function of the session reads: the frames in both
directions, the streams acquired and closed.

* `routeFrame` — the read loop on one frame.
* `iterate` — one round of `sendData`.
* `step` — the machine.
-/

namespace Anywhere.Naive

open Lib

/-- A number as a 32-bit `Int`. -/
def int32 (n : Int) : Int := n.bmod (2 ^ 32)

theorem int32_of_fits {n : Int} (h : -2 ^ 31 ≤ n) (h' : n < 2 ^ 31) : int32 n = n :=
  Int.bmod_eq_of_le (by omega) (by omega)

theorem int32_of_nat {n : Nat} (h : n < 0x80000000) : int32 n = n :=
  int32_of_fits (by omega) (by omega)

theorem fits_int32 (n : Int) : -2 ^ 31 ≤ int32 n ∧ int32 n < 2 ^ 31 := by
  have hle : -(((2 ^ 32 : Nat) : Int) / 2) ≤ int32 n := Int.le_bmod (by decide)
  have hlt : int32 n < (((2 ^ 32 : Nat) : Int) + 1) / 2 := Int.bmod_lt (by decide)
  constructor <;> omega

theorem int32_add_int32 (m n : Int) : int32 (m + int32 n) = int32 (m + n) := Int.add_bmod_bmod

theorem int32_int32_add (m n : Int) : int32 (int32 m + n) = int32 (m + n) := Int.bmod_add_bmod

-- ----
-- Frames of the server

inductive Http2FrameType
  | data | headers | rstStream | settings | ping | goaway | windowUpdate
  deriving DecidableEq, Repr

structure Http2Frame where
  type : Http2FrameType
  flags : Nat
  streamID : Nat
  payload : Bytes
  deriving DecidableEq, Repr

/-- `Http2FrameFlags.END_STREAM`. -/
def endStreamFlag : Nat := 0x1

/-- `Http2FrameFlags.ACK`. -/
def ackFlag : Nat := 0x1

def Http2Frame.hasFlag (f : Http2Frame) (flag : Nat) : Bool := f.flags &&& flag != 0

/-- Four bytes as an unsigned number, the first the highest. -/
def uint32 (b0 b1 b2 b3 : UInt8) : Nat :=
  ((b0.toNat * 256 + b1.toNat) * 256 + b2.toNat) * 256 + b3.toNat

def parseSettings : Bytes → List (Nat × Int)
  | i0 :: i1 :: v0 :: v1 :: v2 :: v3 :: rest =>
    (i0.toNat * 256 + i1.toNat, int32 (uint32 v0 v1 v2 v3)) :: parseSettings rest
  | _ => []

def parseWindowUpdate : Bytes → Option Nat
  | b0 :: b1 :: b2 :: b3 :: _ => some (uint32 b0 b1 b2 b3 % 2 ^ 31)
  | _ => none

/-- `parseGoaway`: the last stream id and the error code. -/
def parseGoaway : Bytes → Option (Nat × Int)
  | l0 :: l1 :: l2 :: l3 :: e0 :: e1 :: e2 :: e3 :: _ =>
    some (uint32 l0 l1 l2 l3 % 2 ^ 31, int32 (uint32 e0 e1 e2 e3))
  | _ => none

/-- Decoded headers, names with values. -/
abbrev Headers := List (Text × Text)

/-- The value of the first `:status`. -/
def statusHeader (headers : Headers) : Option Text :=
  (headers.find? fun header => header.1 = ":status".toList).map (·.2)

-- ----
-- The state

/-- The id of the stream acquired as number `k`: `nextStreamID` begins at 1 and grows by
two. -/
def streamID (k : Nat) : Int := int32 (2 * k + 1)

inductive ClientFrame
  | headers (k : Nat)
  | data (k : Nat) (payload : Bytes)
  | rstStream (k : Nat) (errorCode : Nat)
  | windowUpdate (k : Option Nat) (increment : Nat)
  | settingsAck
  | pingAck (payload : Bytes)
  deriving DecidableEq

/-- `Http2Stream.State`. -/
inductive StreamState
  | idle | tunnelPending | tunnelOpen | closed
  deriving DecidableEq

/-- `tunnelReady`. -/
inductive Deferred
  | pending | completed | failed
  deriving DecidableEq, Repr

def Deferred.complete : Deferred → Deferred → Deferred
  | pending, outcome => outcome
  | done, _ => done

/-- Where the call of `openTunnel` is. -/
inductive OpenPoint
  | notCalled | writeLock | tunnelReady | returned | thrown
  deriving DecidableEq

/-- `Http2Stream` with its `flowControl` and `dataChannel`. Calls of `receiveData` that
are suspended are counted; they are served in order. `resumed` holds the sizes of what
has been handed to such calls, and is yet to be acknowledged. -/
structure Stream where
  state : StreamState := .idle
  sendWindow : Int
  recvConsumed : Nat := 0
  tunnelReady : Deferred := .pending
  opening : OpenPoint := .notCalled
  queue : List Bytes := []
  channelClosed : Bool := false
  receivers : Nat := 0
  resumed : List Nat := []
  results : List (Option Bytes) := []

/-- Where a call of `sendData` is: about to run its loop, suspended on one of the windows
or at the write lock, or over. -/
inductive SendPoint
  | loop | connectionWindow | streamWindow | writeLock | ended
  deriving DecidableEq

/-- A call of `Http2Session.sendData`: its stream and the data from `currentOffset` on. -/
structure Sender where
  stream : Nat
  rest : Bytes
  point : SendPoint

/-- Who waits for the write lock with a frame. -/
inductive Owner
  | handshake
  | openTunnel
  | sendData (i : Nat)
  | launched
  deriving DecidableEq

structure Write where
  frame : ClientFrame
  owner : Owner
  deriving DecidableEq

inductive Record
  | acquired (k : Nat)
  | closed (k : Nat)
  | sent (f : ClientFrame)
  | lost (f : ClientFrame)
  | received (f : Http2Frame)
  deriving DecidableEq

/-- `Http2Session.State`. -/
inductive SessionState
  | idle | connecting | ready | closed
  deriving DecidableEq

/-- Where `ensureReady` is: in `processHandshake`, at the write lock with the
acknowledgement of the settings, or over. -/
inductive Handshake
  | notStarted | reading | acking | over
  deriving DecidableEq

def maxConcurrentStreams : Nat := 100

def defaultInitialWindowSize : Int := 65535

def naiveInitialWindowSize : Nat := 67108864

def naiveSessionMaxRecvWindow : Nat := 134217728

def maxDataPayload : Int := 16384

/-- `ErrorCode.CANCEL`. -/
def cancelCode : Nat := 0x8

/-- `Http2Session`. Below `acquired`, `stream` has the streams; `streams` is the table.
Below `calls`, `senders` has the calls of `sendData`. -/
structure Session where
  state : SessionState := .idle
  handshake : Handshake := .notStarted
  goawayReceived : Bool := false
  transport : Bool := false
  acquired : Nat := 0
  stream : Nat → Stream := fun _ => { sendWindow := 0 }
  streams : List Nat := []
  connectionSendWindow : Int := defaultInitialWindowSize
  connectionRecvConsumed : Nat := 0
  serverInitialWindowSize : Int := defaultInitialWindowSize
  calls : Nat := 0
  senders : Nat → Sender := fun _ => ⟨0, [], .ended⟩
  launched : List ClientFrame := []
  writeQueue : List Write := []
  history : List Record := []

namespace Stream

/-- `dataChannel.trySend`: to the first call that waits, or into the queue. -/
def trySend (data : Bytes) (st : Stream) : Stream :=
  if st.channelClosed then st
  else if st.receivers = 0 then { st with queue := st.queue ++ [data] }
  else { st with
    receivers := st.receivers - 1, results := st.results ++ [some data],
    resumed := st.resumed ++ [data.length] }

/-- `dataChannel.close`: the calls that wait return null. -/
def closeChannel (st : Stream) : Stream :=
  { st with
    channelClosed := true, receivers := 0, results :=
      st.results ++ List.replicate st.receivers none }

def consumeSend (bytes : Int) (st : Stream) : Stream :=
  if st.sendWindow < bytes then st else { st with sendWindow := int32 (st.sendWindow - bytes) }

end Stream

namespace Session

-- ----
-- Coroutines that wait

def record (r : Record) (s : Session) : Session := { s with history := s.history ++ [r] }

/-- A frame goes to the write lock. -/
def enqueue (w : Write) (s : Session) : Session := { s with writeQueue := s.writeQueue ++ [w] }

def modify (k : Nat) (f : Stream → Stream) (s : Session) : Session :=
  { s with stream := Function.update s.stream k (f (s.stream k)) }

/-- An update of one call of `sendData`. -/
def setSender (i : Nat) (t : Sender) (s : Session) : Session :=
  { s with senders := Function.update s.senders i t }

/-- The calls of `sendData` of a stream that await its window go to another point. -/
def completeAwaiter (k : Nat) (point : SendPoint) (s : Session) : Session :=
  { s with senders := fun i =>
      if (s.senders i).stream = k ∧ (s.senders i).point = .streamWindow then
        { s.senders i with point := point }
      else s.senders i }

def cancelAwaiters (k : Nat) (s : Session) : Session := s.completeAwaiter k .ended

/-- The calls of `sendData` that await the window of the connection go to another
point. -/
def completeConnectionAwaiter (point : SendPoint) (s : Session) : Session :=
  { s with senders := fun i =>
      if (s.senders i).point = .connectionWindow then { s.senders i with point := point }
      else s.senders i }

/-- `state = State.CLOSED`. -/
def markClosed (k : Nat) (s : Session) : Session :=
  if (s.stream k).state = .closed then s
  else (s.modify k ({ · with state := .closed })).record (.closed k)

/-- `scope.launch` of a write. -/
def launch (f : ClientFrame) (s : Session) : Session := { s with launched := s.launched ++ [f] }

-- ----
-- `Http2Stream`, from the read loop

/-- A stream is closed with its channel, and the calls that await its window throw. One
that was not open may fail its `tunnelReady`. -/
def shut (failTunnel : Bool) (k : Nat) (s : Session) : Session :=
  if (s.stream k).state = .closed then s
  else
    let wasOpen := (s.stream k).state = .tunnelOpen
    let closed := ((s.markClosed k).modify k Stream.closeChannel).cancelAwaiters k
    if failTunnel ∧ ¬ wasOpen then
      closed.modify k fun st => { st with tunnelReady := st.tunnelReady.complete .failed }
    else closed

def deliverReset (k : Nat) (s : Session) : Session := s.shut true k

def deliverGoaway (k : Nat) (s : Session) : Session := s.shut true k

def deliverError (k : Nat) (s : Session) : Session := s.shut true k

def deliverEndStream (k : Nat) (s : Session) : Session := s.shut false k

def deliverHeaders (k : Nat) (headers : Headers) (s : Session) : Session :=
  if statusHeader headers = some "200".toList then
    s.modify k fun st =>
      { st with state := .tunnelOpen, tunnelReady := st.tunnelReady.complete .completed }
  else
    (s.markClosed k).modify k fun st => { st with tunnelReady := st.tunnelReady.complete .failed }

def deliverData (k : Nat) (data : Bytes) (s : Session) : Session :=
  if (s.stream k).state = .closed then s else s.modify k (Stream.trySend data)

def applyWindowUpdate (k : Nat) (increment : Nat) (s : Session) : Session :=
  (s.modify k fun st => { st with sendWindow := int32 (st.sendWindow + increment) }).completeAwaiter
    k
    .loop

def adjustSendWindow (delta : Int) (k : Nat) (s : Session) : Session :=
  let adjusted := s.modify k fun st => { st with sendWindow := int32 (st.sendWindow + delta) }
  if 0 < (adjusted.stream k).sendWindow then adjusted.completeAwaiter k .loop else adjusted

-- ----
-- The table

/-- `streams[streamID]`. -/
def lookup (sid : Int) (s : Session) : Option Nat := s.streams.find? fun k => streamID k = sid

/-- `streams.remove(streamID)`. -/
def remove (k : Nat) (s : Session) : Session :=
  { s with streams := s.streams.filter fun j => streamID j ≠ streamID k }

/-- `close` and `closeWithError`. -/
def shutdown (s : Session) : Session :=
  if s.state = .closed then s
  else
    let streams := s.streams
    let s := { s with state := .closed, streams := [], transport := false }
    (streams.foldl (fun s k => s.deliverError k) s).completeConnectionAwaiter .ended

/-- `close` once the table is empty. -/
def shutdownIfEmpty (s : Session) : Session := if s.streams = [] then s.shutdown else s

def removeStream (k : Nat) (s : Session) : Session :=
  if s.goawayReceived then (s.remove k).shutdownIfEmpty else s.remove k

/-- The end of `acquireStream` and `tryReserveStream`. -/
def newStream (s : Session) : Session :=
  { s with
    acquired := s.acquired + 1
    stream := Function.update s.stream s.acquired { sendWindow := s.serverInitialWindowSize }
    streams := (s.streams.filter fun j => streamID j ≠ streamID s.acquired) ++ [s.acquired]
    history := s.history ++ [.acquired s.acquired] }

-- ----
-- The read loop

/-- `SETTINGS_INITIAL_WINDOW_SIZE`. -/
def setInitialWindowSize (value : Int) (s : Session) : Session :=
  let delta := int32 (value - s.serverInitialWindowSize)
  s.streams.foldl (fun s k => s.adjustSendWindow delta k)
    { s with serverInitialWindowSize := value }

def handleServerSettings (payload : Bytes) (s : Session) : Session :=
  (parseSettings payload).foldl
    (fun s setting => if setting.1 = 0x4 then s.setInitialWindowSize setting.2 else s) s

def applyConnectionUpdate (increment : Nat) (s : Session) : Session :=
  { s with
    connectionSendWindow := int32 (s.connectionSendWindow + increment) }.completeConnectionAwaiter
      .loop

/-- `routeFrame`, with what the HPACK decoder makes of a block of headers. -/
def routeFrame (f : Http2Frame) (decoded : Option Headers) (s : Session) : Session :=
  match f.type with
  | .data =>
    if f.streamID = 0 then s
    else
      match s.lookup f.streamID with
      | none => s
      | some k =>
        let delivered := if f.payload ≠ [] then s.deliverData k f.payload else s
        if f.hasFlag endStreamFlag then (delivered.deliverEndStream k).remove k else delivered
  | .headers =>
    if f.streamID = 0 then s
    else
      match s.lookup f.streamID with
      | none => s
      | some k =>
        match decoded with
        | some headers => s.deliverHeaders k headers
        | none => s.deliverError k
  | .rstStream =>
    if f.streamID = 0 then s
    else
      match s.lookup f.streamID with
      | none => s
      | some k => (s.deliverReset k).remove k
  | .settings =>
    if f.hasFlag ackFlag then s else (s.handleServerSettings f.payload).launch .settingsAck
  | .ping => if f.hasFlag ackFlag then s else s.launch (.pingAck f.payload)
  | .windowUpdate =>
    match parseWindowUpdate f.payload with
    | none => s
    | some increment =>
      if f.streamID = 0 then s.applyConnectionUpdate increment
      else
        match s.lookup f.streamID with
        | none => s
        | some k => s.applyWindowUpdate k increment
  | .goaway =>
    let s := { s with goawayReceived := true }
    match parseGoaway f.payload with
    | none => s.shutdownIfEmpty
    | some (lastStreamID, _) =>
      let affected := s.streams.filter fun k => lastStreamID < streamID k
      (affected.foldl (fun s k => (s.deliverGoaway k).remove k) s).shutdownIfEmpty

/-- The `catch` of `ensureReady`. -/
def handshakeFails (s : Session) : Session := { s with state := .closed, handshake := .over }

def processHandshake (f : Http2Frame) (s : Session) : Session :=
  match f.type with
  | .settings =>
    if f.hasFlag ackFlag then s
    else
      ({ s with handshake := .acking }.handleServerSettings f.payload).enqueue
        ⟨.settingsAck, .handshake⟩
  | .windowUpdate =>
    match parseWindowUpdate f.payload with
    | none => s
    | some increment =>
      if f.streamID = 0 then
        { s with connectionSendWindow := int32 (s.connectionSendWindow + increment) }
      else s
  | .ping =>
    if f.hasFlag ackFlag then s
    else s.enqueue ⟨.pingAck f.payload, .launched⟩
  | .goaway => s.handshakeFails
  | _ => s

-- ----
-- The calls of a stream

/-- The `catch` of `openTunnel`. -/
def openFails (k : Nat) (s : Session) : Session :=
  ((s.markClosed k).modify k ({ · with opening := .thrown })).removeStream k

/-- `openTunnel`, up to the write lock. -/
def openTunnel (k : Nat) (s : Session) : Session :=
  if (s.stream k).state = .idle then
    (s.modify k ({ · with state := .tunnelPending, opening := .writeLock })).enqueue
      ⟨.headers k, .openTunnel⟩
  else s

/-- `openTunnel` behind `tunnelReady.await()`. -/
def resumeOpen (k : Nat) (s : Session) : Session :=
  if (s.stream k).opening = .tunnelReady then
    match (s.stream k).tunnelReady with
    | .pending => s
    | .completed => s.modify k ({ · with opening := .returned })
    | .failed => s.openFails k
  else s

/-- A chunk is taken off both windows. -/
def consumeSend (k : Nat) (chunkSize : Int) (s : Session) : Session :=
  { s with connectionSendWindow := int32 (s.connectionSendWindow - chunkSize) }.modify k
    (Stream.consumeSend chunkSize)

/-- One round of `Http2Session.sendData`, up to the point where it is suspended. -/
def iterate (i : Nat) (s : Session) : Session :=
  let t := s.senders i
  let chunkSize := min (t.rest.length : Int)
    (min maxDataPayload (min s.connectionSendWindow (s.stream t.stream).sendWindow))
  if t.rest = [] then s.setSender i { t with point := .ended }
  else if chunkSize ≤ 0 then
    if s.state = .closed then s.setSender i { t with point := .ended }
    else if s.connectionSendWindow ≤ 0 then s.setSender i { t with point := .connectionWindow }
    else if 0 < (s.stream t.stream).sendWindow then s
    else s.setSender i { t with point := .streamWindow }
  else
    ((s.consumeSend t.stream chunkSize).setSender i { t with point := .writeLock }).enqueue
      ⟨.data t.stream (t.rest.take chunkSize.toNat), .sendData i⟩

/-- A new call of `Http2Session.sendData`. -/
def call (t : Sender) (s : Session) : Session :=
  { s with calls := s.calls + 1, senders := Function.update s.senders s.calls t }

def sendData (k : Nat) (data : Bytes) (s : Session) : Session :=
  if (s.stream k).state = .tunnelOpen then
    (s.call ⟨k, data, .loop⟩).iterate s.calls
  else s

def acknowledgeConsumedData (k : Nat) (bytes : Nat) (s : Session) : Session :=
  if bytes = 0 then s
  else
    let consumed := s.connectionRecvConsumed + bytes
    let s :=
      if naiveSessionMaxRecvWindow / 2 ≤ consumed then
        { s with connectionRecvConsumed := 0 }.launch (.windowUpdate none consumed)
      else { s with connectionRecvConsumed := consumed }
    match s.lookup (streamID k) with
    | none => s
    | some j =>
      let consumed := (s.stream j).recvConsumed + bytes
      if naiveInitialWindowSize / 2 ≤ consumed then
        (s.modify j ({ · with recvConsumed := 0 })).launch (.windowUpdate (some k) consumed)
      else s.modify j ({ · with recvConsumed := consumed })

/-- `receiveData`: it returns null or data, or is suspended. -/
def receiveData (k : Nat) (s : Session) : Session :=
  let st := s.stream k
  if st.state = .closed then s.modify k ({ · with results := st.results ++ [none] })
  else
    match st.queue with
    | data :: queue =>
      (s.modify k
        ({ · with queue := queue, results := st.results ++ [some data] })).acknowledgeConsumedData
        k data.length
    | [] =>
      if st.channelClosed then s.modify k ({ · with results := st.results ++ [none] })
      else s.modify k ({ · with receivers := st.receivers + 1 })

/-- `receiveData` behind `dataChannel.receive()`, when it was suspended there. -/
def acknowledge (k : Nat) (s : Session) : Session :=
  match (s.stream k).resumed with
  | [] => s
  | bytes :: resumed => (s.modify k ({ · with resumed := resumed })).acknowledgeConsumedData k bytes

/-- `Http2Stream.close`. -/
def close (k : Nat) (s : Session) : Session :=
  if (s.stream k).state = .closed then s
  else
    let priorState := (s.stream k).state
    let closed := s.shut false k
    (if priorState = .tunnelPending ∨ priorState = .tunnelOpen then
      closed.launch (.rstStream k cancelCode)
    else closed).removeStream k

-- ----
-- The write lock

/-- `ensureReady` behind `processHandshake`. -/
def handshakeReturns (s : Session) : Session := { s with state := .ready, handshake := .over }

/-- The frame at the head of the write lock is on the wire. -/
def written (w : Write) (s : Session) : Session :=
  let s := s.record (.sent w.frame)
  match w.owner, w.frame with
  | .handshake, _ => s.handshakeReturns
  | .openTunnel, .headers k => s.modify k ({ · with opening := .tunnelReady })
  | .sendData i, .data _ payload =>
    let t := s.senders i
    s.setSender i { t with rest := t.rest.drop payload.length, point := .loop }
  | _, _ => s

/-- It is not, since the transport is gone or fails. -/
def writeFails (w : Write) (s : Session) : Session :=
  let s := s.record (.lost w.frame)
  match w.owner, w.frame with
  | .handshake, _ => s.handshakeReturns
  | .openTunnel, .headers k => s.openFails k
  | .sendData i, _ => s.setSender i { s.senders i with point := .ended }
  | _, _ => s

end Session

/-- A step: the calls of the application, the coroutines that go on, the transport that
takes or refuses a frame, and the read loop. -/
inductive Event
  | ensureReady
  | acquireStream
  | tryReserveStream
  | openTunnel (k : Nat)
  | sendData (k : Nat) (data : Bytes)
  | receiveData (k : Nat)
  | close (k : Nat)
  | closeSession
  | resumeOpen (k : Nat)
  | resumeSend (i : Nat)
  | acknowledge (k : Nat)
  | dispatch (j : Nat)
  | write (accepted : Bool)
  | frame (f : Http2Frame) (decoded : Option Headers)
  | readError
  deriving DecidableEq, Repr

open Session

def step (s : Session) : Event → Session
  | .ensureReady =>
    if s.state = .idle ∧ s.handshake = .notStarted then
      { s with state := .connecting, handshake := .reading, transport := true }
    else s
  | .acquireStream => if s.state = .ready ∧ s.goawayReceived = false then s.newStream else s
  | .tryReserveStream =>
    if s.state = .ready ∧ s.goawayReceived = false ∧ s.streams.length < maxConcurrentStreams then
      s.newStream
    else s
  | .openTunnel k => if k < s.acquired then s.openTunnel k else s
  | .sendData k data => if k < s.acquired then s.sendData k data else s
  | .receiveData k => if k < s.acquired then s.receiveData k else s
  | .close k => if k < s.acquired then s.close k else s
  | .closeSession => s.shutdown
  | .resumeOpen k => s.resumeOpen k
  | .resumeSend i => if (s.senders i).point = .loop then s.iterate i else s
  | .acknowledge k => s.acknowledge k
  | .dispatch j =>
    match s.launched[j]? with
    | none => s
    | some f => { s with launched := s.launched.eraseIdx j }.enqueue ⟨f, .launched⟩
  | .write accepted =>
    match s.writeQueue with
    | [] => s
    | w :: rest =>
      if accepted && s.transport then { s with writeQueue := rest }.written w
      else { s with writeQueue := rest }.writeFails w
  | .frame f decoded =>
    match s.handshake with
    | .reading => (s.record (.received f)).processHandshake f
    | .over =>
      if s.state = .ready ∧ s.transport = true then (s.record (.received f)).routeFrame f decoded
      else s
    | _ => s
  | .readError =>
    match s.handshake with
    | .reading => s.handshakeFails
    | .over => if s.state = .ready ∧ s.transport = true then s.shutdown else s
    | _ => s

/-- The steps up to the CONNECT request of the first stream. -/
def opening : List Event :=
  [.ensureReady, .frame ⟨.settings, 0, 0, []⟩ none, .write true, .acquireStream, .openTunnel 0,
    .write true]

def response : Event := .frame ⟨.headers, 4, 1, [0x88]⟩ (some [(":status".toList, "200".toList)])

end Anywhere.Naive
