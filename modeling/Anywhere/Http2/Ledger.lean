import Anywhere.Http2.Sending

/-!
# Anywhere — `GrpcConnection` and `XHttpClient`: the windows of the peer

What the peer grants is kept in a ledger: the increments of each stream, with 0 for the
connection, the initial window in force, and the bytes of DATA that are taken for it. Bytes are
counted when they are taken, which is before they are written.

* `Ledger.window` — what is left of the window of a stream.
* `Peer` — a peer that keeps windows within 2^31-1.
* `Within` — the windows are those of the ledger, and whatever is taken next fits into them.
* `Accounts` — the invariant, with `Accounts.same`, `Accounts.one` and `Accounts.chargeCall` for
  steps that take nothing, that move one call, and that take frames for one.
-/

namespace Anywhere.Http2

open Lib List
open Naive (int32 int32_of_fits parseWindowUpdate)

-- ----
-- The ledger

/-- What the peer granted and what was sent; stream 0 is the connection. -/
structure Ledger where
  initial : Int := 65535
  maxFrameSize : Int := 16384
  increments : Nat → Int := fun _ => 0
  sent : Nat → Int := fun _ => 0

/-- The stream of its own, with the window in the variable of the call. -/
def Upload.own : Upload → Option (Nat × Int)
  | .active => none
  | .packet streamId window => some (streamId, window)

/-- The DATA frames a call is about to write. -/
def Point.dataFrames : Point → List RawFrame
  | .writing frames _ _ => frames.filter fun f => f.type = 0x00
  | _ => []

/-- The DATA frames a step takes. -/
def taken (client : Client) (s : Uplink) : Event → List RawFrame
  | .round i => if (s.calls i).point = .loop then
      ((step client s (.round i)).calls i).point.dataFrames else []
  | .sendPacket i data headerBlock =>
    if (s.calls i).point = .idle then
      ((step client s (.sendPacket i data headerBlock)).calls i).point.dataFrames
    else []
  | _ => []

def bytesFor (streamId : Nat) (frames : List RawFrame) : Int :=
  dataBytes (frames.filter fun f => streamId = 0 ∨ f.streamID = streamId)

namespace Ledger

def connection (l : Ledger) : Int := 65535 + l.increments 0 - l.sent 0

/-- What is left of the window of a stream: the initial window in force and its own increments,
less the bytes sent on it. -/
def window (l : Ledger) (streamId : Nat) : Int :=
  l.initial + l.increments streamId - l.sent streamId

def left (l : Ledger) (streamId : Nat) : Int :=
  if streamId = 0 then l.connection else l.window streamId

def credit (streamId : Nat) (increment : Int) (l : Ledger) : Ledger :=
  { l with increments := Function.update l.increments streamId (l.increments streamId + increment) }

def charge (frames : List RawFrame) (l : Ledger) : Ledger :=
  { l with sent := fun streamId => l.sent streamId + bytesFor streamId frames }

def after (client : Client) (s : Uplink) (e : Event) (l : Ledger) : Ledger :=
  match e with
  | .windowUpdate streamId payload =>
    match parseWindowUpdate payload with
    | some increment => l.credit streamId increment
    | none => l
  | .setting 0x04 value => { l with initial := value }
  | .setting 0x05 value => { l with maxFrameSize := value }
  | e => l.charge (taken client s e)

end Ledger

def account (client : Client) (p : Uplink × Ledger) (e : Event) : Uplink × Ledger :=
  (step client p.1 e, p.2.after client p.1 e)

/-- The peer keeps the windows within 2^31-1. -/
def Peer (p : Uplink × Ledger) : Event → Prop
  | .windowUpdate streamId payload =>
    ∀ increment, parseWindowUpdate payload = some increment → p.2.left streamId +
      increment ≤ 0x7FFFFFFF
  | .setting 0x04 value =>
    0 ≤ value ∧ value ≤ 0x7FFFFFFF ∧
      ∀ streamId, streamId ≠ 0 → value + p.2.increments streamId - p.2.sent streamId ≤ 0x7FFFFFFF
  | _ => True

namespace Uplink

def Waits (s : Uplink) (i : Nat) : Prop :=
  (s.calls i).point = .loop ∨ (s.calls i).point = .blocked ∨ (s.calls i).point = .parked

/-- The stream of a call in packet-up mode that is not done, and the window stored for it. -/
def stored (s : Uplink) (i : Nat) : Option (Nat × Int) :=
  match (s.calls i).point with
  | .loop | .blocked | .parked => (s.calls i).upload.own.map fun p =>
      (p.1, s.effectiveStreamWindow p.1 p.2)
  | .writing _ _ upload => upload.own
  | _ => none

end Uplink

/-- The stored windows are those of the ledger, and what is taken next fits into them. -/
structure Within (client : Client) (s : Uplink) (l : Ledger) : Prop where
  connection : s.h2PeerConnectionWindow = l.connection
  granted : l.sent 0 ≤ 65535 + l.increments 0
  active : s.h2PeerStreamSendWindow = l.window client.activeStream
  packets : s.h2StreamClosed = false → ∀ i streamId window, s.stored i = some (streamId, window) →
    window = l.window streamId
  fits : ∀ e streamId, bytesFor streamId (taken client s e) ≤ max 0 (l.left streamId)
  frames : ∀ e, ∀ f ∈ taken client s e, (f.payload.length : Int) ≤ l.maxFrameSize

-- ----
-- Frames

theorem bytesFor_nil (streamId : Nat) : bytesFor streamId [] = 0 := rfl

theorem bytesFor_eq {frames : List RawFrame} {k : Nat} (h : ∀ f ∈ frames, f.streamID = k)
    (streamId : Nat) :
    bytesFor streamId frames = if streamId = 0 ∨ streamId = k then dataBytes frames else 0 := by
  unfold bytesFor
  split
  · rename_i hid
    rw [filter_eq_self.mpr]
    intro f hf
    rw [decide_eq_true_eq, h f hf]
    exact hid.imp_right Eq.symm
  · rename_i hid
    rw [filter_eq_nil_iff.mpr]
    · rfl
    · intro f hf hdecide
      rw [decide_eq_true_eq, h f hf] at hdecide
      exact hid (hdecide.imp_right Eq.symm)

structure Takes (s : Uplink) (frames : List RawFrame) (streamId : Nat) (window : Int) : Prop where
  stream : ∀ f ∈ frames, f.streamID = streamId
  size : ∀ f ∈ frames, (f.payload.length : Int) ≤ s.h2MaxFrameSize
  connection : dataBytes frames ≤ max 0 s.h2PeerConnectionWindow
  window : dataBytes frames ≤ max 0 window

theorem Takes.nil (s : Uplink) (streamId : Nat) (window : Int) : Takes s [] streamId window where
  stream := fun _ hf => absurd hf not_mem_nil
  size := fun _ hf => absurd hf not_mem_nil
  connection := le_max_left _ _
  window := le_max_left _ _

theorem takes_dataFrames (s : Uplink) (endStream : UInt8) (streamId : Nat) (data : Bytes)
    (window : Int) :
    Takes s (dataFrames endStream streamId s.h2MaxFrameSize data
      (min s.h2PeerConnectionWindow window)).1 streamId
      window := by
  have hsize := dataFrames_size endStream streamId s.h2MaxFrameSize data
    (min s.h2PeerConnectionWindow window)
  have hfit : dataBytes (dataFrames endStream streamId s.h2MaxFrameSize data
      (min s.h2PeerConnectionWindow window)).1 ≤ max 0 (min s.h2PeerConnectionWindow window) := by
    rcases le_total (min s.h2PeerConnectionWindow window) 0 with hshut | hopen
    · rw [dataFrames_shut _ _ _ data hshut]
      exact le_max_left _ _
    · exact le_trans (dataFrames_fit _ _ _ data hopen) (le_max_right _ _)
  exact {
    stream := fun f hf => (hsize f hf).2.1
    size := fun f hf => (hsize f hf).2.2.2
    connection := by omega
    window := by omega }

theorem filter_dataFrames (endStream : UInt8) (streamId : Nat) (maxSize : Int) (data : Bytes)
    (window : Int) :
    ((dataFrames endStream streamId maxSize data window).1.filter fun f => f.type = 0x00) =
      (dataFrames endStream streamId maxSize data window).1 := by
  rw [filter_eq_self]
  intro f hf
  rw [decide_eq_true_eq]
  exact (dataFrames_size _ _ _ data window f hf).1

variable {streamId : Nat}

section Taken

variable {client : Client} {s : Uplink} {i : Nat}

theorem taken_round_over (h : ¬ ((s.calls i).point = .loop ∧ (s.calls i).rest ≠ [])) :
    taken client s (.round i) = [] := by
  dsimp only [taken, step]
  split
  · rename_i hloop
    rw [hloop]
    rfl
  · rfl

theorem taken_active (hloop : (s.calls i).point = .loop) (hrest : (s.calls i).rest ≠ [])
    (hactive : (s.calls i).upload = .active) :
    taken client s (.round i) =
      if s.h2StreamClosed then []
      else (dataFrames 0 client.activeStream s.h2MaxFrameSize (s.calls i).rest
        (min s.h2PeerConnectionWindow s.h2PeerStreamSendWindow)).1 := by
  dsimp only [taken, step]
  rw [if_pos hloop, if_pos ⟨hloop, hrest⟩, hactive]
  dsimp only
  unfold Uplink.roundActive
  split
  · rw [Uplink.setPoint_calls, Function.update_self]
    rfl
  · dsimp only
    split
    · rename_i hshut
      rw [dataFrames_shut _ _ _ _ hshut, Uplink.setPoint_calls, Function.update_self]
      rfl
    · rw [Uplink.setPoint_calls, Function.update_self]
      dsimp only
      split
      · rename_i hempty
        rw [hempty]
        rfl
      · exact filter_dataFrames _ _ _ _ _

theorem taken_packet (hloop : (s.calls i).point = .loop) (hrest : (s.calls i).rest ≠ [])
    {streamWindow : Int} (hpacket : (s.calls i).upload = .packet streamId streamWindow) :
    taken client s (.round i) =
      if s.h2StreamClosed then []
      else (dataFrames 0x01 streamId s.h2MaxFrameSize (s.calls i).rest
        (min s.h2PeerConnectionWindow (s.effectiveStreamWindow streamId streamWindow))).1 := by
  dsimp only [taken, step]
  rw [if_pos hloop, if_pos ⟨hloop, hrest⟩, hpacket]
  dsimp only
  unfold Uplink.roundPacket
  split
  · rw [Uplink.setPoint_calls, Function.update_self]
    rfl
  · dsimp only
    split
    · rename_i hshut
      rw [dataFrames_shut _ _ _ _ hshut, Uplink.setPoint_calls, Function.update_self]
      rfl
    · rw [Uplink.setPoint_calls, Function.update_self]
      dsimp only
      split
      · rename_i hempty
        rw [hempty]
        rfl
      · exact filter_dataFrames _ _ _ _ _

theorem taken_sendPacket (hidle : (s.calls i).point = .idle) (data headerBlock : Bytes) :
    taken client s (.sendPacket i data headerBlock) =
      if s.h2StreamClosed ∨ client ≠ .xhttp .packetUp then []
      else (dataFrames 0x01 s.h2NextPacketStreamId s.h2MaxFrameSize data
        (min s.h2PeerConnectionWindow s.h2PeerInitialWindowSize)).1 := by
  dsimp only [taken, step]
  rw [if_pos hidle]
  by_cases hclient : client = .xhttp .packetUp
  · rw [if_pos ⟨hidle, hclient⟩]
    unfold Uplink.sendH2PacketUp
    split
    · rename_i hclosed
      rw [if_pos (.inl hclosed), Uplink.setPoint_calls, Function.update_self]
      rfl
    · rename_i hclosed
      rw [if_neg (not_or.mpr ⟨hclosed, not_not.mpr hclient⟩), Uplink.setCall_calls,
        Function.update_self]
      dsimp only [Point.dataFrames]
      rw [filter_cons_of_neg]
      · exact filter_dataFrames _ _ _ _ _
      · rw [decide_eq_true_eq]
        exact (by decide : ¬ (0x01 : UInt8) = 0x00)
  · rw [if_neg fun hand => hclient hand.2, if_pos (.inr hclient), hidle]
    rfl

end Taken

-- ----
-- The invariant

/-- The windows are those of the ledger, and no number is out of the range of an `Int`. -/
structure Accounts (client : Client) (s : Uplink) (l : Ledger) : Prop where
  own : Own client s
  clear : ∀ i frames next streamId window, (s.calls i).point = .writing frames next
    (.packet streamId window) →
    s.h2PacketStreamWindows streamId = none
  connection : s.h2PeerConnectionWindow = l.connection
  connection_nonneg : 0 ≤ l.connection
  connection_le : l.connection ≤ 0x7FFFFFFF
  initial : s.h2PeerInitialWindowSize = l.initial
  initial_nonneg : 0 ≤ l.initial
  initial_le : l.initial ≤ 0x7FFFFFFF
  maxFrameSize : s.h2MaxFrameSize = l.maxFrameSize
  active : s.h2PeerStreamSendWindow = l.window client.activeStream
  packets : s.h2StreamClosed = false → ∀ i streamId window, s.stored i = some (streamId, window) →
    window = l.window streamId
  floor : ∀ streamId, streamId ≠ 0 → -0x7FFFFFFF ≤ l.increments streamId - l.sent streamId
  ceil : ∀ streamId, streamId ≠ 0 → l.window streamId ≤ 0x7FFFFFFF
  fresh : client = .xhttp .packetUp → ∀ streamId, s.h2NextPacketStreamId ≤ streamId →
    l.increments streamId = 0 ∧ l.sent streamId = 0

theorem activeStream_ne_zero (client : Client) : client.activeStream ≠ 0 := by
  rcases client with _ | _ | _ | _ | _ <;> decide

namespace Ledger

theorem charge_nil (l : Ledger) : l.charge [] = l := by
  have hsent : (fun streamId => l.sent streamId + bytesFor streamId []) = l.sent := by
    funext streamId
    rw [bytesFor_nil, Int.add_zero]
  rw [charge, hsent]

variable {l : Ledger} {frames : List RawFrame} {k : Nat}

theorem connection_charge (h : ∀ f ∈ frames, f.streamID = k) :
    (l.charge frames).connection = l.connection - dataBytes frames := by
  show 65535 + l.increments 0 - (l.sent 0 + bytesFor 0 frames) = 65535 + l.increments 0 - l.sent 0 -
    dataBytes frames
  rw [bytesFor_eq h, if_pos (.inl rfl)]
  omega

theorem window_charge (h : ∀ f ∈ frames, f.streamID = k) : 
    (l.charge frames).window k = l.window k - dataBytes frames := by
  show l.initial + l.increments k - (l.sent k + bytesFor k frames) = l.initial +
    l.increments k - l.sent k -
    dataBytes frames
  rw [bytesFor_eq h, if_pos (.inr rfl)]
  omega

theorem sent_charge_other (h : ∀ f ∈ frames, f.streamID = k) (hzero : streamId ≠ 0)
    (hne : streamId ≠ k) : (l.charge frames).sent streamId = l.sent streamId := by
  show l.sent streamId + bytesFor streamId frames = l.sent streamId
  rw [bytesFor_eq h, if_neg (not_or.mpr ⟨hzero, hne⟩), Int.add_zero]

theorem window_charge_other (h : ∀ f ∈ frames, f.streamID = k) (hzero : streamId ≠ 0)
    (hne : streamId ≠ k) : (l.charge frames).window streamId = l.window streamId := by
  rw [window, sent_charge_other h hzero hne]
  rfl

theorem connection_credit (increment : Int) :
    (l.credit 0 increment).connection = l.connection + increment := by
  show 65535 + Function.update l.increments 0 (l.increments 0 + increment) 0 - l.sent 0 =
    65535 + l.increments 0 - l.sent 0 + increment
  rw [Function.update_self]
  omega

theorem window_credit (streamId : Nat) (increment : Int) :
    (l.credit streamId increment).window streamId = l.window streamId + increment := by
  show l.initial + Function.update l.increments streamId
    (l.increments streamId + increment) streamId -
    l.sent streamId = l.initial + l.increments streamId - l.sent streamId + increment
  rw [Function.update_self]
  omega

theorem increments_credit_other {other : Nat} (h : other ≠ streamId) (increment : Int) :
    (l.credit streamId increment).increments other = l.increments other :=
  Function.update_of_ne h _ _

theorem window_credit_other {other : Nat} (h : other ≠ streamId) (increment : Int) :
    (l.credit streamId increment).window other = l.window other := by
  rw [window, increments_credit_other h]
  rfl

theorem connection_credit_other (h : streamId ≠ 0) (increment : Int) :
    (l.credit streamId increment).connection = l.connection := by
  rw [connection, increments_credit_other (Ne.symm h)]
  rfl

end Ledger

variable {window : Int}

namespace Uplink

variable {s t : Uplink} {i j : Nat}

theorem stored_congr (hcalls : t.calls j = s.calls j)
    (hentries : ∀ id, (s.calls j).upload.stream = some id → t.h2PacketStreamWindows id =
      s.h2PacketStreamWindows id) :
    t.stored j = s.stored j := by
  have hown : (s.calls j).upload.own.map (fun p => (p.1, t.effectiveStreamWindow p.1 p.2)) =
      (s.calls j).upload.own.map (fun p => (p.1, s.effectiveStreamWindow p.1 p.2)) := by
    rcases hupload : (s.calls j).upload with _ | ⟨id, window⟩
    · rfl
    · have hid := hentries id (by rw [hupload]; rfl)
      show some (id, (t.h2PacketStreamWindows id).getD window) =
        some (id, (s.h2PacketStreamWindows id).getD window)
      rw [hid]
  unfold stored
  rw [hcalls, hown]

theorem stored_waits (h : (s.calls i).point = .loop ∨ (s.calls i).point = .blocked ∨
    (s.calls i).point = .parked) :
    s.stored i = (s.calls i).upload.own.map fun p => (p.1, s.effectiveStreamWindow p.1 p.2) := by
  unfold stored
  rcases h with h | h | h <;> rw [h]

theorem waits_congr (hcalls : t.calls i = s.calls i) : t.Waits i ↔ s.Waits i := by
  unfold Waits
  rw [hcalls]

/-- A window is stored for a call that waits, at its stream or in its variable, and for one that
writes. -/
theorem stored_some_iff :
    s.stored i = some (streamId, window) ↔
      (s.Waits i ∧ ∃ own, (s.calls i).upload = .packet streamId own ∧
        window = s.effectiveStreamWindow streamId own) ∨
        ∃ frames next, (s.calls i).point = .writing frames next (.packet streamId window) := by
  constructor
  · intro h
    have hown : (s.calls i).upload.own.map (fun p => (p.1, s.effectiveStreamWindow p.1 p.2)) =
        some (streamId, window) →
        ∃ own, (s.calls i).upload = .packet streamId own ∧
          window = s.effectiveStreamWindow streamId own := by
      intro hmap
      rcases hupload : (s.calls i).upload with _ | ⟨id, own⟩
      · rw [hupload] at hmap
        cases hmap
      · rw [hupload] at hmap
        obtain ⟨rfl, rfl⟩ := Prod.mk.inj (Option.some.inj hmap)
        exact ⟨own, rfl, rfl⟩
    unfold stored at h
    rcases hpoint : (s.calls i).point with _ | _ | _ | _ | ⟨frames, next, upload⟩ | _ | _ <;>
      rw [hpoint] at h
    · cases h
    · exact .inl ⟨.inl hpoint, hown h⟩
    · exact .inl ⟨.inr (.inl hpoint), hown h⟩
    · exact .inl ⟨.inr (.inr hpoint), hown h⟩
    · rcases upload with _ | ⟨id, own⟩
      · cases h
      · cases h
        exact .inr ⟨frames, next, rfl⟩
    · cases h
    · cases h
  · rintro (⟨hwaits, own, hupload, rfl⟩ | ⟨frames, next, hpoint⟩)
    · rw [stored_waits hwaits, hupload]
      rfl
    · unfold stored
      rw [hpoint]
      rfl

theorem stored_entry {entry value : Int} (h : t.stored i = some (streamId, window))
    (hclear : ∀ frames next window, (s.calls i).point = .writing frames next
      (.packet streamId window) → s.h2PacketStreamWindows streamId = none)
    (hcalls : t.calls = s.calls) (hentry : s.h2PacketStreamWindows streamId = some entry)
    (hvalue : t.h2PacketStreamWindows streamId = some value) :
    window = value ∧ s.stored i = some (streamId, entry) := by
  rcases stored_some_iff.1 h with ⟨hwaits, own, hupload, rfl⟩ | ⟨frames, next, hpoint⟩
  · rw [waits_congr (congrFun hcalls i)] at hwaits
    rw [hcalls] at hupload
    refine ⟨?_, stored_some_iff.2 (.inl ⟨hwaits, own, hupload, ?_⟩)⟩
    · rw [effectiveStreamWindow, hvalue]
      rfl
    · rw [effectiveStreamWindow, hentry]
      rfl
  · rw [hcalls] at hpoint
    exact absurd (hentry.symm.trans (hclear frames next window hpoint)) nofun

theorem stored_stream
      (hown : ∀ frames next upload, (s.calls i).point = .writing frames next upload →
        upload.stream = (s.calls i).upload.stream)
    (h : s.stored i = some (streamId, window)) : (s.calls i).upload.stream = some streamId := by
  rcases stored_some_iff.1 h with ⟨-, own, hupload, -⟩ | ⟨frames, next, hpoint⟩
  · rw [hupload]
    rfl
  · rw [← hown frames next _ hpoint]
    rfl

/-- Whether something is stored for a call is up to the call. -/
theorem stored_ne_none (h : t.stored i = some (streamId, window))
    (hcalls : t.calls = s.calls) : s.stored i ≠ none := by
  rcases stored_some_iff.1 h with ⟨hwaits, own, hupload, -⟩ | ⟨frames, next, hpoint⟩
  · rw [waits_congr (congrFun hcalls i)] at hwaits
    rw [hcalls] at hupload
    rw [stored_some_iff.2 (.inl ⟨hwaits, own, hupload, rfl⟩)]
    exact nofun
  · rw [hcalls] at hpoint
    rw [stored_some_iff.2 (.inr ⟨frames, next, hpoint⟩)]
    exact nofun

theorem stored_dropped (h : t.stored i = some (streamId, window))
    (hcalls : t.calls = s.calls) (hdropped : t.h2PacketStreamWindows streamId = none)
    (hsame : ∀ window, (s.calls i).upload = .packet streamId window →
      s.effectiveStreamWindow streamId window = window) : s.stored i = some (streamId, window) := by
  rcases stored_some_iff.1 h with ⟨hwaits, own, hupload, rfl⟩ | ⟨frames, next, hpoint⟩
  · rw [waits_congr (congrFun hcalls i)] at hwaits
    rw [hcalls] at hupload
    refine stored_some_iff.2 (.inl ⟨hwaits, own, hupload, ?_⟩)
    rw [hsame own hupload, effectiveStreamWindow, hdropped]
    rfl
  · rw [hcalls] at hpoint
    exact stored_some_iff.2 (.inr ⟨frames, next, hpoint⟩)

/-- The window of another stream has no part in what is stored for a call. -/
theorem stored_elsewhere {id : Nat} (h : t.stored i = some (id, window))
    (hcalls : t.calls = s.calls) (hne : id ≠ streamId)
    (hentries : ∀ id, id ≠ streamId → t.h2PacketStreamWindows id = s.h2PacketStreamWindows id) :
    s.stored i = some (id, window) := by
  rcases stored_some_iff.1 h with ⟨hwaits, own, hupload, rfl⟩ | ⟨frames, next, hpoint⟩
  · rw [waits_congr (congrFun hcalls i)] at hwaits
    rw [hcalls] at hupload
    refine stored_some_iff.2 (.inl ⟨hwaits, own, hupload, ?_⟩)
    rw [effectiveStreamWindow, effectiveStreamWindow, hentries id hne]
  · rw [hcalls] at hpoint
    exact stored_some_iff.2 (.inr ⟨frames, next, hpoint⟩)

end Uplink

namespace Accounts

variable {client : Client} {s t : Uplink} {l : Ledger} {frames : List RawFrame} {k i : Nat}
    {window : Int}

theorem start : Accounts client {} {} where
  own := Own.start
  clear := nofun
  connection := rfl
  connection_nonneg := by decide
  connection_le := by decide
  initial := rfl
  initial_nonneg := by decide
  initial_le := by decide
  maxFrameSize := rfl
  active := rfl
  packets := nofun
  floor := fun _ _ => (by decide : (-0x7FFFFFFF : Int) ≤ 0 - 0)
  ceil := fun _ _ => (by decide : (65535 + 0 - 0 : Int) ≤ 0x7FFFFFFF)
  fresh := fun _ _ _ => ⟨rfl, rfl⟩

theorem same (h : Accounts client s l) (hown : Own client t)
    (hconnection : t.h2PeerConnectionWindow = s.h2PeerConnectionWindow)
    (hactive : t.h2PeerStreamSendWindow = s.h2PeerStreamSendWindow)
    (hinitial : t.h2PeerInitialWindowSize = s.h2PeerInitialWindowSize)
    (hmaxFrameSize : t.h2MaxFrameSize = s.h2MaxFrameSize)
    (hnext : t.h2NextPacketStreamId = s.h2NextPacketStreamId)
    (hclear : ∀ i frames next streamId window, (t.calls i).point = .writing frames next
      (.packet streamId window) → t.h2PacketStreamWindows streamId = none)
    (hstored : t.h2StreamClosed = false → s.h2StreamClosed = false ∧
      ∀ i streamId window, t.stored i = some (streamId, window) →
      s.stored i = some (streamId, window)) :
    Accounts client t l where
  own := hown
  clear := hclear
  connection := hconnection.trans h.connection
  connection_nonneg := h.connection_nonneg
  connection_le := h.connection_le
  initial := hinitial.trans h.initial
  initial_nonneg := h.initial_nonneg
  initial_le := h.initial_le
  maxFrameSize := hmaxFrameSize.trans h.maxFrameSize
  active := hactive.trans h.active
  packets := by
    intro hopen i streamId window hi
    obtain ⟨hopen, hstored⟩ := hstored hopen
    exact h.packets hopen i streamId window (hstored i streamId window hi)
  floor := h.floor
  ceil := h.ceil
  fresh := by
    rw [hnext]
    exact h.fresh

/-- A step that takes frames for the stream `k`. -/
theorem charge (h : Accounts client s l) (hown : Own client t) (hk : k ≠ 0)
    (htakes : Takes s frames k window) (hwindow : window = l.window k)
    (hconnection : t.h2PeerConnectionWindow = s.h2PeerConnectionWindow - dataBytes frames)
    (hactive : t.h2PeerStreamSendWindow = (l.charge frames).window client.activeStream)
    (hinitial : t.h2PeerInitialWindowSize = s.h2PeerInitialWindowSize)
    (hmaxFrameSize : t.h2MaxFrameSize = s.h2MaxFrameSize)
    (hclear : ∀ i frames next streamId window, (t.calls i).point = .writing frames next
      (.packet streamId window) → t.h2PacketStreamWindows streamId = none)
    (hpackets : ∀ i streamId window, t.stored i = some (streamId, window) →
      window = (l.charge frames).window streamId)
    (hfresh : client = .xhttp .packetUp → s.h2NextPacketStreamId ≤ t.h2NextPacketStreamId ∧
      k < t.h2NextPacketStreamId) :
    Accounts client t (l.charge frames) := by
  have hnonneg := dataBytes_nonneg frames
  have hfits := htakes.connection
  have hfits' := htakes.window
  have hle := h.connection_nonneg
  have hle' := h.connection_le
  have hceil := h.ceil k hk
  have hinit := h.initial_le
  have hfirst := h.connection
  refine ⟨hown, hclear, ?_, ?_, ?_, hinitial.trans h.initial, h.initial_nonneg, h.initial_le,
    hmaxFrameSize.trans h.maxFrameSize, hactive, fun _ => hpackets, ?_, ?_, ?_⟩
  · rw [Ledger.connection_charge htakes.stream, hconnection, h.connection]
  · rw [Ledger.connection_charge htakes.stream]
    omega
  · rw [Ledger.connection_charge htakes.stream]
    omega
  · intro streamId hzero
    by_cases hid : streamId = k
    · have hcharged : l.initial + l.increments k - (l.charge frames).sent k = l.window k -
          dataBytes frames :=
        Ledger.window_charge htakes.stream
      have hleft : l.window k = l.initial + l.increments k - l.sent k := rfl
      have hfloor := h.floor k hk
      rw [hid]
      show -0x7FFFFFFF ≤ l.increments k - (l.charge frames).sent k
      rcases le_total 0 window with hopen | hshut
      · rw [max_eq_right hopen] at hfits'
        omega
      · rw [max_eq_left hshut] at hfits'
        omega
    · rw [Ledger.sent_charge_other htakes.stream hzero hid]
      exact h.floor streamId hzero
  · intro streamId hzero
    by_cases hid : streamId = k
    · rw [hid, Ledger.window_charge htakes.stream]
      omega
    · rw [Ledger.window_charge_other htakes.stream hzero hid]
      exact h.ceil streamId hzero
  · intro hclient streamId hstreamId
    obtain ⟨hle, hlt⟩ := hfresh hclient
    obtain ⟨hincrements, hsent⟩ := h.fresh hclient streamId (le_trans hle hstreamId)
    have hnext := hown.next
    refine ⟨hincrements, ?_⟩
    rw [Ledger.sent_charge_other htakes.stream (by omega) (by omega), hsent]

/-- A call moves on without frames. -/
theorem one (h : Accounts client s l) (hown : Own client t)
    (hconnection : t.h2PeerConnectionWindow = s.h2PeerConnectionWindow)
    (hactive : t.h2PeerStreamSendWindow = s.h2PeerStreamSendWindow)
    (hinitial : t.h2PeerInitialWindowSize = s.h2PeerInitialWindowSize)
    (hmaxFrameSize : t.h2MaxFrameSize = s.h2MaxFrameSize)
    (hnext : t.h2NextPacketStreamId = s.h2NextPacketStreamId)
    (hentries : t.h2PacketStreamWindows = s.h2PacketStreamWindows)
    (hopen : t.h2StreamClosed = false → s.h2StreamClosed = false)
    (hothers : ∀ j, j ≠ i → t.calls j = s.calls j)
    (hnot : ∀ frames next upload, (t.calls i).point ≠ .writing frames next upload)
    (hi : t.stored i = none ∨ t.stored i = s.stored i) : Accounts client t l := by
  refine h.same hown hconnection hactive hinitial hmaxFrameSize hnext ?_ fun hclosed =>
    ⟨hopen hclosed, ?_⟩
  · intro j frames next streamId window hj
    by_cases hji : j = i
    · rw [hji] at hj
      exact absurd hj (hnot _ _ _)
    · rw [hothers j hji] at hj
      rw [hentries]
      exact h.clear j frames next streamId window hj
  · intro j streamId window hj
    by_cases hji : j = i
    · rw [hji] at hj ⊢
      rcases hi with hnone | hsame
      · rw [hnone] at hj
        cases hj
      · rw [← hsame, hj]
    · rwa [Uplink.stored_congr (hothers j hji) fun id _ => by rw [hentries]] at hj

/-- A call moves to a point where nothing is stored, or from one point where it waits to another. -/
theorem setPoint (h : Accounts client s l) {point : Point} (hown : Own client (t.setPoint i point))
    (hcalls : t.calls = s.calls)
    (hconnection : t.h2PeerConnectionWindow = s.h2PeerConnectionWindow)
    (hactive : t.h2PeerStreamSendWindow = s.h2PeerStreamSendWindow)
    (hinitial : t.h2PeerInitialWindowSize = s.h2PeerInitialWindowSize)
    (hmaxFrameSize : t.h2MaxFrameSize = s.h2MaxFrameSize)
    (hnext : t.h2NextPacketStreamId = s.h2NextPacketStreamId)
    (hentries : t.h2PacketStreamWindows = s.h2PacketStreamWindows)
    (hopen : t.h2StreamClosed = false → s.h2StreamClosed = false)
    (hpoint : point = .failed ∨ ((point = .loop ∨ point = .blocked ∨ point = .parked) ∧
      ((s.calls i).point = .loop ∨ (s.calls i).point = .blocked ∨ (s.calls i).point = .parked))) :
    Accounts client (t.setPoint i point) l := by
  have hcall : (t.setPoint i point).calls i = ⟨point, (s.calls i).rest, (s.calls i).upload⟩ := by
    rw [Uplink.setPoint_calls, Function.update_self, hcalls]
  refine h.one hown hconnection hactive hinitial hmaxFrameSize hnext hentries hopen ?_ ?_ ?_
    (i := i)
  · intro j hji
    rw [Uplink.setPoint_calls, Function.update_of_ne hji, hcalls]
  · rw [hcall]
    rintro frames next upload rfl
    rcases hpoint with hfailed | ⟨hwaits, -⟩
    · cases hfailed
    · rcases hwaits with hwaits | hwaits | hwaits <;> cases hwaits
  · rcases hpoint with rfl | ⟨hwaits, hwaited⟩
    · left
      unfold Uplink.stored
      rw [hcall]
    · right
      have heffective : ∀ p : Nat × Int,
          (t.setPoint i point).effectiveStreamWindow p.1 p.2 = s.effectiveStreamWindow p.1 p.2 := by
        intro p
        show (t.h2PacketStreamWindows p.1).getD p.2 = (s.h2PacketStreamWindows p.1).getD p.2
        rw [hentries]
      rw [Uplink.stored_waits (by rwa [hcall]), Uplink.stored_waits hwaited, hcall]
      simp only [heffective]

/-- A call takes frames for the stream `k`, which is that of no other call. -/
theorem chargeCall (h : Accounts client s l) {call : Call} (hown : Own client (t.setCall i call))
    (hk : k ≠ 0) (htakes : Takes s frames k window) (hwindow : window = l.window k)
    (hcalls : t.calls = s.calls) (hclosed : s.h2StreamClosed = false)
    (hconnection : t.h2PeerConnectionWindow = s.h2PeerConnectionWindow - dataBytes frames)
    (hactive : t.h2PeerStreamSendWindow = (l.charge frames).window client.activeStream)
    (hinitial : t.h2PeerInitialWindowSize = s.h2PeerInitialWindowSize)
    (hmaxFrameSize : t.h2MaxFrameSize = s.h2MaxFrameSize)
    (hentries : ∀ id, id ≠ k → t.h2PacketStreamWindows id = s.h2PacketStreamWindows id)
    (hsolo : ∀ j, j ≠ i → (s.calls j).upload.stream ≠ some k)
    (hclear : ∀ frames next streamId window, call.point = .writing frames next
      (.packet streamId window) → t.h2PacketStreamWindows streamId = none)
    (hstored : ∀ streamId window, (t.setCall i call).stored i = some (streamId, window) →
      window = (l.charge frames).window streamId)
    (hfresh : client = .xhttp .packetUp →
      s.h2NextPacketStreamId ≤ t.h2NextPacketStreamId ∧ k < t.h2NextPacketStreamId) :
    Accounts client (t.setCall i call) (l.charge frames) := by
  have hothers : ∀ j, j ≠ i → (t.setCall i call).calls j = s.calls j := by
    intro j hji
    rw [Uplink.setCall_calls, Function.update_of_ne hji, hcalls]
  have hother : ∀ j, j ≠ i → ∀ id, (s.calls j).upload.stream = some id → id ≠ k := by
    rintro j hji id hid rfl
    exact hsolo j hji hid
  refine h.charge hown hk htakes hwindow hconnection hactive hinitial hmaxFrameSize ?_ ?_ hfresh
  · intro j frames' next streamId window' hj
    by_cases hji : j = i
    · rw [hji, Uplink.setCall_calls, Function.update_self] at hj
      exact hclear frames' next streamId window' hj
    · rw [hothers j hji] at hj
      have hstream := h.own.writes j frames' next _ hj
      show t.h2PacketStreamWindows streamId = none
      rw [hentries streamId (hother j hji streamId hstream.symm)]
      exact h.clear j frames' next streamId window' hj
  · intro j streamId window' hj
    by_cases hji : j = i
    · rw [hji] at hj
      exact hstored streamId window' hj
    · rw [Uplink.stored_congr (hothers j hji) fun id hid => hentries id (hother j hji id hid)] at hj
      have hstream := Uplink.stored_stream (h.own.writes j) hj
      have hbelow := h.own.below j streamId hstream
      rw [h.packets hclosed j streamId window' hj,
        Ledger.window_charge_other htakes.stream (by omega) (hother j hji streamId hstream)]

/-- The window of a stream is an `Int`. -/
theorem window_fits (h : Accounts client s l) (hk : k ≠ 0) :
    -0x7FFFFFFF ≤ l.window k ∧ l.window k ≤ 0x7FFFFFFF := by
  have hfloor := h.floor k hk
  have hinit := h.initial_nonneg
  have hleft : l.window k = l.initial + l.increments k - l.sent k := rfl
  exact ⟨by omega, h.ceil k hk⟩

theorem takes (h : Accounts client s l) (e : Event) :
    ∃ k, k ≠ 0 ∧ Takes s (taken client s e) k (l.window k) := by
  have hnil : ∃ k, k ≠ 0 ∧ Takes s [] k (l.window k) := ⟨1, Nat.one_ne_zero, Takes.nil _ _ _⟩
  rcases e with ⟨i, data⟩ | ⟨i, data, headerBlock⟩ | i | i | ⟨i, succeeds⟩ | i | i |
    ⟨streamId, payload⟩ | _ |
    ⟨id, value⟩ | streamId | _ | _
  case sendPacket =>
    by_cases hidle : (s.calls i).point = .idle
    · rw [taken_sendPacket hidle]
      split
      · exact hnil
      · rename_i hor
        rw [not_or, not_not] at hor
        have hnext := h.own.next
        obtain ⟨hincrements, hsent⟩ := h.fresh hor.2 s.h2NextPacketStreamId (le_refl _)
        have hwindow : l.window s.h2NextPacketStreamId = s.h2PeerInitialWindowSize := by
          rw [Ledger.window, hincrements, hsent, h.initial, Int.add_zero, Int.sub_zero]
        refine ⟨s.h2NextPacketStreamId, by omega, ?_⟩
        rw [hwindow]
        exact takes_dataFrames s 0x01 s.h2NextPacketStreamId data s.h2PeerInitialWindowSize
    · dsimp only [taken]
      rw [if_neg hidle]
      exact hnil
  case round =>
    by_cases hloop : (s.calls i).point = .loop ∧ (s.calls i).rest ≠ []
    · obtain ⟨hloop, hrest⟩ := hloop
      rcases hupload : (s.calls i).upload with _ | ⟨streamId, window⟩
      · rw [taken_active hloop hrest hupload]
        split
        · exact hnil
        · refine ⟨client.activeStream, activeStream_ne_zero client, ?_⟩
          rw [← h.active]
          exact takes_dataFrames s 0 client.activeStream (s.calls i).rest s.h2PeerStreamSendWindow
      · rw [taken_packet hloop hrest hupload]
        split
        · exact hnil
        · rename_i hclosed
          rw [Bool.not_eq_true] at hclosed
          have hbelow := h.own.below i streamId (by rw [hupload]; rfl)
          have hstored : s.stored i = some (streamId, s.effectiveStreamWindow streamId window) := by
            rw [Uplink.stored_waits (.inl hloop), hupload]
            rfl
          refine ⟨streamId, by omega, ?_⟩
          rw [← h.packets hclosed i streamId _ hstored]
          exact takes_dataFrames s 0x01 streamId (s.calls i).rest
            (s.effectiveStreamWindow streamId window)
    · rw [taken_round_over hloop]
      exact hnil
  all_goals exact hnil

theorem within (h : Accounts client s l) : Within client s l where
  connection := h.connection
  granted := by
    have hnonneg := h.connection_nonneg
    unfold Ledger.connection at hnonneg
    omega
  active := h.active
  packets := h.packets
  fits := by
    intro e streamId
    obtain ⟨k, hk, htakes⟩ := h.takes e
    rw [bytesFor_eq htakes.stream]
    split
    · rename_i hid
      unfold Ledger.left
      split
      · rw [← h.connection]
        exact htakes.connection
      · rename_i hzero
        rw [hid.resolve_left hzero]
        exact htakes.window
    · exact le_max_left _ _
  frames := by
    intro e f hf
    obtain ⟨k, hk, htakes⟩ := h.takes e
    rw [← h.maxFrameSize]
    exact htakes.size f hf

end Accounts

end Anywhere.Http2
