import Anywhere.Http2.Ledger

/-!
# Anywhere — `GrpcConnection` and `XHttpClient`: sending within the windows

`GrpcConnection` keeps the account of its stream. `XHttpClient` credits to its active stream
whatever is for none of the blocked streams of packet-up mode, and does not apply SETTINGS to these.

* `Credited` — the steps that credit the stream they are for.
* `accounts_step`, `sends_within_windows` — in a run of such steps the windows are kept.
* `window_not_kept` — runs that send beyond a window and that lose an increment.
-/

namespace Anywhere.Http2

open Lib
open Naive (int32 int32_of_fits parseWindowUpdate)

/-- The steps of `XHttpClient` that credit the stream they are for: WINDOW_UPDATE is for the
connection, the active stream or one that is blocked, SETTINGS changes the initial window only while
no stream of packet-up mode is open, RST_STREAM does not find one that was credited, and a round
of such a stream is not kept from sending by the maximum frame size alone. -/
def Credited (client : Client) (p : Uplink × Ledger) (e : Event) : Prop :=
  match client, e with
  | .grpc, _ => True
  | .xhttp _, .windowUpdate streamId payload =>
    ∀ increment, parseWindowUpdate payload = some increment →
      streamId = 0 ∨ streamId = client.activeStream ∨ p.1.h2PacketStreamWindows streamId ≠ none ∨
        increment = 0
  | .xhttp _, .setting 0x04 value =>
    value = p.1.h2PeerInitialWindowSize ∨ p.1.h2StreamClosed = true ∨ ∀ i, p.1.stored i = none
  | .xhttp _, .rstStream streamId =>
    ∀ i window, (p.1.calls i).upload = .packet streamId window →
      p.1.effectiveStreamWindow streamId window = window ∨ p.1.stored i = none
  | .xhttp _, .round i =>
    ∀ streamId window, (p.1.calls i).upload = .packet streamId window →
      p.1.effectiveStreamWindow streamId window = window ∨ 0 < p.1.h2MaxFrameSize ∨
        min p.1.h2PeerConnectionWindow (p.1.effectiveStreamWindow streamId window) ≤ 0
  | .xhttp _, e => IdsLast p.1 e

-- ----
-- Steps

variable {streamId increment : Nat} {payload : Bytes}

section Steps

variable {client : Client} {s : Uplink} {l : Ledger} {i : Nat}

theorem accounts_roundActive (h : Accounts client s l) (hloop : (s.calls i).point = .loop)
    (hrest : (s.calls i).rest ≠ []) (hactive : (s.calls i).upload = .active) :
    Accounts client (s.roundActive client i) (l.charge (taken client s (.round i))) := by
  have hown := h.own.roundActive hactive
  rw [taken_active hloop hrest hactive]
  unfold Uplink.roundActive at hown ⊢
  split
  · rename_i hclosed
    rw [if_pos hclosed] at hown
    rw [Ledger.charge_nil]
    exact h.setPoint hown rfl rfl rfl rfl rfl rfl rfl id (.inl rfl)
  · rename_i hclosed
    rw [if_neg hclosed] at hown
    dsimp only at hown ⊢
    split
    · rename_i hshut
      rw [if_pos hshut] at hown
      rw [dataFrames_shut _ _ _ _ hshut, Ledger.charge_nil]
      exact h.setPoint hown rfl rfl rfl rfl rfl rfl rfl id (.inr ⟨.inr (.inl rfl), .inl hloop⟩)
    · rename_i hpositive
      rw [if_neg hpositive] at hown
      have htakes :=
        takes_dataFrames s 0 client.activeStream (s.calls i).rest s.h2PeerStreamSendWindow
      have hremaining := dataFrames_remaining 0 client.activeStream s.h2MaxFrameSize
        (s.calls i).rest (min s.h2PeerConnectionWindow s.h2PeerStreamSendWindow)
      generalize dataFrames 0 client.activeStream s.h2MaxFrameSize (s.calls i).rest
        (min s.h2PeerConnectionWindow s.h2PeerStreamSendWindow) = batch at hown htakes hremaining ⊢
      refine h.chargeCall hown (activeStream_ne_zero client) htakes h.active rfl
        (Bool.not_eq_true _ ▸ hclosed) ?_ ?_
        rfl rfl (fun _ _ => rfl) ?_ ?_ ?_ ?_
      · show s.h2PeerConnectionWindow - _ = _
        rw [hremaining]
        omega
      · rw [Ledger.window_charge htakes.stream, ← h.active]
        show s.h2PeerStreamSendWindow - _ = _
        rw [hremaining]
        omega
      · intro j _ hstream
        exact absurd (h.own.below j _ hstream).1 (lt_irrefl _)
      · intro frames next streamId window hpoint
        dsimp only at hpoint
        split at hpoint <;> cases hpoint
      · intro streamId window hstored
        -- a call on the active stream has no stream of its own
        have hstream := Uplink.stored_stream (hown.writes i) hstored
        rw [Uplink.setPoint_calls, Function.update_self] at hstream
        dsimp only at hstream
        rw [hactive] at hstream
        cases hstream
      · intro hclient
        have hnext := h.own.next
        refine ⟨le_refl _, ?_⟩
        rw [hclient]
        show 1 < s.h2NextPacketStreamId
        omega

theorem accounts_roundPacket (h : Accounts client s l) (hloop : (s.calls i).point = .loop)
    (hrest : (s.calls i).rest ≠ []) {streamWindow : Int}
    (hpacket : (s.calls i).upload = .packet streamId streamWindow)
    (hsize : s.effectiveStreamWindow streamId streamWindow = streamWindow ∨ 0 < s.h2MaxFrameSize ∨
      min s.h2PeerConnectionWindow (s.effectiveStreamWindow streamId streamWindow) ≤ 0) :
    Accounts client (s.roundPacket i streamId streamWindow)
    (l.charge (taken client s (.round i))) := by
  have hown := h.own.roundPacket hpacket
  have hstream : (s.calls i).upload.stream = some streamId := by
    rw [hpacket]
    rfl
  have hbelow := h.own.below i streamId hstream
  have hsolo : ∀ j, j ≠ i → (s.calls j).upload.stream ≠ some streamId :=
    fun j hji hj => hji (h.own.apart j i streamId hj hstream)
  have hbefore : s.stored i = some (streamId, s.effectiveStreamWindow streamId streamWindow) := by
    rw [Uplink.stored_waits (.inl hloop), hpacket]
    rfl
  rw [taken_packet hloop hrest hpacket]
  unfold Uplink.roundPacket at hown ⊢
  split
  · rename_i hclosed
    rw [if_pos hclosed] at hown
    rw [Ledger.charge_nil]
    exact h.setPoint hown rfl rfl rfl rfl rfl rfl rfl id (.inl rfl)
  · rename_i hclosed
    rw [if_neg hclosed] at hown
    rw [Bool.not_eq_true] at hclosed
    have hwindow := h.packets hclosed i streamId _ hbefore
    dsimp only at hown ⊢
    split
    · -- the window is put down
      rename_i hshut
      rw [if_pos hshut] at hown
      rw [dataFrames_shut _ _ _ _ hshut]
      refine h.chargeCall hown (by omega) (Takes.nil s streamId _) hwindow rfl hclosed
        (Int.sub_zero _).symm ?_ rfl rfl
        ?_ hsolo nofun ?_ ?_
      · rw [Ledger.charge_nil]
        exact h.active
      · exact fun id hid => Function.update_of_ne hid _ _
      · intro id window hstored
        rw [Uplink.stored_waits
          (by rw [Uplink.setCall_calls, Function.update_self]; exact .inr (.inl rfl)),
          Uplink.setCall_calls, Function.update_self] at hstored
        dsimp only at hstored
        rw [hpacket] at hstored
        obtain ⟨rfl, rfl⟩ := Prod.mk.inj (Option.some.inj hstored)
        rw [Ledger.charge_nil, ← hwindow]
        show (Function.update s.h2PacketStreamWindows streamId
          (some (s.effectiveStreamWindow streamId streamWindow)) streamId).getD streamWindow = _
        rw [Function.update_self]
        rfl
      · exact fun _ => ⟨le_refl _, hbelow.2⟩
    · rename_i hpositive
      rw [if_neg hpositive] at hown
      have htakes := takes_dataFrames s 0x01 streamId (s.calls i).rest
        (s.effectiveStreamWindow streamId streamWindow)
      have hremaining := dataFrames_remaining 0x01 streamId s.h2MaxFrameSize (s.calls i).rest
        (min s.h2PeerConnectionWindow (s.effectiveStreamWindow streamId streamWindow))
      have hsome : 0 < s.h2MaxFrameSize →
          (dataFrames 0x01 streamId s.h2MaxFrameSize (s.calls i).rest
            (min s.h2PeerConnectionWindow (s.effectiveStreamWindow streamId streamWindow))).1 ≠
            [] :=
        fun hmax => dataFrames_ne_nil _ _ hrest hmax (not_le.mp hpositive)
      generalize dataFrames 0x01 streamId s.h2MaxFrameSize (s.calls i).rest
        (min s.h2PeerConnectionWindow (s.effectiveStreamWindow streamId streamWindow)) =
          batch at hown htakes hremaining hsome ⊢
      refine h.chargeCall hown (by omega) htakes hwindow rfl hclosed ?_ ?_ rfl rfl ?_ hsolo ?_ ?_ ?_
      · show s.h2PeerConnectionWindow - _ = _
        rw [hremaining]
        omega
      · rw [Ledger.window_charge_other htakes.stream (activeStream_ne_zero client) (by omega)]
        exact h.active
      · exact fun id hid => Function.update_of_ne hid _ _
      · intro frames next id window hpoint
        dsimp only at hpoint
        split at hpoint
        · cases hpoint
        · cases hpoint
          exact Function.update_self _ _ _
      · intro id window hstored
        unfold Uplink.stored at hstored
        rw [Uplink.setCall_calls, Function.update_self] at hstored
        dsimp only at hstored
        by_cases hempty : batch.1 = []
        · -- only the maximum frame size may keep the round from sending
          rw [if_pos hempty, hpacket] at hstored
          obtain ⟨rfl, rfl⟩ := Prod.mk.inj (Option.some.inj hstored)
          have hsame : s.effectiveStreamWindow streamId streamWindow = streamWindow := by
            rcases hsize with heq | hmax | hshut
            · exact heq
            · exact absurd hempty (hsome hmax)
            · exact absurd hshut hpositive
          rw [hempty, Ledger.charge_nil, ← hwindow, hsame]
          show (Function.update s.h2PacketStreamWindows streamId none streamId).getD streamWindow =
            streamWindow
          rw [Function.update_self]
          rfl
        · rw [if_neg hempty] at hstored
          obtain ⟨rfl, rfl⟩ := Prod.mk.inj (Option.some.inj hstored)
          rw [Ledger.window_charge htakes.stream, ← hwindow, hremaining]
          omega
      · exact fun _ => ⟨le_refl _, hbelow.2⟩

theorem accounts_sendH2PacketUp (h : Accounts client s l) (hidle : (s.calls i).point = .idle)
    (hclient : client = .xhttp .packetUp) (hlast : s.h2NextPacketStreamId + 2 < 0x100000000)
    (data headerBlock : Bytes) :
    Accounts client (s.sendH2PacketUp i data headerBlock)
      (l.charge (taken client s (.sendPacket i data headerBlock))) := by
  have hown := h.own.sendH2PacketUp (i := i) hclient hlast data headerBlock
  have hnext := h.own.next
  rw [taken_sendPacket hidle]
  unfold Uplink.sendH2PacketUp at hown ⊢
  split
  · rename_i hclosed
    rw [if_pos hclosed] at hown
    rw [if_pos (.inl hclosed), Ledger.charge_nil]
    exact h.setPoint hown rfl rfl rfl rfl rfl rfl rfl id (.inl rfl)
  · rename_i hclosed
    rw [if_neg hclosed] at hown
    rw [if_neg (not_or.mpr ⟨hclosed, not_not.mpr hclient⟩)]
    rw [Bool.not_eq_true] at hclosed
    have hone : client.activeStream = 1 := by
      rw [hclient]
      rfl
    have hmod : (s.h2NextPacketStreamId + 2) % 0x100000000 = s.h2NextPacketStreamId + 2 :=
      Nat.mod_eq_of_lt hlast
    obtain ⟨hincrements, hsent⟩ := h.fresh hclient s.h2NextPacketStreamId (le_refl _)
    have hwindow : s.h2PeerInitialWindowSize = l.window s.h2NextPacketStreamId := by
      rw [Ledger.window, hincrements, hsent, h.initial, Int.add_zero, Int.sub_zero]
    have htakes := takes_dataFrames s 0x01 s.h2NextPacketStreamId data s.h2PeerInitialWindowSize
    have hremaining := dataFrames_remaining 0x01 s.h2NextPacketStreamId s.h2MaxFrameSize data
      (min s.h2PeerConnectionWindow s.h2PeerInitialWindowSize)
    dsimp only at hown ⊢
    rw [hmod] at hown ⊢
    generalize dataFrames 0x01 s.h2NextPacketStreamId s.h2MaxFrameSize data
      (min s.h2PeerConnectionWindow s.h2PeerInitialWindowSize) = batch at hown htakes hremaining ⊢
    refine h.chargeCall hown (by omega) htakes hwindow rfl hclosed ?_ ?_ rfl rfl
      (fun _ _ => rfl) ?_ ?_ ?_ ?_
    · show s.h2PeerConnectionWindow - _ = _
      rw [hremaining]
      omega
    · rw [Ledger.window_charge_other htakes.stream (activeStream_ne_zero client) (by omega)]
      exact h.active
    · intro j _ hstream
      exact absurd (h.own.below j _ hstream).2 (lt_irrefl _)
    · intro frames next id window hpoint
      cases hpoint
      by_contra hentry
      exact absurd (h.own.entries _ hentry).2 (lt_irrefl _)
    · intro id window hstored
      unfold Uplink.stored at hstored
      rw [Uplink.setCall_calls, Function.update_self] at hstored
      obtain ⟨rfl, rfl⟩ := Prod.mk.inj (Option.some.inj hstored)
      rw [Ledger.window_charge htakes.stream, ← hwindow, hremaining]
      omega
    · intro _
      show s.h2NextPacketStreamId ≤ s.h2NextPacketStreamId + 2 ∧ s.h2NextPacketStreamId <
        s.h2NextPacketStreamId + 2
      omega

theorem accounts_written (h : Accounts client s l) (succeeds : Bool) {frames : List RawFrame}
    {next : Bytes} {upload : Upload} (hpoint : (s.calls i).point = .writing frames next upload) :
    Accounts client (s.written i succeeds next upload) l := by
  have hown := h.own.written (i := i) succeeds hpoint
  unfold Uplink.written at hown ⊢
  split
  · rename_i hsucceeds
    rw [if_pos hsucceeds] at hown
    refine h.one hown rfl rfl rfl rfl rfl rfl id ?_ ?_ ?_ (i := i)
    · intro j hji
      rw [Uplink.setCall_calls, Function.update_of_ne hji]
    · rw [Uplink.setCall_calls, Function.update_self]
      intro frames' next' upload' hpoint'
      dsimp only at hpoint'
      split at hpoint' <;> cases hpoint'
    · by_cases hempty : next = []
      · left
        unfold Uplink.stored
        rw [Uplink.setCall_calls, Function.update_self, if_pos hempty]
      · right
        rw [if_neg hempty,
          Uplink.stored_waits (by rw [Uplink.setCall_calls, Function.update_self]; exact .inl rfl),
          Uplink.setCall_calls, Function.update_self]
        unfold Uplink.stored
        rw [hpoint]
        rcases upload with _ | ⟨id, window⟩
        · rfl
        · show some (id, (s.h2PacketStreamWindows id).getD window) = some (id, window)
          rw [h.clear i frames next id window hpoint]
          rfl
  · rename_i hfails
    rw [if_neg hfails] at hown
    exact h.setPoint hown rfl rfl rfl rfl rfl rfl rfl nofun (.inl rfl)

theorem accounts_credit {t : Uplink} (h : Accounts client s l) (hown : Own client t)
    (hpeer : l.left streamId + increment ≤ 0x7FFFFFFF)
    (hconnection : t.h2PeerConnectionWindow =
      if streamId = 0 then int32 (s.h2PeerConnectionWindow + increment)
      else s.h2PeerConnectionWindow)
    (hactive : t.h2PeerStreamSendWindow =
      if streamId = client.activeStream then int32 (s.h2PeerStreamSendWindow + increment)
      else s.h2PeerStreamSendWindow)
    (hinitial : t.h2PeerInitialWindowSize = s.h2PeerInitialWindowSize)
    (hmaxFrameSize : t.h2MaxFrameSize = s.h2MaxFrameSize)
    (hnext : t.h2NextPacketStreamId = s.h2NextPacketStreamId)
    (hclear : ∀ i frames next streamId window, (t.calls i).point = .writing frames next
      (.packet streamId window) → t.h2PacketStreamWindows streamId = none)
    (hpackets : t.h2StreamClosed = false → ∀ i id window, t.stored i = some (id, window) →
      window = (l.credit streamId increment).window id)
    (hknown : client = .xhttp .packetUp → streamId < s.h2NextPacketStreamId ∨ increment = 0) :
    Accounts client t (l.credit streamId increment) := by
  have hnonneg := h.connection_nonneg
  have hle := h.connection_le
  have hzero := activeStream_ne_zero client
  refine ⟨hown, hclear, ?_, ?_, ?_, hinitial.trans h.initial, h.initial_nonneg, h.initial_le,
    hmaxFrameSize.trans h.maxFrameSize, ?_, hpackets, ?_, ?_, ?_⟩
  · by_cases hid : streamId = 0
    · subst hid
      rw [Ledger.left, if_pos rfl] at hpeer
      rw [hconnection, if_pos rfl, Ledger.connection_credit, h.connection,
        int32_of_fits (by omega) (by omega)]
    · rw [hconnection, if_neg hid, Ledger.connection_credit_other hid]
      exact h.connection
  · by_cases hid : streamId = 0
    · subst hid
      rw [Ledger.connection_credit]
      omega
    · rw [Ledger.connection_credit_other hid]
      exact hnonneg
  · by_cases hid : streamId = 0
    · subst hid
      rw [Ledger.left, if_pos rfl] at hpeer
      rw [Ledger.connection_credit]
      exact hpeer
    · rw [Ledger.connection_credit_other hid]
      exact hle
  · by_cases hid : streamId = client.activeStream
    · subst hid
      rw [Ledger.left, if_neg hzero] at hpeer
      obtain ⟨hfloor, -⟩ := h.window_fits hzero
      rw [hactive, if_pos rfl, Ledger.window_credit, h.active, int32_of_fits (by omega) (by omega)]
    · rw [hactive, if_neg hid, Ledger.window_credit_other (Ne.symm hid)]
      exact h.active
  · intro other hother
    have hfloor := h.floor other hother
    by_cases hid : other = streamId
    · subst hid
      show -0x7FFFFFFF ≤ Function.update l.increments other (l.increments other + increment) other -
        l.sent other
      rw [Function.update_self]
      omega
    · rw [Ledger.increments_credit_other hid]
      exact hfloor
  · intro other hother
    by_cases hid : other = streamId
    · subst hid
      rw [Ledger.left, if_neg hother] at hpeer
      rw [Ledger.window_credit]
      exact hpeer
    · rw [Ledger.window_credit_other hid]
      exact h.ceil other hother
  · intro hclient other hother
    rw [hnext] at hother
    obtain ⟨hincrements, hsent⟩ := h.fresh hclient other hother
    refine ⟨?_, hsent⟩
    by_cases hid : other = streamId
    · subst hid
      have hnone : increment = 0 := (hknown hclient).resolve_left (not_lt.mpr hother)
      show Function.update l.increments other (l.increments other + increment) other = 0
      rw [Function.update_self, hincrements, hnone]
      rfl
    · rw [Ledger.increments_credit_other hid]
      exact hincrements

/-- A packet stream is neither the connection nor the active stream, so its window is no other's. -/
theorem stored_ne {t : Uplink} (hown : Own client t) {window : Int}
    (hstored : t.stored i = some (streamId, window)) :
    streamId ≠ 0 ∧ streamId ≠ client.activeStream := by
  have hbelow := hown.below i streamId (Uplink.stored_stream (hown.writes i) hstored)
  omega

/-- `GrpcConnection` credits its stream and the connection, and nothing else. -/
theorem accounts_handleWindowUpdate (h : Accounts .grpc s l)
    (hown : Own .grpc (s.handleWindowUpdate streamId payload))
    (hparse : parseWindowUpdate payload = some increment)
    (hpeer : l.left streamId + increment ≤ 0x7FFFFFFF) :
    Accounts .grpc (s.handleWindowUpdate streamId payload) (l.credit streamId increment) := by
  have hnone : ∀ t : Uplink, t.calls = s.calls → t.h2PacketStreamWindows = s.h2PacketStreamWindows →
      t.h2StreamClosed = false → ∀ i id window, t.stored i = some (id, window) →
        window = (l.credit streamId increment).window id := by
    intro t hcalls hentries _ i id window hstored
    rw [Uplink.stored_congr (congrFun hcalls i) fun id _ => congrFun hentries id] at hstored
    exact absurd (h.own.mode i id (Uplink.stored_stream (h.own.writes i) hstored)) nofun
  unfold Uplink.handleWindowUpdate at hown ⊢
  rw [hparse] at hown ⊢
  dsimp only [Option.getD_some] at hown ⊢
  split
  · rename_i hid
    rw [if_pos hid] at hown
    refine accounts_credit h hown hpeer ?_ ?_ rfl rfl rfl h.clear (hnone _ rfl rfl) nofun
    · rw [if_pos hid]
      rfl
    · rw [if_neg (by rw [hid]; decide)]
      rfl
  · rename_i hid
    rw [if_neg hid] at hown
    split
    · rename_i hone
      rw [if_pos hone] at hown
      refine accounts_credit h hown hpeer ?_ ?_ rfl rfl rfl h.clear (hnone _ rfl rfl) nofun
      · rw [if_neg hid]
        rfl
      · rw [if_pos (by rw [hone]; rfl)]
        rfl
    · rename_i hone
      rw [if_neg hone] at hown
      refine accounts_credit h hown hpeer ?_ ?_ rfl rfl rfl h.clear (hnone _ rfl rfl) nofun
      · rw [if_neg hid]
        rfl
      · rw [if_neg (show streamId ≠ Client.activeStream .grpc from hone)]
        rfl

/-- `XHttpClient` credits the stream that is named if it is the active one or one that is
blocked. -/
theorem accounts_applyH2WindowUpdate (h : Accounts client s l)
    (hown : Own client (s.applyH2WindowUpdate streamId payload))
    (hparse : parseWindowUpdate payload = some increment)
    (hpeer : l.left streamId + increment ≤ 0x7FFFFFFF)
      (hcredited : streamId = 0 ∨ streamId = client.activeStream ∨
        s.h2PacketStreamWindows streamId ≠ none ∨ increment = 0) :
    Accounts client (s.applyH2WindowUpdate streamId payload) (l.credit streamId increment) := by
  have hzero := activeStream_ne_zero client
  have hthree := h.own.next
  have hknown : client = .xhttp .packetUp → streamId < s.h2NextPacketStreamId ∨ increment = 0 := by
    intro hclient
    have hone : client.activeStream = 1 := by
      rw [hclient]
      rfl
    rcases hcredited with hid | hid | hentry | hnone
    · exact .inl (by omega)
    · exact .inl (by omega)
    · exact .inl (h.own.entries streamId hentry).2
    · exact .inr hnone
  unfold Uplink.applyH2WindowUpdate at hown ⊢
  rw [hparse] at hown ⊢
  dsimp only at hown ⊢
  split
  · rename_i hid
    rw [if_pos hid] at hown
    refine accounts_credit h hown hpeer ?_ ?_ rfl rfl rfl h.clear ?_ hknown
    · rw [if_pos hid]
    · rw [if_neg (by omega)]
    · intro hclosed i id window hstored
      have hne := stored_ne hown hstored
      rw [Ledger.window_credit_other (by omega)]
      exact h.packets hclosed i id window hstored
  · rename_i hid
    rw [if_neg hid] at hown
    split
    · -- the stream is blocked
      rename_i entry hentry
      rw [hentry] at hown
      dsimp only at hown
      have hbelow := h.own.entries streamId (by rw [hentry]; exact nofun)
      refine accounts_credit h hown hpeer ?_ ?_ rfl rfl rfl ?_ ?_ hknown
      · rw [if_neg hid]
      · rw [if_neg (by omega)]
      · intro i frames next id window hpoint
        have hclear := h.clear i frames next id window hpoint
        have hne : id ≠ streamId := by
          rintro rfl
          rw [hentry] at hclear
          cases hclear
        show Function.update s.h2PacketStreamWindows streamId _ id = none
        rw [Function.update_of_ne hne]
        exact hclear
      · intro hclosed i id window hstored
        by_cases hsame : id = streamId
        · subst hsame
          obtain ⟨rfl, hbefore⟩ := Uplink.stored_entry hstored
            (fun frames next window => h.clear i frames next id window) rfl hentry
              (Function.update_self _ _ _)
          have hwindow := h.packets hclosed i id entry hbefore
          obtain ⟨hfloor, -⟩ := h.window_fits hid
          rw [Ledger.left, if_neg hid] at hpeer
          rw [Ledger.window_credit, ← hwindow, int32_of_fits (by omega) (by omega)]
        · rw [Ledger.window_credit_other hsame]
          refine h.packets hclosed i id window ?_
          exact Uplink.stored_elsewhere hstored rfl hsame fun id' hid' =>
            Function.update_of_ne hid' _ _
    · rename_i hentry
      rw [hentry] at hown
      dsimp only at hown
      have hother : streamId = client.activeStream ∨ increment = 0 := by
        rcases hcredited with hzero | hactive | hblocked | hnone
        · exact absurd hzero hid
        · exact .inl hactive
        · exact absurd hentry hblocked
        · exact .inr hnone
      refine accounts_credit h hown hpeer ?_ ?_ rfl rfl rfl h.clear ?_ hknown
      · rw [if_neg hid]
      · split
        · rfl
        · rename_i hne
          obtain ⟨hfloor, hceil⟩ := h.window_fits hzero
          rw [hother.resolve_left hne, h.active]
          exact (congrArg int32 (Int.add_zero _)).trans (int32_of_fits (by omega) (by omega))
      · intro hclosed i id window hstored
        have hne := stored_ne hown hstored
        rw [h.packets hclosed i id window hstored]
        rcases hother with hactive | hnone
        · rw [Ledger.window_credit_other (by omega)]
        · by_cases hsame : id = streamId
          · rw [hsame, Ledger.window_credit, hnone]
            exact (Int.add_zero _).symm
          · rw [Ledger.window_credit_other hsame]

theorem accounts_windowUpdate (h : Accounts client s l)
    (hown : Own client (step client s (.windowUpdate streamId payload)))
    (hpeer : Peer (s, l) (.windowUpdate streamId payload))
    (hcredited : Credited client (s, l) (.windowUpdate streamId payload)) :
    Accounts client (step client s (.windowUpdate streamId payload))
      (l.after client s (.windowUpdate streamId payload)) := by
  rcases hparse : parseWindowUpdate payload with _ | increment
  · -- too short to hold an increment
    have hafter : l.after client s (.windowUpdate streamId payload) = l := by
      dsimp only [Ledger.after]
      rw [hparse]
    rw [hafter]
    rcases client with _ | mode
    · have hfits : int32 (s.h2PeerConnectionWindow + (0 : Nat)) = s.h2PeerConnectionWindow := by
        have hnonneg := h.connection_nonneg
        have hle := h.connection_le
        rw [h.connection, Int.natCast_zero, Int.add_zero, int32_of_fits (by omega) (by omega)]
      have hfits' : int32 (s.h2PeerStreamSendWindow + (0 : Nat)) = s.h2PeerStreamSendWindow := by
        obtain ⟨hfloor, hceil⟩ := h.window_fits Nat.one_ne_zero
        have hactive : s.h2PeerStreamSendWindow = l.window 1 := h.active
        rw [hactive, Int.natCast_zero, Int.add_zero, int32_of_fits (by omega) (by omega)]
      dsimp only [step] at hown ⊢
      unfold Uplink.handleWindowUpdate at hown ⊢
      rw [hparse] at hown ⊢
      dsimp only [Option.getD_none] at hown ⊢
      split
      · rename_i hid
        rw [if_pos hid] at hown
        exact h.same hown hfits rfl rfl rfl rfl h.clear fun hclosed =>
          ⟨hclosed, fun _ _ _ hstored => hstored⟩
      · rename_i hid
        rw [if_neg hid] at hown
        split
        · rename_i hone
          rw [if_pos hone] at hown
          exact h.same hown rfl hfits' rfl rfl rfl h.clear fun hclosed =>
            ⟨hclosed, fun _ _ _ hstored => hstored⟩
        · rename_i hone
          rw [if_neg hone] at hown
          exact h.same hown rfl rfl rfl rfl rfl h.clear fun hclosed =>
            ⟨hclosed, fun _ _ _ hstored => hstored⟩
    · dsimp only [step] at hown ⊢
      unfold Uplink.applyH2WindowUpdate at hown ⊢
      rw [hparse] at hown ⊢
      exact h.same hown rfl rfl rfl rfl rfl h.clear fun hclosed =>
        ⟨hclosed, fun _ _ _ hstored => hstored⟩
  · have hafter : l.after client s (.windowUpdate streamId payload) =
        l.credit streamId increment := by
      dsimp only [Ledger.after]
      rw [hparse]
    rw [hafter]
    have hpeer := hpeer increment hparse
    rcases client with _ | mode
    · exact accounts_handleWindowUpdate h hown hparse hpeer
    · have happlied :=
        accounts_applyH2WindowUpdate h (h.own.applyH2WindowUpdate streamId payload) hparse hpeer
        (hcredited increment hparse)
      exact happlied.same hown rfl rfl rfl rfl rfl happlied.clear
        fun hclosed => ⟨hclosed, fun _ _ _ hstored => hstored⟩

theorem accounts_setting (h : Accounts client s l) (id : Nat) {value : Int}
    (hown : Own client (s.setting id value)) (hpeer : Peer (s, l) (.setting id value))
    (hcredited : Credited client (s, l) (.setting id value)) :
    Accounts client (s.setting id value) (l.after client s (.setting id value)) := by
  unfold Uplink.setting at hown ⊢
  split
  · obtain ⟨hnonneg, hle, hceil⟩ := hpeer
    have hinit := h.initial_nonneg
    have hinit' := h.initial_le
    have hzero := activeStream_ne_zero client
    refine ⟨hown, h.clear, h.connection, h.connection_nonneg, h.connection_le, rfl, hnonneg, hle,
      h.maxFrameSize, ?_, ?_, h.floor, hceil, h.fresh⟩
    · -- the change of the initial window
      have hceil' : value + l.increments client.activeStream - l.sent client.activeStream ≤
          0x7FFFFFFF :=
        hceil client.activeStream hzero
      have hfloor := h.floor client.activeStream hzero
      have hleft : l.window client.activeStream =
        l.initial + l.increments client.activeStream - l.sent client.activeStream := rfl
      show int32 (s.h2PeerStreamSendWindow + int32 (value - s.h2PeerInitialWindowSize)) =
        value + l.increments client.activeStream - l.sent client.activeStream
      rw [h.active, h.initial, int32_of_fits (n := value - l.initial) (by omega) (by omega),
        int32_of_fits (by omega) (by omega)]
      omega
    · intro hclosed i streamId window hstored
      have hclient := h.own.mode i streamId (Uplink.stored_stream (h.own.writes i) hstored)
      rw [hclient] at hcredited
      have hsame : value = l.initial := by
        rcases hcredited with hsame | hover | hnone
        · rw [hsame, h.initial]
        · exact absurd (hclosed.symm.trans hover) nofun
        · exact absurd ((hnone i).symm.trans hstored) nofun
      rw [h.packets hclosed i streamId window hstored, hsame]
      rfl
  · exact {
      own := hown
      clear := h.clear
      connection := h.connection
      connection_nonneg := h.connection_nonneg
      connection_le := h.connection_le
      initial := h.initial
      initial_nonneg := h.initial_nonneg
      initial_le := h.initial_le
      maxFrameSize := rfl
      active := h.active
      packets := h.packets
      floor := h.floor
      ceil := h.ceil
      fresh := h.fresh }
  · rename_i hinitial hmax
    have hafter : l.after client s (.setting id value) = l := by
      unfold Ledger.after
      split
      · cases ‹Event.setting id value = _›
      · rename_i heq
        cases heq
        exact absurd rfl (hinitial)
      · rename_i heq
        cases heq
        exact absurd rfl (hmax)
      · exact Ledger.charge_nil l
    rw [hafter]
    exact h

theorem accounts_rstStream (h : Accounts client s l)
    (hown : Own client (s.rstStream client streamId))
    (hcredited : Credited client (s, l) (.rstStream streamId)) :
    Accounts client (s.rstStream client streamId) l := by
  unfold Uplink.rstStream at hown ⊢
  split
  · split
    · rename_i hid
      exact h.same (by simpa [hid] using hown) rfl rfl rfl rfl rfl h.clear nofun
    · exact h
  · split
    · rename_i hid
      exact h.same (by simpa [hid] using hown) rfl rfl rfl rfl rfl h.clear nofun
    · rename_i hid
      dsimp only at hown
      rw [if_neg hid] at hown
      refine h.same hown rfl rfl rfl rfl rfl ?_ ?_
      · intro i frames next id window hpoint
        show Function.update s.h2PacketStreamWindows streamId none id = none
        by_cases hsame : id = streamId
        · rw [hsame, Function.update_self]
        · rw [Function.update_of_ne hsame]
          exact h.clear i frames next id window hpoint
      · intro hclosed
        refine ⟨hclosed, ?_⟩
        intro i id window hstored
        by_cases hsame : id = streamId
        · subst hsame
          by_cases hlive : s.stored i = none
          · exact absurd hlive (Uplink.stored_ne_none hstored rfl)
          · refine Uplink.stored_dropped hstored rfl (Function.update_self _ _ _) ?_
            intro window' hupload
            exact (hcredited i window' hupload).resolve_right hlive
        · exact Uplink.stored_elsewhere hstored rfl hsame fun id' hid' =>
            Function.update_of_ne hid' _ _

end Steps

-- ----
-- Runs

variable {e : Event} {p : Uplink × Ledger}

theorem Credited.idsLast {client : Client} (h : Credited client p e)
    (hclient : client = .xhttp .packetUp) : IdsLast p.1 e := by
  cases e with
  | sendPacket =>
    rw [hclient] at h
    exact h
  | _ => trivial

/-- Without packet-up mode there are no streams to run out of ids. -/
theorem own_credited {client : Client} (h : Own client p.1)
    (hcredited : Credited client p e) : Own client (step client p.1 e) := by
  by_cases hclient : client = .xhttp .packetUp
  · exact own_step client (hcredited.idsLast hclient) h
  · cases e with
    | sendPacket i data headerBlock =>
      dsimp only [step]
      rw [if_neg fun hand => hclient hand.2]
      exact h
    | _ => exact own_step client trivial h

theorem accounts_step (client : Client) (hpeer : Peer p e)
    (hcredited : Credited client p e) (h : Accounts client p.1 p.2) :
    Accounts client (account client p e).1 (account client p e).2 := by
  obtain ⟨s, l⟩ := p
  have hown := own_credited h.own hcredited
  have hnil := Ledger.charge_nil l
  dsimp only [account] at h hown ⊢
  rcases e with ⟨i, data⟩ | ⟨i, data, headerBlock⟩ | i | i | ⟨i, succeeds⟩ | i | i |
    ⟨streamId, payload⟩ | _ |
    ⟨id, value⟩ | streamId | _ | _
  case windowUpdate => exact accounts_windowUpdate h hown hpeer hcredited
  case setting => exact accounts_setting h id hown hpeer hcredited
  case send =>
    dsimp only [Ledger.after, taken, step] at hown ⊢
    rw [hnil]
    split
    · rename_i hidle
      rw [if_pos hidle] at hown
      refine h.one hown rfl rfl rfl rfl rfl rfl id ?_ ?_ (.inl ?_) (i := i)
      · intro j hji
        rw [Uplink.setCall_calls, Function.update_of_ne hji]
      · rw [Uplink.setCall_calls, Function.update_self]
        intro frames next upload hpoint
        dsimp only at hpoint
        split at hpoint <;> cases hpoint
      · unfold Uplink.stored
        rw [Uplink.setCall_calls, Function.update_self]
        by_cases hempty : data = []
        · rw [if_pos hempty]
        · rw [if_neg hempty]
          rfl
    · exact h
  case sendPacket =>
    dsimp only [Ledger.after, step]
    split
    · rename_i hidle
      exact accounts_sendH2PacketUp h hidle.1 hidle.2 (hcredited.idsLast hidle.2) data headerBlock
    · rename_i hnot
      have htaken : taken client s (.sendPacket i data headerBlock) = [] := by
        dsimp only [taken, step]
        split
        · rename_i hidle
          rw [hidle]
          rfl
        · rfl
      rw [htaken, hnil]
      exact h
  case round =>
    dsimp only [Ledger.after, step]
    split
    · rename_i hloop
      split
      · rename_i hactive
        exact accounts_roundActive h hloop.1 hloop.2 hactive
      · rename_i streamId streamWindow hpacket
        refine accounts_roundPacket h hloop.1 hloop.2 hpacket ?_
        have hclient := h.own.mode i streamId (by rw [hpacket]; rfl)
        rw [hclient] at hcredited
        exact hcredited streamId streamWindow hpacket
    · rename_i hnot
      rw [taken_round_over hnot, hnil]
      exact h
  case awaitFlowResumption =>
    dsimp only [Ledger.after, taken, step] at hown ⊢
    rw [hnil]
    split
    · rename_i hblocked
      rw [if_pos hblocked] at hown
      unfold Uplink.register at hown ⊢
      split
      · rename_i hover
        rw [if_pos hover] at hown
        exact h.setPoint hown rfl rfl rfl rfl rfl rfl rfl id (.inl rfl)
      · rename_i hover
        rw [if_neg hover] at hown
        exact h.setPoint hown rfl rfl rfl rfl rfl rfl rfl id
          (.inr ⟨.inr (.inr rfl), .inr (.inl hblocked)⟩)
    · exact h
  case write =>
    dsimp only [Ledger.after, taken, step]
    rw [hnil]
    split
    · rename_i hwriting
      exact accounts_written h succeeds hwriting
    · exact h
  case abandon =>
    dsimp only [Ledger.after, taken, step] at hown ⊢
    rw [hnil]
    split
    · rename_i hparked
      rw [if_pos hparked] at hown
      exact h.setPoint hown rfl rfl rfl rfl rfl rfl rfl id (.inl rfl)
    · exact h
  case resume =>
    dsimp only [Ledger.after, taken, step] at hown ⊢
    rw [hnil]
    split
    · rename_i hparked
      rw [if_pos hparked] at hown
      split
      · rename_i hresumed
        rw [if_pos hresumed] at hown
        exact h.setPoint hown rfl rfl rfl rfl rfl rfl rfl id (.inr ⟨.inl rfl, .inr (.inr hparked)⟩)
      · rename_i hresumed
        rw [if_neg hresumed] at hown
        split
        · rename_i hrefused
          rw [if_pos hrefused] at hown
          exact h.setPoint hown rfl rfl rfl rfl rfl rfl rfl id (.inl rfl)
        · exact h
    · exact h
  case drainH2FlowResumptions =>
    dsimp only [Ledger.after, taken, step] at hown ⊢
    rw [hnil]
    split
    · rename_i hdrains
      rw [if_pos hdrains] at hown
      exact h.same hown rfl rfl rfl rfl rfl h.clear fun hclosed =>
        ⟨hclosed, fun _ _ _ hstored => hstored⟩
    · exact h
  case rstStream =>
    dsimp only [Ledger.after, taken, step] at hown ⊢
    rw [hnil]
    exact accounts_rstStream h hown hcredited
  case closeStream =>
    dsimp only [Ledger.after, taken, step] at hown ⊢
    rw [hnil]
    exact h.same hown rfl rfl rfl rfl rfl h.clear nofun
  case cancel =>
    dsimp only [Ledger.after, taken, step] at hown ⊢
    rw [hnil]
    exact h.same hown rfl rfl rfl rfl rfl (fun _ _ _ _ _ _ => rfl) nofun

/-- **What is sent is within the windows** that are granted, in a run of steps that credit the
stream they are for; with `GrpcConnection` these are all. -/
theorem sends_within_windows (client : Client) {es : List Event}
    (hpeer : RunAll (account client) Peer ({}, {}) es)
    (hcredited : RunAll (account client) (Credited client) ({}, {}) es) :
    Within client (run (account client) ({}, {}) es).1 (run (account client) ({}, {}) es).2 := by
  have hstart : Accounts client ({} : Uplink) ({} : Ledger) := Accounts.start
  have hrun : ∀ {es : List Event} {p : Uplink × Ledger}, RunAll (account client) Peer p es →
      RunAll (account client) (Credited client) p es → Accounts client p.1 p.2 →
        Accounts client (run (account client) p es).1 (run (account client) p es).2 := by
    intro es
    induction es with
    | nil => exact fun _ _ h => h
    | cons e es ih =>
      intro p hpeer hcredited h
      exact ih hpeer.2 hcredited.2 (accounts_step client hpeer.1 hcredited.1 h)
  exact (hrun hpeer hcredited hstart).within

theorem peer_initial {value : Int} (h : 0 ≤ value) (h' : value ≤ 0x7FFFFFFF) :
    Peer ({}, {}) (.setting 0x04 value) :=
  ⟨h, h', fun _ _ => by
    show value + 0 - 0 ≤ 0x7FFFFFFF
    omega⟩

theorem peer_windowUpdate (increment : Nat)
    (hparse : parseWindowUpdate payload = some increment)
    (h : p.2.left streamId + increment ≤ 0x7FFFFFFF) :
    Peer p (.windowUpdate streamId payload) := by
  intro increment' hparse'
  rw [hparse] at hparse'
  rwa [← Option.some.inj hparse']

/-- Eight bytes in packet-up mode with a window of five: the increment finds the call blocked. -/
def blockedUpload : List Event :=
  [.setting 0x04 5, .sendPacket 0 [1, 2, 3, 4, 5, 6, 7, 8] [], .write 0 true, .round 0,
    .windowUpdate 3 [0, 0, 0, 3]]

theorem sends_within_windows_blocked :
    Within (.xhttp .packetUp) (run (account (.xhttp .packetUp)) ({}, {}) blockedUpload).1
      (run (account (.xhttp .packetUp)) ({}, {}) blockedUpload).2 := by
  refine sends_within_windows (.xhttp .packetUp) ⟨peer_initial (by decide) (by decide), trivial,
    trivial, trivial, ?_, trivial⟩ ⟨?_, ?_, trivial, ?_, ?_, trivial⟩
  · exact peer_windowUpdate 3 (by decide) (by decide +kernel)
  · exact .inr (.inr fun _ => rfl)
  · show 3 + 2 < 0x100000000
    decide
  · exact fun _ _ _ => .inr (.inl (by decide))
  · exact fun _ _ => .inr (.inr (.inl (by decide +kernel)))

-- ----
-- Increments for other streams

/-- The increment is for the stream of the response. -/
def creditedElsewhere : List Event :=
  [.setting 0x04 5, .send 0 [1, 2, 3, 4, 5, 6, 7, 8], .round 0, .write 0 true,
    .windowUpdate 1 [0, 0, 0, 3]]

/-- The increment finds the call before it is blocked. -/
def creditLost : List Event :=
  [.setting 0x04 5, .sendPacket 0 [1, 2, 3, 4, 5, 6, 7, 8] [], .write 0 true,
    .windowUpdate 3 [0, 0, 0, 3]]

theorem window_not_kept :
    (RunAll (account (.xhttp .streamUp)) Peer ({}, {}) creditedElsewhere ∧
      ¬ Within (.xhttp .streamUp) (run (account (.xhttp .streamUp)) ({}, {}) creditedElsewhere).1
        (run (account (.xhttp .streamUp)) ({}, {}) creditedElsewhere).2) ∧
    (RunAll (account (.xhttp .packetUp)) Peer ({}, {}) creditLost ∧
      ¬ Within (.xhttp .packetUp) (run (account (.xhttp .packetUp)) ({}, {}) creditLost).1
        (run (account (.xhttp .packetUp)) ({}, {}) creditLost).2) := by
  refine ⟨⟨⟨peer_initial (by decide) (by decide), trivial, trivial, trivial, ?_, trivial⟩,
    fun h => ?_⟩, ⟨peer_initial (by decide) (by decide), trivial, trivial, ?_, trivial⟩,
    fun h => ?_⟩
  · exact peer_windowUpdate 3 (by decide) (by decide +kernel)
  · -- three bytes more than the window of the stream
    exact absurd (h.fits (.round 0) 3) (by decide +kernel)
  · exact peer_windowUpdate 3 (by decide) (by decide +kernel)
  · exact absurd (h.packets (by decide +kernel) 0 3 0 (by decide +kernel)) (by decide +kernel)

end Anywhere.Http2
