import Anywhere.Naive.Locality

/-!
# Anywhere — the downlink of a stream

The DATA frames of a stream go to calls of `receiveData` that wait, or into the channel.
`receiveData` looks at the state before it looks at the channel, so what is in the
channel when END_STREAM is processed is lost; and END_STREAM on HEADERS is not looked at.

* `downlink_iff` — when the calls return the payloads and then null.
-/

namespace Anywhere.Naive

open Lib Session

-- ----
-- Steps that are not about the stream

def Stream.downlink (st : Stream) :
    StreamState × List Bytes × Bool × Nat × List (Option Bytes) × Deferred :=
  (st.state, st.queue, st.channelClosed, st.receivers, st.results, st.tunnelReady)

/-- The downlink of a stream is left alone, and so are the table and the session as far
as the stream needs them. -/
structure Kept (k : Nat) (s t : Session) : Prop where
  downlink : (t.stream k).downlink = (s.stream k).downlink
  acquired : s.acquired ≤ t.acquired
  handshake : t.handshake = s.handshake
  state : t.state = s.state
  transport : t.transport = s.transport
  lookup : t.lookup (streamID k) = s.lookup (streamID k)

theorem Kept.refl (k : Nat) (s : Session) : Kept k s s := ⟨rfl, Nat.le_refl _, rfl, rfl, rfl, rfl⟩

theorem Kept.trans {k : Nat} {s t u : Session} (h : Kept k s t) (h' : Kept k t u) : Kept k s u :=
  ⟨h'.downlink.trans h.downlink, Nat.le_trans h.acquired h'.acquired,
    h'.handshake.trans h.handshake, h'.state.trans h.state, h'.transport.trans h.transport,
    h'.lookup.trans h.lookup⟩

/-- A step that is not about stream `k`: calls of other streams, coroutines that go on,
frames that are written, frames of the server on other streams, and settings, pings and
window updates. -/
def Foreign (k : Nat) (s : Session) : Event → Prop
  | .acquireStream | .tryReserveStream => streamID s.acquired ≠ streamID k
  | .receiveData j => j ≠ k
  | .close j => streamID j ≠ streamID k
  | .closeSession | .readError => False
  | .resumeOpen j => j = k ∨ streamID j ≠ streamID k
  | .write accepted => accepted = true
  | .frame f _ =>
    f.type ≠ .goaway ∧ ((f.streamID : Int) ≠ streamID k ∨
      f.type = .settings ∨ f.type = .ping ∨ f.type = .windowUpdate)
  | _ => True

variable {j k calls : Nat} {f : Http2Frame} {s t : Session}

section Kept

variable {k : Nat}

theorem kept_modify {f : Stream → Stream} (s : Session)
    (h : j = k → (f (s.stream k)).downlink = (s.stream k).downlink) : Kept k s (s.modify j f) := by
  refine ⟨?_, Nat.le_refl _, rfl, rfl, rfl, rfl⟩
  by_cases hj : j = k
  · subst hj
    simpa [Session.modify] using h rfl
  · simp [Session.modify, Function.update_of_ne (Ne.symm hj)]

theorem kept_shut (s : Session) (failTunnel : Bool) (h : j ≠ k) :
    Kept k s (s.shut failTunnel j) := by
  by_cases hclosed : (s.stream j).state = .closed
  · rw [shut_of_closed hclosed]
    exact .refl k s
  · rw [shut_eq hclosed]
    refine ⟨?_, Nat.le_refl _, rfl, rfl, rfl, rfl⟩
    simp [Function.update_of_ne (Ne.symm h)]

theorem kept_markClosed (s : Session) (h : j ≠ k) : Kept k s (s.markClosed j) := by
  by_cases hclosed : (s.stream j).state = .closed
  · rw [markClosed_of_closed hclosed]
    exact .refl k s
  · rw [markClosed_eq hclosed]
    refine ⟨?_, Nat.le_refl _, rfl, rfl, rfl, rfl⟩
    simp [Function.update_of_ne (Ne.symm h)]

theorem kept_deliverHeaders (s : Session) (headers : Headers) (h : j ≠ k) :
    Kept k s (s.deliverHeaders j headers) := by
  unfold deliverHeaders
  split
  · exact kept_modify s fun hj => absurd hj h
  · exact (kept_markClosed s h).trans (kept_modify _ fun hj => absurd hj h)

theorem kept_deliverData (s : Session) (data : Bytes) (h : j ≠ k) :
    Kept k s (s.deliverData j data) := by
  unfold deliverData
  split
  · exact .refl k s
  · exact kept_modify s fun hj => absurd hj h

theorem kept_completeAwaiter (s : Session) (j : Nat) (point : SendPoint) :
    Kept k s (s.completeAwaiter j point) := ⟨rfl, Nat.le_refl _, rfl, rfl, rfl, rfl⟩

theorem kept_launch (s : Session) (f : ClientFrame) : Kept k s (s.launch f) :=
  ⟨rfl, Nat.le_refl _, rfl, rfl, rfl, rfl⟩

theorem kept_applyWindowUpdate (s : Session) (j increment : Nat) :
    Kept k s (s.applyWindowUpdate j increment) :=
  (kept_modify s fun _ => rfl).trans (kept_completeAwaiter _ j .loop)

theorem kept_adjustSendWindow (s : Session) (delta : Int) (j : Nat) :
    Kept k s (s.adjustSendWindow delta j) := by
  unfold adjustSendWindow
  dsimp only
  split
  · exact (kept_modify s fun _ => rfl).trans (kept_completeAwaiter _ j .loop)
  · exact kept_modify s fun _ => rfl

theorem kept_handleServerSettings (s : Session) (payload : Bytes) :
    Kept k s (s.handleServerSettings payload) :=
  handleServerSettings_rule (.refl k) .trans (fun _ _ => ⟨rfl, Nat.le_refl _, rfl, rfl, rfl, rfl⟩)
    kept_adjustSendWindow s payload

theorem kept_remove (s : Session) (h : streamID j ≠ streamID k) : Kept k s (s.remove j) := by
  refine ⟨rfl, Nat.le_refl _, rfl, rfl, rfl, ?_⟩
  unfold lookup remove
  rw [List.find?_filter]
  refine congrArg (fun p => List.find? p s.streams) (funext fun i => ?_)
  by_cases hi : streamID i = streamID k
  · simp [hi, Ne.symm h]
  · simp [hi]

theorem kept_newStream (s : Session) (hk : k < s.acquired) (h : streamID s.acquired ≠ streamID k) :
    Kept k s s.newStream := by
  refine ⟨?_, Nat.le_succ _, rfl, rfl, rfl, ?_⟩
  · simp [newStream, Function.update_of_ne (Nat.ne_of_lt hk)]
  · have hremove := (kept_remove s h).lookup
    unfold lookup remove at hremove
    unfold lookup newStream
    dsimp only at hremove ⊢
    rw [List.find?_append, hremove]
    simp [h]

theorem kept_consumeSend (s : Session) (j : Nat) (chunkSize : Int) :
    Kept k s (s.consumeSend j chunkSize) := by
  have hconnection : Kept k s
      { s with connectionSendWindow := int32 (s.connectionSendWindow - chunkSize) } :=
    ⟨rfl, Nat.le_refl _, rfl, rfl, rfl, rfl⟩
  refine hconnection.trans (kept_modify _ fun _ => ?_)
  unfold Stream.consumeSend
  split <;> rfl

theorem kept_enqueue (s : Session) (w : Write) : Kept k s (s.enqueue w) :=
  ⟨rfl, Nat.le_refl _, rfl, rfl, rfl, rfl⟩

theorem kept_record (s : Session) (r : Record) : Kept k s (s.record r) :=
  ⟨rfl, Nat.le_refl _, rfl, rfl, rfl, rfl⟩

theorem kept_setSender (s : Session) (i : Nat) (t : Sender) : Kept k s (s.setSender i t) :=
  ⟨rfl, Nat.le_refl _, rfl, rfl, rfl, rfl⟩

theorem kept_call (s : Session) (t : Sender) : Kept k s (s.call t) :=
  ⟨rfl, Nat.le_refl _, rfl, rfl, rfl, rfl⟩

theorem kept_iterate (s : Session) (i : Nat) : Kept k s (s.iterate i) := by
  unfold iterate
  dsimp only
  split
  · exact kept_setSender s i _
  · split
    · split
      · exact kept_setSender s i _
      · split
        · exact kept_setSender s i _
        · split
          · exact .refl k s
          · exact kept_setSender s i _
    · exact ((kept_consumeSend s _ _).trans (kept_setSender _ i _)).trans (kept_enqueue _ _)

theorem kept_acknowledgeConsumedData (s : Session) (j bytes : Nat) :
    Kept k s (s.acknowledgeConsumedData j bytes) :=
  acknowledgeConsumedData_rule (.refl k) .trans
    (fun _ _ => ⟨rfl, Nat.le_refl _, rfl, rfl, rfl, rfl⟩)
    (fun _ _ _ => kept_launch _ _) (fun s _ _ => kept_modify s fun _ => rfl) s j bytes

theorem kept_receiveData (s : Session) (h : j ≠ k) : Kept k s (s.receiveData j) := by
  unfold receiveData
  dsimp only
  split
  · exact kept_modify s fun hj => absurd hj h
  · split
    · exact (kept_modify s fun hj => absurd hj h).trans (kept_acknowledgeConsumedData _ _ _)
    · split <;> exact kept_modify s fun hj => absurd hj h

theorem kept_acknowledge (s : Session) (j : Nat) : Kept k s (s.acknowledge j) := by
  unfold acknowledge
  split
  · exact .refl k s
  · exact (kept_modify s fun _ => rfl).trans (kept_acknowledgeConsumedData _ _ _)

theorem lookup_some {sid : Int} (h : s.lookup sid = some j) :
    j ∈ s.streams ∧ streamID j = sid := by
  unfold lookup at h
  have hfound := List.find?_some h
  exact ⟨List.mem_of_find?_eq_some h, of_decide_eq_true hfound⟩

theorem kept_routeFrame {decoded : Option Headers}
    (h : Foreign k s (.frame f decoded)) : Kept k s (s.routeFrame f decoded) := by
  obtain ⟨hgoaway, hforeign⟩ := h
  have hne : ∀ j, s.lookup f.streamID = some j → (f.streamID : Int) ≠ streamID k →
      streamID j ≠ streamID k :=
    fun j hj h => by rw [(lookup_some hj).2]; exact h
  have hne' : ∀ {j}, streamID j ≠ streamID k → j ≠ k := fun h hj => h (hj ▸ rfl)
  unfold routeFrame
  rcases htype : f.type <;> dsimp only
  · -- DATA
    replace hforeign : (f.streamID : Int) ≠ streamID k := by simpa [htype] using hforeign
    split
    · exact .refl k s
    · rcases hlookup : s.lookup f.streamID with _ | j <;> dsimp only
      · exact .refl k s
      · have hj := hne j hlookup hforeign
        have hdelivered : Kept k s (if f.payload ≠ [] then s.deliverData j f.payload else s) := by
          split
          · exact kept_deliverData s f.payload (hne' hj)
          · exact .refl k s
        split
        · exact (hdelivered.trans (kept_shut _ false (hne' hj))).trans (kept_remove _ hj)
        · exact hdelivered
  · -- HEADERS
    replace hforeign : (f.streamID : Int) ≠ streamID k := by simpa [htype] using hforeign
    split
    · exact .refl k s
    · rcases hlookup : s.lookup f.streamID with _ | j <;> dsimp only
      · exact .refl k s
      · have hj := hne' (hne j hlookup hforeign)
        rcases decoded with _ | headers <;> dsimp only
        · exact kept_shut s true hj
        · exact kept_deliverHeaders s headers hj
  · -- RST_STREAM
    replace hforeign : (f.streamID : Int) ≠ streamID k := by simpa [htype] using hforeign
    split
    · exact .refl k s
    · rcases hlookup : s.lookup f.streamID with _ | j <;> dsimp only
      · exact .refl k s
      · have hj := hne j hlookup hforeign
        exact (kept_shut s true (hne' hj)).trans (kept_remove _ hj)
  · -- SETTINGS
    split
    · exact .refl k s
    · exact (kept_handleServerSettings s f.payload).trans (kept_launch _ _)
  · -- PING
    split
    · exact .refl k s
    · exact kept_launch s _
  · exact absurd htype hgoaway
  · -- WINDOW_UPDATE
    rcases parseWindowUpdate f.payload with _ | increment <;> dsimp only
    · exact .refl k s
    · split
      · exact ⟨rfl, Nat.le_refl _, rfl, rfl, rfl, rfl⟩
      · rcases s.lookup f.streamID with _ | j <;> dsimp only
        · exact .refl k s
        · exact kept_applyWindowUpdate s j increment

end Kept

-- ----
-- Before END_STREAM

/-- The stream is in the table of a session that reads, and neither idle nor closed. -/
structure Alive (k : Nat) (s : Session) : Prop where
  handshake : s.handshake = .over
  state : s.state = .ready
  transport : s.transport = true
  acquired : k < s.acquired
  lookup : s.lookup (streamID k) = some k
  notIdle : (s.stream k).state ≠ .idle
  notClosed : (s.stream k).state ≠ .closed
  tunnelReady : (s.stream k).tunnelReady ≠ .failed

theorem Alive.kept (h : Alive k s) (hkept : Kept k s t) : Alive k t := by
  obtain ⟨hdown, hacquired, hhandshake, hstate, htransport, hlookup⟩ := hkept
  simp only [Stream.downlink, Prod.mk.injEq] at hdown
  obtain ⟨hstream, -, -, -, -, hready⟩ := hdown
  exact ⟨hhandshake.trans h.handshake, hstate.trans h.state, htransport.trans h.transport,
    Nat.lt_of_lt_of_le h.acquired hacquired, hlookup.trans h.lookup, hstream ▸ h.notIdle,
    hstream ▸ h.notClosed, hready ▸ h.tunnelReady⟩

/-- The table is not empty, so no other stream takes the session with it. -/
theorem Alive.removeStream (h : Alive k s) (hj : streamID j ≠ streamID k) :
    Kept k s (s.removeStream j) := by
  unfold Session.removeStream
  split
  · have hkept := kept_remove s hj
    have hne : (s.remove j).streams ≠ [] :=
      List.ne_nil_of_mem (lookup_some (hkept.lookup.trans h.lookup)).1
    rw [shutdownIfEmpty, if_neg hne]
    exact hkept
  · exact kept_remove s hj

theorem Alive.openFails (h : Alive k s) (hj : streamID j ≠ streamID k) :
    Kept k s (s.openFails j) := by
  have hjk : j ≠ k := fun heq => hj (heq ▸ rfl)
  have hkept : Kept k s ((s.markClosed j).modify j ({ · with opening := .thrown })) :=
    (kept_markClosed s hjk).trans (kept_modify _ fun heq => absurd heq hjk)
  exact hkept.trans ((h.kept hkept).removeStream hj)

variable {e : Event}

/-- Steps that are not about the stream leave its downlink alone. -/
theorem foreign_kept (h : Alive k s) (hforeign : Foreign k s e) :
    Kept k s (step s e) := by
  have hne : ∀ {j}, streamID j ≠ streamID k → j ≠ k := fun h hj => h (hj ▸ rfl)
  unfold step
  rcases e with _ | _ | _ | j | ⟨j, data⟩ | j | j | _ | j | i | j | j | accepted |
    ⟨f, decoded⟩ | _ <;>
    dsimp only
  · -- ensureReady
    rw [if_neg (by rw [h.state]; simp)]
    exact .refl k s
  · -- acquireStream
    split
    · exact kept_newStream s h.acquired hforeign
    · exact .refl k s
  · -- tryReserveStream
    split
    · exact kept_newStream s h.acquired hforeign
    · exact .refl k s
  · -- openTunnel
    split
    · unfold Session.openTunnel
      split
      · rename_i hidle
        have hj : j ≠ k := fun heq => h.notIdle (heq ▸ hidle)
        exact (kept_modify s fun heq => absurd heq hj).trans (kept_enqueue _ _)
      · exact .refl k s
    · exact .refl k s
  · -- sendData
    split
    · unfold Session.sendData
      split
      · exact (kept_call s _).trans (kept_iterate _ _)
      · exact .refl k s
    · exact .refl k s
  · -- receiveData
    split
    · exact kept_receiveData s hforeign
    · exact .refl k s
  · -- close
    split
    · unfold Session.close
      split
      · exact .refl k s
      · dsimp only
        have hkept : Kept k s (if (s.stream j).state = .tunnelPending ∨ (s.stream j).state =
            .tunnelOpen then
            (s.shut false j).launch (.rstStream j cancelCode) else s.shut false j) := by
          split
          · exact (kept_shut s false (hne hforeign)).trans (kept_launch _ _)
          · exact kept_shut s false (hne hforeign)
        exact hkept.trans ((h.kept hkept).removeStream hforeign)
    · exact .refl k s
  · exact absurd hforeign id
  · -- resumeOpen
    unfold Session.resumeOpen
    split
    · rcases hready : (s.stream j).tunnelReady <;> dsimp only
      · exact .refl k s
      · exact kept_modify s fun _ => rfl
      · have hj : streamID j ≠ streamID k := by
          rcases hforeign with rfl | hj
          · exact absurd hready h.tunnelReady
          · exact hj
        exact h.openFails hj
    · exact .refl k s
  · -- resumeSend
    split
    · exact kept_iterate s i
    · exact .refl k s
  · exact kept_acknowledge s j
  · -- dispatch
    split
    · exact .refl k s
    · exact ⟨rfl, Nat.le_refl _, rfl, rfl, rfl, rfl⟩
  · -- write
    split
    · exact .refl k s
    · rename_i w rest _
      obtain rfl : accepted = true := hforeign
      rw [if_pos (by rw [h.transport]; rfl)]
      have hrest : Kept k s { s with writeQueue := rest } :=
        ⟨rfl, Nat.le_refl _, rfl, rfl, rfl, rfl⟩
      unfold written
      dsimp only
      split
      · exact ⟨rfl, Nat.le_refl _, h.handshake.symm, h.state.symm, rfl, rfl⟩
      · exact (hrest.trans (kept_record _ _)).trans (kept_modify _ fun _ => rfl)
      · exact ⟨rfl, Nat.le_refl _, rfl, rfl, rfl, rfl⟩
      · exact ⟨rfl, Nat.le_refl _, rfl, rfl, rfl, rfl⟩
  · -- a frame of the server
    rw [h.handshake]
    dsimp only
    rw [if_pos ⟨h.state, h.transport⟩]
    exact (kept_record s _).trans (kept_routeFrame hforeign)
  · exact absurd hforeign id

/-- Before END_STREAM: `calls` calls of `receiveData` have got the first payloads; the
others are in the channel, or the calls that are left wait. -/
structure Receiving (k calls : Nat) (payloads : List Bytes) (s : Session) : Prop where
  alive : Alive k s
  channel : (s.stream k).channelClosed = false
  queue : (s.stream k).queue = payloads.drop calls
  receivers : (s.stream k).receivers = calls - payloads.length
  results : (s.stream k).results = (payloads.map some).take calls

variable {payloads : List Bytes}

theorem Receiving.kept
    (h : Receiving k calls payloads s) (hkept : Kept k s t) : Receiving k calls payloads t := by
  have hdown := hkept.downlink
  simp only [Stream.downlink, Prod.mk.injEq] at hdown
  obtain ⟨-, hqueue, hchannel, hreceivers, hresults, -⟩ := hdown
  exact ⟨h.alive.kept hkept, hchannel.trans h.channel, hqueue.trans h.queue,
    hreceivers.trans h.receivers, hresults.trans h.results⟩

/-- An update of the channel and of what the calls have returned. -/
theorem Alive.modify (h : Alive k s) {f : Stream → Stream}
    (hidle : (f (s.stream k)).state ≠ .idle) (hclosed : (f (s.stream k)).state ≠ .closed)
    (hready : (f (s.stream k)).tunnelReady ≠ .failed) : Alive k (s.modify k f) where
  handshake := h.handshake
  state := h.state
  transport := h.transport
  acquired := h.acquired
  lookup := h.lookup
  notIdle := by simpa [Session.modify] using hidle
  notClosed := by simpa [Session.modify] using hclosed
  tunnelReady := by simpa [Session.modify] using hready

theorem Receiving.receiveData
    (h : Receiving k calls payloads s) : Receiving k (calls + 1) payloads (s.receiveData k) := by
  unfold Session.receiveData
  dsimp only
  rw [if_neg h.alive.notClosed]
  rcases hqueue : (s.stream k).queue with _ | ⟨data, queue⟩ <;> dsimp only
  · -- the call waits
    have hle : payloads.length ≤ calls := List.drop_eq_nil_iff.1 (h.queue.symm.trans hqueue)
    rw [if_neg (by rw [h.channel]; simp)]
    refine ⟨h.alive.modify h.alive.notIdle h.alive.notClosed h.alive.tunnelReady, ?_, ?_, ?_, ?_⟩
    · simpa [Session.modify] using h.channel
    · simp [Session.modify, hqueue]
      omega
    · simp [Session.modify, h.receivers]
      omega
    · simp only [Session.modify, Function.update_self]
      rw [h.results, List.take_of_length_le (by simpa using hle),
        List.take_of_length_le (by simp; omega)]
  · -- it takes the head of the queue
    have hdrop : payloads.drop calls = data :: queue := h.queue.symm.trans hqueue
    have hlt : calls < payloads.length := by
      by_contra hge
      rw [List.drop_eq_nil_of_le (by omega)] at hdrop
      cases hdrop
    obtain ⟨hdata, hqueue'⟩ : payloads[calls] = data ∧ payloads.drop (calls + 1) = queue := by
      rw [List.drop_eq_getElem_cons hlt] at hdrop
      exact List.cons.inj hdrop
    refine Receiving.kept ?_ (kept_acknowledgeConsumedData _ _ _)
    refine ⟨h.alive.modify h.alive.notIdle h.alive.notClosed h.alive.tunnelReady, ?_, ?_, ?_, ?_⟩
    · simpa [Session.modify] using h.channel
    · simpa [Session.modify] using hqueue'.symm
    · simp [Session.modify, h.receivers]
      omega
    · simp only [Session.modify, Function.update_self]
      rw [h.results, List.take_succ_eq_append_getElem (by simpa using hlt), List.getElem_map, hdata]

theorem Receiving.deliverData
    (h : Receiving k calls payloads s) (data : Bytes) :
    Receiving k calls (payloads ++ [data]) (s.deliverData k data) := by
  unfold Session.deliverData
  rw [if_neg h.alive.notClosed]
  by_cases hle : calls ≤ payloads.length
  · -- into the queue
    have hsend : Stream.trySend data (s.stream k) =
        { s.stream k with queue := (s.stream k).queue ++ [data] } := by
      rw [Stream.trySend, if_neg (by rw [h.channel]; simp), if_pos (by rw [h.receivers]; omega)]
    refine ⟨h.alive.modify ?_ ?_ ?_, ?_, ?_, ?_, ?_⟩
    · rw [hsend]
      exact h.alive.notIdle
    · rw [hsend]
      exact h.alive.notClosed
    · rw [hsend]
      exact h.alive.tunnelReady
    · simpa [Session.modify, hsend] using h.channel
    · simp [Session.modify, hsend, h.queue, List.drop_append_of_le_length hle]
    · simp [Session.modify, hsend, h.receivers]
      omega
    · simp only [Session.modify, hsend, Function.update_self]
      rw [h.results, List.map_append, List.take_append_of_le_length (by simpa using hle)]
  · -- to the first call that waits
    have hsend : Stream.trySend data (s.stream k) =
        { s.stream k with
          receivers := (s.stream k).receivers - 1
          results := (s.stream k).results ++ [some data]
          resumed := (s.stream k).resumed ++ [data.length] } := by
      rw [Stream.trySend, if_neg (by rw [h.channel]; simp), if_neg (by rw [h.receivers]; omega)]
    refine ⟨h.alive.modify ?_ ?_ ?_, ?_, ?_, ?_, ?_⟩
    · rw [hsend]
      exact h.alive.notIdle
    · rw [hsend]
      exact h.alive.notClosed
    · rw [hsend]
      exact h.alive.tunnelReady
    · simpa [Session.modify, hsend] using h.channel
    · simp only [Session.modify, hsend, Function.update_self]
      rw [h.queue, List.drop_eq_nil_of_le (by omega), List.drop_eq_nil_of_le (by simp; omega)]
    · simp [Session.modify, hsend, h.receivers]
      omega
    · simp only [Session.modify, hsend, Function.update_self]
      rw [h.results, List.take_of_length_le (by simp; omega),
        List.take_of_length_le (by simp; omega), List.map_append]
      rfl

variable {headers : Headers}

theorem Receiving.deliverHeaders
    (h : Receiving k calls payloads s)
    (hstatus : statusHeader headers = some "200".toList) :
    Receiving k calls payloads (s.deliverHeaders k headers) := by
  rw [Session.deliverHeaders, if_pos hstatus]
  refine ⟨h.alive.modify (by simp) (by simp) ?_, ?_, ?_, ?_, ?_⟩
  · have hready := h.alive.tunnelReady
    dsimp only
    rcases hpending : (s.stream k).tunnelReady
    · simp [Deferred.complete]
    · simp [Deferred.complete]
    · exact absurd hpending hready
  · simpa [Session.modify] using h.channel
  · simpa [Session.modify] using h.queue
  · simpa [Session.modify] using h.receivers
  · simpa [Session.modify] using h.results

/-- The payload an event delivers to a stream; an empty one is no payload. -/
def payloadOf (k : Nat) : Event → List Bytes
  | .frame f _ =>
    if f.type = .data ∧ (f.streamID : Int) = streamID k ∧ f.payload ≠ [] then [f.payload] else []
  | _ => []

/-- The payloads of the DATA frames of a stream. -/
def payloadsOf (k : Nat) (events : List Event) : List Bytes := events.flatMap (payloadOf k)

/-- The calls of `receiveData` of a stream. -/
def callsOf (k : Nat) (events : List Event) : Nat := events.count (.receiveData k)

/-- A step before END_STREAM: a call of `receiveData`, a DATA frame or a response of
status 200 on the stream, or a step that is not about it. -/
def Before (k : Nat) (s : Session) (e : Event) : Prop :=
  e = .receiveData k ∨ Foreign k s e ∨
    ∃ f decoded, e = .frame f decoded ∧ (f.streamID : Int) = streamID k ∧
      f.hasFlag endStreamFlag = false ∧
      (f.type = .data ∨ f.type = .headers ∧
        ∃ headers, decoded = some headers ∧ statusHeader headers = some "200".toList)

theorem streamID_ne_zero (k : Nat) : streamID k ≠ 0 := by
  unfold streamID int32
  intro h
  have hdvd := Int.dvd_of_bmod_eq_zero h
  omega

theorem foreign_not_counted (h : Foreign k s e) :
    callsOf k [e] = 0 ∧ payloadsOf k [e] = [] := by
  refine ⟨?_, ?_⟩
  · refine List.count_eq_zero.2 fun hmem => ?_
    rw [List.mem_singleton] at hmem
    subst hmem
    exact absurd rfl h
  · unfold payloadsOf payloadOf
    rw [List.flatMap_singleton]
    split
    · rename_i f decoded
      refine if_neg fun hdata => ?_
      obtain ⟨-, hid | hsettings | hping | hwindow⟩ := h
      · exact hid hdata.2.1
      · rw [hdata.1] at hsettings
        cases hsettings
      · rw [hdata.1] at hping
        cases hping
      · rw [hdata.1] at hwindow
        cases hwindow
    · rfl

theorem Alive.frame (h : Alive k s) (f : Http2Frame) (decoded : Option Headers) :
    step s (.frame f decoded) = (s.record (.received f)).routeFrame f decoded := by
  unfold step
  dsimp only
  rw [h.handshake]
  dsimp only
  rw [if_pos ⟨h.state, h.transport⟩]

/-- A DATA frame without END_STREAM, or what one with it does first. -/
theorem Receiving.payload
    (h : Receiving k calls payloads s) (hid : (f.streamID : Int) = streamID k)
    (hdata : f.type = .data) (decoded : Option Headers) :
    Receiving k calls (payloads ++ payloadsOf k [.frame f decoded])
      (if f.payload ≠ [] then s.deliverData k f.payload else s) := by
  unfold payloadsOf payloadOf
  rw [List.flatMap_singleton]
  dsimp only
  by_cases hempty : f.payload = []
  · rw [if_neg (fun hp => hp.2.2 hempty), List.append_nil, if_neg (fun hp => hp hempty)]
    exact h
  · rw [if_pos ⟨hdata, hid, hempty⟩, if_pos hempty]
    exact h.deliverData f.payload

/-- What the calls have returned before END_STREAM. -/
theorem before_step
    (h : Receiving k calls payloads s) (hbefore : Before k s e) :
    Receiving k (calls + callsOf k [e]) (payloads ++ payloadsOf k [e]) (step s e) := by
  obtain rfl | hforeign | ⟨f, decoded, rfl, hid, hend, htype⟩ := hbefore
  · have hcalls : callsOf k [.receiveData k] = 1 := by simp [callsOf]
    have hpayloads : payloadsOf k [.receiveData k] = [] := rfl
    rw [hcalls, hpayloads, List.append_nil]
    show Receiving k (calls + 1) payloads (if k < s.acquired then s.receiveData k else s)
    rw [if_pos h.alive.acquired]
    exact h.receiveData
  · obtain ⟨hcalls, hpayloads⟩ := foreign_not_counted hforeign
    rw [hcalls, hpayloads, List.append_nil]
    exact h.kept (foreign_kept h.alive hforeign)
  · have hcalls : callsOf k [.frame f decoded] = 0 := by simp [callsOf]
    have hrecord := h.kept (kept_record s (.received f))
    have hlookup : (s.record (.received f)).lookup f.streamID = some k := by
      rw [hid]
      exact hrecord.alive.lookup
    have hzero : f.streamID ≠ 0 := fun hzero => streamID_ne_zero k (by rw [← hid, hzero]; rfl)
    rw [hcalls, Nat.add_zero, h.alive.frame]
    unfold routeFrame
    obtain hdata | ⟨hheaders, headers, rfl, hstatus⟩ := htype
    · rw [hdata]
      dsimp only
      rw [if_neg hzero, hlookup]
      dsimp only
      rw [hend]
      exact hrecord.payload hid hdata decoded
    · have hpayloads : payloadsOf k [.frame f (some headers)] = [] := by
        simp [payloadsOf, payloadOf, hheaders]
      rw [hheaders, hpayloads, List.append_nil]
      dsimp only
      rw [if_neg hzero, hlookup]
      exact hrecord.deliverHeaders hstatus

/-- The same over a run. -/
theorem before_run {events : List Event}
    (h : Receiving k calls payloads s) (hbefore : RunAll step (Before k) s events) :
    Receiving k (calls + callsOf k events) (payloads ++ payloadsOf k events)
    (run step s events) := by
  induction events generalizing s calls payloads with
  | nil => simpa [callsOf, payloadsOf] using h
  | cons e events ih =>
    have hstep := ih (before_step h hbefore.1) hbefore.2
    have hcalls : callsOf k (e :: events) = callsOf k [e] + callsOf k events := by
      rw [← List.singleton_append, callsOf, List.count_append]
      rfl
    have hpayloads : payloadsOf k (e :: events) = payloadsOf k [e] ++ payloadsOf k events := by
      rw [← List.singleton_append, payloadsOf, List.flatMap_append]
      rfl
    rw [hcalls, hpayloads, ← Nat.add_assoc, ← List.append_assoc]
    exact hstep

-- ----
-- From END_STREAM on

/-- The stream is closed, and its calls have returned these results. -/
structure Closed (k : Nat) (results : List (Option Bytes)) (s : Session) : Prop where
  acquired : k < s.acquired
  state : (s.stream k).state = .closed
  results : (s.stream k).results = results

variable {results : List (Option Bytes)}

theorem Closed.kept (h : Closed k results s)
    (hkept : Kept k s t) : Closed k results t := by
  have hdown := hkept.downlink
  simp only [Stream.downlink, Prod.mk.injEq] at hdown
  exact ⟨Nat.lt_of_lt_of_le h.acquired hkept.acquired, hdown.1.trans h.state,
    hdown.2.2.2.2.1.trans h.results⟩

theorem Closed.shut (h : Closed k results s)
    (failTunnel : Bool) : Closed k results (s.shut failTunnel j) := by
  by_cases hj : j = k
  · rw [hj, shut_of_closed h.state]
    exact h
  · exact h.kept (kept_shut s failTunnel hj)

theorem Closed.shutdown (h : Closed k results s) :
    Closed k results s.shutdown := by
  have hfold : ∀ (js : List Nat) (t : Session), Closed k results t →
      Closed k results (js.foldl (fun s j => s.deliverError j) t) := by
    intro js
    induction js with
    | nil => exact fun _ h => h
    | cons j js ih => exact fun t ht => ih _ (ht.shut true)
  unfold Session.shutdown
  split
  · exact h
  · have hclosed := hfold s.streams { s with state := .closed, streams := [], transport := false }
      ⟨h.acquired, h.state, h.results⟩
    exact ⟨hclosed.acquired, hclosed.state, hclosed.results⟩

theorem Closed.removeStream
    (h : Closed k results s) : Closed k results (s.removeStream j) := by
  have hremove : Closed k results (s.remove j) := ⟨h.acquired, h.state, h.results⟩
  unfold Session.removeStream shutdownIfEmpty
  split
  · split
    · exact hremove.shutdown
    · exact hremove
  · exact hremove

theorem Closed.openFails
    (h : Closed k results s) : Closed k results (s.openFails j) := by
  have hmark : Closed k results (s.markClosed j) := by
    by_cases hj : j = k
    · rw [hj, markClosed_of_closed h.state]
      exact h
    · exact h.kept (kept_markClosed s hj)
  exact (hmark.kept (kept_modify _ fun _ => rfl)).removeStream

/-- Steps that are not about a stream that is closed leave its results alone. -/
theorem foreign_closed
    (h : Closed k results s) (hforeign : Foreign k s e) : Closed k results (step s e) := by
  have hquiet : ∀ t : Session, t.acquired = s.acquired → t.stream = s.stream →
      Closed k results t := by
    intro t hacquired hstream
    exact ⟨hacquired ▸ h.acquired, hstream ▸ h.state, hstream ▸ h.results⟩
  unfold step
  rcases e with _ | _ | _ | j | ⟨j, data⟩ | j | j | _ | j | i | j | j | accepted |
    ⟨f, decoded⟩ | _ <;>
    dsimp only
  · -- ensureReady
    split
    · exact hquiet _ rfl rfl
    · exact h
  · -- acquireStream
    split
    · exact h.kept (kept_newStream s h.acquired hforeign)
    · exact h
  · -- tryReserveStream
    split
    · exact h.kept (kept_newStream s h.acquired hforeign)
    · exact h
  · -- openTunnel
    split
    · unfold Session.openTunnel
      split
      · rename_i hidle
        have hj : j ≠ k := by
          rintro rfl
          rw [h.state] at hidle
          cases hidle
        exact (h.kept (kept_modify s fun heq => absurd heq hj)).kept (kept_enqueue _ _)
      · exact h
    · exact h
  · -- sendData
    split
    · unfold Session.sendData
      split
      · exact (h.kept (kept_call s _)).kept (kept_iterate _ _)
      · exact h
    · exact h
  · -- receiveData
    split
    · exact h.kept (kept_receiveData s hforeign)
    · exact h
  · -- close
    split
    · unfold Session.close
      split
      · exact h
      · dsimp only
        split
        · exact ((h.shut false).kept (kept_launch _ _)).removeStream
        · exact (h.shut false).removeStream
    · exact h
  · exact absurd hforeign id
  · -- resumeOpen
    unfold Session.resumeOpen
    split
    · rcases (s.stream j).tunnelReady <;> dsimp only
      · exact h
      · exact h.kept (kept_modify s fun _ => rfl)
      · exact h.openFails
    · exact h
  · -- resumeSend
    split
    · exact h.kept (kept_iterate s i)
    · exact h
  · exact h.kept (kept_acknowledge s j)
  · -- dispatch
    split
    · exact h
    · exact hquiet _ rfl rfl
  · -- write
    split
    · exact h
    · rename_i w rest _
      have hrest : Closed k results { s with writeQueue := rest } := hquiet _ rfl rfl
      split
      · unfold written
        dsimp only
        split
        · exact hquiet _ rfl rfl
        · exact (hrest.kept (kept_record _ _)).kept (kept_modify _ fun _ => rfl)
        · exact hquiet _ rfl rfl
        · exact hquiet _ rfl rfl
      · unfold writeFails
        dsimp only
        split
        · exact hquiet _ rfl rfl
        · exact (hrest.kept (kept_record _ _)).openFails
        · exact hquiet _ rfl rfl
        · exact hquiet _ rfl rfl
  · -- a frame of the server
    split
    · have hrecord := h.kept (kept_record s (.received f))
      unfold processHandshake
      split
      · split
        · exact hrecord
        · have hacking : Closed k results { s.record (.received f) with handshake := .acking } :=
            ⟨hrecord.acquired, hrecord.state, hrecord.results⟩
          exact (hacking.kept (kept_handleServerSettings _ _)).kept (kept_enqueue _ _)
      · split
        · exact hrecord
        · split
          · exact hquiet _ rfl rfl
          · exact hrecord
      · split
        · exact hrecord
        · exact hrecord.kept (kept_enqueue _ _)
      · exact hquiet _ rfl rfl
      · exact hrecord
    · split
      · exact (h.kept (kept_record s (.received f))).kept (kept_routeFrame hforeign)
      · exact h
    · exact h
  · exact absurd hforeign id

/-- A step from END_STREAM on: a call of `receiveData`, or one that is not about the
stream. -/
def After (k : Nat) (s : Session) (e : Event) : Prop := e = .receiveData k ∨ Foreign k s e

/-- Every call on a stream that is closed returns null. -/
theorem after_run {events : List Event}
    (h : Closed k results s) (hafter : RunAll step (After k) s events) :
    Closed k (results ++ List.replicate (callsOf k events) none) (run step s events) := by
  induction events generalizing s results with
  | nil => simpa [callsOf] using h
  | cons e events ih =>
    have hcalls : callsOf k (e :: events) = callsOf k [e] + callsOf k events := by
      rw [← List.singleton_append, callsOf, List.count_append]
      rfl
    rw [hcalls, ← List.replicate_append_replicate, ← List.append_assoc]
    refine ih ?_ hafter.2
    obtain rfl | hforeign := hafter.1
    · have hone : callsOf k [.receiveData k] = 1 := by simp [callsOf]
      rw [hone]
      show Closed k (results ++ [none]) (if k < s.acquired then s.receiveData k else s)
      rw [if_pos h.acquired, Session.receiveData, if_pos h.state]
      refine ⟨h.acquired, ?_, ?_⟩
      · simpa [Session.modify] using h.state
      · simp [Session.modify, h.results]
    · rw [(foreign_not_counted hforeign).1]
      simpa using foreign_closed h hforeign

-- ----
-- END_STREAM

/-- What a number of calls of `receiveData` should return: the payloads in order, and
then null. -/
def expected (payloads : List Bytes) (calls : Nat) : List (Option Bytes) :=
  (payloads.map some ++ List.replicate calls none).take calls

theorem length_expected (payloads : List Bytes) (calls : Nat) :
    (expected payloads calls).length = calls := by
  simp [expected]

theorem expected_eq (payloads : List Bytes) (calls : Nat) :
    expected payloads calls =
      (payloads.map some).take calls ++ List.replicate (calls - payloads.length) none := by
  simp [expected, List.take_append, List.take_replicate]

theorem expected_add (h : payloads.length ≤ calls) (more : Nat) :
    expected payloads calls ++ List.replicate more none = expected payloads (calls + more) := by
  rw [expected_eq, expected_eq, List.take_of_length_le (by simpa using h),
    List.take_of_length_le (by simp; omega), List.append_assoc, List.replicate_append_replicate,
    Nat.sub_add_comm h]

theorem expected_succ_ne (h : calls < payloads.length)
    (results : List (Option Bytes)) : results ++ [none] ≠ expected payloads (calls + 1) := by
  rw [expected_eq, Nat.sub_eq_zero_of_le h, List.replicate_zero, List.append_nil,
    List.take_succ_eq_append_getElem (by simpa using h), List.getElem_map]
  intro heq
  have := (List.append_inj' heq rfl).2
  simp at this

/-- The frame with END_STREAM, in the session that has recorded it. -/
theorem Receiving.received {k calls : Nat} {payloads : List Bytes} {s : Session}
    (h : Receiving k calls payloads s) {f : Http2Frame} (hid : (f.streamID : Int) = streamID k) :
    Receiving k calls payloads (s.record (.received f)) ∧ f.streamID ≠ 0 ∧
      (s.record (.received f)).lookup f.streamID = some k := by
  have hrecord := h.kept (kept_record s (.received f))
  refine ⟨hrecord, fun hzero => streamID_ne_zero k (by rw [← hid, hzero]; rfl), ?_⟩
  rw [hid]
  exact hrecord.alive.lookup

/-- Closing the channel, the calls that wait return null. -/
theorem Receiving.shut
    (h : Receiving k calls payloads s) (failTunnel : Bool) :
    Closed k (expected payloads calls) (s.shut failTunnel k) := by
  rw [shut_eq h.alive.notClosed]
  refine ⟨h.alive.acquired, ?_, ?_⟩
  · simp [Stream.shut]
  · simp [Stream.shut, Stream.closeChannel, h.results, h.receivers, expected_eq]

theorem end_data
    (h : Receiving k calls payloads s) (hid : (f.streamID : Int) = streamID k)
    (hend : f.hasFlag endStreamFlag = true) (hdata : f.type = .data) (decoded : Option Headers) :
    Closed k (expected (payloads ++ payloadsOf k [.frame f decoded]) calls)
    (step s (.frame f decoded)) := by
  obtain ⟨hrecord, hzero, hlookup⟩ := h.received hid
  rw [h.alive.frame]
  unfold routeFrame
  rw [hdata]
  dsimp only
  rw [if_neg hzero, hlookup]
  dsimp only
  rw [if_pos hend]
  have hclosed := (hrecord.payload hid hdata decoded).shut false
  exact ⟨hclosed.acquired, hclosed.state, hclosed.results⟩

theorem end_error
    (h : Receiving k calls payloads s) (hid : (f.streamID : Int) = streamID k)
    (hheaders : f.type = .headers) :
    Closed k (expected payloads calls) (step s (.frame f none)) := by
  obtain ⟨hrecord, hzero, hlookup⟩ := h.received hid
  rw [h.alive.frame]
  unfold routeFrame
  rw [hheaders]
  dsimp only
  rw [if_neg hzero, hlookup]
  exact hrecord.shut true

theorem end_status
    (h : Receiving k calls payloads s) (hid : (f.streamID : Int) = streamID k)
    (hheaders : f.type = .headers)
    (hstatus : statusHeader headers ≠ some "200".toList) :
    Closed k ((payloads.map some).take calls) (step s (.frame f (some headers))) := by
  obtain ⟨hrecord, hzero, hlookup⟩ := h.received hid
  rw [h.alive.frame]
  unfold routeFrame
  rw [hheaders]
  dsimp only
  rw [if_neg hzero, hlookup]
  dsimp only
  rw [Session.deliverHeaders, if_neg hstatus, markClosed_eq hrecord.alive.notClosed]
  refine ⟨hrecord.alive.acquired, ?_, ?_⟩
  · simp [Session.modify]
  · simpa [Session.modify] using hrecord.results

theorem end_ok
    (h : Receiving k calls payloads s) (hid : (f.streamID : Int) = streamID k)
    (hheaders : f.type = .headers)
    (hstatus : statusHeader headers = some "200".toList) :
    Receiving k calls payloads (step s (.frame f (some headers))) := by
  obtain ⟨hrecord, hzero, hlookup⟩ := h.received hid
  rw [h.alive.frame]
  unfold routeFrame
  rw [hheaders]
  dsimp only
  rw [if_neg hzero, hlookup]
  exact hrecord.deliverHeaders hstatus

theorem runAll_calls {C : Session → Event → Prop} (h : ∀ s, C s (.receiveData k)) (n : Nat)
    (s : Session) : RunAll step C s (List.replicate n (.receiveData k)) := by
  induction n generalizing s with
  | zero => trivial
  | succ n ih => exact ⟨h s, ih _⟩

theorem callsOf_calls (k n : Nat) : callsOf k (List.replicate n (.receiveData k)) = n := by
  simp [callsOf]

/-- A stream whose downlink has not begun. -/
def Fresh (k : Nat) (s : Session) : Prop := Receiving k 0 [] s

/-- Whatever the calls of `receiveData` are interleaved with, they return the payloads in
order and then null if and only if END_STREAM finds the channel drained: it comes on DATA
and there have been as many calls as payloads, its own among them. On HEADERS it does the
same when these cannot be decoded; with a status that closes the stream there must have
been exactly as many calls, since the calls that wait go on waiting; and with status 200
the end is never reported. -/
theorem downlink_iff {k : Nat} {s : Session} (hs : Fresh k s) {before : List Event}
    (hbefore : RunAll step (Before k) s before) {f : Http2Frame} (decoded : Option Headers)
    (hid : (f.streamID : Int) = streamID k) (hend : f.hasFlag endStreamFlag = true)
    (htype : f.type = .data ∨ f.type = .headers) :
    (∀ after, RunAll step (After k) (run step s (before ++ [.frame f decoded])) after →
      ((run step s (before ++ [.frame f decoded] ++ after)).stream k).results =
        expected (payloadsOf k (before ++ [.frame f decoded]))
        (callsOf k before + callsOf k after)) ↔
    ((f.type = .data ∨ decoded = none) ∧
        (payloadsOf k (before ++ [.frame f decoded])).length ≤ callsOf k before) ∨
      (f.type = .headers ∧ ∃ headers, decoded = some headers ∧
        statusHeader headers ≠ some "200".toList ∧
        callsOf k before = (payloadsOf k (before ++ [.frame f decoded])).length) := by
  have h := before_run hs hbefore
  rw [Nat.zero_add, List.nil_append] at h
  have hrun : run step s (before ++ [.frame f decoded]) = step (run step s before)
      (.frame f decoded) := by
    rw [run_append]
    rfl
  have hsplit : payloadsOf k (before ++ [.frame f decoded]) =
      payloadsOf k before ++ payloadsOf k [.frame f decoded] := List.flatMap_append
  have hheaders : f.type = .headers → payloadsOf k [.frame f decoded] = [] := fun hheaders => by
    simp [payloadsOf, payloadOf, hheaders]
  simp only [run_append step s (before ++ [.frame f decoded])]
  generalize hpayloads : payloadsOf k (before ++ [.frame f decoded]) = payloads
  generalize callsOf k before = calls at *
  rw [hrun]
  -- a stream closed with its channel
  have hclosed : Closed k (expected payloads calls) (step (run step s before) (.frame f decoded)) →
      ((∀ after, RunAll step (After k) (step (run step s before) (.frame f decoded)) after →
        ((run step (step (run step s before) (.frame f decoded)) after).stream k).results =
          expected payloads (calls + callsOf k after)) ↔ payloads.length ≤ calls) := by
    intro hclosed
    constructor
    · intro hall
      by_contra hlt
      have hcall := runAll_calls (C := After k) (fun _ => .inl rfl) 1
        (step (run step s before) (.frame f decoded))
      have hresults := hall _ hcall
      rw [(after_run hclosed hcall).results, callsOf_calls] at hresults
      exact expected_succ_ne (by omega) _ hresults
    · intro hle after hafter
      rw [(after_run hclosed hafter).results, expected_add hle]
  obtain hdata | hheader := htype
  · rw [hclosed (by rw [← hpayloads, hsplit]; exact end_data h hid hend hdata decoded)]
    simp [hdata]
  · rw [hheaders hheader, List.append_nil] at hsplit
    rw [hsplit] at hpayloads
    rw [hpayloads] at h
    rcases decoded with _ | headers
    · rw [hclosed (end_error h hid hheader)]
      simp
    · by_cases hstatus : statusHeader headers = some "200".toList
      · -- the calls wait for ever
        have hopen := end_ok h hid hheader hstatus
        constructor
        · intro hall
          have hcall := runAll_calls (C := After k) (fun _ => .inl rfl) (payloads.length + 1)
            (step (run step s before) (.frame f (some headers)))
          have hcall' := runAll_calls (C := Before k) (fun _ => .inl rfl) (payloads.length + 1)
            (step (run step s before) (.frame f (some headers)))
          have hresults := congrArg List.length (hall _ hcall)
          rw [(before_run hopen hcall').results, length_expected, callsOf_calls] at hresults
          simp [payloadsOf, payloadOf] at hresults
          omega
        · rintro (⟨hdata | hnone, -⟩ | ⟨-, headers', hsome, hne, -⟩)
          · rw [hheader] at hdata
            cases hdata
          · cases hnone
          · obtain rfl := Option.some.inj hsome
            exact absurd hstatus hne
      · -- the calls that wait are forgotten
        have hbad := end_status h hid hheader hstatus
        constructor
        · intro hall
          have hle : calls ≤ payloads.length := by
            have hresults := congrArg List.length (hall [] trivial)
            rw [run_nil, hbad.results, length_expected] at hresults
            simp [callsOf] at hresults
            exact hresults
          have hge : payloads.length ≤ calls := by
            by_contra hlt
            have hcall := runAll_calls (C := After k) (fun _ => .inl rfl) 1
              (step (run step s before) (.frame f (some headers)))
            have hresults := hall _ hcall
            rw [(after_run hbad hcall).results, callsOf_calls] at hresults
            exact expected_succ_ne (by omega) _ hresults
          exact .inr ⟨hheader, headers, rfl, hstatus, by omega⟩
        · rintro (⟨hdata | hnone, -⟩ | ⟨-, headers', hsome, hne, heq⟩) after hafter
          · rw [hheader] at hdata
            cases hdata
          · cases hnone
          · rw [(after_run hbad hafter).results, ← expected_add (Nat.le_of_eq heq.symm),
              expected_eq, heq, Nat.sub_self, List.replicate_zero, List.append_nil]

theorem fresh_opening : Fresh 0 (run step {} opening) :=
  ⟨⟨by decide, by decide, by decide, by decide, by decide,
    by decide, by decide, by decide⟩, by decide, by decide,
    by decide, by decide⟩

/-- Two calls and one frame before the frame with END_STREAM, which has data for the
second. -/
theorem downlink_iff_drained :
    Fresh 0 (run step {} opening) ∧ ∀ after, RunAll step (After 0) (run step (run step {} opening)
        ([response, .receiveData 0, .receiveData 0, .frame ⟨.data, 0, 1, [7]⟩ none] ++
          [.frame ⟨.data, 1, 1, [8]⟩ none])) after →
      ((run step (run step {} opening)
        ([response, .receiveData 0, .receiveData 0, .frame ⟨.data, 0, 1, [7]⟩ none] ++
          [.frame ⟨.data, 1, 1, [8]⟩ none] ++ after)).stream 0).results =
        expected [[7], [8]] (2 + callsOf 0 after) :=
  ⟨fresh_opening,
    (@downlink_iff 0 _ fresh_opening [response, .receiveData 0, .receiveData 0,
    .frame ⟨.data, 0, 1, [7]⟩ none]
    ⟨.inr (.inr ⟨_, _, rfl, by decide, by decide, .inr ⟨rfl, _, rfl, by decide⟩⟩),
      .inl rfl, .inl rfl, .inr (.inr ⟨_, _, rfl, by decide, by decide, .inl rfl⟩), trivial⟩
    ⟨.data, 1, 1, [8]⟩ none (by decide) (by decide) (.inl rfl)).2
    (.inl ⟨.inl rfl, by decide⟩)⟩

/-- The frame with END_STREAM comes before the call: its payload is lost. -/
theorem end_stream_discards_data :
    ((run step {} (opening ++ [response, .frame ⟨.data, 1, 1, [7]⟩ none, .receiveData 0])).stream
      0).results =
      [none] ∧
    expected (payloadsOf 0 [response, .frame ⟨.data, 1, 1, [7]⟩ none]) 1 = [some [7]] :=
  ⟨by decide, by decide⟩

end Anywhere.Naive
