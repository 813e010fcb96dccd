import Anywhere.Naive.Locality

/-!
# Anywhere — coroutines that wait on a closed stream

A coroutine may wait for the response of the server in `openTunnel`, for either window in
`sendData`, and for data in `receiveData`. A path that closes the stream should discharge
all of them; each path leaves some.

* `Discharged` — the steps that leave none.
* `Eased` — a step that makes no coroutine of a stream wait and does not close it.
* `settled_step`, `no_coroutine_stranded` — in a run of such steps no coroutine waits on a
  closed stream.
-/

namespace Anywhere.Naive

open Lib Session

-- ----
-- Coroutines that wait

namespace Session

/-- `openTunnel` waits for the response. -/
def AwaitsTunnel (s : Session) (k : Nat) : Prop :=
  (s.stream k).opening = .tunnelReady ∧ (s.stream k).tunnelReady = .pending

/-- A call of `receiveData` waits for data. -/
def AwaitsData (s : Session) (k : Nat) : Prop := 0 < (s.stream k).receivers

/-- A call of `sendData` waits for the window of the stream. -/
def AwaitsWindow (s : Session) (k : Nat) : Prop :=
  ∃ i, (s.senders i).stream = k ∧ (s.senders i).point = .streamWindow

/-- A call of `sendData` waits for the window of the connection. -/
def AwaitsConnection (s : Session) (k : Nat) : Prop :=
  ∃ i, (s.senders i).stream = k ∧ (s.senders i).point = .connectionWindow

/-- A coroutine waits on a stream that is closed. -/
def Stranded (s : Session) (k : Nat) : Prop :=
  (s.stream k).state = .closed ∧
    (s.AwaitsTunnel k ∨ s.AwaitsData k ∨ s.AwaitsWindow k ∨ s.AwaitsConnection k)

/-- The last stream of a session that is going away: the session closes with it. -/
def IsLast (s : Session) (k : Nat) : Prop :=
  s.state ≠ .closed ∧ s.goawayReceived = true ∧ (s.remove k).streams = []

def Reads (s : Session) : Prop := s.handshake = .over ∧ s.state = .ready ∧ s.transport = true

/-- The next round of a call of `sendData` would wait. -/
def Blocked (s : Session) (i : Nat) : Prop :=
  (s.senders i).rest ≠ [] ∧ s.state ≠ .closed ∧
    min s.connectionSendWindow (s.stream (s.senders i).stream).sendWindow ≤ 0

end Session

/-- The `catch` of `openTunnel` finds no other coroutine of the stream. -/
def CatchDischarged (s : Session) (k : Nat) : Prop :=
  ¬ s.AwaitsData k ∧ ¬ s.AwaitsWindow k ∧ (s.AwaitsConnection k → s.IsLast k)

/-- The frames of the server that leave no coroutine on a stream they close. -/
def FrameDischarged (s : Session) (f : Http2Frame) (decoded : Option Headers) : Prop :=
  match f.type with
  | .data =>
    f.hasFlag endStreamFlag = true → ∀ k, s.lookup f.streamID = some k →
      (s.stream k).state ≠ .closed →
      ¬ s.AwaitsTunnel k ∧ ¬ s.AwaitsConnection k
  | .headers =>
    ∀ k, s.lookup f.streamID = some k →
      match decoded with
      | none => (s.stream k).state ≠ .closed → ¬ s.AwaitsConnection k
      | some headers =>
        statusHeader headers ≠ some "200".toList →
          ¬ s.AwaitsData k ∧ ¬ s.AwaitsWindow k ∧ ¬ s.AwaitsConnection k
  | .rstStream =>
    ∀ k, s.lookup f.streamID = some k → (s.stream k).state ≠ .closed → ¬ s.AwaitsConnection k
  | .goaway =>
    ∀ goaway, parseGoaway f.payload = some goaway →
      (∀ k ∈ s.streams, (goaway.1 : Int) < streamID k) ∨
        ∀ k ∈ s.streams, (goaway.1 : Int) < streamID k → (s.stream k).state ≠ .closed →
          ¬ s.AwaitsConnection k
  | _ => True

/-- The steps that leave no coroutine waiting on a stream they close, and let none wait on
a stream that is closed. -/
def Discharged (s : Session) : Event → Prop
  | .close k =>
    (s.stream k).state ≠ .closed → ¬ s.AwaitsTunnel k ∧ (s.AwaitsConnection k → s.IsLast k)
  | .resumeOpen k =>
    (s.stream k).opening = .tunnelReady → (s.stream k).tunnelReady = .failed → CatchDischarged s k
  | .resumeSend i =>
    (s.senders i).point = .loop → (s.stream (s.senders i).stream).state = .closed → ¬ s.Blocked i
  | .write accepted =>
    ∀ k rest, s.writeQueue = ⟨.headers k, .openTunnel⟩ :: rest →
      if accepted = true ∧ s.transport = true then
        ¬ ((s.stream k).state = .closed ∧ (s.stream k).tunnelReady = .pending)
      else CatchDischarged s k
  | .frame f decoded => s.Reads → FrameDischarged s f decoded
  | _ => True

-- ----
-- The invariant

/-- No coroutine waits on the stream if it is closed, but perhaps for the window of the
connection; and the response is there if it is open. -/
structure Quiet (k : Nat) (s : Session) : Prop where
  ready : (s.stream k).state = .tunnelOpen → (s.stream k).tunnelReady ≠ .pending
  tunnel : (s.stream k).state = .closed → ¬ s.AwaitsTunnel k
  data : (s.stream k).state = .closed → ¬ s.AwaitsData k
  window : (s.stream k).state = .closed → ¬ s.AwaitsWindow k

/-- No coroutine waits on the stream if it is closed. -/
structure Settled (k : Nat) (s : Session) : Prop extends Quiet k s where
  connection : (s.stream k).state = .closed → ¬ s.AwaitsConnection k

/-- The state of a stream is left alone and none of its coroutines begins to wait. -/
structure Eased (k : Nat) (s t : Session) : Prop where
  state : (t.stream k).state = (s.stream k).state
  opening : (t.stream k).opening = (s.stream k).opening
  tunnelReady : (t.stream k).tunnelReady = (s.stream k).tunnelReady
  receivers : (t.stream k).receivers = (s.stream k).receivers
  senders : ∀ i, (t.senders i).point = .streamWindow ∨ (t.senders i).point = .connectionWindow →
    t.senders i = s.senders i

theorem Eased.refl (k : Nat) (s : Session) : Eased k s s := ⟨rfl, rfl, rfl, rfl, fun _ _ => rfl⟩

theorem Eased.trans {k : Nat} {s t u : Session} (h : Eased k s t) (h' : Eased k t u) :
    Eased k s u where
  state := h'.state.trans h.state
  opening := h'.opening.trans h.opening
  tunnelReady := h'.tunnelReady.trans h.tunnelReady
  receivers := h'.receivers.trans h.receivers
  senders := fun i hi => by
    have heq := h'.senders i hi
    rw [heq] at hi ⊢
    exact h.senders i hi

variable {k j : Nat} {s t : Session}

theorem Eased.of_eq (hstream : t.stream k = s.stream k)
    (hsenders : t.senders = s.senders) : Eased k s t := by
  refine ⟨?_, ?_, ?_, ?_, fun i _ => by rw [hsenders]⟩ <;> rw [hstream]

theorem Eased.quiet (h : Eased k s t) (hquiet : Quiet k s) : Quiet k t where
  ready := by
    rw [h.state, h.tunnelReady]
    exact hquiet.ready
  tunnel := by
    unfold AwaitsTunnel
    rw [h.state, h.opening, h.tunnelReady]
    exact hquiet.tunnel
  data := by
    unfold AwaitsData
    rw [h.state, h.receivers]
    exact hquiet.data
  window := by
    rw [h.state]
    rintro hclosed ⟨i, hi, hpoint⟩
    have heq := h.senders i (.inl hpoint)
    exact hquiet.window hclosed ⟨i, heq ▸ hi, heq ▸ hpoint⟩

theorem Eased.connection (h : Eased k s t)
    (hconnection : (s.stream k).state = .closed → ¬ s.AwaitsConnection k) :
    (t.stream k).state = .closed → ¬ t.AwaitsConnection k := by
  rw [h.state]
  rintro hclosed ⟨i, hi, hpoint⟩
  have heq := h.senders i (.inr hpoint)
  exact hconnection hclosed ⟨i, heq ▸ hi, heq ▸ hpoint⟩

theorem Eased.settled (h : Eased k s t) (hsettled : Settled k s) :
    Settled k t := ⟨h.quiet hsettled.toQuiet, h.connection hsettled.connection⟩

theorem Settled.congr (h : Settled k s) (hstream : t.stream = s.stream)
    (hsenders : t.senders = s.senders) : Settled k t :=
  (Eased.of_eq (congrFun hstream k) hsenders).settled h

theorem Settled.of_not_closed (h : (s.stream k).state ≠ .closed)
    (hready : (s.stream k).state = .tunnelOpen → (s.stream k).tunnelReady ≠ .pending) :
    Settled k s :=
  ⟨⟨hready, fun hclosed => absurd hclosed h, fun hclosed => absurd hclosed h,
    fun hclosed => absurd hclosed h⟩, fun hclosed => absurd hclosed h⟩

theorem Settled.not_stranded (h : Settled k s) : ¬ s.Stranded k := by
  rintro ⟨hclosed, htunnel | hdata | hwindow | hconnection⟩
  · exact h.tunnel hclosed htunnel
  · exact h.data hclosed hdata
  · exact h.window hclosed hwindow
  · exact h.connection hclosed hconnection

-- ----
-- Functions that close no stream

section Eased

variable {k : Nat}

theorem eased_modify {f : Stream → Stream} (s : Session)
    (h : j = k → (f (s.stream k)).state = (s.stream k).state ∧
      (f (s.stream k)).opening = (s.stream k).opening ∧
      (f (s.stream k)).tunnelReady = (s.stream k).tunnelReady ∧
      (f (s.stream k)).receivers = (s.stream k).receivers) : Eased k s (s.modify j f) := by
  by_cases hj : j = k
  · obtain ⟨hstate, hopening, hready, hreceivers⟩ := h hj
    subst hj
    refine ⟨?_, ?_, ?_, ?_, fun _ _ => rfl⟩ <;> simp only [Session.modify, Function.update_self]
    · exact hstate
    · exact hopening
    · exact hready
    · exact hreceivers
  · exact .of_eq (by simp [Session.modify, Function.update_of_ne (Ne.symm hj)]) rfl

theorem eased_modify_of_ne (s : Session) (f : Stream → Stream) (h : j ≠ k) :
    Eased k s (s.modify j f) := eased_modify s fun hj => absurd hj h

theorem eased_completeAwaiter (s : Session) (j : Nat) {point : SendPoint}
    (hpoint : point = .loop ∨ point = .ended) : Eased k s (s.completeAwaiter j point) := by
  refine ⟨rfl, rfl, rfl, rfl, fun i hi => ?_⟩
  simp only [completeAwaiter] at hi ⊢
  split
  · rename_i hif
    rw [if_pos hif] at hi
    rcases hpoint with rfl | rfl <;> rcases hi with hi | hi <;> cases hi
  · rfl

theorem eased_completeConnectionAwaiter (s : Session) {point : SendPoint}
    (hpoint : point = .loop ∨ point = .ended) : Eased k s (s.completeConnectionAwaiter point) := by
  refine ⟨rfl, rfl, rfl, rfl, fun i hi => ?_⟩
  simp only [completeConnectionAwaiter] at hi ⊢
  split
  · rename_i hif
    rw [if_pos hif] at hi
    rcases hpoint with rfl | rfl <;> rcases hi with hi | hi <;> cases hi
  · rfl

theorem eased_setSender (s : Session) (i : Nat) {t : Sender}
    (h : t.point ≠ .streamWindow ∧ t.point ≠ .connectionWindow) : Eased k s (s.setSender i t) := by
  refine ⟨rfl, rfl, rfl, rfl, fun j hj => ?_⟩
  by_cases hji : j = i
  · subst hji
    simp only [setSender, Function.update_self] at hj
    rcases hj with hj | hj
    · exact absurd hj h.1
    · exact absurd hj h.2
  · simp [setSender, Function.update_of_ne hji]

theorem eased_launch (s : Session) (f : ClientFrame) : Eased k s (s.launch f) := .of_eq rfl rfl

theorem eased_enqueue (s : Session) (w : Write) : Eased k s (s.enqueue w) := .of_eq rfl rfl

theorem eased_record (s : Session) (r : Record) : Eased k s (s.record r) := .of_eq rfl rfl

theorem eased_remove (s : Session) (j : Nat) : Eased k s (s.remove j) := .of_eq rfl rfl

theorem eased_applyWindowUpdate (s : Session) (j increment : Nat) :
    Eased k s (s.applyWindowUpdate j increment) :=
  (eased_modify s fun _ => ⟨rfl, rfl, rfl, rfl⟩).trans (eased_completeAwaiter _ j (.inl rfl))

theorem eased_adjustSendWindow (s : Session) (delta : Int) (j : Nat) :
    Eased k s (s.adjustSendWindow delta j) := by
  unfold adjustSendWindow
  dsimp only
  split
  · exact (eased_modify s fun _ => ⟨rfl, rfl, rfl, rfl⟩).trans
      (eased_completeAwaiter _ j (.inl rfl))
  · exact eased_modify s fun _ => ⟨rfl, rfl, rfl, rfl⟩

theorem eased_handleServerSettings (s : Session) (payload : Bytes) :
    Eased k s (s.handleServerSettings payload) :=
  handleServerSettings_rule (.refl k) .trans
    (fun _ _ => .of_eq rfl rfl) eased_adjustSendWindow s payload

theorem eased_acknowledgeConsumedData (s : Session) (j bytes : Nat) :
    Eased k s (s.acknowledgeConsumedData j bytes) :=
  acknowledgeConsumedData_rule (.refl k) .trans (fun _ _ => .of_eq rfl rfl)
    (fun _ _ _ => eased_launch _ _) (fun s _ _ => eased_modify s fun _ =>
      ⟨rfl, rfl, rfl, rfl⟩) s j bytes

theorem eased_consumeSend (s : Session) (j : Nat) (chunkSize : Int) :
    Eased k s (s.consumeSend j chunkSize) := by
  have hconnection : Eased k s
      { s with connectionSendWindow := int32 (s.connectionSendWindow - chunkSize) } :=
        .of_eq rfl rfl
  refine hconnection.trans (eased_modify _ fun _ => ?_)
  unfold Stream.consumeSend
  split <;> exact ⟨rfl, rfl, rfl, rfl⟩

theorem eased_shut (s : Session) (failTunnel : Bool) (h : j ≠ k) :
    Eased k s (s.shut failTunnel j) := by
  by_cases hclosed : (s.stream j).state = .closed
  · rw [shut_of_closed hclosed]
    exact .refl k s
  · rw [shut_eq hclosed]
    refine Eased.trans (eased_completeAwaiter s j (.inr rfl)) (.of_eq ?_ rfl)
    simp [Function.update_of_ne (Ne.symm h), completeAwaiter]

theorem eased_markClosed (s : Session) (h : j ≠ k) : Eased k s (s.markClosed j) := by
  by_cases hclosed : (s.stream j).state = .closed
  · rw [markClosed_of_closed hclosed]
    exact .refl k s
  · rw [markClosed_eq hclosed]
    exact .of_eq (by simp [Function.update_of_ne (Ne.symm h)]) rfl

end Eased

-- ----
-- Functions that close a stream

variable {failTunnel : Bool}

/-- The channel and the awaiter of the window are discharged; `tunnelReady` is unless it
is left alone. -/
theorem quiet_shut (h : ∀ k, Quiet k s)
    (htunnel : failTunnel = false → (s.stream j).state ≠ .closed → ¬ s.AwaitsTunnel j) (k : Nat) :
    Quiet k (s.shut failTunnel j) := by
  by_cases hclosed : (s.stream j).state = .closed
  · rw [shut_of_closed hclosed]
    exact h k
  · by_cases hj : j = k
    · subst hj
      rw [shut_eq hclosed]
      refine ⟨?_, fun _ => ?_, fun _ => ?_, fun _ => ?_⟩
      · simp [Stream.shut]
      · unfold AwaitsTunnel
        simp only [Function.update_self, Stream.shut, Stream.closeChannel]
        rintro ⟨hopening, hpending⟩
        by_cases hfail : failTunnel = true ∧ (s.stream j).state ≠ .tunnelOpen
        · rw [if_pos hfail] at hpending
          rcases hready : (s.stream j).tunnelReady <;> rw [hready] at hpending <;> cases hpending
        · rw [if_neg hfail] at hpending
          rcases hfalse : failTunnel
          · exact htunnel hfalse hclosed ⟨hopening, hpending⟩
          · have hopen : (s.stream j).state = .tunnelOpen := by
              by_contra hne
              exact hfail ⟨hfalse, hne⟩
            exact (h j).ready hopen hpending
      · simp [AwaitsData, Stream.shut, Stream.closeChannel]
      · rintro ⟨i, hi, hpoint⟩
        simp only [cancelAwaiters, completeAwaiter] at hi hpoint
        split at hpoint
        · cases hpoint
        · rename_i hif
          rw [if_neg hif] at hi
          exact hif ⟨hi, hpoint⟩
    · exact (eased_shut s failTunnel hj).quiet (h k)

theorem connection_shut (failTunnel : Bool)
    (h : (s.stream k).state = .closed → ¬ s.AwaitsConnection k)
    (hconnection : (s.stream j).state ≠ .closed → ¬ s.AwaitsConnection j) :
    ((s.shut failTunnel j).stream k).state = .closed →
      ¬ (s.shut failTunnel j).AwaitsConnection k := by
  by_cases hj : j = k
  · subst hj
    rintro - ⟨i, hi, hpoint⟩
    have hnone : ¬ s.AwaitsConnection j := by
      by_cases hclosed : (s.stream j).state = .closed
      · exact h hclosed
      · exact hconnection hclosed
    refine hnone ⟨i, ?_⟩
    by_cases hclosed : (s.stream j).state = .closed
    · rw [shut_of_closed hclosed] at hi hpoint
      exact ⟨hi, hpoint⟩
    · rw [shut_eq hclosed] at hi hpoint
      have heq := (eased_completeAwaiter (k := j) s j (.inr rfl)).senders i (.inr hpoint)
      exact ⟨heq ▸ hi, heq ▸ hpoint⟩
  · exact (eased_shut s failTunnel hj).connection h

theorem quiet_shutAll (h : ∀ k, Quiet k s) (js : List Nat) (k : Nat) :
    Quiet k (js.foldl (fun s j => s.deliverError j) s) := by
  induction js generalizing s with
  | nil => exact h k
  | cons j js ih => exact ih fun i => quiet_shut h (fun hfail => by cases hfail) i

theorem quiet_shutdown (h : ∀ k, Quiet k s) (k : Nat) : Quiet k s.shutdown := by
  unfold Session.shutdown
  split
  · exact h k
  · have heased : ∀ k, Eased k s { s with state := .closed, streams := [], transport := false } :=
      fun k => .of_eq rfl rfl
    have hclosed := fun k => (heased k).quiet (h k)
    exact (eased_completeConnectionAwaiter _ (.inr rfl)).quiet (quiet_shutAll hclosed s.streams k)

/-- A session that closes leaves no call at the window of the connection. -/
theorem connection_shutdown (h : s.state ≠ .closed) (k : Nat) :
    ¬ s.shutdown.AwaitsConnection k := by
  rw [Session.shutdown, if_neg h]
  rintro ⟨i, -, hpoint⟩
  simp only [completeConnectionAwaiter] at hpoint
  split at hpoint
  · cases hpoint
  · rename_i hne
    exact hne hpoint

theorem settled_shutdown (h : ∀ k, Settled k s) (k : Nat) : Settled k s.shutdown := by
  by_cases hclosed : s.state = .closed
  · rw [Session.shutdown, if_pos hclosed]
    exact h k
  · exact ⟨quiet_shutdown (fun k => (h k).toQuiet) k, fun _ => connection_shutdown hclosed k⟩

/-- Once a stream is out of the table, the session may close. -/
theorem settled_removeStream (h : ∀ k, Quiet k s)
    (hconnection : s.IsLast j ∨ ∀ k, (s.stream k).state = .closed → ¬ s.AwaitsConnection k)
    (k : Nat) :
    Settled k (s.removeStream j) := by
  have hremove : ∀ k, Eased k s (s.remove j) := fun k => eased_remove s j
  unfold Session.removeStream
  split
  · rename_i hgoaway
    unfold shutdownIfEmpty
    split
    · rename_i hempty
      by_cases hclosed : s.state = .closed
      · rw [Session.shutdown, if_pos (by exact hclosed)]
        rcases hconnection with hlast | hconnection
        · exact absurd hclosed hlast.1
        · exact ⟨(hremove k).quiet (h k), (hremove k).connection (hconnection k)⟩
      · exact ⟨quiet_shutdown (fun k => (hremove k).quiet (h k)) k,
          fun _ => connection_shutdown (by exact hclosed) k⟩
    · rename_i hempty
      rcases hconnection with hlast | hconnection
      · exact absurd hlast.2.2 hempty
      · exact ⟨(hremove k).quiet (h k), (hremove k).connection (hconnection k)⟩
  · rename_i hgoaway
    rcases hconnection with hlast | hconnection
    · exact absurd hlast.2.1 hgoaway
    · exact ⟨(hremove k).quiet (h k), (hremove k).connection (hconnection k)⟩

theorem settled_openFails (h : ∀ k, Settled k s) (hcatch : CatchDischarged s j)
    (k : Nat) : Settled k (s.openFails j) := by
  obtain ⟨hdata, hwindow, hconnection⟩ := hcatch
  have heased : ∀ k ≠ j, Eased k s ((s.markClosed j).modify j ({ · with opening := .thrown })) :=
    fun k hk => (eased_markClosed s (Ne.symm hk)).trans (eased_modify_of_ne _ _ (Ne.symm hk))
  have hsenders : ((s.markClosed j).modify j ({ · with opening := .thrown })).senders =
      s.senders := by
    unfold markClosed
    split <;> rfl
  have hreceivers :
      (((s.markClosed j).modify j ({ · with opening := .thrown })).stream j).receivers =
      (s.stream j).receivers := by
    unfold markClosed
    split <;> simp [Session.modify, record]
  have hstate : (((s.markClosed j).modify j ({ · with opening := .thrown })).stream j).state =
      .closed := by
    unfold markClosed
    split
    · rename_i hclosed
      simpa [Session.modify] using hclosed
    · simp [Session.modify, record]
  have hopening : (((s.markClosed j).modify j ({ · with opening := .thrown })).stream j).opening =
      .thrown := by
    simp [Session.modify]
  have hlast : s.IsLast j →
      ((s.markClosed j).modify j ({ · with opening := .thrown })).IsLast j := by
    unfold markClosed
    split <;> exact id
  unfold Session.openFails
  generalize (s.markClosed j).modify j ({ · with opening := .thrown }) = t at *
  refine settled_removeStream (fun k => ?_) ?_ k
  · by_cases hk : k = j
    · subst hk
      refine ⟨fun hopen => ?_, fun _ htunnel => ?_, fun _ hwaits => ?_, fun _ hwaits => ?_⟩
      · rw [hstate] at hopen
        cases hopen
      · rw [htunnel.1] at hopening
        cases hopening
      · unfold AwaitsData at hdata hwaits
        exact hdata (hreceivers ▸ hwaits)
      · unfold AwaitsWindow at hwindow hwaits
        rw [hsenders] at hwaits
        exact hwindow hwaits
    · exact (heased k hk).quiet (h k).toQuiet
  · by_cases hwaits : s.AwaitsConnection j
    · exact .inl (hlast (hconnection hwaits))
    · right
      intro k hclosed hk
      unfold AwaitsConnection at hwaits hk
      rw [hsenders] at hk
      by_cases hkj : k = j
      · exact hwaits (hkj ▸ hk)
      · rw [(heased k hkj).state] at hclosed
        exact (h k).connection hclosed hk

/-- A status other than 200 completes `tunnelReady` and nothing else. -/
theorem settled_deliverHeaders (h : ∀ k, Settled k s) {headers : Headers}
    (hstatus : statusHeader headers ≠ some "200".toList →
      ¬ s.AwaitsData j ∧ ¬ s.AwaitsWindow j ∧ ¬ s.AwaitsConnection j) (k : Nat) :
    Settled k (s.deliverHeaders j headers) := by
  unfold Session.deliverHeaders
  split
  · by_cases hk : j = k
    · subst hk
      refine .of_not_closed (by simp [Session.modify]) fun _ => ?_
      simp only [Session.modify, Function.update_self]
      rcases (s.stream j).tunnelReady <;> simp [Deferred.complete]
    · exact (eased_modify_of_ne s _ hk).settled (h k)
  · rename_i hbad
    obtain ⟨hdata, hwindow, hconnection⟩ := hstatus hbad
    by_cases hk : j = k
    · subst hk
      have hstream : ((s.markClosed j).modify j fun st =>
          { st with tunnelReady := st.tunnelReady.complete .failed }).stream j =
          { s.stream j with
            state := .closed, tunnelReady := (s.stream j).tunnelReady.complete .failed } := by
        unfold markClosed
        split
        · rename_i hclosed
          simp [Session.modify, hclosed]
        · simp [Session.modify, record]
      have hsenders : ((s.markClosed j).modify j fun st =>
          { st with tunnelReady := st.tunnelReady.complete .failed }).senders = s.senders := by
        unfold markClosed
        split <;> rfl
      refine ⟨⟨?_, fun _ => ?_, fun _ => ?_, fun _ => ?_⟩, fun _ => ?_⟩
      · rw [hstream]
        intro hopen
        cases hopen
      · unfold AwaitsTunnel
        rw [hstream]
        rcases (s.stream j).tunnelReady <;> simp [Deferred.complete]
      · unfold AwaitsData
        rw [hstream]
        exact hdata
      · unfold AwaitsWindow
        rw [hsenders]
        exact hwindow
      · unfold AwaitsConnection
        rw [hsenders]
        exact hconnection
    · exact ((eased_markClosed s hk).trans (eased_modify_of_ne _ _ hk)).settled (h k)

theorem settled_shut (h : ∀ k, Settled k s)
    (htunnel : failTunnel = false → (s.stream j).state ≠ .closed → ¬ s.AwaitsTunnel j)
    (hconnection : (s.stream j).state ≠ .closed → ¬ s.AwaitsConnection j) (k : Nat) :
    Settled k (s.shut failTunnel j) :=
  ⟨quiet_shut (fun k => (h k).toQuiet) htunnel k,
    connection_shut failTunnel (h k).connection hconnection⟩

theorem settled_close (h : ∀ k, Settled k s)
    (hclose : (s.stream j).state ≠ .closed →
      ¬ s.AwaitsTunnel j ∧ (s.AwaitsConnection j → s.IsLast j)) (k : Nat) :
    Settled k (s.close j) := by
  unfold Session.close
  split
  · exact h k
  · rename_i hclosed
    obtain ⟨htunnel, hconnection⟩ := hclose hclosed
    dsimp only
    have hquiet : ∀ k, Quiet k (s.shut false j) :=
      quiet_shut (fun k => (h k).toQuiet) fun _ _ => htunnel
    have hlast : s.IsLast j → (s.shut false j).IsLast j := by
      rw [shut_eq hclosed]
      exact id
    have hcases : (s.shut false j).IsLast j ∨
        ∀ k, ((s.shut false j).stream k).state = .closed →
          ¬ (s.shut false j).AwaitsConnection k := by
      by_cases hwaits : s.AwaitsConnection j
      · exact .inl (hlast (hconnection hwaits))
      · exact .inr fun k => connection_shut false (h k).connection fun _ => hwaits
    split
    · exact settled_removeStream (fun k => (eased_launch _ _).quiet (hquiet k)) hcases k
    · exact settled_removeStream hquiet hcases k

-- ----
-- Functions that let a coroutine wait

theorem settled_setSender (h : ∀ k, Settled k s) (i : Nat) {t : Sender}
    (ht : (s.stream t.stream).state ≠ .closed) (k : Nat) : Settled k (s.setSender i t) := by
  by_cases hk : t.stream = k
  · subst hk
    exact .of_not_closed ht (h _).ready
  · have hother : ∀ j, ((s.setSender i t).senders j).stream = k → (s.setSender i t).senders j =
        s.senders j := by
      intro j hj
      by_cases hji : j = i
      · subst hji
        exact absurd (by simpa [setSender] using hj) hk
      · simp [setSender, Function.update_of_ne hji]
    refine ⟨⟨(h k).ready, (h k).tunnel, (h k).data, ?_⟩, ?_⟩
    · rintro hclosed ⟨j, hj, hpoint⟩
      have heq := hother j hj
      exact (h k).window hclosed ⟨j, heq ▸ hj, heq ▸ hpoint⟩
    · rintro hclosed ⟨j, hj, hpoint⟩
      have heq := hother j hj
      exact (h k).connection hclosed ⟨j, heq ▸ hj, heq ▸ hpoint⟩

theorem settled_iterate (h : ∀ k, Settled k s) {i : Nat}
    (hblocked : (s.stream (s.senders i).stream).state = .closed → ¬ s.Blocked i) (k : Nat) :
    Settled k (s.iterate i) := by
  unfold iterate
  dsimp only
  split
  · exact (eased_setSender s i ⟨by simp, by simp⟩).settled (h k)
  · rename_i hrest
    have hpos : 0 < (s.senders i).rest.length := List.length_pos_iff.2 hrest
    split
    · rename_i hchunk
      by_cases hstate : s.state = .closed
      · rw [if_pos hstate]
        exact (eased_setSender s i ⟨by simp, by simp⟩).settled (h k)
      · have hmin : min s.connectionSendWindow (s.stream (s.senders i).stream).sendWindow ≤ 0 := by
          unfold maxDataPayload at hchunk
          omega
        have hopen : (s.stream (s.senders i).stream).state ≠ .closed :=
          fun hclosed => hblocked hclosed ⟨hrest, hstate, hmin⟩
        rw [if_neg hstate]
        split
        · exact settled_setSender h i (by exact hopen) k
        · split
          · exact h k
          · exact settled_setSender h i (by exact hopen) k
    · exact (((eased_consumeSend s _ _).trans (eased_setSender _ i ⟨by simp, by simp⟩)).trans
        (eased_enqueue _ _)).settled (h k)

theorem settled_sendData (h : ∀ k, Settled k s) (j : Nat) (data : Bytes) (k : Nat) :
    Settled k (s.sendData j data) := by
  unfold Session.sendData
  split
  · rename_i hopen
    have hcall : ∀ k, Settled k (s.call ⟨j, data, .loop⟩) := fun k =>
      Eased.settled ((eased_setSender s s.calls ⟨by simp, by simp⟩).trans (.of_eq rfl rfl)) (h k)
    refine settled_iterate hcall (fun hclosed => ?_) k
    simp only [call, Function.update_self] at hclosed
    rw [hopen] at hclosed
    cases hclosed
  · exact h k

theorem settled_receiveData (h : ∀ k, Settled k s) (j : Nat) (k : Nat) :
    Settled k (s.receiveData j) := by
  unfold Session.receiveData
  dsimp only
  split
  · exact (eased_modify s fun _ => ⟨rfl, rfl, rfl, rfl⟩).settled (h k)
  · rename_i hclosed
    split
    · exact ((eased_modify s fun _ => ⟨rfl, rfl, rfl, rfl⟩).trans
        (eased_acknowledgeConsumedData _ _ _)).settled (h k)
    · split
      · exact (eased_modify s fun _ => ⟨rfl, rfl, rfl, rfl⟩).settled (h k)
      · by_cases hk : j = k
        · subst hk
          refine .of_not_closed (by simpa [Session.modify] using hclosed) ?_
          simpa [Session.modify] using (h j).ready
        · exact (eased_modify_of_ne s _ hk).settled (h k)

theorem trySend_same (data : Bytes) (st : Stream) :
    (st.trySend data).state = st.state ∧ (st.trySend data).opening = st.opening ∧
      (st.trySend data).tunnelReady = st.tunnelReady := by
  unfold Stream.trySend
  split
  · exact ⟨rfl, rfl, rfl⟩
  · split <;> exact ⟨rfl, rfl, rfl⟩

theorem deliverData_same (s : Session) (j : Nat) (data : Bytes) :
    ((s.deliverData j data).stream j).state = (s.stream j).state ∧
      ((s.deliverData j data).stream j).opening = (s.stream j).opening ∧
      ((s.deliverData j data).stream j).tunnelReady = (s.stream j).tunnelReady ∧
      (s.deliverData j data).senders = s.senders := by
  obtain ⟨hstate, hopening, hready⟩ := trySend_same data (s.stream j)
  unfold Session.deliverData
  split
  · exact ⟨rfl, rfl, rfl, rfl⟩
  · refine ⟨?_, ?_, ?_, rfl⟩ <;> simp only [Session.modify, Function.update_self]
    · exact hstate
    · exact hopening
    · exact hready

theorem settled_deliverData (h : ∀ k, Settled k s) (j : Nat) (data : Bytes) (k : Nat) :
    Settled k (s.deliverData j data) := by
  unfold Session.deliverData
  split
  · exact h k
  · rename_i hclosed
    by_cases hk : j = k
    · subst hk
      obtain ⟨hstate, -, hready⟩ := trySend_same data (s.stream j)
      refine .of_not_closed ?_ ?_
      · simpa [Session.modify, hstate] using hclosed
      · simpa [Session.modify, hstate, hready] using (h j).ready
    · exact (eased_modify_of_ne s _ hk).settled (h k)

theorem settled_openTunnel (h : ∀ k, Settled k s) (j : Nat) (k : Nat) :
    Settled k (s.openTunnel j) := by
  unfold Session.openTunnel
  split
  · by_cases hk : j = k
    · subst hk
      exact .of_not_closed (by simp [Session.modify, enqueue]) (by simp [Session.modify, enqueue])
    · exact ((eased_modify_of_ne s _ hk).trans (eased_enqueue _ _)).settled (h k)
  · exact h k

theorem settled_newStream (h : ∀ k, Settled k s) (k : Nat) : Settled k s.newStream := by
  by_cases hk : k = s.acquired
  · subst hk
    exact .of_not_closed (by simp [newStream]) (by simp [newStream])
  · have heased : Eased k s s.newStream :=
      .of_eq (by simp [newStream, Function.update_of_ne hk]) rfl
    exact heased.settled (h k)

theorem settled_resumeOpen (h : ∀ k, Settled k s)
    (hresume : (s.stream j).opening = .tunnelReady → (s.stream j).tunnelReady = .failed →
      CatchDischarged s j) (k : Nat) : Settled k (s.resumeOpen j) := by
  unfold Session.resumeOpen
  split
  · rename_i hopening
    rcases hready : (s.stream j).tunnelReady <;> dsimp only
    · exact h k
    · by_cases hk : j = k
      · subst hk
        refine ⟨⟨?_, fun _ => ?_, ?_, ?_⟩, ?_⟩
        · simpa [Session.modify] using (h j).ready
        · simp [AwaitsTunnel, Session.modify]
        · simpa [AwaitsData, Session.modify] using (h j).data
        · simpa [AwaitsWindow, Session.modify] using (h j).window
        · simpa [AwaitsConnection, Session.modify] using (h j).connection
      · exact (eased_modify_of_ne s _ hk).settled (h k)
    · exact settled_openFails h (hresume hopening hready) k
  · exact h k

-- ----
-- GOAWAY

def goawayAll (js : List Nat) (s : Session) : Session :=
  js.foldl (fun s j => (s.deliverGoaway j).remove j) s

theorem shut_streams (s : Session) (failTunnel : Bool) (j : Nat) :
    (s.shut failTunnel j).streams = s.streams ∧ (s.shut failTunnel j).state = s.state := by
  by_cases hclosed : (s.stream j).state = .closed
  · rw [shut_of_closed hclosed]
    exact ⟨rfl, rfl⟩
  · rw [shut_eq hclosed]
    exact ⟨rfl, rfl⟩

theorem quiet_goawayAll (h : ∀ k, Quiet k s) (js : List Nat) (k : Nat) :
    Quiet k (goawayAll js s) := by
  induction js generalizing s with
  | nil => exact h k
  | cons j js ih =>
    exact ih fun i => (eased_remove _ j).quiet (quiet_shut h (fun hfail => by cases hfail) i)

theorem goawayAll_streams (js : List Nat) (s : Session) :
    (goawayAll js s).state = s.state ∧
      ∀ i ∈ (goawayAll js s).streams, i ∈ s.streams ∧ i ∉ js := by
  induction js generalizing s with
  | nil => exact ⟨rfl, fun i hi => ⟨hi, by simp⟩⟩
  | cons j js ih =>
    obtain ⟨hstate, hstreams⟩ := ih ((s.deliverGoaway j).remove j)
    obtain ⟨hshut, hshutState⟩ := shut_streams s true j
    refine ⟨hstate.trans hshutState, fun i hi => ?_⟩
    obtain ⟨hmem, hnot⟩ := hstreams i hi
    have hremove : i ∈ s.streams ∧ streamID i ≠ streamID j := by
      have hfilter := List.mem_filter.1 hmem
      exact ⟨hshut ▸ hfilter.1, by simpa using hfilter.2⟩
    refine ⟨hremove.1, fun hcons => ?_⟩
    rcases List.mem_cons.1 hcons with rfl | hmem'
    · exact hremove.2 rfl
    · exact hnot hmem'

theorem awaitsConnection_shut
    (h : (s.shut failTunnel j).AwaitsConnection k) : s.AwaitsConnection k := by
  by_cases hclosed : (s.stream j).state = .closed
  · rwa [shut_of_closed hclosed] at h
  · obtain ⟨i, hi, hpoint⟩ := h
    rw [shut_eq hclosed] at hi hpoint
    have heq := (eased_completeAwaiter (k := j) s j (.inr rfl)).senders i (.inr hpoint)
    exact ⟨i, heq ▸ hi, heq ▸ hpoint⟩

theorem not_closed_of_shut
    (h : ((s.shut failTunnel j).stream k).state ≠ .closed) : (s.stream k).state ≠ .closed := by
  by_cases hj : j = k
  · subst hj
    intro hclosed
    rw [shut_of_closed hclosed] at h
    exact h hclosed
  · rwa [(eased_shut s failTunnel hj).state] at h

theorem settled_goawayAll {s : Session} (h : ∀ k, Settled k s) {js : List Nat}
    (hjs : ∀ j ∈ js, (s.stream j).state ≠ .closed → ¬ s.AwaitsConnection j) (k : Nat) :
    Settled k (goawayAll js s) := by
  induction js generalizing s with
  | nil => exact h k
  | cons j js ih =>
    refine ih (fun i => ?_) fun i hi hclosed hwaits => ?_
    · exact (eased_remove _ j).settled
        (settled_shut h (fun hfail => by cases hfail) (hjs j (by simp)) i)
    · exact hjs i (by simp [hi]) (not_closed_of_shut hclosed) (awaitsConnection_shut hwaits)

theorem settled_goaway (h : ∀ k, Settled k s) (hstate : s.state ≠ .closed)
    {lastStreamID : Nat}
    (hgoaway : (∀ k ∈ s.streams, (lastStreamID : Int) < streamID k) ∨
      ∀ k ∈ s.streams, (lastStreamID : Int) < streamID k → (s.stream k).state ≠ .closed →
        ¬ s.AwaitsConnection k) (k : Nat) :
    Settled k (goawayAll (s.streams.filter fun k => lastStreamID < streamID k)
      s).shutdownIfEmpty := by
  unfold shutdownIfEmpty
  rcases hgoaway with hall | hsome
  · -- the table is empty, and the session closes
    obtain ⟨hstate', hstreams⟩ :=
      goawayAll_streams (s.streams.filter fun k => lastStreamID < streamID k) s
    have hempty : (goawayAll (s.streams.filter fun k => lastStreamID < streamID k) s).streams =
        [] := by
      refine List.eq_nil_iff_forall_not_mem.2 fun i hi => ?_
      obtain ⟨hmem, hnot⟩ := hstreams i hi
      exact hnot (List.mem_filter.2 ⟨hmem, by simpa using hall i hmem⟩)
    rw [if_pos hempty]
    exact ⟨quiet_shutdown (quiet_goawayAll (fun k => (h k).toQuiet) _) k,
      fun _ => connection_shutdown (by rw [hstate']; exact hstate) k⟩
  · have hsettled :=
      @settled_goawayAll s h (s.streams.filter fun k => lastStreamID < streamID k) (by
      intro j hj
      have hfilter := List.mem_filter.1 hj
      exact hsome j hfilter.1 (by simpa using hfilter.2))
    split
    · exact settled_shutdown hsettled k
    · exact hsettled k

-- ----
-- Runs

theorem settled_routeFrame (h : ∀ k, Settled k s) (hstate : s.state ≠ .closed)
    {f : Http2Frame} {decoded : Option Headers} (hframe : FrameDischarged s f decoded) (k : Nat) :
    Settled k (s.routeFrame f decoded) := by
  unfold FrameDischarged at hframe
  unfold routeFrame
  rcases htype : f.type <;> rw [htype] at hframe <;> dsimp only at hframe ⊢
  · -- DATA
    split
    · exact h k
    · rcases hlookup : s.lookup f.streamID with _ | j <;> dsimp only
      · exact h k
      · have hdelivered : ∀ k, Settled k (if f.payload ≠ [] then s.deliverData j f.payload
            else s) := by
          split
          · exact settled_deliverData h j f.payload
          · exact h
        have hsame := deliverData_same s j f.payload
        have hsame : ∀ t, t = (if f.payload ≠ [] then s.deliverData j f.payload else s) →
            (t.stream j).state = (s.stream j).state ∧ (t.stream j).opening = (s.stream j).opening ∧
              (t.stream j).tunnelReady = (s.stream j).tunnelReady ∧ t.senders = s.senders := by
          rintro t rfl
          split
          · exact hsame
          · exact ⟨rfl, rfl, rfl, rfl⟩
        generalize (if f.payload ≠ [] then s.deliverData j f.payload else s) = t at *
        obtain ⟨hstate', hopening, hready, hsenders⟩ := hsame t rfl
        split
        · rename_i hend
          have hdischarged := hframe hend j hlookup
          refine (eased_remove _ j).settled (settled_shut hdelivered (fun _ hclosed => ?_)
            (fun hclosed => ?_) k)
          · unfold AwaitsTunnel
            rw [hopening, hready]
            exact (hdischarged (hstate' ▸ hclosed)).1
          · unfold AwaitsConnection
            rw [hsenders]
            exact (hdischarged (hstate' ▸ hclosed)).2
        · exact hdelivered k
  · -- HEADERS
    split
    · exact h k
    · rcases hlookup : s.lookup f.streamID with _ | j <;> dsimp only
      · exact h k
      · have hdischarged := hframe j hlookup
        rcases decoded with _ | headers <;> dsimp only at hdischarged ⊢
        · exact settled_shut h (fun hfail => by cases hfail) hdischarged k
        · exact settled_deliverHeaders h hdischarged k
  · -- RST_STREAM
    split
    · exact h k
    · rcases hlookup : s.lookup f.streamID with _ | j <;> dsimp only
      · exact h k
      · exact (eased_remove _ j).settled
          (settled_shut h (fun hfail => by cases hfail) (hframe j hlookup) k)
  · -- SETTINGS
    split
    · exact h k
    · exact ((eased_handleServerSettings s f.payload).trans (eased_launch _ _)).settled (h k)
  · -- PING
    split
    · exact h k
    · exact (eased_launch s _).settled (h k)
  · -- GOAWAY
    have heased : ∀ k, Eased k s { s with goawayReceived := true } := fun k => .of_eq rfl rfl
    have hsettled := fun k => (heased k).settled (h k)
    rcases hgoaway : parseGoaway f.payload with _ | ⟨lastStreamID, errorCode⟩ <;> dsimp only
    · unfold shutdownIfEmpty
      split
      · exact settled_shutdown hsettled k
      · exact hsettled k
    · exact settled_goaway hsettled hstate (hframe _ hgoaway) k
  · -- WINDOW_UPDATE
    rcases parseWindowUpdate f.payload with _ | increment <;> dsimp only
    · exact h k
    · split
      · have heased : Eased k s
            { s with connectionSendWindow := int32 (s.connectionSendWindow + increment) } :=
              .of_eq rfl rfl
        exact (heased.trans (eased_completeConnectionAwaiter _ (.inl rfl))).settled (h k)
      · rcases s.lookup f.streamID with _ | j <;> dsimp only
        · exact h k
        · exact (eased_applyWindowUpdate s j increment).settled (h k)

theorem settled_processHandshake (h : ∀ k, Settled k s) (f : Http2Frame) (k : Nat) :
    Settled k (s.processHandshake f) := by
  unfold processHandshake
  split
  · split
    · exact h k
    · have hacking : Eased k s { s with handshake := .acking } := .of_eq rfl rfl
      exact ((hacking.trans (eased_handleServerSettings _ f.payload)).trans
        (eased_enqueue _ _)).settled (h k)
  · split
    · exact h k
    · split
      · exact (h k).congr rfl rfl
      · exact h k
  · split
    · exact h k
    · exact (h k).congr rfl rfl
  · exact (h k).congr rfl rfl
  · exact h k

theorem settled_written (h : ∀ k, Settled k s) {w : Write}
    (hwrite : ∀ j, w = ⟨.headers j, .openTunnel⟩ →
      ¬ ((s.stream j).state = .closed ∧ (s.stream j).tunnelReady = .pending)) (k : Nat) :
    Settled k (s.written w) := by
  have hrecord : ∀ k, Settled k (s.record (.sent w.frame)) :=
    fun k => (eased_record s _).settled (h k)
  obtain ⟨frame, owner⟩ := w
  unfold written
  dsimp only
  split
  · exact (h k).congr rfl rfl
  · rename_i j
    by_cases hk : j = k
    · subst hk
      refine ⟨⟨?_, ?_, ?_, ?_⟩, ?_⟩
      · simpa [Session.modify, record] using (h j).ready
      · intro hclosed hwaits
        simp only [Session.modify, record, Function.update_self] at hclosed
        simp only [AwaitsTunnel, Session.modify, record, Function.update_self] at hwaits
        exact hwrite j rfl ⟨hclosed, hwaits.2⟩
      · simpa [AwaitsData, Session.modify, record] using (h j).data
      · simpa [AwaitsWindow, Session.modify, record] using (h j).window
      · simpa [AwaitsConnection, Session.modify, record] using (h j).connection
    · exact (eased_modify_of_ne _ _ hk).settled (hrecord k)
  · exact (eased_setSender _ _ ⟨by simp, by simp⟩).settled (hrecord k)
  · exact hrecord k

theorem settled_writeFails (h : ∀ k, Settled k s) {w : Write}
    (hwrite : ∀ j, w = ⟨.headers j, .openTunnel⟩ → CatchDischarged s j) (k : Nat) :
    Settled k (s.writeFails w) := by
  have hrecord : ∀ k, Settled k (s.record (.lost w.frame)) :=
    fun k => (eased_record s _).settled (h k)
  obtain ⟨frame, owner⟩ := w
  unfold writeFails
  dsimp only
  split
  · exact (h k).congr rfl rfl
  · rename_i j
    exact settled_openFails hrecord (hwrite j rfl) k
  · exact (eased_setSender _ _ ⟨by simp, by simp⟩).settled (hrecord k)
  · exact hrecord k

theorem settled_step {e : Event} (he : Discharged s e) (h : ∀ k, Settled k s) (k : Nat) :
    Settled k (step s e) := by
  unfold step
  rcases e with _ | _ | _ | j | ⟨j, data⟩ | j | j | _ | j | i | j | j | accepted |
    ⟨f, decoded⟩ | _ <;>
    dsimp only
  · split
    · exact (h k).congr rfl rfl
    · exact h k
  · split
    · exact settled_newStream h k
    · exact h k
  · split
    · exact settled_newStream h k
    · exact h k
  · split
    · exact settled_openTunnel h j k
    · exact h k
  · split
    · exact settled_sendData h j data k
    · exact h k
  · split
    · exact settled_receiveData h j k
    · exact h k
  · split
    · exact settled_close h he k
    · exact h k
  · exact settled_shutdown h k
  · exact settled_resumeOpen h he k
  · split
    · rename_i hloop
      exact settled_iterate h (he hloop) k
    · exact h k
  · unfold Session.acknowledge
    split
    · exact h k
    · exact ((eased_modify s fun _ => ⟨rfl, rfl, rfl, rfl⟩).trans
        (eased_acknowledgeConsumedData _ _ _)).settled (h k)
  · split
    · exact h k
    · exact (h k).congr rfl rfl
  · split
    · exact h k
    · rename_i w rest hqueue
      have hrest : ∀ k, Settled k { s with writeQueue := rest } := fun k => (h k).congr rfl rfl
      split
      · rename_i haccepted
        refine settled_written hrest (fun j hw => ?_) k
        have hcond := he j rest (by rw [hqueue, hw])
        rwa [if_pos (by simpa using haccepted)] at hcond
      · rename_i haccepted
        refine settled_writeFails hrest (fun j hw => ?_) k
        have hcond := he j rest (by rw [hqueue, hw])
        rwa [if_neg (by simpa using haccepted)] at hcond
  · have hrecord : ∀ k, Settled k (s.record (.received f)) := fun k => (h k).congr rfl rfl
    rcases hhandshake : s.handshake <;> dsimp only
    · exact h k
    · exact settled_processHandshake hrecord f k
    · exact h k
    · split
      · rename_i hready
        refine settled_routeFrame hrecord ?_ (he ⟨hhandshake, hready⟩) k
        show s.state ≠ .closed
        rw [hready.1]
        simp
      · exact h k
  · split
    · exact (h k).congr rfl rfl
    · split
      · exact settled_shutdown h k
      · exact h k
    · exact h k

theorem settled_start (k : Nat) : Settled k {} := .of_not_closed (by simp) (by simp)

/-- In a run whose steps leave no coroutine waiting on a stream they close, and let none
wait on one that is closed, no coroutine waits on a closed stream in any state. -/
theorem no_coroutine_stranded {events : List Event} (h : RunAll step Discharged {} events)
    (k : Nat) :
    ¬ (run step {} events).Stranded k :=
  (run_invariant_of (I := fun s => ∀ k, Settled k s) (fun _ _ he hs => settled_step he hs) h
    settled_start k).not_stranded

/-- The response comes, the application reads, and closes the stream while it waits for
data. -/
theorem no_coroutine_stranded_close :
    ((run step {} (opening ++ [response, .resumeOpen 0, .receiveData 0, .close 0])).stream
      0).state = .closed ∧
    ∀ k, ¬ (run step {} (opening ++ [response, .resumeOpen 0, .receiveData 0, .close 0])).Stranded
      k := by
  refine ⟨by decide, no_coroutine_stranded ?_⟩
  have hack : (run step {} (opening.take 2)).writeQueue = [⟨.settingsAck, .handshake⟩] := by decide
  have hheaders : (run step {} (opening.take 5)).writeQueue = [⟨.headers 0, .openTunnel⟩] := by
    decide
  refine ⟨trivial, fun _ => trivial, fun k rest hqueue => ?_, trivial, trivial,
    fun k rest hqueue => ?_, fun _ k _ hstatus => ?_, fun _ hfailed => ?_, trivial,
    fun _ => ⟨fun htunnel => ?_, ?_⟩, trivial⟩
  · cases hack.symm.trans hqueue
  · obtain rfl : k = 0 := by
      have := (List.cons.inj (hheaders.symm.trans hqueue)).1
      simpa using this.symm
    rw [if_pos (by decide)]
    exact fun hclosed => absurd hclosed.1 (by decide)
  · exact absurd (by decide) hstatus
  · exact absurd hfailed (by decide)
  · exact absurd htunnel.1 (by decide)
  · rintro ⟨i, -, hpoint⟩
    cases hpoint

/-- Trailers close the stream while the application waits for data: it waits for ever. -/
theorem trailers_strand_receiver :
    (run step {} (opening ++ [response, .resumeOpen 0, .receiveData 0,
      .frame ⟨.headers, 5, 1, []⟩ (some [("grpc-status".toList, "0".toList)])])).Stranded 0 :=
  ⟨by decide, .inr (.inl (by unfold AwaitsData; decide))⟩

end Anywhere.Naive
