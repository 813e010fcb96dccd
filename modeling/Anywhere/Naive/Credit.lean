import Mathlib.Algebra.BigOperators.Group.Finset.Basic
import Anywhere.Naive.Downlink
import Anywhere.Naive.Waiters

/-!
# Anywhere — the credit of the connection

The server may send as much DATA as the window of the connection allows. A byte is given
back when the application has read it: it is counted in `connectionRecvConsumed`, and from
there returned by a WINDOW_UPDATE. Bytes that no one will read are not given back.

* `Credited` — every byte received is returned, counted or can still be read.
* `Lossless` — the steps that drop no byte.
* `credit_conserved` — runs of such steps.
-/

namespace Anywhere.Naive

open Lib Session List

-- ----
-- The account

def ClientFrame.returns : ClientFrame → Nat
  | .windowUpdate none increment => increment
  | _ => 0

def returnedBytes (history : List Record) : Nat :=
  (history.map fun r => match r with | .sent f => f.returns | _ => 0).sum

def receivedBytes (history : List Record) : Nat :=
  (history.map fun r => match r with
    | .received f => if f.type = .data then f.payload.length else 0
    | _ => 0).sum

/-- What is queued on a stream that can be read, and what calls of `receiveData` have been
handed and not yet acknowledged. -/
def Stream.unread (st : Stream) : Nat :=
  (if st.state = .closed then 0 else (st.queue.map List.length).sum) + st.resumed.sum

namespace Session

/-- The credit in updates of the window: launched, at the write lock or written. -/
def returned (s : Session) : Nat :=
  (s.launched.map ClientFrame.returns).sum + (s.writeQueue.map fun w => w.frame.returns).sum +
    returnedBytes s.history

def unread (s : Session) : Nat := ∑ k ∈ Finset.range s.acquired, (s.stream k).unread

/-- Every byte received is returned, counted or can still be read. -/
def Credited (s : Session) : Prop :=
  s.returned + s.connectionRecvConsumed + s.unread = receivedBytes s.history

instance (s : Session) : Decidable s.Credited := inferInstanceAs (Decidable (_ = _))

def Drained (s : Session) (k : Nat) : Prop := (s.stream k).state ≠ .closed → (s.stream k).queue = []

end Session

-- ----
-- The steps that drop nothing

/-- The frames that drop nothing: DATA comes on a stream that is open, and a stream is closed
while nothing is queued on it. -/
def FrameLossless (s : Session) (f : Http2Frame) (decoded : Option Headers) : Prop :=
  match f.type with
  | .data =>
    (f.payload ≠ [] → f.streamID ≠ 0 ∧ ∃ k, s.lookup f.streamID = some k ∧
      (s.stream k).state ≠ .closed ∧ (s.stream k).channelClosed = false) ∧
    (f.hasFlag endStreamFlag = true → ∀ k, s.lookup f.streamID = some k →
      (s.stream k).state ≠ .closed → (s.stream k).queue = [] ∧
      (f.payload = [] ∨ 0 < (s.stream k).receivers))
  | .headers =>
    (∀ headers, decoded = some headers → statusHeader headers ≠ some "200".toList) ∨
      decoded = none →
      ∀ k, s.lookup f.streamID = some k → s.Drained k
  | .rstStream => ∀ k, s.lookup f.streamID = some k → s.Drained k
  | .goaway =>
    ∀ goaway, parseGoaway f.payload = some goaway →
      ∀ k ∈ s.streams, (goaway.1 : Int) < streamID k → s.Drained k
  | _ => True

/-- The steps that drop nothing. -/
def Lossless (s : Session) : Event → Prop
  | .close k => s.Drained k
  | .closeSession => ∀ k ∈ s.streams, s.Drained k
  | .readError => s.Reads → ∀ k ∈ s.streams, s.Drained k
  | .resumeOpen k => (s.stream k).opening = .tunnelReady → (s.stream k).tunnelReady =
      .failed → s.Drained k
  | .write accepted =>
    ∀ w rest, s.writeQueue = w :: rest → (accepted && s.transport) = false →
      w.frame.returns = 0 ∧ ∀ k, w = ⟨.headers k, .openTunnel⟩ → s.Drained k
  | .frame f decoded =>
    (s.handshake = .reading → f.type = .data → f.payload = []) ∧
      (s.Reads → FrameLossless s f decoded)
  | _ => True

-- ----
-- The invariant

structure Conserved (s : Session) : Prop where
  table : ∀ k ∈ s.streams, k < s.acquired
  idle : ∀ k, s.acquired ≤ k → (s.stream k).resumed = []
  drained : ∀ k, (s.stream k).state = .closed → (s.stream k).queue = []
  credited : s.Credited

/-- The streams keep their bytes, and `bytes` are given back. -/
structure Level (bytes : Nat) (s t : Session) : Prop where
  acquired : t.acquired = s.acquired
  streams : ∀ k ∈ t.streams, k ∈ s.streams
  queue : ∀ k, (t.stream k).queue = (s.stream k).queue
  resumed : ∀ k, (t.stream k).resumed = (s.stream k).resumed
  closed : ∀ k, (t.stream k).state = .closed → (s.stream k).state = .closed ∨
    (s.stream k).queue = []
  received : receivedBytes t.history = receivedBytes s.history
  ledger : t.returned + t.connectionRecvConsumed = s.returned + s.connectionRecvConsumed + bytes

theorem Level.refl (s : Session) : Level 0 s s :=
  ⟨rfl, fun _ => id, fun _ => rfl, fun _ => rfl, fun _ => .inl, rfl, rfl⟩

/-- The streams are the same. -/
theorem level_same {bytes : Nat} {s t : Session} (hacquired : t.acquired = s.acquired)
    (hstreams : t.streams = s.streams) (hstream : t.stream = s.stream)
    (hreceived : receivedBytes t.history = receivedBytes s.history)
    (hledger : t.returned + t.connectionRecvConsumed = s.returned +
      s.connectionRecvConsumed + bytes) :
    Level bytes s t :=
  ⟨hacquired, fun _ hk => hstreams ▸ hk, fun _ => by rw [hstream], fun _ => by rw [hstream],
    fun _ hk => .inl (hstream ▸ hk), hreceived, hledger⟩

theorem Level.trans {bytes : Nat} {s t u : Session} (h : Level bytes s t) (h' : Level 0 t u) :
    Level bytes s u where
  acquired := h'.acquired.trans h.acquired
  streams := fun k hk => h.streams k (h'.streams k hk)
  queue := fun k => (h'.queue k).trans (h.queue k)
  resumed := fun k => (h'.resumed k).trans (h.resumed k)
  closed := fun k hk => by
    rcases h'.closed k hk with hk | hqueue
    · exact h.closed k hk
    · exact .inr ((h.queue k).symm.trans hqueue)
  received := h'.received.trans h.received
  ledger := h'.ledger.trans h.ledger

theorem unread_eq {st : Stream} (h : st.state = .closed → st.queue = []) :
    st.unread = (st.queue.map List.length).sum + st.resumed.sum := by
  unfold Stream.unread
  split
  · rename_i hclosed
    rw [h hclosed]
    rfl
  · rfl

variable {bytes k : Nat} {s t : Session}

theorem Level.drained (hst : Level bytes s t)
    (h : ∀ k, (s.stream k).state = .closed → (s.stream k).queue = []) (k : Nat)
    (hclosed : (t.stream k).state = .closed) : (t.stream k).queue = [] := by
  rw [hst.queue]
  rcases hst.closed k hclosed with hk | hqueue
  · exact h k hk
  · exact hqueue

theorem Level.unread (hst : Level bytes s t)
    (h : ∀ k, (s.stream k).state = .closed → (s.stream k).queue = []) : t.unread = s.unread := by
  unfold Session.unread
  rw [hst.acquired]
  refine Finset.sum_congr rfl fun k _ => ?_
  rw [unread_eq (hst.drained h k), unread_eq (h k), hst.queue, hst.resumed]

theorem Level.conserved (hst : Level 0 s t) (h : Conserved s) : Conserved t where
  table := fun k hk => hst.acquired ▸ h.table k (hst.streams k hk)
  idle := fun k hk => (hst.resumed k).trans (h.idle k (hst.acquired ▸ hk))
  drained := hst.drained h.drained
  credited := by
    have hcredited := h.credited
    have hledger := hst.ledger
    unfold Credited at *
    rw [hst.unread h.drained, hst.received]
    omega

-- ----
-- What is left alone

theorem returnedBytes_append (history : List Record) (r : Record) :
    returnedBytes (history ++ [r]) = returnedBytes history +
      match r with | .sent f => f.returns | _ => 0 := by
  simp [returnedBytes]

theorem receivedBytes_append (history : List Record) (r : Record) :
    receivedBytes (history ++ [r]) = receivedBytes history + match r with
      | .received f => if f.type = .data then f.payload.length else 0
      | _ => 0 := by
  simp [receivedBytes]

variable {f : Stream → Stream}

theorem level_modify (s : Session)
    (hqueue : (f (s.stream k)).queue = (s.stream k).queue)
    (hresumed : (f (s.stream k)).resumed = (s.stream k).resumed)
    (hclosed : (f (s.stream k)).state = .closed → (s.stream k).state = .closed ∨
      (s.stream k).queue = []) :
    Level 0 s (s.modify k f) := by
  have hstream : ∀ j, (s.modify k f).stream j = if j = k then f (s.stream k) else s.stream j := by
    intro j
    show Function.update s.stream k (f (s.stream k)) j = _
    rw [Function.update_apply]
  refine ⟨rfl, fun _ => id, fun j => ?_, fun j => ?_, fun j hj => ?_, rfl, rfl⟩
  · rw [hstream]
    split
    · rename_i heq
      rw [heq, hqueue]
    · rfl
  · rw [hstream]
    split
    · rename_i heq
      rw [heq, hresumed]
    · rfl
  · rw [hstream] at hj
    split at hj
    · rename_i heq
      rw [heq]
      exact hclosed hj
    · exact .inl hj

theorem level_update (s : Session)
    (h : (f (s.stream k)).queue = (s.stream k).queue ∧ (f (s.stream k)).resumed =
      (s.stream k).resumed ∧ (f (s.stream k)).state = (s.stream k).state) : Level 0 s
      (s.modify k f) :=
  level_modify s h.1 h.2.1 fun hclosed => .inl (h.2.2 ▸ hclosed)

theorem level_senders (h : t = { s with senders := t.senders, calls := t.calls }) :
    Level 0 s t := by
  refine ⟨?_, ?_, ?_, ?_, ?_, ?_, ?_⟩ <;> rw [h]
  · exact fun _ => id
  · exact fun _ => rfl
  · exact fun _ => rfl
  · exact fun _ => .inl
  · rfl

theorem level_launch (s : Session) (f : ClientFrame) : Level f.returns s (s.launch f) := by
  refine level_same rfl rfl rfl rfl ?_
  have hlaunched : ((s.launch f).launched.map ClientFrame.returns).sum =
      (s.launched.map ClientFrame.returns).sum + f.returns := by
    simp [launch]
  unfold returned
  rw [hlaunched]
  show _ + s.connectionRecvConsumed = _
  show (s.launched.map ClientFrame.returns).sum + f.returns +
    (s.writeQueue.map fun w => w.frame.returns).sum +
    returnedBytes s.history + s.connectionRecvConsumed = _
  omega

theorem level_enqueue (s : Session) (w : Write) : Level w.frame.returns s (s.enqueue w) := by
  refine level_same rfl rfl rfl rfl ?_
  have hqueue : ((s.enqueue w).writeQueue.map fun w => w.frame.returns).sum =
      (s.writeQueue.map fun w => w.frame.returns).sum + w.frame.returns := by
    simp [enqueue]
  unfold returned
  rw [hqueue]
  show (s.launched.map ClientFrame.returns).sum + ((s.writeQueue.map fun w => w.frame.returns).sum +
    w.frame.returns) +
    returnedBytes s.history + s.connectionRecvConsumed = _
  omega

theorem level_closed (s : Session) (k : Nat) : Level 0 s (s.record (.closed k)) := by
  refine level_same rfl rfl rfl (receivedBytes_append _ _) ?_
  unfold returned
  show (s.launched.map ClientFrame.returns).sum + (s.writeQueue.map fun w => w.frame.returns).sum +
    returnedBytes (s.history ++ [Record.closed k]) + s.connectionRecvConsumed = _
  rw [returnedBytes_append]
  rfl

theorem level_markClosed (s : Session) (h : s.Drained k) : Level 0 s (s.markClosed k) := by
  unfold markClosed
  split
  · exact .refl s
  · rename_i hclosed
    exact (level_modify s (f := ({ · with state := .closed })) rfl rfl fun _ =>
      .inr (h hclosed)).trans (level_closed _ k)

theorem level_shut (s : Session) (failTunnel : Bool) (h : s.Drained k) :
    Level 0 s (s.shut failTunnel k) := by
  have hclosed : Level 0 s (((s.markClosed k).modify k Stream.closeChannel).cancelAwaiters k) :=
    ((level_markClosed s h).trans (level_update _ ⟨rfl, rfl, rfl⟩)).trans (level_senders rfl)
  unfold shut
  split
  · exact .refl s
  · dsimp only
    split
    · exact hclosed.trans (level_update _ ⟨rfl, rfl, rfl⟩)
    · exact hclosed

theorem level_remove (s : Session) (k : Nat) : Level 0 s (s.remove k) :=
  ⟨rfl, fun _ hj => (mem_filter.1 hj).1, fun _ => rfl, fun _ => rfl, fun _ => .inl, rfl, rfl⟩

theorem Level.stays (hst : Level bytes s t)
    (hstate : ∀ j, (t.stream j).state ≠ .closed → (s.stream j).state ≠ .closed) (h : s.Drained k) :
    t.Drained k := fun hclosed => (hst.queue k).trans (h (hstate k hclosed))

theorem level_shutAll (s : Session) {ks : List Nat} (h : ∀ k ∈ ks, s.Drained k) :
    Level 0 s (ks.foldl (fun s k => s.deliverError k) s) := by
  induction ks generalizing s with
  | nil => exact .refl s
  | cons k ks ih =>
    have hshut := level_shut s true (h k mem_cons_self)
    refine hshut.trans (ih _ fun j hj => hshut.stays (fun i => not_closed_of_shut) ?_)
    exact h j (mem_cons_of_mem k hj)

theorem level_shutdown (s : Session) (h : ∀ k ∈ s.streams, s.Drained k) : Level 0 s s.shutdown := by
  have hclosed : Level 0 s { s with state := .closed, streams := [], transport := false } :=
    ⟨rfl, fun _ hk => absurd hk not_mem_nil, fun _ => rfl, fun _ => rfl, fun _ => .inl, rfl, rfl⟩
  unfold shutdown
  split
  · exact .refl s
  · exact (hclosed.trans (level_shutAll _ h)).trans (level_senders rfl)

theorem level_shutdownIfEmpty (s : Session) : Level 0 s s.shutdownIfEmpty := by
  unfold shutdownIfEmpty
  split
  · rename_i hnil
    refine level_shutdown s fun k hk => ?_
    rw [hnil] at hk
    cases hk
  · exact .refl s

theorem level_removeStream (s : Session) (k : Nat) : Level 0 s (s.removeStream k) := by
  unfold removeStream
  split
  · exact (level_remove s k).trans (level_shutdownIfEmpty _)
  · exact level_remove s k

theorem level_openFails (s : Session) (h : s.Drained k) : Level 0 s (s.openFails k) :=
  ((level_markClosed s h).trans (level_update _ ⟨rfl, rfl, rfl⟩)).trans (level_removeStream _ k)

theorem level_openTunnel (s : Session) (k : Nat) : Level 0 s (s.openTunnel k) := by
  unfold Session.openTunnel
  split
  · exact (level_modify s (f := ({ · with state := .tunnelPending, opening := .writeLock })) rfl rfl
      fun hclosed => by cases hclosed).trans (level_enqueue _ ⟨.headers k, .openTunnel⟩)
  · exact .refl s

theorem level_resumeOpen (s : Session)
    (h : (s.stream k).opening = .tunnelReady → (s.stream k).tunnelReady = .failed → s.Drained k) :
    Level 0 s (s.resumeOpen k) := by
  unfold Session.resumeOpen
  split
  · rename_i hopening
    split
    · exact .refl s
    · exact level_update s ⟨rfl, rfl, rfl⟩
    · rename_i hfailed
      exact level_openFails s (h hopening hfailed)
  · exact .refl s

theorem level_close (s : Session) (h : s.Drained k) : Level 0 s (s.close k) := by
  unfold Session.close
  split
  · exact .refl s
  · dsimp only
    split
    · exact ((level_shut s false h).trans (level_launch _ (.rstStream k cancelCode))).trans
        (level_removeStream _ k)
    · exact (level_shut s false h).trans (level_removeStream _ k)

theorem level_consumeSend (s : Session) (k : Nat) (chunkSize : Int) :
    Level 0 s (s.consumeSend k chunkSize) := by
  have hconnection : Level 0 s
      { s with connectionSendWindow := int32 (s.connectionSendWindow - chunkSize) } :=
    level_same rfl rfl rfl rfl rfl
  refine hconnection.trans (level_update _ ?_)
  unfold Stream.consumeSend
  split
  · exact ⟨rfl, rfl, rfl⟩
  · exact ⟨rfl, rfl, rfl⟩

theorem level_iterate (s : Session) (i : Nat) : Level 0 s (s.iterate i) := by
  have hset : ∀ t, Level 0 s (s.setSender i t) := fun t => level_senders rfl
  unfold Session.iterate
  dsimp only
  split
  · exact hset _
  · split
    · split
      · exact hset _
      · split
        · exact hset _
        · split
          · exact .refl s
          · exact hset _
    · have hconsumed := level_consumeSend s (s.senders i).stream
      exact ((hconsumed _).trans (level_senders (t := Session.setSender i _ _) rfl)).trans
        (level_enqueue _ ⟨.data (s.senders i).stream _, .sendData i⟩)

theorem level_sendData (s : Session) (k : Nat) (data : Bytes) : Level 0 s (s.sendData k data) := by
  unfold Session.sendData
  split
  · have hcall : Level 0 s (s.call ⟨k, data, .loop⟩) := level_senders rfl
    exact hcall.trans (level_iterate _ _)
  · exact .refl s

/-- What the application has read is given back. -/
theorem level_acknowledgeConsumedData (s : Session) (k bytes : Nat) :
    Level bytes s (s.acknowledgeConsumedData k bytes) := by
  unfold Session.acknowledgeConsumedData
  split
  · rename_i hzero
    rw [hzero]
    exact .refl s
  · dsimp only
    have hconnection : Level bytes s (if naiveSessionMaxRecvWindow / 2 ≤
        s.connectionRecvConsumed + bytes then
        { s with connectionRecvConsumed := 0 }.launch
        (.windowUpdate none (s.connectionRecvConsumed + bytes))
        else { s with connectionRecvConsumed := s.connectionRecvConsumed + bytes }) := by
      split
      · have hlaunch := level_launch { s with connectionRecvConsumed := 0 }
          (.windowUpdate none (s.connectionRecvConsumed + bytes))
        refine level_same rfl rfl rfl rfl ?_
        refine hlaunch.ledger.trans ?_
        show s.returned + 0 + (s.connectionRecvConsumed + bytes) = _
        omega
      · exact level_same rfl rfl rfl rfl ((Nat.add_assoc ..).symm)
    generalize (if naiveSessionMaxRecvWindow / 2 ≤ s.connectionRecvConsumed + bytes then
      { s with connectionRecvConsumed := 0 }.launch
      (.windowUpdate none (s.connectionRecvConsumed + bytes))
      else { s with connectionRecvConsumed := s.connectionRecvConsumed + bytes }) = t at *
    refine hconnection.trans ?_
    rcases t.lookup (streamID k) with _ | j <;> dsimp only
    · exact .refl t
    · split
      · exact (level_update t ⟨rfl, rfl, rfl⟩).trans (level_launch _ (.windowUpdate (some k) _))
      · exact level_update t ⟨rfl, rfl, rfl⟩

theorem level_deliverHeaders (s : Session) {headers : Headers}
    (h : statusHeader headers ≠ some "200".toList → s.Drained k) :
    Level 0 s (s.deliverHeaders k headers) := by
  unfold deliverHeaders
  split
  · exact level_modify s rfl rfl fun hclosed => by cases hclosed
  · rename_i hstatus
    exact (level_markClosed s (h hstatus)).trans (level_update _ ⟨rfl, rfl, rfl⟩)

theorem level_goawayAll (s : Session) {ks : List Nat} (h : ∀ k ∈ ks, s.Drained k) :
    Level 0 s (goawayAll ks s) := by
  induction ks generalizing s with
  | nil => exact .refl s
  | cons k ks ih =>
    have hshut := level_shut s true (h k mem_cons_self)
    refine (hshut.trans (level_remove _ k)).trans (ih _ fun j hj => ?_)
    exact hshut.stays (fun i => not_closed_of_shut) (h j (mem_cons_of_mem k hj))

theorem level_adjustSendWindow (s : Session) (delta : Int) (k : Nat) :
    Level 0 s (s.adjustSendWindow delta k) := by
  unfold adjustSendWindow
  dsimp only
  split
  · exact (level_update s ⟨rfl, rfl, rfl⟩).trans (level_senders rfl)
  · exact level_update s ⟨rfl, rfl, rfl⟩

theorem level_handleServerSettings (s : Session) (payload : Bytes) :
    Level 0 s (s.handleServerSettings payload) :=
  Session.handleServerSettings_rule .refl .trans (fun _ _ => level_same rfl rfl rfl rfl rfl)
    level_adjustSendWindow s payload

theorem level_handshakeReturns (s : Session) : Level 0 s s.handshakeReturns :=
  level_same rfl rfl rfl rfl rfl

theorem level_handshakeFails (s : Session) : Level 0 s s.handshakeFails :=
  level_same rfl rfl rfl rfl rfl

variable {rest : List Write} {w : Write}

/-- The head of the write lock is written, or returned nothing. -/
theorem level_pop (hqueue : s.writeQueue = w :: rest)
    {r : Record} (hr : r = .sent w.frame ∨ r = .lost w.frame ∧ w.frame.returns = 0) :
    Level 0 s ({ s with writeQueue := rest }.record r) := by
  refine level_same rfl rfl rfl ?_ ?_
  · refine (receivedBytes_append _ _).trans ?_
    rcases hr with rfl | ⟨rfl, -⟩ <;> rfl
  · have hqueued : (s.writeQueue.map fun w => w.frame.returns).sum =
        w.frame.returns + (rest.map fun w => w.frame.returns).sum := by
      simp [hqueue]
    unfold returned
    rw [hqueued]
    show (s.launched.map ClientFrame.returns).sum + (rest.map fun w => w.frame.returns).sum +
      returnedBytes (s.history ++ [r]) + s.connectionRecvConsumed = _
    rw [returnedBytes_append]
    rcases hr with rfl | ⟨rfl, hzero⟩ <;> dsimp only <;> omega

theorem level_written (hqueue : s.writeQueue = w :: rest) :
    Level 0 s ({ s with writeQueue := rest }.written w) := by
  have hpop := level_pop hqueue (.inl rfl)
  unfold Session.written
  dsimp only
  split
  · exact hpop.trans (level_handshakeReturns _)
  · exact hpop.trans (level_update _ ⟨rfl, rfl, rfl⟩)
  · exact hpop.trans (level_senders rfl)
  · exact hpop

theorem level_writeFails (hqueue : s.writeQueue = w :: rest)
    (hreturns : w.frame.returns = 0) (hdrained : ∀ k, w = ⟨.headers k, .openTunnel⟩ → s.Drained k) :
    Level 0 s ({ s with writeQueue := rest }.writeFails w) := by
  have hpop := level_pop hqueue (.inr ⟨rfl, hreturns⟩)
  unfold Session.writeFails
  dsimp only
  split
  · exact hpop.trans (level_handshakeReturns _)
  · rename_i k howner hframe
    refine hpop.trans (level_openFails _ (hdrained k ?_))
    rw [← howner, ← hframe]
  · exact hpop.trans (level_senders rfl)
  · exact hpop

-- ----
-- Bytes that move

theorem sum_range_change {f g : Nat → Nat} {n a b : Nat} (hk : k < n)
    (hother : ∀ j, j ≠ k → g j = f j) (hchange : g k + a = f k + b) :
    ∑ j ∈ Finset.range n, g j + a = ∑ j ∈ Finset.range n, f j + b := by
  have hmem : k ∈ Finset.range n := Finset.mem_range.2 hk
  have hrest : ∑ j ∈ (Finset.range n).erase k, g j = ∑ j ∈ (Finset.range n).erase k, f j :=
    Finset.sum_congr rfl fun j hj => hother j (Finset.ne_of_mem_erase hj)
  rw [← Finset.add_sum_erase _ g hmem, ← Finset.add_sum_erase _ f hmem]
  omega

theorem unread_modify (s : Session) (hk : k < s.acquired) {a b : Nat}
    (hchange : (f (s.stream k)).unread + a = (s.stream k).unread + b) :
    (s.modify k f).unread + a = s.unread + b := by
  refine sum_range_change hk (fun j hj => ?_) ?_
  · show (Function.update s.stream k _ j).unread = _
    rw [Function.update_of_ne hj]
  · show (Function.update s.stream k _ k).unread + a = _
    rw [Function.update_self]
    exact hchange

/-- Bytes of a stream move, and `bytes` of them are given back. -/
theorem Conserved.moved (h : Conserved s) (hk : k < s.acquired) (hst : Level bytes (s.modify k f) t)
    (hchange : (f (s.stream k)).unread + bytes = (s.stream k).unread)
    (hdrained : (f (s.stream k)).state = .closed → (f (s.stream k)).queue = []) : Conserved t := by
  have hother : ∀ {j}, j ≠ k → (s.modify k f).stream j = s.stream j :=
    fun hj => Function.update_of_ne hj _ _
  have hself : (s.modify k f).stream k = f (s.stream k) := Function.update_self ..
  have hqueue : ∀ j, ((s.modify k f).stream j).state = .closed →
      ((s.modify k f).stream j).queue = [] := by
    intro j
    by_cases hj : j = k
    · rw [hj, hself]
      exact hdrained
    · rw [hother hj]
      exact h.drained j
  refine ⟨fun j hj => ?_, fun j hj => ?_, hst.drained hqueue, ?_⟩
  · rw [hst.acquired]
    exact h.table j (hst.streams j hj)
  · rw [hst.acquired] at hj
    have hne : j ≠ k := fun heq => absurd hk (Nat.not_lt.2 (heq ▸ hj))
    rw [hst.resumed, hother hne]
    exact h.idle j hj
  · have hcredited := h.credited
    have hledger := hst.ledger
    have hunread := unread_modify s hk (f := f) (a := bytes) (b := 0) hchange
    unfold Credited at *
    rw [hst.unread hqueue, hst.received]
    show _ = receivedBytes s.history
    have hsame : (s.modify k f).returned + (s.modify k f).connectionRecvConsumed =
        s.returned + s.connectionRecvConsumed := rfl
    omega

theorem Conserved.receiveData (h : Conserved s) (hk : k < s.acquired) :
    Conserved (s.receiveData k) := by
  unfold Session.receiveData
  dsimp only
  split
  · exact (level_update s ⟨rfl, rfl, rfl⟩).conserved h
  · rename_i hclosed
    split
    · rename_i data queue hqueue
      refine h.moved hk (level_acknowledgeConsumedData _ k data.length) ?_ fun hclosed' =>
        absurd hclosed' hclosed
      unfold Stream.unread
      rw [if_neg hclosed, if_neg hclosed, hqueue, map_cons, sum_cons]
      dsimp only
      omega
    · split
      · exact (level_update s ⟨rfl, rfl, rfl⟩).conserved h
      · exact (level_update s ⟨rfl, rfl, rfl⟩).conserved h

theorem Conserved.acknowledge (h : Conserved s) (k : Nat) : Conserved (s.acknowledge k) := by
  unfold Session.acknowledge
  split
  · exact h
  · rename_i bytes resumed hresumed
    have hk : k < s.acquired := by
      by_contra hge
      rw [h.idle k (Nat.not_lt.1 hge)] at hresumed
      cases hresumed
    refine h.moved hk (level_acknowledgeConsumedData _ k bytes) ?_ (h.drained k)
    unfold Stream.unread
    rw [hresumed, sum_cons]
    dsimp only
    omega

theorem Conserved.newStream (h : Conserved s) : Conserved s.newStream := by
  have hother : ∀ {j}, j ≠ s.acquired → s.newStream.stream j = s.stream j :=
    fun hj => Function.update_of_ne hj _ _
  have hself : s.newStream.stream s.acquired = { sendWindow := s.serverInitialWindowSize } :=
    Function.update_self ..
  refine ⟨fun j hj => ?_, fun j hj => ?_, fun j => ?_, ?_⟩
  · show j < s.acquired + 1
    rcases mem_append.1 hj with hj | hj
    · have := h.table j (mem_filter.1 hj).1
      omega
    · rw [mem_singleton.1 hj]
      omega
  · rw [hother (Nat.ne_of_gt hj)]
    exact h.idle j (Nat.le_of_succ_le hj)
  · by_cases hj : j = s.acquired
    · rw [hj, hself]
      exact fun _ => rfl
    · rw [hother hj]
      exact h.drained j
  · have hunread : s.newStream.unread = s.unread := by
      show ∑ j ∈ Finset.range (s.acquired + 1), (s.newStream.stream j).unread = _
      have hnew : (s.newStream.stream s.acquired).unread = 0 := by
        rw [hself]
        rfl
      rw [Finset.sum_range_succ, hnew, Nat.add_zero]
      refine Finset.sum_congr rfl fun j hj => ?_
      rw [hother (Nat.ne_of_lt (Finset.mem_range.1 hj))]
    have hcredited := h.credited
    unfold Credited at *
    rw [hunread]
    show (s.launched.map ClientFrame.returns).sum +
      (s.writeQueue.map fun w => w.frame.returns).sum +
      returnedBytes (s.history ++ [Record.acquired s.acquired]) +
        s.connectionRecvConsumed + s.unread =
      receivedBytes (s.history ++ [Record.acquired s.acquired])
    rw [returnedBytes_append, receivedBytes_append]
    exact hcredited

-- ----
-- Frames

theorem level_received (s : Session) {f : Http2Frame} (h : f.type = .data → f.payload = []) :
    Level 0 s (s.record (.received f)) := by
  refine level_same rfl rfl rfl ?_ ?_
  · refine (receivedBytes_append _ _).trans ?_
    dsimp only
    split
    · rename_i htype
      rw [h htype]
      rfl
    · rfl
  · unfold returned
    show (s.launched.map ClientFrame.returns).sum +
      (s.writeQueue.map fun w => w.frame.returns).sum +
      returnedBytes (s.history ++ [Record.received f]) + s.connectionRecvConsumed = _
    rw [returnedBytes_append]
    rfl

theorem trySend_unread {st : Stream} (hclosed : st.state ≠ .closed)
    (hchannel : st.channelClosed = false) (data : Bytes) :
    (st.trySend data).unread = st.unread + data.length := by
  have hopen : ¬ st.channelClosed = true := by simp [hchannel]
  unfold Stream.trySend
  rw [if_neg hopen]
  by_cases hreceivers : st.receivers = 0
  · rw [if_pos hreceivers]
    simp only [Stream.unread, if_neg hclosed, map_append, sum_append, map_singleton,
      sum_singleton]
    omega
  · rw [if_neg hreceivers]
    simp only [Stream.unread, if_neg hclosed, sum_append, sum_singleton]
    omega

/-- DATA is queued or handed to a call that waits. -/
theorem Conserved.deliverData (h : Conserved s) {f : Http2Frame} (htype : f.type = .data)
    (hk : k < s.acquired) (hclosed : (s.stream k).state ≠ .closed)
    (hchannel : (s.stream k).channelClosed = false) :
    Conserved ((s.record (.received f)).deliverData k f.payload) := by
  have hdeliver : (s.record (.received f)).deliverData k f.payload =
      (s.record (.received f)).modify k (Stream.trySend f.payload) := if_neg hclosed
  have hother : ∀ {j}, j ≠ k → ((s.record (.received f)).modify k (Stream.trySend f.payload)).stream
      j = s.stream j :=
    fun hj => Function.update_of_ne hj _ _
  have hself : ((s.record (.received f)).modify k (Stream.trySend f.payload)).stream k =
      (s.stream k).trySend f.payload := Function.update_self ..
  rw [hdeliver]
  refine ⟨h.table, fun j hj => ?_, fun j hj => ?_, ?_⟩
  · have hne : j ≠ k := fun heq => absurd hk (Nat.not_lt.2 (heq ▸ hj))
    rw [hother hne]
    exact h.idle j hj
  · by_cases hne : j = k
    · rw [hne, hself, (trySend_same f.payload (s.stream k)).1] at hj
      exact absurd hj hclosed
    · rw [hother hne] at hj ⊢
      exact h.drained j hj
  · have hunread : ((s.record (.received f)).modify k (Stream.trySend f.payload)).unread + 0 =
        s.unread + f.payload.length :=
      unread_modify (s.record (.received f)) hk (trySend_unread hclosed hchannel f.payload)
    have hcredited := h.credited
    unfold Credited at *
    show (s.launched.map ClientFrame.returns).sum +
      (s.writeQueue.map fun w => w.frame.returns).sum +
      returnedBytes (s.history ++ [Record.received f]) + s.connectionRecvConsumed + _ =
      receivedBytes (s.history ++ [Record.received f])
    rw [returnedBytes_append, receivedBytes_append]
    dsimp only
    rw [if_pos htype]
    unfold returned at hcredited
    omega

theorem Conserved.routeData (h : Conserved s) {f : Http2Frame} {decoded : Option Headers}
    (htype : f.type = .data) (hframe : FrameLossless s f decoded) :
    Conserved ((s.record (.received f)).routeFrame f decoded) := by
  unfold FrameLossless at hframe
  rw [htype] at hframe
  obtain ⟨hopen, hend⟩ := hframe
  unfold Session.routeFrame
  rw [htype]
  dsimp only
  have hlookup : (s.record (.received f)).lookup f.streamID = s.lookup f.streamID := rfl
  rw [hlookup]
  by_cases hpayload : f.payload = []
  · have hreceived := (level_received s fun _ => hpayload).conserved h
    split
    · exact hreceived
    · rcases hfound : s.lookup f.streamID with _ | k <;> dsimp only
      · exact hreceived
      · have hkept : (if f.payload ≠ [] then (s.record (.received f)).deliverData k f.payload
            else s.record (.received f)) = s.record (.received f) := if_neg fun hne => hne hpayload
        rw [hkept]
        split
        · rename_i hflag
          have hdrained : (s.record (.received f)).Drained k :=
            fun hclosed => (hend hflag k hfound hclosed).1
          exact ((level_shut _ false hdrained).trans (level_remove _ k)).conserved hreceived
        · exact hreceived
  · obtain ⟨hzero, k, hfound, hclosed, hchannel⟩ := hopen hpayload
    have hk := h.table k (lookup_some hfound).1
    have hdelivered := h.deliverData htype hk hclosed hchannel
    rw [if_neg hzero, hfound]
    dsimp only
    rw [if_pos hpayload]
    split
    · rename_i hflag
      have hdrained : ((s.record (.received f)).deliverData k f.payload).Drained k := by
        intro _
        obtain ⟨hqueue, hwaits⟩ := hend hflag k hfound hclosed
        have hreceivers : (s.stream k).receivers ≠ 0 := by
          rcases hwaits with hnil | hwaits
          · exact absurd hnil hpayload
          · omega
        have hdeliver : (s.record (.received f)).deliverData k f.payload =
            (s.record (.received f)).modify k (Stream.trySend f.payload) := if_neg hclosed
        rw [hdeliver]
        show (Function.update s.stream k ((s.stream k).trySend f.payload) k).queue = []
        rw [Function.update_self]
        unfold Stream.trySend
        rw [if_neg (by simp [hchannel]), if_neg hreceivers]
        exact hqueue
      exact ((level_shut _ false hdrained).trans (level_remove _ k)).conserved hdelivered
    · exact hdelivered

theorem level_routeFrame (s : Session) {f : Http2Frame} {decoded : Option Headers}
    (htype : f.type ≠ .data) (hframe : FrameLossless s f decoded) :
    Level 0 s (s.routeFrame f decoded) := by
  unfold FrameLossless at hframe
  unfold Session.routeFrame
  split
  · rename_i hdata
    exact absurd hdata htype
  · rename_i hheaders
    rw [hheaders] at hframe
    split
    · exact .refl s
    · rcases hfound : s.lookup f.streamID with _ | k <;> dsimp only
      · exact .refl s
      · rcases decoded with _ | headers <;> dsimp only at hframe ⊢
        · exact level_shut s true (hframe (.inr rfl) k hfound)
        · refine level_deliverHeaders s fun hstatus => hframe (.inl fun headers' heq => ?_) k hfound
          exact Option.some.inj heq ▸ hstatus
  · rename_i hrst
    rw [hrst] at hframe
    split
    · exact .refl s
    · rcases hfound : s.lookup f.streamID with _ | k <;> dsimp only
      · exact .refl s
      · exact (level_shut s true (hframe k hfound)).trans (level_remove _ k)
  · split
    · exact .refl s
    · exact (level_handleServerSettings s f.payload).trans (level_launch _ .settingsAck)
  · split
    · exact .refl s
    · exact level_launch s (.pingAck f.payload)
  · rcases parseWindowUpdate f.payload with _ | increment <;> dsimp only
    · exact .refl s
    · split
      · have hconnection : Level 0 s
            { s with connectionSendWindow := int32 (s.connectionSendWindow + increment) } :=
          level_same rfl rfl rfl rfl rfl
        exact hconnection.trans (level_senders rfl)
      · rcases s.lookup f.streamID with _ | k <;> dsimp only
        · exact .refl s
        · exact (level_update s ⟨rfl, rfl, rfl⟩).trans (level_senders rfl)
  · rename_i hgoaway
    rw [hgoaway] at hframe
    have hgoing : Level 0 s { s with goawayReceived := true } :=
      level_same rfl rfl rfl rfl rfl
    rcases hparse : parseGoaway f.payload with _ | ⟨lastStreamID, errorCode⟩ <;> dsimp only
    · exact hgoing.trans (level_shutdownIfEmpty _)
    · refine (hgoing.trans (level_goawayAll _ fun k hk => ?_)).trans (level_shutdownIfEmpty _)
      have hfilter := mem_filter.1 hk
      exact hframe _ hparse k hfilter.1 (by simpa using hfilter.2)

theorem level_processHandshake (s : Session) (f : Http2Frame) :
    Level 0 s (s.processHandshake f) := by
  unfold Session.processHandshake
  split
  · split
    · exact .refl s
    · have hacking : Level 0 s { s with handshake := .acking } :=
        level_same rfl rfl rfl rfl rfl
      exact (hacking.trans (level_handleServerSettings _ f.payload)).trans
        (level_enqueue _ ⟨.settingsAck, .handshake⟩)
  · split
    · exact .refl s
    · split
      · exact level_same rfl rfl rfl rfl rfl
      · exact .refl s
  · split
    · exact .refl s
    · exact level_enqueue s ⟨.pingAck f.payload, .launched⟩
  · exact level_handshakeFails s
  · exact .refl s

-- ----
-- Runs

theorem level_dispatch (s : Session) {j : Nat} {f : ClientFrame} (hf : s.launched[j]? = some f) :
    Level 0 s ({ s with launched := s.launched.eraseIdx j }.enqueue ⟨f, .launched⟩) := by
  have hledger := (level_enqueue { s with launched := s.launched.eraseIdx j } ⟨f, .launched⟩).ledger
  refine level_same rfl rfl rfl rfl (hledger.trans ?_)
  have hsum : (s.launched.map ClientFrame.returns).sum =
      f.returns + ((s.launched.eraseIdx j).map ClientFrame.returns).sum := by
    obtain ⟨hj, rfl⟩ := List.getElem?_eq_some_iff.1 hf
    exact ((getElem_cons_eraseIdx_perm hj).map ClientFrame.returns).sum_eq.symm
  have herased : { s with launched := s.launched.eraseIdx j }.returned + f.returns =
      s.returned := by
    unfold returned
    rw [hsum]
    dsimp only
    omega
  show { s with launched := s.launched.eraseIdx j }.returned + s.connectionRecvConsumed +
    f.returns = _
  omega

theorem conserved_step {e : Event} (he : Lossless s e) (h : Conserved s) :
    Conserved (step s e) := by
  unfold step
  rcases e with _ | _ | _ | j | ⟨j, data⟩ | j | j | _ | j | i | j | j | accepted |
    ⟨f, decoded⟩ | _ <;>
    dsimp only
  · split
    · have hconnecting : Level 0 s
          { s with state := .connecting, handshake := .reading, transport := true } :=
        level_same rfl rfl rfl rfl rfl
      exact hconnecting.conserved h
    · exact h
  · split
    · exact h.newStream
    · exact h
  · split
    · exact h.newStream
    · exact h
  · split
    · exact (level_openTunnel s j).conserved h
    · exact h
  · split
    · exact (level_sendData s j data).conserved h
    · exact h
  · split
    · rename_i hj
      exact h.receiveData hj
    · exact h
  · split
    · exact (level_close s he).conserved h
    · exact h
  · exact (level_shutdown s he).conserved h
  · exact (level_resumeOpen s he).conserved h
  · split
    · exact (level_iterate s i).conserved h
    · exact h
  · exact h.acknowledge j
  · split
    · exact h
    · rename_i f hf
      exact (level_dispatch s hf).conserved h
  · split
    · exact h
    · rename_i w rest hqueue
      split
      · exact (level_written hqueue).conserved h
      · rename_i haccepted
        obtain ⟨hreturns, hdrained⟩ := he w rest hqueue (by simpa using haccepted)
        exact (level_writeFails hqueue hreturns hdrained).conserved h
  · rcases hhandshake : s.handshake <;> dsimp only
    · exact h
    · exact ((level_received s (he.1 hhandshake)).trans (level_processHandshake _ f)).conserved h
    · exact h
    · split
      · rename_i hready
        have hframe := he.2 ⟨hhandshake, hready⟩
        by_cases htype : f.type = .data
        · exact h.routeData htype hframe
        · exact ((level_received s fun hdata => absurd hdata htype).trans
            (level_routeFrame _ htype hframe)).conserved h
      · exact h
  · split
    · exact (level_handshakeFails s).conserved h
    · rename_i hover
      split
      · rename_i hready
        exact (level_shutdown s (he ⟨hover, hready⟩)).conserved h
      · exact h
    · exact h

/-- In a run whose steps drop no byte, every byte of DATA received is returned, counted or can
still be read. -/
theorem credit_conserved {events : List Event} (h : RunAll step Lossless {} events) :
    (run step {} events).Credited := by
  have hstart : Conserved {} :=
    ⟨fun k hk => absurd hk not_mem_nil, fun _ _ => rfl, (fun _ hclosed => by cases hclosed), rfl⟩
  exact (run_invariant_of (I := Conserved) (fun _ _ => conserved_step) h hstart).credited

/-- Two bytes come, and are read. -/
theorem credit_conserved_read :
    (run step {} (opening ++ [response, .frame ⟨.data, 0, 1, [7, 8]⟩ none,
      .receiveData 0])).connectionRecvConsumed =
      2 ∧
    (run step {} (opening ++ [response, .frame ⟨.data, 0, 1, [7, 8]⟩ none,
      .receiveData 0])).Credited := by
  refine ⟨by decide, credit_conserved ?_⟩
  have hfound : (run step {} (opening ++ [response])).lookup 1 = some 0 := by decide
  refine ⟨trivial, ⟨fun _ hdata => Http2FrameType.noConfusion hdata, fun _ => trivial⟩,
    fun w rest _ hfails => ?_, trivial, trivial, fun w rest _ hfails => ?_,
    ⟨fun _ hdata => Http2FrameType.noConfusion hdata, fun _ hrejected => ?_⟩,
    ⟨fun _ _ => ?_, fun _ => ⟨fun _ => ⟨by decide, 0, hfound, by decide, by decide⟩, ?_⟩⟩, trivial,
    trivial⟩
  · exact absurd hfails (by decide)
  · exact absurd hfails (by decide)
  · rcases hrejected with hstatus | hnone
    · exact absurd (by decide) (hstatus _ rfl)
    · cases hnone
  · rename_i hreading _
    exact absurd hreading (by decide)
  · exact fun hend => absurd hend (by decide)

/-- DATA on a stream that is unknown, on one that the application closes before it has read
them, and with the end of the stream: none of these bytes is given back. -/
theorem dropped_bytes_not_credited :
    ¬ (run step {} (opening ++ [response, .frame ⟨.data, 0, 3, [7]⟩ none])).Credited ∧
    ¬ (run step {} (opening ++ [response, .frame ⟨.data, 0, 1, [7]⟩ none, .close 0])).Credited ∧
    ¬ (run step {} (opening ++ [response, .frame ⟨.data, 1, 1, [7]⟩ none,
      .receiveData 0])).Credited :=
  ⟨by decide, by decide, by decide⟩

end Anywhere.Naive
