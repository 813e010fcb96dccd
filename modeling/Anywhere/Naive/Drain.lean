import Anywhere.Naive.Waiters

/-!
# Anywhere — `Http2Session`: behind GOAWAY

Behind GOAWAY a session takes no more streams, and it is to close with the last one it has.
`removeStream` sees to that, and so does GOAWAY itself. END_STREAM and RST_STREAM take a stream off
the table without it, and the stream is closed then, so that its own `close` does nothing. During
the handshake GOAWAY fails `ensureReady`, which leaves the transport open.

A session of the pool is one with an entry there, which `onClose` removes.

* `PooledSession`, `stepPool` — a session with its entry.
* `Drained` — behind GOAWAY a session without streams is closed.
* `Retires` — the steps in which the last stream is not taken by END_STREAM or RST_STREAM.
* `Draining`, `draining_step` — the invariant.
* `goaway_drains` — in a run of such steps.
* `goaway_does_not_drain` — END_STREAM of the last stream, and GOAWAY in the handshake.
-/

namespace Anywhere.Naive

open Lib List

-- ----
-- The pool

/-- A session with what `Http2SessionPool` has of it: its callback, and its entry. -/
structure PooledSession where
  session : Session := {}
  /-- `onClose` is set. -/
  onClose : Bool := true
  pooled : Bool := true

inductive PoolEvent
  | session (e : Event)
  /-- `acquireStream` of the pool takes out what is closed. -/
  | removeClosed
  | closeAll
  deriving Repr

/-- One step. A session becomes closed in `close`, in `closeWithError` and in the `catch` of
`ensureReady`, and each of them goes on to call `onClose`. -/
def stepPool (p : PooledSession) : PoolEvent → PooledSession
  | .session e =>
    let session := step p.session e
    let invoked := decide (session.state = .closed ∧ p.session.state ≠ .closed) && p.onClose
    { p with session := session, pooled := p.pooled && !invoked }
  | .removeClosed => { p with pooled := p.pooled && decide (p.session.state ≠ .closed) }
  | .closeAll => if p.pooled then ⟨p.session.shutdown, false, false⟩ else p

def Session.Gone (s : Session) : Prop :=
  ∃ f : Http2Frame, f.type = .goaway ∧ .received f ∈ s.history

/-- Behind GOAWAY a session without streams is closed, its transport is cancelled and its entry is
removed. -/
def Drained (p : PooledSession) : Prop :=
  p.session.Gone → p.session.streams = [] →
    p.session.state = .closed ∧ p.session.transport = false ∧ p.pooled = false

/-- The frames that take a stream off the table beside GOAWAY. -/
def Http2Frame.Ends (f : Http2Frame) : Prop :=
  f.streamID ≠ 0 ∧ ((f.type = .data ∧ f.hasFlag endStreamFlag = true) ∨ f.type = .rstStream)

/-- The steps in which END_STREAM and RST_STREAM leave a stream in the table behind GOAWAY, and no
GOAWAY fails the handshake of a transport that is there. -/
def Retires (p : PooledSession) : PoolEvent → Prop
  | .session (.frame f _) =>
    (p.session.handshake = .reading → f.type = .goaway → p.session.transport = false) ∧
      (p.session.Reads → p.session.goawayReceived = true → f.Ends →
        ∀ k, p.session.lookup f.streamID = some k → (p.session.remove k).streams ≠ [])
  | _ => True

-- ----
-- The invariant

namespace Session

/-- GOAWAY has been received, or was processed in the handshake. -/
def Going (s : Session) : Prop := s.goawayReceived = true ∨ s.Gone

/-- How many acknowledgements of the handshake are at the write lock. -/
def acks (s : Session) : Nat := s.writeQueue.countP fun w => w.owner = .handshake

end Session

/-- One acknowledgement of the handshake is at the write lock, as long as it is waited for; behind
GOAWAY the handshake is over, and a session that is closed has cancelled its transport. -/
structure Retired (s : Session) : Prop where
  acks : s.acks = if s.handshake = .acking then 1 else 0
  finished : s.Going → s.handshake = .over
  closed : s.Going → (s.state = .closed ∧ s.transport = false) ∨
    (s.state ≠ .closed ∧ s.goawayReceived = true)

structure Draining (s : Session) : Prop extends Retired s where
  streams : s.Going → s.state ≠ .closed → s.streams ≠ []

/-- What the invariant is about is left alone. -/
structure Leaves (s t : Session) : Prop where
  state : t.state = s.state
  handshake : t.handshake = s.handshake
  goawayReceived : t.goawayReceived = s.goawayReceived
  transport : t.transport = s.transport
  streams : t.streams = s.streams
  acks : t.acks = s.acks
  gone : t.Gone → s.Gone

theorem Leaves.refl (s : Session) : Leaves s s := ⟨rfl, rfl, rfl, rfl, rfl, rfl, id⟩

theorem Leaves.trans {s t u : Session} (h : Leaves s t) (h' : Leaves t u) : Leaves s u where
  state := h'.state.trans h.state
  handshake := h'.handshake.trans h.handshake
  goawayReceived := h'.goawayReceived.trans h.goawayReceived
  transport := h'.transport.trans h.transport
  streams := h'.streams.trans h.streams
  acks := h'.acks.trans h.acks
  gone := h.gone ∘ h'.gone

variable {s t : Session}

theorem Leaves.going (h : Leaves s t) (hgoing : t.Going) : s.Going := by
  rcases hgoing with hreceived | hgone
  · exact .inl (h.goawayReceived ▸ hreceived)
  · exact .inr (h.gone hgone)

theorem Leaves.retired (h : Leaves s t) (hs : Retired s) : Retired t where
  acks := by rw [h.acks, h.handshake, hs.acks]
  finished := fun hgoing => h.handshake.trans (hs.finished (h.going hgoing))
  closed := fun hgoing => by
    rw [h.state, h.transport, h.goawayReceived]
    exact hs.closed (h.going hgoing)

theorem Leaves.draining (h : Leaves s t) (hs : Draining s) : Draining t where
  toRetired := h.retired hs.toRetired
  streams := fun hgoing hstate => by
    rw [h.streams]
    exact hs.streams (h.going hgoing) (h.state ▸ hstate)

theorem draining_of_not_going (hacks : s.acks = if s.handshake = .acking then 1 else 0)
    (hgoing : ¬ s.Going) : Draining s :=
  ⟨⟨hacks, fun h => absurd h hgoing, fun h => absurd h hgoing⟩, fun h => absurd h hgoing⟩

theorem Retired.not_going (h : Retired s) (hover : s.handshake ≠ .over) : ¬ s.Going :=
  fun hgoing => hover (h.finished hgoing)

/-- A session that still takes streams has not seen GOAWAY. -/
theorem Retired.not_going_of_ready (h : Retired s) (hstate : s.state = .ready)
    (hreceived : s.goawayReceived = false) : ¬ s.Going := by
  intro hgoing
  rcases h.closed hgoing with hclosed | hopen
  · cases hstate.symm.trans hclosed.1
  · cases hreceived.symm.trans hopen.2

-- ----
-- The functions that leave the table alone

section Leaves

variable (s : Session)

theorem leaves_modify (k : Nat) (f : Stream → Stream) : Leaves s (s.modify k f) :=
  ⟨rfl, rfl, rfl, rfl, rfl, rfl, id⟩

theorem leaves_setSender (i : Nat) (t : Sender) : Leaves s (s.setSender i t) :=
  ⟨rfl, rfl, rfl, rfl, rfl, rfl, id⟩

theorem leaves_launch (f : ClientFrame) : Leaves s (s.launch f) :=
  ⟨rfl, rfl, rfl, rfl, rfl, rfl, id⟩

theorem leaves_completeAwaiter (k : Nat) (point : SendPoint) :
    Leaves s (s.completeAwaiter k point) :=
  ⟨rfl, rfl, rfl, rfl, rfl, rfl, id⟩

theorem leaves_completeConnectionAwaiter (point : SendPoint) :
    Leaves s (s.completeConnectionAwaiter point) :=
  ⟨rfl, rfl, rfl, rfl, rfl, rfl, id⟩

theorem leaves_record {r : Record} (h : ∀ f : Http2Frame, r = .received f → f.type ≠ .goaway) :
    Leaves s (s.record r) := by
  refine ⟨rfl, rfl, rfl, rfl, rfl, rfl, ?_⟩
  rintro ⟨f, htype, hmem⟩
  rcases mem_append.mp hmem with hold | hnew
  · exact ⟨f, htype, hold⟩
  · exact absurd htype (h f (mem_singleton.mp hnew).symm)

theorem leaves_enqueue {w : Write} (h : w.owner ≠ .handshake) : Leaves s (s.enqueue w) := by
  refine ⟨rfl, rfl, rfl, rfl, rfl, ?_, id⟩
  unfold Session.acks Session.enqueue
  rw [countP_append, countP_singleton, if_neg (by simpa using h)]
  rfl

theorem acks_enqueue (frame : ClientFrame) : (s.enqueue ⟨frame, .handshake⟩).acks = s.acks + 1 := by
  unfold Session.acks Session.enqueue
  rw [countP_append, countP_singleton, if_pos (decide_eq_true rfl)]

theorem leaves_markClosed (k : Nat) : Leaves s (s.markClosed k) := by
  unfold Session.markClosed
  split
  · exact .refl s
  · exact (leaves_modify s k _).trans (leaves_record _ nofun)

theorem leaves_shut (failTunnel : Bool) (k : Nat) : Leaves s (s.shut failTunnel k) := by
  unfold Session.shut
  split
  · exact .refl s
  · have hclosed : Leaves s (((s.markClosed k).modify k Stream.closeChannel).cancelAwaiters k) :=
      ((leaves_markClosed s k).trans (leaves_modify _ k _)).trans
        (leaves_completeAwaiter _ k .ended)
    dsimp only
    split
    · exact hclosed.trans (leaves_modify _ k _)
    · exact hclosed

theorem leaves_deliverData (k : Nat) (data : Bytes) : Leaves s (s.deliverData k data) := by
  unfold Session.deliverData
  split
  · exact .refl s
  · exact leaves_modify s k _

theorem leaves_deliverHeaders (k : Nat) (headers : Headers) :
    Leaves s (s.deliverHeaders k headers) := by
  unfold Session.deliverHeaders
  split
  · exact leaves_modify s k _
  · exact (leaves_markClosed s k).trans (leaves_modify _ k _)

theorem leaves_applyWindowUpdate (k increment : Nat) : Leaves s (s.applyWindowUpdate k increment) :=
  (leaves_modify s k _).trans (leaves_completeAwaiter _ k .loop)

theorem leaves_adjustSendWindow (delta : Int) (k : Nat) :
    Leaves s (s.adjustSendWindow delta k) := by
  unfold Session.adjustSendWindow
  dsimp only
  split
  · exact (leaves_modify s k _).trans (leaves_completeAwaiter _ k .loop)
  · exact leaves_modify s k _

theorem leaves_handleServerSettings (payload : Bytes) : Leaves s (s.handleServerSettings payload) :=
  Session.handleServerSettings_rule .refl .trans (fun _ _ => ⟨rfl, rfl, rfl, rfl, rfl, rfl, id⟩)
    leaves_adjustSendWindow s payload

theorem leaves_connectionSendWindow (window : Int) :
    Leaves s { s with connectionSendWindow := window } :=
  ⟨rfl, rfl, rfl, rfl, rfl, rfl, id⟩

theorem leaves_applyConnectionUpdate (increment : Nat) :
    Leaves s (s.applyConnectionUpdate increment) :=
  ⟨rfl, rfl, rfl, rfl, rfl, rfl, id⟩

theorem leaves_openTunnel (k : Nat) : Leaves s (s.openTunnel k) := by
  unfold Session.openTunnel
  split
  · exact (leaves_modify s k _).trans (leaves_enqueue _ nofun)
  · exact .refl s

theorem leaves_consumeSend (k : Nat) (chunkSize : Int) : Leaves s (s.consumeSend k chunkSize) :=
  ⟨rfl, rfl, rfl, rfl, rfl, rfl, id⟩

theorem leaves_iterate (i : Nat) : Leaves s (s.iterate i) := by
  unfold Session.iterate
  dsimp only
  split
  · exact leaves_setSender s i _
  · split
    · split
      · exact leaves_setSender s i _
      · split
        · exact leaves_setSender s i _
        · split
          · exact .refl s
          · exact leaves_setSender s i _
    · exact ((leaves_consumeSend s _ _).trans (leaves_setSender _ i _)).trans
        (leaves_enqueue _ nofun)

theorem leaves_sendData (k : Nat) (data : Bytes) : Leaves s (s.sendData k data) := by
  have hcall : ∀ t : Sender, Leaves s (s.call t) := fun _ => ⟨rfl, rfl, rfl, rfl, rfl, rfl, id⟩
  unfold Session.sendData
  split
  · exact (hcall _).trans (leaves_iterate _ _)
  · exact .refl s

theorem leaves_acknowledgeConsumedData (k bytes : Nat) :
    Leaves s (s.acknowledgeConsumedData k bytes) :=
  Session.acknowledgeConsumedData_rule .refl .trans (fun _ _ => ⟨rfl, rfl, rfl, rfl, rfl, rfl, id⟩)
    (fun _ _ _ => leaves_launch _ _) (fun _ _ _ => leaves_modify _ _ _) s k bytes

theorem leaves_receiveData (k : Nat) : Leaves s (s.receiveData k) := by
  unfold Session.receiveData
  dsimp only
  split
  · exact leaves_modify s k _
  · split
    · exact (leaves_modify s k _).trans (leaves_acknowledgeConsumedData _ k _)
    · split
      · exact leaves_modify s k _
      · exact leaves_modify s k _

theorem leaves_acknowledge (k : Nat) : Leaves s (s.acknowledge k) := by
  unfold Session.acknowledge
  split
  · exact .refl s
  · exact (leaves_modify s k _).trans (leaves_acknowledgeConsumedData _ k _)

theorem leaves_shutAll (ks : List Nat) : Leaves s (ks.foldl (fun s k => s.deliverError k) s) := by
  induction ks generalizing s with
  | nil => exact .refl s
  | cons k ks ih => exact (leaves_shut s true k).trans (ih _)

end Leaves

-- ----
-- The functions that take streams off the table

theorem Retired.remove (h : Retired s) (k : Nat) : Retired (s.remove k) :=
  ⟨h.acks, h.finished, h.closed⟩

/-- A session that is shut down is closed, with its transport. -/
theorem Retired.shutdown (h : Retired s) : Draining s.shutdown := by
  unfold Session.shutdown
  split
  · rename_i hclosed
    exact ⟨h, fun _ hstate => absurd hclosed hstate⟩
  · have hshut : Draining { s with state := .closed, streams := [], transport := false } :=
      ⟨⟨h.acks, h.finished, fun _ => .inl ⟨rfl, rfl⟩⟩, fun _ hstate => absurd rfl hstate⟩
    exact ((leaves_shutAll _ s.streams).trans (leaves_completeConnectionAwaiter _ .ended)).draining
      hshut

theorem Retired.shutdownIfEmpty (h : Retired s) : Draining s.shutdownIfEmpty := by
  unfold Session.shutdownIfEmpty
  split
  · exact h.shutdown
  · rename_i hstreams
    exact ⟨h, fun _ _ => hstreams⟩

/-- `removeStream` closes a session whose last stream it is. -/
theorem Retired.removeStream (h : Retired s) (k : Nat) : Draining (s.removeStream k) := by
  unfold Session.removeStream
  split
  · exact (h.remove k).shutdownIfEmpty
  · rename_i hreceived
    refine ⟨h.remove k, fun hgoing hstate => ?_⟩
    rcases h.closed hgoing with hclosed | hopen
    · exact absurd hclosed.1 hstate
    · exact absurd hopen.2 hreceived

theorem Draining.openFails (h : Draining s) (k : Nat) : Draining (s.openFails k) :=
  (((leaves_markClosed s k).trans (leaves_modify _ k _)).retired h.toRetired).removeStream k

theorem Draining.resumeOpen (h : Draining s) (k : Nat) : Draining (s.resumeOpen k) := by
  unfold Session.resumeOpen
  split
  · split
    · exact h
    · exact (leaves_modify s k _).draining h
    · exact h.openFails k
  · exact h

theorem Draining.close (h : Draining s) (k : Nat) : Draining (s.close k) := by
  unfold Session.close
  split
  · exact h
  · dsimp only
    split
    · exact (((leaves_shut s false k).trans (leaves_launch _ _)).retired h.toRetired).removeStream k
    · exact ((leaves_shut s false k).retired h.toRetired).removeStream k

theorem retired_goawayAll (h : Retired s) (ks : List Nat) : Retired (goawayAll ks s) := by
  induction ks generalizing s with
  | nil => exact h
  | cons k ks ih => exact ih (((leaves_shut s true k).retired h).remove k)

/-- END_STREAM and RST_STREAM leave a stream in the table. -/
theorem Draining.ended (h : Draining s) {k : Nat} (hleaves : Leaves s t)
    (hlast : s.goawayReceived = true → (s.remove k).streams ≠ []) : Draining (t.remove k) := by
  refine ⟨(hleaves.retired h.toRetired).remove k, fun hgoing hstate => ?_⟩
  have hsame : (t.remove k).streams = (s.remove k).streams := by
    unfold Session.remove
    dsimp only
    rw [hleaves.streams]
  rw [hsame]
  rcases h.closed (hleaves.going hgoing) with hclosed | hopen
  · exact absurd (hleaves.state.trans hclosed.1) hstate
  · exact hlast hopen.2

-- ----
-- The read loop

variable {f : Http2Frame}

theorem leaves_received (s : Session) {type : Http2FrameType} (htype : f.type = type)
    (h : type ≠ .goaway) :
    Leaves s (s.record (.received f)) :=
  leaves_record s fun _ heq => Record.received.inj heq ▸ htype ▸ h

/-- **A frame leaves the session with a stream, or closed.** -/
theorem Draining.routeFrame (h : Draining s) (hreads : s.Reads)
    {decoded : Option Headers}
    (hends : s.goawayReceived = true → f.Ends → ∀ k, s.lookup f.streamID = some k →
      (s.remove k).streams ≠ []) :
    Draining ((s.record (.received f)).routeFrame f decoded) := by
  unfold Session.routeFrame
  rcases htype : f.type <;> dsimp only
  · -- DATA
    have hrecord := leaves_received s htype (by decide)
    split
    · exact hrecord.draining h
    · rename_i hid
      split
      · exact hrecord.draining h
      · rename_i k hk
        have hdelivered : Leaves s (if f.payload ≠ [] then
            (s.record (.received f)).deliverData k f.payload else s.record (.received f)) := by
          split
          · exact hrecord.trans (leaves_deliverData _ k _)
          · exact hrecord
        split
        · rename_i hend
          exact h.ended (hdelivered.trans (leaves_shut _ false k))
            fun hreceived => hends hreceived ⟨hid, .inl ⟨htype, hend⟩⟩ k hk
        · exact hdelivered.draining h
  · -- HEADERS
    have hrecord := leaves_received s htype (by decide)
    split
    · exact hrecord.draining h
    · split
      · exact hrecord.draining h
      · split
        · exact (hrecord.trans (leaves_deliverHeaders _ _ _)).draining h
        · exact (hrecord.trans (leaves_shut _ true _)).draining h
  · -- RST_STREAM
    have hrecord := leaves_received s htype (by decide)
    split
    · exact hrecord.draining h
    · rename_i hid
      split
      · exact hrecord.draining h
      · rename_i k hk
        exact h.ended (hrecord.trans (leaves_shut _ true k))
          fun hreceived => hends hreceived ⟨hid, .inr htype⟩ k hk
  · -- SETTINGS
    have hrecord := leaves_received s htype (by decide)
    split
    · exact hrecord.draining h
    · exact ((hrecord.trans (leaves_handleServerSettings _ _)).trans (leaves_launch _ _)).draining h
  · -- PING
    have hrecord := leaves_received s htype (by decide)
    split
    · exact hrecord.draining h
    · exact (hrecord.trans (leaves_launch _ _)).draining h
  · -- GOAWAY
    have hgoing : Retired { s.record (.received f) with goawayReceived := true } := by
      refine ⟨h.acks, fun _ => hreads.1, fun _ => .inr ⟨?_, rfl⟩⟩
      show s.state ≠ .closed
      rw [hreads.2.1]
      exact nofun
    split
    · exact hgoing.shutdownIfEmpty
    · exact (retired_goawayAll hgoing _).shutdownIfEmpty
  · -- WINDOW_UPDATE
    have hrecord := leaves_received s htype (by decide)
    split
    · exact hrecord.draining h
    · split
      · exact (hrecord.trans (leaves_applyConnectionUpdate _ _)).draining h
      · split
        · exact hrecord.draining h
        · exact (hrecord.trans (leaves_applyWindowUpdate _ _ _)).draining h

/-- The acknowledgement of the settings goes to the write lock. -/
theorem draining_acking (hacking : s.handshake = .acking) (hacks : s.acks = 0)
    (hgoing : ¬ s.Going) :
    Draining (s.enqueue ⟨.settingsAck, .handshake⟩) := by
  refine draining_of_not_going ?_ hgoing
  rw [acks_enqueue, hacks]
  exact (if_pos hacking).symm

theorem Draining.processHandshake (h : Draining s) (hreading : s.handshake = .reading)
    (htransport : f.type = .goaway → s.transport = false) :
    Draining ((s.record (.received f)).processHandshake f) := by
  have hacks : s.acks = 0 := by
    rw [h.acks, hreading]
    rfl
  have hgoing : ¬ s.Going := h.not_going (by rw [hreading]; exact nofun)
  unfold Session.processHandshake
  rcases htype : f.type <;> dsimp only
  · exact (leaves_received s htype (by decide)).draining h
  · exact (leaves_received s htype (by decide)).draining h
  · exact (leaves_received s htype (by decide)).draining h
  · -- SETTINGS
    have hrecord := leaves_received s htype (by decide)
    split
    · exact hrecord.draining h
    · have hsettings :=
        leaves_handleServerSettings { s.record (.received f) with handshake := .acking } f.payload
      exact draining_acking hsettings.handshake (hsettings.acks.trans hacks)
        fun hgoing' => hgoing (hrecord.going (hsettings.going hgoing'))
  · -- PING
    have hrecord := leaves_received s htype (by decide)
    split
    · exact hrecord.draining h
    · exact (hrecord.trans (@leaves_enqueue _ ⟨.pingAck f.payload, .launched⟩ nofun)).draining h
  · -- GOAWAY
    refine ⟨⟨hacks, fun _ => rfl, fun _ => .inl ⟨rfl, htransport htype⟩⟩,
      fun _ hstate => absurd rfl hstate⟩
  · -- WINDOW_UPDATE
    have hrecord := leaves_received s htype (by decide)
    split
    · exact hrecord.draining h
    · split
      · exact (hrecord.trans (leaves_connectionSendWindow _ _)).draining h
      · exact hrecord.draining h

-- ----
-- The write lock

variable {rest : List Write} {w : Write}

theorem Draining.handshakeReturns (h : Draining s)
    (hqueue : s.writeQueue = w :: rest) (howner : w.owner = .handshake) {r : Record}
    (hr : ∀ f : Http2Frame, r = .received f → f.type ≠ .goaway) :
    Draining ({ s with writeQueue := rest }.record r).handshakeReturns := by
  have hacks := h.acks
  unfold Session.acks at hacks
  rw [hqueue, countP_cons_of_pos (by simpa using howner)] at hacks
  have hacking : s.handshake = .acking := by
    by_contra hnot
    rw [if_neg hnot] at hacks
    omega
  rw [if_pos hacking] at hacks
  refine draining_of_not_going ?_ ?_
  · show rest.countP _ = 0
    omega
  · intro hgoing
    have hover := h.finished ((leaves_record s hr).going hgoing)
    cases hover.symm.trans hacking

/-- The frame at the head of the write lock is no more there. -/
theorem leaves_pop {s : Session} {w : Write} {rest : List Write} (hqueue : s.writeQueue = w :: rest)
    (howner : w.owner ≠ .handshake) {r : Record} (hr : ∀ f : Http2Frame, r = .received f →
      f.type ≠ .goaway) :
    Leaves s ({ s with writeQueue := rest }.record r) := by
  have hacks : Session.acks { s with writeQueue := rest } = s.acks := by
    unfold Session.acks
    rw [hqueue, countP_cons_of_neg (by simpa using howner)]
  exact @Leaves.trans s { s with writeQueue := rest } _ ⟨rfl, rfl, rfl, rfl, rfl, hacks, id⟩
    (leaves_record _ hr)

theorem Draining.written (h : Draining s)
    (hqueue : s.writeQueue = w :: rest) : Draining ({ s with writeQueue := rest }.written w) := by
  unfold Session.written
  dsimp only
  obtain ⟨frame, owner⟩ := w
  by_cases howner : owner = .handshake
  · subst howner
    exact h.handshakeReturns hqueue rfl nofun
  · have hpop := @leaves_pop s _ _ hqueue howner (.sent frame) nofun
    split
    · rename_i hmatch
      exact absurd hmatch howner
    · exact (hpop.trans (leaves_modify _ _ _)).draining h
    · exact (hpop.trans (leaves_setSender _ _ _)).draining h
    · exact hpop.draining h

theorem Draining.writeFails (h : Draining s)
    (hqueue : s.writeQueue = w :: rest) :
    Draining ({ s with writeQueue := rest }.writeFails w) := by
  unfold Session.writeFails
  dsimp only
  obtain ⟨frame, owner⟩ := w
  by_cases howner : owner = .handshake
  · subst howner
    exact h.handshakeReturns hqueue rfl nofun
  · have hpop := @leaves_pop s _ _ hqueue howner (.lost frame) nofun
    split
    · rename_i hmatch
      exact absurd hmatch howner
    · exact (hpop.draining h).openFails _
    · exact (hpop.trans (leaves_setSender _ _ _)).draining h
    · exact hpop.draining h

-- ----
-- The machine

theorem Draining.newStream (h : Draining s) (hstate : s.state = .ready)
    (hreceived : s.goawayReceived = false) : Draining s.newStream := by
  refine draining_of_not_going h.acks fun hgoing => h.not_going_of_ready hstate hreceived ?_
  exact (@leaves_record s (.acquired s.acquired) nofun).going hgoing

/-- **A step keeps the invariant.** -/
theorem draining_step {e : Event}
    (hretires : ∀ f decoded, e = .frame f decoded →
      (s.handshake = .reading → f.type = .goaway → s.transport = false) ∧
        (s.Reads → s.goawayReceived = true → f.Ends →
          ∀ k, s.lookup f.streamID = some k → (s.remove k).streams ≠ []))
    (h : Draining s) : Draining (step s e) := by
  rcases e with _ | _ | _ | k | ⟨k, data⟩ | k | k | _ | k | i | k | j | accepted |
    ⟨f, decoded⟩ | _ <;>
    dsimp only [step]
  · split
    · rename_i hidle
      refine draining_of_not_going ?_ (h.not_going (by rw [hidle.2]; exact nofun))
      show s.acks = 0
      rw [h.acks, hidle.2]
      rfl
    · exact h
  · split
    · rename_i hready
      exact h.newStream hready.1 hready.2
    · exact h
  · split
    · rename_i hready
      exact h.newStream hready.1 hready.2.1
    · exact h
  · split
    · exact (leaves_openTunnel s k).draining h
    · exact h
  · split
    · exact (leaves_sendData s k data).draining h
    · exact h
  · split
    · exact (leaves_receiveData s k).draining h
    · exact h
  · split
    · exact h.close k
    · exact h
  · exact h.toRetired.shutdown
  · exact h.resumeOpen k
  · split
    · exact (leaves_iterate s i).draining h
    · exact h
  · exact (leaves_acknowledge s k).draining h
  · split
    · exact h
    · rename_i f hf
      have hlaunched : Leaves s { s with launched := s.launched.eraseIdx j } :=
        ⟨rfl, rfl, rfl, rfl, rfl, rfl, id⟩
      exact (hlaunched.trans (@leaves_enqueue _ ⟨f, .launched⟩ nofun)).draining h
  · split
    · exact h
    · rename_i w rest hqueue
      split
      · exact h.written hqueue
      · exact h.writeFails hqueue
  · obtain ⟨hgoaway, hends⟩ := hretires f decoded rfl
    split
    · rename_i hreading
      exact h.processHandshake hreading (hgoaway hreading)
    · rename_i hover
      split
      · rename_i hready
        exact h.routeFrame ⟨hover, hready⟩ (hends ⟨hover, hready⟩)
      · exact h
    · exact h
  · split
    · rename_i hreading
      refine draining_of_not_going ?_ (h.not_going (by rw [hreading]; exact nofun))
      show s.acks = 0
      rw [h.acks, hreading]
      rfl
    · split
      · exact h.toRetired.shutdown
      · exact h
    · exact h

theorem draining_start : Draining {} := by
  refine draining_of_not_going rfl ?_
  rintro (hreceived | ⟨f, -, hmem⟩)
  · cases hreceived
  · exact absurd hmem not_mem_nil

/-- The invariant of the session, and an entry only as long as it is not closed. -/
structure Pooled (p : PooledSession) : Prop where
  draining : Draining p.session
  entry : p.pooled = true → p.onClose = true ∧ p.session.state ≠ .closed

theorem pooled_step {p : PooledSession} {e : PoolEvent} (hretires : Retires p e) (h : Pooled p) :
    Pooled (stepPool p e) := by
  rcases e with e | _ | _ <;> dsimp only [stepPool]
  · refine ⟨draining_step (by rintro f decoded rfl; exact hretires) h.draining, fun hentry => ?_⟩
    dsimp only at hentry ⊢
    rw [Bool.and_eq_true] at hentry
    obtain ⟨hset, hopen⟩ := h.entry hentry.1
    refine ⟨hset, fun hclosed => ?_⟩
    rw [hset, Bool.and_true, decide_eq_true ⟨hclosed, hopen⟩] at hentry
    cases hentry.2
  · refine ⟨h.draining, fun hentry => ?_⟩
    rw [Bool.and_eq_true] at hentry
    exact h.entry hentry.1
  · split
    · exact ⟨h.draining.toRetired.shutdown, nofun⟩
    · exact h

theorem Pooled.drained {p : PooledSession} (h : Pooled p) : Drained p := by
  intro hgone hnone
  rcases h.draining.closed (.inr hgone) with hclosed | hopen
  · refine ⟨hclosed.1, hclosed.2, ?_⟩
    by_contra hentry
    exact (h.entry (Bool.not_eq_false _ ▸ hentry)).2 hclosed.1
  · exact absurd hnone (h.draining.streams (.inr hgone) hopen.1)

/-- **Behind GOAWAY a session closes with its last stream**, whether it is in the pool or not. -/
theorem goaway_drains (pooled : Bool) {es : List PoolEvent}
    (h : RunAll stepPool Retires ⟨{}, pooled, pooled⟩ es) :
    Drained (run stepPool ⟨{}, pooled, pooled⟩ es) := by
  have hstart : Pooled ⟨{}, pooled, pooled⟩ := ⟨draining_start, fun hentry => ⟨hentry, nofun⟩⟩
  exact (run_invariant_of (fun _ _ => pooled_step) h hstart).drained

/-- GOAWAY that leaves the first stream as it is. -/
def goaway : Event := .frame ⟨.goaway, 0, 0, [0, 0, 0, 1, 0, 0, 0, 0]⟩ none

/-- The first stream is open, and GOAWAY comes; then another event. -/
def goingAway (e : Event) : List PoolEvent := (opening ++ [response, goaway, e]).map .session

theorem goaway_drains_close : Drained (run stepPool ⟨{}, true, true⟩ (goingAway (.close 0))) := by
  have hframe : ∀ (p : PooledSession) (f : Http2Frame) (decoded : Option Headers),
      (p.session.handshake = .reading → f.type ≠ .goaway) → ¬ f.Ends →
        Retires p (.session (.frame f decoded)) :=
    fun p f decoded hgoaway hends =>
      ⟨fun hreading htype => absurd htype (hgoaway hreading), fun _ _ h => absurd h hends⟩
  refine goaway_drains true ⟨trivial, hframe _ _ _ (fun _ => nofun) ?_, trivial, trivial,
    trivial, trivial, hframe _ _ _ (fun _ => nofun) ?_, hframe _ _ _ (fun hreading => ?_) ?_,
    trivial, trivial⟩
  · exact fun h => h.1 rfl
  · exact fun h => h.2.elim (fun h => nomatch h.1) nofun
  · exact absurd hreading (by decide)
  · exact fun h => h.1 rfl

/-- END_STREAM on the last stream, behind GOAWAY: the table is empty and the session is not closed.
And GOAWAY during the handshake: the session is closed and its transport is there. -/
theorem goaway_does_not_drain :
    ¬ Drained (run stepPool ⟨{}, true, true⟩ (goingAway (.frame ⟨.data, 1, 1, []⟩ none))) ∧
      ¬ Drained (run stepPool ⟨{}, true, true⟩ ([.ensureReady, goaway].map .session)) := by
  constructor
  · intro h
    have hstate := (h ⟨⟨.goaway, 0, 0, [0, 0, 0, 1, 0, 0, 0, 0]⟩, rfl, by decide⟩ (by decide)).1
    exact absurd hstate (by decide)
  · intro h
    have htransport :=
      (h ⟨⟨.goaway, 0, 0, [0, 0, 0, 1, 0, 0, 0, 0]⟩, rfl, by decide⟩ (by decide)).2.1
    exact absurd htransport (by decide)

end Anywhere.Naive
