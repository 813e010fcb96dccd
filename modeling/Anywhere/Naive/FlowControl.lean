import Mathlib.Data.List.Nodup
import Anywhere.Naive.Downlink
import Anywhere.Naive.Waiters

/-!
# Anywhere — the flow control of `sendData`

What the server has granted is read off the history: the initial window, the increments
of the connection and of each stream. Bytes are taken off the windows before their frame
goes to the write lock, so a window is what has been granted less the bytes written, those
at the lock and those of writes that failed. A stream out of the table keeps what it had
been granted.

* `credit`, `Session.taken` — both sides of the account.
* `Fair` — the server lets no window grow above `2 ^ 31 - 1`.
* `Accounted` — the windows are the balance.
* `flow_controlled` — runs.
-/

namespace Anywhere.Naive

open Lib Session List

-- ----
-- The account

/-- The bytes of a frame that count for the window of the connection, or of a stream. -/
def ClientFrame.bytesOn : Option Nat → ClientFrame → Nat
  | none, .data _ payload => payload.length
  | some k, .data j payload => if j = k then payload.length else 0
  | _, _ => 0

def sentBytes (scope : Option Nat) (history : List Record) : Nat :=
  (history.map fun r => match r with | .sent f => f.bytesOn scope | _ => 0).sum

def lostBytes (scope : Option Nat) (history : List Record) : Nat :=
  (history.map fun r => match r with | .lost f => f.bytesOn scope | _ => 0).sum

def scopeID : Option Nat → Int
  | none => 0
  | some k => streamID k

def addIncrement (scope : Option Nat) (total : Nat) : Record → Nat
  | .acquired k => if scope = some k then 0 else total
  | .received f =>
    if f.type = .windowUpdate ∧ (f.streamID : Int) = scopeID scope then
      total + (parseWindowUpdate f.payload).getD 0
    else total
  | _ => total

/-- The increments received for the connection, or for a stream since it was acquired. -/
def increments (scope : Option Nat) (history : List Record) : Nat :=
  history.foldl (addIncrement scope) 0

def applySettings (initial : Int) (settings : List (Nat × Int)) : Int :=
  settings.foldl (fun initial setting => if setting.1 = 0x4 then setting.2 else initial) initial

def applyRecord (initial : Int) : Record → Int
  | .received f =>
    if f.type = .settings ∧ f.hasFlag ackFlag = false then
      applySettings initial (parseSettings f.payload)
    else initial
  | _ => initial

def initialWindow (history : List Record) : Int :=
  history.foldl applyRecord defaultInitialWindowSize

/-- What the server has granted the connection, or a stream. -/
def credit (scope : Option Nat) (history : List Record) : Int :=
  (match scope with
    | none => defaultInitialWindowSize
    | some _ => initialWindow history) + increments scope history

namespace Session

def window (s : Session) : Option Nat → Int
  | none => s.connectionSendWindow
  | some k => (s.stream k).sendWindow

def waitingBytes (s : Session) (scope : Option Nat) : Nat :=
  (s.writeQueue.map fun w => w.frame.bytesOn scope).sum

/-- The bytes written, at the write lock or lost in a write that failed. -/
def taken (s : Session) (scope : Option Nat) : Nat :=
  sentBytes scope s.history + lostBytes scope s.history + s.waitingBytes scope

/-- The connection, and the streams in the table. -/
def Live (s : Session) : Option Nat → Prop
  | none => True
  | some k => k ∈ s.streams

end Session

/-- The server keeps the windows within 31 bits. It knows of the bytes written at most. An
initial window above `2 ^ 31 - 1` is a negative `Int`. -/
def Legal (s : Session) : Prop :=
  0 ≤ initialWindow s.history ∧
  credit none s.history - sentBytes none s.history < 2 ^ 31 ∧
  ∀ k ∈ s.streams, credit (some k) s.history - sentBytes (some k) s.history < 2 ^ 31

/-- The frames of such a server. -/
def Fair (s : Session) : Event → Prop
  | .frame f decoded => Legal (step s (.frame f decoded))
  | _ => True

instance (s : Session) : Decidable (Legal s) := inferInstanceAs (Decidable (_ ∧ _ ∧ _))

instance (s : Session) : (e : Event) → Decidable (Fair s e)
  | .frame f decoded => inferInstanceAs (Decidable (Legal (step s (.frame f decoded))))
  | .ensureReady | .acquireStream | .tryReserveStream | .openTunnel _ | .sendData _ _
  | .receiveData _ | .close _ | .closeSession | .resumeOpen _ | .resumeSend _ | .acknowledge _
  | .dispatch _ | .write _ | .readError => inferInstanceAs (Decidable True)

/-- The session, and what each stream had been granted when it was last in the table. -/
structure Audit where
  session : Session := {}
  granted : Nat → Int := fun _ => 0

def audit (a : Audit) (e : Event) : Audit where
  session := step a.session e
  granted := fun k =>
    if k ∈ (step a.session e).streams then credit (some k) (step a.session e).history
    else a.granted k

/-- What a stream had been granted by the end of a run, or when it left the table. -/
def granted (k : Nat) (events : List Event) : Int := (run audit {} events).granted k

/-- A frame of DATA has 1 to 16384 bytes. -/
def Sized (f : ClientFrame) : Prop :=
  ∀ k payload, f = .data k payload → 1 ≤ payload.length ∧ payload.length ≤ 16384

structure FlowControlled (events : List Event) : Prop where
  connection : sentBytes none (run step {} events).history ≤
    65535 + increments none (run step {} events).history
  connectionWindow : (run step {} events).connectionSendWindow =
    65535 + increments none (run step {} events).history - (run step {} events).taken none
  stream : ∀ before e after, events = before ++ e :: after → ∀ k,
    (run step {} before).taken (some k) < (run step {} (before ++ [e])).taken (some k) →
      (run step {} (before ++ [e])).taken (some k) ≤ granted k (before ++ [e])
  streamWindow : ∀ k < (run step {} events).acquired, ((run step {} events).stream k).sendWindow =
    granted k events - (run step {} events).taken (some k)
  inTable : ∀ k ∈ (run step {} events).streams, granted k events =
    initialWindow (run step {} events).history + increments (some k) (run step {} events).history
  sized : ∀ f, .sent f ∈ (run step {} events).history → Sized f

-- ----
-- Histories

def Plain (f : ClientFrame) : Prop := ∀ k payload, f ≠ .data k payload

theorem Plain.bytesOn {f : ClientFrame} (h : Plain f) (scope : Option Nat) :
    f.bytesOn scope = 0 := by
  unfold ClientFrame.bytesOn
  split
  · exact absurd rfl (h _ _)
  · exact absurd rfl (h _ _)
  · rfl

theorem Plain.sized {f : ClientFrame} (h : Plain f) :
    Sized f := fun k payload heq => absurd heq (h k payload)

theorem sentBytes_append (scope : Option Nat) (history : List Record) (r : Record) :
    sentBytes scope (history ++ [r]) =
      sentBytes scope history + match r with | .sent f => f.bytesOn scope | _ => 0 := by
  simp [sentBytes]

theorem lostBytes_append (scope : Option Nat) (history : List Record) (r : Record) :
    lostBytes scope (history ++ [r]) =
      lostBytes scope history + match r with | .lost f => f.bytesOn scope | _ => 0 := by
  simp [lostBytes]

theorem increments_append (scope : Option Nat) (history : List Record) (r : Record) :
    increments scope (history ++ [r]) = addIncrement scope (increments scope history) r := by
  simp [increments]

theorem initialWindow_append (history : List Record) (r : Record) :
    initialWindow (history ++ [r]) = applyRecord (initialWindow history) r := by
  simp [initialWindow]

theorem credit_some (k : Nat) (history : List Record) :
    credit (some k) history = initialWindow history + increments (some k) history := rfl

-- ----
-- What is left alone

/-- Frames of DATA have their size, at the write lock and on the wire. -/
def Session.Sized (s : Session) : Prop :=
  (∀ w ∈ s.writeQueue, Naive.Sized w.frame) ∧ ∀ f, .sent f ∈ s.history → Naive.Sized f

/-- Nothing is taken off the windows. -/
structure Aside (s t : Session) : Prop where
  acquired : t.acquired = s.acquired
  streams : t.streams.Sublist s.streams
  handshake : s.handshake = .over → t.handshake = .over
  ready : t.state = .ready → t.handshake = .over ∨ s.state = .ready
  senders : ∀ i, (t.senders i).stream = (s.senders i).stream ∧
    ((t.senders i).rest ≠ [] → (s.senders i).rest ≠ [])
  launched : ∀ f ∈ t.launched, f ∈ s.launched ∨ Plain f
  sized : s.Sized → t.Sized
  taken : ∀ scope, t.taken scope = s.taken scope

structure Still (s t : Session) : Prop extends Aside s t where
  initial : t.serverInitialWindowSize = s.serverInitialWindowSize
  window : ∀ scope, t.window scope = s.window scope
  initialWindow : initialWindow t.history = Naive.initialWindow s.history
  increments : ∀ scope, increments scope t.history = Naive.increments scope s.history

theorem Aside.refl (s : Session) : Aside s s :=
  ⟨rfl, List.Sublist.refl _, id, .inr, fun _ => ⟨rfl, id⟩, fun _ => .inl, id, fun _ => rfl⟩

theorem Aside.trans {s t u : Session} (h : Aside s t) (h' : Aside t u) : Aside s u where
  acquired := h'.acquired.trans h.acquired
  streams := h'.streams.trans h.streams
  handshake := h'.handshake ∘ h.handshake
  ready := fun hready => by
    rcases h'.ready hready with hover | hready'
    · exact .inl hover
    · rcases h.ready hready' with hover | hready''
      · exact .inl (h'.handshake hover)
      · exact .inr hready''
  senders := fun i => ⟨(h'.senders i).1.trans (h.senders i).1, (h.senders i).2 ∘ (h'.senders i).2⟩
  launched := fun f hf => by
    rcases h'.launched f hf with hf | hplain
    · exact h.launched f hf
    · exact .inr hplain
  sized := h'.sized ∘ h.sized
  taken := fun scope => (h'.taken scope).trans (h.taken scope)

theorem Still.refl (s : Session) : Still s s := ⟨Aside.refl s, rfl, fun _ => rfl, rfl, fun _ => rfl⟩

theorem Still.trans {s t u : Session} (h : Still s t) (h' : Still t u) : Still s u where
  toAside := h.toAside.trans h'.toAside
  initial := h'.initial.trans h.initial
  window := fun scope => (h'.window scope).trans (h.window scope)
  initialWindow := h'.initialWindow.trans h.initialWindow
  increments := fun scope => (h'.increments scope).trans (h.increments scope)

variable {s t : Session}

theorem Still.credit (h : Still s t) (scope : Option Nat) :
    credit scope t.history = Naive.credit scope s.history := by
  unfold Naive.credit
  rw [h.initialWindow, h.increments]

-- ----
-- The functions that leave the windows alone

theorem aside_modify (s : Session) (k : Nat) (f : Stream → Stream) : Aside s (s.modify k f) :=
  ⟨rfl, List.Sublist.refl _, id, .inr, fun _ => ⟨rfl, id⟩, fun _ => .inl, id, fun _ => rfl⟩

variable {k : Nat}

theorem still_modify (s : Session) {f : Stream → Stream}
    (h : (f (s.stream k)).sendWindow = (s.stream k).sendWindow) : Still s (s.modify k f) := by
  refine ⟨aside_modify s k f, rfl, fun scope => ?_, rfl, fun _ => rfl⟩
  rcases scope with _ | j
  · rfl
  · show (Function.update s.stream k (f (s.stream k)) j).sendWindow = (s.stream j).sendWindow
    by_cases hj : j = k
    · rw [hj, Function.update_self, h]
    · rw [Function.update_of_ne hj]

/-- Only the calls of `sendData` change, and they have no more to send. -/
theorem still_senders (h : t = { s with senders := t.senders })
    (hsenders : ∀ i, (t.senders i).stream = (s.senders i).stream ∧
      ((t.senders i).rest ≠ [] → (s.senders i).rest ≠ [])) : Still s t := by
  refine ⟨⟨?_, ?_, ?_, ?_, hsenders, ?_, ?_, ?_⟩, ?_, ?_, ?_, ?_⟩ <;> rw [h]
  · exact id
  · exact .inr
  · exact fun _ => .inl
  · exact id
  · exact fun _ => rfl
  · exact fun scope => by rcases scope <;> rfl
  · exact fun _ => rfl

theorem still_completeAwaiter (s : Session) (k : Nat) (point : SendPoint) :
    Still s (s.completeAwaiter k point) := by
  refine still_senders rfl fun i => ?_
  show (if _ then _ else _ : Sender).stream = _ ∧ ((if _ then _ else _ : Sender).rest ≠ [] → _)
  split
  · exact ⟨rfl, id⟩
  · exact ⟨rfl, id⟩

theorem still_completeConnectionAwaiter (s : Session) (point : SendPoint) :
    Still s (s.completeConnectionAwaiter point) := by
  refine still_senders rfl fun i => ?_
  show (if _ then _ else _ : Sender).stream = _ ∧ ((if _ then _ else _ : Sender).rest ≠ [] → _)
  split
  · exact ⟨rfl, id⟩
  · exact ⟨rfl, id⟩

theorem still_setSender (s : Session) (i : Nat) {t : Sender}
    (hstream : t.stream = (s.senders i).stream) (hrest : t.rest ≠ [] → (s.senders i).rest ≠ []) :
    Still s (s.setSender i t) := by
  refine still_senders rfl fun j => ?_
  show (Function.update s.senders i t j).stream = _ ∧
    ((Function.update s.senders i t j).rest ≠ [] → _)
  by_cases hj : j = i
  · rw [hj, Function.update_self]
    exact ⟨hstream, hrest⟩
  · rw [Function.update_of_ne hj]
    exact ⟨rfl, id⟩

theorem still_launch (s : Session) {f : ClientFrame} (h : Plain f) : Still s (s.launch f) := by
  refine ⟨⟨rfl, List.Sublist.refl _, id, .inr, fun _ => ⟨rfl, id⟩, fun g hg => ?_, id,
    fun _ => rfl⟩, rfl, fun scope => by rcases scope <;> rfl, rfl, fun _ => rfl⟩
  rcases mem_append.1 hg with hg | hg
  · exact .inl hg
  · rw [mem_singleton.1 hg]
    exact .inr h

theorem waitingBytes_enqueue (s : Session) (w : Write) (scope : Option Nat) :
    (s.enqueue w).waitingBytes scope = s.waitingBytes scope + w.frame.bytesOn scope := by
  simp [waitingBytes, enqueue]

variable {w : Write}

theorem sized_enqueue (hw : Naive.Sized w.frame) (h : s.Sized) :
    (s.enqueue w).Sized := by
  refine ⟨fun v hv => ?_, h.2⟩
  rcases mem_append.1 hv with hv | hv
  · exact h.1 v hv
  · rw [mem_singleton.1 hv]
    exact hw

theorem still_enqueue (s : Session) (h : Plain w.frame) : Still s (s.enqueue w) := by
  refine ⟨⟨rfl, List.Sublist.refl _, id, .inr, fun _ => ⟨rfl, id⟩, fun _ => .inl,
    sized_enqueue h.sized, fun scope => ?_⟩, rfl, fun scope => by rcases scope <;> rfl, rfl,
    fun _ => rfl⟩
  unfold taken
  rw [waitingBytes_enqueue, h.bytesOn]
  rfl

/-- A record of neither a write nor a frame of the server. -/
theorem still_closed (s : Session) (k : Nat) : Still s (s.record (.closed k)) := by
  refine ⟨⟨rfl, List.Sublist.refl _, id, .inr, fun _ => ⟨rfl, id⟩, fun _ => .inl, fun hsized => ?_,
    fun scope => ?_⟩, rfl, fun scope => by rcases scope <;> rfl, initialWindow_append _ _,
    fun scope => increments_append _ _ _⟩
  · refine ⟨hsized.1, fun f hf => ?_⟩
    rcases mem_append.1 hf with hf | hf
    · exact hsized.2 f hf
    · cases mem_singleton.1 hf
  · unfold taken
    show sentBytes scope (s.history ++ [Record.closed k]) + lostBytes scope
      (s.history ++ [Record.closed k]) + _ = _
    rw [sentBytes_append, lostBytes_append]
    rfl

theorem still_markClosed (s : Session) (k : Nat) : Still s (s.markClosed k) := by
  unfold markClosed
  split
  · exact .refl s
  · exact (still_modify s rfl).trans (still_closed _ k)

theorem still_shut (s : Session) (failTunnel : Bool) (k : Nat) : Still s (s.shut failTunnel k) := by
  have hclosed : Still s (((s.markClosed k).modify k Stream.closeChannel).cancelAwaiters k) :=
    ((still_markClosed s k).trans (still_modify _ rfl)).trans (still_completeAwaiter _ k .ended)
  unfold shut
  split
  · exact .refl s
  · dsimp only
    split
    · exact hclosed.trans (still_modify _ rfl)
    · exact hclosed

theorem still_remove (s : Session) (k : Nat) : Still s (s.remove k) :=
  ⟨⟨rfl, filter_sublist, id, .inr, fun _ => ⟨rfl, id⟩, fun _ => .inl, id, fun _ => rfl⟩, rfl,
    fun scope => by rcases scope <;> rfl, rfl, fun _ => rfl⟩

theorem still_shutAll (s : Session) (ks : List Nat) :
    Still s (ks.foldl (fun s k => s.deliverError k) s) := by
  induction ks generalizing s with
  | nil => exact .refl s
  | cons k ks ih => exact (still_shut s true k).trans (ih _)

theorem still_shutdown (s : Session) : Still s s.shutdown := by
  have hclosed : Still s { s with state := .closed, streams := [], transport := false } :=
    ⟨⟨rfl, nil_sublist _, id, (fun hready => by cases hready), fun _ => ⟨rfl, id⟩,
      fun _ => .inl, id, fun _ => rfl⟩, rfl, fun scope => by rcases scope <;> rfl, rfl,
      fun _ => rfl⟩
  unfold shutdown
  split
  · exact .refl s
  · exact (hclosed.trans (still_shutAll _ s.streams)).trans
      (still_completeConnectionAwaiter _ .ended)

theorem still_shutdownIfEmpty (s : Session) : Still s s.shutdownIfEmpty := by
  unfold shutdownIfEmpty
  split
  · exact still_shutdown s
  · exact .refl s

theorem still_removeStream (s : Session) (k : Nat) : Still s (s.removeStream k) := by
  unfold removeStream
  split
  · exact (still_remove s k).trans (still_shutdownIfEmpty _)
  · exact still_remove s k

theorem still_openFails (s : Session) (k : Nat) : Still s (s.openFails k) :=
  ((still_markClosed s k).trans (still_modify _ rfl)).trans (still_removeStream _ k)

theorem still_openTunnel (s : Session) (k : Nat) : Still s (s.openTunnel k) := by
  unfold Session.openTunnel
  split
  · exact (still_modify s rfl).trans (still_enqueue _ fun _ _ heq => by cases heq)
  · exact .refl s

theorem still_resumeOpen (s : Session) (k : Nat) : Still s (s.resumeOpen k) := by
  unfold Session.resumeOpen
  split
  · split
    · exact .refl s
    · exact still_modify s rfl
    · exact still_openFails s k
  · exact .refl s

theorem still_close (s : Session) (k : Nat) : Still s (s.close k) := by
  unfold Session.close
  split
  · exact .refl s
  · dsimp only
    split
    · exact ((still_shut s false k).trans (still_launch _ fun _ _ heq => by cases heq)).trans
        (still_removeStream _ k)
    · exact (still_shut s false k).trans (still_removeStream _ k)

theorem still_consumed (s : Session) (consumed : Nat) :
    Still s { s with connectionRecvConsumed := consumed } :=
  ⟨⟨rfl, List.Sublist.refl _, id, .inr, fun _ => ⟨rfl, id⟩, fun _ => .inl, id, fun _ => rfl⟩, rfl,
    fun scope => by rcases scope <;> rfl, rfl, fun _ => rfl⟩

theorem still_acknowledgeConsumedData (s : Session) (k bytes : Nat) :
    Still s (s.acknowledgeConsumedData k bytes) := by
  have hplain : ∀ scope increment, Plain (.windowUpdate scope increment) :=
    fun _ _ _ _ heq => by cases heq
  exact Session.acknowledgeConsumedData_rule .refl .trans still_consumed
    (fun _ _ _ => still_launch _ (hplain _ _))
    (fun _ _ _ => still_modify _ rfl) s k bytes

theorem still_receiveData (s : Session) (k : Nat) : Still s (s.receiveData k) := by
  unfold Session.receiveData
  dsimp only
  split
  · exact still_modify s rfl
  · split
    · exact (still_modify s rfl).trans (still_acknowledgeConsumedData _ k _)
    · split
      · exact still_modify s rfl
      · exact still_modify s rfl

theorem still_acknowledge (s : Session) (k : Nat) : Still s (s.acknowledge k) := by
  unfold Session.acknowledge
  split
  · exact .refl s
  · exact (still_modify s rfl).trans (still_acknowledgeConsumedData _ k _)

theorem still_deliverData (s : Session) (k : Nat) (data : Bytes) :
    Still s (s.deliverData k data) := by
  unfold deliverData
  split
  · exact .refl s
  · refine still_modify s ?_
    unfold Stream.trySend
    split
    · rfl
    · split
      · rfl
      · rfl

theorem still_deliverHeaders (s : Session) (k : Nat) (headers : Headers) :
    Still s (s.deliverHeaders k headers) := by
  unfold deliverHeaders
  split
  · exact still_modify s rfl
  · exact (still_markClosed s k).trans (still_modify _ rfl)

theorem still_goawayAll (s : Session) (ks : List Nat) : Still s (goawayAll ks s) := by
  induction ks generalizing s with
  | nil => exact .refl s
  | cons k ks ih => exact ((still_shut s true k).trans (still_remove _ k)).trans (ih _)

theorem still_handshakeReturns (s : Session) : Still s s.handshakeReturns :=
  ⟨⟨rfl, List.Sublist.refl _, fun _ => rfl, fun _ => .inl rfl, fun _ => ⟨rfl, id⟩, fun _ => .inl,
    id, fun _ => rfl⟩, rfl, fun scope => by rcases scope <;> rfl, rfl, fun _ => rfl⟩

theorem still_handshakeFails (s : Session) : Still s s.handshakeFails :=
  ⟨⟨rfl, List.Sublist.refl _, fun _ => rfl, fun _ => .inl rfl, fun _ => ⟨rfl, id⟩, fun _ => .inl,
    id, fun _ => rfl⟩, rfl, fun scope => by rcases scope <;> rfl, rfl, fun _ => rfl⟩

variable {rest : List Write}

/-- The head of the write lock becomes a record of a write. -/
theorem still_pop (hqueue : s.writeQueue = w :: rest)
    {r : Record} (hr : r = .sent w.frame ∨ r = .lost w.frame) :
    Still s ({ s with writeQueue := rest }.record r) := by
  have hmem : ∀ v ∈ rest, v ∈ s.writeQueue := fun v hv => hqueue ▸ mem_cons_of_mem w hv
  have hw : w ∈ s.writeQueue := hqueue ▸ mem_cons_self
  refine ⟨⟨rfl, List.Sublist.refl _, id, .inr, fun _ => ⟨rfl, id⟩, fun _ => .inl, fun hsized => ?_,
    fun scope => ?_⟩, rfl, fun scope => by rcases scope <;> rfl, ?_, fun scope => ?_⟩
  · refine ⟨fun v hv => hsized.1 v (hmem v hv), fun f hf => ?_⟩
    rcases mem_append.1 hf with hf | hf
    · exact hsized.2 f hf
    · rcases hr with rfl | rfl
      · obtain rfl := Record.sent.inj (mem_singleton.1 hf)
        exact hsized.1 w hw
      · cases mem_singleton.1 hf
  · have hwaiting : s.waitingBytes scope = w.frame.bytesOn scope +
        (rest.map fun w => w.frame.bytesOn scope).sum := by
      simp [waitingBytes, hqueue]
    unfold taken
    rw [hwaiting]
    show sentBytes scope (s.history ++ [r]) + lostBytes scope (s.history ++ [r]) +
      (rest.map fun w => w.frame.bytesOn scope).sum = _
    rw [sentBytes_append, lostBytes_append]
    rcases hr with rfl | rfl <;> dsimp only <;> omega
  · refine (initialWindow_append _ _).trans ?_
    rcases hr with rfl | rfl <;> rfl
  · refine (increments_append _ _ _).trans ?_
    rcases hr with rfl | rfl <;> rfl

theorem still_written (hqueue : s.writeQueue = w :: rest) :
    Still s ({ s with writeQueue := rest }.written w) := by
  have hpop := still_pop hqueue (.inl rfl)
  unfold Session.written
  dsimp only
  split
  · exact hpop.trans (still_handshakeReturns _)
  · exact hpop.trans (still_modify _ rfl)
  · refine hpop.trans (still_setSender _ _ rfl fun hrest hnil => hrest ?_)
    rw [hnil, drop_nil]
  · exact hpop

theorem still_writeFails (hqueue : s.writeQueue = w :: rest) :
    Still s ({ s with writeQueue := rest }.writeFails w) := by
  have hpop := still_pop hqueue (.inr rfl)
  unfold Session.writeFails
  dsimp only
  split
  · exact hpop.trans (still_handshakeReturns _)
  · exact hpop.trans (still_openFails _ _)
  · exact hpop.trans (still_setSender _ _ rfl id)
  · exact hpop

-- ----
-- The invariant

/-- What the table and the frames of the client have to do with the calls. -/
structure Sound (s : Session) : Prop where
  table : ∀ k ∈ s.streams, k < s.acquired
  distinct : (s.streams.map streamID).Nodup
  handshake : s.handshake ≠ .over → s.streams = []
  ready : s.state = .ready → s.handshake = .over
  senders : ∀ i, (s.senders i).rest ≠ [] → (s.senders i).stream < s.acquired
  fresh : ∀ k, s.acquired ≤ k → s.taken (some k) = 0
  launched : ∀ f ∈ s.launched, Plain f
  sized : s.Sized

theorem Aside.sound (hst : Aside s t) (h : Sound s) : Sound t where
  table := fun k hk => hst.acquired ▸ h.table k (hst.streams.subset hk)
  distinct := h.distinct.sublist (hst.streams.map streamID)
  handshake := fun hover => by
    have hnil := h.handshake fun hover' => hover (hst.handshake hover')
    exact sublist_nil.1 (hnil ▸ hst.streams)
  ready := fun hready => by
    rcases hst.ready hready with hover | hready'
    · exact hover
    · exact hst.handshake (h.ready hready')
  senders := fun i hrest => by
    rw [(hst.senders i).1, hst.acquired]
    exact h.senders i ((hst.senders i).2 hrest)
  fresh := fun k hk => by
    rw [hst.taken]
    exact h.fresh k (hst.acquired ▸ hk)
  launched := fun f hf => by
    rcases hst.launched f hf with hf | hplain
    · exact h.launched f hf
    · exact hplain
  sized := hst.sized h.sized

/-- The windows are what has been granted less what has been taken. -/
structure Accounted (s : Session) : Prop extends Sound s where
  initial : s.serverInitialWindowSize = initialWindow s.history
  initialFits : 0 ≤ s.serverInitialWindowSize ∧ s.serverInitialWindowSize < 2 ^ 31
  fits : ∀ scope, -2 ^ 31 ≤ s.window scope ∧ s.window scope < 2 ^ 31
  balance : ∀ scope, s.Live scope → s.window scope = credit scope s.history - s.taken scope
  connection : 0 ≤ s.connectionSendWindow
  low : ∀ k ∈ s.streams, s.serverInitialWindowSize - s.window (some k) < 2 ^ 31

/-- A stream out of the table is granted nothing, and what is taken was granted. -/
structure Steady (s t : Session) : Prop where
  acquired : ∀ k < t.acquired, k < s.acquired ∨ k ∈ t.streams
  frozen : ∀ k < s.acquired, k ∉ t.streams →
    t.window (some k) + t.taken (some k) = s.window (some k) + s.taken (some k)
  within : ∀ k, t.taken (some k) = s.taken (some k) ∨ 0 ≤ t.window (some k)

theorem Still.steady (h : Still s t) : Steady s t :=
  ⟨fun _ hk => .inl (h.acquired ▸ hk), fun k _ _ => by rw [h.window, h.taken],
    fun k => .inl (h.taken _)⟩

theorem Live.of_sublist (h : t.streams.Sublist s.streams) {scope : Option Nat}
    (hlive : t.Live scope) : s.Live scope := by
  rcases scope with _ | k
  · trivial
  · exact h.subset hlive

theorem Still.accounted (hst : Still s t) (h : Accounted s) : Accounted t where
  toSound := hst.toAside.sound h.toSound
  initial := by rw [hst.initial, hst.initialWindow, h.initial]
  initialFits := by
    rw [hst.initial]
    exact h.initialFits
  fits := fun scope => by
    rw [hst.window]
    exact h.fits scope
  balance := fun scope hlive => by
    rw [hst.window, hst.credit, hst.taken]
    exact h.balance scope (Live.of_sublist hst.streams hlive)
  connection := by
    have hwindow : t.connectionSendWindow = s.connectionSendWindow := hst.window none
    rw [hwindow]
    exact h.connection
  low := fun k hk => by
    rw [hst.initial, hst.window]
    exact h.low k (hst.streams.subset hk)

-- ----
-- Frames of the server

theorem sentBytes_le_taken (s : Session) (scope : Option Nat) :
    sentBytes scope s.history ≤ s.taken scope := by
  unfold taken
  omega

/-- The windows follow what is granted, modulo the width of an `Int`; the server keeps them
within it. -/
theorem Accounted.raised (h : Accounted s) (hst : Aside s t) (hlegal : Legal t)
    (hinitial : t.serverInitialWindowSize = initialWindow t.history)
    (hfits : t.serverInitialWindowSize < 2 ^ 31)
    (hwindow : ∀ scope, t.Live scope →
      t.window scope = int32 (s.window scope + (credit scope t.history - credit scope s.history)))
    (hother : ∀ k, k ∉ t.streams → t.window (some k) = s.window (some k))
    (hgrows : ∀ scope, t.Live scope → increments scope s.history ≤ increments scope t.history) :
    Accounted t ∧ Steady s t := by
  have hbalance : ∀ scope, t.Live scope → t.window scope = credit scope t.history -
      t.taken scope := by
    intro scope hlive
    have hold := h.balance scope (Live.of_sublist hst.streams hlive)
    have hsent := sentBytes_le_taken t scope
    have hgrow := hgrows scope hlive
    rw [hwindow scope hlive, hold, hst.taken scope]
    rw [hst.taken scope] at hsent
    have heq : credit scope s.history - s.taken scope +
        (credit scope t.history - credit scope s.history) =
        credit scope t.history - s.taken scope := by omega
    rw [heq]
    rcases scope with _ | k
    · have hupper := hlegal.2.1
      have hnonneg : 0 ≤ s.window none := h.connection
      unfold credit at hold hupper ⊢
      refine int32_of_fits ?_ ?_ <;> dsimp only at * <;> omega
    · have hupper := hlegal.2.2 k hlive
      have hlow := h.low k (hst.streams.subset hlive)
      have hinit := h.initial
      have hzero := hlegal.1
      rw [credit_some] at *
      exact int32_of_fits (by omega) (by omega)
  refine ⟨⟨hst.sound h.toSound, hinitial, ⟨hinitial ▸ hlegal.1, hfits⟩, fun scope => ?_, hbalance,
    ?_, fun k hk => ?_⟩, fun _ hk => .inl (hst.acquired ▸ hk),
    fun k _ hk => by rw [hother k hk, hst.taken], fun k => .inl (hst.taken _)⟩
  · by_cases hlive : t.Live scope
    · rw [hwindow scope hlive]
      exact fits_int32 _
    · rcases scope with _ | k
      · exact absurd trivial hlive
      · rw [hother k hlive]
        exact h.fits (some k)
  · have hnew := hbalance none trivial
    have hold := h.balance none trivial
    have hgrow := hgrows none trivial
    have hnonneg : 0 ≤ s.window none := h.connection
    rw [hst.taken] at hnew
    unfold credit at hnew hold
    show 0 ≤ t.window none
    dsimp only at hnew hold
    omega
  · have hk' := hst.streams.subset hk
    have hnew := hbalance (some k) hk
    have hold := h.balance (some k) hk'
    have hgrow := hgrows (some k) hk
    have hlow := h.low k hk'
    have hinit := h.initial
    rw [hst.taken] at hnew
    rw [credit_some] at hnew hold
    omega

theorem aside_received (s : Session) (f : Http2Frame) : Aside s (s.record (.received f)) := by
  refine ⟨rfl, List.Sublist.refl _, id, .inr, fun _ => ⟨rfl, id⟩, fun _ => .inl, fun hsized => ?_,
    fun scope => ?_⟩
  · refine ⟨hsized.1, fun g hg => ?_⟩
    rcases mem_append.1 hg with hg | hg
    · exact hsized.2 g hg
    · cases mem_singleton.1 hg
  · unfold taken
    show sentBytes scope (s.history ++ [Record.received f]) + lostBytes scope
      (s.history ++ [Record.received f]) + _ = _
    rw [sentBytes_append, lostBytes_append]
    rfl

theorem increments_received (scope : Option Nat) (s : Session) (f : Http2Frame) :
    increments scope (s.record (.received f)).history =
      increments scope s.history +
        if f.type = .windowUpdate ∧ (f.streamID : Int) = scopeID scope then
          (parseWindowUpdate f.payload).getD 0
        else 0 := by
  refine (increments_append _ _ _).trans ?_
  unfold addIncrement
  dsimp only
  split
  · rfl
  · rfl

theorem initialWindow_received (s : Session) (f : Http2Frame) :
    initialWindow (s.record (.received f)).history =
      if f.type = .settings ∧ f.hasFlag ackFlag = false then
        applySettings (initialWindow s.history) (parseSettings f.payload)
      else initialWindow s.history := initialWindow_append _ _

variable {f : Http2Frame}

/-- Most frames grant nothing. -/
theorem still_received (s : Session) (hupdate : f.type ≠ .windowUpdate)
    (hsettings : f.type = .settings → f.hasFlag ackFlag = true) :
    Still s (s.record (.received f)) := by
  refine ⟨aside_received s f, rfl, fun scope => by rcases scope <;> rfl, ?_, fun scope => ?_⟩
  · rw [initialWindow_received, if_neg]
    rintro ⟨htype, hack⟩
    rw [hsettings htype] at hack
    cases hack
  · rw [increments_received, if_neg fun h => hupdate h.1]
    rfl

-- ----
-- WINDOW_UPDATE

theorem applyWindowUpdate_window (s : Session) (k increment j : Nat) :
    (s.applyWindowUpdate k increment).window (some j) =
      if j = k then int32 (s.window (some j) + increment) else s.window (some j) := by
  show (Function.update s.stream k _ j).sendWindow = _
  split
  · rename_i hj
    rw [hj, Function.update_self]
    rfl
  · rename_i hj
    rw [Function.update_of_ne hj]
    rfl

theorem Accounted.update (h : Accounted s) (htype : f.type = .windowUpdate)
    (hst : Aside s t) (hhistory : t.history = (s.record (.received f)).history) (hlegal : Legal t)
    (hstreams : t.streams = s.streams)
    (hinitial : t.serverInitialWindowSize = s.serverInitialWindowSize)
      (hwindow : ∀ scope, s.Live scope → t.window scope = if (f.streamID : Int) = scopeID scope then
      int32 (s.window scope + (parseWindowUpdate f.payload).getD 0) else s.window scope)
    (hother : ∀ k, k ∉ s.streams → t.window (some k) = s.window (some k)) :
    Accounted t ∧ Steady s t := by
  have hsame : initialWindow t.history = initialWindow s.history := by
    rw [hhistory, initialWindow_received, if_neg]
    simp [htype]
  have hcredit : ∀ scope, credit scope t.history - credit scope s.history =
      if (f.streamID : Int) = scopeID scope then ((parseWindowUpdate f.payload).getD 0 : Int)
      else 0 := by
    intro scope
    unfold credit
    rw [hsame, hhistory, increments_received]
    rcases scope with _ | k <;> dsimp only <;> simp only [htype, true_and] <;> split <;> omega
  refine h.raised hst hlegal ?_ ?_ (fun scope hlive => ?_) (hstreams ▸ hother) fun scope _ => ?_
  · rw [hinitial, hsame, h.initial]
  · rw [hinitial]
    exact h.initialFits.2
  · rw [hwindow scope (Live.of_sublist hst.streams hlive), hcredit]
    split
    · rfl
    · rw [Int.add_zero, int32_of_fits (h.fits scope).1 (h.fits scope).2]
  · rw [hhistory, increments_received]
    exact Nat.le_add_right _ _

theorem Accounted.update_none (h : Accounted s) (htype : f.type = .windowUpdate)
    (hlegal : Legal (s.record (.received f)))
    (hnone : ∀ scope, s.Live scope → (f.streamID : Int) = scopeID scope →
      parseWindowUpdate f.payload = none) :
    Accounted (s.record (.received f)) ∧ Steady s (s.record (.received f)) := by
  refine h.update htype (aside_received s f) rfl hlegal rfl rfl (fun scope hlive => ?_)
    fun _ _ => rfl
  have hsame : (s.record (.received f)).window scope = s.window scope := by rcases scope <;> rfl
  rw [hsame]
  split
  · rename_i hid
    rw [hnone scope hlive hid, Option.getD_none, Int.natCast_zero, Int.add_zero,
      int32_of_fits (h.fits scope).1 (h.fits scope).2]
  · rfl

theorem Accounted.update_connection {u : Session} (h : Accounted s)
    (htype : f.type = .windowUpdate) (hid : f.streamID = 0) {increment : Nat}
    (hparse : parseWindowUpdate f.payload = some increment) (hu : u = s.record (.received f))
    (hst : Still { u with connectionSendWindow := int32 (u.connectionSendWindow + increment) } t)
    (hhistory : t.history = u.history) (hstreams : t.streams = u.streams)
    (hlegal : Legal t) : Accounted t ∧ Steady s t := by
  subst hu
  have haside := aside_received s f
  have hmoved : Aside s { s.record (.received f) with
      connectionSendWindow := int32 (s.connectionSendWindow + increment) } :=
    ⟨haside.acquired, haside.streams, haside.handshake, haside.ready, haside.senders,
      haside.launched, haside.sized, haside.taken⟩
  refine h.update htype (hmoved.trans hst.toAside) hhistory hlegal hstreams hst.initial
    (fun scope _ => ?_)
    fun k _ => hst.window (some k)
  rw [hst.window, hparse, hid]
  rcases scope with _ | k
  · rfl
  · rw [if_neg fun heq => streamID_ne_zero k heq.symm]
    rfl

theorem Accounted.update_stream (h : Accounted s)
    (htype : f.type = .windowUpdate) {increment : Nat}
    (hparse : parseWindowUpdate f.payload = some increment) (hlookup : s.lookup f.streamID = some k)
    (hlegal : Legal ((s.record (.received f)).applyWindowUpdate k increment)) :
    Accounted ((s.record (.received f)).applyWindowUpdate k increment) ∧
      Steady s ((s.record (.received f)).applyWindowUpdate k increment) := by
  obtain ⟨hk, hid⟩ := lookup_some hlookup
  have haside : Aside s ((s.record (.received f)).applyWindowUpdate k increment) :=
    ((aside_received s f).trans (aside_modify _ k _)).trans
      (still_completeAwaiter _ k .loop).toAside
  refine h.update htype haside rfl hlegal rfl rfl (fun scope hlive => ?_) fun j hj => ?_
  · rcases scope with _ | j
    · have hne : (f.streamID : Int) ≠ scopeID none := fun heq => streamID_ne_zero k (hid.trans heq)
      rw [if_neg hne]
      rfl
    · rw [applyWindowUpdate_window, hparse]
      by_cases hj : j = k
      · have heq : (f.streamID : Int) = scopeID (some k) := hid.symm
        rw [if_pos hj, hj, if_pos heq]
        rfl
      · -- no other stream of the table has the id
        have hne : (f.streamID : Int) ≠ scopeID (some j) := fun heq =>
          hj (inj_on_of_nodup_map h.distinct hlive hk (heq.symm.trans hid.symm))
        rw [if_neg hj, if_neg hne]
        rfl
  · have hne : j ≠ k := fun heq => hj (heq ▸ hk)
    rw [applyWindowUpdate_window, if_neg hne]
    rfl

-- ----
-- SETTINGS

theorem aside_adjustSendWindow (s : Session) (delta : Int) (k : Nat) :
    Aside s (s.adjustSendWindow delta k) := by
  unfold adjustSendWindow
  dsimp only
  split
  · exact (aside_modify s k _).trans (still_completeAwaiter _ k .loop).toAside
  · exact aside_modify s k _

theorem adjustSendWindow_window (s : Session) (delta : Int) (k j : Nat) :
    (s.adjustSendWindow delta k).window (some j) =
      if j = k then int32 (s.window (some j) + delta) else s.window (some j) := by
  have hmodify :
      ((s.modify k fun st => { st with sendWindow := int32 (st.sendWindow + delta) }).window
        (some j)) =
      if j = k then int32 (s.window (some j) + delta) else s.window (some j) := by
    show (Function.update s.stream k _ j).sendWindow = _
    split
    · rename_i hj
      rw [hj, Function.update_self]
      rfl
    · rename_i hj
      rw [Function.update_of_ne hj]
      rfl
  unfold adjustSendWindow
  dsimp only
  split
  · exact hmodify
  · exact hmodify

/-- What `adjustSendWindow` leaves alone. -/
theorem adjustSendWindow_same (s : Session) (delta : Int) (k : Nat) :
    (s.adjustSendWindow delta k).history = s.history ∧
      (s.adjustSendWindow delta k).streams = s.streams ∧
      (s.adjustSendWindow delta k).connectionSendWindow = s.connectionSendWindow ∧
      (s.adjustSendWindow delta k).serverInitialWindowSize = s.serverInitialWindowSize := by
  unfold adjustSendWindow
  dsimp only
  split
  · exact ⟨rfl, rfl, rfl, rfl⟩
  · exact ⟨rfl, rfl, rfl, rfl⟩

/-- The settings shift the windows of the table, and nothing else. -/
structure Shifts (delta : Int) (s t : Session) : Prop extends Aside s t where
  history : t.history = s.history
  sameStreams : t.streams = s.streams
  connection : t.connectionSendWindow = s.connectionSendWindow
  inTable : ∀ k ∈ s.streams, t.window (some k) = int32 (s.window (some k) + delta)
  other : ∀ k, k ∉ s.streams → t.window (some k) = s.window (some k)

theorem shifts_adjustAll (delta : Int) {ks : List Nat} (hnodup : ks.Nodup) (s : Session) :
    Aside s (ks.foldl (fun s k => s.adjustSendWindow delta k) s) ∧
      (ks.foldl (fun s k => s.adjustSendWindow delta k) s).history = s.history ∧
      (ks.foldl (fun s k => s.adjustSendWindow delta k) s).streams = s.streams ∧
      (ks.foldl (fun s k => s.adjustSendWindow delta k) s).connectionSendWindow =
        s.connectionSendWindow ∧
      (ks.foldl (fun s k => s.adjustSendWindow delta k) s).serverInitialWindowSize =
        s.serverInitialWindowSize ∧
      ∀ j, (ks.foldl (fun s k => s.adjustSendWindow delta k) s).window (some j) =
        if j ∈ ks then int32 (s.window (some j) + delta) else s.window (some j) := by
  induction ks generalizing s with
  | nil => exact ⟨Aside.refl s, rfl, rfl, rfl, rfl, fun _ => (if_neg not_mem_nil).symm⟩
  | cons k ks ih =>
    obtain ⟨hk, hnodup'⟩ := nodup_cons.1 hnodup
    obtain ⟨hhistory, hstreams, hconnection, hinitial⟩ := adjustSendWindow_same s delta k
    obtain ⟨ihaside, ihhistory, ihstreams, ihconnection, ihinitial, ihwindow⟩ :=
      ih hnodup' (s.adjustSendWindow delta k)
    refine ⟨(aside_adjustSendWindow s delta k).trans ihaside, ihhistory.trans hhistory,
      ihstreams.trans hstreams, ihconnection.trans hconnection, ihinitial.trans hinitial,
      fun j => (ihwindow j).trans ?_⟩
    rw [adjustSendWindow_window]
    by_cases hj : j = k
    · rw [hj, if_neg hk, if_pos rfl, if_pos mem_cons_self]
    · rw [if_neg hj]
      simp [hj]

theorem shifts_setInitialWindowSize (hnodup : s.streams.Nodup) (value : Int) :
    Shifts (value - s.serverInitialWindowSize) s (s.setInitialWindowSize value) ∧
      (s.setInitialWindowSize value).serverInitialWindowSize = value := by
  obtain ⟨haside, hhistory, hstreams, hconnection, hinitial, hwindow⟩ :=
    shifts_adjustAll (int32 (value - s.serverInitialWindowSize)) hnodup
      { s with serverInitialWindowSize := value }
  have hset : Aside s { s with serverInitialWindowSize := value } :=
    ⟨rfl, List.Sublist.refl _, id, .inr, fun _ => ⟨rfl, id⟩, fun _ => .inl, id, fun _ => rfl⟩
  refine ⟨⟨hset.trans haside, hhistory, hstreams, hconnection, fun k hk => (hwindow k).trans ?_,
    fun k hk => (hwindow k).trans (if_neg hk)⟩, hinitial⟩
  rw [if_pos hk, int32_add_int32]
  rfl

theorem shifts_handleServerSettings {settings : List (Nat × Int)} {s : Session}
    (hnodup : s.streams.Nodup) (hfits : ∀ k, -2 ^ 31 ≤ s.window (some k) ∧
      s.window (some k) < 2 ^ 31) :
    Shifts (applySettings s.serverInitialWindowSize settings - s.serverInitialWindowSize) s
        (settings.foldl (fun s setting => if setting.1 = 0x4 then s.setInitialWindowSize setting.2
          else s) s) ∧
      (settings.foldl (fun s setting => if setting.1 = 0x4 then s.setInitialWindowSize setting.2
        else s) s).serverInitialWindowSize = applySettings s.serverInitialWindowSize settings := by
  induction settings generalizing s with
  | nil =>
    refine ⟨⟨Aside.refl s, rfl, rfl, rfl, fun k _ => ?_, fun _ _ => rfl⟩, rfl⟩
    show _ = int32 (_ + (s.serverInitialWindowSize - s.serverInitialWindowSize))
    rw [Int.sub_self, Int.add_zero, int32_of_fits (hfits k).1 (hfits k).2]
    rfl
  | cons setting settings ih =>
    rw [foldl_cons]
    unfold applySettings
    rw [foldl_cons]
    by_cases hid : setting.1 = 0x4
    · rw [if_pos hid, if_pos hid]
      obtain ⟨hfirst, hinitial⟩ := shifts_setInitialWindowSize hnodup setting.2
      have hfits' : ∀ k, -2 ^ 31 ≤ (s.setInitialWindowSize setting.2).window (some k) ∧
          (s.setInitialWindowSize setting.2).window (some k) < 2 ^ 31 := by
        intro k
        by_cases hk : k ∈ s.streams
        · rw [hfirst.inTable k hk]
          exact fits_int32 _
        · rw [hfirst.other k hk]
          exact hfits k
      obtain ⟨hrest, hlast⟩ :=
        ih (s := s.setInitialWindowSize setting.2) (hfirst.sameStreams ▸ hnodup) hfits'
      rw [hinitial] at hrest hlast
      refine ⟨⟨hfirst.toAside.trans hrest.toAside, hrest.history.trans hfirst.history,
        hrest.sameStreams.trans hfirst.sameStreams, hrest.connection.trans hfirst.connection,
        fun k hk => ?_, fun k hk => ?_⟩, hlast⟩
      · rw [hrest.inTable k (hfirst.sameStreams ▸ hk), hfirst.inTable k hk, int32_int32_add]
        congr 1
        unfold applySettings
        omega
      · rw [hrest.other k (hfirst.sameStreams ▸ hk), hfirst.other k hk]
    · rw [if_neg hid, if_neg hid]
      exact ih hnodup hfits

theorem applySettings_fits {initial : Int} (h : initial < 2 ^ 31) {settings : List (Nat × Int)}
    (hsettings : ∀ setting ∈ settings, setting.2 < 2 ^ 31) :
    applySettings initial settings < 2 ^ 31 := by
  induction settings generalizing initial with
  | nil => exact h
  | cons setting settings ih =>
    refine ih ?_ fun setting' hmem => hsettings setting' (mem_cons_of_mem _ hmem)
    dsimp only
    split
    · exact hsettings setting mem_cons_self
    · exact h

theorem parseSettings_fits (payload : Bytes) :
    ∀ setting ∈ parseSettings payload, setting.2 < 2 ^ 31 := by
  fun_induction parseSettings payload with
  | case1 i0 i1 v0 v1 v2 v3 rest ih =>
    intro setting hmem
    rcases mem_cons.1 hmem with heq | hmem
    · have hvalue : setting.2 = int32 (uint32 v0 v1 v2 v3) := by rw [heq]
      have hfits := (fits_int32 (uint32 v0 v1 v2 v3)).2
      omega
    · exact ih setting hmem
  | case2 => simp

/-- The settings move the windows with the initial window. -/
theorem Accounted.settings {u : Session} (h : Accounted s) (htype : f.type = .settings)
    (hack : f.hasFlag ackFlag = false) (hu : Aside (s.record (.received f)) u)
    (hsame : u.history = (s.record (.received f)).history ∧ u.streams = s.streams ∧
      u.serverInitialWindowSize = s.serverInitialWindowSize ∧ ∀ scope, u.window scope =
      s.window scope)
    (hst : Still (u.handleServerSettings f.payload) t)
    (hstreams : t.streams = (u.handleServerSettings f.payload).streams) (hlegal : Legal t) :
    Accounted t ∧ Steady s t := by
  obtain ⟨hhistory, htable, hinitial, hwindow⟩ := hsame
  have hnodup : u.streams.Nodup := htable ▸ List.Nodup.of_map _ h.distinct
  have hfits : ∀ k, -2 ^ 31 ≤ u.window (some k) ∧ u.window (some k) < 2 ^ 31 := fun k => by
    rw [hwindow]
    exact h.fits (some k)
  obtain ⟨hshifts, hlast⟩ := @shifts_handleServerSettings (parseSettings f.payload) u hnodup hfits
  have hnew : t.serverInitialWindowSize = applySettings s.serverInitialWindowSize
      (parseSettings f.payload) := by
    rw [hst.initial, ← hinitial]
    exact hlast
  have hhistory' : (u.handleServerSettings f.payload).history = (s.record (.received f)).history :=
    hshifts.history.trans hhistory
  have hinitial' : initialWindow t.history =
      applySettings s.serverInitialWindowSize (parseSettings f.payload) := by
    rw [hst.initialWindow, hhistory', initialWindow_received, if_pos ⟨htype, hack⟩, h.initial]
  have hincrements : ∀ scope, increments scope t.history = increments scope s.history := by
    intro scope
    rw [hst.increments, hhistory', increments_received, if_neg (by simp [htype]), Nat.add_zero]
  have hstreams' : t.streams = s.streams := hstreams.trans (hshifts.sameStreams.trans htable)
  refine h.raised (((aside_received s f).trans hu).trans (hshifts.toAside.trans hst.toAside)) hlegal
    (hnew.trans hinitial'.symm) ?_ (fun scope hlive => ?_) (fun k hk => ?_) fun scope _ =>
      (hincrements scope).ge
  · rw [hnew]
    exact applySettings_fits h.initialFits.2 (parseSettings_fits _)
  · rw [hst.window]
    rcases scope with _ | k
    · have hcredit : credit none t.history - credit none s.history = 0 := by
        show (defaultInitialWindowSize + _ : Int) - (defaultInitialWindowSize + _) = 0
        rw [hincrements]
        omega
      rw [hcredit, Int.add_zero, int32_of_fits (h.fits none).1 (h.fits none).2, ← hwindow]
      exact hshifts.connection
    · have hcredit : credit (some k) t.history - credit (some k) s.history =
          applySettings u.serverInitialWindowSize (parseSettings f.payload) -
            u.serverInitialWindowSize := by
        rw [credit_some, credit_some, hincrements, hinitial', hinitial, h.initial]
        omega
      have hmem : k ∈ u.streams := by
        rw [htable, ← hstreams']
        exact hlive
      rw [hcredit, ← hwindow]
      exact hshifts.inTable k hmem
  · rw [hstreams'] at hk
    rw [hst.window, ← hwindow]
    exact hshifts.other k (by rwa [htable])

-- ----
-- `sendData`

theorem bytesOn_data (scope : Option Nat) (k : Nat) (payload : Bytes) :
    (ClientFrame.data k payload).bytesOn scope =
      if scope = none ∨ scope = some k then payload.length else 0 := by
  rcases scope with _ | j
  · rfl
  · show (if k = j then payload.length else 0) = _
    by_cases hj : k = j
    · simp [hj]
    · rw [if_neg hj, if_neg (by simpa using fun heq => hj heq.symm)]

theorem consumeSend_window (hfits : ∀ scope, s.window scope < 2 ^ 31) {bytes : Int}
    (hbytes : 0 ≤ bytes) (hconnection : bytes ≤ s.connectionSendWindow)
    (hstream : bytes ≤ s.window (some k)) (scope : Option Nat) :
    (s.consumeSend k bytes).window scope =
      s.window scope - if scope = none ∨ scope = some k then bytes else 0 := by
  rcases scope with _ | j
  · have hupper : s.connectionSendWindow < 2 ^ 31 := hfits none
    exact int32_of_fits (by omega) (by omega)
  · show (Function.update s.stream k ((s.stream k).consumeSend bytes) j).sendWindow = _
    by_cases hj : j = k
    · have hupper : (s.stream k).sendWindow < 2 ^ 31 := hfits (some k)
      have hle : ¬ (s.stream k).sendWindow < bytes := Int.not_lt.2 hstream
      rw [hj, Function.update_self, if_pos (.inr rfl)]
      unfold Stream.consumeSend
      rw [if_neg hle]
      refine int32_of_fits ?_ ?_
      · have hnonneg : 0 ≤ (s.stream k).sendWindow - bytes := Int.sub_nonneg.2 hstream
        omega
      · omega
    · rw [Function.update_of_ne hj, if_neg (by simpa using hj), Int.sub_zero]
      rfl

/-- A chunk goes off both windows and to the write lock. -/
theorem Accounted.take {s : Session} (h : Accounted s) {i k : Nat} {payload : Bytes}
    {sender : Sender} (hsender : sender.stream = (s.senders i).stream)
    (hrest : sender.rest ≠ [] → (s.senders i).rest ≠ []) (hk : k < s.acquired)
    (hsize : 1 ≤ payload.length ∧ payload.length ≤ 16384)
    (hconnection : (payload.length : Int) ≤ s.connectionSendWindow)
    (hstream : (payload.length : Int) ≤ s.window (some k)) :
    Accounted (((s.consumeSend k payload.length).setSender i sender).enqueue
        ⟨.data k payload, .sendData i⟩) ∧
      Steady s (((s.consumeSend k payload.length).setSender i sender).enqueue
        ⟨.data k payload, .sendData i⟩) := by
  have hwindow : ∀ scope, (((s.consumeSend k payload.length).setSender i sender).enqueue
      ⟨.data k payload, .sendData i⟩).window scope =
      s.window scope - if scope = none ∨ scope = some k then (payload.length : Int) else 0 := by
    intro scope
    rw [← consumeSend_window (fun scope => (h.fits scope).2) (Int.natCast_nonneg _) hconnection
      hstream scope]
    rcases scope <;> rfl
  have htaken : ∀ scope, (((s.consumeSend k payload.length).setSender i sender).enqueue
      ⟨.data k payload, .sendData i⟩).taken scope =
      s.taken scope + if scope = none ∨ scope = some k then payload.length else 0 := by
    intro scope
    unfold taken
    rw [waitingBytes_enqueue, bytesOn_data, ← Nat.add_assoc]
    rfl
  have hsenders := (still_setSender (s.consumeSend k payload.length) i hsender hrest).senders
  refine ⟨⟨⟨h.table, h.distinct, h.handshake, h.ready, fun j hrest' => ?_,
    fun j hj => ?_, h.launched, sized_enqueue ?_ h.sized⟩, h.initial, h.initialFits,
    fun scope => ?_, fun scope hlive => ?_, ?_, fun j hj => ?_⟩, fun _ hj => .inl hj,
    fun j _ _ => ?_, fun j => ?_⟩
  · exact lt_of_eq_of_lt (hsenders j).1 (h.senders j ((hsenders j).2 hrest'))
  · have hne : some j ≠ some k := fun heq => absurd hk (Nat.not_lt.2 (Option.some.inj heq ▸ hj))
    rw [htaken, h.fresh j hj, if_neg (by simpa using hne)]
  · intro j payload' heq
    obtain ⟨-, rfl⟩ := ClientFrame.data.inj heq
    exact hsize
  · have hold := h.fits scope
    rw [hwindow]
    split
    · rename_i hscope
      rcases hscope with rfl | rfl
      · have hnonneg : (payload.length : Int) ≤ s.window none := hconnection
        omega
      · omega
    · omega
  · rw [hwindow, htaken, h.balance scope hlive]
    show _ = credit scope s.history - _
    split
    · push_cast
      omega
    · simp
  · show 0 ≤ (_ : Session).window none
    rw [hwindow, if_pos (.inl rfl)]
    exact Int.sub_nonneg.2 hconnection
  · have hold := h.low j hj
    have hinitial := h.initialFits
    show s.serverInitialWindowSize - _ < 2 ^ 31
    rw [hwindow]
    split
    · rename_i hscope
      obtain rfl : j = k := by simpa using hscope
      omega
    · omega
  · rw [hwindow, htaken]
    split
    · push_cast
      omega
    · simp
  · by_cases hj : j = k
    · refine .inr ?_
      rw [hwindow, hj, if_pos (.inr rfl)]
      exact Int.sub_nonneg.2 hstream
    · refine .inl ?_
      rw [htaken, if_neg (by simpa using hj)]
      rfl

theorem Accounted.still (h : Accounted s) (hst : Still s t) : Accounted t ∧ Steady s t :=
  ⟨hst.accounted h, hst.steady⟩

theorem Accounted.iterate (h : Accounted s) (i : Nat) :
    Accounted (s.iterate i) ∧ Steady s (s.iterate i) := by
  unfold Session.iterate
  dsimp only
  split
  · exact h.still (still_setSender s i rfl id)
  · rename_i hrest
    split
    · split
      · exact h.still (still_setSender s i rfl id)
      · split
        · exact h.still (still_setSender s i rfl id)
        · split
          · exact h.still (.refl s)
          · exact h.still (still_setSender s i rfl id)
    · rename_i hchunk
      generalize hsize : min ((s.senders i).rest.length : Int)
        (min maxDataPayload
          (min s.connectionSendWindow (s.stream (s.senders i).stream).sendWindow)) = chunkSize at *
      have hle : chunkSize ≤ (s.senders i).rest.length ∧ chunkSize ≤ 16384 ∧
          chunkSize ≤ s.connectionSendWindow ∧
          chunkSize ≤ s.window (some (s.senders i).stream) := by
        have hmax : maxDataPayload = 16384 := rfl
        show _ ∧ _ ∧ _ ∧ chunkSize ≤ (s.stream (s.senders i).stream).sendWindow
        omega
      obtain ⟨hlength, hmax, hconnection, hstream⟩ := hle
      have hpayload : (((s.senders i).rest.take chunkSize.toNat).length : Int) = chunkSize := by
        rw [length_take]
        omega
      have htake :=
        @Accounted.take s h i (s.senders i).stream ((s.senders i).rest.take chunkSize.toNat)
        { s.senders i with point := .writeLock } rfl id (h.senders i hrest) (by omega)
          (by omega) (by omega)
      rw [hpayload] at htake
      exact htake

/-- A call of `sendData` begins. -/
theorem Accounted.call (h : Accounted s) {t : Sender} (ht : t.stream < s.acquired) :
    Accounted (s.call t) := by
  have hsound : Sound (s.call t) := by
    refine ⟨h.table, h.distinct, h.handshake, h.ready, fun i hrest => ?_, h.fresh,
      h.launched, h.sized⟩
    unfold Session.call at hrest ⊢
    dsimp only at hrest ⊢
    by_cases hi : i = s.calls
    · rw [hi, Function.update_self]
      exact ht
    · rw [Function.update_of_ne hi] at hrest ⊢
      exact h.senders i hrest
  refine ⟨hsound, h.initial, h.initialFits, fun scope => ?_, fun scope hlive => ?_,
    h.connection, h.low⟩
  · rcases scope with _ | k
    · exact h.fits none
    · exact h.fits (some k)
  · rcases scope with _ | k
    · exact h.balance none trivial
    · exact h.balance (some k) hlive

theorem Accounted.sendData (h : Accounted s) (hk : k < s.acquired) (data : Bytes) :
    Accounted (s.sendData k data) ∧ Steady s (s.sendData k data) := by
  unfold Session.sendData
  split
  · obtain ⟨haccounted, hsteady⟩ := (h.call (t := ⟨k, data, .loop⟩) hk).iterate s.calls
    exact ⟨haccounted, hsteady.acquired, hsteady.frozen, hsteady.within⟩
  · exact h.still (.refl s)

-- ----
-- Steps

/-- A new stream has the initial window, and nothing has been taken off it. -/
theorem Accounted.newStream (h : Accounted s) (hready : s.state = .ready) :
    Accounted s.newStream ∧ Steady s s.newStream := by
  have htaken : ∀ scope, s.newStream.taken scope = s.taken scope := by
    intro scope
    unfold taken
    show sentBytes scope (s.history ++ [Record.acquired s.acquired]) +
      lostBytes scope (s.history ++ [Record.acquired s.acquired]) + _ = _
    rw [sentBytes_append, lostBytes_append]
    rfl
  have hinitial : initialWindow s.newStream.history = initialWindow s.history :=
    initialWindow_append _ _
  have hincrements : ∀ scope, increments scope s.newStream.history =
      if scope = some s.acquired then 0 else increments scope s.history :=
    fun scope => increments_append scope s.history (.acquired s.acquired)
  have hwindow : ∀ scope, s.newStream.window scope =
      if scope = some s.acquired then s.serverInitialWindowSize else s.window scope := by
    intro scope
    rcases scope with _ | j
    · rfl
    · show (Function.update s.stream s.acquired _ j).sendWindow = _
      by_cases hj : j = s.acquired
      · rw [hj, Function.update_self, if_pos rfl]
      · rw [Function.update_of_ne hj, if_neg (by simpa using hj)]
        rfl
  have hstreams : ∀ {k}, k ∈ s.newStream.streams → k ∈ s.streams ∨ k = s.acquired := fun hk => by
    rcases mem_append.1 hk with hk | hk
    · exact .inl (mem_filter.1 hk).1
    · exact .inr (mem_singleton.1 hk)
  have hfits := h.initialFits
  refine ⟨⟨⟨fun k hk => ?_, ?_, fun hover => absurd (h.ready hready) hover, h.ready,
    fun i hrest => ?_, fun k hk => ?_, h.launched, ?_⟩, ?_, h.initialFits, fun scope => ?_,
    fun scope hlive => ?_, h.connection, fun k hk => ?_⟩, fun k hk => ?_, fun k hk _ => ?_,
    fun k => .inl (htaken _)⟩
  · show k < s.acquired + 1
    rcases hstreams hk with hk | hk
    · have := h.table k hk
      omega
    · omega
  · show ((s.streams.filter (fun j => streamID j ≠ streamID s.acquired) ++ [s.acquired]).map
      streamID).Nodup
    rw [map_append]
    refine (h.distinct.sublist (filter_sublist.map _)).append (nodup_singleton _)
      fun sid hmem hmem' => ?_
    obtain ⟨j, hj, rfl⟩ := mem_map.1 hmem
    have hne := (mem_filter.1 hj).2
    exact of_decide_eq_true hne (mem_singleton.1 hmem')
  · have := h.senders i hrest
    show (s.senders i).stream < s.acquired + 1
    omega
  · rw [htaken]
    exact h.fresh k (Nat.le_of_succ_le hk)
  · refine ⟨h.sized.1, fun f hf => ?_⟩
    rcases mem_append.1 hf with hf | hf
    · exact h.sized.2 f hf
    · cases mem_singleton.1 hf
  · rw [hinitial]
    exact h.initial
  · rw [hwindow]
    split
    · omega
    · exact h.fits scope
  · rw [hwindow, htaken]
    unfold credit
    rw [hinitial, hincrements]
    split
    · rename_i hscope
      rw [hscope, h.fresh _ (Nat.le_refl _), h.initial]
      simp
    · rename_i hscope
      refine h.balance scope ?_
      rcases scope with _ | k
      · trivial
      · rcases hstreams hlive with hk | hk
        · exact hk
        · exact absurd (congrArg some hk) hscope
  · show s.serverInitialWindowSize - _ < 2 ^ 31
    rw [hwindow]
    split
    · omega
    · rename_i hscope
      rcases hstreams hk with hk | hk
      · exact h.low k hk
      · exact absurd (congrArg some hk) hscope
  · rcases Nat.lt_or_eq_of_le (Nat.le_of_lt_succ hk) with hk | hk
    · exact .inl hk
    · exact .inr (hk ▸ mem_append_right _ (mem_singleton_self _))
  · have hne : some k ≠ some s.acquired := fun heq => absurd (Option.some.inj heq) (Nat.ne_of_lt hk)
    rw [hwindow, htaken, if_neg hne]

theorem Accounted.windowUpdate (h : Accounted s) (htype : f.type = .windowUpdate)
    (decoded : Option Headers) (hlegal : Legal ((s.record (.received f)).routeFrame f decoded)) :
    Accounted ((s.record (.received f)).routeFrame f decoded) ∧
      Steady s ((s.record (.received f)).routeFrame f decoded) := by
  unfold Session.routeFrame at hlegal ⊢
  rw [htype] at hlegal ⊢
  dsimp only at hlegal ⊢
  rcases hparse : parseWindowUpdate f.payload with _ | increment <;> rw [hparse] at hlegal <;>
    dsimp only at hlegal ⊢
  · exact h.update_none htype hlegal fun _ _ _ => hparse
  · by_cases hzero : f.streamID = 0
    · rw [if_pos hzero] at hlegal ⊢
      exact h.update_connection htype hzero hparse rfl (still_completeConnectionAwaiter _ .loop)
        rfl rfl hlegal
    · rw [if_neg hzero] at hlegal ⊢
      rcases hlookup : (s.record (.received f)).lookup f.streamID with _ | k <;>
        rw [hlookup] at hlegal <;>
        dsimp only at hlegal ⊢
      · refine h.update_none htype hlegal fun scope hlive hid => ?_
        rcases scope with _ | k
        · exact absurd (Int.ofNat_eq_zero.1 hid) hzero
        · have hnone := List.find?_eq_none.1 hlookup k hlive
          exact absurd (decide_eq_true hid.symm) hnone
      · exact h.update_stream htype hparse hlookup hlegal

theorem Accounted.routedSettings (h : Accounted s) (htype : f.type = .settings)
    (decoded : Option Headers) (hlegal : Legal ((s.record (.received f)).routeFrame f decoded)) :
    Accounted ((s.record (.received f)).routeFrame f decoded) ∧
      Steady s ((s.record (.received f)).routeFrame f decoded) := by
  unfold Session.routeFrame at hlegal ⊢
  rw [htype] at hlegal ⊢
  dsimp only at hlegal ⊢
  by_cases hack : f.hasFlag ackFlag = true
  · rw [if_pos hack]
    exact h.still (still_received s (by simp [htype]) fun _ => hack)
  · rw [if_neg hack] at hlegal ⊢
    exact h.settings htype (by simpa using hack) (.refl _)
      ⟨rfl, rfl, rfl, fun scope => by rcases scope <;> rfl⟩
        (still_launch _ fun _ _ heq => by cases heq) rfl hlegal

theorem still_routeFrame (s : Session) (hupdate : f.type ≠ .windowUpdate)
    (hsettings : f.type ≠ .settings) (decoded : Option Headers) :
    Still s (s.routeFrame f decoded) := by
  unfold Session.routeFrame
  split
  · split
    · exact .refl s
    · rcases s.lookup f.streamID with _ | k <;> dsimp only
      · exact .refl s
      · have hdelivered : Still s (if f.payload ≠ [] then s.deliverData k f.payload else s) := by
          split
          · exact still_deliverData s k f.payload
          · exact .refl s
        split
        · exact (hdelivered.trans (still_shut _ false k)).trans (still_remove _ k)
        · exact hdelivered
  · split
    · exact .refl s
    · rcases s.lookup f.streamID with _ | k <;> dsimp only
      · exact .refl s
      · rcases decoded with _ | headers <;> dsimp only
        · exact still_shut s true k
        · exact still_deliverHeaders s k headers
  · split
    · exact .refl s
    · rcases s.lookup f.streamID with _ | k <;> dsimp only
      · exact .refl s
      · exact (still_shut s true k).trans (still_remove _ k)
  · rename_i htype
    exact absurd htype hsettings
  · split
    · exact .refl s
    · exact still_launch s fun _ _ heq => by cases heq
  · rename_i htype
    exact absurd htype hupdate
  · have hgoaway : Still s { s with goawayReceived := true } :=
      ⟨⟨rfl, List.Sublist.refl _, id, .inr, fun _ => ⟨rfl, id⟩, fun _ => .inl, id, fun _ => rfl⟩,
        rfl, fun scope => by rcases scope <;> rfl, rfl, fun _ => rfl⟩
    rcases parseGoaway f.payload with _ | ⟨lastStreamID, errorCode⟩ <;> dsimp only
    · exact hgoaway.trans (still_shutdownIfEmpty _)
    · exact (hgoaway.trans (still_goawayAll _ _)).trans (still_shutdownIfEmpty _)

theorem Accounted.routeFrame (h : Accounted s) (f : Http2Frame) (decoded : Option Headers)
    (hlegal : Legal ((s.record (.received f)).routeFrame f decoded)) :
    Accounted ((s.record (.received f)).routeFrame f decoded) ∧
      Steady s ((s.record (.received f)).routeFrame f decoded) := by
  by_cases hupdate : f.type = .windowUpdate
  · exact h.windowUpdate hupdate decoded hlegal
  · by_cases hsettings : f.type = .settings
    · exact h.routedSettings hsettings decoded hlegal
    · exact h.still ((still_received s hupdate fun htype => absurd htype hsettings).trans
        (still_routeFrame _ hupdate hsettings decoded))

theorem Accounted.processHandshake (h : Accounted s) (hreading : s.handshake = .reading)
    (f : Http2Frame) (hlegal : Legal ((s.record (.received f)).processHandshake f)) :
    Accounted ((s.record (.received f)).processHandshake f) ∧
      Steady s ((s.record (.received f)).processHandshake f) := by
  have hnil : s.streams = [] := h.handshake (by simp [hreading])
  have hother : f.type ≠ .windowUpdate → f.type ≠ .settings →
      ∀ {t}, Still (s.record (.received f)) t →
      Accounted t ∧ Steady s t := fun hupdate hsettings _ hst =>
    h.still ((still_received s hupdate fun htype => absurd htype hsettings).trans hst)
  unfold Session.processHandshake at hlegal ⊢
  rcases htype : f.type <;> rw [htype] at hlegal <;> dsimp only at hlegal ⊢
  · exact hother (by simp [htype]) (by simp [htype]) (.refl _)
  · exact hother (by simp [htype]) (by simp [htype]) (.refl _)
  · exact hother (by simp [htype]) (by simp [htype]) (.refl _)
  · by_cases hack : f.hasFlag ackFlag = true
    · rw [if_pos hack]
      exact h.still (still_received s (by simp [htype]) fun _ => hack)
    · rw [if_neg hack] at hlegal ⊢
      have hacking : ∀ u : Session, u.handshake = .reading → u.state ≠ .ready →
          Aside u { u with handshake := .acking } := fun u hu hstate =>
        ⟨rfl, List.Sublist.refl _, (fun hover => by rw [hu] at hover; cases hover),
          fun hready => absurd hready hstate, fun _ => ⟨rfl, id⟩, fun _ => .inl, id, fun _ => rfl⟩
      have hstate : s.state ≠ .ready := fun hready => by
        rw [h.ready hready] at hreading
        cases hreading
      exact h.settings htype (by simpa using hack) (hacking _ hreading hstate)
        ⟨rfl, rfl, rfl, fun scope => by rcases scope <;> rfl⟩
          (still_enqueue _ fun _ _ heq => by cases heq) rfl hlegal
  · split
    · exact hother (by simp [htype]) (by simp [htype]) (.refl _)
    · exact hother (by simp [htype]) (by simp [htype]) (still_enqueue _ fun _ _ heq => by cases heq)
  · exact hother (by simp [htype]) (by simp [htype]) (still_handshakeFails _)
  · rcases hparse : parseWindowUpdate f.payload with _ | increment <;> rw [hparse] at hlegal <;>
      dsimp only at hlegal ⊢
    · exact h.update_none htype hlegal fun _ _ _ => hparse
    · by_cases hzero : f.streamID = 0
      · rw [if_pos hzero] at hlegal ⊢
        exact h.update_connection htype hzero hparse rfl (.refl _) rfl rfl hlegal
      · rw [if_neg hzero] at hlegal ⊢
        refine h.update_none htype hlegal fun scope hlive hid => ?_
        rcases scope with _ | k
        · exact absurd (Int.ofNat_eq_zero.1 hid) hzero
        · exact absurd (hnil ▸ hlive : k ∈ []) not_mem_nil

theorem still_dispatch (h : Sound s) {f : ClientFrame} (hf : f ∈ s.launched) (j : Nat) :
    Still s ({ s with launched := s.launched.eraseIdx j }.enqueue ⟨f, .launched⟩) := by
  have herased : Still s { s with launched := s.launched.eraseIdx j } :=
    ⟨⟨rfl, List.Sublist.refl _, id, .inr, fun _ => ⟨rfl, id⟩,
      fun _ hg => .inl (mem_of_mem_eraseIdx hg), id, fun _ => rfl⟩, rfl,
      fun scope => by rcases scope <;> rfl, rfl, fun _ => rfl⟩
  exact herased.trans (still_enqueue _ (h.launched f hf))

variable {e : Event}

theorem accounted_step (he : Fair s e) (h : Accounted s) :
    Accounted (step s e) ∧ Steady s (step s e) := by
  have hrefl := h.still (.refl s)
  unfold Fair at he
  unfold step at he ⊢
  rcases e with _ | _ | _ | j | ⟨j, data⟩ | j | j | _ | j | i | j | j | accepted |
    ⟨f, decoded⟩ | _ <;>
    dsimp only at he ⊢
  · split
    · rename_i hidle
      refine h.still ⟨⟨rfl, List.Sublist.refl _, fun hover => ?_, fun hready => ?_,
        fun _ => ⟨rfl, id⟩, fun _ => .inl, id, fun _ => rfl⟩, rfl,
        fun scope => by rcases scope <;> rfl, rfl, fun _ => rfl⟩
      · rw [hidle.2] at hover
        cases hover
      · cases hready
    · exact hrefl
  · split
    · rename_i hready
      exact h.newStream hready.1
    · exact hrefl
  · split
    · rename_i hready
      exact h.newStream hready.1
    · exact hrefl
  · split
    · exact h.still (still_openTunnel s j)
    · exact hrefl
  · split
    · rename_i hj
      exact h.sendData hj data
    · exact hrefl
  · split
    · exact h.still (still_receiveData s j)
    · exact hrefl
  · split
    · exact h.still (still_close s j)
    · exact hrefl
  · exact h.still (still_shutdown s)
  · exact h.still (still_resumeOpen s j)
  · split
    · exact h.iterate i
    · exact hrefl
  · exact h.still (still_acknowledge s j)
  · split
    · exact hrefl
    · rename_i f hf
      exact h.still (still_dispatch h.toSound (List.mem_of_getElem? hf) j)
  · split
    · exact hrefl
    · rename_i w rest hqueue
      split
      · exact h.still (still_written hqueue)
      · exact h.still (still_writeFails hqueue)
  · rcases hhandshake : s.handshake <;> rw [hhandshake] at he <;> dsimp only at he ⊢
    · exact hrefl
    · exact h.processHandshake hhandshake f he
    · exact hrefl
    · split
      · rename_i hready
        rw [if_pos hready] at he
        exact h.routeFrame f decoded he
      · exact hrefl
  · split
    · exact h.still (still_handshakeFails s)
    · split
      · exact h.still (still_shutdown s)
      · exact hrefl
    · exact hrefl

-- ----
-- Runs

/-- The account of every stream that has been acquired. -/
structure Audited (a : Audit) : Prop where
  accounted : Accounted a.session
  granted : ∀ k < a.session.acquired, a.session.window (some k) + a.session.taken
    (some k) = a.granted k
  inTable : ∀ k ∈ a.session.streams, a.granted k = credit (some k) a.session.history

theorem accounted_start : Accounted {} := by
  have hnil : ∀ k, k ∉ ({} : Session).streams := fun k => not_mem_nil
  refine ⟨⟨fun k hk => absurd hk (hnil k), nodup_nil, fun _ => rfl, (fun hready => by cases hready),
    fun i hrest => absurd rfl hrest, fun _ _ => rfl, fun f hf => absurd hf not_mem_nil,
    fun w hw => absurd hw not_mem_nil, fun f hf => absurd hf not_mem_nil⟩, rfl, by decide,
    fun scope => ?_,
    fun scope hlive => ?_, by decide, fun k hk => absurd hk (hnil k)⟩
  · rcases scope with _ | k
    · decide
    · show -2 ^ 31 ≤ (0 : Int) ∧ (0 : Int) < 2 ^ 31
      decide
  · rcases scope with _ | k
    · decide
    · exact absurd hlive (hnil k)

theorem audited_step {a : Audit} (he : Fair a.session e) (h : Audited a) : Audited (audit a e) := by
  obtain ⟨haccounted, hsteady⟩ := accounted_step he h.accounted
  refine ⟨haccounted, fun k hk => ?_, fun k hk => if_pos hk⟩
  show (step a.session e).window (some k) + (step a.session e).taken (some k) =
    if k ∈ (step a.session e).streams then _ else _
  split
  · rename_i hmem
    rw [haccounted.balance (some k) hmem]
    omega
  · rename_i hmem
    obtain hk' | hk' := hsteady.acquired k hk
    · rw [hsteady.frozen k hk' hmem]
      exact h.granted k hk'
    · exact absurd hk' hmem

theorem run_audit_session (a : Audit) (events : List Event) :
    (run audit a events).session = run step a.session events := by
  induction events generalizing a with
  | nil => rfl
  | cons e events ih => exact ih (audit a e)

variable {events : List Event}

theorem runAll_audit {a : Audit} (h : RunAll step Fair a.session events) :
    RunAll audit (fun a e => Fair a.session e) a events := by
  induction events generalizing a with
  | nil => trivial
  | cons e events ih => exact ⟨h.1, ih h.2⟩

theorem audited_run (h : RunAll step Fair {} events) : Audited (run audit {} events) :=
  run_invariant_of (I := Audited) (fun _ _ => audited_step) (runAll_audit h)
    ⟨accounted_start, fun _ hk => absurd hk (Nat.not_lt_zero _), fun _ hk => absurd hk not_mem_nil⟩

theorem accounted_run (h : RunAll step Fair {} events) :
    Accounted (run step {} events) := by
  have hsession : (run audit {} events).session = run step {} events := run_audit_session {} events
  exact hsession ▸ (audited_run h).accounted

theorem granted_run (h : RunAll step Fair {} events)
    (hk : k < (run step {} events).acquired) :
    (run step {} events).window (some k) + (run step {} events).taken (some k) =
      granted k events := by
  have hsession : (run audit {} events).session = run step {} events := run_audit_session {} events
  have hgranted := (audited_run h).granted
  rw [hsession] at hgranted
  exact hgranted k hk

/-- The bytes of a stream grow within what it has been granted. -/
theorem taken_le_granted {before : List Event} (h : RunAll step Fair {} (before ++ [e]))
    (hgrows : (run step {} before).taken (some k) < (run step {} (before ++ [e])).taken (some k)) :
    (run step {} (before ++ [e])).taken (some k) ≤ granted k (before ++ [e]) := by
  obtain ⟨hbefore, he, -⟩ := runAll_append.1 h
  have hstep : run step {} (before ++ [e]) = step (run step {} before) e :=
    run_append step {} before [e]
  have hsteady := (accounted_step he (accounted_run hbefore)).2
  have hk : k < (run step {} (before ++ [e])).acquired := by
    by_contra hge
    have hfresh := (accounted_run h).fresh k (Nat.not_lt.1 hge)
    omega
  have hgranted := granted_run h hk
  have hwindow : 0 ≤ (run step {} (before ++ [e])).window (some k) := by
    rw [hstep] at hgrows ⊢
    rcases hsteady.within k with hsame | hwindow
    · omega
    · exact hwindow
  omega

/-- Against a server that keeps the windows within 31 bits, DATA stays within what has been
granted when it is taken off the windows, and these are the balance of both. -/
theorem flow_controlled {events : List Event} (h : RunAll step Fair {} events) :
    FlowControlled events := by
  have haccounted := accounted_run h
  have hconnection : (run step {} events).connectionSendWindow =
      65535 + increments none (run step {} events).history - (run step {} events).taken none :=
    haccounted.balance none trivial
  refine ⟨?_, hconnection, fun before e after hevents k hgrows => ?_, fun k hk => ?_,
    fun k hk => ?_, haccounted.sized.2⟩
  · have hnonneg := haccounted.connection
    have hsent := sentBytes_le_taken (run step {} events) none
    omega
  · rw [hevents, append_cons, runAll_append] at h
    exact taken_le_granted h.1 hgrows
  · have hgranted := granted_run h hk
    show (run step {} events).window (some k) = _
    omega
  · have hgranted := granted_run h (haccounted.table k hk)
    have hbalance := haccounted.balance (some k) hk
    rw [credit_some] at hbalance
    omega

/-- One byte is written and a second waits for the write lock; the server raises the window of
the stream and lowers the initial window. -/
def negativeWindow : List Event :=
  opening ++ [response, .resumeOpen 0, .sendData 0 [1], .write true, .resumeSend 0, .sendData 0 [2],
    .frame ⟨.windowUpdate, 0, 1, [0, 0, 0, 1]⟩ none,
    .frame ⟨.settings, 0, 0, [0, 4, 0, 0, 0, 0]⟩ none]

theorem flow_controlled_negative :
    ((run step {} negativeWindow).stream 0).sendWindow = -1 ∧ FlowControlled negativeWindow :=
  ⟨by decide, flow_controlled (by decide)⟩

/-- A byte waits for the write lock. -/
def unwritten : List Event := opening ++ [response, .resumeOpen 0, .sendData 0 [1]]

/-- A call of `sendData` goes on behind the end of its stream, and of settings that lower the
initial window. -/
def outOfTable : List Event :=
  opening ++ [response, .resumeOpen 0, .frame ⟨.settings, 0, 0, [0, 4, 0, 0, 0, 1]⟩ none,
    .sendData 0 [1, 2], .frame ⟨.windowUpdate, 0, 1, [0, 0, 0, 1]⟩ none,
    .frame ⟨.data, 1, 1, []⟩ none, .frame ⟨.settings, 0, 0, [0, 4, 0, 0, 0, 0]⟩ none, .write true,
    .resumeSend 0, .write true]

/-- The bytes written on a stream may be more than the initial window and its increments, and
the windows other than what has been granted less the bytes written. -/
theorem settings_below_bytes_written :
    (RunAll step Fair {} (negativeWindow ++ [.write true]) ∧
      ¬ (sentBytes (some 0) (run step {} (negativeWindow ++ [.write true])).history : Int) ≤
        credit (some 0) (run step {} (negativeWindow ++ [.write true])).history) ∧
    (RunAll step Fair {} unwritten ∧ (run step {} unwritten).connectionSendWindow ≠
      credit none (run step {} unwritten).history - sentBytes none
      (run step {} unwritten).history) ∧
    (RunAll step Fair {} outOfTable ∧ ((run step {} outOfTable).stream 0).sendWindow ≠
      credit (some 0) (run step {} outOfTable).history - sentBytes (some 0)
      (run step {} outOfTable).history) :=
  ⟨⟨by decide, by decide⟩, ⟨by decide, by decide⟩, by decide,
    by decide⟩

end Anywhere.Naive
