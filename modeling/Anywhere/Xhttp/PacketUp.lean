import Anywhere.Config
import Anywhere.Lib.Base64
import Anywhere.Lib.Machine

/-!
# Anywhere — `XHttpClient`: the queue of packet-up mode

A send in packet-up mode appends to a queue and waits for a deferred. The first one schedules a
flush: a coroutine that takes a batch off the queue, sends it, completes the deferreds of the
batch, and goes on with the next batch if there is one. `cancel` takes what is in the queue
and completes it with an exception.

A step is a critical section or the end of a write. A deferred has the number of its send, and the
coroutines are a list, from which one that ends is taken out. When a flush starts is left open, and
with it the interval between two of them.

* `collect` — the batch.
* `step` — the machine.
* `Queue`, `queue_step` — one flush at most, and every send in one place.
* `Answered` — the steps in which no flush fails with more in the queue.
* `packet_up_queue_served` — in a run of such steps.
* `send_left_waiting` — a flush that fails and leaves a send in the queue.
-/

namespace Anywhere.Xhttp

open Lib List

-- ----
-- The state

inductive XHttpPlacement
  | path | query | header | cookie | queryInHeader | body
  deriving DecidableEq

/-- What packet-up mode reads of the configuration and of the connection. -/
structure Config where
  scMaxEachPostBytes : Int := 1000000
  seqPlacement : XHttpPlacement := .path
  uplinkDataPlacement : XHttpPlacement := .body
  uplinkChunkSize : Int := 0
  useHTTP2 : Bool := false

def Config.maxSize (config : Config) : Nat := (max 1 config.scMaxEachPostBytes).toNat

/-- A POST over HTTP/1.1, as far as it has the number and the data: the number, wherever
it is written, the values of the headers `$key-0`, `$key-1` and so on, that of the cookie,
and the body. -/
structure Post where
  seq : Option Nat
  fields : List Text
  cookie : Option Text
  body : Bytes
  deriving DecidableEq

/-- `applySeq`, with the part of the number in `queryParamsForMeta`. -/
def applySeq (config : Config) (seq : Nat) : Option Nat :=
  match config.seqPlacement with
  | .path | .header | .cookie | .query => some seq
  | .queryInHeader | .body => none

/-- The loop of `sendSinglePost` over the encoded data, in as many turns at most. -/
def headerChunks (chunkSize : Nat) : Nat → Text → List Text
  | 0, _ => []
  | turns + 1, encoded =>
    if encoded = [] then []
    else encoded.take chunkSize :: headerChunks chunkSize turns (encoded.drop chunkSize)

/-- `sendSinglePost`: data that is not placed in the body is written in headers or a cookie,
or nowhere. -/
def sendSinglePost (config : Config) (data : Bytes) (seq : Nat) : Post :=
  let encoded := Base64.encodeUnpadded Base64.urlSafe data
  let chunkSize :=
    if 0 < config.uplinkChunkSize then config.uplinkChunkSize.toNat else encoded.length
  { seq := applySeq config seq
    fields :=
      if config.uplinkDataPlacement = .header then headerChunks chunkSize encoded.length encoded
      else []
    cookie := if config.uplinkDataPlacement = .cookie then some encoded else none
    body := if config.uplinkDataPlacement ≠ .body then [] else data }

/-- Where a flush is; `completions` are the deferreds of its batch. -/
inductive Flush
  | scheduled
  /-- Behind the critical section of `flushPacketUpBatch`. -/
  | opening (completions : List Nat) (data : Bytes) (seq : Nat)
  /-- In the write of the first POST of `rest`. -/
  | posting (completions : List Nat) (rest : Bytes) (seq : Nat)
  /-- Before the critical section for the next number. -/
  | numbering (completions : List Nat) (rest : Bytes)
  | sent (completions : List Nat) (error : Bool)
  /-- Before the last critical section. -/
  | finishing (error : Bool)

structure PacketUp where
  isConnected : Bool := true
  h2StreamClosed : Bool := false
  /-- `uploadSend` is set. -/
  uploadSend : Bool := true
  packetUpQueue : List (Bytes × Nat) := []
  packetUpFlushPending : Bool := false
  nextSeq : Nat := 0
  flushes : List Flush := []
  /-- What `cancel` took off the queue and is still to complete. -/
  pendingPackets : List Nat := []
  /-- The deferreds that are completed, and whether normally. -/
  completed : List (Nat × Bool) := []
  enqueued : List Bytes := []
  wire : List Post := []

inductive Event
  | enqueuePacketUpSend (data : Bytes)
  /-- The critical section of `flushPacketUpBatch`. -/
  | flushPacketUpBatch (n : Nat)
  /-- `sendPacketUpHTTP11`, to its first POST. -/
  | sendPacketUpHTTP11 (n : Nat)
  | post (n : Nat) (succeeds : Bool)
  | number (n : Nat)
  /-- `sendH2PacketUp` ends. -/
  | sendH2PacketUp (n : Nat) (succeeds : Bool)
  | complete (n : Nat)
  | finish (n : Nat)
  /-- A flush is cancelled before it starts. -/
  | kill (n : Nat)
  /-- The stream over HTTP/2 is closed. -/
  | closeStream
  | cancel
  | completePending
  deriving Repr

-- ----
-- The machine

/-- The loop of `flushPacketUpBatch` behind its first turn. -/
def collectMore (maxSize size : Nat) : List (Bytes × Nat) → List (Bytes × Nat) × List (Bytes × Nat)
  | [] => ([], [])
  | head :: queue =>
    if maxSize < size + head.1.length then ([], head :: queue)
    else
      let more := collectMore maxSize (size + head.1.length) queue
      (head :: more.1, more.2)

/-- What a batch takes off the queue, and what is left; the first send may be too large. -/
def collect (maxSize : Nat) : List (Bytes × Nat) → List (Bytes × Nat) × List (Bytes × Nat)
  | [] => ([], [])
  | head :: queue =>
    let more := collectMore maxSize head.1.length queue
    (head :: more.1, more.2)

def merged (batch : List (Bytes × Nat)) : Bytes := batch.flatMap Prod.fst

namespace PacketUp

/-- `enqueuePacketUpSend` and `flushPacketUpBatch` find the connection closed. -/
def refuses (config : Config) (s : PacketUp) : Bool :=
  !s.isConnected || (config.useHTTP2 && s.h2StreamClosed)

theorem isConnected_of_not_refuses {config : Config} {s : PacketUp}
    (h : ¬ s.refuses config = true) :
    s.isConnected = true := by
  unfold refuses at h
  rw [Bool.or_eq_true, not_or] at h
  simpa using h.1

def setFlush (n : Nat) (flush : Flush) (s : PacketUp) : PacketUp :=
  { s with flushes := s.flushes.set n flush }

def endFlush (n : Nat) (s : PacketUp) : PacketUp := { s with flushes := s.flushes.eraseIdx n }

/-- `enqueuePacketUpSend`, with `schedulePacketUpFlush`. -/
def enqueuePacketUpSend (config : Config) (data : Bytes) (s : PacketUp) : PacketUp :=
  if s.refuses config then s
  else
    { s with
      packetUpQueue := s.packetUpQueue ++ [(data, s.enqueued.length)]
      enqueued := s.enqueued ++ [data]
      packetUpFlushPending := true
      flushes := if s.packetUpFlushPending then s.flushes else s.flushes ++ [Flush.scheduled] }

/-- The critical section of `flushPacketUpBatch`. -/
def flushPacketUpBatch (config : Config) (n : Nat) (s : PacketUp) : PacketUp :=
  if s.refuses config then
    { s with
      packetUpQueue := []
      packetUpFlushPending := false
      completed := s.completed ++ (s.packetUpQueue.map Prod.snd).map fun id =>
      (id, false) }.endFlush n
  else if s.packetUpQueue = [] then { s with packetUpFlushPending := false }.endFlush n
  else
    let batch := collect config.maxSize s.packetUpQueue
    { s with packetUpQueue := batch.2, nextSeq := s.nextSeq + 1 }.setFlush n
      (.opening (batch.1.map Prod.snd) (merged batch.1) s.nextSeq)

/-- The loop of `sendPacketUpHTTP11` behind a POST. -/
def posted (config : Config) (n : Nat) (completions : List Nat) (rest : Bytes) (seq : Nat)
    (s : PacketUp) : PacketUp :=
  let next := rest.drop config.maxSize
  { s with wire := s.wire ++ [sendSinglePost config (rest.take config.maxSize) seq] }.setFlush n
    (if next = [] then .sent completions false else .numbering completions next)

/-- The last critical section of `flushPacketUpBatch`, with `schedulePacketUpFlush`. -/
def finish (n : Nat) (error : Bool) (s : PacketUp) : PacketUp :=
  if error = true ∨ s.packetUpQueue = [] then { s with packetUpFlushPending := false }.endFlush n
  else s.setFlush n .scheduled

def cancel (s : PacketUp) : PacketUp :=
  { s with
    isConnected := false
    h2StreamClosed := true
    uploadSend := false
    pendingPackets := s.pendingPackets ++ s.packetUpQueue.map Prod.snd
    packetUpQueue := []
    packetUpFlushPending := false }

end PacketUp

/-- One step; an event that does not apply changes nothing. -/
def step (config : Config) (s : PacketUp) : Event → PacketUp
  | .enqueuePacketUpSend data => s.enqueuePacketUpSend config data
  | .flushPacketUpBatch n =>
    match s.flushes[n]? with
    | some .scheduled => s.flushPacketUpBatch config n
    | _ => s
  | .sendPacketUpHTTP11 n =>
    match s.flushes[n]? with
    | some (.opening completions data seq) =>
      if config.useHTTP2 then s
      else if ¬ s.uploadSend then s.setFlush n (.sent completions true)
      else if data = [] then s.setFlush n (.sent completions false)
      else s.setFlush n (.posting completions data seq)
    | _ => s
  | .post n succeeds =>
    match s.flushes[n]? with
    | some (.posting completions rest seq) =>
      if succeeds then s.posted config n completions rest seq
      else s.setFlush n (.sent completions true)
    | _ => s
  | .number n =>
    match s.flushes[n]? with
    | some (.numbering completions rest) =>
      { s with nextSeq := s.nextSeq + 1 }.setFlush n (.posting completions rest s.nextSeq)
    | _ => s
  | .sendH2PacketUp n succeeds =>
    match s.flushes[n]? with
    | some (.opening completions _ _) =>
      if config.useHTTP2 then
        if succeeds then s.setFlush n (.sent completions false)
        else { s with h2StreamClosed := true }.setFlush n (.sent completions true)
      else s
    | _ => s
  | .complete n =>
    match s.flushes[n]? with
    | some (.sent completions error) =>
      { s with completed := s.completed ++ completions.map fun id => (id, !error) }.setFlush n
        (.finishing error)
    | _ => s
  | .finish n =>
    match s.flushes[n]? with
    | some (.finishing error) => s.finish n error
    | _ => s
  | .kill n =>
    match s.flushes[n]? with
    | some .scheduled => if s.isConnected then s else s.endFlush n
    | _ => s
  | .closeStream => { s with h2StreamClosed := true }
  | .cancel => s.cancel
  | .completePending =>
    { s with
      pendingPackets := [], completed := s.completed ++ s.pendingPackets.map fun id => (id, false) }

-- ----
-- One flush, and every send in one place

def Flush.completions : Flush → List Nat
  | .opening completions _ _ => completions
  | .posting completions _ _ => completions
  | .numbering completions _ => completions
  | .sent completions _ => completions
  | _ => []

/-- How often a send is in the queue, in a batch, with `cancel` and among the completed ones. -/
def places (s : PacketUp) (id : Nat) : Nat :=
  (s.packetUpQueue.map Prod.snd).count id + (s.flushes.flatMap Flush.completions).count id +
    s.pendingPackets.count id + (s.completed.map Prod.fst).count id

/-- There is one flush at most, which `packetUpFlushPending` tells of as long as the client is
connected, and every send is in one place. -/
structure Queue (s : PacketUp) : Prop where
  single : s.flushes = [] ∨ ∃ flush, s.flushes = [flush]
  pending : s.packetUpFlushPending = true → s.isConnected = true ∧ s.flushes ≠ []
  live : s.isConnected = true → s.flushes ≠ [] → s.packetUpFlushPending = true
  dropped : s.isConnected = false → s.packetUpQueue = []
  once : ∀ id, places s id = if id < s.enqueued.length then 1 else 0

theorem collectMore_append (maxSize size : Nat) (queue : List (Bytes × Nat)) :
    (collectMore maxSize size queue).1 ++ (collectMore maxSize size queue).2 = queue := by
  induction queue generalizing size with
  | nil => rfl
  | cons head queue ih =>
    unfold collectMore
    split
    · rfl
    · exact congrArg (head :: ·) (ih _)

theorem collect_append (maxSize : Nat) (queue : List (Bytes × Nat)) :
    (collect maxSize queue).1 ++ (collect maxSize queue).2 = queue := by
  rcases queue with _ | ⟨head, queue⟩
  · rfl
  · exact congrArg (head :: ·) (collectMore_append _ _ _)

namespace Queue

variable {s t : PacketUp} {n : Nat} {flush flush' : Flush}

theorem start : Queue {} where
  single := .inl rfl
  pending := nofun
  live := fun _ h => absurd rfl h
  dropped := nofun
  once := fun _ => rfl

theorem only (h : Queue s) (hn : s.flushes[n]? = some flush) : s.flushes = [flush] ∧ n = 0 := by
  rcases h.single with hnone | ⟨flush', hone⟩
  · rw [hnone] at hn
    cases hn
  · rw [hone] at hn ⊢
    rcases n with _ | n
    · exact ⟨congrArg (fun f => [f]) (Option.some.inj hn), rfl⟩
    · cases hn

theorem setFlush_eq (h : Queue s) (hn : s.flushes[n]? = some flush) :
    s.flushes.set n flush' = [flush'] := by
  obtain ⟨hone, rfl⟩ := h.only hn
  rw [hone]
  rfl

theorem endFlush_eq (h : Queue s) (hn : s.flushes[n]? = some flush) :
    s.flushes.eraseIdx n = [] := by
  obtain ⟨hone, rfl⟩ := h.only hn
  rw [hone]
  rfl

/-- The flush goes on, and every send that leaves one place comes to another. -/
theorem moves (h : Queue s) (hn : s.flushes[n]? = some flush)
    (hflushes : t.flushes = s.flushes.set n flush') (hconnected : t.isConnected = s.isConnected)
    (hpending : t.packetUpFlushPending = s.packetUpFlushPending)
    (hqueue : s.isConnected = false → t.packetUpQueue = [])
    (hpackets : t.pendingPackets = s.pendingPackets) (henqueued : t.enqueued = s.enqueued)
    (hplaces : ∀ k, (t.packetUpQueue.map Prod.snd).count k + flush'.completions.count k +
        (t.completed.map Prod.fst).count k =
      (s.packetUpQueue.map Prod.snd).count k + flush.completions.count k +
      (s.completed.map Prod.fst).count k) :
    Queue t := by
  obtain ⟨hone, -⟩ := h.only hn
  rw [h.setFlush_eq hn] at hflushes
  refine ⟨.inr ⟨flush', hflushes⟩, ?_, ?_, ?_, ?_⟩
  · rw [hpending, hconnected, hflushes]
    exact fun hflag => ⟨(h.pending hflag).1, cons_ne_nil _ _⟩
  · rw [hpending, hconnected]
    exact fun hopen _ => h.live hopen (by rw [hone]; exact cons_ne_nil _ _)
  · rw [hconnected]
    exact hqueue
  · intro k
    have hk := h.once k
    have hsame := hplaces k
    unfold places at hk ⊢
    rw [hone, flatMap_singleton] at hk
    rw [hflushes, hpackets, henqueued, flatMap_singleton]
    omega

theorem enqueuePacketUpSend (h : Queue s) (config : Config) (data : Bytes) :
    Queue (s.enqueuePacketUpSend config data) := by
  unfold PacketUp.enqueuePacketUpSend
  split
  · exact h
  · rename_i hrefuses
    have hopen := PacketUp.isConnected_of_not_refuses hrefuses
    refine ⟨?_, ?_, ?_, ?_, ?_⟩
    · dsimp only
      split
      · exact h.single
      · rename_i hpending
        have hnone : s.flushes = [] := by
          by_contra hne
          exact hpending (h.live hopen hne)
        rw [hnone]
        exact .inr ⟨.scheduled, rfl⟩
    · intro _
      refine ⟨hopen, ?_⟩
      dsimp only
      split
      · rename_i hpending
        exact (h.pending hpending).2
      · exact append_ne_nil_of_right_ne_nil _ (cons_ne_nil _ _)
    · exact fun _ _ => rfl
    · exact fun hclosed => absurd (hopen.symm.trans hclosed) nofun
    · intro id
      have hid := h.once id
      have hflushes :
          ((if s.packetUpFlushPending then s.flushes else s.flushes ++ [Flush.scheduled]).flatMap
          Flush.completions).count id = (s.flushes.flatMap Flush.completions).count id := by
        split
        · rfl
        · rw [flatMap_append, flatMap_singleton]
          exact congrArg (List.count id) (append_nil _)
      unfold places at hid ⊢
      dsimp only
      rw [hflushes, map_append, count_append, length_append]
      simp only [map_cons, map_nil, count_singleton, length_cons, length_nil, beq_iff_eq]
      split_ifs at hid ⊢ <;> omega

theorem ends (h : Queue s) (hn : s.flushes[n]? = some flush) (hnone : flush.completions = [])
    (hflushes : t.flushes = s.flushes.eraseIdx n) (hconnected : t.isConnected = s.isConnected)
    (hpending : t.packetUpFlushPending = false)
    (hqueue : s.isConnected = false → t.packetUpQueue = [])
    (hpackets : t.pendingPackets = s.pendingPackets) (henqueued : t.enqueued = s.enqueued)
    (hplaces : ∀ k, (t.packetUpQueue.map Prod.snd).count k + (t.completed.map Prod.fst).count k =
      (s.packetUpQueue.map Prod.snd).count k + (s.completed.map Prod.fst).count k) : Queue t := by
  obtain ⟨hone, -⟩ := h.only hn
  rw [h.endFlush_eq hn] at hflushes
  refine ⟨.inl hflushes, ?_, fun _ hne => absurd hflushes hne, ?_, ?_⟩
  · rw [hpending]
    exact nofun
  · rw [hconnected]
    exact hqueue
  · intro k
    have hk := h.once k
    have hsame := hplaces k
    unfold places at hk ⊢
    rw [hone, flatMap_singleton, hnone, count_nil] at hk
    rw [hflushes, hpackets, henqueued, flatMap_nil, count_nil]
    omega

theorem fst_completed (ids : List Nat) (normally : Bool) :
    (ids.map fun k => (k, normally)).map Prod.fst = ids := by
  rw [map_map]
  exact map_id ids

theorem flushPacketUpBatch (h : Queue s) (config : Config) (hn : s.flushes[n]? = some .scheduled) :
    Queue (s.flushPacketUpBatch config n) := by
  obtain ⟨hone, -⟩ := h.only hn
  unfold PacketUp.flushPacketUpBatch
  split
  · refine h.ends hn rfl rfl rfl rfl (fun _ => rfl) rfl rfl ?_
    intro k
    show 0 + ((s.completed ++ (s.packetUpQueue.map Prod.snd).map fun k => (k, false)).map
      Prod.fst).count k = _
    rw [map_append, fst_completed, count_append]
    omega
  · split
    · exact h.ends hn rfl rfl rfl rfl h.dropped rfl rfl fun _ => rfl
    · rename_i hrefuses hqueue
      have hopen : s.isConnected = true := by
        by_contra hclosed
        exact hqueue (h.dropped (Bool.not_eq_true _ ▸ hclosed))
      refine h.moves hn rfl rfl rfl
        (fun hclosed => absurd (hopen.symm.trans hclosed) nofun) rfl rfl ?_
      intro k
      have hbatch :=
        congrArg (fun l => (l.map Prod.snd).count k) (collect_append config.maxSize s.packetUpQueue)
      rw [map_append, count_append] at hbatch
      show ((collect config.maxSize s.packetUpQueue).2.map Prod.snd).count k +
          ((collect config.maxSize s.packetUpQueue).1.map Prod.snd).count k +
            (s.completed.map Prod.fst).count k =
        (s.packetUpQueue.map Prod.snd).count k + 0 + (s.completed.map Prod.fst).count k
      omega

theorem complete (h : Queue s) {completions : List Nat} {error : Bool}
    (hn : s.flushes[n]? = some (.sent completions error)) :
    Queue ({ s with completed := s.completed ++ completions.map fun k => (k, !error) }.setFlush n
      (.finishing error)) := by
  refine h.moves hn rfl rfl rfl h.dropped rfl rfl ?_
  intro k
  show (s.packetUpQueue.map Prod.snd).count k + 0 +
      ((s.completed ++ completions.map fun k => (k, !error)).map Prod.fst).count k =
    (s.packetUpQueue.map Prod.snd).count k + completions.count k +
      (s.completed.map Prod.fst).count k
  rw [map_append, fst_completed, count_append]
  omega

theorem finish (h : Queue s) {error : Bool} (hn : s.flushes[n]? = some (.finishing error)) :
    Queue (s.finish n error) := by
  unfold PacketUp.finish
  split
  · exact h.ends hn rfl rfl rfl rfl h.dropped rfl rfl fun _ => rfl
  · exact h.moves hn rfl rfl rfl h.dropped rfl rfl fun _ => rfl

theorem cancel (h : Queue s) : Queue s.cancel where
  single := h.single
  pending := nofun
  live := nofun
  dropped := fun _ => rfl
  once := by
    intro k
    have hk := h.once k
    unfold places at hk ⊢
    show 0 + _ + (s.pendingPackets ++ s.packetUpQueue.map Prod.snd).count k + _ = _
    rw [count_append]
    show _ = if k < s.enqueued.length then 1 else 0
    rw [← hk]
    show 0 + (s.flushes.flatMap Flush.completions).count k + _ +
      (s.completed.map Prod.fst).count k = _
    omega

theorem completePending (h : Queue s) : Queue
    { s with
      pendingPackets := []
      completed := s.completed ++ s.pendingPackets.map fun k => (k, false) } where
  single := h.single
  pending := h.pending
  live := h.live
  dropped := h.dropped
  once := by
    intro k
    have hk := h.once k
    unfold places at hk ⊢
    dsimp only
    rw [map_append, fst_completed, count_append, count_nil]
    omega

end Queue

/-- **A step keeps one flush and every send in one place.** -/
theorem queue_step (config : Config) {s : PacketUp} (e : Event) (h : Queue s) :
    Queue (step config s e) := by
  rcases e with data | n | n | ⟨n, succeeds⟩ | n | ⟨n, succeeds⟩ | n | n | n | _ | _ | _ <;>
    dsimp only [step]
  · exact h.enqueuePacketUpSend config data
  · split
    · rename_i hn
      exact h.flushPacketUpBatch config hn
    · exact h
  · split
    · rename_i hn
      split
      · exact h
      · split
        · exact h.moves hn rfl rfl rfl h.dropped rfl rfl fun _ => rfl
        · split <;> exact h.moves hn rfl rfl rfl h.dropped rfl rfl fun _ => rfl
    · exact h
  · split
    · rename_i hn
      split
      · refine h.moves hn rfl rfl rfl h.dropped rfl rfl ?_
        intro k
        unfold PacketUp.posted
        dsimp only
        split <;> rfl
      · exact h.moves hn rfl rfl rfl h.dropped rfl rfl fun _ => rfl
    · exact h
  · split
    · rename_i hn
      exact h.moves hn rfl rfl rfl h.dropped rfl rfl fun _ => rfl
    · exact h
  · split
    · rename_i hn
      split
      · split <;> exact h.moves hn rfl rfl rfl h.dropped rfl rfl fun _ => rfl
      · exact h
    · exact h
  · split
    · rename_i hn
      exact h.complete hn
    · exact h
  · split
    · rename_i hn
      exact h.finish hn
    · exact h
  · split
    · rename_i hn
      split
      · exact h
      · rename_i hclosed
        refine h.ends hn rfl rfl rfl ?_ h.dropped rfl rfl fun _ => rfl
        by_contra hpending
        exact hclosed (h.pending (Bool.not_eq_false _ ▸ hpending)).1
    · exact h
  · exact ⟨h.single, h.pending, h.live, h.dropped, h.once⟩
  · exact h.cancel
  · exact h.completePending

-- ----
-- Sends that wait

/-- A queue that is not empty is served unless the client is closed, and every send is completed at
most once, and exactly once when the client is closed: `cancel` has completed what it took off the
queue, and the flush that was on its way has ended. -/
structure Served (s : PacketUp) : Prop where
  served : s.packetUpQueue ≠ [] → s.flushes ≠ [] ∨ s.isConnected = false
  once : ∀ k, (s.completed.map Prod.fst).count k ≤ 1
  closed : s.isConnected = false → s.pendingPackets = [] → s.flushes = [] →
    ∀ k, k < s.enqueued.length → (s.completed.map Prod.fst).count k = 1

/-- The steps in which no flush of a client that is connected fails with more in the queue. -/
def Answered (s : PacketUp) : Event → Prop
  | .finish n => s.flushes[n]? = some (.finishing true) → s.isConnected = true →
      s.packetUpQueue = []
  | _ => True

theorem Queue.completed_le {s : PacketUp} (h : Queue s) (k : Nat) :
    (s.completed.map Prod.fst).count k ≤ 1 := by
  have hk := h.once k
  unfold places at hk
  split at hk <;> omega

/-- Behind the end of the client there is no other place for a send. -/
theorem Queue.completed_eq {s : PacketUp} (h : Queue s) (hclosed : s.isConnected = false)
    (hpackets : s.pendingPackets = []) (hflushes : s.flushes = []) {k : Nat}
    (hk : k < s.enqueued.length) :
    (s.completed.map Prod.fst).count k = 1 := by
  have honce := h.once k
  unfold places at honce
  rw [h.dropped hclosed, hpackets, hflushes, if_pos hk, map_nil, flatMap_nil, count_nil] at honce
  omega

/-- As long as the client is connected, a flush serves the queue. -/
def Flushing (s : PacketUp) : Prop := s.isConnected = true → s.packetUpQueue ≠ [] → s.flushes ≠ []

theorem set_ne_nil {α : Type*} {xs : List α} {n : Nat} {x y : α} (h : xs[n]? = some x) :
    xs.set n y ≠ [] := by
  intro hnil
  rw [set_eq_nil_iff] at hnil
  rw [hnil] at h
  cases h

theorem flushing_step (config : Config) {s : PacketUp} {e : Event} (hanswered : Answered s e)
    (h : Queue s) (hflushing : Flushing s) : Flushing (step config s e) := by
  rcases e with data | n | n | ⟨n, succeeds⟩ | n | ⟨n, succeeds⟩ | n | n | n | _ | _ | _ <;>
    dsimp only [step]
  · unfold PacketUp.enqueuePacketUpSend
    split
    · exact hflushing
    · intro _ _
      dsimp only
      split
      · rename_i hpending
        exact (h.pending hpending).2
      · exact append_ne_nil_of_right_ne_nil _ (cons_ne_nil _ _)
  · split
    · rename_i hn
      unfold PacketUp.flushPacketUpBatch
      split
      · exact fun _ hne => absurd rfl hne
      · split
        · rename_i hempty
          exact fun _ hne => absurd hempty hne
        · exact fun _ _ => set_ne_nil hn
    · exact hflushing
  · split
    · rename_i hn
      split
      · exact hflushing
      · split
        · exact fun _ _ => set_ne_nil hn
        · split <;> exact fun _ _ => set_ne_nil hn
    · exact hflushing
  · split
    · rename_i hn
      split <;> exact fun _ _ => set_ne_nil hn
    · exact hflushing
  · split
    · rename_i hn
      exact fun _ _ => set_ne_nil hn
    · exact hflushing
  · split
    · rename_i hn
      split
      · split <;> exact fun _ _ => set_ne_nil hn
      · exact hflushing
    · exact hflushing
  · split
    · rename_i hn
      exact fun _ _ => set_ne_nil hn
    · exact hflushing
  · split
    · rename_i error hn
      unfold PacketUp.finish
      split
      · rename_i hlast
        intro hopen hne
        rcases hlast with rfl | hempty
        · exact absurd (hanswered hn hopen) hne
        · exact absurd hempty hne
      · exact fun _ _ => set_ne_nil hn
    · exact hflushing
  · split
    · split
      · exact hflushing
      · rename_i hclosed
        exact fun hopen => absurd hopen hclosed
    · exact hflushing
  · exact hflushing
  · exact nofun
  · exact hflushing

/-- **The queue is served**, and every send is completed once. -/
theorem packet_up_queue_served (config : Config) {es : List Event}
    (h : RunAll (step config) Answered {} es) :
    Served (run (step config) {} es) := by
  have hstart : Queue {} ∧ Flushing {} := ⟨Queue.start, fun _ hne => absurd rfl hne⟩
  have hstep : ∀ s e, Answered s e → Queue s ∧ Flushing s → Queue (step config s e) ∧
      Flushing (step config s e) :=
    fun s e hanswered hs => ⟨queue_step config e hs.1, flushing_step config hanswered hs.1 hs.2⟩
  obtain ⟨hqueue, hflushing⟩ := run_invariant_of hstep h hstart
  refine ⟨fun hne => ?_, hqueue.completed_le, fun hclosed hpackets hflushes k hk =>
    hqueue.completed_eq hclosed hpackets hflushes hk⟩
  by_cases hopen : (run (step config) {} es).isConnected = true
  · exact .inl (hflushing hopen hne)
  · exact .inr (Bool.not_eq_true _ ▸ hopen)

/-- A write fails, and the client is closed with another send in the queue. -/
theorem packet_up_queue_served_closed :
    Served (run (step {}) {} [.enqueuePacketUpSend [1], .flushPacketUpBatch 0,
      .sendPacketUpHTTP11 0, .enqueuePacketUpSend [2], .post 0 false, .complete 0, .cancel,
      .finish 0, .completePending]) := by
  refine packet_up_queue_served {} ⟨trivial, trivial, trivial, trivial, trivial, trivial, trivial,
    ?_, trivial, trivial⟩
  intro _ hopen
  cases hopen

/-- A flush fails while another send is in the queue. -/
def failingFlush : List Event :=
  [.enqueuePacketUpSend [1], .flushPacketUpBatch 0, .sendPacketUpHTTP11 0, .enqueuePacketUpSend [2],
    .post 0 false, .complete 0, .finish 0]

theorem send_left_waiting : ¬ Served (run (step {}) {} failingFlush) := by
  intro h
  exact absurd (h.served (by decide)) (by decide)

end Anywhere.Xhttp
