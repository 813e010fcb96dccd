import Mathlib.Data.List.Nodup
import Anywhere.Xhttp.Posts

/-!
# Anywhere — `XHttpClient`: the bodies of packet-up mode

A batch is limited by what it sums up, but its first send may be larger than the limit on its own.
Over HTTP/1.1 `sendPacketUpHTTP11` cuts it up again. Over HTTP/2 `sendH2PacketUp` sends the whole
batch as the DATA frames of one request, over as many windows as it takes.

The machine is that of `PacketUp.lean`, with `sendH2PacketUp` in its steps. The windows and the
frame size are what the peer makes of them: a step has any.

* `dataFrames` — the frames one window takes.
* `stepUplink` — the machine.
* `Small` — the sends that cannot make a body too large.
* `Tracked`, `tracked_step` — the data in the bodies, in a batch and in the queue is what was sent.
* `packet_up_post_size` — in a run of such sends.
* `post_too_large` — a send over HTTP/2 that is larger than the limit.
-/

namespace Anywhere.Xhttp

open Lib List

-- ----
-- The requests over HTTP/2

structure DataFrame where
  payload : Bytes
  endStream : Bool

/-- A request: its HEADERS, with `contentLength`, and its DATA frames so far. -/
structure Request where
  streamId : UInt32
  seq : Nat
  contentLength : Nat
  frames : List DataFrame

def Request.body (request : Request) : Bytes := request.frames.flatMap DataFrame.payload

/-- Where `sendH2PacketUp` is, behind its critical section. -/
structure Transfer where
  request : Request
  rest : Bytes
  /-- In `downloadSend`. -/
  writing : Bool

structure Uplink where
  client : PacketUp := {}
  h2NextPacketStreamId : UInt32 := 3
  requests : List Request := []
  transfer : Option Transfer := none

inductive UplinkEvent
  /-- What goes on beside `sendH2PacketUp`. -/
  | client (e : Event)
  /-- The critical section of `sendH2PacketUp`. -/
  | sendH2PacketUp (n : Nat) (maxSize window : Int)
  /-- The critical section of `sendH2PacketUpData`. -/
  | sendH2PacketUpData (n : Nat) (maxSize window : Int)
  /-- `downloadSend` or `awaitH2FlowResumption` ends. -/
  | resume (n : Nat) (succeeds : Bool)

/-- The loop of `sendH2PacketUp` and `sendH2PacketUpData`: the frames, and what does not go out. -/
def dataFrames (maxSize windowRemaining : Int) (rest : Bytes) : List DataFrame × Bytes :=
  if rest = [] then ([], [])
  else
    let chunkSize := min (rest.length : Int) (min maxSize windowRemaining)
    if chunkSize ≤ 0 then ([], rest)
    else
      let more := dataFrames maxSize (windowRemaining - chunkSize) (rest.drop chunkSize.toNat)
      (⟨rest.take chunkSize.toNat, decide ((rest.length : Int) ≤ chunkSize)⟩ :: more.1, more.2)
termination_by rest.length
decreasing_by
  rename_i hrest hchunk
  have hpos := length_pos_of_ne_nil hrest
  rw [length_drop]
  omega

namespace Uplink

/-- `sendH2PacketUp` ends. -/
def endTransfer (config : Config) (n : Nat) (succeeds : Bool) (s : Uplink) : Uplink :=
  { s with
    client := step config s.client (.sendH2PacketUp n succeeds)
    requests := s.requests ++ s.transfer.toList.map Transfer.request
    transfer := none }

/-- The critical section of `sendH2PacketUp`. -/
def sendH2PacketUp (config : Config) (n : Nat) (maxSize window : Int) (data : Bytes) (seq : Nat)
    (s : Uplink) :
    Uplink :=
  if s.client.h2StreamClosed then s.endTransfer config n false
  else
    let outbound := dataFrames maxSize window data
    { s with
      h2NextPacketStreamId := s.h2NextPacketStreamId + 2
      transfer := some ⟨⟨s.h2NextPacketStreamId, seq, data.length, outbound.1⟩, outbound.2, true⟩ }

/-- The critical section of `sendH2PacketUpData`; without a window there is no frame, and it
waits. -/
def sendH2PacketUpData (config : Config) (n : Nat) (maxSize window : Int) (transfer : Transfer)
    (s : Uplink) :
    Uplink :=
  if s.client.h2StreamClosed then s.endTransfer config n false
  else
    let frames := dataFrames maxSize window transfer.rest
    if frames.1 = [] then s
    else
      let request := { transfer.request with frames := transfer.request.frames ++ frames.1 }
      { s with transfer := some ⟨request, frames.2, true⟩ }

/-- Behind `downloadSend` and `awaitH2FlowResumption`. -/
def resume (config : Config) (n : Nat) (succeeds : Bool) (transfer : Transfer)
    (s : Uplink) : Uplink :=
  if ¬ succeeds then s.endTransfer config n false
  else if transfer.rest = [] then s.endTransfer config n true
  else { s with transfer := some { transfer with writing := false } }

def bodies (s : Uplink) : List Bytes :=
  s.client.wire.map Post.body ++ s.requests.map Request.body ++
    s.transfer.toList.map fun transfer => transfer.request.body

end Uplink

/-- One step; an event that does not apply changes nothing. -/
def stepUplink (config : Config) (s : Uplink) : UplinkEvent → Uplink
  | .client (.sendH2PacketUp _ _) => s
  | .client e => { s with client := step config s.client e }
  | .sendH2PacketUp n maxSize window =>
    match s.client.flushes[n]?, s.transfer with
    | some (.opening _ data seq), none => if config.useHTTP2 then
        s.sendH2PacketUp config n maxSize window data seq else s
    | _, _ => s
  | .sendH2PacketUpData n maxSize window =>
    match s.client.flushes[n]?, s.transfer with
    | some (.opening _ _ _), some transfer =>
      if transfer.writing then s else s.sendH2PacketUpData config n maxSize window transfer
    | _, _ => s
  | .resume n succeeds =>
    match s.client.flushes[n]?, s.transfer with
    | some (.opening _ _ _), some transfer => s.resume config n succeeds transfer
    | _, _ => s

-- ----
-- What the bodies are to be

/-- The deferreds a flush is to complete with an exception. -/
def Flush.failing : Flush → List Nat
  | .sent completions true => completions
  | _ => []

/-- Some send has got an exception, or is to get one. -/
def Failed (s : PacketUp) : Prop :=
  ∃ id, id ∈ s.pendingPackets ∨ (id, false) ∈ s.completed ∨ id ∈ s.flushes.flatMap Flush.failing

/-- No body is larger than `scMaxEachPostBytes`. As long as no send has failed, the bodies are what
was sent as far as they go, and all of it when every send is completed. -/
structure Delivered (config : Config) (s : Uplink) : Prop where
  size : ∀ body ∈ s.bodies, (body.length : Int) ≤ config.scMaxEachPostBytes
  begins : ¬ Failed s.client → s.bodies.flatten <+: s.client.enqueued.flatten
  whole : (∀ id < s.client.enqueued.length, (id, true) ∈ s.client.completed) →
    s.bodies.flatten = s.client.enqueued.flatten

/-- Over HTTP/2, data that is not larger than the limit; over HTTP/1.1 any data, if there is a limit
to cut it by and the data is placed in the body. -/
def Small (config : Config) (data : Bytes) : Prop :=
  if config.useHTTP2 then (data.length : Int) ≤ config.scMaxEachPostBytes
  else data ≠ [] → config.uplinkDataPlacement = .body ∧ 1 ≤ config.scMaxEachPostBytes

/-- The steps in which no send is queued but a small one. -/
def Within (config : Config) (s : Uplink) : UplinkEvent → Prop
  | .client (.enqueuePacketUpSend data) => ¬ s.client.refuses config → Small config data
  | _ => True

-- ----
-- Batches and frames

theorem merged_cons (head : Bytes × Nat) (queue : List (Bytes × Nat)) :
    merged (head :: queue) = head.1 ++ merged queue := flatMap_cons

/-- Behind the first send a batch does not grow over the limit. -/
theorem length_collectMore (maxSize size : Nat) (queue : List (Bytes × Nat)) :
    size + (merged (collectMore maxSize size queue).1).length ≤ max size maxSize := by
  induction queue generalizing size with
  | nil => exact Nat.le_max_left _ _
  | cons head queue ih =>
    unfold collectMore
    split
    · exact Nat.le_max_left _ _
    · rename_i hfits
      have hmore := ih (size + head.1.length)
      dsimp only
      rw [merged_cons, length_append]
      omega

theorem length_collect (maxSize : Nat) (head : Bytes × Nat) (queue : List (Bytes × Nat)) :
    (merged (collect maxSize (head :: queue)).1).length ≤ max head.1.length maxSize := by
  have hmore := length_collectMore maxSize head.1.length queue
  unfold collect
  dsimp only
  rw [merged_cons, length_append]
  exact hmore

variable {queue : List (Bytes × Nat)}

theorem mem_collect {maxSize : Nat} {item : Bytes × Nat} :
    item ∈ queue ↔ item ∈ (collect maxSize queue).1 ∨ item ∈ (collect maxSize queue).2 := by
  rw [← mem_append, collect_append]

theorem collect_ne_nil {maxSize : Nat} (h : queue ≠ []) :
    (collect maxSize queue).1 ≠ [] := by
  rcases queue with _ | ⟨head, queue⟩
  · exact absurd rfl h
  · exact cons_ne_nil _ _

variable {config : Config}

/-- **A batch of small sends is small.** -/
theorem small_merged (hsends : ∀ item ∈ queue, Small config item.1)
    (hne : queue ≠ []) : Small config (merged (collect config.maxSize queue).1) := by
  have hbatch : ∀ item ∈ (collect config.maxSize queue).1, Small config item.1 :=
    fun item hitem => hsends item (mem_collect.2 (.inl hitem))
  unfold Small at hsends hbatch ⊢
  split
  · rename_i hHTTP
    simp only [hHTTP, if_true] at hsends hbatch
    rcases queue with _ | ⟨head, queue⟩
    · exact absurd rfl hne
    · have hhead := hsends head mem_cons_self
      have hlength := length_collect config.maxSize head queue
      by_cases hlimit : 1 ≤ config.scMaxEachPostBytes
      · unfold Config.maxSize at hlength ⊢
        omega
      · -- every send of the batch is empty
        have hempty : merged (collect config.maxSize (head :: queue)).1 = [] := by
          rw [merged, flatMap_eq_nil_iff]
          intro item hitem
          have hitem := hbatch item hitem
          exact length_eq_zero_iff.mp (by omega)
        rw [hempty, length_nil]
        omega
  · rename_i hHTTP
    simp only [hHTTP] at hbatch
    intro hdata
    rw [merged, Ne, flatMap_eq_nil_iff, not_forall] at hdata
    obtain ⟨item, hitem⟩ := hdata
    rw [Classical.not_imp] at hitem
    exact hbatch item hitem.1 hitem.2

theorem dataFrames_append (maxSize window : Int) (rest : Bytes) :
    (dataFrames maxSize window rest).1.flatMap DataFrame.payload ++
      (dataFrames maxSize window rest).2 = rest := by
  induction window, rest using dataFrames.induct maxSize with
  | case1 window =>
    unfold dataFrames
    rfl
  | case2 window rest hrest chunkSize hchunk =>
    unfold dataFrames
    rw [if_neg hrest]
    dsimp only
    rw [if_pos hchunk]
    rfl
  | case3 window rest hrest chunkSize hchunk ih =>
    unfold dataFrames
    rw [if_neg hrest]
    dsimp only
    rw [if_neg hchunk]
    dsimp only
    rw [flatMap_cons, append_assoc, ih, take_append_drop]

variable {maxSize window : Int}

theorem dataFrames_one {rest : Bytes} (hrest : rest ≠ []) (hmax : (rest.length : Int) ≤ maxSize)
    (hwindow : (rest.length : Int) ≤ window) :
    dataFrames maxSize window rest = ([⟨rest, true⟩], []) := by
  have hpos := length_pos_of_ne_nil hrest
  have hchunk : min (rest.length : Int) (min maxSize window) = rest.length := by omega
  unfold dataFrames
  rw [if_neg hrest]
  dsimp only
  rw [hchunk, if_neg (by omega), Int.toNat_natCast, drop_length, take_length]
  unfold dataFrames
  rw [if_pos rfl, decide_eq_true (Int.le_refl _)]

-- ----
-- The client

/-- A batch is not empty and is small, and what is cut up is over HTTP/1.1. -/
def Flush.Ready (config : Config) : Flush → Prop
  | .opening completions data _ => completions ≠ [] ∧ Small config data
  | .posting completions rest _ => completions ≠ [] ∧ rest ≠ [] ∧ Small config rest ∧
      config.useHTTP2 = false
  | .numbering completions rest => completions ≠ [] ∧ rest ≠ [] ∧ Small config rest ∧
      config.useHTTP2 = false
  | _ => True

/-- With `carried` in the bodies, all that was sent is there, unless a send has failed. -/
structure Tracked (config : Config) (carried : Bytes) (s : PacketUp) : Prop where
  queue : Queue s
  sends : ∀ item ∈ s.packetUpQueue, Small config item.1
  ready : ∀ flush ∈ s.flushes, flush.Ready config
  data : Failed s ∨ carried ++ s.flushes.flatMap Flush.rest ++ merged s.packetUpQueue =
    s.enqueued.flatten

variable {completions : List Nat} {s : PacketUp}

theorem failed_of_flush {n : Nat} (hn : s.flushes[n]? = some (.sent completions true))
    (hsome : completions ≠ []) : Failed s := by
  obtain ⟨id, hid⟩ := exists_mem_of_ne_nil _ hsome
  exact ⟨id, .inr (.inr (mem_flatMap.mpr ⟨_, List.mem_of_getElem? hn, hid⟩))⟩

/-- Nothing is taken off what has failed; a flush that is about to complete its deferreds with an
exception may do so. -/
theorem Failed.imp {t : PacketUp} (h : Failed s)
    (hpending : ∀ id ∈ s.pendingPackets, id ∈ t.pendingPackets ∨ (id, false) ∈ t.completed)
    (hcompleted : ∀ id, (id, false) ∈ s.completed → (id, false) ∈ t.completed)
    (hflushes : ∀ id ∈ s.flushes.flatMap Flush.failing,
      (id, false) ∈ t.completed ∨ id ∈ t.flushes.flatMap Flush.failing) : Failed t := by
  obtain ⟨id, hid⟩ := h
  refine ⟨id, ?_⟩
  rcases hid with hid | hid | hid
  · rcases hpending id hid with hsame | hdone
    · exact .inl hsame
    · exact .inr (.inl hdone)
  · exact .inr (.inl (hcompleted id hid))
  · exact .inr (hflushes id hid)

variable {data : Bytes} {succeeds : Bool}

namespace Tracked

variable {config : Config} {carried carried' : Bytes} {s t : PacketUp} {n seq : Nat}
    {flush flush' : Flush}
  {completions : List Nat} {rest : Bytes}

theorem start : Tracked config [] {} where
  queue := Queue.start
  sends := fun _ hitem => absurd hitem not_mem_nil
  ready := fun _ hflush => absurd hflush not_mem_nil
  data := .inr rfl

theorem ready_of (h : Tracked config carried s) (hn : s.flushes[n]? = some flush) :
    flush.Ready config :=
  h.ready flush (List.mem_of_getElem? hn)

theorem moves (h : Tracked config carried s) (hqueue : Queue t) (hn : s.flushes[n]? = some flush)
    (hflushes : t.flushes = s.flushes.set n flush') (hsends : ∀ item ∈ t.packetUpQueue,
      item ∈ s.packetUpQueue)
    (hpackets : t.pendingPackets = s.pendingPackets) (hcompleted : s.completed ⊆ t.completed)
    (henqueued : t.enqueued = s.enqueued) (hready : flush'.Ready config)
    (hfailing : ∀ id ∈ flush.failing, (id, false) ∈ t.completed)
    (hdata : Failed t ∨ carried' ++ flush'.rest ++ merged t.packetUpQueue =
      carried ++ flush.rest ++ merged s.packetUpQueue) : Tracked config carried' t := by
  obtain ⟨hone, -⟩ := h.queue.only hn
  rw [h.queue.setFlush_eq hn] at hflushes
  refine ⟨hqueue, fun item hitem => h.sends item (hsends item hitem), ?_, ?_⟩
  · intro flush hflush
    rw [hflushes, mem_singleton] at hflush
    rw [hflush]
    exact hready
  · rcases hdata with hfailed | hsame
    · exact .inl hfailed
    · rcases h.data with hfailed | hall
      · refine .inl (hfailed.imp (fun id hid => .inl (hpackets ▸ hid))
          (fun id hid => hcompleted hid) ?_)
        rw [hone, flatMap_singleton]
        exact fun id hid => .inl (hfailing id hid)
      · rw [hone, flatMap_singleton] at hall
        rw [hflushes, flatMap_singleton, henqueued, hsame]
        exact .inr hall

theorem ends (h : Tracked config carried s) (hqueue : Queue t) (hn : s.flushes[n]? = some flush)
    (hrest : flush.rest = []) (hfailing : flush.failing = [])
    (hflushes : t.flushes = s.flushes.eraseIdx n) (hsends : ∀ item ∈ t.packetUpQueue,
      item ∈ s.packetUpQueue) (hpackets : t.pendingPackets = s.pendingPackets)
    (hcompleted : s.completed ⊆ t.completed) (henqueued : t.enqueued = s.enqueued)
    (hdata : Failed t ∨ merged t.packetUpQueue = merged s.packetUpQueue) :
    Tracked config carried t := by
  obtain ⟨hone, -⟩ := h.queue.only hn
  rw [h.queue.endFlush_eq hn] at hflushes
  refine ⟨hqueue, fun item hitem => h.sends item (hsends item hitem), ?_, ?_⟩
  · rw [hflushes]
    exact fun _ hflush => absurd hflush not_mem_nil
  · rcases hdata with hfailed | hsame
    · exact .inl hfailed
    · rcases h.data with hfailed | hall
      · refine .inl (hfailed.imp (fun id hid => .inl (hpackets ▸ hid))
          (fun id hid => hcompleted hid) ?_)
        rw [hone, flatMap_singleton, hfailing]
        exact fun _ hid => absurd hid not_mem_nil
      · rw [hone, flatMap_singleton, hrest] at hall
        rw [hflushes, henqueued, hsame]
        exact .inr hall

theorem enqueuePacketUpSend (h : Tracked config carried s)
    (hsmall : ¬ s.refuses config → Small config data) :
    Tracked config carried (s.enqueuePacketUpSend config data) := by
  have hqueue := h.queue.enqueuePacketUpSend config data
  unfold PacketUp.enqueuePacketUpSend at hqueue ⊢
  split
  · exact h
  · rename_i hrefuses
    rw [if_neg hrefuses] at hqueue
    refine ⟨hqueue, ?_, ?_, ?_⟩
    · intro item hitem
      rcases mem_append.mp hitem with hold | hnew
      · exact h.sends item hold
      · rw [mem_singleton.mp hnew]
        exact hsmall hrefuses
    · intro flush hflush
      dsimp only at hflush
      split at hflush
      · exact h.ready flush hflush
      · rcases mem_append.mp hflush with hold | hnew
        · exact h.ready flush hold
        · rw [mem_singleton.mp hnew]
          exact trivial
    · rcases h.data with hfailed | hall
      · refine .inl (hfailed.imp (fun _ hid => .inl hid) (fun _ hid => hid) fun id hid => .inr ?_)
        dsimp only
        split
        · exact hid
        · rw [flatMap_append]
          exact mem_append_left _ hid
      · refine .inr ?_
        have hrests : (if s.packetUpFlushPending then s.flushes
            else s.flushes ++ [Flush.scheduled]).flatMap Flush.rest =
            s.flushes.flatMap Flush.rest := by
          split
          · rfl
          · rw [flatMap_append, flatMap_singleton]
            exact append_nil _
        dsimp only
        rw [hrests, flatten_append, ← hall, merged, flatMap_append, flatMap_singleton,
          flatten_singleton, ← append_assoc]
        rfl

theorem flushPacketUpBatch (h : Tracked config carried s) (hn : s.flushes[n]? = some .scheduled) :
    Tracked config carried (s.flushPacketUpBatch config n) := by
  have hqueue := h.queue.flushPacketUpBatch config hn
  unfold PacketUp.flushPacketUpBatch at hqueue ⊢
  split
  · rename_i hrefuses
    rw [if_pos hrefuses] at hqueue
    refine h.ends hqueue hn rfl rfl rfl (fun _ hitem => absurd hitem not_mem_nil) rfl
      (subset_append_left _ _) rfl ?_
    rcases hsends : s.packetUpQueue with _ | ⟨head, sends⟩
    · exact .inr rfl
    · refine .inl ⟨head.2, .inr (.inl (mem_append_right _ ?_))⟩
      exact mem_cons_self
  · rename_i hrefuses
    rw [if_neg hrefuses] at hqueue
    split
    · rename_i hempty
      rw [if_pos hempty] at hqueue
      exact h.ends hqueue hn rfl rfl rfl (fun _ hitem => hitem) rfl
        (List.Subset.refl _) rfl (.inr rfl)
    · rename_i hnonempty
      rw [if_neg hnonempty] at hqueue
      refine h.moves hqueue hn rfl (fun item hitem => mem_collect.2 (.inr hitem)) rfl
        (List.Subset.refl _) rfl ?_
        (fun _ hid => absurd hid not_mem_nil) (.inr ?_)
      · refine ⟨?_, small_merged h.sends hnonempty⟩
        rw [Ne, map_eq_nil_iff]
        exact collect_ne_nil hnonempty
      · have hbatch : merged (collect config.maxSize s.packetUpQueue).1 ++
            merged (collect config.maxSize s.packetUpQueue).2 = merged s.packetUpQueue := by
          unfold merged
          rw [← flatMap_append, collect_append]
        show carried ++ merged (collect config.maxSize s.packetUpQueue).1 ++
          merged (collect config.maxSize s.packetUpQueue).2 = carried ++ [] ++
            merged s.packetUpQueue
        rw [append_assoc, hbatch, append_nil]

theorem fails (h : Tracked config carried s) (hqueue : Queue t) (hn : s.flushes[n]? = some flush)
    (hsome : flush.completions ≠ []) (hfailing : flush.failing = [])
    (hflushes : t.flushes = s.flushes.set n (Flush.sent flush.completions true))
    (hsends : t.packetUpQueue = s.packetUpQueue) (hpackets : t.pendingPackets = s.pendingPackets)
    (hcompleted : t.completed = s.completed) (henqueued : t.enqueued = s.enqueued) :
    Tracked config carried' t := by
  have hsent : t.flushes[0]? = some (Flush.sent flush.completions true) := by
    rw [hflushes, h.queue.setFlush_eq hn]
    rfl
  refine h.moves hqueue hn hflushes (fun _ hitem => hsends ▸ hitem) hpackets
    (fun _ hid => hcompleted ▸ hid) henqueued
    trivial ?_ (.inl (failed_of_flush hsent hsome))
  rw [hfailing]
  exact fun _ hid => absurd hid not_mem_nil

theorem cancel (h : Tracked config carried s) : Tracked config carried s.cancel where
  queue := h.queue.cancel
  sends := fun _ hitem => absurd hitem not_mem_nil
  ready := h.ready
  data := by
    rcases h.data with hfailed | hall
    · exact .inl (hfailed.imp (fun _ hid => .inl (mem_append_left _ hid)) (fun _ hid => hid)
        fun _ hid => .inr hid)
    · rcases hsends : s.packetUpQueue with _ | ⟨head, sends⟩
      · rw [hsends] at hall
        exact .inr hall
      · refine .inl ⟨head.2, .inl ?_⟩
        show head.2 ∈ s.pendingPackets ++ s.packetUpQueue.map Prod.snd
        rw [hsends]
        exact mem_append_right _ mem_cons_self

theorem completePending (h : Tracked config carried s) : Tracked config carried
    { s with
      pendingPackets := []
      completed := s.completed ++ s.pendingPackets.map fun id => (id, false) } where
  queue := h.queue.completePending
  sends := h.sends
  ready := h.ready
  data := by
    rcases h.data with hfailed | hall
    · refine .inl (hfailed.imp (fun id hid => .inr ?_) (fun _ hid => mem_append_left _ hid)
        fun _ hid => .inr hid)
      exact mem_append_right _ (mem_map_of_mem hid)
    · exact .inr hall

theorem sendPacketUpHTTP11 (h : Tracked config carried s)
    (hqueue : Queue (step config s (.sendPacketUpHTTP11 n))) :
    Tracked config carried (step config s (.sendPacketUpHTTP11 n)) := by
  dsimp only [step] at hqueue ⊢
  split
  · rename_i completions data seq hn
    rw [hn] at hqueue
    dsimp only at hqueue
    have hready := h.ready_of hn
    split
    · exact h
    · rename_i hHTTP
      rw [if_neg hHTTP] at hqueue
      split
      · rename_i hupload
        rw [if_pos hupload] at hqueue
        exact h.fails hqueue hn hready.1 rfl rfl rfl rfl rfl rfl
      · rename_i hupload
        rw [if_neg hupload] at hqueue
        split
        · rename_i hempty
          rw [if_pos hempty] at hqueue
          subst hempty
          exact h.moves hqueue hn rfl (fun _ hitem => hitem) rfl (List.Subset.refl _) rfl trivial
            (fun _ hid => absurd hid not_mem_nil) (.inr rfl)
        · rename_i hdata
          rw [if_neg hdata] at hqueue
          exact h.moves hqueue hn rfl (fun _ hitem => hitem) rfl (List.Subset.refl _) rfl
            ⟨hready.1, hdata, hready.2, Bool.not_eq_true _ ▸ hHTTP⟩
              (fun _ hid => absurd hid not_mem_nil) (.inr rfl)
  · exact h

/-- The part of a batch that goes into a POST is its body, and is not too large. -/
theorem body_take (hHTTP : config.useHTTP2 = false) (hrest : rest ≠ [])
    (hsmall : Small config rest) :
    (sendSinglePost config (rest.take config.maxSize) seq).body = rest.take config.maxSize ∧
      ((rest.take config.maxSize).length : Int) ≤ config.scMaxEachPostBytes := by
  unfold Small at hsmall
  rw [hHTTP] at hsmall
  obtain ⟨hbody, hlimit⟩ := hsmall hrest
  refine ⟨if_neg (not_not_intro hbody), ?_⟩
  have hlength := length_take_le config.maxSize rest
  unfold Config.maxSize at hlength ⊢
  omega

theorem posted (h : Tracked config carried s)
    (hqueue : Queue (s.posted config n completions rest seq))
    (hn : s.flushes[n]? = some (.posting completions rest seq)) :
    Tracked config (carried ++ (sendSinglePost config (rest.take config.maxSize) seq).body)
      (s.posted config n completions rest seq) := by
  obtain ⟨hsome, hrest, hsmall, hHTTP⟩ := h.ready_of hn
  rw [(body_take hHTTP hrest hsmall).1]
  unfold PacketUp.posted at hqueue ⊢
  dsimp only at hqueue ⊢
  refine h.moves hqueue hn rfl (fun _ hitem => hitem) rfl (List.Subset.refl _) rfl ?_
    (fun _ hid => absurd hid not_mem_nil) (.inr ?_)
  · split
    · exact trivial
    · rename_i hnext
      refine ⟨hsome, hnext, ?_, hHTTP⟩
      unfold Small at hsmall ⊢
      rw [hHTTP] at hsmall ⊢
      exact fun _ => hsmall hrest
  · have hleft : ∀ next, next = rest.drop config.maxSize →
        (if next = [] then Flush.sent completions false else .numbering completions next).rest =
          next := by
      intro next _
      split
      · rename_i hempty
        exact hempty.symm
      · rfl
    show carried ++ rest.take config.maxSize ++ _ ++ _ = carried ++ rest ++ _
    rw [hleft _ rfl, append_assoc carried, take_append_drop]
    rfl

theorem complete (h : Tracked config carried s) {error : Bool}
    (hn : s.flushes[n]? = some (.sent completions error)) :
    Tracked config carried
      ({ s with completed := s.completed ++ completions.map fun id => (id, !error) }.setFlush n
        (.finishing error)) := by
  refine h.moves (h.queue.complete hn) hn rfl (fun _ hitem => hitem) rfl
    (subset_append_left _ _) rfl trivial ?_
    (.inr rfl)
  intro id hid
  rcases error with _ | _
  · exact absurd hid not_mem_nil
  · exact mem_append_right _ (mem_map_of_mem hid)

theorem finish (h : Tracked config carried s) {error : Bool}
    (hn : s.flushes[n]? = some (.finishing error)) :
    Tracked config carried (s.finish n error) := by
  have hqueue := h.queue.finish hn
  unfold PacketUp.finish at hqueue ⊢
  split
  · rename_i hlast
    rw [if_pos hlast] at hqueue
    exact h.ends hqueue hn rfl rfl rfl (fun _ hitem => hitem) rfl
      (List.Subset.refl _) rfl (.inr rfl)
  · rename_i hmore
    rw [if_neg hmore] at hqueue
    exact h.moves hqueue hn rfl (fun _ hitem => hitem) rfl (List.Subset.refl _) rfl trivial
      (fun _ hid => absurd hid not_mem_nil) (.inr rfl)

/-- `sendH2PacketUp` ends, and the batch is in the bodies unless it fails. -/
theorem sendH2PacketUp (h : Tracked config carried s) (hHTTP : config.useHTTP2 = true)
    (hn : s.flushes[n]? = some (.opening completions data seq))
    (hcarried : succeeds = true → carried' = carried ++ data) :
    Tracked config carried' (step config s (.sendH2PacketUp n succeeds)) := by
  have hqueue := queue_step config (.sendH2PacketUp n succeeds) h.queue
  have hready := h.ready_of hn
  dsimp only [step] at hqueue ⊢
  rw [hn] at hqueue ⊢
  dsimp only at hqueue ⊢
  rw [if_pos hHTTP] at hqueue ⊢
  split
  · rename_i hsucceeds
    rw [if_pos hsucceeds] at hqueue
    refine h.moves hqueue hn rfl (fun _ hitem => hitem) rfl (List.Subset.refl _) rfl trivial
      (fun _ hid => absurd hid not_mem_nil) (.inr ?_)
    rw [hcarried hsucceeds]
    show carried ++ data ++ [] ++ _ = carried ++ data ++ _
    rw [append_nil]
    rfl
  · rename_i hfails
    rw [if_neg hfails] at hqueue
    exact h.fails hqueue hn hready.1 rfl rfl rfl rfl rfl rfl

end Tracked

/-- **A step of the client keeps what was sent**, and the POSTs it adds are not too large. -/
theorem tracked_step {carried : Bytes} {e : Event}
    (hsmall : ∀ data, e = .enqueuePacketUpSend data → ¬ s.refuses config → Small config data)
    (hH2 : ∀ n succeeds, e ≠ .sendH2PacketUp n succeeds) (h : Tracked config carried s) :
    ∃ posts : List Post, (step config s e).wire = s.wire ++ posts ∧
      Tracked config (carried ++ posts.flatMap Post.body) (step config s e) ∧
      (∀ post ∈ posts, (post.body.length : Int) ≤ config.scMaxEachPostBytes) ∧
      (config.useHTTP2 = true → posts = []) := by
  have hqueue := queue_step config e h.queue
  have hnone : ∀ {t : PacketUp}, t.wire = s.wire → Tracked config carried t →
      ∃ posts : List Post, t.wire = s.wire ++ posts ∧
        Tracked config (carried ++ posts.flatMap Post.body) t ∧
        (∀ post ∈ posts, (post.body.length : Int) ≤ config.scMaxEachPostBytes) ∧
        (config.useHTTP2 = true → posts = []) := by
    intro t hwire ht
    refine ⟨[], by rw [hwire, append_nil], ?_, fun _ hpost => absurd hpost not_mem_nil,
      fun _ => rfl⟩
    rwa [flatMap_nil, append_nil]
  rcases e with data | n | n | ⟨n, succeeds⟩ | n | ⟨n, succeeds⟩ | n | n | n | _ | _ | _
  · refine hnone ?_ (h.enqueuePacketUpSend (hsmall data rfl))
    dsimp only [step]
    unfold PacketUp.enqueuePacketUpSend
    split <;> rfl
  · dsimp only [step]
    split
    · rename_i hn
      refine hnone ?_ (h.flushPacketUpBatch hn)
      unfold PacketUp.flushPacketUpBatch
      split
      · rfl
      · split <;> rfl
    · exact hnone rfl h
  · refine hnone ?_ (h.sendPacketUpHTTP11 hqueue)
    dsimp only [step]
    split
    · split
      · rfl
      · split
        · rfl
        · split <;> rfl
    · rfl
  · dsimp only [step] at hqueue ⊢
    split
    · rename_i completions rest seq hn
      rw [hn] at hqueue
      dsimp only at hqueue
      have hready := h.ready_of hn
      split
      · rename_i hsucceeds
        rw [if_pos hsucceeds] at hqueue
        refine ⟨[sendSinglePost config (rest.take config.maxSize) seq], rfl, ?_, ?_, ?_⟩
        · rw [flatMap_singleton]
          exact h.posted hqueue hn
        · intro post hpost
          obtain ⟨hbody, hlength⟩ := @Tracked.body_take _ seq _ hready.2.2.2 hready.2.1 hready.2.2.1
          rw [mem_singleton.mp hpost, hbody]
          exact hlength
        · intro hHTTP
          exact absurd (hHTTP.symm.trans hready.2.2.2) nofun
      · rename_i hfails
        rw [if_neg hfails] at hqueue
        exact hnone rfl (h.fails hqueue hn hready.1 rfl rfl rfl rfl rfl rfl)
    · exact hnone rfl h
  · dsimp only [step] at hqueue ⊢
    split
    · rename_i completions rest hn
      rw [hn] at hqueue
      have hready := h.ready_of hn
      exact hnone rfl (h.moves hqueue hn rfl (fun _ hitem => hitem) rfl
        (List.Subset.refl _) rfl hready (fun _ hid => absurd hid not_mem_nil) (.inr rfl))
    · exact hnone rfl h
  · exact absurd rfl (hH2 n succeeds)
  · dsimp only [step]
    split
    · rename_i hn
      exact hnone rfl (h.complete hn)
    · exact hnone rfl h
  · dsimp only [step]
    split
    · rename_i error hn
      refine hnone ?_ (h.finish hn)
      unfold PacketUp.finish
      split <;> rfl
    · exact hnone rfl h
  · dsimp only [step] at hqueue ⊢
    split
    · rename_i hn
      rw [hn] at hqueue
      dsimp only at hqueue
      split
      · exact hnone rfl h
      · rename_i hclosed
        rw [if_neg hclosed] at hqueue
        exact hnone rfl
          (h.ends hqueue hn rfl rfl rfl (fun _ hitem => hitem) rfl
            (List.Subset.refl _) rfl (.inr rfl))
    · exact hnone rfl h
  · exact hnone rfl ⟨hqueue, h.sends, h.ready, h.data⟩
  · exact hnone rfl h.cancel
  · exact hnone rfl h.completePending

variable {seq : Nat}

/-- A batch that goes out over HTTP/2 stays with its flush. -/
theorem opening_stays {e : Event}
    (hHTTP : config.useHTTP2 = true) (hqueue : Queue s)
    (hflushes : s.flushes = [.opening completions data seq])
    (hH2 : ∀ n succeeds, e ≠ .sendH2PacketUp n succeeds) :
    (step config s e).flushes = [.opening completions data seq] := by
  have hat : ∀ (n : Nat) (flush : Flush), s.flushes[n]? = some flush →
      flush = Flush.opening completions data seq := by
    intro n flush hn
    obtain ⟨hone, -⟩ := hqueue.only hn
    exact (List.cons.inj (hone.symm.trans hflushes)).1
  rcases e with bytes | n | n | ⟨n, succeeds⟩ | n | ⟨n, succeeds⟩ | n | n | n | _ | _ | _ <;>
    dsimp only [step]
  · unfold PacketUp.enqueuePacketUpSend
    split
    · exact hflushes
    · rename_i hrefuses
      have hpending := hqueue.live (PacketUp.isConnected_of_not_refuses hrefuses)
        (by rw [hflushes]; exact cons_ne_nil _ _)
      dsimp only
      rw [if_pos hpending]
      exact hflushes
  · split
    · rename_i hn
      cases hat n _ hn
    · exact hflushes
  · split
    · rw [if_pos hHTTP]
      exact hflushes
    · exact hflushes
  · split
    · rename_i hn
      cases hat n _ hn
    · exact hflushes
  · split
    · rename_i hn
      cases hat n _ hn
    · exact hflushes
  · exact absurd rfl (hH2 n succeeds)
  · split
    · rename_i hn
      cases hat n _ hn
    · exact hflushes
  · split
    · rename_i hn
      cases hat n _ hn
    · exact hflushes
  · split
    · rename_i hn
      cases hat n _ hn
    · exact hflushes
  · exact hflushes
  · exact hflushes
  · exact hflushes

-- ----
-- The requests

def Uplink.carried (s : Uplink) : Bytes :=
  s.client.wire.flatMap Post.body ++ s.requests.flatMap Request.body

/-- `transfer` sends the batch of the one flush. -/
structure Sends (config : Config) (s : PacketUp) (transfer : Transfer) : Prop where
  http2 : config.useHTTP2 = true
  batch : ∃ completions data seq, s.flushes = [.opening completions data seq] ∧
    transfer.request.body ++ transfer.rest = data

structure Sending (config : Config) (s : Uplink) : Prop where
  tracked : Tracked config s.carried s.client
  posts : ∀ post ∈ s.client.wire, (post.body.length : Int) ≤ config.scMaxEachPostBytes
  ended : ∀ request ∈ s.requests, (request.body.length : Int) ≤ config.scMaxEachPostBytes
  sends : ∀ transfer, s.transfer = some transfer → Sends config s.client transfer
  http2 : s.requests = [] ∨ config.useHTTP2 = true

namespace Sending

variable {config : Config} {s : Uplink} {n : Nat} {transfer : Transfer}

theorem start : Sending config {} where
  tracked := Tracked.start
  posts := fun _ hpost => absurd hpost not_mem_nil
  ended := fun _ hrequest => absurd hrequest not_mem_nil
  sends := nofun
  http2 := .inl rfl

/-- The body that is on its way is a part of a small batch. -/
theorem length_body (h : Sending config s) (ht : s.transfer = some transfer) :
    (transfer.request.body.length : Int) ≤ config.scMaxEachPostBytes := by
  obtain ⟨hHTTP, completions, data, seq, hflushes, hdata⟩ := h.sends transfer ht
  have hready := h.tracked.ready (.opening completions data seq)
    (by rw [hflushes]; exact mem_cons_self)
  have hsmall : Small config data := hready.2
  unfold Small at hsmall
  rw [if_pos hHTTP, ← hdata, length_append] at hsmall
  omega

theorem client (h : Sending config s) {e : Event} (hwithin : Within config s (.client e))
    (hH2 : ∀ n succeeds, e ≠ .sendH2PacketUp n succeeds) :
    Sending config { s with client := step config s.client e } := by
  have hsmall : ∀ data, e = .enqueuePacketUpSend data → ¬ s.client.refuses config →
      Small config data := by
    rintro data rfl
    exact hwithin
  obtain ⟨posts, hwire, htracked, hposts, hnone⟩ := tracked_step hsmall hH2 h.tracked
  refine ⟨?_, ?_, h.ended, ?_, h.http2⟩
  · have hcarried : Uplink.carried { s with client := step config s.client e } =
        s.carried ++ posts.flatMap Post.body := by
      unfold Uplink.carried
      dsimp only
      rw [hwire, flatMap_append]
      rcases h.http2 with hempty | hHTTP
      · rw [hempty, flatMap_nil, append_nil, append_nil]
      · rw [hnone hHTTP, flatMap_nil, append_nil, append_nil]
    rw [hcarried]
    exact htracked
  · intro post hpost
    dsimp only at hpost
    rw [hwire] at hpost
    rcases mem_append.mp hpost with hold | hnew
    · exact h.posts post hold
    · exact hposts post hnew
  · intro transfer ht
    obtain ⟨hHTTP, completions, data, seq, hflushes, hdata⟩ := h.sends transfer ht
    exact ⟨hHTTP, completions, data, seq, opening_stays hHTTP h.tracked.queue hflushes hH2, hdata⟩

theorem goesOn (h : Sending config s) {t : Uplink} (hclient : t.client = s.client)
    (hrequests : t.requests = s.requests) (hsends : ∀ transfer, t.transfer = some transfer →
      Sends config s.client transfer) : Sending config t where
  tracked := by
    unfold Uplink.carried
    rw [hclient, hrequests]
    exact h.tracked
  posts := by
    rw [hclient]
    exact h.posts
  ended := by
    rw [hrequests]
    exact h.ended
  sends := by
    rw [hclient]
    exact hsends
  http2 := by
    rw [hrequests]
    exact h.http2

/-- `sendH2PacketUp` ends, with all of the batch in the frames unless it fails. -/
theorem endTransfer (h : Sending config s)
    (hHTTP : config.useHTTP2 = true)
    (hn : s.client.flushes[n]? = some (.opening completions data seq))
    (hall : succeeds = true → ∃ transfer, s.transfer = some transfer ∧ transfer.rest = []) :
    Sending config (s.endTransfer config n succeeds) := by
  have hwire : (step config s.client (.sendH2PacketUp n succeeds)).wire = s.client.wire := by
    dsimp only [step]
    rw [hn]
    dsimp only
    rw [if_pos hHTTP]
    split <;> rfl
  unfold Uplink.endTransfer
  refine ⟨?_, ?_, ?_, nofun, .inr hHTTP⟩
  · refine h.tracked.sendH2PacketUp hHTTP hn ?_
    intro hsucceeds
    obtain ⟨transfer, ht, hrest⟩ := hall hsucceeds
    obtain ⟨-, completions', data', seq', hflushes, hdata⟩ := h.sends transfer ht
    obtain ⟨hone, -⟩ := h.tracked.queue.only hn
    cases hone.symm.trans hflushes
    rw [hrest, append_nil] at hdata
    unfold Uplink.carried
    dsimp only
    rw [hwire, ht, flatMap_append, ← append_assoc, ← hdata]
    exact congrArg _ (flatMap_singleton _ _)
  · dsimp only
    rw [hwire]
    exact h.posts
  · intro request hrequest
    rcases mem_append.mp hrequest with hold | hnew
    · exact h.ended request hold
    · obtain ⟨transfer, ht, rfl⟩ := mem_map.mp hnew
      exact h.length_body (Option.mem_toList.mp ht)

theorem sendH2PacketUp (h : Sending config s)
    (hHTTP : config.useHTTP2 = true)
    (hn : s.client.flushes[n]? = some (.opening completions data seq)) :
    Sending config (s.sendH2PacketUp config n maxSize window data seq) := by
  unfold Uplink.sendH2PacketUp
  split
  · exact h.endTransfer hHTTP hn nofun
  · refine h.goesOn rfl rfl ?_
    rintro transfer ⟨⟩
    exact ⟨hHTTP, completions, data, seq, (h.tracked.queue.only hn).1,
      dataFrames_append maxSize window data⟩

theorem sendH2PacketUpData (h : Sending config s)
    (hn : s.client.flushes[n]? = some (.opening completions data seq))
    (ht : s.transfer = some transfer) :
    Sending config (s.sendH2PacketUpData config n maxSize window transfer) := by
  obtain ⟨hHTTP, completions', data', seq', hflushes, hdata⟩ := h.sends transfer ht
  unfold Uplink.sendH2PacketUpData
  split
  · exact h.endTransfer hHTTP hn nofun
  · dsimp only
    split
    · exact h
    · refine h.goesOn rfl rfl ?_
      rintro transfer' ⟨⟩
      refine ⟨hHTTP, completions', data', seq', hflushes, ?_⟩
      show (transfer.request.frames ++ _).flatMap DataFrame.payload ++ _ = data'
      rw [flatMap_append, append_assoc, dataFrames_append]
      exact hdata

theorem resume (h : Sending config s)
    (hn : s.client.flushes[n]? = some (.opening completions data seq))
    (ht : s.transfer = some transfer) :
    Sending config (s.resume config n succeeds transfer) := by
  have hsends := h.sends transfer ht
  unfold Uplink.resume
  split
  · exact h.endTransfer hsends.http2 hn nofun
  · split
    · rename_i hrest
      exact h.endTransfer hsends.http2 hn fun _ => ⟨transfer, ht, hrest⟩
    · refine h.goesOn rfl rfl ?_
      rintro transfer' ⟨⟩
      exact ⟨hsends.http2, hsends.batch⟩

end Sending

/-- **A step keeps what the bodies hold.** -/
theorem sending_step {s : Uplink} {e : UplinkEvent} (hwithin : Within config s e)
    (h : Sending config s) : Sending config (stepUplink config s e) := by
  rcases e with e | ⟨n, maxSize, window⟩ | ⟨n, maxSize, window⟩ | ⟨n, succeeds⟩
  · by_cases hH2 : ∃ n succeeds, e = .sendH2PacketUp n succeeds
    · obtain ⟨n, succeeds, rfl⟩ := hH2
      exact h
    · have hclient := h.client hwithin fun n succeeds heq => hH2 ⟨n, succeeds, heq⟩
      rcases e with _ | _ | _ | _ | _ | ⟨n, succeeds⟩ | _ | _ | _ | _ | _ | _ <;> first
        | exact hclient
        | exact absurd ⟨n, succeeds, rfl⟩ hH2
  · dsimp only [stepUplink]
    split
    · rename_i hn ht
      split
      · rename_i hHTTP
        exact h.sendH2PacketUp hHTTP hn
      · exact h
    · exact h
  · dsimp only [stepUplink]
    split
    · rename_i hn ht
      split
      · exact h
      · exact h.sendH2PacketUpData hn ht
    · exact h
  · dsimp only [stepUplink]
    split
    · rename_i hn ht
      exact h.resume hn ht
    · exact h

-- ----
-- Whole runs

/-- The data on the wire that belongs to the batch on its way. -/
theorem flatten_bodies (s : Uplink) :
    s.bodies.flatten = s.carried ++ s.transfer.toList.flatMap fun transfer =>
      transfer.request.body := by
  unfold Uplink.bodies Uplink.carried
  rw [flatten_append, flatten_append, ← flatMap_def, ← flatMap_def, ← flatMap_def]

/-- A send that is completed is in no other place. -/
theorem Queue.nowhere_else (h : Queue s)
    (hall : ∀ id < s.enqueued.length, (id, true) ∈ s.completed) (id : Nat) :
    (s.packetUpQueue.map Prod.snd).count id = 0 ∧
    (s.flushes.flatMap Flush.completions).count id = 0 ∧
      s.pendingPackets.count id = 0 := by
  have honce := h.once id
  unfold places at honce
  split at honce
  · rename_i hid
    have hmem : id ∈ s.completed.map Prod.fst := mem_map_of_mem (hall id hid)
    have hcount := count_pos_iff.mpr hmem
    omega
  · omega

theorem not_failed (h : Queue s) (hall : ∀ id < s.enqueued.length, (id, true) ∈ s.completed) :
    ¬ Failed s := by
  rintro ⟨id, hid⟩
  obtain ⟨-, hflush, hpending⟩ := h.nowhere_else hall id
  rcases hid with hid | hid | hid
  · exact count_eq_zero.mp hpending hid
  · have hmem : id ∈ s.completed.map Prod.fst := mem_map_of_mem hid
    have hlength : id < s.enqueued.length := by
      by_contra hlarge
      have honce := h.once id
      have hcount := count_pos_iff.mpr hmem
      unfold places at honce
      rw [if_neg hlarge] at honce
      omega
    have hnodup : (s.completed.map Prod.fst).Nodup := nodup_iff_count_le_one.mpr h.completed_le
    have hsame := inj_on_of_nodup_map hnodup hid (hall id hlength) rfl
    cases hsame
  · obtain ⟨flush, hmem, hfailing⟩ := mem_flatMap.mp hid
    refine count_eq_zero.mp hflush (mem_flatMap.mpr ⟨flush, hmem, ?_⟩)
    rcases flush with _ | _ | _ | _ | ⟨completions, _ | _⟩ | _ <;> first
      | exact absurd hfailing not_mem_nil
      | exact hfailing

/-- A flush without deferreds holds no data. -/
theorem Flush.Ready.rest_eq_nil {flush : Flush} (h : flush.Ready config)
    (hnone : flush.completions = []) : flush.rest = [] := by
  rcases flush with _ | _ | _ | _ | _ | _
  · rfl
  · exact absurd hnone h.1
  · exact absurd hnone h.1
  · exact absurd hnone h.1
  · rfl
  · rfl

theorem Sending.delivered {s : Uplink} (h : Sending config s) : Delivered config s where
  size := by
    intro body hbody
    unfold Uplink.bodies at hbody
    rw [mem_append, mem_append] at hbody
    rcases hbody with (hpost | hrequest) | htransfer
    · obtain ⟨post, hmem, rfl⟩ := mem_map.mp hpost
      exact h.posts post hmem
    · obtain ⟨request, hmem, rfl⟩ := mem_map.mp hrequest
      exact h.ended request hmem
    · obtain ⟨transfer, ht, rfl⟩ := mem_map.mp htransfer
      exact h.length_body (Option.mem_toList.mp ht)
  begins := by
    intro hfailed
    have hall := h.tracked.data.resolve_left hfailed
    rw [flatten_bodies]
    rcases ht : s.transfer with _ | transfer
    · rw [← hall, append_assoc]
      exact (prefix_append_right_inj _).mpr nil_prefix
    · obtain ⟨-, completions, data, seq, hflushes, hdata⟩ := h.sends transfer ht
      rw [hflushes, flatMap_singleton] at hall
      rw [← hall, append_assoc]
      refine (prefix_append_right_inj _).mpr ?_
      show [transfer].flatMap _ <+: data ++ _
      rw [flatMap_singleton, ← hdata, append_assoc]
      exact prefix_append _ _
  whole := by
    intro hcompleted
    have hqueue := h.tracked.queue
    have hplaces := hqueue.nowhere_else hcompleted
    have hall := h.tracked.data.resolve_left (not_failed hqueue hcompleted)
    have hsends : s.client.packetUpQueue.map Prod.snd = [] :=
      eq_nil_iff_forall_not_mem.mpr fun id => count_eq_zero.mp (hplaces id).1
    have hnone : ∀ flush ∈ s.client.flushes, flush.completions = [] := by
      intro flush hflush
      refine eq_nil_iff_forall_not_mem.mpr fun id hid => ?_
      exact count_eq_zero.mp (hplaces id).2.1 (mem_flatMap.mpr ⟨flush, hflush, hid⟩)
    have hrest : s.client.flushes.flatMap Flush.rest = [] := by
      rw [flatMap_eq_nil_iff]
      exact fun flush hflush => (h.tracked.ready flush hflush).rest_eq_nil (hnone flush hflush)
    have htransfer : s.transfer = none := by
      rw [Option.eq_none_iff_forall_ne_some]
      intro transfer ht
      obtain ⟨-, completions, data, seq, hflushes, -⟩ := h.sends transfer ht
      have hmem : Flush.opening completions data seq ∈ s.client.flushes := by
        rw [hflushes]
        exact mem_cons_self
      exact (h.tracked.ready _ hmem).1 (hnone _ hmem)
    rw [hrest, map_eq_nil_iff.mp hsends, append_nil] at hall
    rw [flatten_bodies, htransfer, ← hall]
    rfl

/-- **No body is too large**, and the bodies are what was sent. -/
theorem packet_up_post_size (config : Config) {es : List UplinkEvent}
    (h : RunAll (stepUplink config) (Within config) {} es) :
    Delivered config (run (stepUplink config) {} es) :=
  (run_invariant_of (fun _ _ => sending_step) h Sending.start).delivered

/-- Two sends in two requests, the first over two windows. -/
def twoRequests : List UplinkEvent :=
  [.client (.enqueuePacketUpSend [1, 2]), .client (.enqueuePacketUpSend [3]),
    .client (.flushPacketUpBatch 0), .sendH2PacketUp 0 16384 1, .resume 0 true,
    .sendH2PacketUpData 0 16384 1, .resume 0 true, .client (.complete 0),
    .client (.finish 0), .client (.flushPacketUpBatch 0), .sendH2PacketUp 0 16384 65535,
    .resume 0 true, .client (.complete 0), .client (.finish 0)]

theorem packet_up_post_size_two :
    Delivered { scMaxEachPostBytes := 2, useHTTP2 := true }
      (run (stepUplink { scMaxEachPostBytes := 2, useHTTP2 := true }) {} twoRequests) := by
  refine packet_up_post_size _ ⟨fun _ => ?_, fun _ => ?_, trivial, trivial, trivial, trivial,
    trivial, trivial, trivial, trivial, trivial, trivial, trivial, trivial, trivial⟩
  · show (2 : Int) ≤ 2
    decide
  · show (1 : Int) ≤ 2
    decide

/-- One send over HTTP/2. -/
def oneRequest (data : Bytes) : List UplinkEvent :=
  [.client (.enqueuePacketUpSend data), .client (.flushPacketUpBatch 0),
    .sendH2PacketUp 0 16384 65535, .resume 0 true]

theorem post_too_large :
    ¬ Delivered { scMaxEachPostBytes := 1, useHTTP2 := true }
      (run (stepUplink { scMaxEachPostBytes := 1, useHTTP2 := true }) {} (oneRequest [1, 2])) := by
  intro h
  have hframes : dataFrames 16384 65535 [1, 2] = ([⟨[1, 2], true⟩], []) :=
    dataFrames_one (cons_ne_nil _ _) (by decide) (by decide)
  have hsize := h.size [1, 2] ?_
  · exact absurd hsize (by decide)
  · simp [run, oneRequest, stepUplink, step, PacketUp.enqueuePacketUpSend, PacketUp.refuses,
      PacketUp.flushPacketUpBatch, PacketUp.setFlush, collect, collectMore, merged,
      Uplink.sendH2PacketUp, Uplink.resume, Uplink.endTransfer, Uplink.bodies,
      Request.body, hframes]

end Anywhere.Xhttp
