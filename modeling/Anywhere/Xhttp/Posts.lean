import Anywhere.Xhttp.PacketUp

/-!
# Anywhere — `XHttpClient`: the POSTs of packet-up mode

Over HTTP/1.1 a batch is cut into POSTs, each with the next number. The server puts the stream
together by these numbers. Only three placements of the data are written, and four of the
number.

* `Stream`, `stream_step` — what is on the wire, in a batch and in the queue is what was sent.
* `Numbered` — the steps in which no write fails and no batch is without data.
* `packet_up_stream` — in a run of such steps the numbers are in order and the data is whole.
* `stream_not_in_bodies` — data that is placed in headers or nowhere, a number that is not written,
  an empty send, and a failing write.
-/

namespace Anywhere.Xhttp

open Lib List

/-- The data of a batch that is not on the wire yet. -/
def Flush.rest : Flush → Bytes
  | .opening _ data _ => data
  | .posting _ rest _ => rest
  | .numbering _ rest => rest
  | _ => []

/-- What a POST carries: its body, and what its headers together and its cookie decode to. -/
def Post.data (post : Post) : Bytes :=
  post.body ++ (Base64.decode Base64.urlSafe post.fields.flatten).getD [] ++
    (post.cookie.bind (Base64.decode Base64.urlSafe)).getD []

def carried (wire : List Post) : Bytes := wire.flatMap Post.data

/-- The placements that are written: those of the data, and those of the number. -/
def Placed (config : Config) : Prop :=
  config.uplinkDataPlacement ∈ [.body, .header, .cookie] ∧
    config.seqPlacement ∈ [.path, .header, .cookie, .query]

/-- A POST carries some data, not more than `scMaxEachPostBytes`, and has it in its body unless it
is placed elsewhere. -/
structure Fits (config : Config) (post : Post) : Prop where
  some : post.data ≠ []
  size : post.data.length ≤ config.maxSize
  body : post.body = if config.uplinkDataPlacement ≠ .body then [] else post.data

/-- The numbers are those of the POSTs, from 0, every POST fits, and the data on the wire is what
was sent, as far as it is not in a batch or in the queue. -/
structure Preserved (config : Config) (s : PacketUp) : Prop where
  numbers : s.wire.map Post.seq = (List.range s.wire.length).map some
  fits : ∀ post ∈ s.wire, Fits config post
  begins : carried s.wire <+: s.enqueued.flatten
  whole : s.isConnected = true →
    carried s.wire ++ s.flushes.flatMap Flush.rest ++ merged s.packetUpQueue = s.enqueued.flatten

/-- The steps in which no write of a client that is connected fails, and no batch holds empty sends
alone. -/
def Numbered (config : Config) (s : PacketUp) : Event → Prop
  | .post n succeeds =>
      (∃ completions rest seq, s.flushes[n]? = some (.posting completions rest seq)) →
      s.isConnected = true → succeeds = true
  | .flushPacketUpBatch n => s.flushes[n]? = some .scheduled → s.isConnected = true →
      s.packetUpQueue ≠ [] →
      merged (collect config.maxSize s.packetUpQueue).1 ≠ []
  | _ => True

-- ----
-- What a POST has

theorem flatten_headerChunks {chunkSize : Nat} (hchunk : 0 < chunkSize) {turns : Nat}
    {encoded : Text} (hturns : encoded.length ≤ turns) :
    (headerChunks chunkSize turns encoded).flatten = encoded := by
  induction turns generalizing encoded with
  | zero => exact (eq_nil_of_length_eq_zero (Nat.le_zero.1 hturns)).symm
  | succ turns ih =>
    unfold headerChunks
    split
    · rename_i hempty
      exact hempty.symm
    · rw [flatten_cons, ih (by rw [length_drop]; omega), take_append_drop]

/-- A POST has the data, where that is placed. -/
theorem data_sendSinglePost {config : Config} (h : Placed config) (data : Bytes) (seq : Nat) :
    (sendSinglePost config data seq).data = data := by
  have hdecode := Base64.decode_encodeUnpadded Base64.proper_urlSafe data
  have hnil : Base64.decode Base64.urlSafe [] = some [] := rfl
  unfold sendSinglePost Post.data
  rcases hplace : config.uplinkDataPlacement with _ | _ | _ | _ | _ | _
  · simp [Placed, hplace] at h
  · simp [Placed, hplace] at h
  · generalize Base64.encodeUnpadded Base64.urlSafe data = encoded at hdecode
    have hflatten : (headerChunks
        (if 0 < config.uplinkChunkSize then config.uplinkChunkSize.toNat else encoded.length)
        encoded.length encoded).flatten = encoded := by
      rcases encoded with _ | ⟨first, rest⟩
      · rfl
      · refine flatten_headerChunks ?_ le_rfl
        rw [length_cons]
        split <;> omega
    simp [hflatten, hdecode]
  · simp [hdecode, hnil]
  · simp [Placed, hplace] at h
  · simp [hnil]

theorem seq_sendSinglePost {config : Config} (h : Placed config) (data : Bytes) (seq : Nat) :
    (sendSinglePost config data seq).seq = some seq := by
  obtain ⟨-, hplaced⟩ := h
  unfold sendSinglePost applySeq
  rcases hplace : config.seqPlacement with _ | _ | _ | _ | _ | _ <;> simp_all

-- ----
-- The invariant

/-- The next POST has the next number, and there is data for it. -/
def InTurn (s : PacketUp) : Flush → Prop
  | .opening _ data seq => data ≠ [] ∧ seq = s.wire.length ∧ s.nextSeq = s.wire.length + 1
  | .posting _ rest seq => rest ≠ [] ∧ seq = s.wire.length ∧ s.nextSeq = s.wire.length + 1
  | .numbering _ rest => rest ≠ [] ∧ s.nextSeq = s.wire.length
  | _ => s.isConnected = true → s.nextSeq = s.wire.length

structure Stream (config : Config) (s : PacketUp) : Prop where
  queue : Queue s
  upload : s.isConnected = true → s.uploadSend = true
  numbers : s.wire.map Post.seq = (List.range s.wire.length).map some
  fits : ∀ post ∈ s.wire, Fits config post
  data : ∃ lost, carried s.wire ++ s.flushes.flatMap Flush.rest ++ merged s.packetUpQueue ++ lost =
    s.enqueued.flatten ∧ (s.isConnected = true → lost = [])
  turn : ∀ flush ∈ s.flushes, InTurn s flush
  idle : s.isConnected = true → s.flushes = [] → s.nextSeq = s.wire.length

theorem Stream.preserved {config : Config} {s : PacketUp} (h : Stream config s) :
    Preserved config s where
  numbers := h.numbers
  fits := h.fits
  begins := by
    obtain ⟨lost, hdata, -⟩ := h.data
    rw [← hdata, append_assoc, append_assoc]
    exact prefix_append _ _
  whole := by
    intro hopen
    obtain ⟨lost, hdata, hlost⟩ := h.data
    rw [← hdata, hlost hopen, append_nil]

namespace Stream

variable {config : Config} {s t : PacketUp} {n seq : Nat} {flush flush' : Flush}
    {completions : List Nat}
  {rest : Bytes}

theorem start : Stream config {} where
  queue := Queue.start
  upload := fun _ => rfl
  numbers := rfl
  fits := fun _ hpost => absurd hpost not_mem_nil
  data := ⟨[], rfl, fun _ => rfl⟩
  turn := fun _ hflush => absurd hflush not_mem_nil
  idle := fun _ _ => rfl

/-- The flush goes on, and what it does not hold any more is on the wire or, behind the end of the
client, lost. -/
theorem moves (h : Stream config s) (hqueue : Queue t) (hn : s.flushes[n]? = some flush)
    (hflushes : t.flushes = s.flushes.set n flush') (hconnected : t.isConnected = s.isConnected)
    (hupload : t.uploadSend = s.uploadSend) (henqueued : t.enqueued = s.enqueued)
    (hnumbers : t.wire.map Post.seq = (List.range t.wire.length).map some)
    (hfits : ∀ post ∈ t.wire, Fits config post)
    (hdata : carried t.wire ++ flush'.rest ++ merged t.packetUpQueue =
        carried s.wire ++ flush.rest ++ merged s.packetUpQueue ∨
      (s.isConnected = false ∧ t.wire = s.wire ∧ flush'.rest = []))
    (hturn : InTurn t flush') : Stream config t := by
  obtain ⟨hone, -⟩ := h.queue.only hn
  rw [h.queue.setFlush_eq hn] at hflushes
  refine ⟨hqueue, ?_, hnumbers, hfits, ?_, ?_, ?_⟩
  · rw [hconnected, hupload]
    exact h.upload
  · obtain ⟨lost, hall, hlost⟩ := h.data
    rw [hone, flatMap_singleton] at hall
    rw [hflushes, flatMap_singleton, henqueued, hconnected]
    rcases hdata with hsame | ⟨hclosed, hwire, hrest⟩
    · exact ⟨lost, by rw [hsame, hall], hlost⟩
    · refine ⟨flush.rest ++ lost, ?_, fun hopen => absurd (hopen.symm.trans hclosed) nofun⟩
      have hempty := h.queue.dropped hclosed
      have hempty' := hqueue.dropped (hconnected.trans hclosed)
      rw [← hall, hwire, hrest, hempty, hempty']
      simp only [merged, flatMap_nil, append_nil, append_assoc]
  · intro flush hflush
    rw [hflushes, mem_singleton] at hflush
    rw [hflush]
    exact hturn
  · exact fun _ hnil => absurd (hflushes.symm.trans hnil) (cons_ne_nil _ _)

theorem ends (h : Stream config s) (hqueue : Queue t) (hn : s.flushes[n]? = some flush)
    (hrest : flush.rest = []) (hflushes : t.flushes = s.flushes.eraseIdx n)
    (hconnected : t.isConnected = s.isConnected) (hupload : t.uploadSend = s.uploadSend)
    (henqueued : t.enqueued = s.enqueued) (hwire : t.wire = s.wire)
    (hmerged : merged t.packetUpQueue = merged s.packetUpQueue)
    (hturn : s.isConnected = true → t.nextSeq = s.wire.length) : Stream config t := by
  obtain ⟨hone, -⟩ := h.queue.only hn
  rw [h.queue.endFlush_eq hn] at hflushes
  refine ⟨hqueue, ?_, ?_, ?_, ?_, ?_, ?_⟩
  · rw [hconnected, hupload]
    exact h.upload
  · rw [hwire]
    exact h.numbers
  · rw [hwire]
    exact h.fits
  · obtain ⟨lost, hall, hlost⟩ := h.data
    rw [hone, flatMap_singleton, hrest] at hall
    refine ⟨lost, ?_, by rwa [hconnected]⟩
    rw [hwire, hflushes, hmerged, henqueued, flatMap_nil]
    exact hall
  · rw [hflushes]
    exact fun _ hflush => absurd hflush not_mem_nil
  · rw [hconnected, hwire]
    exact fun hopen _ => hturn hopen

theorem turn_of (h : Stream config s) (hn : s.flushes[n]? = some flush) : InTurn s flush :=
  h.turn flush (List.mem_of_getElem? hn)

theorem enqueuePacketUpSend (h : Stream config s) (data : Bytes) :
    Stream config (s.enqueuePacketUpSend config data) := by
  have hqueue := h.queue.enqueuePacketUpSend config data
  unfold PacketUp.enqueuePacketUpSend at hqueue ⊢
  split
  · exact h
  · rename_i hrefuses
    rw [if_neg hrefuses] at hqueue
    have hopen := PacketUp.isConnected_of_not_refuses hrefuses
    refine ⟨hqueue, h.upload, h.numbers, h.fits, ?_, ?_, ?_⟩
    · obtain ⟨lost, hall, hlost⟩ := h.data
      refine ⟨[], ?_, fun _ => rfl⟩
      have hrests : (if s.packetUpFlushPending then s.flushes
          else s.flushes ++ [Flush.scheduled]).flatMap Flush.rest =
          s.flushes.flatMap Flush.rest := by
        split
        · rfl
        · rw [flatMap_append, flatMap_singleton]
          exact append_nil _
      rw [hlost hopen, append_nil] at hall
      dsimp only
      rw [hrests, flatten_append, ← hall, append_nil, merged, flatMap_append, flatMap_singleton,
        flatten_singleton, ← append_assoc]
      rfl
    · intro flush hflush
      dsimp only at hflush
      split at hflush
      · exact h.turn flush hflush
      · rename_i hpending
        rcases mem_append.mp hflush with hold | hnew
        · exact h.turn flush hold
        · rw [mem_singleton.mp hnew]
          have hnone : s.flushes = [] := by
            by_contra hne
            exact hpending (h.queue.live hopen hne)
          exact fun _ => h.idle hopen hnone
    · intro _ hnil
      exact absurd hnil (hqueue.pending rfl).2

theorem flushPacketUpBatch (h : Stream config s) (hHTTP : config.useHTTP2 = false)
    (hn : s.flushes[n]? = some .scheduled)
    (hsome : s.isConnected = true → s.packetUpQueue ≠ [] →
      merged (collect config.maxSize s.packetUpQueue).1 ≠ []) :
    Stream config (s.flushPacketUpBatch config n) := by
  have hqueue := h.queue.flushPacketUpBatch config hn
  have hturn : s.isConnected = true → s.nextSeq = s.wire.length := h.turn_of hn
  unfold PacketUp.flushPacketUpBatch at hqueue ⊢
  split
  · rename_i hrefuses
    rw [if_pos hrefuses] at hqueue
    have hclosed : s.isConnected = false := by
      unfold PacketUp.refuses at hrefuses
      rw [hHTTP] at hrefuses
      simpa using hrefuses
    refine h.ends hqueue hn rfl rfl rfl rfl rfl rfl ?_ hturn
    rw [h.queue.dropped hclosed]
    rfl
  · rename_i hrefuses
    rw [if_neg hrefuses] at hqueue
    split
    · rename_i hempty
      rw [if_pos hempty] at hqueue
      exact h.ends hqueue hn rfl rfl rfl rfl rfl rfl rfl hturn
    · rename_i hnonempty
      rw [if_neg hnonempty] at hqueue
      have hopen : s.isConnected = true := by
        by_contra hclosed
        exact hnonempty (h.queue.dropped (Bool.not_eq_true _ ▸ hclosed))
      refine h.moves hqueue hn rfl rfl rfl rfl h.numbers h.fits (.inl ?_) ?_
      · have hbatch : merged (collect config.maxSize s.packetUpQueue).1 ++
            merged (collect config.maxSize s.packetUpQueue).2 = merged s.packetUpQueue := by
          unfold merged
          rw [← flatMap_append, collect_append]
        show carried s.wire ++ merged (collect config.maxSize s.packetUpQueue).1 ++
          merged (collect config.maxSize s.packetUpQueue).2 = carried s.wire ++ [] ++
            merged s.packetUpQueue
        rw [append_assoc, hbatch, append_nil]
      · refine ⟨hsome hopen hnonempty, hturn hopen, ?_⟩
        show s.nextSeq + 1 = s.wire.length + 1
        rw [hturn hopen]

theorem fits_take (hplaced : Placed config) {rest : Bytes} (hrest : rest ≠ []) (seq : Nat) :
    Fits config (sendSinglePost config (rest.take config.maxSize) seq) := by
  have hdata := data_sendSinglePost hplaced (rest.take config.maxSize) seq
  have hpos : 0 < config.maxSize := by
    unfold Config.maxSize
    omega
  refine ⟨?_, ?_, ?_⟩
  · rw [hdata]
    intro hnil
    rcases take_eq_nil_iff.mp hnil with hzero | hempty
    · omega
    · exact hrest hempty
  · rw [hdata]
    exact length_take_le _ _
  · rw [hdata]
    rfl

theorem posted (hplaced : Placed config) (h : Stream config s)
    (hqueue : Queue (s.posted config n completions rest seq))
    (hn : s.flushes[n]? = some (.posting completions rest seq)) :
    Stream config (s.posted config n completions rest seq) := by
  obtain ⟨hrest, hseq, hnext⟩ := h.turn_of hn
  unfold PacketUp.posted at hqueue ⊢
  dsimp only at hqueue ⊢
  refine h.moves hqueue hn rfl rfl rfl rfl ?_ ?_ (.inl ?_) ?_
  · show (s.wire ++ [_]).map Post.seq = (List.range (s.wire ++ [_]).length).map some
    rw [map_append, h.numbers, length_append, length_singleton, range_succ, map_append,
      map_singleton, map_singleton, seq_sendSinglePost hplaced, ← hseq]
  · intro post hpost
    rcases mem_append.mp hpost with hold | hnew
    · exact h.fits post hold
    · rw [mem_singleton.mp hnew]
      exact fits_take hplaced hrest seq
  · have hleft : ∀ next, next = rest.drop config.maxSize →
        (if next = [] then Flush.sent completions false else .numbering completions next).rest =
          next := by
      intro next _
      split
      · rename_i hempty
        exact hempty.symm
      · rfl
    show carried (s.wire ++ [_]) ++ _ ++ _ = carried s.wire ++ rest ++ _
    rw [hleft _ rfl, carried, flatMap_append, flatMap_singleton, data_sendSinglePost hplaced]
    show s.wire.flatMap Post.data ++ rest.take config.maxSize ++ rest.drop config.maxSize ++ _ = _
    rw [append_assoc (s.wire.flatMap Post.data), take_append_drop]
    rfl
  · have hlength : (s.wire ++ [sendSinglePost config (rest.take config.maxSize) seq]).length =
        s.nextSeq := by
      rw [length_append, length_singleton, hnext]
    split
    · exact fun _ => hlength.symm
    · rename_i hmore
      exact ⟨hmore, hlength.symm⟩

theorem sendPacketUpHTTP11 (h : Stream config s)
    (hqueue : Queue (step config s (.sendPacketUpHTTP11 n))) :
    Stream config (step config s (.sendPacketUpHTTP11 n)) := by
  dsimp only [step] at hqueue ⊢
  split
  · rename_i completions data seq hn
    rw [hn] at hqueue
    dsimp only at hqueue
    split
    · exact h
    · rename_i hHTTP
      rw [if_neg hHTTP] at hqueue
      have hturn := h.turn_of hn
      split
      · -- the client is closed
        rename_i hupload
        rw [if_pos hupload] at hqueue
        have hclosed : s.isConnected = false := by
          by_contra hopen
          exact hupload (h.upload (Bool.not_eq_false _ ▸ hopen))
        refine h.moves hqueue hn rfl rfl rfl rfl h.numbers h.fits (.inr ⟨hclosed, rfl, rfl⟩) ?_
        exact fun hopen => absurd (hclosed.symm.trans hopen) nofun
      · rename_i hupload
        rw [if_neg hupload, if_neg hturn.1] at hqueue
        rw [if_neg hturn.1]
        exact h.moves hqueue hn rfl rfl rfl rfl h.numbers h.fits (.inl rfl) hturn
  · exact h

theorem cancel (h : Stream config s) : Stream config s.cancel where
  queue := h.queue.cancel
  upload := nofun
  numbers := h.numbers
  fits := h.fits
  data := by
    obtain ⟨lost, hall, -⟩ := h.data
    refine ⟨merged s.packetUpQueue ++ lost, ?_, nofun⟩
    show carried s.wire ++ s.flushes.flatMap Flush.rest ++ [] ++ (merged s.packetUpQueue ++ lost) =
      s.enqueued.flatten
    rw [← hall, append_nil, ← append_assoc]
  turn := by
    intro flush hflush
    have hturn := h.turn flush hflush
    rcases flush with _ | _ | _ | _ | _ | _
    · exact nofun
    · exact hturn
    · exact hturn
    · exact hturn
    · exact nofun
    · exact nofun
  idle := nofun

end Stream

theorem stream_step {config : Config} (hHTTP : config.useHTTP2 = false) (hplaced : Placed config)
    {s : PacketUp} {e : Event} (hnumbered : Numbered config s e) (h : Stream config s) :
    Stream config (step config s e) := by
  have hqueue := queue_step config e h.queue
  rcases e with data | n | n | ⟨n, succeeds⟩ | n | ⟨n, succeeds⟩ | n | n | n | _ | _ | _
  · exact h.enqueuePacketUpSend data
  · dsimp only [step]
    split
    · rename_i hn
      exact h.flushPacketUpBatch hHTTP hn (hnumbered hn)
    · exact h
  · exact h.sendPacketUpHTTP11 hqueue
  · dsimp only [step] at hqueue ⊢
    split
    · rename_i completions rest seq hn
      rw [hn] at hqueue
      dsimp only at hqueue
      split
      · rename_i hsucceeds
        rw [if_pos hsucceeds] at hqueue
        exact h.posted hplaced hqueue hn
      · rename_i hfails
        rw [if_neg hfails] at hqueue
        have hclosed : s.isConnected = false := by
          by_contra hopen
          exact hfails (hnumbered ⟨completions, rest, seq, hn⟩ (Bool.not_eq_false _ ▸ hopen))
        refine h.moves hqueue hn rfl rfl rfl rfl h.numbers h.fits (.inr ⟨hclosed, rfl, rfl⟩) ?_
        exact fun hopen => absurd (hclosed.symm.trans hopen) nofun
    · exact h
  · dsimp only [step] at hqueue ⊢
    split
    · rename_i completions rest hn
      rw [hn] at hqueue
      obtain ⟨hrest, hnext⟩ := h.turn_of hn
      refine h.moves hqueue hn rfl rfl rfl rfl h.numbers h.fits (.inl rfl) ⟨hrest, hnext, ?_⟩
      exact congrArg (· + 1) hnext
    · exact h
  · dsimp only [step]
    split
    · rw [if_neg (by rw [hHTTP]; exact Bool.false_ne_true)]
      exact h
    · exact h
  · dsimp only [step] at hqueue ⊢
    split
    · rename_i completions error hn
      rw [hn] at hqueue
      exact h.moves hqueue hn rfl rfl rfl rfl h.numbers h.fits (.inl rfl) (h.turn_of hn)
    · exact h
  · dsimp only [step] at hqueue ⊢
    split
    · rename_i error hn
      rw [hn] at hqueue
      dsimp only at hqueue
      unfold PacketUp.finish at hqueue ⊢
      split
      · rename_i hlast
        rw [if_pos hlast] at hqueue
        exact h.ends hqueue hn rfl rfl rfl rfl rfl rfl rfl (h.turn_of hn)
      · rename_i hmore
        rw [if_neg hmore] at hqueue
        exact h.moves hqueue hn rfl rfl rfl rfl h.numbers h.fits (.inl rfl) (h.turn_of hn)
    · exact h
  · dsimp only [step] at hqueue ⊢
    split
    · rename_i hn
      rw [hn] at hqueue
      dsimp only at hqueue
      split
      · exact h
      · rename_i hclosed
        rw [if_neg hclosed] at hqueue
        exact h.ends hqueue hn rfl rfl rfl rfl rfl rfl rfl fun hopen => absurd hopen hclosed
    · exact h
  · exact ⟨hqueue, h.upload, h.numbers, h.fits, h.data, h.turn, h.idle⟩
  · exact h.cancel
  · exact ⟨hqueue, h.upload, h.numbers, h.fits, h.data, h.turn, h.idle⟩

/-- **The POSTs are the stream**, where its data and its numbers are written. -/
theorem packet_up_stream {config : Config} (hHTTP : config.useHTTP2 = false)
    (hplaced : Placed config) {es : List Event} (h : RunAll (step config) (Numbered config) {} es) :
    Preserved config (run (step config) {} es) :=
  (run_invariant_of (fun _ _ => stream_step hHTTP hplaced) h Stream.start).preserved

/-- Posts of two bytes, in headers of two characters. -/
def inHeaders : Config :=
  { scMaxEachPostBytes := 2, seqPlacement := .cookie, uplinkDataPlacement := .header,
    uplinkChunkSize := 2 }

/-- Three bytes in two POSTs, with another send on the way. -/
def splitBatch : List Event :=
  [.enqueuePacketUpSend [1, 2, 3], .flushPacketUpBatch 0, .sendPacketUpHTTP11 0,
    .enqueuePacketUpSend [4], .post 0 true, .number 0, .post 0 true]

theorem packet_up_stream_split : Preserved inHeaders (run (step inHeaders) {} splitBatch) := by
  refine packet_up_stream rfl ⟨by decide, by decide⟩
    ⟨trivial, ?_, trivial, trivial, fun _ _ => rfl, trivial, fun _ _ => rfl, trivial⟩
  exact fun _ _ _ => by decide

-- ----
-- Streams that are not kept

def onePost (data : Bytes) : List Event :=
  [.enqueuePacketUpSend data, .flushPacketUpBatch 0, .sendPacketUpHTTP11 0, .post 0 true,
    .complete 0, .finish 0]

/-- A send whose POST is not written, and one behind it. -/
def failedPost : List Event :=
  [.enqueuePacketUpSend [1], .flushPacketUpBatch 0, .sendPacketUpHTTP11 0, .post 0 false,
    .complete 0, .finish 0] ++
    onePost [2]

theorem stream_not_in_bodies :
    ((run (step { uplinkDataPlacement := .header }) {} (onePost [1])).wire =
        [⟨some 0, ["AQ".toList], none, []⟩]) ∧
      (run (step { uplinkDataPlacement := .query }) {} (onePost [1])).wire =
        [⟨some 0, [], none, []⟩] ∧
      (run (step { seqPlacement := .queryInHeader }) {} (onePost [1])).wire =
        [⟨none, [], none, [1]⟩] ∧
      ((run (step { scMaxEachPostBytes := 0 }) {} (onePost [1])).wire.map fun post =>
        post.body.length) = [1] ∧
      (run (step {}) {} (onePost [] ++ onePost [1])).wire.map Post.seq = [some 1] ∧
      (run (step {}) {} failedPost).wire = [⟨some 1, [], none, [2]⟩] := by
  decide

end Anywhere.Xhttp
