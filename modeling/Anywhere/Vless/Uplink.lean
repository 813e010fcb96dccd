import Anywhere.Vless.Downlink

/-!
# Anywhere — the uplink of a Vision connection

While the writer pads, each write is cut into chunks that fit a frame, the first frame
of the connection has the UUID in front, and the last frame of a write may be a
terminal one; from then on writes are passed on as they are.

* `reshapeData_spec`, `visionPadding_spec` — the chunks of a write, and the frame of a
  chunk; `reshapeData_bounded` — their sizes.
* `Sent` — what has been sent in each phase, kept by every step.
* `uplink_sends_stream` — every run sends a padded stream of its writes.
-/

namespace Anywhere.Vless

open Lib Counters List

-- ----
-- The frames of a write

/-- The chunks of a write are its parts in order, each small enough for a frame. -/
theorem reshapeData_spec (data : Bytes) :
    (reshapeData data).flatten = data ∧ reshapeData data ≠ [] ∧
      ∀ chunk ∈ reshapeData data, chunk.length < reshapeThreshold := by
  induction data using reshapeData.induct with
  | case1 data hsmall =>
    rw [reshapeData, dif_pos hsmall]
    exact ⟨flatten_singleton, by simp, by simpa using hsmall⟩
  | case2 data hlarge ihfirst ihsecond =>
    obtain ⟨hfirst, hne, hfirst_lt⟩ := ihfirst
    obtain ⟨hsecond, -, hsecond_lt⟩ := ihsecond
    rw [reshapeData, dif_neg hlarge]
    refine ⟨by rw [flatten_append, hfirst, hsecond, take_append_drop], by simp [hne], ?_⟩
    intro chunk hchunk
    rcases mem_append.mp hchunk with h | h
    · exact hfirst_lt chunk h
    · exact hsecond_lt chunk h

variable {outcome : Outcome}

/-- The padding of a frame leaves room for the UUID in the intended size. -/
theorem paddingLength_le {seed : List Int} {contentLen : Nat} {longPadding : Bool}
    {paddingLen : Nat} (hlen : contentLen < reshapeThreshold)
    (h : paddingLength seed contentLen longPadding outcome = some paddingLen) :
    21 + contentLen + paddingLen ≤ 8192 := by
  have hsize : reshapeThreshold = 8171 := rfl
  obtain ⟨n, -, rfl⟩ := Option.map_eq_some_iff.mp h
  omega

variable {data out : Bytes}

/-- No chunk of a write is empty, unless there is nothing to write. -/
theorem ne_nil_of_mem_reshapeData (h : data ≠ []) : ∀ chunk ∈ reshapeData data, chunk ≠ [] := by
  induction data using reshapeData.induct with
  | case1 data hsmall =>
    rw [reshapeData, dif_pos hsmall]
    simpa using h
  | case2 data hlarge ihfirst ihsecond =>
    obtain ⟨hpos, hlt⟩ := splitIndex_bounds hlarge
    have hfirst : data.take (splitIndex data) ≠ [] :=
      ne_nil_of_length_pos (by rw [length_take]; omega)
    have hsecond : data.drop (splitIndex data) ≠ [] :=
      ne_nil_of_length_pos (by rw [length_drop]; omega)
    rw [reshapeData, dif_neg hlarge]
    intro chunk hchunk
    rcases mem_append.mp hchunk with h | h
    · exact ihfirst hfirst chunk h
    · exact ihsecond hsecond chunk h

/-- A frame that fits the intended size even behind the UUID. -/
def Frame.Fits (f : Frame) : Prop := 16 + f.bytes.length ≤ 8192

variable {s s' : VisionTrafficState}

theorem visionPadding_spec {command : VisionCommand}
    {longPadding : Bool} (hlen : data.length < reshapeThreshold)
    (h : visionPadding data command s longPadding outcome = some (s', out)) :
    ∃ f : Frame, f.command = command ∧ f.content = data ∧ f.Fits ∧
      s' = { s with writeOnceUserUUID := none } ∧ out = s.writeOnceUserUUID.getD [] ++ f.bytes := by
  obtain ⟨paddingLen, hpadding, hresult⟩ := Option.map_eq_some_iff.mp h
  obtain ⟨rfl, rfl⟩ := Prod.mk.inj hresult
  have hle := paddingLength_le hlen hpadding
  have hlength : ((List.range paddingLen).map outcome.byte).length = paddingLen := by simp
  refine ⟨⟨command, data, (List.range paddingLen).map outcome.byte, by omega, by omega⟩,
    rfl, rfl, ?_, rfl, rfl⟩
  rw [Frame.Fits, Frame.length_bytes]
  simp only [hlength]
  omega

/-- **`reshapeData` is a bounded split.** Both parts of a split are shorter than the write,
so it ends; the chunks are the write in order, none is empty unless the write is, and the
frame of each fits the buffer of Vision behind the UUID. -/
theorem reshapeData_bounded (data : Bytes) :
    (8171 ≤ data.length → (data.take (splitIndex data)).length < data.length ∧
      (data.drop (splitIndex data)).length < data.length) ∧
    (reshapeData data).flatten = data ∧
    (data ≠ [] → ∀ chunk ∈ reshapeData data, chunk ≠ []) ∧
    ∀ chunk ∈ reshapeData data, chunk.length < 8171 ∧
      (∀ seed longPadding outcome paddingLen,
        paddingLength seed chunk.length longPadding outcome = some paddingLen →
          chunk.length + paddingLen + 21 ≤ 8192) ∧
      ∀ command (s : VisionTrafficState) longPadding outcome s' frame,
        (s.writeOnceUserUUID.getD []).length ≤ 16 →
        visionPadding chunk command s longPadding outcome = some (s', frame) →
          frame.length ≤ 8192 := by
  obtain ⟨hflatten, -, hlength⟩ := reshapeData_spec data
  refine ⟨fun hlarge => ?_, hflatten, ne_nil_of_mem_reshapeData, fun chunk hchunk => ?_⟩
  · have := splitIndex_bounds (Nat.not_lt.mpr hlarge)
    rw [length_take, length_drop]
    omega
  · have hlt := hlength chunk hchunk
    refine ⟨hlt, fun seed longPadding outcome paddingLen hpadding => ?_, ?_⟩
    · have := paddingLength_le hlt hpadding
      omega
    · intro command s longPadding outcome s' frame huuid hframe
      obtain ⟨f, -, -, hfits, -, rfl⟩ := visionPadding_spec hlt hframe
      rw [length_append]
      exact Nat.le_trans (Nat.add_le_add_right huuid _) hfits

theorem reshapeData_bounded_threshold :
    let data := List.replicate 8171 (0x17 : UInt8)
    ((data.take (splitIndex data)).length < data.length ∧
      (data.drop (splitIndex data)).length < data.length) ∧
    (∀ chunk ∈ reshapeData data, chunk ≠ []) ∧
    (∃ paddingLen, paddingLength [900, 500, 900, 256] 1 false ⟨3, fun _ => 0⟩ = some paddingLen ∧
      1 + paddingLen + 21 ≤ 8192) ∧
    ∃ s' frame, visionPadding [7] .paddingEnd { userUUID := [], writeOnceUserUUID := none } false
      ⟨3, fun _ => 0⟩ = some (s', frame) ∧ frame.length ≤ 8192 := by
  intro data
  have hlength : data.length = 8171 := length_replicate
  have hseven : [7] ∈ reshapeData [7] := by
    rw [reshapeData, dif_pos (by decide)]
    exact mem_singleton_self _
  refine ⟨(reshapeData_bounded data).1 (by omega), (reshapeData_bounded data).2.2.1 ?_,
    ⟨3, rfl, ?_⟩, _, _, rfl, ?_⟩
  · exact ne_nil_of_length_pos (by omega)
  · exact ((reshapeData_bounded [7]).2.2.2 [7] hseven).2.1 [900, 500, 900, 256] false
      ⟨3, fun _ => 0⟩ 3 rfl
  · exact ((reshapeData_bounded [7]).2.2.2 [7] hseven).2.2 .paddingEnd
      { userUUID := [], writeOnceUserUUID := none } false ⟨3, fun _ => 0⟩ _ _ (Nat.zero_le _) rfl

variable {outcomes : Nat → Outcome}

/-- **The frames of a write**: one for each chunk, the last one with its own command. -/
theorem padChunks_spec {rest last : VisionCommand} {restLong lastLong : Bool} {chunks : List Bytes}
    (hne : chunks ≠ []) (hlen : ∀ chunk ∈ chunks, chunk.length < reshapeThreshold)
    (h : padChunks rest last restLong lastLong chunks s outcomes = some (s', out)) :
    ∃ (others : List Frame) (f : Frame), f.command = last ∧ (∀ g ∈ others, g.command = rest) ∧
      (∀ g ∈ others ++ [f], g.Fits) ∧ (others ++ [f]).map Frame.content = chunks ∧
      s' = { s with writeOnceUserUUID := none } ∧
      out = s.writeOnceUserUUID.getD [] ++ ((others ++ [f]).map Frame.bytes).flatten := by
  induction chunks generalizing s outcomes out with
  | nil => exact absurd rfl hne
  | cons chunk chunks ih =>
    have hchunk := hlen chunk mem_cons_self
    cases chunks with
    | nil =>
      obtain ⟨f, hcommand, hcontent, hfits, rfl, rfl⟩ := visionPadding_spec hchunk h
      exact ⟨[], f, hcommand, by simp, by simpa using hfits, by simp [hcontent], rfl, by simp⟩
    | cons next chunks =>
      obtain ⟨⟨s₁, out₁⟩, hfirst, hothers⟩ := Option.bind_eq_some_iff.mp h
      obtain ⟨⟨s₂, out₂⟩, hrest, hresult⟩ := Option.map_eq_some_iff.mp hothers
      obtain ⟨rfl, rfl⟩ := Prod.mk.inj hresult
      obtain ⟨g, hcommand, hcontent, hfits, rfl, rfl⟩ := visionPadding_spec hchunk hfirst
      obtain ⟨others, f, hlast, hcontinue, hall, hcontents, rfl, rfl⟩ :=
        ih (by simp) (fun c hc => hlen c (mem_cons_of_mem chunk hc)) hrest
      refine ⟨g :: others, f, hlast, ?_, ?_, ?_, rfl, ?_⟩
      · intro x hx
        rcases mem_cons.mp hx with rfl | hx
        · exact hcommand
        · exact hcontinue x hx
      · intro x hx
        rcases mem_cons.mp hx with rfl | hx
        · exact hfits
        · exact hall x hx
      · rw [cons_append, map_cons, hcontent, hcontents]
      · rw [cons_append, map_cons, flatten_cons, append_assoc]
        rfl

/-- The state after a write: the filter may have seen a ClientHello, and the writer's
fields follow the command of the last frame. -/
def VisionTrafficState.written (s : VisionTrafficState) (f : Filter) (command : VisionCommand) :
    VisionTrafficState :=
  { s with
    filter := f
    writeOnceUserUUID := none
    writerIsPadding := decide (command = .paddingContinue)
    writerDirectCopy := decide (command = .paddingDirect) }

/-- The filter after the ClientHello of a write was looked for. -/
def Filter.sending (f : Filter) (data : Bytes) : Filter :=
  if f.isTLS then f else visionDetectClientHello data f

theorem processSendData_filter (s : VisionTrafficState) (data : Bytes) :
    (if s.filter.isTLS then s else { s with filter := visionDetectClientHello data s.filter }) =
      { s with filter := s.filter.sending data } := by
  unfold Filter.sending
  split
  · rfl
  · rfl

/-- **A write while the writer pads** is sent as frames with its data as content. -/
theorem processSendData_padding (hpadding : s.writerIsPadding = true)
    (hdirect : s.writerDirectCopy = false) (h : processSendData s data outcomes = some (s', out)) :
    ∃ (others : List Frame) (f : Frame), (∀ g ∈ others, g.command = .paddingContinue) ∧
      (∀ g ∈ others ++ [f], g.Fits) ∧ ((others ++ [f]).map Frame.content).flatten = data ∧
      s' = s.written (s.filter.sending data) f.command ∧
      out = s.writeOnceUserUUID.getD [] ++ ((others ++ [f]).map Frame.bytes).flatten := by
  obtain ⟨hflatten, hne, hlen⟩ := reshapeData_spec data
  unfold processSendData at h
  rw [processSendData_filter] at h
  simp only [hdirect, hpadding, Bool.false_eq_true, if_false, Bool.not_true] at h
  split at h
  · -- application data over TLS: the last frame is END or DIRECT
    obtain ⟨⟨s₁, out₁⟩, hpadded, hresult⟩ := Option.map_eq_some_iff.mp h
    obtain ⟨rfl, rfl⟩ := Prod.mk.inj hresult
    obtain ⟨others, f, hlast, hcontinue, hfits, hcontents, rfl, rfl⟩ :=
      padChunks_spec hne hlen hpadded
    refine ⟨others, f, hcontinue, hfits, by rw [hcontents, hflatten], ?_, rfl⟩
    by_cases hxtls : (s.filter.sending data).enableXtls = true
    · simp [VisionTrafficState.written, hlast, hxtls]
    · simp [VisionTrafficState.written, hlast, hxtls]
  split at h
  · -- nothing of TLS was seen: padding ends with this write
    obtain ⟨others, f, hlast, hcontinue, hfits, hcontents, rfl, rfl⟩ := padChunks_spec hne hlen h
    refine ⟨others, f, hcontinue, hfits, by rw [hcontents, hflatten], ?_, rfl⟩
    simp [VisionTrafficState.written, hlast]
  · obtain ⟨others, f, hlast, hcontinue, hfits, hcontents, rfl, rfl⟩ := padChunks_spec hne hlen h
    refine ⟨others, f, hcontinue, hfits, by rw [hcontents, hflatten], ?_, rfl⟩
    simp [VisionTrafficState.written, hlast]

/-- **A write after the terminal frame** is sent as it is. -/
theorem processSendData_raw (hpadding : s.writerIsPadding = false)
    (data : Bytes) (outcomes : Nat → Outcome) :
    processSendData s data outcomes = some ({ s with filter := s.filter.sending data }, data) := by
  unfold processSendData
  rw [processSendData_filter]
  simp only [hpadding, Bool.not_false, if_true, ite_self]

-- ----
-- Runs of the writer

/-- What happens at the connection: a write, or a chunk that is received in between. -/
inductive VisionEvent where
  | write (data : Bytes) (outcomes : Nat → Outcome)
  | receive (data : Bytes)

def uplinkStep (s : VisionTrafficState) :
    VisionEvent → Option (VisionTrafficState × List (Path × Bytes))
  | .write data outcomes => (sendRaw s data outcomes).map fun sent => (sent.1, [sent.2])
  | .receive data => some ((processReceiveData s data).1, [])

/-- A run of the connection; none when a write throws. -/
def uplinkRun : VisionTrafficState → List VisionEvent →
    Option (VisionTrafficState × List (Path × Bytes))
  | s, [] => some (s, [])
  | s, e :: es =>
    (uplinkStep s e).bind fun now =>
      (uplinkRun now.1 es).map fun later => (later.1, now.2 ++ later.2)

/-- A connection from its start; the client opens it with an empty frame when it has no
data to send. -/
def uplink (uuid : Bytes) (testseed : List Int) (opening : Option Outcome)
    (events : List VisionEvent) :
    Option (VisionTrafficState × List (Path × Bytes)) :=
  match opening with
  | none => uplinkRun (.new uuid testseed) events
  | some outcome =>
    (sendEmptyPadding (.new uuid testseed) outcome).bind fun opened =>
      (uplinkRun opened.1 events).map fun later => (later.1, (.inner, opened.2) :: later.2)

def writesOf (events : List VisionEvent) : List Bytes :=
  events.filterMap fun
    | .write data _ => some data
    | .receive _ => none

/-- **What writes are sent as**: a padded stream whose contents are the first writes
and whose raw bytes are the others, on the direct path only behind a DIRECT frame. -/
structure Transcript where
  stream : PaddedStream
  last : Frame
  padded : List Bytes
  later : List Bytes
  inner : List Bytes
  direct : List Bytes
  last_eq : last ∈ stream.frames.getLast?
  fits : ∀ f ∈ stream.frames, f.Fits
  contents_eq : stream.contents = padded.flatten
  raw_eq : stream.raw = later.flatten
  bytes_eq : inner.flatten ++ direct.flatten = stream.bytes
  later_nil : last.command = .paddingContinue → later = []
  direct_nil : last.command ≠ .paddingDirect → direct = []
  inner_eq : last.command = .paddingDirect → inner.flatten = stream.framed

namespace Transcript

def writes (t : Transcript) : List Bytes := t.padded ++ t.later

def sends (t : Transcript) : List (Path × Bytes) :=
  t.inner.map (Path.inner, ·) ++ t.direct.map (Path.direct, ·)

def first {uuid : Bytes} (huuid : uuid.length = 16) (others : List Frame) (f : Frame)
    (hothers : ∀ g ∈ others, g.command = .paddingContinue) (hfits : ∀ g ∈ others ++ [f], g.Fits)
    (writes : List Bytes) (hwrites : ((others ++ [f]).map Frame.content).flatten = writes.flatten) :
    Transcript where
  stream :=
    { uuid := uuid
      frames := others ++ [f]
      raw := []
      uuid_length := huuid
      continued := by simpa using hothers
      raw_ended := by simp }
  last := f
  padded := writes
  later := []
  inner := [uuid ++ ((others ++ [f]).map Frame.bytes).flatten]
  direct := []
  last_eq := by simp
  fits := hfits
  contents_eq := hwrites
  raw_eq := rfl
  bytes_eq := by simp [PaddedStream.bytes, PaddedStream.framed]
  later_nil := fun _ => rfl
  direct_nil := fun _ => rfl
  inner_eq := fun _ => by simp [PaddedStream.framed]

theorem framed_of_continue (t : Transcript) (ht : t.last.command = .paddingContinue) :
    t.inner.flatten = t.stream.framed := by
  have hbytes := t.bytes_eq
  rw [t.direct_nil (by rw [ht]; decide), flatten_nil, append_nil] at hbytes
  rw [hbytes, PaddedStream.bytes, t.raw_eq, t.later_nil ht, flatten_nil, append_nil]

def extend (t : Transcript) (ht : t.last.command = .paddingContinue)
    (others : List Frame) (f : Frame) (hothers : ∀ g ∈ others, g.command = .paddingContinue)
    (hfits : ∀ g ∈ others ++ [f], g.Fits) (data : Bytes)
    (hdata : ((others ++ [f]).map Frame.content).flatten = data) : Transcript where
  stream :=
    { uuid := t.stream.uuid
      frames := t.stream.frames ++ (others ++ [f])
      raw := []
      uuid_length := t.stream.uuid_length
      continued := by
        intro g hg
        rw [← append_assoc, dropLast_concat, mem_append] at hg
        rcases hg with hg | hg
        · exact t.stream.continued_of_last t.last_eq ht g hg
        · exact hothers g hg
      raw_ended := by simp }
  last := f
  padded := t.padded ++ [data]
  later := []
  inner := t.inner ++ [((others ++ [f]).map Frame.bytes).flatten]
  direct := []
  last_eq := by simp
  fits := by
    intro g hg
    rcases mem_append.mp hg with hg | hg
    · exact t.fits g hg
    · exact hfits g hg
  contents_eq := by
    have hcontents := t.contents_eq
    rw [PaddedStream.contents] at hcontents ⊢
    rw [map_append, flatten_append, hcontents, hdata, flatten_append,
      flatten_singleton]
  raw_eq := rfl
  bytes_eq := by
    simp [PaddedStream.bytes, PaddedStream.framed, t.framed_of_continue ht]
  later_nil := fun _ => rfl
  direct_nil := fun _ => rfl
  inner_eq := fun _ => by
    simp [PaddedStream.framed, t.framed_of_continue ht]

def afterEnd (t : Transcript) (ht : t.last.command = .paddingEnd) (data : Bytes) : Transcript :=
  { t with
    stream := { t.stream with
      raw := t.stream.raw ++ data
      raw_ended := fun _ => ⟨t.last, t.last_eq, by rw [ht]; decide⟩ }
    later := t.later ++ [data]
    inner := t.inner ++ [data]
    raw_eq := by simp [t.raw_eq]
    bytes_eq := by
      have hbytes := t.bytes_eq
      rw [t.direct_nil (by rw [ht]; decide), flatten_nil, append_nil] at hbytes
      simp only [t.direct_nil (by rw [ht]; decide), flatten_append, flatten_singleton,
        flatten_nil, append_nil, hbytes]
      simp [PaddedStream.bytes, PaddedStream.framed]
    later_nil := fun h => by rw [ht] at h; cases h
    inner_eq := fun h => by rw [ht] at h; cases h }

def afterDirect (t : Transcript) (ht : t.last.command = .paddingDirect) (data : Bytes) :
    Transcript :=
  { t with
    stream := { t.stream with
      raw := t.stream.raw ++ data
      raw_ended := fun _ => ⟨t.last, t.last_eq, by rw [ht]; decide⟩ }
    later := t.later ++ [data]
    direct := t.direct ++ [data]
    raw_eq := by simp [t.raw_eq]
    bytes_eq := by
      have hbytes := t.bytes_eq
      rw [flatten_append, ← append_assoc, hbytes, flatten_singleton]
      simp [PaddedStream.bytes, PaddedStream.framed]
    later_nil := fun h => by rw [ht] at h; cases h
    direct_nil := fun h => absurd ht h }

section

variable (t : Transcript) (data : Bytes)

theorem extend_eq (ht : t.last.command = .paddingContinue) (others : List Frame) (f : Frame)
    (hothers : ∀ g ∈ others, g.command = .paddingContinue) (hfits : ∀ g ∈ others ++ [f], g.Fits)
    (hdata : ((others ++ [f]).map Frame.content).flatten = data) :
    (t.extend ht others f hothers hfits data hdata).writes = t.writes ++ [data] ∧
      (t.extend ht others f hothers hfits data hdata).sends =
        t.sends ++ [(Path.inner, ((others ++ [f]).map Frame.bytes).flatten)] := by
  have hdirect := t.direct_nil (by rw [ht]; decide)
  constructor
  · simp [writes, extend, t.later_nil ht]
  · simp [sends, extend, hdirect]

theorem afterEnd_eq (ht : t.last.command = .paddingEnd) :
    (t.afterEnd ht data).writes = t.writes ++ [data] ∧
      (t.afterEnd ht data).sends = t.sends ++ [(Path.inner, data)] := by
  have hdirect := t.direct_nil (by rw [ht]; decide)
  constructor
  · simp [writes, afterEnd]
  · simp [sends, afterEnd, hdirect]

theorem afterDirect_eq (ht : t.last.command = .paddingDirect) :
    (t.afterDirect ht data).writes = t.writes ++ [data] ∧
      (t.afterDirect ht data).sends = t.sends ++ [(Path.direct, data)] := by
  constructor
  · simp [writes, afterDirect]
  · simp [sends, afterDirect]

end

end Transcript

inductive Sent (uuid : Bytes) (s : VisionTrafficState) :
    List Bytes → List (Path × Bytes) → Prop where
  | nothing (huuid : s.writeOnceUserUUID = some uuid) (hpadding : s.writerIsPadding = true)
      (hdirect : s.writerDirectCopy = false) : Sent uuid s [] []
  | stream (t : Transcript) (hstream : t.stream.uuid = uuid) (huuid : s.writeOnceUserUUID = none)
      (hpadding : s.writerIsPadding = decide (t.last.command = .paddingContinue))
      (hdirect : s.writerDirectCopy = decide (t.last.command = .paddingDirect)) :
      Sent uuid s t.writes t.sends

theorem processReceiveData_writer (s : VisionTrafficState) (data : Bytes) :
    (processReceiveData s data).1.writeOnceUserUUID = s.writeOnceUserUUID ∧
      (processReceiveData s data).1.writerIsPadding = s.writerIsPadding ∧
      (processReceiveData s data).1.writerDirectCopy = s.writerDirectCopy ∧
      (processReceiveData s data).1.testseed = s.testseed := by
  unfold processReceiveData
  rw [processReceiveData_filter]
  simp only
  split
  · exact ⟨rfl, rfl, rfl, rfl⟩
  split
  · split
    · exact ⟨rfl, rfl, rfl, rfl⟩
    split
    · exact ⟨rfl, rfl, rfl, rfl⟩
    split
    · exact ⟨rfl, rfl, rfl, rfl⟩
    · exact ⟨rfl, rfl, rfl, rfl⟩
  · exact ⟨rfl, rfl, rfl, rfl⟩

section

variable {uuid : Bytes} {s s' : VisionTrafficState} {writes : List Bytes}
    {sends : List (Path × Bytes)}

theorem Sent.receive (h : Sent uuid s writes sends) (data : Bytes) :
    Sent uuid (processReceiveData s data).1 writes sends := by
  obtain ⟨h1, h2, h3, -⟩ := processReceiveData_writer s data
  cases h with
  | nothing huuid hpadding hdirect =>
    exact .nothing (h1.trans huuid) (h2.trans hpadding) (h3.trans hdirect)
  | stream t hstream huuid hpadding hdirect =>
    exact .stream t hstream (h1.trans huuid) (h2.trans hpadding) (h3.trans hdirect)

/-- **A write** extends what has been sent. -/
theorem Sent.write (huuid : uuid.length = 16) (h : Sent uuid s writes sends) {path : Path}
    (hsend : sendRaw s data outcomes = some (s', path, out)) :
    Sent uuid s' (writes ++ [data]) (sends ++ [(path, out)]) := by
  obtain ⟨⟨s₁, out₁⟩, hprocess, hresult⟩ := Option.map_eq_some_iff.mp hsend
  simp only [Prod.mk.injEq] at hresult
  obtain ⟨rfl, rfl, rfl⟩ := hresult
  cases h with
  | nothing honce hpadding hdirect =>
    obtain ⟨others, f, hothers, hfits, hdata, rfl, rfl⟩ :=
      processSendData_padding hpadding hdirect hprocess
    rw [hdirect, honce]
    exact .stream (.first huuid others f hothers hfits [data] (by rw [hdata, flatten_singleton]))
      rfl rfl rfl rfl
  | stream t hstream honce hpadding hdirect =>
    cases hcommand : t.last.command with
    | paddingContinue =>
      rw [hcommand] at hpadding hdirect
      obtain ⟨others, f, hothers, hfits, hdata, rfl, rfl⟩ :=
        processSendData_padding hpadding hdirect hprocess
      obtain ⟨hwrites, hsends⟩ := t.extend_eq data hcommand others f hothers hfits hdata
      rw [hdirect, honce, Option.getD_none, nil_append, ← hwrites]
      exact hsends ▸ .stream (t.extend hcommand others f hothers hfits data hdata)
        hstream rfl rfl rfl
    | paddingEnd =>
      have hpadding' : s.writerIsPadding = false := by rw [hpadding, hcommand]; rfl
      have hdirect' : s.writerDirectCopy = false := by rw [hdirect, hcommand]; rfl
      rw [processSendData_raw hpadding'] at hprocess
      obtain ⟨rfl, rfl⟩ := Prod.mk.inj (Option.some.inj hprocess)
      obtain ⟨hwrites, hsends⟩ := t.afterEnd_eq data hcommand
      rw [hdirect', ← hwrites]
      exact hsends ▸ .stream (t.afterEnd hcommand data) hstream honce hpadding
        (hdirect'.symm.trans hdirect)
    | paddingDirect =>
      have hpadding' : s.writerIsPadding = false := by rw [hpadding, hcommand]; rfl
      have hdirect' : s.writerDirectCopy = true := by rw [hdirect, hcommand]; rfl
      rw [processSendData_raw hpadding'] at hprocess
      obtain ⟨rfl, rfl⟩ := Prod.mk.inj (Option.some.inj hprocess)
      obtain ⟨hwrites, hsends⟩ := t.afterDirect_eq data hcommand
      rw [hdirect', ← hwrites]
      exact hsends ▸ .stream (t.afterDirect hcommand data) hstream honce hpadding
        (hdirect'.symm.trans hdirect)

theorem Sent.run (huuid : uuid.length = 16) (h : Sent uuid s writes sends)
    {events : List VisionEvent} {out : List (Path × Bytes)}
    (hrun : uplinkRun s events = some (s', out)) :
    Sent uuid s' (writes ++ writesOf events) (sends ++ out) := by
  induction events generalizing s writes sends out with
  | nil =>
    obtain ⟨rfl, rfl⟩ := Prod.mk.inj (Option.some.inj hrun)
    rw [writesOf, filterMap_nil, append_nil, append_nil]
    exact h
  | cons e events ih =>
    obtain ⟨⟨s₁, out₁⟩, hstep, hrest⟩ := Option.bind_eq_some_iff.mp hrun
    obtain ⟨⟨s₂, out₂⟩, hlater, hresult⟩ := Option.map_eq_some_iff.mp hrest
    simp only [Prod.mk.injEq] at hresult
    obtain ⟨rfl, rfl⟩ := hresult
    cases e with
    | write data outcomes =>
      obtain ⟨⟨s₃, path, out₃⟩, hsend, hresult⟩ := Option.map_eq_some_iff.mp hstep
      obtain ⟨rfl, rfl⟩ := Prod.mk.inj hresult
      have hdone := ih (h.write huuid hsend) hlater
      rw [append_assoc, append_assoc] at hdone
      exact hdone
    | receive data =>
      obtain ⟨rfl, rfl⟩ := Prod.mk.inj (Option.some.inj hstep)
      exact ih (h.receive data) hlater

end

-- ----
-- Writes return

/-- The two numbers of the seed that are bounds of random numbers. -/
def PositiveSeed (seed : List Int) : Prop := 0 < seed.getD 1 0 ∧ 0 < seed.getD 3 0

instance (seed : List Int) : Decidable (PositiveSeed seed) := inferInstanceAs (Decidable (_ ∧ _))

theorem visionPadding_returns (hseed : PositiveSeed s.testseed) (data : Bytes)
    (command : VisionCommand) (longPadding : Bool) (outcome : Outcome) :
    ∃ out, visionPadding data command s longPadding outcome =
      some ({ s with writeOnceUserUUID := none }, out) := by
  have hlength : ∃ n, paddingLength s.testseed data.length longPadding outcome = some n := by
    obtain ⟨hlong, hshort⟩ := hseed
    unfold paddingLength nextInt
    simp only
    split
    · rw [if_neg (by omega)]
      exact ⟨_, rfl⟩
    · rw [if_neg (by omega)]
      exact ⟨_, rfl⟩
  obtain ⟨n, hn⟩ := hlength
  rw [visionPadding, hn]
  exact ⟨_, rfl⟩

theorem padChunks_returns (hseed : PositiveSeed s.testseed)
    (rest last : VisionCommand) (restLong lastLong : Bool) (chunks : List Bytes)
    (outcomes : Nat → Outcome) :
    (padChunks rest last restLong lastLong chunks s outcomes).isSome := by
  induction chunks generalizing s outcomes with
  | nil => rfl
  | cons chunk chunks ih =>
    cases chunks with
    | nil =>
      obtain ⟨out, hout⟩ := visionPadding_returns hseed chunk last lastLong (outcomes 0)
      rw [padChunks, hout]
      rfl
    | cons next chunks =>
      obtain ⟨out, hout⟩ := visionPadding_returns hseed chunk rest restLong (outcomes 0)
      rw [padChunks, hout, Option.bind_some, Option.isSome_map]
      apply ih
      exact hseed

theorem processSendData_returns (hseed : PositiveSeed s.testseed)
    (data : Bytes) (outcomes : Nat → Outcome) : (processSendData s data outcomes).isSome := by
  unfold processSendData
  rw [processSendData_filter]
  simp only
  split
  · rfl
  split
  · rfl
  split
  · rw [Option.isSome_map]
    apply padChunks_returns
    exact hseed
  split
  · apply padChunks_returns
    exact hseed
  · apply padChunks_returns
    exact hseed

section

variable {uuid : Bytes} {s s' : VisionTrafficState} {writes : List Bytes}
    {sends : List (Path × Bytes)}

theorem Sent.testseed_eq (h : Sent uuid s writes sends)
    (hprocess : processSendData s data outcomes = some (s', out)) :
    s'.testseed = s.testseed := by
  cases hpadding : s.writerIsPadding with
  | false =>
    rw [processSendData_raw hpadding] at hprocess
    obtain ⟨rfl, -⟩ := Prod.mk.inj (Option.some.inj hprocess)
    rfl
  | true =>
    have hdirect : s.writerDirectCopy = false := by
      cases h with
      | nothing _ _ hdirect => exact hdirect
      | stream t _ _ hcontinue hdirect =>
        have hcommand : t.last.command = .paddingContinue := by
          rw [hpadding] at hcontinue
          exact of_decide_eq_true hcontinue.symm
        rw [hdirect, hcommand]
        rfl
    obtain ⟨-, f, -, -, -, rfl, -⟩ := processSendData_padding hpadding hdirect hprocess
    rfl

theorem Sent.run_returns (huuid : uuid.length = 16) (h : Sent uuid s writes sends)
    (hseed : PositiveSeed s.testseed) (events : List VisionEvent) :
    (uplinkRun s events).isSome := by
  induction events generalizing s writes sends with
  | nil => rfl
  | cons e events ih =>
    cases e with
    | write data outcomes =>
      obtain ⟨⟨s₁, out⟩, hprocess⟩ := Option.isSome_iff_exists.mp
        (processSendData_returns hseed data outcomes)
      have hsend : sendRaw s data outcomes =
          some (s₁, if s.writerDirectCopy then .direct else .inner, out) := by
        rw [sendRaw, hprocess]
        rfl
      rw [uplinkRun, uplinkStep, hsend, Option.map_some, Option.bind_some, Option.isSome_map]
      exact ih (h.write huuid hsend) (by rw [h.testseed_eq hprocess]; exact hseed)
    | receive data =>
      rw [uplinkRun, uplinkStep, Option.bind_some, Option.isSome_map]
      exact ih (h.receive data) (by rw [(processReceiveData_writer s data).2.2.2]; exact hseed)

end

theorem sent_opened {uuid : Bytes} (huuid : uuid.length = 16) {testseed : List Int}
    (h : sendEmptyPadding (.new uuid testseed) outcome = some (s, out)) :
    Sent uuid s [] [(.inner, out)] := by
  obtain ⟨f, hcommand, hcontent, hfits, rfl, rfl⟩ := visionPadding_spec (by decide) h
  have hsent : Sent uuid { VisionTrafficState.new uuid testseed with writeOnceUserUUID := none } _
      _ :=
    .stream (.first huuid [] f (by simp) (by simpa using hfits) [] (by simp [hcontent])) rfl rfl
    (by rw [show (Transcript.first huuid [] f _ _ [] _).last = f from rfl, hcommand]; rfl)
    (by rw [show (Transcript.first huuid [] f _ _ [] _).last = f from rfl, hcommand]; rfl)
  simpa [Transcript.writes, Transcript.sends, Transcript.first, VisionTrafficState.new] using hsent

theorem Sent.unpads {uuid : Bytes} {writes : List Bytes}
    {sends : List (Path × Bytes)} (h : Sent uuid s writes sends) :
    (visionUnpadding uuid (sends.map Prod.snd).flatten {}).2 = writes.flatten := by
  cases h with
  | nothing => rfl
  | stream t hstream =>
    have hbytes : (t.sends.map Prod.snd).flatten = t.stream.bytes := by
      rw [← t.bytes_eq, Transcript.sends]
      simp [Function.comp_def]
    have hne : t.stream.frames ≠ [] := by
      intro hnil
      have hlast := t.last_eq
      simp [hnil] at hlast
    rw [hbytes, ← hstream, PaddedStream.visionUnpadding_bytes _ hne, t.contents_eq, t.raw_eq,
      Transcript.writes, flatten_append]

/-- **The uplink.** A connection whose seed has positive bounds never throws. Whatever
it sends, for whatever writes, outcomes and received data, unpads to the writes and is
a padded stream of them. -/
theorem uplink_sends_stream {uuid : Bytes} (huuid : uuid.length = 16) (testseed : List Int)
    (opening : Option Outcome) (events : List VisionEvent) :
    (PositiveSeed (VisionTrafficState.new uuid testseed).testseed →
      (uplink uuid testseed opening events).isSome) ∧
    ∀ s sends, uplink uuid testseed opening events = some (s, sends) →
      (visionUnpadding uuid (sends.map Prod.snd).flatten {}).2 = (writesOf events).flatten ∧
      ((writesOf events = [] ∧ sends = []) ∨
        ∃ t : Transcript, t.stream.uuid = uuid ∧ t.writes = writesOf events ∧ t.sends = sends) := by
  have hnew : Sent uuid (.new uuid testseed) [] [] := .nothing rfl rfl rfl
  -- what a whole run sends, from the start or from behind the opening frame
  suffices hsent : (PositiveSeed (VisionTrafficState.new uuid testseed).testseed →
      (uplink uuid testseed opening events).isSome) ∧
      ∀ s sends, uplink uuid testseed opening events = some (s, sends) →
        Sent uuid s (writesOf events) sends by
    refine ⟨hsent.1, fun s sends hrun => ?_⟩
    have h := hsent.2 s sends hrun
    refine ⟨h.unpads, ?_⟩
    generalize writesOf events = writes at h ⊢
    cases h with
    | nothing => exact .inl ⟨rfl, rfl⟩
    | stream t hstream => exact .inr ⟨t, hstream, rfl, rfl⟩
  cases opening with
  | none => exact ⟨fun hseed => hnew.run_returns huuid hseed events, fun s sends hrun =>
      hnew.run huuid hrun⟩
  | some outcome =>
    constructor
    · intro hseed
      obtain ⟨out, hopen⟩ := visionPadding_returns hseed [] .paddingContinue true outcome
      have hopened := sent_opened huuid hopen
      rw [uplink, sendEmptyPadding, hopen, Option.bind_some, Option.isSome_map]
      exact hopened.run_returns huuid hseed events
    · intro s sends hrun
      obtain ⟨⟨s₁, out₁⟩, hopen, hrest⟩ := Option.bind_eq_some_iff.mp hrun
      obtain ⟨⟨s₂, out₂⟩, hlater, hresult⟩ := Option.map_eq_some_iff.mp hrest
      simp only [Prod.mk.injEq] at hresult
      obtain ⟨rfl, rfl⟩ := hresult
      exact (sent_opened huuid hopen).run huuid hlater

/-- Two writes behind an opening frame. -/
theorem uplink_of_two_writes :
    ((uplink (List.replicate 16 7) [900, 500, 900, 256] (some ⟨0, fun _ => 0⟩)
      [.write [1, 2] fun _ => ⟨3, fun _ => 0⟩, .receive [9], .write [3] fun _ =>
        ⟨4, fun _ => 0⟩]).isSome) ∧
    writesOf [.write [1, 2] fun _ => ⟨3, fun _ => 0⟩, .receive [9],
      .write [3] fun _ => ⟨4, fun _ => 0⟩] = [[1, 2], [3]] :=
  ⟨(uplink_sends_stream rfl [900, 500, 900, 256] (some ⟨0, fun _ => 0⟩) _).1 (by decide), rfl⟩

end Anywhere.Vless
