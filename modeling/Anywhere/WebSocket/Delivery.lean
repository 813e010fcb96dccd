import Anywhere.WebSocket.Connection

/-!
# Anywhere — data over a WebSocket

A server sends data frames with pings and pongs between them, and the transport returns
the stream in chunks. `receive` returns the payloads of the data frames one by one. The
layer of VLESS above it reports an empty payload as the end of the stream.

* `receive_data_iff` — the two layers together.
-/

namespace Anywhere.WebSocket

open Lib List

-- ----
-- Streams

namespace ServerFrame

def isControl (f : ServerFrame) : Bool := f.opcode == 0x09 || f.opcode == 0x0A

end ServerFrame

def wires (frames : List ServerFrame) : Bytes := frames.flatMap ServerFrame.wire

def payloads (frames : List ServerFrame) : List Bytes :=
  (frames.filter fun f => !f.isControl).map (·.payload)

/-- Of the first `n` bytes of a stream, those that belong to a frame that is not
complete. -/
def incomplete : List ServerFrame → Nat → Nat
  | [], n => n
  | f :: frames, n => if n < f.wire.length then n else incomplete frames (n - f.wire.length)

/-- With `n` bytes of the stream in the buffer, no chunk that follows makes it exceed its
maximum. -/
def Within (frames : List ServerFrame) (n : Nat) (chunks : List Bytes) : Prop :=
  ∀ before chunk after, chunks = before ++ chunk :: after →
    incomplete frames (n + before.flatten.length) + chunk.length ≤ maxReceiveBufferSize

/-- What is known of a connection: its buffer and the chunks to come are the stream of
some frames, none of them a close frame, and the buffer does not overflow. -/
structure Receiving (frames : List ServerFrame) (buffer : Bytes) (chunks : List Bytes) : Prop where
  stream : buffer ++ chunks.flatten = wires frames
  open_ : ∀ f ∈ frames, f.opcode ≠ 0x08
  within : Within frames buffer.length chunks
  size : buffer.length ≤ maxReceiveBufferSize

theorem two_le_length_wire (f : ServerFrame) : 2 ≤ f.wire.length := by
  rw [length_wire, ServerFrame.headerSize]
  omega

theorem incomplete_le (frames : List ServerFrame) (n : Nat) : incomplete frames n ≤ n := by
  induction frames generalizing n with
  | nil => exact Nat.le_refl n
  | cons f frames ih =>
    rw [incomplete]
    split
    · exact Nat.le_refl n
    · exact Nat.le_trans (ih _) (Nat.sub_le _ _)

variable {chunks : List Bytes} {frames : List ServerFrame}

theorem Within.tail {n : Nat} {chunk : Bytes}
    (h : Within frames n (chunk :: chunks)) : Within frames (n + chunk.length) chunks := by
  rintro before chunk' after rfl
  have := h (chunk :: before) chunk' after rfl
  rwa [flatten_cons, length_append, ← Nat.add_assoc] at this

variable {f : ServerFrame}

theorem Within.drop {n : Nat}
    (h : Within (f :: frames) (f.wire.length + n) chunks) : Within frames n chunks := by
  intro before chunk after heq
  have := h before chunk after heq
  rwa [incomplete, if_neg (by omega), Nat.add_assoc, Nat.add_sub_cancel_left] at this

/-- A stream that fits the buffer does not make it overflow. -/
theorem within_of_length_le
    (h : chunks.flatten.length ≤ maxReceiveBufferSize) : Within frames 0 chunks := by
  rintro before chunk after rfl
  have hle := incomplete_le frames (0 + before.flatten.length)
  simp only [flatten_append, flatten_cons, length_append] at h
  omega

/-- The first frame fits the buffer, since it will be there as a whole. -/
theorem Receiving.length_le {buffer : Bytes} (h : Receiving (f :: frames) buffer chunks) :
    f.wire.length ≤ maxReceiveBufferSize := by
  obtain ⟨hstream, hopen, hwithin, hsize⟩ := h
  induction chunks generalizing buffer with
  | nil =>
    have := congrArg List.length hstream
    simp only [wires, flatten_nil, append_nil, flatMap_cons, length_append] at this
    omega
  | cons chunk chunks ih =>
    by_cases hle : f.wire.length ≤ buffer.length
    · omega
    · have hchunk := hwithin [] chunk chunks rfl
      rw [flatten_nil, length_nil, Nat.add_zero, incomplete, if_pos (by omega)] at hchunk
      refine @ih (buffer ++ chunk) ?_ ?_ ?_
      · rw [← hstream]
        simp
      · rw [length_append]
        exact hwithin.tail
      · rw [length_append]
        exact hchunk

/-- A complete frame goes off the buffer. -/
theorem Receiving.drop {rest : Bytes}
    (h : Receiving (f :: frames) (f.wire ++ rest) chunks) : Receiving frames rest chunks where
  stream := by
    have := h.stream
    rw [wires, flatMap_cons, append_assoc] at this
    exact append_cancel_left this
  open_ := fun g hg => h.open_ g (by simp [hg])
  within := by
    have := h.within
    rw [length_append] at this
    exact this.drop
  size := by
    have := h.size
    rw [length_append] at this
    omega

/-- A chunk goes onto a buffer in which no frame is complete. -/
theorem Receiving.append {buffer chunk : Bytes}
    (h : Receiving frames buffer (chunk :: chunks))
    (hpart : incomplete frames buffer.length = buffer.length) :
    Receiving frames (buffer ++ chunk) chunks where
  stream := by
    rw [← h.stream]
    simp
  open_ := h.open_
  within := by
    rw [length_append]
    exact h.within.tail
  size := by
    have := h.within [] chunk chunks rfl
    rw [flatten_nil, length_nil, Nat.add_zero, hpart] at this
    rwa [length_append]

-- ----
-- One call of `receive`

theorem payloads_data (h : f.isControl = false) (frames : List ServerFrame) :
    payloads (f :: frames) = f.payload :: payloads frames := by
  simp [payloads, h]

theorem payloads_control (h : f.isControl = true) (frames : List ServerFrame) :
    payloads (f :: frames) = payloads frames := by
  simp [payloads, h]

theorem frameResult_data (h : f.isControl = false) (hopen : f.opcode ≠ 0x08) :
    frameResult f.opcode f.payload = .binary f.payload := by
  rw [ServerFrame.isControl, Bool.or_eq_false_iff, beq_eq_false_iff_ne, beq_eq_false_iff_ne] at h
  unfold frameResult
  rw [if_neg hopen, if_neg h.1, if_neg h.2]

theorem frameResult_control (h : f.isControl = true) :
    frameResult f.opcode f.payload = .ping f.payload ∨ frameResult f.opcode f.payload =
      .pong f.payload := by
  rw [ServerFrame.isControl, Bool.or_eq_true, beq_iff_eq, beq_iff_eq] at h
  rcases h with h | h
  · exact .inl (by rw [h]; rfl)
  · exact .inr (by rw [h]; rfl)

/-- The buffer is drained: up to the payload of the first data frame that is complete, or
until no frame is. -/
theorem nextData_stream (n : Nat) {c : Connection}
    (h : Receiving frames c.receiveBuffer chunks) (hn : c.receiveBuffer.length < n) :
    (∃ payload frames' c', payloads frames = payload :: payloads frames' ∧
      nextData n c = .ok (some payload, c') ∧ Receiving frames' c'.receiveBuffer chunks ∧
      c'.atEof = c.atEof) ∨
    ∃ frames' c', payloads frames = payloads frames' ∧ nextData n c = .ok (none, c') ∧
      Receiving frames' c'.receiveBuffer chunks ∧
      incomplete frames' c'.receiveBuffer.length = c'.receiveBuffer.length ∧
        c'.atEof = c.atEof := by
  induction n generalizing frames c with
  | zero => omega
  | succ n ih =>
    rw [nextData]
    rcases frames with _ | ⟨f, frames⟩
    · -- the stream is empty
      have hnil : c.receiveBuffer = [] := (append_eq_nil_iff.1 h.stream).1
      right
      refine ⟨[], c, rfl, ?_, h, rfl, rfl⟩
      rw [hnil]
      rfl
    · have hlen := h.length_le
      by_cases hpart : c.receiveBuffer.length < f.wire.length
      · obtain ⟨more, hmore⟩ : ∃ more, f.wire = c.receiveBuffer ++ more := by
          have hstream := h.stream
          rw [wires, flatMap_cons] at hstream
          obtain ⟨more, heq, -⟩ | ⟨more, heq, -⟩ := append_eq_append_iff.1 hstream
          · exact ⟨more, heq⟩
          · rw [heq, length_append] at hpart
            omega
        have hne : more ≠ [] := by
          rintro rfl
          rw [hmore, append_nil] at hpart
          omega
        right
        refine ⟨f :: frames, c, rfl, ?_, h, by rw [incomplete, if_pos hpart], rfl⟩
        rw [tryExtractFrame_part hlen hmore hne]
      · obtain ⟨rest, hrest⟩ : ∃ rest, c.receiveBuffer = f.wire ++ rest := by
          have hstream := h.stream
          rw [wires, flatMap_cons] at hstream
          obtain ⟨more, heq, -⟩ | ⟨more, heq, -⟩ := append_eq_append_iff.1 hstream
          · have := congrArg List.length heq
            rw [length_append] at this
            have hnil : more = [] := eq_nil_of_length_eq_zero (by omega)
            exact ⟨[], by rw [heq, hnil, append_nil, append_nil]⟩
          · exact ⟨more, heq⟩
        have hdrop : Receiving frames rest chunks := (hrest ▸ h).drop
        have hshorter : rest.length < n := by
          have htwo := two_le_length_wire f
          rw [hrest, length_append] at hn
          omega
        rw [hrest, tryExtractFrame_wire f hlen rest]
        rcases hcontrol : f.isControl
        · left
          rw [frameResult_data hcontrol (h.open_ f (by simp))]
          exact ⟨f.payload, frames, { c with receiveBuffer := rest },
            payloads_data hcontrol frames, rfl, hdrop, rfl⟩
        · rw [payloads_control hcontrol]
          rcases frameResult_control hcontrol with hping | hpong
          · rw [hping]
            exact @ih frames { c with receiveBuffer := rest, sent := c.sent ++ [(0x0A, f.payload)] }
              hdrop
              hshorter
          · rw [hpong]
            exact @ih frames { c with receiveBuffer := rest } hdrop hshorter

/-- `receive` returns the payload of the next data frame, and null at the end. -/
theorem receiveLoop_stream {c : Connection}
    (h : Receiving frames c.receiveBuffer chunks) :
    (∃ payload frames' c', payloads frames = payload :: payloads frames' ∧
      receiveLoop chunks c = .ok (some payload, c') ∧ Receiving frames' c'.receiveBuffer c'.reads ∧
      c'.atEof = c.atEof) ∨
    ∃ c', payloads frames = [] ∧ receiveLoop chunks c = .ok (none, c') ∧
      Receiving [] c'.receiveBuffer c'.reads ∧ c'.atEof = true := by
  induction chunks generalizing frames c with
  | nil =>
    unfold receiveLoop
    rcases nextData_stream _ h (Nat.lt_succ_self _) with
      ⟨payload, frames', c', hpayloads, hnext, hc', heof⟩ | ⟨frames', c', hpayloads, hnext,
        hc', hpart, -⟩
    · left
      rw [hnext]
      exact ⟨payload, frames', { c' with reads := [] }, hpayloads, rfl, hc', heof⟩
    · right
      rw [hnext]
      -- what is in the buffer is all there is, so no frame is left
      have hframes : frames' = [] := by
        rcases frames' with _ | ⟨f, frames'⟩
        · rfl
        · have hlen := congrArg List.length hc'.stream
          rw [flatten_nil, append_nil, wires, flatMap_cons, length_append] at hlen
          have htwo := two_le_length_wire f
          have hle := incomplete_le frames' (c'.receiveBuffer.length - f.wire.length)
          rw [incomplete, if_neg (by omega)] at hpart
          omega
      subst hframes
      exact ⟨{ c' with reads := [], atEof := true }, hpayloads, rfl, hc', rfl⟩
  | cons chunk chunks ih =>
    unfold receiveLoop
    rcases nextData_stream _ h (Nat.lt_succ_self _) with
      ⟨payload, frames', c', hpayloads, hnext, hc', heof⟩ |
      ⟨frames', c', hpayloads, hnext, hc', hpart, heof⟩
    · left
      rw [hnext]
      exact ⟨payload, frames', { c' with reads := chunk :: chunks }, hpayloads, rfl, hc', heof⟩
    · rw [hnext, hpayloads, ← heof]
      dsimp only
      have happend := hc'.append hpart
      by_cases hempty : chunk = []
      · rw [if_pos hempty]
        rw [hempty, append_nil] at happend
        exact ih happend
      · have hsize := happend.size
        rw [length_append] at hsize
        rw [if_neg hempty, if_neg (by omega)]
        exact @ih frames' { c' with receiveBuffer := c'.receiveBuffer ++ chunk } happend

-- ----
-- All calls

theorem take_padded {α : Type} (n : Nat) (xs : List α) (x : α) :
    (xs ++ List.replicate (n + 1) x).take n = (xs ++ List.replicate n x).take n := by
  rw [replicate_succ', ← append_assoc, take_append_of_le_length (by simp)]

/-- The payloads come out in order, and then null for ever. -/
theorem receives_stream (n : Nat) {frames : List ServerFrame} {c : Connection}
    (h : Receiving frames c.receiveBuffer c.reads) :
    receives n c = .ok (((payloads frames).map some ++ List.replicate n none).take n) := by
  induction n generalizing frames c with
  | zero => rfl
  | succ n ih =>
    rw [receives]
    rcases receiveLoop_stream h with ⟨payload, frames', c', hpayloads, hloop, hc', -⟩ |
      ⟨c', hpayloads, hloop, hc', -⟩
    · have hreceive : receive c = .ok (some payload, c') := hloop
      rw [hreceive, hpayloads]
      dsimp only
      rw [ih hc', map_cons, cons_append, take_succ_cons, take_padded]
      rfl
    · have hreceive : receive c = .ok (none, c') := hloop
      rw [hreceive, hpayloads]
      dsimp only
      rw [ih hc']
      simp [payloads, Except.map, replicate_succ]

-- ----
-- The layer of VLESS

/-- What is behind the response header in a stream of VLESS: all of it when it begins
with another version. -/
def stripResponse : Bytes → Bytes
  | version :: addonsLength :: rest =>
    if version ≠ 0x00 then version :: addonsLength :: rest else rest.drop addonsLength.toNat
  | _ => []

/-- What `receiveRaw` makes of the payloads before the end of the stream, each result
with whether it is reported at the end. -/
def rawResults : ResponseHeader → List Bytes → List (Option Bytes × Bool)
  | _, [] => []
  | h, payload :: payloads =>
    if payload = [] then (none, false) :: rawResults h payloads
    else
      match processResponseHeader h payload with
      | (some output, h') => (some output, false) :: rawResults h' payloads
      | (none, h') => rawResults h' payloads

theorem rawResults_cons (h : ResponseHeader) (payload : Bytes) (payloads : List Bytes) :
    rawResults h (payload :: payloads) =
      if payload = [] then (none, false) :: rawResults h payloads
      else ((processResponseHeader h payload).1.toList.map fun output => (some output, false)) ++
        rawResults (processResponseHeader h payload).2 payloads := by
  rw [rawResults]
  split
  · rfl
  · rcases processResponseHeader h payload with ⟨_ | output, h'⟩ <;> rfl

/-- One call of `receiveRaw`. -/
theorem receiveRawFuel_payloads (n : Nat) {v : VlessWebSocketConnection}
    (h : Receiving frames v.wsConnection.receiveBuffer v.wsConnection.reads)
    (hn : (payloads frames).length < n) :
    (∃ (result : Option Bytes) (frames' : List ServerFrame) (v' : VlessWebSocketConnection),
      rawResults v.header (payloads frames) = (result, false) :: rawResults v'.header
      (payloads frames') ∧ receiveRawFuel n v = .ok (result, v') ∧
      Receiving frames' v'.wsConnection.receiveBuffer v'.wsConnection.reads ∧
      v'.wsConnection.atEof = v.wsConnection.atEof) ∨
    ∃ v' : VlessWebSocketConnection, rawResults v.header (payloads frames) = [] ∧
      receiveRawFuel n v = .ok (none, v') ∧
      Receiving [] v'.wsConnection.receiveBuffer v'.wsConnection.reads ∧
      v'.wsConnection.atEof = true := by
  induction n generalizing frames v with
  | zero => omega
  | succ n ih =>
    rw [receiveRawFuel]
    rcases receiveLoop_stream h with ⟨payload, frames', c', hpayloads, hloop, hc', heof⟩ |
      ⟨c', hpayloads, hloop, hc', heof⟩
    · have hreceive : receive v.wsConnection = .ok (some payload, c') := hloop
      rw [hreceive, hpayloads]
      dsimp only
      rw [rawResults_cons]
      by_cases hempty : payload = []
      · left
        rw [if_pos hempty, if_pos hempty]
        exact ⟨none, frames', { v with wsConnection := c' }, rfl, rfl, hc', heof⟩
      · rw [if_neg hempty, if_neg hempty]
        rcases hprocess : processResponseHeader v.header payload with ⟨_ | output, header⟩
        · have hshorter : (payloads frames').length < n := by
            rw [hpayloads, length_cons] at hn
            omega
          rw [← heof]
          exact @ih frames' ⟨c', header⟩ hc' hshorter
        · left
          exact ⟨some output, frames', ⟨c', header⟩, rfl, rfl, hc', heof⟩
    · have hreceive : receive v.wsConnection = .ok (none, c') := hloop
      rw [hreceive, hpayloads]
      right
      exact ⟨{ v with wsConnection := c' }, rfl, rfl, hc', heof⟩

theorem length_payloads_le (frames : List ServerFrame) :
    (payloads frames).length ≤ (wires frames).length := by
  induction frames with
  | nil => exact Nat.le_refl 0
  | cons f frames ih =>
    have htwo := two_le_length_wire f
    rw [wires, flatMap_cons, length_append]
    rw [wires] at ih
    rcases hcontrol : f.isControl
    · rw [payloads_data hcontrol, length_cons]
      omega
    · rw [payloads_control hcontrol]
      omega

/-- All calls of `receiveRaw`. -/
theorem receivesRaw_stream (n : Nat) {frames : List ServerFrame} {v : VlessWebSocketConnection}
    (h : Receiving frames v.wsConnection.receiveBuffer v.wsConnection.reads)
    (hopen : v.wsConnection.atEof = false ∨ payloads frames = []) :
    receivesRaw n v =
      .ok ((rawResults v.header (payloads frames) ++ List.replicate n (none, true)).take n) := by
  induction n generalizing frames v with
  | zero => rfl
  | succ n ih =>
    have hfuel : (payloads frames).length < v.wsConnection.stream.length + 1 := by
      have := length_payloads_le frames
      rw [← h.stream] at this
      exact Nat.lt_succ_of_le this
    rw [receivesRaw]
    rcases receiveRawFuel_payloads _ h hfuel with
      ⟨result, frames', v', hresults, hraw, hv', heof⟩ | ⟨v', hresults, hraw, hv', heof⟩
    · have hfalse : v.wsConnection.atEof = false := by
        rcases hopen with hfalse | hnil
        · exact hfalse
        · rw [hnil] at hresults
          cases hresults
      have hreceive : receiveRaw v = .ok (result, v') := hraw
      rw [hreceive, hresults]
      dsimp only
      rw [ih hv' (.inl (heof.trans hfalse)), heof, hfalse, cons_append, take_succ_cons,
        take_padded]
      rfl
    · have hreceive : receiveRaw v = .ok (none, v') := hraw
      rw [hreceive, hresults]
      dsimp only
      rw [ih hv' (.inr rfl), heof]
      simp [payloads, rawResults, Except.map, replicate_succ]

/-- The data behind the response header, of a connection that has read a part of it. -/
def behindHeader (h : ResponseHeader) (stream : Bytes) : Bytes :=
  if h.received then stream else stripResponse (h.pending ++ stream)

/-- A payload gives its part of the data, and what is kept of it is none. -/
theorem processResponseHeader_behind (h : ResponseHeader) (payload more : Bytes) :
    behindHeader h (payload ++ more) =
      (processResponseHeader h payload).1.getD [] ++
        behindHeader (processResponseHeader h payload).2 more ∧
    behindHeader (processResponseHeader h payload).2 [] = [] := by
  unfold processResponseHeader
  rcases hreceived : h.received
  · rw [if_neg (by simp), behindHeader, if_neg (by simp [hreceived]), ← append_assoc]
    rcases h.pending ++ payload with _ | ⟨version, _ | ⟨addonsLength, rest⟩⟩
    · exact ⟨rfl, rfl⟩
    · exact ⟨rfl, rfl⟩
    · dsimp only
      rw [cons_append, cons_append, stripResponse]
      by_cases hversion : version ≠ 0x00
      · rw [if_pos hversion, if_pos hversion]
        exact ⟨rfl, rfl⟩
      · rw [if_neg hversion, if_neg hversion]
        rcases Nat.lt_trichotomy rest.length addonsLength.toNat with hlt | heq | hgt
        · rw [if_pos hlt]
          simp only [behindHeader, Bool.false_eq_true, if_false, Option.getD_none, nil_append,
            cons_append, append_nil, stripResponse, if_neg hversion, true_and]
          exact drop_eq_nil_of_le (Nat.le_of_lt hlt)
        · rw [if_neg (by omega), if_neg (by omega), ← heq, drop_left]
          exact ⟨rfl, rfl⟩
        · rw [if_neg (by omega), if_pos hgt, drop_append_of_le_length (by omega)]
          exact ⟨rfl, rfl⟩
  · rw [if_pos rfl, behindHeader, if_pos hreceived]
    simp [behindHeader, hreceived]

/-- The output is never empty: with nothing behind the header it is null. -/
theorem processResponseHeader_ne_nil {h : ResponseHeader} {data output : Bytes} (hdata : data ≠ [])
    (houtput : (processResponseHeader h data).1 = some output) : output ≠ [] := by
  unfold processResponseHeader at houtput
  split at houtput
  · obtain rfl := Option.some.inj houtput
    exact hdata
  · split at houtput
    · split at houtput
      · obtain rfl := Option.some.inj houtput
        exact cons_ne_nil _ _
      · split at houtput
        · cases houtput
        · split at houtput
          · rename_i hmore
            obtain rfl := Option.some.inj houtput
            exact fun hnil => Nat.not_le.2 hmore (drop_eq_nil_iff.1 hnil)
          · cases houtput
    · cases houtput

/-- Without an empty payload every result is a part of the data, none of them empty, and
they are all of it. -/
theorem rawResults_of_ne_nil {h : ResponseHeader} {payloads : List Bytes}
    (hpending : behindHeader h [] = []) (hne : ∀ payload ∈ payloads, payload ≠ []) :
    ∃ results : List Bytes, (∀ result ∈ results, result ≠ []) ∧
      results.flatten = behindHeader h payloads.flatten ∧
      rawResults h payloads = results.map fun result => (some result, false) := by
  induction payloads generalizing h with
  | nil => exact ⟨[], by simp, hpending.symm, rfl⟩
  | cons payload payloads ih =>
    obtain ⟨hbehind, hnext⟩ := processResponseHeader_behind h payload payloads.flatten
    obtain ⟨results, hparts, hflatten, hresults⟩ := ih hnext fun p hp => hne p (by simp [hp])
    refine ⟨(processResponseHeader h payload).1.toList ++ results, ?_, ?_, ?_⟩
    · intro result hresult
      rcases mem_append.1 hresult with hfirst | hlater
      · exact processResponseHeader_ne_nil (hne payload (by simp)) (Option.mem_toList.1 hfirst)
      · exact hparts result hlater
    · rw [flatten_cons, hbehind, flatten_append, hflatten]
      rcases (processResponseHeader h payload).1 with _ | output <;> simp
    · rw [rawResults_cons, if_neg (hne payload (by simp)), hresults, map_append]

theorem rawResults_of_nil {h : ResponseHeader} {payloads : List Bytes} (hmem : [] ∈ payloads) :
    (none, false) ∈ rawResults h payloads := by
  induction payloads generalizing h with
  | nil => cases hmem
  | cons payload payloads ih =>
    rw [rawResults_cons]
    split
    · exact mem_cons_self
    · rename_i hne
      rcases mem_cons.1 hmem with heq | hmem
      · exact absurd heq.symm hne
      · exact mem_append_right _ (ih hmem)

/-- A connection of VLESS over a WebSocket before its first read. -/
def VlessWebSocketConnection.fresh (received : Bool) (chunks : List Bytes) :
    VlessWebSocketConnection :=
  ⟨{ reads := chunks }, ⟨received, []⟩⟩

/-- The server sends frames, none of them a close frame, and the transport returns them
in chunks. `receive` returns the payloads of the data frames in order, and null behind
them. `receiveRaw` returns the data behind the response header, and null only when the
transport has, if and only if no data frame is empty. -/
theorem receive_data_iff {frames : List ServerFrame} {chunks : List Bytes} (received : Bool)
    (hstream : chunks.flatten = wires frames) (hopen : ∀ f ∈ frames, f.opcode ≠ 0x08)
    (hwithin : Within frames 0 chunks) :
    ((∀ n, receives n { reads := chunks } =
        .ok (((payloads frames).map some ++ List.replicate n none).take n)) ∧
      ∃ results : List Bytes,
        results.flatten = behindHeader ⟨received, []⟩ (payloads frames).flatten ∧
        ∀ n, receivesRaw n (.fresh received chunks) =
          .ok (((results.map fun result => (some result, false)) ++
            List.replicate n (none, true)).take n)) ↔
    ∀ payload ∈ payloads frames, payload ≠ [] := by
  have h : Receiving frames [] chunks := ⟨hstream, hopen, hwithin, Nat.zero_le _⟩
  have hraw : ∀ n, receivesRaw n (.fresh received chunks) =
      .ok ((rawResults ⟨received, []⟩ (payloads frames) ++ List.replicate n (none, true)).take n) :=
    fun n => @receivesRaw_stream n frames (.fresh received chunks) h (.inl rfl)
  constructor
  · rintro ⟨-, results, -, hresults⟩ payload hmem rfl
    have hnull := @rawResults_of_nil ⟨received, []⟩ (payloads frames) hmem
    generalize rawResults ⟨received, []⟩ (payloads frames) = actual at hraw hnull
    have heq := (hraw actual.length).symm.trans (hresults actual.length)
    rw [take_left, Except.ok.injEq] at heq
    rw [heq] at hnull
    have hmem := mem_of_mem_take hnull
    simp at hmem
  · intro hne
    refine ⟨fun n => @receives_stream n frames { reads := chunks } h, ?_⟩
    have hpending : behindHeader ⟨received, []⟩ [] = [] := by
      cases received <;> rfl
    obtain ⟨results, -, hflatten, hresults⟩ := rawResults_of_ne_nil hpending hne
    refine ⟨results, hflatten, fun n => ?_⟩
    rw [hraw, hresults]

/-- A final binary frame, without a mask. -/
def binaryFrame (payload : Bytes) (h : payload.length ≤ 125) : ServerFrame :=
  ⟨0x82, .short, none, payload, h⟩

/-- A ping, the response header with data behind it in a masked frame, and more data. -/
def pingAndData : List ServerFrame :=
  [⟨0x89, .short, none, [], Nat.zero_le _⟩, ⟨0x82, .short, some ⟨[1, 2, 3, 4], rfl⟩, [0, 0, 7],
    (by decide : 3 ≤ 125)⟩, binaryFrame [8] (by decide)]

/-- The same, cut inside the headers. -/
def pingAndDataChunks : List Bytes := [[0x89], [0, 0x82, 0x83, 1, 2, 3], [4, 1, 2], [4, 0x82, 1, 8]]

theorem receive_data_iff_cut :
    (∀ n, receives n { reads := pingAndDataChunks } =
      .ok (((payloads pingAndData).map some ++ List.replicate n none).take n)) ∧
    ∃ results : List Bytes, results.flatten = [7, 8] ∧
      ∀ n, receivesRaw n (.fresh false pingAndDataChunks) =
        .ok (((results.map fun result => (some result, false)) ++
          List.replicate n (none, true)).take n) := by
  have hiff := @receive_data_iff pingAndData pingAndDataChunks false (by decide)
    (by decide) (within_of_length_le (by decide))
  obtain ⟨hreceives, results, hflatten, hresults⟩ := hiff.2 (by decide)
  exact ⟨hreceives, results, hflatten.trans (by decide), hresults⟩

/-- An empty binary frame between data: `receiveRaw` returns null, and data after it. -/
theorem empty_frame_reported_as_end :
    let frames := [binaryFrame [0, 0, 7] (by decide), binaryFrame [] (by decide),
      binaryFrame [8] (by decide)]
    let chunks : List Bytes := [[0x82, 3, 0, 0, 7], [0x82, 0, 0x82, 1, 8]]
    chunks.flatten = wires frames ∧ (∀ f ∈ frames, f.opcode ≠ 0x08) ∧ Within frames 0 chunks ∧
      receivesRaw 4 (.fresh false chunks) =
        .ok [(some [7], false), (none, false), (some [8], false), (none, true)] :=
  ⟨by decide, by decide, within_of_length_le (by decide), by decide⟩

end Anywhere.WebSocket
