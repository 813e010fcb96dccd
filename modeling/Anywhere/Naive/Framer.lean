import Mathlib.Data.List.Induction
import Mathlib.Data.List.ReduceOption
import Anywhere.Lib.Http2
import Anywhere.Naive.Session

/-!
# Anywhere — `Http2Framer` and `Http2Buffer`

The read loop appends what the transport delivers to a buffer with a read offset, and
takes complete frames off it. The buffer drops what has been read now and then, which
nothing outside of it sees.

* `Http2Buffer.unread` — what the buffer stands for.
* `frames_in_order` — any cuts, any calls.
-/

namespace Anywhere.Naive

open Lib List

-- ----
-- Frames

/-- `Http2FrameType.value`. -/
def Http2FrameType.value : Http2FrameType → Nat
  | .data => 0x0
  | .headers => 0x1
  | .rstStream => 0x3
  | .settings => 0x4
  | .ping => 0x6
  | .goaway => 0x7
  | .windowUpdate => 0x8

/-- `Http2FrameType.entries`. -/
def Http2FrameType.entries : List Http2FrameType :=
  [.data, .headers, .rstStream, .settings, .ping, .goaway, .windowUpdate]

/-- `Http2FrameType.fromValue`. -/
def Http2FrameType.fromValue (value : Nat) : Option Http2FrameType :=
  Http2FrameType.entries.find? fun type => type.value = value

theorem Http2FrameType.fromValue_value (type : Http2FrameType) :
    Http2FrameType.fromValue type.value = some type := by
  rcases type <;> decide

def headerSize : Nat := 9

def serialize (frame : Http2Frame) : Bytes :=
  let length := frame.payload.length
  let sid := frame.streamID % 0x80000000
  [UInt8.ofNat (length / 65536 % 256), UInt8.ofNat (length / 256 % 256), UInt8.ofNat (length % 256),
    UInt8.ofNat frame.type.value, UInt8.ofNat (frame.flags % 256),
    UInt8.ofNat (sid / 16777216 % 256), UInt8.ofNat (sid / 65536 % 256),
    UInt8.ofNat (sid / 256 % 256), UInt8.ofNat (sid % 256)] ++ frame.payload

-- ----
-- The buffer

structure Http2Buffer where
  buffer : Bytes := []
  readOffset : Nat := 0

variable {b : Http2Buffer}

namespace Http2Buffer

def available (b : Http2Buffer) : Nat := b.buffer.length - b.readOffset

def compact (b : Http2Buffer) : Http2Buffer :=
  if b.readOffset = 0 then b else { buffer := b.buffer.drop b.readOffset, readOffset := 0 }

def append (data : Bytes) (b : Http2Buffer) : Http2Buffer :=
  let b := if 0 < b.readOffset ∧ b.buffer.length / 2 < b.readOffset then b.compact else b
  { b with buffer := b.buffer ++ data }

def peekHeader (b : Http2Buffer) : Bytes := (b.buffer.drop b.readOffset).take headerSize

def skip (count : Nat) (b : Http2Buffer) : Http2Buffer :=
  { b with readOffset := b.readOffset + count }

def read (count : Nat) (b : Http2Buffer) : Bytes × Http2Buffer :=
  if count = 0 then ([], b)
  else ((b.buffer.drop b.readOffset).take count, { b with readOffset := b.readOffset + count })

def deserialize (b : Http2Buffer) : Option Http2Frame × Http2Buffer :=
  if b.available < headerSize then (none, b)
  else
    match b.peekHeader with
    | [b0, b1, b2, b3, b4, b5, b6, b7, b8] =>
      let length := b0.toNat * 65536 + b1.toNat * 256 + b2.toNat
      let totalSize := headerSize + length
      if b.available < totalSize then (none, b)
      else
        let streamID :=
          (b5.toNat * 16777216 + b6.toNat * 65536 + b7.toNat * 256 + b8.toNat) % 0x80000000
        let payload := ((b.skip headerSize).read length).1
        let b := ((b.skip headerSize).read length).2
        match Http2FrameType.fromValue b3.toNat with
        | none => (some ⟨.data, 0, streamID, []⟩, b)
        | some type => (some ⟨type, b4.toNat, streamID, payload⟩, b)
    -- nine bytes are available
    | _ => (none, b)

-- ----
-- What the buffer stands for

def unread (b : Http2Buffer) : Bytes := b.buffer.drop b.readOffset

theorem length_unread (b : Http2Buffer) : b.unread.length = b.available := length_drop

def Within (b : Http2Buffer) : Prop := b.readOffset ≤ b.buffer.length

theorem unread_compact (b : Http2Buffer) : b.compact.unread = b.unread := by
  unfold compact
  split
  · rfl
  · rfl

theorem within_compact (h : b.Within) : b.compact.Within := by
  unfold compact
  split
  · exact h
  · exact Nat.zero_le _

theorem unread_append (h : b.Within) (data : Bytes) :
    (b.append data).unread = b.unread ++ data ∧ (b.append data).Within := by
  have hadd : ∀ {b : Http2Buffer}, b.Within → { b with buffer := b.buffer ++ data }.unread =
      b.unread ++ data ∧
      { b with buffer := b.buffer ++ data }.Within := by
    intro b hb
    refine ⟨drop_append_of_le_length hb, ?_⟩
    show b.readOffset ≤ (b.buffer ++ data).length
    rw [length_append]
    exact Nat.le_add_right_of_le hb
  unfold append
  dsimp only
  split
  · have hcompacted := hadd (within_compact h)
    rw [unread_compact] at hcompacted
    exact hcompacted
  · exact hadd h

theorem read_skip {length : Nat} (h : headerSize + length ≤ b.available) :
    ((b.skip headerSize).read length).1 = (b.unread.drop headerSize).take length ∧
      ((b.skip headerSize).read length).2.unread = (b.unread.drop headerSize).drop length ∧
      ((b.skip headerSize).read length).2.Within := by
  unfold available at h
  unfold read
  split
  · rename_i hzero
    subst hzero
    refine ⟨rfl, ?_, ?_⟩
    · show b.buffer.drop (b.readOffset + headerSize) =
        ((b.buffer.drop b.readOffset).drop headerSize).drop 0
      rw [drop_zero, drop_drop]
    · show b.readOffset + headerSize ≤ b.buffer.length
      have : 0 < headerSize := by decide
      omega
  · refine ⟨?_, ?_, ?_⟩
    · show (b.buffer.drop (b.readOffset + headerSize)).take length =
        ((b.buffer.drop b.readOffset).drop headerSize).take length
      rw [drop_drop]
    · show b.buffer.drop (b.readOffset + headerSize + length) =
        ((b.buffer.drop b.readOffset).drop headerSize).drop length
      rw [drop_drop, drop_drop, Nat.add_assoc]
    · show b.readOffset + headerSize + length ≤ b.buffer.length
      have : 0 < headerSize := by decide
      omega

end Http2Buffer

/-- What the read loop makes of a frame on the wire: one of an unknown type is an empty DATA
frame. -/
def ofRaw (f : RawFrame) : Http2Frame :=
  match Http2FrameType.fromValue f.type.toNat with
  | none => ⟨.data, 0, f.streamID, []⟩
  | some type => ⟨type, f.flags.toNat, f.streamID, f.payload⟩

theorem exists_header {xs : Bytes} (h : headerSize ≤ xs.length) :
    ∃ l0 l1 l2 type flags s0 s1 s2 s3 rest,
      xs = l0 :: l1 :: l2 :: type :: flags :: s0 :: s1 :: s2 :: s3 :: rest := by
  unfold headerSize at h
  match xs, h with
  | l0 :: l1 :: l2 :: type :: flags :: s0 :: s1 :: s2 :: s3 :: rest, _ =>
    exact ⟨l0, l1, l2, type, flags, s0, s1, s2, s3, rest, rfl⟩

theorem take_short {xs : Bytes} (h : xs.length < headerSize) : RawFrame.take xs = none := by
  rcases htake : RawFrame.take xs with _ | ⟨f, ys⟩
  · rfl
  · obtain ⟨_, _, _, _, _, _, _, _, _, _, rfl, -⟩ := RawFrame.take_some htake
    simp only [length_cons, headerSize] at h
    omega

theorem shift_three (a b c : Nat) : a * 65536 + b * 256 + c = (a * 256 + b) * 256 + c := by
  omega

theorem shift_four (a b c d : Nat) :
    a * 16777216 + b * 65536 + c * 256 + d = ((a * 256 + b) * 256 + c) * 256 + d := by
  omega

/-- A call of `deserialize` takes the first complete frame off what is unread. -/
theorem deserialize_eq {b : Http2Buffer} :
    match RawFrame.take b.unread with
    | none => b.deserialize = (none, b)
    | some (f, rest) => b.deserialize.1 = some (ofRaw f) ∧ b.deserialize.2.unread = rest ∧
        b.deserialize.2.Within := by
  by_cases hshort : b.available < headerSize
  · rw [take_short (b.length_unread ▸ hshort)]
    exact if_pos hshort
  · obtain ⟨l0, l1, l2, type, flags, s0, s1, s2, s3, rest, hunread⟩ :=
      exists_header (b.length_unread ▸ Nat.not_lt.1 hshort)
    have hpeek : b.peekHeader = [l0, l1, l2, type, flags, s0, s1, s2, s3] := by
      show b.unread.take headerSize = _
      rw [hunread]
      rfl
    have havailable : b.available = headerSize + rest.length := by
      rw [← b.length_unread, hunread]
      exact Nat.add_comm rest.length 9
    have hdrop : b.unread.drop headerSize = rest := by
      rw [hunread]
      rfl
    obtain ⟨length, hlength⟩ : ∃ n, (l0.toNat * 256 + l1.toNat) * 256 + l2.toNat = n := ⟨_, rfl⟩
    obtain ⟨streamID, hsid⟩ : ∃ n, ((s0.toNat * 256 + s1.toNat) * 256 + s2.toNat) * 256 + s3.toNat =
        n := ⟨_, rfl⟩
    unfold Http2Buffer.deserialize
    rw [if_neg hshort, hunread, hpeek]
    dsimp only [RawFrame.take]
    rw [shift_three, shift_four, hlength, hsid]
    by_cases hcomplete : rest.length < length
    · have hpart : b.available < headerSize + length := by omega
      rw [if_pos hcomplete]
      dsimp only
      rw [if_pos hpart]
    · have hwhole : headerSize + length ≤ b.available := by omega
      rw [if_neg hcomplete]
      dsimp only
      rw [if_neg (Nat.not_lt.2 hwhole)]
      have hread := b.read_skip hwhole
      rw [hdrop] at hread
      obtain ⟨hpayload, hrest, hwithin⟩ := hread
      unfold ofRaw
      dsimp only
      split
      · exact ⟨rfl, hrest, hwithin⟩
      · rw [hpayload]
        exact ⟨rfl, hrest, hwithin⟩

-- ----
-- Runs

inductive BufferOp
  | append (data : Bytes)
  | deserialize
  deriving Repr

/-- A buffer, and what the calls of `deserialize` have returned. -/
structure Reading where
  buffer : Http2Buffer := {}
  results : List (Option Http2Frame) := []

def readStep (r : Reading) : BufferOp → Reading
  | .append data => { r with buffer := r.buffer.append data }
  | .deserialize => ⟨r.buffer.deserialize.2, r.results ++ [r.buffer.deserialize.1]⟩

def appended (ops : List BufferOp) : Bytes :=
  ops.flatMap fun op => match op with | .append data => data | .deserialize => []

/-- A frame of the server: one of the supported types, or of another. -/
inductive WireFrame
  | supported (f : Http2Frame)
  | unknown (f : RawFrame)
  deriving Repr

variable {f : WireFrame}

namespace WireFrame

def bytes : WireFrame → Bytes
  | supported f => serialize f
  | unknown f => f.bytes

/-- What `deserialize` should return. -/
def received : WireFrame → Http2Frame
  | supported f => f
  | unknown f => ⟨.data, 0, f.streamID, []⟩

def Fits : WireFrame → Prop
  | supported f => f.flags < 256 ∧ f.streamID < 2 ^ 31 ∧ f.payload.length < 2 ^ 24
  | unknown f => Http2FrameType.fromValue f.type.toNat = none ∧ f.streamID < 2 ^ 31 ∧
      f.payload.length < 2 ^ 24

instance : (f : WireFrame) → Decidable f.Fits
  | supported _ => inferInstanceAs (Decidable (_ ∧ _ ∧ _))
  | unknown _ => inferInstanceAs (Decidable (_ ∧ _ ∧ _))

def raw : WireFrame → RawFrame
  | supported f => ⟨UInt8.ofNat f.type.value, UInt8.ofNat f.flags, f.streamID, f.payload⟩
  | unknown f => f

theorem raw_bytes (h : f.Fits) : f.raw.bytes = f.bytes := by
  rcases f with f | f
  · have hflags : f.flags % 256 = f.flags := Nat.mod_eq_of_lt h.1
    simp [raw, bytes, RawFrame.bytes, RawFrame.bigEndian, serialize, hflags]
  · rfl

theorem take_raw (h : f.Fits) : RawFrame.framing.Encodes RawFrame.bytes f.raw := by
  rcases f with f | f
  · exact RawFrame.encodes h.2.1 h.2.2
  · exact RawFrame.encodes h.2.1 h.2.2

theorem ofRaw_raw (h : f.Fits) : ofRaw f.raw = f.received := by
  rcases f with f | f
  · have htype : (UInt8.ofNat f.type.value).toNat = f.type.value := by
      rcases f.type <;> rfl
    have hflags : (UInt8.ofNat f.flags).toNat = f.flags := by
      rw [UInt8.toNat_ofNat']
      exact Nat.mod_eq_of_lt h.1
    simp only [ofRaw, raw, received, htype, Http2FrameType.fromValue_value, hflags]
  · simp only [ofRaw, raw, received, h.1]

end WireFrame

variable {frames : List WireFrame} {more : Bytes}

theorem next_frame (hfits : ∀ f ∈ frames, f.Fits) {unread : Bytes}
    (h : unread ++ more = frames.flatMap WireFrame.bytes) :
    (∃ f later tail, frames = f :: later ∧ unread = f.bytes ++ tail ∧ RawFrame.take unread =
      some (f.raw, tail)) ∨
      (RawFrame.take unread = none ∧ ∀ f later, frames = f :: later →
        unread.length < f.bytes.length) := by
  rcases frames with _ | ⟨f, later⟩
  · obtain ⟨rfl, -⟩ := append_eq_nil_iff.1 h
    exact .inr ⟨rfl, fun f later heq => by cases heq⟩
  · have hf := hfits f mem_cons_self
    have htake := WireFrame.take_raw hf
    rw [flatMap_cons, ← WireFrame.raw_bytes hf] at h
    by_cases hcomplete : f.bytes.length ≤ unread.length
    · rw [← WireFrame.raw_bytes hf] at hcomplete
      obtain ⟨tail, rfl⟩ : f.raw.bytes <+: unread :=
        prefix_of_prefix_length_le ⟨_, h.symm⟩ (prefix_append unread more) hcomplete
      exact .inl ⟨f, later, tail, rfl, by rw [WireFrame.raw_bytes hf], htake tail⟩
    · refine .inr ⟨?_, fun f' later' heq => ?_⟩
      · rcases hnext : RawFrame.take unread with _ | ⟨g, ys⟩
        · rfl
        · -- the frame would leave all that comes behind the next one
          have hwhole : RawFrame.take (unread ++ more) = some (g, ys ++ more) :=
            RawFrame.framing.extend more hnext
          have hfirst : RawFrame.take (f.raw.bytes ++ later.flatMap WireFrame.bytes) =
              some (f.raw, _) := htake _
          rw [h, hfirst] at hwhole
          have hrest := congrArg List.length (Prod.mk.inj (Option.some.inj hwhole)).2
          have hlength := congrArg List.length h
          rw [length_append] at hrest
          rw [length_append, length_append, WireFrame.raw_bytes hf] at hlength
          omega
      · obtain ⟨rfl, -⟩ := List.cons.inj heq
        exact Nat.not_le.1 hcomplete

/-- The frames that have been returned are the first `n` sent, and what is unread is what has
been appended of the others. -/
structure InStep (frames : List WireFrame) (n : Nat) (ops : List BufferOp) : Prop where
  le : n ≤ frames.length
  results : (run readStep {} ops).results.reduceOption = (frames.take n).map WireFrame.received
  bytes : (frames.take n).flatMap WireFrame.bytes ++ (run readStep {} ops).buffer.unread =
    appended ops
  within : (run readStep {} ops).buffer.Within

theorem run_concat (ops : List BufferOp) (op : BufferOp) :
    run readStep {} (ops ++ [op]) = readStep (run readStep {} ops) op :=
      run_append readStep {} ops [op]

theorem appended_concat (ops : List BufferOp) (op : BufferOp) :
    appended (ops ++ [op]) = appended ops ++
      match op with | .append data => data | .deserialize => [] := by
  simp [appended]

variable {ops : List BufferOp}

theorem InStep.unread {n : Nat} (h : InStep frames n ops)
    (hmore : appended ops ++ more = frames.flatMap WireFrame.bytes) :
    (run readStep {} ops).buffer.unread ++ more = (frames.drop n).flatMap WireFrame.bytes := by
  rw [← h.bytes, ← take_append_drop n frames, flatMap_append, append_assoc] at hmore
  simpa using hmore

/-- A call of `deserialize` returns the next frame if all of it has been appended, else null. -/
theorem InStep.next (hfits : ∀ f ∈ frames, f.Fits) {n : Nat}
    (h : InStep frames n ops) (hmore : appended ops ++ more = frames.flatMap WireFrame.bytes) :
    (∃ f, frames[n]? = some f ∧ ((frames.take (n + 1)).flatMap WireFrame.bytes).length ≤
      (appended ops).length ∧ (run readStep {} ops).buffer.deserialize.1 = some f.received ∧
      InStep frames (n + 1) (ops ++ [BufferOp.deserialize])) ∨
    ((∀ f, frames[n]? = some f →
        (appended ops).length < ((frames.take (n + 1)).flatMap WireFrame.bytes).length) ∧
      (run readStep {} ops).buffer.deserialize.1 = none ∧
      InStep frames n (ops ++ [BufferOp.deserialize])) := by
  have hstream := h.unread hmore
  have hdeserialize := @deserialize_eq (run readStep {} ops).buffer
  have hbytes := h.bytes
  have hstep : run readStep {} (ops ++ [BufferOp.deserialize]) =
      ⟨(run readStep {} ops).buffer.deserialize.2,
        (run readStep {} ops).results ++ [(run readStep {} ops).buffer.deserialize.1]⟩ :=
          run_concat ops .deserialize
  have happended : appended (ops ++ [BufferOp.deserialize]) = appended ops := by
    rw [appended_concat, append_nil]
  have hdrop : ∀ f, frames[n]? = some f → frames.drop n = f :: frames.drop (n + 1) := fun f hf => by
    obtain ⟨hn, rfl⟩ := List.getElem?_eq_some_iff.1 hf
    exact drop_eq_getElem_cons hn
  have htake : ∀ f, frames[n]? = some f → frames.take (n + 1) = frames.take n ++ [f] :=
    fun f hf => by
    rw [take_add_one, hf]
    rfl
  rcases next_frame (fun f hf => hfits f (mem_of_mem_drop hf)) hstream with
    ⟨f, later, tail, hframes, hunread, hnext⟩ | ⟨hnext, hshort⟩
  · have hf : frames[n]? = some f := by
      rw [← List.head?_drop, hframes]
      rfl
    have hfit : f.Fits := hfits f (List.mem_of_getElem? hf)
    rw [hnext] at hdeserialize
    obtain ⟨hresult, hrest, hwithin⟩ := hdeserialize
    rw [WireFrame.ofRaw_raw hfit] at hresult
    refine .inl ⟨f, hf, ?_, hresult, ?_, ?_, ?_, ?_⟩
    · rw [htake f hf, ← hbytes, hunread]
      simp
    · exact (List.getElem?_eq_some_iff.1 hf).1
    · rw [hstep, hresult, reduceOption_append, h.results, htake f hf, map_append]
      rfl
    · rw [happended, hstep, ← hbytes, hunread, htake f hf, flatMap_append, append_assoc]
      dsimp only
      rw [hrest]
      simp
    · rw [hstep]
      exact hwithin
  · rw [hnext] at hdeserialize
    dsimp only at hdeserialize
    refine .inr ⟨fun f hf => ?_, by rw [hdeserialize], h.le, ?_, ?_, ?_⟩
    · have hlt := hshort f _ (hdrop f hf)
      rw [htake f hf, ← hbytes]
      simp only [flatMap_append, length_append, flatMap_singleton]
      omega
    · rw [hstep, hdeserialize, reduceOption_append]
      exact (append_nil _).trans h.results
    · rw [happended, hstep, hdeserialize]
      exact hbytes
    · rw [hstep, hdeserialize]
      exact h.within

theorem inStep_run (hfits : ∀ f ∈ frames, f.Fits)
    (hmore : appended ops ++ more = frames.flatMap WireFrame.bytes) : ∃ n, InStep frames n ops := by
  induction ops using List.reverseRecOn generalizing more with
  | nil => exact ⟨0, Nat.zero_le _, rfl, rfl, Nat.le_refl _⟩
  | append_singleton ops op ih =>
    rw [appended_concat, append_assoc] at hmore
    obtain ⟨n, h⟩ := ih hmore
    rcases op with data | _
    · obtain ⟨hunread, hwithin⟩ := Http2Buffer.unread_append h.within data
      have hstep : run readStep {} (ops ++ [BufferOp.append data]) =
          { run readStep {} ops with buffer := (run readStep {} ops).buffer.append data } :=
        run_concat ops (.append data)
      refine ⟨n, h.le, ?_, ?_, ?_⟩
      · rw [hstep]
        exact h.results
      · rw [hstep, appended_concat, ← h.bytes, append_assoc]
        exact congrArg _ hunread
      · rw [hstep]
        exact hwithin
    · rcases h.next hfits hmore with ⟨_, -, -, -, hnext⟩ | ⟨-, -, hnext⟩
      · exact ⟨n + 1, hnext⟩
      · exact ⟨n, hnext⟩

/-- Frames cut in any way, and `deserialize` called at any time: the frames come in order, an
unknown one as an empty DATA frame; a call returns null exactly when the next frame is not
complete; and no byte is lost or repeated. -/
theorem frames_in_order {frames : List WireFrame} (hfits : ∀ f ∈ frames, f.Fits)
    {ops : List BufferOp} {more : Bytes}
    (hmore : appended ops ++ more = frames.flatMap WireFrame.bytes) :
    ∃ n ≤ frames.length,
      (run readStep {} ops).results.reduceOption = (frames.take n).map WireFrame.received ∧
      (frames.take n).flatMap WireFrame.bytes ++ (run readStep {} ops).buffer.unread =
        appended ops ∧
      (run readStep {} ops).buffer.deserialize.1 =
        if ((frames.take (n + 1)).flatMap WireFrame.bytes).length ≤ (appended ops).length then
          (frames[n]?).map WireFrame.received
        else none := by
  obtain ⟨n, h⟩ := inStep_run hfits hmore
  refine ⟨n, h.le, h.results, h.bytes, ?_⟩
  rcases h.next hfits hmore with ⟨f, hf, hle, hresult, -⟩ | ⟨hshort, hresult, -⟩
  · rw [if_pos hle, hf, hresult]
    rfl
  · rw [hresult]
    split
    · rename_i hle
      rcases hf : frames[n]? with _ | f
      · rfl
      · exact absurd hle (Nat.not_le.2 (hshort f hf))
    · rfl

/-- A PING, a frame of the unknown type PRIORITY and a WINDOW_UPDATE. -/
def cutFrames : List WireFrame :=
  [.supported ⟨.ping, 1, 0, [9]⟩, .unknown ⟨2, 0, 7, [1, 2, 3, 4, 5]⟩,
    .supported ⟨.windowUpdate, 0, 0, [0, 0, 0, 8]⟩]

def cutOps : List BufferOp :=
  [.append [0, 0, 1, 6], .deserialize, .append [1, 0, 0, 0, 0, 9, 0, 0, 5, 2], .deserialize,
    .append [0, 0, 0, 0, 7, 1, 2, 3, 4, 5, 0, 0], .deserialize, .deserialize]

theorem frames_in_order_cut :
    (run readStep {} cutOps).results = [none, some ⟨.ping, 1, 0, [9]⟩,
      some ⟨.data, 0, 7, []⟩, none] ∧
    ∃ n ≤ cutFrames.length,
      (run readStep {} cutOps).results.reduceOption =
        (cutFrames.take n).map WireFrame.received := by
  refine ⟨by decide, ?_⟩
  obtain ⟨n, hn, hresults, -⟩ :=
    @frames_in_order cutFrames (by decide) cutOps [4, 8, 0, 0, 0, 0, 0, 0, 0, 0, 8] (by decide)
  exact ⟨n, hn, hresults⟩

end Anywhere.Naive
