import Anywhere.Lib.Framing
import Anywhere.Lib.Transducer
import Anywhere.Config

/-!
# Anywhere — `NaivePaddingFramer` and `NaiveProxyConnection`

The first eight frames of a tunnel carry a length and some padding, what follows is bare.
Both ends count: the sender while it splits a write, the reader in a machine that is left
in the middle of a frame whenever the transport cuts it there.

* `NaivePaddingFramer.read_append` — the reader does not see the cuts.
* `Carries` — what the sender has put on the wire, frames first.
* `padding_round_trip` — any writes, any choices, any cuts.
-/

namespace Anywhere.Naive

open Lib List

-- ----
-- The framer

inductive ReadState where
  | payloadLength1
  | payloadLength2
  | paddingLength
  | payload
  | padding
  deriving DecidableEq

structure NaivePaddingFramer where
  maxFrames : Nat := 8
  numReadFrames : Nat := 0
  numWrittenFrames : Nat := 0
  state : ReadState := .payloadLength1
  readPayloadLength : Nat := 0
  readPaddingLength : Nat := 0

/-- `Int.MAX_VALUE - 1`, where the counters stop. -/
def lastCount : Nat := 0x7ffffffe

/-- How many turns of the loop may pass without a byte. -/
def ReadState.idle : ReadState → Nat
  | .payload => 2
  | .padding => 1
  | _ => 0

variable {m : Nat}

namespace NaivePaddingFramer

def isReadPaddingActive (f : NaivePaddingFramer) : Bool := f.numReadFrames < f.maxFrames

def isWritePaddingActive (f : NaivePaddingFramer) : Bool := f.numWrittenFrames < f.maxFrames

/-- The payload has been copied up to `copySize` bytes. -/
def copied (f : NaivePaddingFramer) (copySize : Nat) : NaivePaddingFramer :=
  { f with
    readPayloadLength := f.readPayloadLength - copySize
    state := if f.readPayloadLength - copySize = 0 then .padding else .payload }

/-- The padding has been skipped up to `skipSize` bytes. -/
def skipped (f : NaivePaddingFramer) (skipSize : Nat) : NaivePaddingFramer :=
  if f.readPaddingLength - skipSize = 0 then
    { f with
      readPaddingLength := 0
      numReadFrames := if f.numReadFrames < lastCount then f.numReadFrames + 1 else f.numReadFrames
      state := .payloadLength1 }
  else { f with readPaddingLength := f.readPaddingLength - skipSize }

/-- `read`, from `offset` on: the framer afterwards and what was written to `into`. -/
def read (f : NaivePaddingFramer) (padded : Bytes) : NaivePaddingFramer × Bytes :=
  match padded with
  | [] => (f, [])
  | byte :: rest =>
    match _hstate : f.state with
    | .payloadLength1 =>
      if f.maxFrames ≤ f.numReadFrames then (f, byte :: rest)
      else read { f with readPayloadLength := byte.toNat, state := .payloadLength2 } rest
    | .payloadLength2 =>
      read { f with
        readPayloadLength := f.readPayloadLength * 256 + byte.toNat
        state := .paddingLength } rest
    | .paddingLength => read { f with readPaddingLength := byte.toNat, state := .payload } rest
    | .payload =>
      let copySize := min f.readPayloadLength (byte :: rest).length
      let later := read (f.copied copySize) ((byte :: rest).drop copySize)
      (later.1, (byte :: rest).take copySize ++ later.2)
    | .padding =>
      let skipSize := min f.readPaddingLength (byte :: rest).length
      read (f.skipped skipSize) ((byte :: rest).drop skipSize)
  termination_by (padded.length, f.state.idle)
  decreasing_by
    · exact Prod.Lex.left _ _ (by simp)
    · exact Prod.Lex.left _ _ (by simp)
    · exact Prod.Lex.left _ _ (by simp)
    · by_cases hzero : f.readPayloadLength = 0
      · rw [hzero, Nat.zero_min, drop_zero]
        apply Prod.Lex.right
        simp [copied, hzero, _hstate, ReadState.idle]
      · apply Prod.Lex.left
        rw [length_drop, length_cons]
        omega
    · by_cases hzero : f.readPaddingLength = 0
      · rw [hzero, Nat.zero_min, drop_zero]
        apply Prod.Lex.right
        simp [skipped, hzero, _hstate, ReadState.idle]
      · apply Prod.Lex.left
        rw [length_drop, length_cons]
        omega

def write (f : NaivePaddingFramer) (payload : Bytes) (paddingSize : Nat) :
    NaivePaddingFramer × Bytes :=
  let actualPadding := min paddingSize 255
  ({ f with
      numWrittenFrames :=
        if f.numWrittenFrames < lastCount then f.numWrittenFrames + 1 else f.numWrittenFrames },
    [UInt8.ofNat (payload.length / 256), UInt8.ofNat (payload.length % 256),
      UInt8.ofNat actualPadding] ++
      payload ++ List.replicate actualPadding 0)

-- ----
-- One turn of the loop

variable {f : NaivePaddingFramer} {xs : Bytes}

@[simp] theorem read_nil (f : NaivePaddingFramer) : f.read [] = (f, []) := by
  rw [read]

theorem read_through (hstate : f.state = .payloadLength1) (hover : f.maxFrames ≤ f.numReadFrames)
    (xs : Bytes) : f.read xs = (f, xs) := by
  rcases xs with _ | ⟨byte, rest⟩
  · exact read_nil f
  · rw [read]
    split
    · rw [if_pos hover]
    all_goals simp_all

theorem read_payload (hstate : f.state = .payload) (hxs : xs ≠ []) :
    f.read xs =
      ((read (f.copied (min f.readPayloadLength xs.length))
        (xs.drop (min f.readPayloadLength xs.length))).1,
        xs.take (min f.readPayloadLength xs.length) ++
          (read (f.copied (min f.readPayloadLength xs.length))
            (xs.drop (min f.readPayloadLength xs.length))).2) := by
  rcases xs with _ | ⟨byte, rest⟩
  · exact absurd rfl hxs
  · rw [read]
    split <;> simp_all

theorem read_padding (hstate : f.state = .padding) (hxs : xs ≠ []) :
    f.read xs =
      read (f.skipped (min f.readPaddingLength xs.length))
      (xs.drop (min f.readPaddingLength xs.length)) := by
  rcases xs with _ | ⟨byte, rest⟩
  · exact absurd rfl hxs
  · rw [read]
    split <;> simp_all

theorem read_length1 (hstate : f.state = .payloadLength1) (hactive : f.numReadFrames < f.maxFrames)
    (byte : UInt8) (rest : Bytes) :
    f.read (byte :: rest) =
      read { f with readPayloadLength := byte.toNat, state := .payloadLength2 } rest := by
  rw [read]
  split
  · rw [if_neg (by omega)]
  all_goals simp_all

theorem read_length2 (hstate : f.state = .payloadLength2) (byte : UInt8) (rest : Bytes) :
    f.read (byte :: rest) =
      read { f with
        readPayloadLength := f.readPayloadLength * 256 + byte.toNat
        state := .paddingLength } rest := by
  rw [read]
  split <;> simp_all

theorem read_paddingLength (hstate : f.state = .paddingLength) (byte : UInt8) (rest : Bytes) :
    f.read (byte :: rest) =
      read { f with readPaddingLength := byte.toNat, state := .payload } rest := by
  rw [read]
  split <;> simp_all

-- ----
-- Cuts

theorem copied_copied (f : NaivePaddingFramer) (m n : Nat) :
    (f.copied m).copied n = f.copied (m + n) := by
  simp [copied, Nat.sub_sub]

theorem state_copied (h : m < f.readPayloadLength) : (f.copied m).state = .payload :=
  if_neg (by omega)

theorem read_payload_short (hstate : f.state = .payload) (h : xs.length < f.readPayloadLength) :
    f.read xs = (f.copied xs.length, xs) := by
  by_cases hxs : xs = []
  · subst hxs
    have hnone : f.copied 0 = f := by
      rw [length_nil] at h
      rw [copied, Nat.sub_zero, if_neg (by omega), ← hstate]
    rw [read_nil, length_nil, hnone]
  · rw [read_payload hstate hxs, Nat.min_eq_right (by omega), drop_length, take_length, read_nil,
      append_nil]

theorem read_payload_full (hstate : f.state = .payload) (hxs : xs ≠ [])
    (h : f.readPayloadLength ≤ xs.length) :
    f.read xs =
      ((read (f.copied f.readPayloadLength) (xs.drop f.readPayloadLength)).1,
        xs.take f.readPayloadLength ++
          (read (f.copied f.readPayloadLength) (xs.drop f.readPayloadLength)).2) := by
  rw [read_payload hstate hxs, Nat.min_eq_left h]

theorem skipped_skipped (h : m < f.readPaddingLength) (n : Nat) :
    (f.skipped m).skipped n = f.skipped (m + n) := by
  have hfirst : f.skipped m = { f with readPaddingLength := f.readPaddingLength - m } :=
    if_neg (by omega)
  rw [hfirst, skipped, skipped]
  dsimp only
  rw [Nat.sub_sub]

theorem state_skipped (hstate : f.state = .padding) (h : m < f.readPaddingLength) :
    (f.skipped m).state = .padding ∧ (f.skipped m).readPaddingLength = f.readPaddingLength - m := by
  rw [skipped, if_neg (by omega)]
  exact ⟨hstate, rfl⟩

theorem read_padding_short (hstate : f.state = .padding) (h : xs.length < f.readPaddingLength) :
    f.read xs = (f.skipped xs.length, []) := by
  by_cases hxs : xs = []
  · subst hxs
    have hnone : f.skipped 0 = f := by
      rw [length_nil] at h
      rw [skipped, Nat.sub_zero, if_neg (by omega)]
    rw [read_nil, length_nil, hnone]
  · rw [read_padding hstate hxs, Nat.min_eq_right (by omega), drop_length, read_nil]

theorem read_padding_full (hstate : f.state = .padding) (hxs : xs ≠ [])
    (h : f.readPaddingLength ≤ xs.length) :
    f.read xs = read (f.skipped f.readPaddingLength) (xs.drop f.readPaddingLength) := by
  rw [read_padding hstate hxs, Nat.min_eq_left h]

/-- **The reader does not see the cuts.** -/
theorem read_append (f : NaivePaddingFramer) (xs ys : Bytes) :
    f.read (xs ++ ys) = (((f.read xs).1.read ys).1,
      (f.read xs).2 ++ ((f.read xs).1.read ys).2) := by
  induction f, xs using read.induct with
  | case1 f => simp
  | case2 f byte rest hstate hover =>
    rw [read_through hstate hover, read_through hstate hover, read_through hstate hover]
  | case3 f byte rest hstate hover ih =>
    rw [cons_append, read_length1 hstate (by omega), read_length1 hstate (by omega), ih]
  | case4 f byte rest hstate ih =>
    rw [cons_append, read_length2 hstate, read_length2 hstate, ih]
  | case5 f byte rest hstate ih =>
    rw [cons_append, read_paddingLength hstate, read_paddingLength hstate, ih]
  | case6 f byte rest hstate copySize ih =>
    have hne : (byte :: rest) ++ ys ≠ [] := cons_ne_nil _ _
    by_cases hfull : f.readPayloadLength ≤ (byte :: rest).length
    · have hcopy : copySize = f.readPayloadLength := Nat.min_eq_left hfull
      rw [hcopy] at ih
      rw [read_payload_full hstate hne (by rw [length_append]; omega),
        read_payload_full hstate (cons_ne_nil _ _) hfull, drop_append_of_le_length hfull,
        take_append_of_le_length hfull, ih, append_assoc]
    · have hpart : f.read (byte :: rest) = _ := read_payload_short hstate (by omega)
      rw [hpart]
      have hstate' := state_copied (f := f) (m := (byte :: rest).length) (by omega)
      have hleft : (f.copied (byte :: rest).length).readPayloadLength =
          f.readPayloadLength - (byte :: rest).length := rfl
      by_cases hshort : ((byte :: rest) ++ ys).length < f.readPayloadLength
      · rw [length_append] at hshort
        rw [read_payload_short hstate (by rw [length_append]; omega),
          read_payload_short hstate' (by omega), copied_copied, length_append]
      · rw [length_append] at hshort
        have hys : ys ≠ [] := by
          rintro rfl
          rw [length_nil] at hshort
          omega
        rw [read_payload_full hstate hne (by rw [length_append]; omega),
          read_payload_full hstate' hys (by omega), copied_copied, hleft,
          Nat.add_sub_of_le (by omega), drop_append, take_append, drop_of_length_le (by omega),
          take_of_length_le (by omega), nil_append, append_assoc]
  | case7 f byte rest hstate skipSize ih =>
    have hne : (byte :: rest) ++ ys ≠ [] := cons_ne_nil _ _
    by_cases hfull : f.readPaddingLength ≤ (byte :: rest).length
    · have hskip : skipSize = f.readPaddingLength := Nat.min_eq_left hfull
      rw [hskip] at ih
      rw [read_padding_full hstate hne (by rw [length_append]; omega),
        read_padding_full hstate (cons_ne_nil _ _) hfull, drop_append_of_le_length hfull, ih]
    · have hpart : f.read (byte :: rest) = _ := read_padding_short hstate (by omega)
      rw [hpart]
      obtain ⟨hstate', hleft⟩ := state_skipped (m := (byte :: rest).length) hstate (by omega)
      by_cases hshort : ((byte :: rest) ++ ys).length < f.readPaddingLength
      · rw [length_append] at hshort
        rw [read_padding_short hstate (by rw [length_append]; omega),
          read_padding_short hstate' (by omega), skipped_skipped (by omega), length_append]
        rfl
      · rw [length_append] at hshort
        have hys : ys ≠ [] := by
          rintro rfl
          rw [length_nil] at hshort
          omega
        rw [read_padding_full hstate hne (by rw [length_append]; omega),
          read_padding_full hstate' hys (by omega), skipped_skipped (by omega), hleft,
          Nat.add_sub_of_le (by omega), drop_append, drop_of_length_le (by omega), nil_append,
          nil_append]

-- ----
-- Whole frames

/-- Between two frames, `j` of them behind. -/
def between (w j : Nat) : NaivePaddingFramer := { numReadFrames := j, numWrittenFrames := w }

/-- The turns the loop makes as soon as there is another byte. -/
def settle (f : NaivePaddingFramer) : NaivePaddingFramer :=
  if f.state = .payload ∧ f.readPayloadLength = 0 ∧ f.readPaddingLength = 0 then
    (f.copied 0).skipped 0
  else if f.state = .padding ∧ f.readPaddingLength = 0 then f.skipped 0
  else f

theorem read_settle (hxs : xs ≠ []) : f.settle.read xs = f.read xs := by
  have hskip : ∀ g : NaivePaddingFramer, g.state = .padding → g.readPaddingLength = 0 →
      (g.skipped 0).read xs = g.read xs := by
    intro g hstate hzero
    rw [read_padding_full hstate hxs (by omega), hzero, drop_zero]
  unfold settle
  split
  · rename_i h
    obtain ⟨hstate, hpayload, hpadding⟩ := h
    have hcopied : (f.copied 0).state = .padding := if_pos (by omega)
    rw [hskip _ hcopied hpadding, read_payload_full hstate hxs (by omega), hpayload, drop_zero,
      take_zero, nil_append]
  · split
    · rename_i h
      exact hskip f h.1 h.2
    · rfl

theorem settle_between (w j : Nat) : (between w j).settle = between w j := by
  simp [settle, between]

theorem count_of_settle {w j : Nat} (h : f.settle = between w j) :
    f.numReadFrames ≤ j ∧ j ≤ f.numReadFrames + 1 := by
  have hskip : ∀ g : NaivePaddingFramer, g.numReadFrames ≤ (g.skipped 0).numReadFrames ∧
      (g.skipped 0).numReadFrames ≤ g.numReadFrames + 1 := by
    intro g
    unfold skipped
    split
    · dsimp only
      split <;> omega
    · exact ⟨Nat.le_refl _, Nat.le_succ _⟩
  have hcount : f.settle.numReadFrames = j := by
    rw [h]
    rfl
  unfold settle at hcount
  split at hcount
  · have := hskip (f.copied 0)
    rw [hcount] at this
    exact this
  · split at hcount
    · have := hskip f
      omega
    · omega

end NaivePaddingFramer

structure PaddedFrame where
  payload : Bytes
  padding : Nat
  payload_le : payload.length ≤ 65535
  padding_le : padding ≤ 255

namespace PaddedFrame

def bytes (frame : PaddedFrame) : Bytes :=
  [UInt8.ofNat (frame.payload.length / 256), UInt8.ofNat (frame.payload.length % 256),
    UInt8.ofNat frame.padding] ++ frame.payload ++ List.replicate frame.padding 0

theorem length_bytes (frame : PaddedFrame) :
    frame.bytes.length = 3 + (frame.payload.length + frame.padding) := by
  simp only [bytes, length_append, length_replicate, length_cons, length_nil]
  omega

theorem length_field (frame : PaddedFrame) :
    (UInt8.ofNat (frame.payload.length / 256)).toNat * 256 +
      (UInt8.ofNat (frame.payload.length % 256)).toNat =
      frame.payload.length := by
  have := frame.payload_le
  rw [UInt8.toNat_ofNat', UInt8.toNat_ofNat']
  omega

theorem padding_field (frame : PaddedFrame) :
    (UInt8.ofNat frame.padding).toNat = frame.padding := by
  have := frame.padding_le
  rw [UInt8.toNat_ofNat']
  omega

end PaddedFrame

variable {xs chunk : Bytes}

namespace NaivePaddingFramer

variable {f : NaivePaddingFramer} {w j : Nat}

def within (w j : Nat) (frame : PaddedFrame) : NaivePaddingFramer :=
  { between w j with
    readPayloadLength := frame.payload.length
    readPaddingLength := frame.padding
    state := .payload }

theorem read_bytes (hj : j < 8) (frame : PaddedFrame) (xs : Bytes) :
    (between w j).read
        (UInt8.ofNat (frame.payload.length / 256) :: UInt8.ofNat (frame.payload.length % 256) ::
          UInt8.ofNat frame.padding :: xs) = (within w j frame).read xs := by
  rw [read_length1 (by rfl) (by exact hj), read_length2 (by rfl), read_paddingLength (by rfl)]
  simp only [frame.length_field, frame.padding_field]
  rfl

theorem copied_within (frame : PaddedFrame) :
    (within w j frame).copied frame.payload.length =
      { between w j with readPaddingLength := frame.padding, state := .padding } := by
  simp [copied, within, between]

theorem skipped_padding (hj : j < lastCount) (n : Nat) :
    skipped { between w j with readPaddingLength := n, state := .padding } n = between w
    (j + 1) := by
  simp [skipped, between, hj]

theorem read_frame (hj : j < 8) (frame : PaddedFrame) :
    ∃ f', (between w j).read frame.bytes = (f', frame.payload) ∧ f'.settle = between w (j + 1) := by
  have hlast : j < lastCount := by
    unfold lastCount
    omega
  rw [PaddedFrame.bytes, append_assoc, cons_append, cons_append, cons_append,
    nil_append, read_bytes hj]
  by_cases hempty : frame.payload ++ List.replicate frame.padding 0 = []
  · -- a header and nothing else: the reader waits for the next byte to count it
    rw [append_eq_nil_iff, replicate_eq_nil_iff] at hempty
    obtain ⟨hpayload, hpadding⟩ := hempty
    refine ⟨within w j frame, ?_, ?_⟩
    · rw [hpayload, hpadding]
      exact read_nil _
    · have hlength : frame.payload.length = 0 := by rw [hpayload, length_nil]
      have hcopied := copied_within (w := w) (j := j) frame
      rw [hlength] at hcopied
      rw [settle, if_pos ⟨rfl, hlength, hpadding⟩, hcopied, hpadding, skipped_padding hlast]
  · have hpayload : (within w j frame).readPayloadLength = frame.payload.length := rfl
    rw [read_payload_full rfl hempty (by rw [length_append]; exact Nat.le_add_right _ _), hpayload,
      copied_within, take_left, drop_left]
    by_cases hpadding : frame.padding = 0
    · refine ⟨{ between w j with readPaddingLength := frame.padding, state := .padding }, ?_, ?_⟩
      · rw [hpadding, replicate_zero, read_nil, append_nil]
      · rw [settle, if_neg (by simp), if_pos ⟨rfl, hpadding⟩, hpadding, skipped_padding hlast]
    · refine ⟨between w (j + 1), ?_, settle_between w (j + 1)⟩
      have hskip := skipped_padding (w := w) hlast frame.padding
      rw [read_padding_full rfl (by simpa using hpadding) (by simp)]
      dsimp only
      rw [hskip, drop_of_length_le (by simp), read_nil, append_nil]

theorem count_within {frame : PaddedFrame} (h : xs.length < frame.payload.length + frame.padding) :
    ((within w j frame).read xs).1.numReadFrames = j := by
  have hpayload : (within w j frame).readPayloadLength = frame.payload.length := rfl
  by_cases hshort : xs.length < frame.payload.length
  · rw [read_payload_short rfl hshort]
    rfl
  · by_cases hxs : xs = []
    · rw [hxs, read_nil]
      rfl
    · rw [read_payload_full rfl hxs (by omega), hpayload, copied_within,
        read_padding_short rfl (by rw [length_drop]; show _ < frame.padding; omega)]
      show (skipped _ _).numReadFrames = j
      rw [skipped, if_neg (by rw [length_drop]; show ¬ frame.padding - _ = 0; omega)]
      rfl

theorem count_of_partial (hj : j < 8) {frame : PaddedFrame} {ys : Bytes}
    (hsplit : xs ++ ys = frame.bytes) (hys : ys ≠ []) :
    ((between w j).read xs).1.numReadFrames = j := by
  have hlength : xs.length < 3 + (frame.payload.length + frame.padding) := by
    have := congrArg List.length hsplit
    rw [length_append, frame.length_bytes] at this
    have := length_pos_iff.mpr hys
    omega
  rw [PaddedFrame.bytes, append_assoc] at hsplit
  match xs, hsplit, hlength with
  | [], _, _ =>
    rw [read_nil]
    rfl
  | [b0], _, _ =>
    rw [read_length1 (by rfl) (by exact hj), read_nil]
    rfl
  | [b0, b1], _, _ =>
    rw [read_length1 (by rfl) (by exact hj), read_length2 (by rfl), read_nil]
    rfl
  | b0 :: b1 :: b2 :: xs, hsplit, hlength =>
    simp only [cons_append, nil_append, List.cons.injEq] at hsplit
    obtain ⟨h0, h1, h2, -⟩ := hsplit
    rw [h0, h1, h2, read_bytes hj]
    apply count_within
    simp only [length_cons] at hlength
    omega

end NaivePaddingFramer

-- ----
-- The stream

/-- What one end of the tunnel puts on the wire: up to eight frames, and bare data behind the
eighth. -/
structure PaddedStream where
  frames : List PaddedFrame
  bare : Bytes
  frames_le : frames.length ≤ 8
  bare_eq : frames.length < 8 → bare = []

namespace PaddedStream

def bytes (stream : PaddedStream) : Bytes := stream.frames.flatMap PaddedFrame.bytes ++ stream.bare

def data (stream : PaddedStream) : Bytes := stream.frames.flatMap PaddedFrame.payload ++ stream.bare

end PaddedStream

/-- Where the `i`th frame ends. -/
def frameEnd (frames : List PaddedFrame) (i : Nat) : Nat :=
  ((frames.take i).flatMap PaddedFrame.bytes).length

/-- A reader that has seen so many bytes of a stream has counted the frames that have ended, the
last one at the latest with the byte behind it. -/
def InStepWith (frames : List PaddedFrame) (seen count : Nat) : Prop :=
  count ≤ frames.length ∧
    ∀ i ≤ frames.length, (i ≤ count → frameEnd frames i ≤ seen) ∧
      (frameEnd frames i < seen → i ≤ count)

theorem frameEnd_zero (frames : List PaddedFrame) : frameEnd frames 0 = 0 := rfl

theorem frameEnd_succ (frame : PaddedFrame) (frames : List PaddedFrame) (i : Nat) :
    frameEnd (frame :: frames) (i + 1) = frame.bytes.length + frameEnd frames i := by
  rw [frameEnd, take_succ_cons, flatMap_cons, length_append, frameEnd]

namespace NaivePaddingFramer

variable {f : NaivePaddingFramer} {w j : Nat}

theorem read_next (hf : f.settle = between w j) (hj : j < 8) (frame : PaddedFrame) :
    ∃ f', f.read frame.bytes = (f', frame.payload) ∧ f'.settle = between w (j + 1) := by
  have hne : frame.bytes ≠ [] := by
    intro h
    have := frame.length_bytes
    rw [h, length_nil] at this
    omega
  rw [← read_settle hne, hf]
  exact read_frame hj frame

theorem read_frames (hf : f.settle = between w j) (frames : List PaddedFrame)
    (hj : j + frames.length ≤ 8) :
    ∃ f', f.read (frames.flatMap PaddedFrame.bytes) = (f', frames.flatMap PaddedFrame.payload) ∧
      f'.settle = between w (j + frames.length) := by
  induction frames generalizing f j with
  | nil => exact ⟨f, read_nil f, hf⟩
  | cons frame frames ih =>
    rw [length_cons] at hj
    obtain ⟨f₁, hframe, hf₁⟩ := read_next hf (by omega) frame
    obtain ⟨f₂, hframes, hf₂⟩ := ih hf₁ (by omega)
    refine ⟨f₂, ?_, ?_⟩
    · rw [flatMap_cons, read_append, hframe, hframes, flatMap_cons]
    · rw [hf₂, length_cons]
      congr 1
      omega

theorem read_bare (hf : f.settle = between w 8) (xs : Bytes) :
    (f.read xs).2 = xs ∧ (f.read xs).1.settle = between w 8 ∧
      (xs ≠ [] → (f.read xs).1.numReadFrames = 8) := by
  by_cases hxs : xs = []
  · subst hxs
    rw [read_nil]
    exact ⟨rfl, hf, fun h => absurd rfl h⟩
  · rw [← read_settle hxs, hf, read_through (by rfl) (Nat.le_refl 8)]
    exact ⟨rfl, settle_between w 8, fun _ => rfl⟩

theorem read_stream (stream : PaddedStream) :
    ((between w 0).read stream.bytes).2 = stream.data ∧
      ((between w 0).read stream.bytes).1.settle = between w stream.frames.length := by
  obtain ⟨f₁, hframes, hf₁⟩ := read_frames (settle_between w 0) stream.frames
    (by rw [Nat.zero_add]; exact stream.frames_le)
  rw [Nat.zero_add] at hf₁
  rw [PaddedStream.bytes, read_append, hframes]
  dsimp only
  rcases Nat.lt_or_ge stream.frames.length 8 with hfew | hall
  · rw [stream.bare_eq hfew, read_nil, append_nil, PaddedStream.data,
      stream.bare_eq hfew, append_nil]
    exact ⟨rfl, hf₁⟩
  · have height : stream.frames.length = 8 := Nat.le_antisymm stream.frames_le hall
    rw [height] at hf₁ ⊢
    obtain ⟨hbare, hf₂, -⟩ := read_bare hf₁ stream.bare
    rw [hbare]
    exact ⟨rfl, hf₂⟩

/-- The count anywhere in a stream of frames, bare data behind the eighth. -/
theorem count_of_prefix (hf : f.settle = between w j) (frames : List PaddedFrame) {bare : Bytes}
    (hj : j + frames.length ≤ 8) (hbare : j + frames.length < 8 → bare = []) {ys : Bytes}
    (hsplit : xs ++ ys = frames.flatMap PaddedFrame.bytes ++ bare) :
    (f.read xs).1.numReadFrames ≤ j + frames.length ∧
      ∀ i ≤ frames.length,
        (j + i ≤ (f.read xs).1.numReadFrames → frameEnd frames i ≤ xs.length) ∧
          (frameEnd frames i < xs.length → j + i ≤ (f.read xs).1.numReadFrames) := by
  induction frames generalizing f j xs with
  | nil =>
    obtain ⟨hle, hge⟩ := count_of_settle hf
    rw [length_nil, Nat.add_zero] at hj hbare ⊢
    rw [flatMap_nil, nil_append] at hsplit
    have hcount : xs ≠ [] → (f.read xs).1.numReadFrames = j := by
      intro hxs
      have hall : j = 8 := by
        by_contra hfew
        rw [hbare (by omega), append_eq_nil_iff] at hsplit
        exact hxs hsplit.1
      rw [hall] at hf ⊢
      exact (read_bare hf xs).2.2 hxs
    by_cases hxs : xs = []
    · rw [hxs, read_nil]
      refine ⟨hle, fun i hi => ⟨fun _ => ?_, fun h => absurd h (Nat.not_lt_zero _)⟩⟩
      rw [Nat.le_zero.mp hi, frameEnd_zero]
      exact Nat.zero_le _
    · rw [hcount hxs]
      refine ⟨Nat.le_refl _, fun i hi => ?_⟩
      rw [Nat.le_zero.mp hi, frameEnd_zero]
      exact ⟨fun _ => Nat.zero_le _, fun _ => Nat.le_refl _⟩
  | cons frame frames ih =>
    rw [length_cons] at hj hbare ⊢
    rw [flatMap_cons, append_assoc] at hsplit
    obtain ⟨hle, hge⟩ := count_of_settle hf
    rcases Nat.lt_or_ge xs.length frame.bytes.length with hpart | hwhole
    · -- the cut is inside of this frame, so none of those behind it has been counted
      have hcount : (f.read xs).1.numReadFrames ≤ j ∧
          (xs ≠ [] → (f.read xs).1.numReadFrames = j) := by
        by_cases hxs : xs = []
        · rw [hxs, read_nil]
          exact ⟨hle, fun h => absurd rfl h⟩
        · obtain ⟨rest, hframe, hrest⟩ := exists_rest hsplit hpart
          have := count_of_partial (w := w) (by omega : j < 8) hframe hrest
          rw [← read_settle hxs, hf]
          exact ⟨Nat.le_of_eq this, fun _ => this⟩
      refine ⟨by omega, fun i hi => ?_⟩
      rcases i with _ | i
      · rw [frameEnd_zero]
        exact ⟨fun _ => Nat.zero_le _, fun h => Nat.le_of_eq (hcount.2 (length_pos_iff.mp h)).symm⟩
      · rw [frameEnd_succ]
        exact ⟨fun h => by omega, fun h => by omega⟩
    · -- the whole frame has been read
      obtain ⟨xs', hxs', hrest⟩ := exists_beyond hsplit hwhole
      obtain ⟨f₁, hread, hf₁⟩ := read_next hf (by omega) frame
      obtain ⟨hle₁, hcount⟩ := ih hf₁ (by omega) (fun h => hbare (by omega)) hrest
      have hstep : (f.read xs).1 = (f₁.read xs').1 := by rw [hxs', read_append, hread]
      rw [hstep, hxs', length_append]
      refine ⟨by omega, fun i hi => ?_⟩
      rcases i with _ | i
      · refine ⟨fun _ => Nat.zero_le _, fun _ => ?_⟩
        by_cases hnil : xs' = []
        · have := (count_of_settle hf₁).2
          rw [hnil, read_nil]
          dsimp only
          omega
        · have := (hcount 0 (Nat.zero_le _)).2
            (by rw [frameEnd_zero]; exact length_pos_iff.mpr hnil)
          omega
      · rw [frameEnd_succ]
        obtain ⟨hpast, hfuture⟩ := hcount i (by omega)
        exact ⟨fun h => by have := hpast (by omega); omega,
          fun h => by have := hfuture (by omega); omega⟩

end NaivePaddingFramer

-- ----
-- Sending

inductive PaddingType where
  | none
  | variant1
  deriving DecidableEq

/-- The sending side of a `NaiveProxyConnection`. -/
structure PaddingSender where
  paddingFramer : NaivePaddingFramer := {}
  /-- How many random numbers have been drawn. -/
  draws : Nat := 0

def maxPaddingPayload : Nat := 65535

section Sending

-- what the random generator gives, draw by draw
variable (random : Nat → Nat)

/-- `Random.nextInt(from, until)`. -/
def nextInt (low high : Nat) (s : PaddingSender) : Nat × PaddingSender :=
  (low + random s.draws % (high - low), { s with draws := s.draws + 1 })

def generateSendPaddingSize (payloadSize : Nat) (s : PaddingSender) : Nat × PaddingSender :=
  if payloadSize < 100 then nextInt random (255 - payloadSize) 256 s else nextInt random 0 256 s

def sendPadded (s : PaddingSender) (data : Bytes) : PaddingSender × List Bytes :=
  let padding := generateSendPaddingSize random data.length s
  let framed := padding.2.paddingFramer.write data padding.1
  ({ padding.2 with paddingFramer := framed.1 }, [framed.2])

def fragmentSize (remaining : Nat) (s : PaddingSender) : Nat × PaddingSender :=
  if remaining ≤ 300 then (remaining, s) else nextInt random 200 301 s

theorem fragmentSize_pos {remaining : Nat} (h : 0 < remaining) (s : PaddingSender) :
    0 < (fragmentSize random remaining s).1 := by
  unfold fragmentSize nextInt
  split
  · exact h
  · dsimp only
    omega

/-- `sendFragmented`: what is handed to the tunnel. -/
def sendFragmented (s : PaddingSender) (data : Bytes) (offset : Nat) : PaddingSender × List Bytes :=
  if _hend : data.length ≤ offset then (s, [])
  else if s.paddingFramer.isWritePaddingActive = false then (s, [data.drop offset])
  else
    let chunkSize := fragmentSize random (data.length - offset) s
    let sent := sendPadded random chunkSize.2 ((data.drop offset).take chunkSize.1)
    let later := sendFragmented sent.1 data (offset + chunkSize.1)
    (later.1, sent.2 ++ later.2)
  termination_by data.length - offset
  decreasing_by
    have := fragmentSize_pos random (by omega : 0 < data.length - offset) s
    omega

/-- `sendRaw`: what is handed to the tunnel. -/
def sendRaw (paddingType : PaddingType) (s : PaddingSender) (data : Bytes) :
    PaddingSender × List Bytes :=
  if s.paddingFramer.isWritePaddingActive = true ∧ paddingType = .variant1 then
    if 400 ≤ data.length ∧ data.length ≤ 1024 then sendFragmented random s data 0
    else if _hlarge : maxPaddingPayload < data.length then
      let first := sendRaw paddingType s (data.take maxPaddingPayload)
      let second := sendRaw paddingType first.1 (data.drop maxPaddingPayload)
      (second.1, first.2 ++ second.2)
    else sendPadded random s data
  else (s, [data])
  termination_by data.length
  decreasing_by
    · rw [length_take]
      omega
    · rw [length_drop]
      unfold maxPaddingPayload at *
      omega

end Sending

-- ----
-- What has been sent

/-- The bytes sent so far are a stream that carries the data, and the framer counts its frames. -/
def Carries (f : NaivePaddingFramer) (sent data : Bytes) : Prop :=
  f.maxFrames = 8 ∧
    ∃ stream : PaddedStream,
      stream.bytes = sent ∧ stream.data = data ∧ f.numWrittenFrames = stream.frames.length

theorem carries_nil : Carries {} [] [] :=
  ⟨rfl, ⟨[], [], by decide, fun _ => rfl⟩, rfl, rfl, rfl⟩

section

variable {f : NaivePaddingFramer} {sent data : Bytes}

theorem carries_write (h : Carries f sent data) (hactive : f.isWritePaddingActive = true)
    {payload : Bytes} (hpayload : payload.length ≤ 65535) (paddingSize : Nat) :
    Carries (f.write payload paddingSize).1 (sent ++ (f.write payload paddingSize).2)
    (data ++ payload) := by
  obtain ⟨hmax, stream, rfl, rfl, hcount⟩ := h
  have hfew : stream.frames.length < 8 := by
    have := of_decide_eq_true hactive
    omega
  let frame : PaddedFrame := ⟨payload, min paddingSize 255, hpayload, Nat.min_le_right _ _⟩
  have hlength : (stream.frames ++ [frame]).length = stream.frames.length + 1 := by simp
  refine ⟨hmax, ⟨stream.frames ++ [frame], [], by omega, fun _ => rfl⟩, ?_, ?_, ?_⟩
  · simp only [PaddedStream.bytes, stream.bare_eq hfew, append_nil, flatMap_append,
      flatMap_singleton]
    rfl
  · simp only [PaddedStream.data, stream.bare_eq hfew, append_nil, flatMap_append,
      flatMap_singleton, frame]
  · have hlast : f.numWrittenFrames < lastCount := by
      unfold lastCount
      omega
    show (if f.numWrittenFrames < lastCount then f.numWrittenFrames + 1 else f.numWrittenFrames) = _
    rw [if_pos hlast, hlength, hcount]

theorem carries_bare (h : Carries f sent data) (hover : f.isWritePaddingActive = false)
    (xs : Bytes) :
    Carries f (sent ++ xs) (data ++ xs) := by
  obtain ⟨hmax, stream, rfl, rfl, hcount⟩ := h
  have hall : ¬ stream.frames.length < 8 := by
    have := of_decide_eq_false hover
    omega
  refine ⟨hmax, ⟨stream.frames, stream.bare ++ xs, stream.frames_le, fun h => absurd h hall⟩,
    ?_, ?_, hcount⟩
  · simp only [PaddedStream.bytes, append_assoc]
  · simp only [PaddedStream.data, append_assoc]

end

section

variable (random : Nat → Nat)

theorem nextInt_framer (low high : Nat) (s : PaddingSender) :
    (nextInt random low high s).2.paddingFramer = s.paddingFramer := rfl

theorem generateSendPaddingSize_framer (size : Nat) (s : PaddingSender) :
    (generateSendPaddingSize random size s).2.paddingFramer = s.paddingFramer := by
  unfold generateSendPaddingSize
  split
  · exact nextInt_framer random _ _ s
  · exact nextInt_framer random _ _ s

theorem fragmentSize_framer (remaining : Nat) (s : PaddingSender) :
    (fragmentSize random remaining s).2.paddingFramer = s.paddingFramer := by
  unfold fragmentSize
  split
  · rfl
  · exact nextInt_framer random _ _ s

variable {s : PaddingSender} {sent data : Bytes}

theorem carries_sendPadded (h : Carries s.paddingFramer sent data)
    (hactive : s.paddingFramer.isWritePaddingActive = true) (hxs : xs.length ≤ 65535) :
    Carries (sendPadded random s xs).1.paddingFramer (sent ++ (sendPadded random s xs).2.flatten)
      (data ++ xs) := by
  have hframer : (generateSendPaddingSize random xs.length s).2.paddingFramer = s.paddingFramer :=
    generateSendPaddingSize_framer random _ s
  rw [← hframer] at h hactive
  have hwrite := carries_write h hactive hxs (generateSendPaddingSize random xs.length s).1
  simpa [sendPadded] using hwrite

theorem carries_sendFragmented (h : Carries s.paddingFramer sent data) (xs : Bytes)
    (hxs : xs.length ≤ 1024) (offset : Nat) :
    Carries (sendFragmented random s xs offset).1.paddingFramer
      (sent ++ (sendFragmented random s xs offset).2.flatten) (data ++ xs.drop offset) := by
  induction hn : xs.length - offset using Nat.strongRecOn generalizing s sent data offset with
  | ind n ih =>
    rw [sendFragmented]
    split
    · rename_i hend
      rw [flatten_nil, append_nil, drop_of_length_le hend, append_nil]
      exact h
    · rename_i hend
      split
      · rename_i hover
        rw [flatten_singleton]
        exact carries_bare h hover _
      · rename_i hactive
        have hpos := fragmentSize_pos random (by omega : 0 < xs.length - offset) s
        have hchunk :
            ((xs.drop offset).take (fragmentSize random (xs.length - offset) s).1).length ≤
            65535 := by
          rw [length_take, length_drop]
          omega
        rw [← fragmentSize_framer random (xs.length - offset) s, Bool.not_eq_false] at hactive
        rw [← fragmentSize_framer random (xs.length - offset) s] at h
        have hlater := ih _ (by omega) (carries_sendPadded random h hactive hchunk)
          (offset + (fragmentSize random (xs.length - offset) s).1) rfl
        rw [append_assoc, append_assoc, ← drop_drop, take_append_drop] at hlater
        rw [flatten_append]
        exact hlater

theorem carries_sendRaw (h : Carries s.paddingFramer sent data) (xs : Bytes) :
    Carries (sendRaw random .variant1 s xs).1.paddingFramer
      (sent ++ (sendRaw random .variant1 s xs).2.flatten) (data ++ xs) := by
  induction hn : xs.length using Nat.strongRecOn generalizing s sent data xs with
  | ind n ih =>
    rw [sendRaw]
    split
    · rename_i hactive
      split
      · rename_i hmiddle
        have hall := carries_sendFragmented random h xs hmiddle.2 0
        rw [drop_zero] at hall
        exact hall
      · split
        · rename_i hlarge
          unfold maxPaddingPayload at hlarge ⊢
          have hfirst := ih _ (by rw [length_take]; omega) h (xs.take 65535) rfl
          have hsecond := ih _ (by rw [length_drop]; omega) hfirst (xs.drop 65535) rfl
          rw [append_assoc, append_assoc, take_append_drop] at hsecond
          rw [flatten_append]
          exact hsecond
        · rename_i hsmall
          exact carries_sendPadded random h hactive.1 (Nat.le_of_not_lt hsmall)
    · rename_i hover
      have hinactive : s.paddingFramer.isWritePaddingActive = false := by
        rw [and_iff_left rfl] at hover
        exact Bool.eq_false_iff.mpr hover
      rw [flatten_singleton]
      exact carries_bare h hinactive xs

theorem carries_sendRaws (h : Carries s.paddingFramer sent data) (writes : List Bytes) :
    Carries (transduce (sendRaw random .variant1) s writes).1.paddingFramer
      (sent ++ (transduce (sendRaw random .variant1) s writes).2.flatten)
      (data ++ writes.flatten) := by
  induction writes generalizing s sent data with
  | nil =>
    rw [transduce_nil, flatten_nil, append_nil, append_nil]
    exact h
  | cons xs writes ih =>
    have hlater := ih (carries_sendRaw random h xs)
    rw [append_assoc, append_assoc] at hlater
    rw [transduce_cons, flatten_append, flatten_cons]
    exact hlater

end

-- ----
-- Receiving

/-- What the tunnel has still to deliver, and whether it has returned null. -/
structure NaiveTunnel where
  incoming : List Bytes
  ended : Bool

/-- `receiveRaw`: the framer and the tunnel afterwards, and what is returned. -/
def receiveRaw (paddingType : PaddingType) (f : NaivePaddingFramer) :
    List Bytes → NaivePaddingFramer × NaiveTunnel × Option Bytes
  | [] => (f, ⟨[], true⟩, none)
  | data :: incoming =>
    if data = [] then (f, ⟨incoming, false⟩, none)
    else if f.isReadPaddingActive = true ∧ paddingType = .variant1 then
      let output := f.read data
      if 0 < output.2.length then (output.1, ⟨incoming, false⟩, some output.2)
      else receiveRaw paddingType output.1 incoming
    else (f, ⟨incoming, false⟩, some data)

def readChunks (f : NaivePaddingFramer) (chunks : List Bytes) : NaivePaddingFramer × Bytes :=
  transduce NaivePaddingFramer.read f chunks

/-- What so many calls of `receiveRaw` return. -/
def receives (paddingType : PaddingType) : Nat → NaivePaddingFramer → List Bytes →
    List (Option Bytes)
  | 0, _, _ => []
  | n + 1, f, incoming =>
    let call := receiveRaw paddingType f incoming
    call.2.2 :: receives paddingType n call.1 call.2.1.incoming

-- ----
-- What is received

/-- What the reader makes of a chunk, whether it still looks for frames or not. -/
def unframe (paddingType : PaddingType) (f : NaivePaddingFramer) (chunk : Bytes) :
    NaivePaddingFramer × Bytes :=
  if paddingType = .variant1 then f.read chunk else (f, chunk)

/-- The reader that has counted all frames is between two of them. -/
def NaivePaddingFramer.Orderly (f : NaivePaddingFramer) : Prop :=
  f.maxFrames ≤ f.numReadFrames → f.state = .payloadLength1

namespace NaivePaddingFramer

theorem orderly_of_active {f : NaivePaddingFramer} (h : f.numReadFrames < f.maxFrames) :
    f.Orderly :=
  fun hover => absurd h (Nat.not_lt_of_le hover)

theorem orderly_read {f : NaivePaddingFramer} (hf : f.Orderly) (xs : Bytes) :
    (f.read xs).1.Orderly := by
  induction f, xs using read.induct with
  | case1 f =>
    rw [read_nil]
    exact hf
  | case2 f byte rest hstate hover =>
    rw [read_through hstate hover]
    exact hf
  | case3 f byte rest hstate hactive ih =>
    rw [read_length1 hstate (by omega)]
    exact ih (orderly_of_active (Nat.lt_of_not_le hactive))
  | case4 f byte rest hstate ih =>
    rw [read_length2 hstate]
    exact ih fun hover => by simpa [hstate] using hf hover
  | case5 f byte rest hstate ih =>
    rw [read_paddingLength hstate]
    exact ih fun hover => by simpa [hstate] using hf hover
  | case6 f byte rest hstate copySize ih =>
    rw [read_payload hstate (cons_ne_nil _ _)]
    exact ih fun hover => by simpa [hstate] using hf hover
  | case7 f byte rest hstate skipSize ih =>
    rw [read_padding hstate (cons_ne_nil _ _)]
    apply ih
    unfold skipped
    split
    · exact fun _ => rfl
    · exact hf

end NaivePaddingFramer

section

variable {paddingType : PaddingType} {f : NaivePaddingFramer}

theorem orderly_unframe (hf : f.Orderly) (chunk : Bytes) :
    (unframe paddingType f chunk).1.Orderly := by
  unfold unframe
  split
  · exact NaivePaddingFramer.orderly_read hf chunk
  · exact hf

theorem receiveRaw_cons (hf : f.Orderly) (hchunk : chunk ≠ []) (incoming : List Bytes) :
    receiveRaw paddingType f (chunk :: incoming) =
      if (unframe paddingType f chunk).2 = [] then
        receiveRaw paddingType (unframe paddingType f chunk).1 incoming
      else ((unframe paddingType f chunk).1, ⟨incoming, false⟩,
        some (unframe paddingType f chunk).2) := by
  rw [receiveRaw, if_neg hchunk]
  by_cases htype : paddingType = .variant1
  · rw [unframe, if_pos htype]
    by_cases hactive : f.isReadPaddingActive = true
    · rw [if_pos ⟨hactive, htype⟩]
      by_cases hempty : (f.read chunk).2 = []
      · rw [if_pos hempty]
        dsimp only
        rw [if_neg (by rw [hempty]; decide)]
      · rw [if_neg hempty]
        dsimp only
        rw [if_pos (length_pos_iff.mpr hempty)]
    · have hover : f.maxFrames ≤ f.numReadFrames := by
        have := of_decide_eq_false (Bool.eq_false_iff.mpr hactive)
        omega
      rw [if_neg fun h => hactive h.1, NaivePaddingFramer.read_through (hf hover) hover,
        if_neg hchunk]
  · rw [unframe, if_neg htype, if_neg fun h => htype h.2, if_neg hchunk]

/-- **Null only when the tunnel has said so.** -/
theorem ended_of_receiveRaw (hf : f.Orderly) {incoming : List Bytes} (hne : [] ∉ incoming)
    (hnull : (receiveRaw paddingType f incoming).2.2 = none) :
    (receiveRaw paddingType f incoming).2.1 = ⟨[], true⟩ := by
  induction incoming generalizing f with
  | nil => rfl
  | cons chunk incoming ih =>
    rw [mem_cons, not_or] at hne
    rw [receiveRaw_cons hf (Ne.symm hne.1)] at hnull ⊢
    split at hnull
    · rename_i hempty
      rw [if_pos hempty]
      exact ih (orderly_unframe hf chunk) hne.2 hnull
    · exact absurd hnull (Option.some_ne_none _)

theorem receives_nil (n : Nat) (f : NaivePaddingFramer) :
    receives paddingType n f [] = List.replicate n none := by
  induction n generalizing f with
  | zero => rfl
  | succ n ih =>
    rw [receives, replicate_succ]
    exact congrArg (none :: ·) (ih f)

theorem receives_padding (hf : f.Orderly) (hchunk : chunk ≠ [])
    (hempty : (unframe paddingType f chunk).2 = []) (n : Nat) (incoming : List Bytes) :
    receives paddingType n f (chunk :: incoming) =
      receives paddingType n (unframe paddingType f chunk).1 incoming := by
  rcases n with _ | n
  · rfl
  · rw [receives, receives, receiveRaw_cons hf hchunk, if_pos hempty]

theorem receives_data (hf : f.Orderly) (hchunk : chunk ≠ [])
    (hdata : (unframe paddingType f chunk).2 ≠ []) (n : Nat) (incoming : List Bytes) :
    receives paddingType (n + 1) f (chunk :: incoming) =
      some (unframe paddingType f chunk).2 :: receives paddingType n
      (unframe paddingType f chunk).1 incoming := by
  rw [receives, receiveRaw_cons hf hchunk, if_neg hdata]

/-- **The calls return what the reader makes of the chunks, and then null.** -/
theorem receives_eq (hf : f.Orderly) {incoming : List Bytes} (hne : [] ∉ incoming) :
    ∃ datas : List Bytes,
      datas.flatten = (transduce (unframe paddingType) f incoming).2 ∧ [] ∉ datas ∧
        ∀ n, receives paddingType (datas.length + n) f incoming = datas.map some ++
          List.replicate n none := by
  induction incoming generalizing f with
  | nil =>
    refine ⟨[], rfl, not_mem_nil, fun n => ?_⟩
    rw [length_nil, Nat.zero_add, receives_nil]
    rfl
  | cons chunk incoming ih =>
    rw [mem_cons, not_or] at hne
    have hchunk := Ne.symm hne.1
    obtain ⟨datas, hflatten, hfull, hcalls⟩ := ih (orderly_unframe hf chunk) hne.2
    rw [transduce_cons]
    by_cases hempty : (unframe paddingType f chunk).2 = []
    · refine ⟨datas, ?_, hfull, fun n => ?_⟩
      · rw [hempty, nil_append, hflatten]
      · rw [receives_padding hf hchunk hempty, hcalls]
    · refine ⟨(unframe paddingType f chunk).2 :: datas, ?_, ?_, fun n => ?_⟩
      · rw [flatten_cons, hflatten]
      · rw [mem_cons, not_or]
        exact ⟨Ne.symm hempty, hfull⟩
      · rw [length_cons, Nat.add_right_comm, receives_data hf hchunk hempty, hcalls]
        rfl

theorem unframe_variant1 : unframe .variant1 = NaivePaddingFramer.read := by
  funext f chunk
  exact if_pos rfl

theorem readChunks_eq (f : NaivePaddingFramer) (chunks : List Bytes) :
    readChunks f chunks = f.read chunks.flatten := by
  induction chunks generalizing f with
  | nil => exact (NaivePaddingFramer.read_nil f).symm
  | cons chunk chunks ih =>
    unfold readChunks at ih ⊢
    rw [transduce_cons, ih, flatten_cons, NaivePaddingFramer.read_append]

end

-- ----
-- Round trip

/-- **Whatever is written arrives.** For any writes and any random choices the bytes on the wire are
as many frames as the sender has counted, and bare data behind the eighth. Under any chunking a
peer's framer recovers the data and counts the same frames; and the calls of `receiveRaw` return
the data, none of it empty, and null only when the tunnel has returned null. -/
theorem padding_round_trip (random : Nat → Nat) (writes : List Bytes) (w : Nat) :
    ∃ stream : PaddedStream,
      (transduce (sendRaw random .variant1) {} writes).2.flatten = stream.bytes ∧
      (transduce (sendRaw random .variant1) {} writes).1.paddingFramer.numWrittenFrames =
        stream.frames.length ∧
      ∀ chunks : List Bytes, chunks.flatten = stream.bytes →
        (readChunks { numWrittenFrames := w } chunks).2 = writes.flatten ∧
        (∀ before after : List Bytes, before ++ after = chunks →
          InStepWith stream.frames before.flatten.length
            (readChunks { numWrittenFrames := w } before).1.numReadFrames) ∧
        ([] ∉ chunks →
          (∃ datas : List Bytes,
            datas.flatten = writes.flatten ∧ [] ∉ datas ∧
              ∀ n, receives .variant1 (datas.length + n) { numWrittenFrames := w } chunks =
                datas.map some ++ List.replicate n none) ∧
          ∀ before after : List Bytes, before ++ after = chunks →
            (receiveRaw .variant1 (readChunks { numWrittenFrames := w } before).1 after).2.2 =
            none →
              (receiveRaw .variant1 (readChunks { numWrittenFrames := w } before).1
                after).2.1.ended = true) := by
  obtain ⟨-, stream, hsent, hdata, hcount⟩ := carries_sendRaws (s := {}) random carries_nil writes
  rw [nil_append] at hsent hdata
  refine ⟨stream, hsent.symm, hcount, fun chunks hchunks => ?_⟩
  have hall : (readChunks (NaivePaddingFramer.between w 0) chunks).2 = writes.flatten := by
    rw [readChunks_eq, hchunks, ← hdata]
    exact (NaivePaddingFramer.read_stream stream).1
  have horderly : (NaivePaddingFramer.between w 0).Orderly := 
    NaivePaddingFramer.orderly_of_active (by show 0 < 8; decide)
  refine ⟨hall, fun before after hsplit => ?_, fun hne => ⟨?_, fun before after hsplit hnull => ?_⟩⟩
  · rw [readChunks_eq]
    have hbytes : before.flatten ++ after.flatten =
        stream.frames.flatMap PaddedFrame.bytes ++ stream.bare := by
      rw [← flatten_append, hsplit, hchunks]
      rfl
    have hprefix :=
      NaivePaddingFramer.count_of_prefix (NaivePaddingFramer.settle_between w 0) stream.frames
      (by rw [Nat.zero_add]; exact stream.frames_le)
        (by rw [Nat.zero_add]; exact stream.bare_eq) hbytes
    simp only [Nat.zero_add] at hprefix
    exact hprefix
  · obtain ⟨datas, hflatten, hfull, hcalls⟩ := @receives_eq .variant1 _ horderly _ hne
    rw [unframe_variant1] at hflatten
    exact ⟨datas, hflatten.trans hall, hfull, hcalls⟩
  · have hafter : [] ∉ after := fun h => hne (hsplit ▸ mem_append_right before h)
    have hreader : (readChunks (NaivePaddingFramer.between w 0) before).1.Orderly := by
      rw [readChunks_eq]
      exact NaivePaddingFramer.orderly_read horderly _
    have hended := ended_of_receiveRaw hreader hafter hnull
    exact congrArg NaiveTunnel.ended hended

/-- Nine small writes: eight frames, each cut inside of the header and before the padding, and one
bare. -/
theorem padding_round_trip_cut :
    let chunks := (List.replicate 8 [[0, 1], [254, 7], List.replicate 254 0]).flatten ++ [[7]]
    (transduce (sendRaw (fun _ => 0) .variant1) {} (List.replicate 9 [7])).2.flatten =
      chunks.flatten ∧
      ∃ datas : List Bytes,
        datas.flatten = List.replicate 9 7 ∧ [] ∉ datas ∧
          ∀ n, receives .variant1 (datas.length + n) {} chunks = datas.map some ++
            List.replicate n none := by
  intro chunks
  have hsent : (transduce (sendRaw (fun _ => 0) .variant1) {} (List.replicate 9 [7])).2.flatten =
      chunks.flatten := by
    decide +kernel
  obtain ⟨stream, hstream, -, htrip⟩ := padding_round_trip (fun _ => 0) (List.replicate 9 [7]) 0
  obtain ⟨-, -, hreceive⟩ := htrip chunks (hsent.symm.trans hstream)
  exact ⟨hsent, (hreceive (by decide)).1⟩

end Anywhere.Naive
