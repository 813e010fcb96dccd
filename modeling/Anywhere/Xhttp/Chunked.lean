import Anywhere.Lib.Framing
import Anywhere.Lib.Text
import Anywhere.Naive.Session

/-!
# Anywhere — `XHttpClient`: the chunked transfer coding

What an HTTP/1.1 server answers with arrives in chunks, each behind a line with its size in
hexadecimal digits. The size goes through a parser that takes a sign, and then into an `Int`.

* `ChunkedTransferDecoder`, `receive` — the decoder, and the reads that feed it.
* `encode`, `encodeTerminator` — the other direction.
* `chunks` — the coding as a `Framing`; what the decoder throws at is a frame, too.
* `chunked_transfer` — the stream comes back, and the condition for that.
-/

namespace Anywhere.Xhttp

open Lib List
open Naive (int32 int32_of_fits int32_of_nat fits_int32)

-- ----
-- `ChunkedTransferDecoder`

inductive Thrown where
  | illegalArgument | indexOutOfBounds | outOfMemory
  deriving DecidableEq

/-- The elements an array can hold. -/
def maxArraySize : Nat := 2 ^ 31 - 3

def copyOfRange (buffer : Bytes) (fromIndex toIndex : Int) : Except Thrown Bytes :=
  if (buffer.length : Int) < toIndex then .error .indexOutOfBounds
  else if toIndex < fromIndex then .error .illegalArgument
  else .ok ((buffer.drop fromIndex.toNat).take (toIndex - fromIndex).toNat)

/-- `String(bytes, Charsets.US_ASCII)`. -/
def asciiText (line : Bytes) : Text := line.map fun b => if b < 128 then Char.ofNat b.toNat
    else '\uFFFD'

def sizeStr (line : Bytes) : Text := (Text.cut ';' (asciiText line)).1.trim

def findCRLF : Bytes → Option Nat
  | a :: b :: rest => if a = 0x0D ∧ b = 0x0A then some 0 else (findCRLF (b :: rest)).map (· + 1)
  | _ => none

/-- The first `bufferLen` bytes of the buffer. -/
structure ChunkedTransferDecoder where
  buffer : Bytes := []
  isFinished : Bool := false

namespace ChunkedTransferDecoder

def feed (d : ChunkedTransferDecoder) (data : Bytes) : Except Thrown ChunkedTransferDecoder :=
  if maxArraySize < d.buffer.length + data.length then .error .outOfMemory
  else .ok { d with buffer := d.buffer ++ data }

def nextChunk (d : ChunkedTransferDecoder) : Except Thrown (Option Bytes) ×
    ChunkedTransferDecoder :=
  if d.isFinished then (.ok none, d)
  else
    match findCRLF d.buffer with
    | none => (.ok none, d)
    | some crlfIdx =>
      match Text.toNumberOrNull 64 16 (sizeStr (d.buffer.take crlfIdx)) with
      | none => (.ok none, d)
      | some chunkSize =>
        if chunkSize = 0 then
          let termEnd := crlfIdx + 2
          (.ok none, ⟨if termEnd + 2 ≤ d.buffer.length then d.buffer.drop (termEnd + 2)
            else [], true⟩)
        else
          let dataStart := crlfIdx + 2
          -- `chunkSize.toInt()`, and sums of `Int`s
          let dataEnd := int32 (dataStart + int32 chunkSize)
          let needed := int32 (dataEnd + 2)
          if (d.buffer.length : Int) < needed then (.ok none, d)
          else
            match copyOfRange d.buffer dataStart dataEnd with
            | .error e => (.error e, d)
            | .ok chunkData =>
                (.ok (some chunkData), { d with buffer := d.buffer.drop needed.toNat })

end ChunkedTransferDecoder

-- ----
-- `receive`

/-- The download of an `XHttpConnection` over HTTP/1.1: its decoder, and what `downloadReceive` is
going to return before it returns null for good. -/
structure Download where
  chunkedDecoder : ChunkedTransferDecoder := {}
  incoming : List Bytes

namespace Download

def receiveLoop (d : ChunkedTransferDecoder) : List Bytes → Except Thrown (Option Bytes) × Download
  | [] => (.ok none, ⟨d, []⟩)
  | data :: incoming =>
    if data = [] then (.ok none, ⟨d, incoming⟩)
    else
      match d.feed data with
      | .error e => (.error e, ⟨d, incoming⟩)
      | .ok d =>
        match d.nextChunk with
        | (.error e, d) => (.error e, ⟨d, incoming⟩)
        | (.ok (some decoded), d) => (.ok (some decoded), ⟨d, incoming⟩)
        | (.ok none, d) => if d.isFinished then (.ok none, ⟨d, incoming⟩)
            else receiveLoop d incoming

def receive (c : Download) : Except Thrown (Option Bytes) × Download :=
  match c.chunkedDecoder.nextChunk with
  | (.error e, d) => (.error e, ⟨d, c.incoming⟩)
  | (.ok (some decoded), d) => (.ok (some decoded), ⟨d, c.incoming⟩)
  | (.ok none, d) => if d.isFinished then (.ok none, ⟨d, c.incoming⟩) else receiveLoop d c.incoming

/-- The connection after `n` calls of `receive`. -/
def after (c : Download) : Nat → Download
  | 0 => c
  | n + 1 => c.receive.2.after n

def unread (c : Download) : Bytes := c.chunkedDecoder.buffer ++ c.incoming.flatten

end Download

-- ----
-- `ChunkedTransferEncoder`

def crlf : Bytes := [0x0D, 0x0A]

/-- `encode`, into an array of exactly its size. -/
def encode (data : Bytes) : Except Thrown Bytes :=
  let sizeBytes := (Nat.toDigits 16 data.length).map fun c => UInt8.ofNat c.toNat
  if maxArraySize < sizeBytes.length + 2 + data.length + 2 then .error .outOfMemory
  else .ok (sizeBytes ++ crlf ++ data ++ crlf)

def encodeTerminator : Bytes := [0x30, 0x0D, 0x0A, 0x0D, 0x0A]

-- ----
-- What is claimed

def HexSize (size : Text) : Prop := size ≠ [] ∧ ∀ c ∈ size, (Text.digitOf c 16).isSome

/-- The size field at the front of a stream, once its line is complete. -/
def sizeField (xs : Bytes) : Option Text := (findCRLF xs).map fun i => sizeStr (xs.take i)

/-- The next call of `receive` does not throw, and if it ends the stream then at a size. -/
def Download.Proper (c : Download) : Prop :=
  (∃ decoded, c.receive.1 = .ok decoded) ∧
    (c.chunkedDecoder.isFinished = false → c.receive.2.chunkedDecoder.isFinished = true →
      ∃ size, sizeField c.unread = some size ∧ HexSize size)

/-- Every chunk is received as it was sent, and then null. -/
def Download.Delivers (c : Download) (datas : List Bytes) : Prop :=
  (∀ i data, datas[i]? = some data → (c.after i).receive.1 = .ok (some data)) ∧
    ∀ n, datas.length ≤ n →
      (c.after n).receive.1 = .ok none ∧ (c.after n).receive.2.chunkedDecoder.isFinished = true

-- ----
-- The coding as a framing

/-- What the decoder finds at the front of its buffer: a chunk, a zero with its text, or a size
that it throws at. -/
inductive ChunkFrame where
  | chunk (data : Bytes)
  | last (size : Text)
  | broken
  deriving Repr

def ChunkFrame.IsChunk : ChunkFrame → Prop
  | .chunk _ => True
  | _ => False

def ChunkFrame.Sound : ChunkFrame → Prop
  | .chunk _ => True
  | .last size => HexSize size
  | .broken => False

/-- The frame behind a size line that ends at `i`. -/
def frameAt (i : Nat) (size : Text) (xs : Bytes) : Option (ChunkFrame × Bytes) :=
  match Text.toNumberOrNull 64 16 size with
  | none => none
  | some chunkSize =>
    if chunkSize = 0 then some (.last size, xs.drop (i + 2))
    else if int32 chunkSize < 0 then
      -- one byte of data is missing before it is read with a length below zero
      if int32 chunkSize = -1 ∧ xs.length ≤ i + 2 then none else some (.broken, xs.drop (i + 2))
    else if 2 ^ 31 ≤ i + 2 + (int32 chunkSize).toNat + 2 then some (.broken, xs.drop (i + 2))
    else if xs.length < i + 2 + (int32 chunkSize).toNat + 2 then none
    else some (.chunk ((xs.drop (i + 2)).take (int32 chunkSize).toNat),
      xs.drop (i + 2 + (int32 chunkSize).toNat + 2))

def nextFrame (xs : Bytes) : Option (ChunkFrame × Bytes) :=
  match findCRLF xs with
  | none => none
  | some i => frameAt i (sizeStr (xs.take i)) xs

-- ----
-- Size lines

variable {i : Nat} {xs ys : Bytes}

theorem findCRLF_bound (h : findCRLF xs = some i) : i + 2 ≤ xs.length := by
  induction xs generalizing i with
  | nil => cases h
  | cons a xs ih =>
    cases xs with
    | nil => cases h
    | cons b rest =>
      rw [findCRLF] at h
      split at h
      · cases h
        simp only [length_cons]
        omega
      · obtain ⟨j, hj, rfl⟩ := Option.map_eq_some_iff.mp h
        have := ih hj
        simp only [length_cons] at this ⊢
        omega

theorem findCRLF_append (h : findCRLF xs = some i) (zs : Bytes) :
    findCRLF (xs ++ zs) = some i := by
  induction xs generalizing i with
  | nil => cases h
  | cons a xs ih =>
    cases xs with
    | nil => cases h
    | cons b rest =>
      rw [findCRLF] at h
      rw [cons_append, cons_append, findCRLF]
      split at h
      · rename_i hcrlf
        rw [if_pos hcrlf]
        exact h
      · rename_i hcrlf
        obtain ⟨j, hj, rfl⟩ := Option.map_eq_some_iff.mp h
        rw [if_neg hcrlf, ← cons_append, ih hj]
        rfl

/-- A line without a carriage return ends where it was ended. -/
theorem findCRLF_line {line : Bytes} (h : (0x0D : UInt8) ∉ line) (rest : Bytes) :
    findCRLF (line ++ (crlf ++ rest)) = some line.length := by
  induction line with
  | nil => rfl
  | cons a line ih =>
    rw [mem_cons, not_or] at h
    obtain ⟨b, more, hmore⟩ : ∃ b more, line ++ (crlf ++ rest) = b :: more := by
      cases line with
      | nil => exact ⟨_, _, rfl⟩
      | cons b more => exact ⟨_, _, rfl⟩
    rw [cons_append, hmore, findCRLF, if_neg fun hcrlf => h.1 hcrlf.1.symm, ← hmore, ih h.2]
    rfl

theorem take_line (h : findCRLF xs = some i) (zs : Bytes) : (xs ++ zs).take i = xs.take i := by
  have := findCRLF_bound h
  rw [take_append_of_le_length (by omega)]

variable {size : Text}

theorem sizeField_append (h : sizeField xs = some size) (zs : Bytes) :
    sizeField (xs ++ zs) = some size := by
  obtain ⟨i, hi, rfl⟩ := Option.map_eq_some_iff.mp h
  rw [sizeField, findCRLF_append hi, Option.map_some, take_line hi]

-- ----
-- Frames

variable {f : ChunkFrame}

theorem frameAt_progress (hi : i + 2 ≤ xs.length)
    (h : frameAt i size xs = some (f, ys)) : ys.length < xs.length := by
  rw [frameAt] at h
  split at h
  · cases h
  · rename_i chunkSize hsize
    split at h
    · cases h
      rw [length_drop]
      omega
    · split at h
      · split at h
        · cases h
        · cases h
          rw [length_drop]
          omega
      · split at h
        · cases h
          rw [length_drop]
          omega
        · split at h
          · cases h
          · cases h
            rw [length_drop]
            omega

theorem frameAt_append (hi : i + 2 ≤ xs.length)
    (h : frameAt i size xs = some (f, ys)) (zs : Bytes) :
    frameAt i size (xs ++ zs) = some (f, ys ++ zs) := by
  have hdrop : (xs ++ zs).drop (i + 2) = xs.drop (i + 2) ++ zs := drop_append_of_le_length hi
  rw [frameAt] at h ⊢
  split at h
  · cases h
  · rename_i chunkSize hsize
    split at h
    · rename_i hzero
      cases h
      rw [if_pos hzero, hdrop]
    · rename_i hzero
      rw [if_neg hzero]
      split at h
      · rename_i hneg
        rw [if_pos hneg]
        split at h
        · cases h
        · rename_i hmore
          cases h
          rw [if_neg, hdrop]
          rintro ⟨hone, hlen⟩
          rw [length_append] at hlen
          exact hmore ⟨hone, by omega⟩
      · rename_i hneg
        rw [if_neg hneg]
        split at h
        · rename_i hwrap
          cases h
          rw [if_pos hwrap, hdrop]
        · rename_i hwrap
          rw [if_neg hwrap]
          split at h
          · cases h
          · rename_i hall
            cases h
            rw [if_neg (by rw [length_append]; omega), hdrop, take_append_of_le_length,
              drop_append_of_le_length (by omega)]
            rw [length_drop]
            omega

def chunks : Framing UInt8 ChunkFrame where
  next := nextFrame
  progress := by
    intro xs f ys h
    rw [nextFrame] at h
    split at h
    · cases h
    · rename_i i hi
      exact frameAt_progress (findCRLF_bound hi) h
  extend := by
    intro xs f ys zs h
    rw [nextFrame] at h
    split at h
    · cases h
    · rename_i i hi
      rw [nextFrame, findCRLF_append hi]
      dsimp only
      rw [take_line hi]
      exact frameAt_append (findCRLF_bound hi) h zs

theorem sizeField_last (h : chunks.next xs = some (.last size, ys)) :
    sizeField xs = some size := by
  change nextFrame xs = _ at h
  rw [nextFrame] at h
  rw [sizeField]
  split at h
  · cases h
  · rename_i i hi
    rw [hi, Option.map_some]
    rw [frameAt] at h
    split at h
    · cases h
    · split at h
      · cases h
        rfl
      · split at h
        · split at h <;> cases h
        · split at h
          · cases h
          · split at h <;> cases h

-- ----
-- One call of `nextChunk`

namespace ChunkedTransferDecoder

/-- What `nextChunk` does with the frame at the front of the buffer. -/
def Handles (d : ChunkedTransferDecoder) : Option (ChunkFrame × Bytes) → Prop
  | none => d.nextChunk = (.ok none, d)
  | some (.chunk data, rest) => d.nextChunk = (.ok (some data), ⟨rest, false⟩)
  | some (.last _, _) => ∃ left, d.nextChunk = (.ok none, ⟨left, true⟩)
  | some (.broken, _) => ∃ e, d.nextChunk = (.error e, d)

theorem nextChunk_finished {d : ChunkedTransferDecoder} (h : d.isFinished = true) :
    d.nextChunk = (.ok none, d) := by
  rw [nextChunk, if_pos h]

theorem int32_above {n : Int} (h : 2 ^ 31 ≤ n) (h' : n < 2 ^ 31 + 2 ^ 32) :
    int32 n = n - 2 ^ 32 := by
  have hsame : int32 (n - 2 ^ 32) = int32 n := Int.sub_bmod_right n (2 ^ 32)
  rw [← hsame, int32_of_fits (by omega) (by omega)]

theorem copyOfRange_ok {buffer : Bytes} {n : Nat} (h : i + n ≤ buffer.length) :
    copyOfRange buffer i ((i + n : Nat) : Int) = .ok ((buffer.drop i).take n) := by
  have hlen : (((i + n : Nat) : Int) - (i : Int)).toNat = n := by omega
  rw [copyOfRange, if_neg (by omega), if_neg (by omega), hlen, Int.toNat_natCast]

theorem copyOfRange_error (buffer : Bytes) {a b : Int} (h : (buffer.length : Int) < b ∨ b < a) :
    ∃ e, copyOfRange buffer a b = .error e := by
  rw [copyOfRange]
  split
  · exact ⟨_, rfl⟩
  · rename_i hle
    rw [if_pos (h.resolve_left hle)]
    exact ⟨_, rfl⟩

/-- An end that does not fit into an `Int` is below zero or beyond every array. -/
theorem wrapped_end {n : Nat} (hi : i ≤ 2 ^ 31 - 3) (hn : n < 2 ^ 31) (h : 2 ^ 31 ≤ i + n + 2) :
    int32 (int32 ((i : Int) + n) + 2) < 0 ∧
    (int32 ((i : Int) + n) < 0 ∨ 2 ^ 31 - 2 ≤ int32 ((i : Int) + n)) := by
  by_cases hfits : i + n < 2 ^ 31
  · rw [← Int.natCast_add, int32_of_nat hfits, int32_above (by omega) (by omega)]
    omega
  · rw [int32_above (n := (i : Int) + n) (by omega) (by omega), int32_of_fits (by omega) (by omega)]
    omega

/-- **A call of `nextChunk`** handles one frame. -/
theorem nextChunk_handles {d : ChunkedTransferDecoder} (hopen : d.isFinished = false)
    (hsize : d.buffer.length ≤ maxArraySize) : d.Handles (chunks.next d.buffer) := by
  obtain ⟨buffer, finished⟩ := d
  dsimp only at hopen hsize
  subst hopen
  have hmax : buffer.length ≤ 2 ^ 31 - 3 := hsize
  change Handles _ (nextFrame buffer)
  rw [nextFrame]
  cases hi : findCRLF buffer with
  | none =>
    rw [Handles, nextChunk]
    simp only [hi]
    rfl
  | some i =>
    have hbound := findCRLF_bound hi
    dsimp only
    rw [frameAt]
    cases hn : Text.toNumberOrNull 64 16 (sizeStr (buffer.take i)) with
    | none =>
      rw [Handles, nextChunk]
      simp only [hi, hn]
      rfl
    | some chunkSize =>
      dsimp only
      split
      · rename_i hzero
        rw [Handles, nextChunk]
        simp only [hi, hn, if_pos hzero]
        exact ⟨_, rfl⟩
      · rename_i hzero
        have hstep : nextChunk ⟨buffer, false⟩ =
            if (buffer.length : Int) < int32 (int32 ((i + 2 : Nat) + int32 chunkSize) + 2) then
              (.ok none, ⟨buffer, false⟩)
            else
              match copyOfRange buffer (i + 2 : Nat) (int32 ((i + 2 : Nat) + int32 chunkSize)) with
              | .error e => (.error e, ⟨buffer, false⟩)
              | .ok chunkData => (.ok (some chunkData),
                  ⟨buffer.drop (int32 (int32 ((i + 2 : Nat) + int32 chunkSize) + 2)).toNat,
                    false⟩) := by
          rw [nextChunk]
          simp only [hi, hn, if_neg hzero]
          rfl
        obtain ⟨hlow, hhigh⟩ := fits_int32 chunkSize
        generalize int32 chunkSize = c at hstep hlow hhigh ⊢
        split
        · rename_i hneg
          -- a length below zero ends in front of where it starts
          rw [int32_of_fits (n := (i + 2 : Nat) + c) (by omega) (by omega),
            int32_of_fits (by omega) (by omega)] at hstep
          split
          · rename_i hone
            rw [Handles, hstep, if_pos (by omega)]
          · rename_i hmore
            obtain ⟨e, he⟩ := copyOfRange_error buffer (a := (i + 2 : Nat)) (b := (i + 2 : Nat) + c)
              (.inr (by omega))
            rw [Handles, hstep, if_neg (by omega), he]
            exact ⟨e, rfl⟩
        · rename_i hneg
          obtain ⟨n, rfl⟩ := Int.eq_ofNat_of_zero_le (Int.not_lt.mp hneg)
          rw [Int.toNat_natCast]
          split
          · rename_i hwrap
            obtain ⟨hneeded, hend⟩ := wrapped_end (i := i + 2) (n := n) (by omega) (by omega) hwrap
            obtain ⟨e, he⟩ := copyOfRange_error buffer (a := (i + 2 : Nat))
              (b := int32 ((i + 2 : Nat) + (n : Nat))) (by omega)
            rw [Handles, hstep, if_neg (by omega), he]
            exact ⟨e, rfl⟩
          · rename_i hwrap
            rw [← Int.natCast_add, int32_of_nat (n := i + 2 + n) (by omega),
              show (2 : Int) = ((2 : Nat) : Int) from rfl, ← Int.natCast_add,
              int32_of_nat (by omega)] at hstep
            split
            · rename_i hshort
              rw [Handles, hstep, if_pos (by omega)]
            · rename_i hall
              rw [Handles, hstep, if_neg (by omega), copyOfRange_ok (by omega)]
              rfl

end ChunkedTransferDecoder

-- ----
-- One call of `receive`

namespace Download

variable {c : Download} {buffer data rest : Bytes} {incoming : List Bytes}

theorem receive_finished (h : c.chunkedDecoder.isFinished = true) : c.receive = (.ok none, c) := by
  rw [receive, ChunkedTransferDecoder.nextChunk_finished h]
  simp only [h, if_true]

section Handled

variable (incoming)
variable (hsize : buffer.length ≤ maxArraySize)

include hsize

theorem receive_chunk (h : chunks.next buffer = some (.chunk data, rest)) :
    receive ⟨⟨buffer, false⟩, incoming⟩ = (.ok (some data), ⟨⟨rest, false⟩, incoming⟩) := by
  have hcall := ChunkedTransferDecoder.nextChunk_handles (d := ⟨buffer, false⟩) rfl hsize
  rw [h] at hcall
  rw [receive, show ChunkedTransferDecoder.nextChunk _ = _ from hcall]

theorem receive_last (h : chunks.next buffer = some (.last size, rest)) :
    ∃ left, receive ⟨⟨buffer, false⟩, incoming⟩ = (.ok none, ⟨⟨left, true⟩, incoming⟩) := by
  have hcall := ChunkedTransferDecoder.nextChunk_handles (d := ⟨buffer, false⟩) rfl hsize
  rw [h] at hcall
  obtain ⟨left, hleft⟩ := hcall
  refine ⟨left, ?_⟩
  rw [receive, hleft]
  rfl

theorem receive_broken (h : chunks.next buffer = some (.broken, rest)) :
    ∃ e, (receive ⟨⟨buffer, false⟩, incoming⟩).1 = .error e := by
  have hcall := ChunkedTransferDecoder.nextChunk_handles (d := ⟨buffer, false⟩) rfl hsize
  rw [h] at hcall
  obtain ⟨e, he⟩ := hcall
  refine ⟨e, ?_⟩
  rw [receive, he]

variable {incoming}

theorem receive_none (h : chunks.next buffer = none) :
    receive ⟨⟨buffer, false⟩, incoming⟩ = receiveLoop ⟨buffer, false⟩ incoming := by
  have hcall := ChunkedTransferDecoder.nextChunk_handles (d := ⟨buffer, false⟩) rfl hsize
  rw [h] at hcall
  rw [receive, show ChunkedTransferDecoder.nextChunk _ = _ from hcall]
  rfl

theorem receive_full (h : chunks.next buffer = none) (hne : data ≠ [])
    (hfull : maxArraySize < buffer.length + data.length) :
    (receive ⟨⟨buffer, false⟩, data :: incoming⟩).1 = .error .outOfMemory := by
  rw [receive_none hsize h, receiveLoop, if_neg hne, ChunkedTransferDecoder.feed, if_pos hfull]

theorem receive_read (h : chunks.next buffer = none) (hne : data ≠ [])
    (hfits : buffer.length + data.length ≤ maxArraySize) :
    receive ⟨⟨buffer, false⟩, data :: incoming⟩ = receive ⟨⟨buffer ++ data, false⟩, incoming⟩ := by
  rw [receive_none hsize h, receiveLoop, if_neg hne, ChunkedTransferDecoder.feed,
    if_neg (Nat.not_lt.mpr hfits)]
  rfl

end Handled

-- ----
-- A run of calls

/-- Up to the first frame that is no chunk, the frames are sound. -/
def Clean (xs : Bytes) : Prop :=
  ∀ fs f gs, chunks.frames xs = fs ++ f :: gs → (∀ g ∈ fs, g.IsChunk) → f.Sound

/-- As long as there are chunks, every read fits behind what is left in the buffer. -/
def Fitting (buffer : Bytes) (incoming : List Bytes) : Prop :=
  ∀ before data after, incoming = before ++ data :: after →
    (∀ f ∈ chunks.frames (buffer ++ before.flatten), f.IsChunk) →
      (chunks.rest (buffer ++ before.flatten)).length + data.length ≤ maxArraySize

theorem clean_chunk (h : chunks.next xs = some (.chunk data, ys)) : Clean xs ↔ Clean ys := by
  have hframes := chunks.frames_some h
  constructor
  · intro hclean fs f gs hsplit hfs
    refine hclean (.chunk data :: fs) f gs (by rw [hframes, hsplit, cons_append]) ?_
    intro g hg
    rcases mem_cons.mp hg with rfl | hg
    · trivial
    · exact hfs g hg
  · intro hclean fs f gs hsplit hfs
    rw [hframes] at hsplit
    cases fs with
    | nil =>
      rw [nil_append, List.cons.injEq] at hsplit
      rw [← hsplit.1]
      trivial
    | cons g fs =>
      rw [cons_append, List.cons.injEq] at hsplit
      exact hclean fs f gs hsplit.2 fun g' hg' => hfs g' (mem_cons_of_mem _ hg')

theorem clean_first (h : chunks.next xs = some (f, ys)) (hclean : Clean xs) :
    f.Sound :=
  hclean [] f _ (chunks.frames_some h) fun _ hg => absurd hg not_mem_nil

theorem clean_of_last (h : chunks.next xs = some (f, ys)) (hf : ¬ f.IsChunk)
    (hsound : f.Sound) : Clean xs := by
  intro fs g gs hsplit hfs
  rw [chunks.frames_some h] at hsplit
  cases fs with
  | nil =>
    rw [nil_append, List.cons.injEq] at hsplit
    rw [← hsplit.1]
    exact hsound
  | cons f' fs =>
    rw [cons_append, List.cons.injEq] at hsplit
    exact absurd (hfs f' mem_cons_self) (by rw [← hsplit.1]; exact hf)

theorem clean_none (h : chunks.next xs = none) : Clean xs := by
  intro fs f gs hsplit
  rw [chunks.frames_none h] at hsplit
  exact absurd hsplit.symm (append_ne_nil_of_right_ne_nil _ (cons_ne_nil _ _))

theorem fitting_chunk (h : chunks.next xs = some (.chunk data, ys)) :
    Fitting xs incoming ↔ Fitting ys incoming := by
  refine forall₃_congr fun before piece after => forall_congr' fun _ => ?_
  have hnext := chunks.extend before.flatten h
  rw [chunks.frames_some hnext, chunks.rest_some hnext, forall_mem_cons]
  exact ⟨fun hfit hall => hfit ⟨trivial, hall⟩, fun hfit hall => hfit hall.2⟩

theorem fitting_of_last (h : chunks.next xs = some (f, ys)) (hf : ¬ f.IsChunk) :
    Fitting xs incoming := by
  intro before piece after _ hall
  rw [chunks.frames_some (chunks.extend before.flatten h)] at hall
  exact absurd (hall f mem_cons_self) hf

theorem fitting_cons (h : chunks.next xs = none) :
    Fitting xs (data :: incoming) ↔
      xs.length + data.length ≤ maxArraySize ∧ Fitting (xs ++ data) incoming := by
  constructor
  · intro hfit
    constructor
    · have hfirst := hfit [] data incoming rfl
      rw [flatten_nil, append_nil, chunks.frames_none h, chunks.rest_none h] at hfirst
      exact hfirst fun _ hf => absurd hf not_mem_nil
    · intro before piece after hsplit
      have hlater := hfit (data :: before) piece after (by rw [hsplit, cons_append])
      rwa [flatten_cons, ← append_assoc] at hlater
  · rintro ⟨hfirst, hlater⟩ before piece after hsplit
    cases before with
    | nil =>
      rw [nil_append, List.cons.injEq] at hsplit
      rw [flatten_nil, append_nil, chunks.rest_none h, ← hsplit.1]
      exact fun _ => hfirst
    | cons p before =>
      rw [cons_append, List.cons.injEq] at hsplit
      rw [flatten_cons, ← append_assoc, ← hsplit.1]
      exact hlater before piece after hsplit.2

theorem fitting_nil (xs : Bytes) : Fitting xs [] := by
  intro before piece after hsplit
  exact absurd hsplit.symm (append_ne_nil_of_right_ne_nil _ (cons_ne_nil _ _))

theorem fitting_of_length (h : (xs ++ incoming.flatten).length ≤ maxArraySize) :
    Fitting xs incoming :=
  fun before data after hsplit _ => chunks.fits_of_length_le h before data after hsplit

theorem proper_split : (∀ n, (c.after n).Proper) ↔ c.Proper ∧
    ∀ n, (c.receive.2.after n).Proper := by
  constructor
  · exact fun h => ⟨h 0, fun n => h (n + 1)⟩
  · rintro ⟨hfirst, hlater⟩ n
    cases n with
    | zero => exact hfirst
    | succ n => exact hlater n

theorem proper_still (h : c.receive = (.ok none, c)) : ∀ n, (c.after n).Proper := by
  have hafter : ∀ n, c.after n = c := by
    intro n
    induction n with
    | zero => rfl
    | succ n ih => rw [after, h, ih]
  intro n
  rw [hafter]
  refine ⟨⟨none, by rw [h]⟩, fun hopen hfinished => ?_⟩
  rw [h, hopen] at hfinished
  exact absurd hfinished nofun

/-- The same call on the same bytes. -/
theorem proper_congr {d : Download} (h : c.receive = d.receive)
    (hopen : c.chunkedDecoder.isFinished = d.chunkedDecoder.isFinished)
    (hunread : c.unread = d.unread) :
    (∀ n, (c.after n).Proper) ↔ ∀ n, (d.after n).Proper := by
  have hfirst : c.Proper ↔ d.Proper := by rw [Proper, Proper, h, hopen, hunread]
  rw [proper_split, proper_split (c := d), h, hfirst]

/-- **When no call throws or takes a malformed size for the end.** -/
theorem proper_iff (hsize : buffer.length ≤ maxArraySize) :
    (∀ n, (after ⟨⟨buffer, false⟩, incoming⟩ n).Proper) ↔
      Clean (buffer ++ incoming.flatten) ∧ Fitting buffer incoming := by
  -- every step takes bytes off the buffer or a read off the others
  induction hm : buffer.length + (incoming.map fun p => p.length + 1).sum using Nat.strongRecOn
    generalizing buffer incoming with
  | ind m ih =>
    rcases hnext : chunks.next buffer with _ | ⟨data | size | _, rest⟩
    · cases incoming with
      | nil =>
        rw [flatten_nil, append_nil]
        exact ⟨fun _ => ⟨clean_none hnext, fitting_nil _⟩,
          fun _ => proper_still (by rw [receive_none hsize hnext, receiveLoop])⟩
      | cons data incoming =>
        rw [map_cons, sum_cons] at hm
        rw [fitting_cons hnext, flatten_cons, ← append_assoc]
        by_cases hne : data = []
        · subst hne
          have hcall : receive ⟨⟨buffer, false⟩, [] :: incoming⟩ =
              (.ok none, ⟨⟨buffer, false⟩, incoming⟩) := by
            rw [receive_none hsize hnext, receiveLoop, if_pos rfl]
          have hproper : Proper ⟨⟨buffer, false⟩, [] :: incoming⟩ := by
            refine ⟨⟨none, by rw [hcall]⟩, fun _ hfinished => ?_⟩
            rw [hcall] at hfinished
            exact absurd hfinished nofun
          rw [proper_split, hcall, ih _ (by omega) hsize rfl, append_nil]
          exact ⟨fun h => ⟨h.2.1, hsize, h.2.2⟩, fun h => ⟨hproper, h.1, h.2.2⟩⟩
        · by_cases hfits : buffer.length + data.length ≤ maxArraySize
          · have hlen : (buffer ++ data).length = _ := length_append
            rw [proper_congr (d := ⟨⟨buffer ++ data, false⟩, incoming⟩)
              (receive_read hsize hnext hne hfits) rfl
              (by rw [unread, unread, flatten_cons, append_assoc]), ih _ (by omega) (by omega) rfl]
            exact ⟨fun h => ⟨h.1, hfits, h.2⟩, fun h => ⟨h.1, h.2.2⟩⟩
          · constructor
            · intro h
              obtain ⟨decoded, hdecoded⟩ := (h 0).1
              rw [after, receive_full hsize hnext hne (Nat.lt_of_not_le hfits)] at hdecoded
              exact absurd hdecoded nofun
            · exact fun h => absurd h.2.1 hfits
    · have hlt := chunks.progress hnext
      have hcall := receive_chunk incoming hsize hnext
      have hproper : Proper ⟨⟨buffer, false⟩, incoming⟩ := by
        refine ⟨⟨some data, by rw [hcall]⟩, fun _ hfinished => ?_⟩
        rw [hcall] at hfinished
        exact absurd hfinished nofun
      rw [proper_split, hcall, ih _ (by omega) (by omega) rfl, fitting_chunk hnext,
        clean_chunk (chunks.extend incoming.flatten hnext)]
      exact ⟨fun h => h.2, fun h => ⟨hproper, h⟩⟩
    · obtain ⟨left, hcall⟩ := receive_last incoming hsize hnext
      have hstream := chunks.extend incoming.flatten hnext
      have hproper : Proper ⟨⟨buffer, false⟩, incoming⟩ ↔ HexSize size := by
        have hfield := sizeField_append (sizeField_last hnext) incoming.flatten
        rw [Proper, hcall, unread, hfield]
        constructor
        · rintro ⟨-, hend⟩
          obtain ⟨size', hsize', hhex⟩ := hend rfl rfl
          rwa [Option.some.inj hsize']
        · exact fun hhex => ⟨⟨none, rfl⟩, fun _ _ => ⟨size, rfl, hhex⟩⟩
      rw [proper_split, hproper, hcall]
      constructor
      · rintro ⟨hhex, -⟩
        exact ⟨clean_of_last hstream not_false hhex, fitting_of_last hnext not_false⟩
      · rintro ⟨hclean, -⟩
        exact ⟨clean_first hstream hclean, proper_still (receive_finished rfl)⟩
    · obtain ⟨e, hcall⟩ := receive_broken incoming hsize hnext
      constructor
      · intro h
        obtain ⟨decoded, hdecoded⟩ := (h 0).1
        rw [after, hcall] at hdecoded
        exact absurd hdecoded nofun
      · exact fun h => absurd (clean_first (chunks.extend incoming.flatten hnext) h.1) not_false

end Download

-- ----
-- Encoded chunks

theorem digitChar_text : ∀ d : Nat, d < 16 → d.digitChar.toNat < 128 ∧
    Char.ofNat (UInt8.ofNat d.digitChar.toNat).toNat = d.digitChar ∧
      UInt8.ofNat d.digitChar.toNat ≠ 0x0D ∧
    d.digitChar ≠ ';' ∧ Text.isWhitespace d.digitChar = false := by decide

theorem sizeStr_digits (n : Nat) :
    (0x0D : UInt8) ∉ (Nat.toDigits 16 n).map (fun c => UInt8.ofNat c.toNat) ∧
      sizeStr ((Nat.toDigits 16 n).map fun c => UInt8.ofNat c.toNat) = Nat.toDigits 16 n := by
  have hdigit : ∀ c ∈ Nat.toDigits 16 n, ∃ d : Nat, d < 16 ∧ c = d.digitChar := fun c hc =>
    Text.digitChar_of_mem_toDigits (by decide) hc
  refine ⟨fun hmem => ?_, ?_⟩
  · obtain ⟨c, hc, hcr⟩ := mem_map.mp hmem
    obtain ⟨d, hd, rfl⟩ := hdigit c hc
    exact (digitChar_text d hd).2.2.1 hcr
  · have hascii : asciiText ((Nat.toDigits 16 n).map fun c => UInt8.ofNat c.toNat) =
        Nat.toDigits 16 n := by
      rw [asciiText, map_map]
      refine (map_congr_left fun c hc => ?_).trans (map_id _)
      obtain ⟨d, hd, rfl⟩ := hdigit c hc
      obtain ⟨hlt, hback, -⟩ := digitChar_text d hd
      have hbyte : UInt8.ofNat d.digitChar.toNat < 128 := by
        rw [UInt8.lt_iff_toNat_lt, UInt8.toNat_ofNat', Nat.mod_eq_of_lt (by omega)]
        exact hlt
      rw [Function.comp_apply, if_pos hbyte, hback, id]
    rw [sizeStr, hascii, Text.cut_notMem, Text.trim_of_none]
    · intro c hc
      obtain ⟨d, hd, rfl⟩ := hdigit c hc
      exact (digitChar_text d hd).2.2.2.2
    · intro hc
      obtain ⟨d, hd, heq⟩ := hdigit _ hc
      exact (digitChar_text d hd).2.2.2.1 heq.symm

/-- An encoded chunk is the next frame, whatever follows. -/
theorem next_encode {data bytes : Bytes} (hne : data ≠ []) (h : encode data = .ok bytes)
    (zs : Bytes) :
    chunks.next (bytes ++ zs) = some (.chunk data, zs) := by
  have hmax : maxArraySize = 2 ^ 31 - 3 := rfl
  obtain ⟨hcr, hsize⟩ := sizeStr_digits data.length
  have hn : Text.toNumberOrNull 64 16 (Nat.toDigits 16 data.length) = some (data.length : Int) := by
    refine Text.toNumberOrNull_toDigits (by decide) (by decide) ?_
    rw [encode] at h
    split at h
    · cases h
    · omega
  rw [encode] at h
  split at h
  · cases h
  · rename_i hfits
    generalize (Nat.toDigits 16 data.length).map (fun c => UInt8.ofNat c.toNat) = line at *
    cases h
    have hpos : 0 < data.length := length_pos_iff.mpr hne
    have hint : int32 (data.length : Int) = (data.length : Int) := int32_of_nat (by omega)
    have hstream : (line ++ crlf ++ data ++ crlf) ++ zs = line ++
        (crlf ++ (data ++ (crlf ++ zs))) := by
      simp only [append_assoc]
    have hbody : (line ++ (crlf ++ (data ++ (crlf ++ zs)))).drop (line.length + 2) = data ++
        (crlf ++ zs) := by
      rw [← append_assoc]
      exact drop_left' (by rw [length_append]; rfl)
    change nextFrame _ = _
    rw [hstream, nextFrame, findCRLF_line hcr]
    dsimp only
    rw [take_left, hsize, frameAt, hn]
    dsimp only
    rw [if_neg (by omega), hint, if_neg (by omega), Int.toNat_natCast, if_neg (by omega),
      if_neg, hbody, take_left, show line.length + 2 + data.length + 2 = line.length + 2 +
      (data.length + 2) by omega,
      ← drop_drop, hbody, ← drop_drop, drop_left]
    · rfl
    · simp only [length_append]
      have : crlf.length = 2 := rfl
      omega

theorem next_terminator (zs : Bytes) :
    chunks.next (encodeTerminator ++ zs) = some (.last ['0'], crlf ++ zs) := by
  rfl

-- ----
-- The stream comes back

namespace Download

variable {c c' : Download} {data : Bytes} {datas : List Bytes}

theorem delivers_cons (h : c.receive = (.ok (some data), c')) :
    c.Delivers (data :: datas) ↔ c'.Delivers datas := by
  have hafter : ∀ n, c.after (n + 1) = c'.after n := fun n => by rw [after, h]
  constructor
  · rintro ⟨hdatas, hend⟩
    refine ⟨fun i d hd => ?_, fun n hn => ?_⟩
    · rw [← hafter]
      exact hdatas (i + 1) d hd
    · rw [← hafter]
      exact hend (n + 1) (Nat.succ_le_succ hn)
  · rintro ⟨hdatas, hend⟩
    refine ⟨fun i d hd => ?_, fun n hn => ?_⟩
    · cases i with
      | zero =>
        rw [List.getElem?_cons_zero, Option.some.injEq] at hd
        rw [after, h, hd]
      | succ i =>
        rw [hafter]
        exact hdatas i d hd
    · cases n with
      | zero => exact absurd hn (Nat.not_succ_le_zero _)
      | succ n =>
        rw [hafter]
        exact hend n (Nat.le_of_succ_le_succ hn)

theorem delivers_congr (h : c.receive = c'.receive) : c.Delivers datas ↔ c'.Delivers datas := by
  have hcall : ∀ n, (c.after n).receive = (c'.after n).receive := by
    intro n
    cases n with
    | zero => exact h
    | succ n => rw [after, after, h]
  unfold Delivers
  simp only [hcall]

theorem delivers_nil (h : c.receive.1 = .ok none)
    (hfinished : c.receive.2.chunkedDecoder.isFinished = true) :
    c.Delivers [] := by
  have hlater : ∀ n (d : Download), d.chunkedDecoder.isFinished = true →
      (d.after n).receive = (.ok none, d) := by
    intro n
    induction n with
    | zero => exact fun d hd => receive_finished hd
    | succ n ih =>
      intro d hd
      rw [after, receive_finished hd]
      exact ih d hd
  refine ⟨fun _ _ hd => absurd hd nofun, fun n _ => ?_⟩
  cases n with
  | zero => exact ⟨h, hfinished⟩
  | succ n =>
    rw [after, hlater n _ hfinished]
    exact ⟨rfl, hfinished⟩

theorem not_delivers {e : Thrown} (h : c.receive.1 = .error e) : ¬ c.Delivers datas := by
  rintro ⟨hdatas, hend⟩
  cases datas with
  | nil =>
    have := (hend 0 (Nat.le_refl _)).1
    rw [after, h] at this
    exact absurd this nofun
  | cons data datas =>
    have := hdatas 0 data rfl
    rw [after, h] at this
    exact absurd this nofun

/-- What is unread is the encoding of `datas`: it is delivered if and only if the reads fit. -/
theorem delivers_iff {buffer : Bytes} {incoming bodies : List Bytes}
    (hsize : buffer.length ≤ maxArraySize) (hne : [] ∉ datas)
    (hencode : datas.map encode = bodies.map .ok) (hpieces : [] ∉ incoming)
    (hstream : buffer ++ incoming.flatten = bodies.flatten ++ encodeTerminator) :
    Delivers ⟨⟨buffer, false⟩, incoming⟩ datas ↔ Fitting buffer incoming := by
  induction hm : buffer.length + (incoming.map fun p => p.length + 1).sum using Nat.strongRecOn
    generalizing buffer incoming datas bodies with
  | ind m ih =>
    -- the frame at the front of the stream
    have hfront : (datas = [] ∧ ∃ ys, chunks.next (buffer ++ incoming.flatten) =
        some (.last ['0'], ys)) ∨
        ∃ data rest body others, datas = data :: rest ∧ bodies = body :: others ∧ [] ∉ rest ∧
          rest.map encode = others.map .ok ∧
          chunks.next (buffer ++ incoming.flatten) = some (.chunk data,
            others.flatten ++ encodeTerminator) := by
      cases datas with
      | nil =>
        have hnil : bodies = [] := map_eq_nil_iff.mp hencode.symm
        rw [hstream, hnil, flatten_nil, nil_append, ← append_nil encodeTerminator, next_terminator]
        exact .inl ⟨rfl, _, rfl⟩
      | cons data rest =>
        rw [mem_cons, not_or] at hne
        cases bodies with
        | nil => cases hencode
        | cons body others =>
          rw [map_cons, map_cons, List.cons.injEq] at hencode
          rw [hstream, flatten_cons, append_assoc, next_encode (Ne.symm hne.1) hencode.1]
          exact .inr ⟨data, rest, body, others, rfl, rfl, hne.2, hencode.2, rfl⟩
    rcases hnext : chunks.next buffer with _ | ⟨f, rest⟩
    · cases incoming with
      | nil =>
        rw [flatten_nil, append_nil, hnext] at hfront
        rcases hfront with ⟨-, ys, hys⟩ | ⟨_, _, _, _, -, -, -, -, hys⟩ <;> exact absurd hys nofun
      | cons data incoming =>
        rw [mem_cons, not_or] at hpieces
        rw [map_cons, sum_cons] at hm
        rw [fitting_cons hnext]
        by_cases hfits : buffer.length + data.length ≤ maxArraySize
        · have hlen : (buffer ++ data).length = _ := length_append
          rw [delivers_congr (receive_read hsize hnext (Ne.symm hpieces.1) hfits),
            ih _ (by omega) (by omega) hne hencode hpieces.2
            (by rw [← hstream, flatten_cons, append_assoc]) rfl]
          exact ⟨fun h => ⟨hfits, h⟩, fun h => h.2⟩
        · exact ⟨fun h =>
            absurd h (not_delivers (receive_full hsize hnext (Ne.symm hpieces.1)
              (Nat.lt_of_not_le hfits))), fun h => absurd h.1 hfits⟩
    · have hlt := chunks.progress hnext
      have hwhole := chunks.extend incoming.flatten hnext
      rcases hfront with ⟨rfl, ys, hys⟩ | ⟨data, datas', body, others, rfl, rfl, hne',
        hencode', hys⟩
      · rw [hwhole, Option.some.injEq, Prod.mk.injEq] at hys
        rw [hys.1] at hnext
        obtain ⟨left, hcall⟩ := receive_last incoming hsize hnext
        exact ⟨fun _ => fitting_of_last hnext not_false, fun _ => delivers_nil (by rw [hcall])
          (by rw [hcall])⟩
      · rw [hwhole, Option.some.injEq, Prod.mk.injEq] at hys
        rw [hys.1] at hnext
        rw [delivers_cons (receive_chunk incoming hsize hnext), fitting_chunk hnext]
        exact ih _ (by omega) (by omega) hne' hencode' hpieces hys.2 rfl

end Download

/-- **Chunked transfer coding.** The chunks come back, followed by the end, if and only if no read
overflows the buffer. Whatever the server sends, no call throws or takes a malformed size for the
end, if and only if no read overflows the buffer and the frames, up to the first zero, are chunks
of a size that an `Int` holds and a zero without a sign. -/
theorem chunked_transfer (datas bodies incoming received : List Bytes) :
    ([] ∉ datas → datas.map encode = bodies.map .ok → [] ∉ incoming →
      incoming.flatten = bodies.flatten ++ encodeTerminator →
      ((Download.mk {} incoming).Delivers datas ↔ Download.Fitting [] incoming)) ∧
    ((∀ n, ((Download.mk {} received).after n).Proper) ↔
      Download.Clean received.flatten ∧ Download.Fitting [] received) := by
  refine ⟨fun hne hencode hpieces hstream => ?_, ?_⟩
  · exact Download.delivers_iff (Nat.zero_le _) hne hencode hpieces hstream
  · exact Download.proper_iff (Nat.zero_le _)

/-- One chunk, cut within its size line and within its data. -/
theorem chunked_transfer_cut :
    (Download.mk {} [[0x33], [0x0D, 0x0A, 7], [8, 9, 0x0D, 0x0A, 0x30, 0x0D],
      [0x0A, 0x0D, 0x0A]]).Delivers [[7, 8, 9]] := by
  refine ((chunked_transfer [[7, 8, 9]] [[0x33, 0x0D, 0x0A, 7, 8, 9, 0x0D, 0x0A]] _ []).1
    (by decide) rfl (by decide) rfl).mpr ?_
  exact Download.fitting_of_length (by decide)

/-- The size -2 throws, and a zero with a sign ends the stream. -/
theorem signed_size_taken :
    (Download.mk {} [[0x2D, 0x32, 0x0D, 0x0A]]).receive.1 = .error .illegalArgument ∧
      ¬ (Download.mk {} [[0x2D, 0x32, 0x0D, 0x0A]]).Proper ∧
      (Download.mk {} [[0x2D, 0x30, 0x0D, 0x0A]]).receive.2.chunkedDecoder.isFinished = true ∧
      ¬ (Download.mk {} [[0x2D, 0x30, 0x0D, 0x0A]]).Proper := by
  refine ⟨by decide, ?_, by decide, ?_⟩
  · rintro ⟨⟨decoded, hdecoded⟩, -⟩
    exact absurd (hdecoded.symm.trans (by decide : _ = Except.error Thrown.illegalArgument)) nofun
  · rintro ⟨-, hend⟩
    obtain ⟨size, hsize, hhex⟩ := hend rfl (by decide)
    have hminus : size = ['-', '0'] := Option.some.inj (hsize.symm.trans (by decide))
    rw [hminus] at hhex
    exact absurd (hhex.2 '-' (by decide)) (by decide)

end Anywhere.Xhttp
