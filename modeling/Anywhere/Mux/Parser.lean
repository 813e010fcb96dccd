import Anywhere.Mux.Frame

/-!
# Anywhere — `MuxFrameParser.feed` at a corrupt frame

The loop of `feed` collects the complete frames of the buffer until a frame is incomplete or its
metadata cannot be decoded. At a corrupt frame it empties the buffer and leaves the loop; the code
behind the loop then copies the rest of the empty buffer from the old offset on.

* `feed_returns_frames_iff` — in a run of calls, when each of them returns its frames.
-/

namespace Anywhere.Mux

open Lib

variable (inet : InetAddress)

/-- A call of `feed`: what is in the buffer when its loop starts, and what it returns; none where
it throws. -/
structure FeedCall where
  data : Bytes
  returned : Option (List MuxFrame)

/-- The calls for one chunk after the other, also behind one that throws. -/
def feedCalls : Bytes → List Bytes → List FeedCall
  | _, [] => []
  | buffer, chunk :: chunks =>
    ⟨buffer ++ chunk, (feed inet buffer chunk).2⟩ :: feedCalls (feed inet buffer chunk).1 chunks

def decodedFrames (data : Bytes) : List MuxFrame := (framing inet).frames data

def EndsCorrupt (data : Bytes) : Prop := find inet ((framing inet).rest data) = .corrupt

variable {inet}

/-- The loop ends by itself: at a corrupt frame or at an incomplete one. -/
theorem feedLoop_spec (inet : InetAddress) {n : Nat} {data : Bytes} (hn : data.length ≤ n) :
    (feedLoop inet n data).1 = decodedFrames inet data ∧
      (EndsCorrupt inet data ∧ (feedLoop inet n data).2 = .atCorrupt ∨
        find inet ((framing inet).rest data) = .incomplete ∧
          (feedLoop inet n data).2 = .atRest ((framing inet).rest data)) := by
  unfold decodedFrames EndsCorrupt
  induction n generalizing data with
  | zero =>
    obtain rfl : data = [] := List.length_eq_zero_iff.mp (Nat.le_zero.mp hn)
    rw [(framing inet).frames_none (framing inet).next_nil,
      (framing inet).rest_none (framing inet).next_nil]
    exact ⟨rfl, Or.inr ⟨rfl, rfl⟩⟩
  | succ n ih =>
    cases hfind : find inet data with
    | incomplete =>
      have hnone : (framing inet).next data = none :=
        framing_next_none fun f rest hf => by rw [hfind] at hf; cases hf
      rw [feedLoop, hfind, (framing inet).frames_none hnone, (framing inet).rest_none hnone]
      exact ⟨rfl, Or.inr ⟨hfind, rfl⟩⟩
    | corrupt =>
      have hnone : (framing inet).next data = none :=
        framing_next_none fun f rest hf => by rw [hfind] at hf; cases hf
      rw [feedLoop, hfind, (framing inet).frames_none hnone, (framing inet).rest_none hnone]
      exact ⟨rfl, Or.inl ⟨hfind, rfl⟩⟩
    | frame f rest =>
      have hshorter := ((find_extend []).1 hfind).1
      have hnext := framing_next hfind
      obtain ⟨hframes, hends⟩ := ih (show rest.length ≤ n by omega)
      rw [feedLoop, hfind, (framing inet).frames_some hnext, (framing inet).rest_some hnext]
      exact ⟨congrArg (f :: ·) hframes, hends⟩

def LosesFrames (inet : InetAddress) (data : Bytes) : Prop :=
  decodedFrames inet data ≠ [] ∧ EndsCorrupt inet data

/-- `feed` returns its frames, unless a corrupt frame stands behind a good one: then it throws. -/
theorem feed_returned (inet : InetAddress) (buffer chunk : Bytes) :
    (LosesFrames inet (buffer ++ chunk) → (feed inet buffer chunk).2 = none) ∧
    (¬ LosesFrames inet (buffer ++ chunk) →
      (feed inet buffer chunk).2 = some (decodedFrames inet (buffer ++ chunk))) := by
  obtain ⟨hframes, hends⟩ :=
    feedLoop_spec inet (Nat.le_refl (buffer ++ chunk).length)
  unfold feed LosesFrames
  rw [← hframes]
  cases hloop : feedLoop inet (buffer ++ chunk).length (buffer ++ chunk) with
  | mk results ended =>
    rw [hloop] at hends
    rcases hends with ⟨hcorrupt, hended⟩ | ⟨hincomplete, hended⟩
    · obtain rfl : ended = .atCorrupt := hended
      cases results with
      | nil => exact ⟨fun h => absurd rfl h.1, fun _ => rfl⟩
      | cons f fs => exact ⟨fun _ => rfl, fun h => absurd ⟨List.cons_ne_nil f fs, hcorrupt⟩ h⟩
    · obtain rfl : ended = .atRest _ := hended
      refine ⟨fun h => ?_, fun _ => rfl⟩
      have hcorrupt := h.2
      rw [EndsCorrupt, hincomplete] at hcorrupt
      cases hcorrupt

theorem mem_feedCalls {buffer : Bytes} {chunks : List Bytes} {call : FeedCall}
    (h : call ∈ feedCalls inet buffer chunks) :
    ∃ before chunk, call = ⟨before ++ chunk, (feed inet before chunk).2⟩ := by
  induction chunks generalizing buffer with
  | nil => cases h
  | cons chunk chunks ih =>
    rcases List.mem_cons.mp h with rfl | h
    · exact ⟨buffer, chunk, rfl⟩
    · exact ih h

variable (inet)

/-- In a run of calls each one returns the frames that it decoded, if and only if none finds a
corrupt frame behind a good one. -/
theorem feed_returns_frames_iff (chunks : List Bytes) :
    (∀ call ∈ feedCalls inet [] chunks, call.returned = some (decodedFrames inet call.data)) ↔
      ∀ call ∈ feedCalls inet [] chunks, ¬ LosesFrames inet call.data := by
  refine forall₂_congr fun call hcall => ?_
  obtain ⟨buffer, chunk, rfl⟩ := mem_feedCalls hcall
  obtain ⟨hthrows, hreturns⟩ := feed_returned inet buffer chunk
  constructor
  · intro h hloses
    rw [hthrows hloses] at h
    cases h
  · exact hreturns

/-- A KEEP frame, and one with no metadata, in one chunk. -/
def goodThenCorrupt : Bytes := [0, 4, 0, 1, 2, 0, 0, 0]

/-- The KEEP frame is lost. -/
theorem feed_goodThenCorrupt : ¬ ∀ (inet : InetAddress) (chunks : List Bytes),
    ∀ call ∈ feedCalls inet [] chunks, call.returned = some (decodedFrames inet call.data) := by
  intro h
  have hcall := h noInet [goodThenCorrupt] _ List.mem_cons_self
  have hthrown : (feed noInet [] goodThenCorrupt).2 = none := by decide
  rw [hthrown] at hcall
  cases hcall

end Anywhere.Mux
