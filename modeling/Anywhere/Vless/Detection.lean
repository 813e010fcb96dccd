import Anywhere.Vless.Downlink

/-!
# Anywhere — what the filter sees of a padded stream

`processReceiveData` filters a chunk before it unpads it. While the stream is padded
the filter therefore looks at the UUID, the headers and the padding; a ServerHello at
the start of a frame is not found.

* `detection_agrees` — as long as every chunk is quiet, the filter is in the state it
  would be in had it looked at the contents.
-/

namespace Anywhere.Vless

open Lib List

-- ----
-- The contents of a chunk

/-- The bytes of a frame, each with whether it is content. -/
def Frame.marked (f : Frame) : List (UInt8 × Bool) :=
  f.header.map (·, false) ++ f.content.map (·, true) ++ f.padding.map (·, false)

/-- The bytes of a stream, each with whether it is tunnelled. -/
def PaddedStream.marked (p : PaddedStream) : List (UInt8 × Bool) :=
  p.uuid.map (·, false) ++ (p.frames.map Frame.marked).flatten ++ p.raw.map (·, true)

def bytesOf (piece : List (UInt8 × Bool)) : Bytes := piece.map Prod.fst

def contentOf (piece : List (UInt8 × Bool)) : Bytes := (piece.filter Prod.snd).map Prod.fst

structure Cutting (p : PaddedStream) where
  pieces : List (List (UInt8 × Bool))
  whole : pieces.flatten = p.marked

namespace Cutting

variable {p : PaddedStream}

def chunks (cut : Cutting p) : List Bytes := cut.pieces.map bytesOf

def contents (cut : Cutting p) : List Bytes := cut.pieces.map contentOf

end Cutting

-- ----
-- Quiet chunks

def IsServerHello (data : Bytes) : Prop := 6 ≤ data.length ∧ startsServerHello data

def IsClientHello (data : Bytes) : Prop := 6 ≤ data.length ∧ startsClientHello data

instance (data : Bytes) : Decidable (IsServerHello data) := inferInstanceAs (Decidable (_ ∧ _))

instance (data : Bytes) : Decidable (IsClientHello data) := inferInstanceAs (Decidable (_ ∧ _))

/-- Filtering the chunk and filtering its content come to the same: no packet is
filtered any more, or all of the chunk is content, or it is too short, or there is
nothing of a ServerHello in it and it says nothing new about a ClientHello. -/
def Quiet (f : Filter) (piece : List (UInt8 × Bool)) : Prop :=
  f.numberOfPacketsToFilter ≤ 0 ∨ contentOf piece = bytesOf piece ∨ (bytesOf piece).length < 6 ∨
    (f.remainingServerHello ≤ 0 ∧ ¬ IsServerHello (bytesOf piece) ∧
      ¬ IsServerHello (contentOf piece) ∧
      (f.isTLS ∨ (IsClientHello (bytesOf piece) ↔ IsClientHello (contentOf piece))))

instance (f : Filter) (piece : List (UInt8 × Bool)) : Decidable (Quiet f piece) :=
  inferInstanceAs (Decidable (_ ∨ _))

/-- What the filter does with a chunk that has nothing of a hello. -/
theorem visionFilterTLS_quiet {f : Filter} {data : Bytes} (hbudget : 0 < f.numberOfPacketsToFilter)
    (hpending : f.remainingServerHello ≤ 0) (hserver : ¬ IsServerHello data) :
    visionFilterTLS data f =
      { f with
        numberOfPacketsToFilter := f.numberOfPacketsToFilter - 1
        isTLS := f.isTLS || decide (IsClientHello data) } := by
  rw [visionFilterTLS, if_neg (by omega)]
  by_cases hlen : data.length < 6
  · have hclient : ¬ IsClientHello data := fun h => by unfold IsClientHello at h; omega
    simp only [if_pos hlen, hclient, decide_false, Bool.or_false]
  · have hserver' : ¬ startsServerHello data = true := fun h => hserver ⟨by omega, h⟩
    simp only [if_neg hlen]
    have hhello : ({ f with numberOfPacketsToFilter := f.numberOfPacketsToFilter - 1 } :
        Filter).hello
        data = { f with
          numberOfPacketsToFilter := f.numberOfPacketsToFilter - 1
          isTLS := f.isTLS || decide (IsClientHello data) } := by
      rw [Filter.hello, if_neg hserver']
      by_cases hclient : startsClientHello data = true
      · have hclient' : IsClientHello data := ⟨by omega, hclient⟩
        simp only [if_pos hclient, hclient', decide_true, Bool.or_true]
      · have hclient' : ¬ IsClientHello data := fun h => hclient h.2
        simp only [if_neg hclient, hclient', decide_false, Bool.or_false]
    rw [hhello, Filter.body, if_neg (by simp only; omega)]

theorem visionFilterTLS_of_quiet {f : Filter} {piece : List (UInt8 × Bool)} (h : Quiet f piece) :
    visionFilterTLS (bytesOf piece) f = visionFilterTLS (contentOf piece) f := by
  by_cases hbudget : f.numberOfPacketsToFilter ≤ 0
  · rw [visionFilterTLS_of_le hbudget, visionFilterTLS_of_le hbudget]
  rcases h with h | h | hlen | ⟨hpending, hserver, hserver', hclient⟩
  · exact absurd h hbudget
  · rw [h]
  · have hlen' : (contentOf piece).length < 6 := by
      have hle := length_filter_le Prod.snd piece
      rw [bytesOf, length_map] at hlen
      rw [contentOf, length_map]
      omega
    rw [visionFilterTLS, visionFilterTLS, if_neg hbudget, if_neg hbudget, if_pos hlen, if_pos hlen']
  · rw [visionFilterTLS_quiet (by omega) hpending hserver,
      visionFilterTLS_quiet (by omega) hpending hserver']
    rcases hclient with htls | hclient
    · simp only [htls, Bool.true_or]
    · simp only [hclient]

-- ----
-- Whole runs

theorem filterAll_of_quiet {f : Filter} {pieces : List (List (UInt8 × Bool))}
    (h : RunAll (fun f piece => visionFilterTLS (bytesOf piece) f) Quiet f pieces) :
    filterAll f (pieces.map bytesOf) = filterAll f (pieces.map contentOf) := by
  induction pieces generalizing f with
  | nil => rfl
  | cons piece pieces ih =>
    have hstep := visionFilterTLS_of_quiet h.1
    have hrest := ih h.2
    rw [map_cons, map_cons, filterAll, filterAll, run_cons, run_cons, ← hstep]
    exact hrest

/-- **Detection.** In every run over a padded stream whose chunks are all quiet, the
filter is in every state reached the one that looks at the contents. -/
theorem detection_agrees {p : PaddedStream} (cut : Cutting p) (s : VisionTrafficState)
    (hquiet : RunAll (fun f piece => visionFilterTLS (bytesOf piece) f) Quiet s.filter cut.pieces)
    (n : Nat) :
    (receiveAll s (cut.chunks.take n)).1.filter = filterAll s.filter (cut.contents.take n) := by
  have hsplit : cut.pieces = cut.pieces.take n ++ cut.pieces.drop n := (take_append_drop n _).symm
  rw [hsplit, runAll_append] at hquiet
  rw [(receiveAll_filter_uuid s (cut.chunks.take n)).1, Cutting.chunks, Cutting.contents,
    ← map_take, ← map_take]
  exact filterAll_of_quiet hquiet.1

/-- A TLS 1.3 ServerHello. -/
def serverHello13 : Bytes :=
  [0x16, 0x03, 0x03, 0, 80, 0x02] ++ List.replicate 38 0 ++ [0x13, 0x01] ++
    tls13SupportedVersions ++
    List.replicate 33 0

/-- The ServerHello behind an empty END frame. -/
def rawHelloStream : PaddedStream where
  uuid := List.replicate 16 7
  frames := [⟨.paddingEnd, [], [], nil_fits, nil_fits⟩]
  raw := serverHello13
  uuid_length := length_sevens
  continued := by simp
  raw_ended := fun _ => ⟨_, rfl, by decide⟩

/-- Cut where the frames end. -/
def rawHelloCutting : Cutting rawHelloStream :=
  ⟨[rawHelloStream.marked.take 21, rawHelloStream.marked.drop 21], by simp⟩

/-- The ServerHello is found. -/
theorem rawHelloStream_detected :
    filterAll {} (rawHelloCutting.contents.take 2) =
        ⟨0, true, true, true, 0x1301, 0⟩ ∧
      (receiveAll (.new (List.replicate 16 7)) (rawHelloCutting.chunks.take 2)).1.filter =
        filterAll {} (rawHelloCutting.contents.take 2) :=
  ⟨by decide, detection_agrees rawHelloCutting (.new (List.replicate 16 7)) (by decide) 2⟩

def helloStream : PaddedStream where
  uuid := List.replicate 16 7
  frames := [⟨.paddingContinue, serverHello13, [], by decide, nil_fits⟩]
  raw := []
  uuid_length := length_sevens
  continued := by simp
  raw_ended := by simp

def helloCutting : Cutting helloStream := ⟨[helloStream.marked], by simp⟩

/-- The ServerHello is not found behind the UUID and the header. -/
theorem helloStream_missed :
    (receiveAll (.new (List.replicate 16 7)) helloCutting.chunks).1.filter =
        ⟨7, false, false, false, 0, -1⟩ ∧
      filterAll {} helloCutting.contents = ⟨0, true, true, true, 0x1301, 0⟩ := by
  decide

end Anywhere.Vless
