import Mathlib.Data.List.Induction
import Anywhere.Lib.Machine
import Anywhere.Vless.Unpadding

/-!
# Anywhere — the downlink of a Vision connection

A padded stream is the UUID, frames of which only the last one may be terminal, and
behind a terminal frame raw bytes. `processReceiveData` gets it in chunks. It
unpads a chunk and then looks at the counters for content, padding and the command:
nothing left of a terminal frame is the sign to switch. Two things are wrong with
that sign. It ignores the counter of the header, so a chunk that ends inside the
header of the terminal frame can switch the reader; and while packets are filtered
the reader unpads although it has switched, so raw data that starts with the UUID is
taken for a new padded stream.

* `HeaderCut`, `UuidRestart` — the two kinds of chunkings that go wrong.
* `downlink_delivered_iff` — every other chunking delivers the stream.
-/

namespace Anywhere.Vless

open Lib Counters List

-- ----
-- Padded streams

/-- A stream as the peer's `visionPadding` writes it. -/
structure PaddedStream where
  uuid : Bytes
  frames : List Frame
  raw : Bytes
  uuid_length : uuid.length = 16
  continued : ∀ f ∈ frames.dropLast, f.command = .paddingContinue
  raw_ended : raw ≠ [] → ∃ f ∈ frames.getLast?, f.command ≠ .paddingContinue

namespace PaddedStream

def framed (p : PaddedStream) : Bytes := p.uuid ++ (p.frames.map Frame.bytes).flatten

def bytes (p : PaddedStream) : Bytes := p.framed ++ p.raw

def contents (p : PaddedStream) : Bytes := (p.frames.map Frame.content).flatten

end PaddedStream

/-- The mode a command asks for: whether the reader goes on unpadding, and whether
it copies directly. -/
def VisionCommand.mode : VisionCommand → Bool × Bool
  | .paddingContinue => (true, false)
  | .paddingEnd => (false, false)
  | .paddingDirect => (false, true)

def VisionTrafficState.mode (s : VisionTrafficState) : Bool × Bool :=
  (s.readerWithinPaddingBuffers, s.readerDirectCopy)

/-- A reader that has received nothing. -/
def VisionTrafficState.Unread (s : VisionTrafficState) : Prop :=
  s.mode = (true, false) ∧ s.counters = {}

instance (s : VisionTrafficState) : Decidable s.Unread :=
  inferInstanceAs (Decidable (_ ∧ _))

/-- The results of `processReceiveData` for one chunk after another. -/
def receiveAll (s : VisionTrafficState) (chunks : List Bytes) : VisionTrafficState × Bytes :=
  transduce processReceiveData s chunks

theorem receiveAll_cons (s : VisionTrafficState) (data : Bytes) (chunks : List Bytes) :
    receiveAll s (data :: chunks) =
      ((receiveAll (processReceiveData s data).1 chunks).1,
        (processReceiveData s data).2 ++ (receiveAll (processReceiveData s data).1 chunks).2) :=
  transduce_cons processReceiveData s data chunks

theorem receiveAll_singleton (s : VisionTrafficState) (data : Bytes) :
    receiveAll s [data] = processReceiveData s data :=
  transduce_singleton processReceiveData s data

theorem receiveAll_append (s : VisionTrafficState) (as bs : List Bytes) :
    receiveAll s (as ++ bs) =
      ((receiveAll (receiveAll s as).1 bs).1,
        (receiveAll s as).2 ++ (receiveAll (receiveAll s as).1 bs).2) :=
  transduce_append processReceiveData s as bs

-- ----
-- One call

def Counters.mode (c : Counters) : Bool × Bool :=
  if c.remainingContent > 0 ∨ c.remainingPadding > 0 ∨ c.currentCommand = 0 then (true, false)
  else if c.currentCommand = 1 then (false, false)
  else if c.currentCommand = 2 then (false, true)
  else (true, false)

/-- Of a terminal frame the counters show what is left of its content and padding. -/
theorem Counters.mode_of_terminal {c : Counters} {command : VisionCommand}
    (hterminal : command ≠ .paddingContinue) (h : c.currentCommand = command.value.toNat) :
    c.mode = (true, false) ↔ ¬ (c.remainingContent ≤ 0 ∧ c.remainingPadding ≤ 0) := by
  unfold Counters.mode
  by_cases hmore : c.remainingContent > 0 ∨ c.remainingPadding > 0
  · rw [if_pos (by omega)]
    exact iff_of_true rfl (by omega)
  · cases command with
    | paddingContinue => exact absurd rfl hterminal
    | paddingEnd =>
      have hone : c.currentCommand = 1 := h
      rw [if_neg (by omega), if_pos hone]
      exact iff_of_false (by simp) (by omega)
    | paddingDirect =>
      have htwo : c.currentCommand = 2 := h
      rw [if_neg (by omega), if_neg (by omega), if_pos htwo]
      exact iff_of_false (by simp) (by omega)

def VisionTrafficState.filtered (s : VisionTrafficState) (data : Bytes) : VisionTrafficState :=
  { s with filter := visionFilterTLS data s.filter }

def VisionTrafficState.unpadded (s : VisionTrafficState) (data : Bytes) (c : Counters) :
    VisionTrafficState :=
  { s.filtered data with
    counters := c
    readerWithinPaddingBuffers := c.mode.1
    readerDirectCopy := c.mode.2 }

variable {data : Bytes}

section

variable {s : VisionTrafficState}

theorem visionFilterTLS_of_le {f : Filter} (h : f.numberOfPacketsToFilter ≤ 0) (data : Bytes) :
    visionFilterTLS data f = f :=
  if_pos h

theorem processReceiveData_filter (s : VisionTrafficState) (data : Bytes) :
    (if s.filter.numberOfPacketsToFilter > 0 then { s with filter := visionFilterTLS data s.filter }
      else s) = s.filtered data := by
  split
  · rfl
  · rename_i h
    rw [VisionTrafficState.filtered, visionFilterTLS_of_le (by omega)]

/-- While the reader expects padding, the counters decide. -/
theorem processReceiveData_padding (h : s.mode = (true, false)) :
    processReceiveData s data =
      (s.unpadded data (visionUnpadding s.userUUID data s.counters).1,
        (visionUnpadding s.userUUID data s.counters).2) := by
  obtain ⟨hwithin, hdirect⟩ := Prod.mk.inj h
  unfold processReceiveData
  rw [processReceiveData_filter]
  have hdirect' : (s.filtered data).readerDirectCopy = false := hdirect
  have hwithin' : (s.filtered data).readerWithinPaddingBuffers = true := hwithin
  simp only [hdirect', hwithin', Bool.false_eq_true, if_false, true_or, if_true]
  rw [show visionUnpadding (s.filtered data).userUUID data (s.filtered data).counters =
    visionUnpadding s.userUUID data s.counters from rfl]
  generalize visionUnpadding s.userUUID data s.counters = u
  unfold VisionTrafficState.unpadded Counters.mode
  by_cases hmore : u.1.remainingContent > 0 ∨ u.1.remainingPadding > 0 ∨ u.1.currentCommand = 0
  · simp only [if_pos hmore, VisionTrafficState.filtered, hdirect]
  by_cases hend : u.1.currentCommand = 1
  · simp only [if_neg hmore, if_pos hend, VisionTrafficState.filtered, hdirect]
  by_cases hcopy : u.1.currentCommand = 2
  · simp only [if_neg hmore, if_neg hend, if_pos hcopy, VisionTrafficState.filtered]
  · simp only [if_neg hmore, if_neg hend, if_neg hcopy, VisionTrafficState.filtered,
      hdirect, hwithin]

/-- **Inside the frames** a chunk goes through the machine. -/
theorem receive_reading (h : s.mode = (true, false)) (hlive : ¬ s.counters.Spent) (data : Bytes) :
    processReceiveData s data =
      (s.unpadded data (transduce feed s.counters data).1, (transduce feed s.counters data).2) := by
  have hunpad : visionUnpadding s.userUUID data s.counters = transduce feed s.counters data := by
    rw [visionUnpadding, if_neg (not_idle_of_not_spent hlive),
      unpadLoop_eq_feed _ hlive _ (by omega)]
  rw [processReceiveData_padding h, hunpad]

def Counters.begun : Counters := { remainingCommand := 5 }

theorem Counters.ready_begun : begun.Ready := ⟨rfl, by decide, by decide, rfl⟩

/-- **The first chunk** is read from behind the UUID. -/
theorem receive_first (h : s.Unread)
    (hlen : 21 ≤ data.length) (hstart : s.userUUID <+: data) :
    processReceiveData s data =
      (s.unpadded data (transduce feed begun (data.drop 16)).1,
        (transduce feed begun (data.drop 16)).2) := by
  have hunpad : visionUnpadding s.userUUID data s.counters = transduce feed begun
      (data.drop 16) := by
    rw [h.2, visionUnpadding, if_pos ⟨rfl, rfl, rfl⟩,
      if_pos ⟨hlen, isPrefixOf_iff_prefix.mpr hstart⟩]
    exact unpadLoop_eq_feed _ ready_begun.not_spent _ (by omega)
  rw [processReceiveData_padding h.1, hunpad]

/-- **In direct copy** a chunk is passed on. -/
theorem receive_direct (h : s.mode = (false, true)) (data : Bytes) :
    processReceiveData s data = (s.filtered data, data) := by
  obtain ⟨-, hdirect⟩ := Prod.mk.inj h
  unfold processReceiveData
  rw [processReceiveData_filter]
  have hdirect' : (s.filtered data).readerDirectCopy = true := hdirect
  simp only [hdirect', if_true]

/-- A chunk that is taken for the start of a padded stream while packets are
filtered. -/
def Restarts (uuid : Bytes) (f : Filter) (data : Bytes) : Prop :=
  0 < (visionFilterTLS data f).numberOfPacketsToFilter ∧ 21 ≤ data.length ∧ uuid <+: data

structure VisionTrafficState.Ended (s : VisionTrafficState) : Prop where
  mode : s.mode = (false, false)
  counters : s.counters = ⟨-1, -1, -1, 1⟩

/-- **Behind an END frame** a chunk is passed on, unless it restarts the reader. -/
theorem receive_ended (h : s.Ended) (hno : ¬ Restarts s.userUUID s.filter data) :
    processReceiveData s data = (s.filtered data, data) := by
  obtain ⟨hwithin, hdirect⟩ := Prod.mk.inj h.mode
  unfold processReceiveData
  rw [processReceiveData_filter]
  have hdirect' : (s.filtered data).readerDirectCopy = false := hdirect
  have hwithin' : (s.filtered data).readerWithinPaddingBuffers = false := hwithin
  simp only [hdirect', hwithin', Bool.false_eq_true, if_false, false_or]
  split
  · rename_i hbudget
    have hunpad : visionUnpadding (s.filtered data).userUUID data (s.filtered data).counters =
        (⟨-1, -1, -1, 1⟩, data) := by
      rw [show (s.filtered data).counters = ⟨-1, -1, -1, 1⟩ from h.counters, visionUnpadding,
        if_pos ⟨rfl, rfl, rfl⟩, if_neg]
      intro hstart
      exact hno ⟨hbudget, hstart.1, isPrefixOf_iff_prefix.mp hstart.2⟩
    rw [hunpad]
    simp [VisionTrafficState.filtered, h.counters, hwithin, hdirect]
  · rfl

theorem unpadLoop_length_le (fuel : Nat) (c : Counters) (bs : Bytes) :
    (unpadLoop fuel c bs).2.length ≤ bs.length := by
  induction fuel generalizing c bs with
  | zero => exact Nat.zero_le _
  | succ fuel ih =>
    cases bs with
    | nil => exact le_refl 0
    | cons b bs =>
      -- what a turn puts out and what it leaves are disjoint parts of the data
      have hturn : (unpadTurn c b bs).2.1.length + (unpadTurn c b bs).2.2.length ≤
          (b :: bs).length := by
        unfold unpadTurn
        split
        · simp
        split
        · rw [← length_append, take_append_drop]
        split
        · simp
        · simp
      rw [unpadLoop]
      simp only
      split
      · split
        · rw [length_append]
          exact le_trans (Nat.add_le_add_left (ih _ _) _) hturn
        · rw [length_append]
          exact hturn
      · rw [length_append]
        exact le_trans (Nat.add_le_add_left (ih _ _) _) hturn

theorem visionUnpadding_length_le (uuid data : Bytes) (c : Counters) :
    (visionUnpadding uuid data c).2.length ≤ data.length := by
  unfold visionUnpadding
  split
  · split
    · have hrest := unpadLoop_length_le (2 * (data.drop 16).length) { c with remainingCommand := 5 }
        (data.drop 16)
      rw [length_drop] at hrest ⊢
      omega
    · exact le_refl _
  · exact unpadLoop_length_le _ _ _

/-- The result of a call is what unpadding makes of the chunk, or the chunk. -/
theorem processReceiveData_result (s : VisionTrafficState) (data : Bytes) :
    (processReceiveData s data).2 =
      if ¬ s.readerDirectCopy ∧ (s.readerWithinPaddingBuffers ∨
          0 < (visionFilterTLS data s.filter).numberOfPacketsToFilter) then
        (visionUnpadding s.userUUID data s.counters).2
      else data := by
  unfold processReceiveData
  rw [processReceiveData_filter]
  by_cases hdirect : s.readerDirectCopy = true
  · rw [if_pos (show (s.filtered data).readerDirectCopy = true from hdirect),
      if_neg fun h => h.1 hdirect]
  rw [if_neg (show ¬ (s.filtered data).readerDirectCopy = true from hdirect)]
  by_cases hunpad : s.readerWithinPaddingBuffers = true ∨
      0 < (visionFilterTLS data s.filter).numberOfPacketsToFilter
  · rw [if_pos (show (s.filtered data).readerWithinPaddingBuffers = true ∨
      (s.filtered data).filter.numberOfPacketsToFilter > 0 from hunpad),
      if_pos (And.intro hdirect hunpad)]
    simp only
    split
    · rfl
    split
    · rfl
    split
    · rfl
    · rfl
  · rw [if_neg (show ¬ ((s.filtered data).readerWithinPaddingBuffers = true ∨
      (s.filtered data).filter.numberOfPacketsToFilter > 0) from hunpad),
      if_neg fun h => hunpad h.2]

/-- No call returns more than it is given. -/
theorem receive_length_le (s : VisionTrafficState) (data : Bytes) :
    (processReceiveData s data).2.length ≤ data.length := by
  rw [processReceiveData_result]
  split
  · exact visionUnpadding_length_le _ _ _
  · exact le_refl _

theorem receive_restart (h : s.Ended) (hrestart : Restarts s.userUUID s.filter data) :
    (processReceiveData s data).2.length < data.length := by
  obtain ⟨-, hdirect⟩ := Prod.mk.inj h.mode
  obtain ⟨hbudget, hlen, hstart⟩ := hrestart
  rw [processReceiveData_result, if_pos ⟨by simp [hdirect], .inr hbudget⟩,
    visionUnpadding, h.counters, if_pos ⟨rfl, rfl, rfl⟩,
    if_pos ⟨hlen, isPrefixOf_iff_prefix.mpr hstart⟩]
  have hle := unpadLoop_length_le (2 * (data.drop 16).length) ⟨5, -1, -1, 1⟩ (data.drop 16)
  rw [length_drop] at hle ⊢
  exact lt_of_le_of_lt hle (by omega)

end

-- ----
-- Where the reader stands in a stream

variable {f : Frame} {n : Nat}

namespace PaddedStream

variable {p : PaddedStream}

/-- What the machine makes of the first bytes of the stream. -/
def decoded (p : PaddedStream) (n : Nat) : Counters × Bytes :=
  transduce feed begun ((p.bytes.take n).drop 16)

theorem drop_bytes (p : PaddedStream) :
    p.bytes.drop 16 = (p.frames.map Frame.bytes).flatten ++ p.raw := by
  rw [bytes, framed, append_assoc, ← p.uuid_length, drop_left]

theorem drop_take_bytes (p : PaddedStream) (n : Nat) :
    (p.bytes.take n).drop 16 = ((p.frames.map Frame.bytes).flatten ++ p.raw).take (n - 16) := by
  rw [drop_take, drop_bytes]

theorem raw_eq_nil (p : PaddedStream) (h : ∀ f ∈ p.frames, f.command = .paddingContinue) :
    p.raw = [] := by
  by_contra hne
  obtain ⟨f, hf, hterminal⟩ := p.raw_ended hne
  exact hterminal (h f (List.mem_of_getLast? hf))

/-- Where no frame is terminal, the reader is never at an end. -/
theorem decoded_continued (h : ∀ f ∈ p.frames, f.command = .paddingContinue) (n : Nat) :
    (p.decoded n).1.currentCommand = 0 ∧ ¬ (p.decoded n).1.Spent := by
  rw [decoded, drop_take_bytes, p.raw_eq_nil h, append_nil]
  exact feed_frames_take ready_begun h _

theorem frames_eq_of_getLast? (h : f ∈ p.frames.getLast?) :
    p.frames = p.frames.dropLast ++ [f] :=
  (List.dropLast_append_getLast? f h).symm

theorem flatten_frames (h : f ∈ p.frames.getLast?) :
    (p.frames.map Frame.bytes).flatten = (p.frames.dropLast.map Frame.bytes).flatten ++
      f.bytes := by
  conv_lhs => rw [frames_eq_of_getLast? h]
  rw [map_append, flatten_append, map_singleton, flatten_singleton]

theorem framed_length (h : f ∈ p.frames.getLast?) :
    p.framed.length =
      16 + (p.frames.dropLast.map Frame.bytes).flatten.length + f.bytes.length := by
  rw [framed, length_append, p.uuid_length, flatten_frames h, length_append]
  omega

/-- **Before the end of a terminal frame** something is left of a frame, and only at
the gaps of the last header it does not look like it. -/
theorem decoded_before (hf : f ∈ p.frames.getLast?) (hterminal : f.command ≠ .paddingContinue)
    (hn : n < p.framed.length) :
    ¬ (p.decoded n).1.Spent ∧
      ((p.decoded n).1.mode = (true, false) ↔
        ¬ ∃ k, n + f.bytes.length = p.framed.length + k ∧ f.HeaderGap k) := by
  have hlen := framed_length hf
  rw [decoded, drop_take_bytes, flatten_frames hf]
  by_cases hfirst : n - 16 ≤ (p.frames.dropLast.map Frame.bytes).flatten.length
  · rw [append_assoc, take_append_of_le_length hfirst]
    obtain ⟨hcurrent, hmore⟩ := feed_frames_take ready_begun p.continued (n - 16)
    refine ⟨hmore, iff_of_true (if_pos (.inr (.inr hcurrent))) ?_⟩
    rintro ⟨k, hk, hgap⟩
    unfold Frame.HeaderGap at hgap
    omega
  · -- the frames before the last one are read, and some of the last one
    obtain ⟨hready, -⟩ := feed_frames ready_begun p.continued
    have hin : n - 16 - (p.frames.dropLast.map Frame.bytes).flatten.length <
        f.bytes.length := by omega
    obtain ⟨hcurrent, hmore, hgap⟩ := feed_inside hready f (by omega) hin
    rw [append_assoc, take_append, take_of_length_le (by omega),
      take_append_of_le_length (by omega), transduce_append]
    refine ⟨hmore, ?_⟩
    rw [mode_of_terminal hterminal hcurrent, hgap]
    refine not_congr ⟨fun h => ⟨_, by omega, h⟩, ?_⟩
    rintro ⟨k, hk, h⟩
    rwa [show n - 16 - (p.frames.dropLast.map Frame.bytes).flatten.length = k by omega]

/-- **Behind a terminal frame** the reader is idle and has the contents. -/
theorem decoded_after (hf : f ∈ p.frames.getLast?) (hterminal : f.command ≠ .paddingContinue)
    (hn : p.framed.length ≤ n) :
    p.decoded n =
      (⟨-1, -1, -1, f.command.value.toNat⟩, p.contents ++ p.raw.take (n - p.framed.length)) := by
  have hlen := framed_length hf
  have hcontents : p.contents = (p.frames.dropLast.map Frame.content).flatten ++ f.content := by
    rw [contents]
    conv_lhs => rw [frames_eq_of_getLast? hf]
    rw [map_append, flatten_append, map_singleton, flatten_singleton]
  have hraw : n - 16 - ((p.frames.dropLast.map Frame.bytes).flatten ++ f.bytes).length =
      n - p.framed.length := by
    rw [length_append]
    omega
  obtain ⟨hready, hout⟩ := feed_frames ready_begun p.continued
  rw [decoded, drop_take_bytes, flatten_frames hf, take_append, take_of_length_le
    (by rw [length_append]; omega), hraw, transduce_append, transduce_append,
    feed_frame hready.command, settle_closed_terminal hterminal, feed_idle ⟨rfl, rfl, rfl⟩, hout,
    hcontents, append_assoc]

theorem continued_of_last (p : PaddedStream) {last : Frame} (h : last ∈ p.frames.getLast?)
    (hlast : last.command = .paddingContinue) : ∀ f ∈ p.frames, f.command = .paddingContinue := by
  intro f hf
  rw [frames_eq_of_getLast? h, mem_append, mem_singleton] at hf
  rcases hf with hf | rfl
  · exact p.continued f hf
  · exact hlast

/-- The machine makes the contents and the raw bytes of the whole stream. -/
theorem decoded_whole (p : PaddedStream) :
    (transduce feed begun (p.bytes.drop 16)).2 = p.contents ++ p.raw := by
  by_cases hall : ∀ f ∈ p.frames, f.command = .paddingContinue
  · rw [drop_bytes, p.raw_eq_nil hall, append_nil, append_nil, (feed_frames ready_begun hall).2]
    rfl
  · cases hlast : p.frames.getLast? with
    | none => exact absurd (by simp [List.getLast?_eq_none_iff.mp hlast]) hall
    | some f =>
      have hterminal : f.command ≠ .paddingContinue := fun h => hall (p.continued_of_last hlast h)
      have hlen : p.framed.length ≤ p.bytes.length := by
        rw [bytes, length_append]
        omega
      have hdecoded := decoded_after hlast hterminal hlen
      rw [decoded, take_length] at hdecoded
      rw [hdecoded, bytes, length_append, Nat.add_sub_cancel_left, take_length]

/-- **Unpadding a whole stream** at once gives the contents and the raw bytes. -/
theorem visionUnpadding_bytes (p : PaddedStream) (hne : p.frames ≠ []) :
    (visionUnpadding p.uuid p.bytes {}).2 = p.contents ++ p.raw := by
  have hlen : 21 ≤ p.bytes.length := by
    obtain ⟨f, fs, hframes⟩ := exists_cons_of_ne_nil hne
    have hframe := f.length_bytes
    rw [bytes, framed, hframes, length_append, length_append, p.uuid_length, map_cons,
      flatten_cons, length_append]
    omega
  have hstart : p.uuid.isPrefixOf p.bytes = true := by
    rw [ isPrefixOf_iff_prefix, bytes, framed, append_assoc]
    exact prefix_append _ _
  rw [visionUnpadding, if_pos ⟨rfl, rfl, rfl⟩, if_pos ⟨hlen, hstart⟩, ← decoded_whole]
  exact congrArg Prod.snd (unpadLoop_eq_feed _ ready_begun.not_spent _ (by omega))

end PaddedStream

-- ----
-- Whole runs

def filterAll (f : Filter) (chunks : List Bytes) : Filter :=
  run (fun f data => visionFilterTLS data f) f chunks

theorem processReceiveData_filter_uuid (s : VisionTrafficState) (data : Bytes) :
    (processReceiveData s data).1.filter = visionFilterTLS data s.filter ∧
      (processReceiveData s data).1.userUUID = s.userUUID := by
  unfold processReceiveData
  rw [processReceiveData_filter]
  simp only
  split
  · exact ⟨rfl, rfl⟩
  split
  · split
    · exact ⟨rfl, rfl⟩
    split
    · exact ⟨rfl, rfl⟩
    split
    · exact ⟨rfl, rfl⟩
    · exact ⟨rfl, rfl⟩
  · exact ⟨rfl, rfl⟩

theorem receiveAll_filter_uuid (s : VisionTrafficState) (chunks : List Bytes) :
    (receiveAll s chunks).1.filter = filterAll s.filter chunks ∧
      (receiveAll s chunks).1.userUUID = s.userUUID := by
  induction chunks generalizing s with
  | nil => exact ⟨rfl, rfl⟩
  | cons data chunks ih =>
    obtain ⟨hfilter, huuid⟩ := processReceiveData_filter_uuid s data
    obtain ⟨ihfilter, ihuuid⟩ := ih (processReceiveData s data).1
    rw [receiveAll_cons]
    exact ⟨ihfilter.trans (by rw [hfilter]; rfl), ihuuid.trans huuid⟩

structure Arrives (p : PaddedStream) (s : VisionTrafficState) (chunks : List Bytes) : Prop where
  unread : s.Unread
  uuid : s.userUUID = p.uuid
  whole : chunks.flatten = p.bytes
  first : ∃ data ∈ chunks.head?, 21 ≤ data.length

/-- The reader stands where the machine does. -/
structure Follows (p : PaddedStream) (s : VisionTrafficState) (before : List Bytes) : Prop where
  counters : (receiveAll s before).1.counters = (p.decoded before.flatten.length).1
  output : (receiveAll s before).2 = (p.decoded before.flatten.length).2
  mode : (receiveAll s before).1.mode = (p.decoded before.flatten.length).1.mode

variable {after before chunks : List Bytes}

section

variable {p : PaddedStream} {s : VisionTrafficState} {chunks : List Bytes}

theorem Arrives.flatten_before (h : Arrives p s chunks)
    (hsplit : chunks = before ++ after) : before.flatten = p.bytes.take before.flatten.length := by
  rw [← h.whole, hsplit, flatten_append, take_left]

theorem Arrives.first_length (h : Arrives p s chunks) {first : Bytes} {rest : List Bytes}
    (hsplit : chunks = first :: rest) : 21 ≤ first.length := by
  obtain ⟨data, hdata, hlen⟩ := h.first
  obtain rfl : first = data := by
    rw [hsplit] at hdata
    simpa using hdata
  exact hlen

theorem Arrives.follows_cons (h : Arrives p s chunks) {first : Bytes}
    (hsplit : chunks = first :: before ++ after)
    (hreading : ∀ b a, before = b ++ a → a ≠ [] →
      (receiveAll s (first :: b)).1.mode = (true, false) ∧
        ¬ (p.decoded (first :: b).flatten.length).1.Spent) :
    Follows p s (first :: before) := by
  induction before using List.reverseRecOn generalizing after with
  | nil =>
    have hbytes := h.flatten_before hsplit
    have hlen := h.first_length hsplit
    have hstart : s.userUUID <+: first := by
      have hpre : p.uuid <+: p.bytes := ⟨(p.frames.map Frame.bytes).flatten ++ p.raw, by
        rw [PaddedStream.bytes, PaddedStream.framed, append_assoc]⟩
      have hpre' : first <+: p.bytes := by
        rw [← h.whole, hsplit]
        exact ⟨after.flatten, rfl⟩
      rw [h.uuid]
      exact prefix_of_prefix_length_le hpre hpre' (by rw [p.uuid_length]; omega)
    have hdrop : first.drop 16 = (p.bytes.take [first].flatten.length).drop 16 := by
      rw [← hbytes, flatten_singleton]
    have hstep := receive_first h.unread hlen hstart
    rw [hdrop] at hstep
    exact ⟨by rw [receiveAll_singleton, hstep]; rfl, by rw [receiveAll_singleton, hstep]; rfl,
      by rw [receiveAll_singleton, hstep]; rfl⟩
  | append_singleton before data ih =>
    have hsplit' : chunks = first :: before ++ data :: after := by simpa using hsplit
    have hfollows := ih hsplit' fun b a hb hne =>
      hreading b (a ++ [data]) (by rw [hb, append_assoc]) (by simp)
    obtain ⟨hmode, hlive⟩ := hreading before [data] rfl (by simp)
    have hstep := receive_reading hmode (by rw [hfollows.counters]; exact hlive) data
    -- the machine goes on over the bytes of the chunk
    have hdecoded : p.decoded (first :: (before ++ [data])).flatten.length =
        ((transduce feed (p.decoded (first :: before).flatten.length).1 data).1,
          (p.decoded (first :: before).flatten.length).2 ++
            (transduce feed (p.decoded (first :: before).flatten.length).1 data).2) := by
      have hbefore := h.flatten_before hsplit'
      have hlong : 16 ≤ (first :: before).flatten.length := by
        have hlen := h.first_length hsplit
        rw [flatten_cons, length_append]
        omega
      rw [PaddedStream.decoded, PaddedStream.decoded, ← h.flatten_before hsplit, ← hbefore,
        ← cons_append, flatten_append, flatten_singleton,
        drop_append_of_le_length hlong, transduce_append]
    have hrun : receiveAll s (first :: (before ++ [data])) =
        ((processReceiveData (receiveAll s (first :: before)).1 data).1,
          (receiveAll s (first :: before)).2 ++
            (processReceiveData (receiveAll s (first :: before)).1 data).2) := by
      rw [← cons_append, receiveAll_append, receiveAll_singleton]
    rw [hstep, hfollows.counters, hfollows.output] at hrun
    exact ⟨by rw [hrun, hdecoded]; rfl, by rw [hrun, hdecoded], by rw [hrun, hdecoded]; rfl⟩

/-- **The run lemma.** As long as the reader has not switched and something is left
of a frame, it follows the machine. -/
theorem Arrives.follows (h : Arrives p s chunks) (hne : before ≠ [])
    (hsplit : chunks = before ++ after)
    (hreading : ∀ b a, before = b ++ a → a ≠ [] →
      (receiveAll s b).1.mode = (true, false) ∧ ¬ (p.decoded b.flatten.length).1.Spent) :
    Follows p s before := by
  cases before with
  | nil => exact absurd rfl hne
  | cons first rest =>
    exact h.follows_cons hsplit fun b a hb ha => hreading (first :: b) a (by rw [hb]; rfl) ha

end

variable {s : VisionTrafficState}

/-- **Direct copy is for good.** -/
theorem receiveAll_direct (h : s.mode = (false, true)) (chunks : List Bytes) :
    (receiveAll s chunks).2 = chunks.flatten ∧ (receiveAll s chunks).1.mode = (false, true) := by
  induction chunks generalizing s with
  | nil => exact ⟨rfl, h⟩
  | cons data chunks ih =>
    obtain ⟨hout, hmode⟩ := ih (s := s.filtered data) h
    rw [receiveAll_cons, receive_direct h]
    exact ⟨by rw [flatten_cons, hout], hmode⟩

def RestartsIn (uuid : Bytes) (f : Filter) (chunks : List Bytes) : Prop :=
  ∃ before data after, chunks = before ++ data :: after ∧ Restarts uuid (filterAll f before) data

theorem restartsIn_cons {uuid : Bytes} {f : Filter} :
    RestartsIn uuid f (data :: chunks) ↔
      Restarts uuid f data ∨ RestartsIn uuid (visionFilterTLS data f) chunks := by
  constructor
  · rintro ⟨before, next, after, hsplit, hrestart⟩
    cases before with
    | nil =>
      obtain ⟨rfl, rfl⟩ := List.cons.inj hsplit
      exact .inl hrestart
    | cons _ before =>
      obtain ⟨rfl, rfl⟩ := List.cons.inj hsplit
      exact .inr ⟨before, next, after, rfl, hrestart⟩
  · rintro (hrestart | ⟨before, next, after, rfl, hrestart⟩)
    · exact ⟨[], data, chunks, rfl, hrestart⟩
    · exact ⟨data :: before, next, after, rfl, hrestart⟩

/-- **Behind an END frame** everything is passed on as long as no chunk restarts the
reader. -/
theorem receiveAll_ended (h : s.Ended)
    (hno : ¬ RestartsIn s.userUUID s.filter chunks) :
    (receiveAll s chunks).2 = chunks.flatten ∧ (receiveAll s chunks).1.mode = (false, false) := by
  induction chunks generalizing s with
  | nil => exact ⟨rfl, h.mode⟩
  | cons data chunks ih =>
    rw [restartsIn_cons, not_or] at hno
    obtain ⟨hout, hmode⟩ := ih (s := s.filtered data) ⟨h.mode, h.counters⟩ hno.2
    rw [receiveAll_cons, receive_ended h hno.1]
    exact ⟨by rw [flatten_cons, hout], hmode⟩

theorem receiveAll_length_le (s : VisionTrafficState) (chunks : List Bytes) :
    (receiveAll s chunks).2.length ≤ chunks.flatten.length := by
  rw [length_flatten]
  exact transduce_length_le receive_length_le s chunks

theorem receiveAll_restarted (h : s.Ended)
    (hrestart : RestartsIn s.userUUID s.filter chunks) :
    (receiveAll s chunks).2.length < chunks.flatten.length := by
  induction chunks generalizing s with
  | nil =>
    obtain ⟨before, data, after, hsplit, -⟩ := hrestart
    simp at hsplit
  | cons data chunks ih =>
    rw [receiveAll_cons, flatten_cons, length_append, length_append]
    by_cases hnow : Restarts s.userUUID s.filter data
    · have hlost := receive_restart h hnow
      have hrest := receiveAll_length_le (processReceiveData s data).1 chunks
      omega
    · have hlater := (restartsIn_cons.1 hrestart).resolve_left hnow
      have hlost := ih (s := s.filtered data) ⟨h.mode, h.counters⟩ hlater
      rw [receive_ended h hnow]
      exact Nat.add_lt_add_left hlost data.length

-- ----
-- The chunkings that deliver the stream

/-- A chunk ends at a gap of the header of the terminal frame. -/
def HeaderCut (p : PaddedStream) (chunks : List Bytes) : Prop :=
  ∃ before after, chunks = before ++ after ∧
    ∃ f ∈ p.frames.getLast?, f.command ≠ .paddingContinue ∧
      ∃ k, before.flatten.length + f.bytes.length = p.framed.length + k ∧ f.HeaderGap k

/-- Behind an END frame a chunk restarts the reader. -/
def UuidRestart (p : PaddedStream) (f : Filter) (chunks : List Bytes) : Prop :=
  ∃ before data after, chunks = before ++ data :: after ∧
    (∃ f ∈ p.frames.getLast?, f.command = .paddingEnd) ∧
    p.framed.length ≤ before.flatten.length ∧ Restarts p.uuid (filterAll f before) data

/-- The stream is delivered: the results are the contents and the raw bytes, the mode
is the one the last frame asks for, and before the frames are read the reader does
not switch. -/
structure Delivered (p : PaddedStream) (s : VisionTrafficState) (chunks : List Bytes) : Prop where
  output : (receiveAll s chunks).2 = p.contents ++ p.raw
  mode : ∀ f ∈ p.frames.getLast?, (receiveAll s chunks).1.mode = f.command.mode
  unswitched : ∀ before after, chunks = before ++ after → before.flatten.length < p.framed.length →
    (receiveAll s before).1.mode = (true, false)

section

variable {p : PaddedStream} {s : VisionTrafficState} {chunks : List Bytes}

/-- Where the machine does not look used up at the end of any chunk, the reader goes
on unpadding. -/
theorem Arrives.reading (h : Arrives p s chunks)
    (hsplit : chunks = before ++ after)
    (hall : ∀ b a, before = b ++ a → ¬ (p.decoded b.flatten.length).1.Spent ∧
      (p.decoded b.flatten.length).1.mode = (true, false)) :
    (receiveAll s before).1.mode = (true, false) := by
  induction hn : before.length using Nat.strongRecOn generalizing before after with
  | _ n ih =>
    by_cases hnil : before = []
    · rw [hnil]
      exact h.unread.1
    have hfollows : Follows p s before := by
      refine h.follows hnil hsplit fun b a hb hne => ⟨?_, (hall b a hb).1⟩
      have hlen : b.length < n := by
        have := length_pos_iff.mpr hne
        rw [← hn, hb, length_append]
        omega
      have hsplit' : chunks = b ++ (a ++ after) := by rw [hsplit, hb, append_assoc]
      refine ih _ hlen hsplit' (fun b' a' hb' => ?_) rfl
      exact hall b' (a' ++ a) (by rw [hb, hb', append_assoc])
    rw [hfollows.mode]
    exact (hall before [] (append_nil _).symm).2

theorem flatten_length_le_of_append {b a : List Bytes} (h : before = b ++ a) :
    b.flatten.length ≤ before.flatten.length := by
  rw [h, flatten_append, length_append]
  omega

/-- Where no chunk ends at a gap of the header, the reader does not switch before the
terminal frame is read. -/
theorem Arrives.unswitched (h : Arrives p s chunks) (hf : f ∈ p.frames.getLast?)
    (hterminal : f.command ≠ .paddingContinue) (hcut : ¬ HeaderCut p chunks)
    (hsplit : chunks = before ++ after) (hlt : before.flatten.length < p.framed.length) :
    (receiveAll s before).1.mode = (true, false) := by
  refine h.reading hsplit fun b a hb => ?_
  have hle := flatten_length_le_of_append hb
  obtain ⟨hlive, hmode⟩ :=
    PaddedStream.decoded_before hf hterminal (n := b.flatten.length) (by omega)
  refine ⟨hlive, hmode.mpr ?_⟩
  rintro ⟨k, hk, hgap⟩
  exact hcut ⟨b, a ++ after, by rw [hsplit, hb, append_assoc], f, hf, hterminal, k, hk, hgap⟩

/-- A reader that does not switch before the frames are read follows the machine. -/
theorem Arrives.follows_unswitched (h : Arrives p s chunks) (hf : f ∈ p.frames.getLast?)
    (hterminal : f.command ≠ .paddingContinue)
    (hunswitched : ∀ before after, chunks = before ++ after →
      before.flatten.length < p.framed.length → (receiveAll s before).1.mode = (true, false)) (hne :
      before ≠ []) (hsplit : chunks = before ++ after)
    (hlt : ∀ b a, before = b ++ a → a ≠ [] → b.flatten.length < p.framed.length) :
    Follows p s before :=
  h.follows hne hsplit fun b a hb ha =>
    ⟨hunswitched b (a ++ after) (by rw [hsplit, hb, append_assoc]) (hlt b a hb ha),
      (PaddedStream.decoded_before hf hterminal (hlt b a hb ha)).1⟩

/-- The other way round: at a gap of the header it switches. -/
theorem Arrives.no_headerCut (h : Arrives p s chunks)
    (hunswitched : ∀ before after, chunks = before ++ after →
      before.flatten.length < p.framed.length → (receiveAll s before).1.mode = (true, false)) :
    ¬ HeaderCut p chunks := by
  rintro ⟨before, after, hsplit, f, hf, hterminal, k, hk, hgap⟩
  have hlt : before.flatten.length < p.framed.length := by
    have hlen := f.length_bytes
    unfold Frame.HeaderGap at hgap
    omega
  have hne : before ≠ [] := by
    rintro rfl
    have hlen := PaddedStream.framed_length hf
    simp only [flatten_nil, length_nil] at hk
    omega
  have hfollows := h.follows_unswitched hf hterminal hunswitched hne hsplit fun b a hb _ =>
    lt_of_le_of_lt (flatten_length_le_of_append hb) hlt
  have hmode := hunswitched _ _ hsplit hlt
  rw [hfollows.mode] at hmode
  exact (PaddedStream.decoded_before hf hterminal hlt).2.mp hmode ⟨k, hk, hgap⟩

/-- The chunk that holds the byte in front of a place of the stream. -/
theorem exists_crossing (hpos : 0 < n) (hle : n ≤ chunks.flatten.length) :
    ∃ before data after, chunks = before ++ data :: after ∧ before.flatten.length < n ∧
      n ≤ (before ++ [data]).flatten.length := by
  induction chunks generalizing n with
  | nil => simp at hle; omega
  | cons data chunks ih =>
    by_cases hhere : n ≤ data.length
    · exact ⟨[], data, chunks, rfl, by simpa using hpos, by simpa using hhere⟩
    · rw [flatten_cons, length_append] at hle
      obtain ⟨before, next, after, hsplit, hlt, hge⟩ :=
        ih (n := n - data.length) (by omega) (by omega)
      refine ⟨data :: before, next, after, by rw [hsplit]; rfl, ?_, ?_⟩
      · rw [flatten_cons, length_append]
        omega
      · rw [cons_append, flatten_cons, length_append]
        omega

/-- **The end of the frames.** A reader that has not switched before is idle with the
chunk that ends the terminal frame, and what it has returned and the chunks to come
are the whole stream. -/
theorem Arrives.crossing (h : Arrives p s chunks) (hf : f ∈ p.frames.getLast?)
    (hterminal : f.command ≠ .paddingContinue)
    (hunswitched : ∀ before after, chunks = before ++ after →
      before.flatten.length < p.framed.length → (receiveAll s before).1.mode = (true, false)) :
    ∃ before data after, chunks = before ++ data :: after ∧
      before.flatten.length < p.framed.length ∧
      p.framed.length ≤ (before ++ [data]).flatten.length ∧
      (receiveAll s (before ++ [data])).1.counters = ⟨-1, -1, -1, f.command.value.toNat⟩ ∧
      (receiveAll s (before ++ [data])).1.mode = f.command.mode ∧
      (receiveAll s (before ++ [data])).2 ++ after.flatten = p.contents ++ p.raw := by
  have hlen := PaddedStream.framed_length hf
  have hwhole : p.framed.length ≤ chunks.flatten.length := by
    rw [h.whole, PaddedStream.bytes, length_append]
    omega
  obtain ⟨before, data, after, hsplit, hlt, hge⟩ := exists_crossing (by omega) hwhole
  have hsplit' : chunks = (before ++ [data]) ++ after := by rw [hsplit]; simp
  refine ⟨before, data, after, hsplit, hlt, hge, ?_⟩
  have hfollows : Follows p s (before ++ [data]) := by
    refine h.follows_unswitched hf hterminal hunswitched (by simp) hsplit' fun b a hb ha => ?_
    -- what is missing of the chunks is at least the last one
    obtain ⟨a', last, rfl⟩ := eq_nil_or_concat' a |>.resolve_left ha
    rw [← append_assoc] at hb
    obtain ⟨rfl, -⟩ := append_inj' hb rfl
    exact lt_of_le_of_lt (flatten_length_le_of_append rfl) hlt
  rw [hfollows.counters, hfollows.mode, hfollows.output,
    PaddedStream.decoded_after hf hterminal hge]
  refine ⟨rfl, ?_, ?_⟩
  · cases hcommand : f.command with
    | paddingContinue => exact absurd hcommand hterminal
    | paddingEnd => rfl
    | paddingDirect => rfl
  · have hflat : chunks.flatten = (before ++ [data]).flatten ++ after.flatten := by
      rw [hsplit', flatten_append]
    have hrest : after.flatten = p.bytes.drop (before ++ [data]).flatten.length := by
      rw [← h.whole, hflat, drop_left]
    rw [hrest, PaddedStream.bytes, drop_append, drop_of_length_le hge, nil_append,
      append_assoc, take_append_drop]

theorem filterAll_append (f : Filter) (as bs : List Bytes) :
    filterAll f (as ++ bs) = filterAll (filterAll f as) bs :=
  run_append _ f as bs

theorem uuidRestart_iff (hf : f ∈ p.frames.getLast?) (hend : f.command = .paddingEnd)
    {g : Filter} (hsplit : chunks = before ++ data :: after)
    (hlt : before.flatten.length < p.framed.length)
    (hge : p.framed.length ≤ (before ++ [data]).flatten.length) :
    UuidRestart p g chunks ↔ RestartsIn p.uuid (filterAll g (before ++ [data])) after := by
  constructor
  · rintro ⟨before', data', after', hsplit', -, hge', hrestart⟩
    rw [hsplit, append_eq_append_iff] at hsplit'
    rcases hsplit' with ⟨middle, rfl, hrest⟩ | ⟨middle, rfl, -⟩
    · cases middle with
      | nil =>
        rw [append_nil] at hge'
        omega
      | cons next middle =>
        obtain ⟨rfl, rfl⟩ := List.cons.inj hrest
        refine ⟨middle, data', after', rfl, ?_⟩
        rwa [← filterAll_append, append_assoc, singleton_append]
    · have hle : before'.flatten.length ≤ (before' ++ middle).flatten.length :=
        flatten_length_le_of_append rfl
      omega
  · rintro ⟨before', data', after', rfl, hrestart⟩
    refine ⟨before ++ [data] ++ before', data', after', by rw [hsplit]; simp, ⟨f, hf, hend⟩, ?_, ?_⟩
    · exact le_trans hge (flatten_length_le_of_append rfl)
    · rwa [filterAll_append]

/-- A stream without a terminal frame is delivered in every chunking. -/
theorem Arrives.delivered_continued (h : Arrives p s chunks)
    (hall : ∀ f ∈ p.frames, f.command = .paddingContinue) : Delivered p s chunks := by
  have hstands : ∀ n, ¬ (p.decoded n).1.Spent ∧ (p.decoded n).1.mode = (true, false) := fun n =>
    ⟨(PaddedStream.decoded_continued hall n).2,
      if_pos (.inr (.inr (PaddedStream.decoded_continued hall n).1))⟩
  have hreading : ∀ before after, chunks = before ++ after →
      (receiveAll s before).1.mode = (true, false) := fun before after hsplit =>
    h.reading hsplit fun b _ _ => hstands b.flatten.length
  have hne : chunks ≠ [] := by
    rintro rfl
    obtain ⟨data, hdata, -⟩ := h.first
    simp at hdata
  have hfollows : Follows p s chunks :=
    h.follows hne (append_nil _).symm fun b a hb _ => ⟨hreading b a hb, (hstands _).1⟩
  refine ⟨?_, ?_, fun before after hsplit _ => hreading before after hsplit⟩
  · rw [hfollows.output, h.whole, PaddedStream.decoded, take_length, PaddedStream.decoded_whole]
  · intro f hf
    rw [hreading chunks [] (append_nil _).symm, hall f (List.mem_of_getLast? hf)]
    rfl

/-- A stream with a terminal frame is delivered in the chunkings that neither cut its
header at a gap nor restart the reader. -/
theorem Arrives.delivered_terminal (h : Arrives p s chunks) (hf : f ∈ p.frames.getLast?)
    (hterminal : f.command ≠ .paddingContinue) :
    Delivered p s chunks ↔ ¬ HeaderCut p chunks ∧ ¬ UuidRestart p s.filter chunks := by
  -- once the reader does not switch too early, the rest is decided behind the frames
  suffices hrest : (∀ before after, chunks = before ++ after →
      before.flatten.length < p.framed.length → (receiveAll s before).1.mode = (true, false)) →
      ((receiveAll s chunks).2 = p.contents ++ p.raw ∧
        (receiveAll s chunks).1.mode = f.command.mode ↔ ¬ UuidRestart p s.filter chunks) by
    constructor
    · intro hd
      exact ⟨h.no_headerCut hd.unswitched, (hrest hd.unswitched).mp ⟨hd.output, hd.mode f hf⟩⟩
    · rintro ⟨hcut, hno⟩
      have hunswitched : ∀ before after, chunks = before ++ after →
          before.flatten.length < p.framed.length →
          (receiveAll s before).1.mode = (true, false) := fun before after hsplit hlt =>
        h.unswitched hf hterminal hcut hsplit hlt
      obtain ⟨hout, hmode⟩ := (hrest hunswitched).mpr hno
      refine ⟨hout, fun g hg => ?_, hunswitched⟩
      rwa [Option.mem_unique hg hf]
  intro hunswitched
  obtain ⟨before, data, after, hsplit, hlt, hge, hcounters, hmode, hwhole⟩ :=
    h.crossing hf hterminal hunswitched
  obtain ⟨hfilter, huuid⟩ := receiveAll_filter_uuid s (before ++ [data])
  have hrun := receiveAll_append s (before ++ [data]) after
  rw [show before ++ [data] ++ after = chunks by rw [hsplit]; simp] at hrun
  rw [hrun, ← hwhole, append_cancel_left_eq]
  cases hcommand : f.command with
  | paddingContinue => exact absurd hcommand hterminal
  | paddingDirect =>
    rw [hcommand] at hmode
    refine iff_of_true (receiveAll_direct hmode after) ?_
    rintro ⟨-, -, -, -, ⟨g, hg, hend⟩, -⟩
    rw [Option.mem_unique hg hf, hcommand] at hend
    cases hend
  | paddingEnd =>
    rw [hcommand] at hmode hcounters
    have hended : (receiveAll s (before ++ [data])).1.Ended := ⟨hmode, hcounters⟩
    rw [uuidRestart_iff hf hcommand hsplit hlt hge]
    constructor
    · rintro ⟨hout, -⟩ hrestart
      rw [← h.uuid, ← huuid, ← hfilter] at hrestart
      have hlost := receiveAll_restarted hended hrestart
      rw [hout] at hlost
      exact lt_irrefl _ hlost
    · intro hno
      rw [← h.uuid, ← huuid, ← hfilter] at hno
      exact receiveAll_ended hended hno

/-- **The downlink.** A padded stream is delivered in exactly the chunkings where no
chunk ends at a gap of the header of the terminal frame and, behind an END frame, no
chunk that is still filtered starts with the UUID. -/
theorem downlink_delivered_iff (h : Arrives p s chunks) :
    Delivered p s chunks ↔ ¬ HeaderCut p chunks ∧ ¬ UuidRestart p s.filter chunks := by
  by_cases hterminal : ∃ f ∈ p.frames.getLast?, f.command ≠ .paddingContinue
  · obtain ⟨f, hf, hcommand⟩ := hterminal
    exact h.delivered_terminal hf hcommand
  · have hlast : ∀ f ∈ p.frames.getLast?, f.command = .paddingContinue := fun f hf =>
      by_contra fun hcommand => hterminal ⟨f, hf, hcommand⟩
    refine iff_of_true (h.delivered_continued fun f hf => ?_) ⟨?_, ?_⟩
    · cases hgetLast : p.frames.getLast? with
      | none => simp [List.getLast?_eq_none_iff.mp hgetLast] at hf
      | some g => exact p.continued_of_last hgetLast (hlast g hgetLast) f hf
    · rintro ⟨-, -, -, f, hf, hcommand, -⟩
      exact hcommand (hlast f hf)
    · rintro ⟨-, -, -, -, ⟨f, hf, hcommand⟩, -⟩
      rw [hlast f hf] at hcommand
      cases hcommand

end

theorem length_sevens : (List.replicate 16 (7 : UInt8)).length = 16 := rfl

theorem nil_fits : ([] : Bytes).length < 65536 := by decide

theorem byte_fits : ([0xAA] : Bytes).length < 65536 := by decide

/-- An empty frame, and a DIRECT frame with one byte. -/
def oneByteStream : PaddedStream where
  uuid := List.replicate 16 7
  frames := [⟨.paddingContinue, [], [], nil_fits, nil_fits⟩,
    ⟨.paddingDirect, [0xAA], [], byte_fits, nil_fits⟩]
  raw := []
  uuid_length := length_sevens
  continued := by simp
  raw_ended := by simp

theorem oneByteStream_arrives (h : 21 ≤ n) :
    Arrives oneByteStream (.new (List.replicate 16 7))
      [oneByteStream.bytes.take n, oneByteStream.bytes.drop n] where
  unread := by decide
  uuid := rfl
  whole := by simp
  first := ⟨_, rfl, by
    have hlen : oneByteStream.bytes.length = 27 := rfl
    rw [length_take]
    omega⟩

/-- Cut between its frames, the stream is delivered. -/
theorem oneByteStream_delivered :
    Delivered oneByteStream (.new (List.replicate 16 7))
      [oneByteStream.bytes.take 21, oneByteStream.bytes.drop 21] := by
  refine (downlink_delivered_iff (oneByteStream_arrives (le_refl 21))).mpr ⟨?_, ?_⟩
  · rintro ⟨before, after, hsplit, f, hf, -, k, hk, hgap⟩
    obtain rfl : f = ⟨.paddingDirect, [0xAA], [], by decide, by decide⟩ := Option.mem_unique hf rfl
    have hboundary : before.flatten.length = 0 ∨ before.flatten.length = 21 ∨
        before.flatten.length = 27 := by
      match before, hsplit with
      | [], _ => exact .inl rfl
      | [_], hsplit =>
        obtain ⟨rfl, -⟩ := List.cons.inj hsplit
        exact .inr (.inl rfl)
      | [_, _], hsplit =>
        obtain ⟨rfl, hrest⟩ := List.cons.inj hsplit
        obtain ⟨rfl, -⟩ := List.cons.inj hrest
        exact .inr (.inr rfl)
    have hframed : oneByteStream.framed.length = 27 := rfl
    have hframe := Frame.length_bytes ⟨.paddingDirect, [0xAA], [], by decide, by decide⟩
    unfold Frame.HeaderGap at hgap
    simp only [length_cons, length_nil] at hframe hgap
    omega
  · rintro ⟨-, -, -, -, ⟨f, hf, hend⟩, -⟩
    rw [Option.mem_unique hf rfl] at hend
    cases hend

/-- Cut behind the command of its last frame, the rest of the header comes out. -/
theorem oneByteStream_leaks :
    Arrives oneByteStream (.new (List.replicate 16 7))
        [oneByteStream.bytes.take 22, oneByteStream.bytes.drop 22] ∧
      (receiveAll (.new (List.replicate 16 7))
        [oneByteStream.bytes.take 22, oneByteStream.bytes.drop 22]).2 = [0, 1, 0, 0, 0xAA] ∧
      oneByteStream.contents ++ oneByteStream.raw = [0xAA] ∧
      ¬ Delivered oneByteStream (.new (List.replicate 16 7))
        [oneByteStream.bytes.take 22, oneByteStream.bytes.drop 22] :=
  ⟨oneByteStream_arrives (by decide), by decide, rfl, fun h => absurd h.output (by decide)⟩

end Anywhere.Vless
