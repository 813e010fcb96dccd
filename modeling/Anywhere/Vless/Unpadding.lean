import Anywhere.Lib.Transducer
import Anywhere.Vless.Vision

/-!
# Anywhere — unpadding, byte by byte

`visionUnpadding` keeps three counters between its calls. Behind the UUID it is a
machine on single bytes (`Counters.feed`), however the data is cut:

* `unpadLoop_eq_feed` — the loop over a chunk is the machine run over its bytes.
* `feed_frame`, `feed_frames` — what the machine makes of whole frames.
* `feed_inside` — where it stands inside a frame, and when the counters look as if
  nothing were left of it.
-/

namespace Anywhere.Vless

open Lib List

-- ----
-- The machine

namespace Counters

/-- Where nothing is left of a frame the next one begins, or the reader goes idle. -/
def settle (c : Counters) : Counters :=
  if c.Spent then if c.currentCommand = 0 then { c with remainingCommand := 5 } else c.idle
  else c

def feed (c : Counters) (b : UInt8) : Counters × Bytes :=
  if c.Idle then (c, [b]) else ((unpadTurn c b []).1.settle, (unpadTurn c b []).2.1)

variable {c : Counters}

theorem settle_of_not_spent (h : ¬ c.Spent) : c.settle = c := if_neg h

theorem not_idle_of_not_spent (h : ¬ c.Spent) : ¬ c.Idle := by
  intro hidle
  apply h
  unfold Idle at hidle
  unfold Spent
  omega

theorem idle_idle (c : Counters) : c.idle.Idle := ⟨rfl, rfl, rfl⟩

/-- Behind the last frame everything is content. -/
theorem feed_idle (h : c.Idle) (bs : Bytes) : transduce feed c bs = (c, bs) :=
  transduce_through (fun _ => if_pos h) bs

theorem feed_header (h : 0 < c.remainingCommand) (b : UInt8) :
    c.feed b = ((c.header b).settle, []) := by
  have hlive : ¬ c.Spent := fun hs => by unfold Spent at hs; omega
  rw [feed, if_neg (not_idle_of_not_spent hlive), unpadTurn, if_pos h]

theorem feed_content (bs : Bytes) (hc : c.remainingCommand ≤ 0) (hne : bs ≠ [])
    (hlen : bs.length ≤ c.remainingContent) :
    transduce feed c bs =
      ({ c with remainingContent := c.remainingContent - bs.length }.settle, bs) := by
  induction bs generalizing c with
  | nil => exact absurd rfl hne
  | cons b bs ih =>
    rw [length_cons] at hlen
    have hpos : 0 < c.remainingContent := by omega
    have hlive : ¬ c.Spent := fun hs => by unfold Spent at hs; omega
    have hfeed : c.feed b =
        ({ c with remainingContent := c.remainingContent - 1 }.settle, [b]) := by
      have hone : min c.remainingContent.toNat 1 = 1 := by omega
      rw [feed, if_neg (not_idle_of_not_spent hlive), unpadTurn, if_neg (by omega), if_pos hpos]
      simp [hone]
    rw [transduce_cons, hfeed]
    by_cases hend : bs = []
    · subst hend
      simp
    · have hmore : 0 < bs.length := length_pos_iff.mpr hend
      have hrest := ih (c := { c with remainingContent := c.remainingContent - 1 }) hc hend
        (by simp only; omega)
      rw [settle_of_not_spent fun hs => by unfold Spent at hs; simp only at hs; omega, hrest]
      have hsum : c.remainingContent - 1 - bs.length = c.remainingContent - (b :: bs).length := by
        rw [length_cons]
        omega
      simp only [hsum, singleton_append]

theorem feed_padding (bs : Bytes) (hc : c.remainingCommand ≤ 0) (hcontent : c.remainingContent ≤ 0)
    (hne : bs ≠ []) (hlen : bs.length ≤ c.remainingPadding) :
    transduce feed c bs =
      ({ c with remainingPadding := c.remainingPadding - bs.length }.settle, []) := by
  induction bs generalizing c with
  | nil => exact absurd rfl hne
  | cons b bs ih =>
    rw [length_cons] at hlen
    have hpos : 0 < c.remainingPadding := by omega
    have hlive : ¬ c.Spent := fun hs => by unfold Spent at hs; omega
    have hfeed : c.feed b =
        ({ c with remainingPadding := c.remainingPadding - 1 }.settle, []) := by
      have hone : min c.remainingPadding.toNat 1 = 1 := by omega
      rw [feed, if_neg (not_idle_of_not_spent hlive), unpadTurn, if_neg (by omega),
        if_neg (by omega), if_pos hpos]
      simp [hone]
    rw [transduce_cons, hfeed]
    by_cases hend : bs = []
    · subst hend
      simp
    · have hmore : 0 < bs.length := length_pos_iff.mpr hend
      have hrest := ih (c := { c with remainingPadding := c.remainingPadding - 1 }) hc hcontent hend
        (by simp only; omega)
      rw [settle_of_not_spent fun hs => by unfold Spent at hs; simp only at hs; omega, hrest]
      have hsum : c.remainingPadding - 1 - bs.length = c.remainingPadding - (b :: bs).length := by
        rw [length_cons]
        omega
      simp only [hsum, append_nil]

/-- A turn of the loop is the machine run over the bytes the turn takes. -/
theorem feed_turn (hlive : ¬ c.Spent) (b : UInt8) (bs : Bytes) :
    transduce feed c (b :: bs) =
      ((transduce feed (unpadTurn c b bs).1.settle (unpadTurn c b bs).2.2).1,
        (unpadTurn c b bs).2.1 ++
          (transduce feed (unpadTurn c b bs).1.settle (unpadTurn c b bs).2.2).2) := by
  by_cases hcommand : 0 < c.remainingCommand
  · rw [transduce_cons, feed_header hcommand, unpadTurn, if_pos hcommand]
  have hlen : (b :: bs).length = bs.length + 1 := rfl
  by_cases hcontent : 0 < c.remainingContent
  · have hn : ((b :: bs).take (min c.remainingContent.toNat (b :: bs).length)).length =
        min c.remainingContent.toNat (b :: bs).length := by
      rw [length_take]
      omega
    have htaken :=
      feed_content (c := c) ((b :: bs).take (min c.remainingContent.toNat (b :: bs).length))
      (by omega) (ne_nil_of_length_pos (by rw [hn]; omega)) (by rw [hn]; omega)
    rw [hn] at htaken
    rw [unpadTurn, if_neg hcommand, if_pos hcontent]
    conv_lhs => rw [← take_append_drop (min c.remainingContent.toNat (b :: bs).length) (b :: bs)]
    rw [transduce_append, htaken]
  · have hpadding : 0 < c.remainingPadding := by
      unfold Spent at hlive
      omega
    have hn : ((b :: bs).take (min c.remainingPadding.toNat (b :: bs).length)).length =
        min c.remainingPadding.toNat (b :: bs).length := by
      rw [length_take]
      omega
    have htaken :=
      feed_padding (c := c) ((b :: bs).take (min c.remainingPadding.toNat (b :: bs).length))
      (by omega) (by omega) (ne_nil_of_length_pos (by rw [hn]; omega)) (by rw [hn]; omega)
    rw [hn] at htaken
    rw [unpadTurn, if_neg hcommand, if_neg hcontent, if_pos hpadding]
    conv_lhs => rw [← take_append_drop (min c.remainingPadding.toNat (b :: bs).length) (b :: bs)]
    rw [transduce_append, htaken]

end Counters

theorem unpadTurn_length {c : Counters} (hlive : ¬ c.Spent) (b : UInt8) (bs : Bytes) :
    (unpadTurn c b bs).2.2.length ≤ bs.length := by
  unfold unpadTurn
  split
  · exact le_refl _
  split
  · rw [length_drop, length_cons]
    omega
  split
  · rw [length_drop, length_cons]
    omega
  · exact absurd ⟨by omega, by omega, by omega⟩ hlive

theorem unpadLoop_eq_feed (fuel : Nat) {c : Counters} (hlive : ¬ c.Spent) (bs : Bytes)
    (hfuel : bs.length ≤ fuel) : unpadLoop fuel c bs = transduce Counters.feed c bs := by
  induction fuel generalizing c bs with
  | zero =>
    rw [length_eq_zero_iff.mp (Nat.le_zero.mp hfuel)]
    rfl
  | succ fuel ih =>
    cases bs with
    | nil => rfl
    | cons b bs =>
      have hle := unpadTurn_length hlive b bs
      rw [length_cons] at hfuel
      rw [Counters.feed_turn hlive, unpadLoop]
      simp only
      -- what follows the turn is the case split of `settle`
      unfold Counters.settle
      split
      · split
        · rw [ih (fun hs => by unfold Counters.Spent at hs; simp at hs) _ (by omega)]
        · rw [Counters.feed_idle (Counters.idle_idle _)]
      · rename_i hmore
        rw [ih hmore _ (by omega)]

-- ----
-- Frames

/-- A frame whose lengths fit into the two fields of the header. -/
structure Frame where
  command : VisionCommand
  content : Bytes
  padding : Bytes
  content_fits : content.length < 65536
  padding_fits : padding.length < 65536

namespace Frame

def header (f : Frame) : Bytes :=
  [f.command.value, UInt8.ofNat (f.content.length / 256), UInt8.ofNat f.content.length,
    UInt8.ofNat (f.padding.length / 256), UInt8.ofNat f.padding.length]

def bytes (f : Frame) : Bytes := frameBytes f.command.value f.content f.padding

theorem bytes_eq (f : Frame) : f.bytes = f.header ++ (f.content ++ f.padding) := by
  rw [bytes, frameBytes, append_assoc, header]

theorem length_bytes (f : Frame) : f.bytes.length = 5 + f.content.length + f.padding.length := by
  rw [bytes_eq, length_append, length_append]
  simp only [header, length_cons, length_nil]
  omega

/-- The places in the header of a frame where the counters read so far look as if
the frame had neither content nor padding. -/
def HeaderGap (f : Frame) (k : Nat) : Prop :=
  k = 1 ∨ (k = 2 ∧ f.content.length < 256) ∨ (k = 3 ∧ f.content.length = 0) ∨
    (k = 4 ∧ f.content.length = 0 ∧ f.padding.length < 256)

instance (f : Frame) (k : Nat) : Decidable (f.HeaderGap k) :=
  inferInstanceAs (Decidable (_ ∨ _))

end Frame

theorem highByte_toNat {n : Nat} (h : n < 65536) : (UInt8.ofNat (n / 256)).toNat = n / 256 := by
  rw [UInt8.toNat_ofNat']
  omega

theorem high_add_low (n : Nat) : ((n / 256 * 256 : Nat) : Int) + (UInt8.ofNat n).toNat = n := by
  rw [UInt8.toNat_ofNat']
  omega

namespace Counters

variable {c : Counters}

/-- Between two frames, or right behind the UUID. -/
structure Ready (c : Counters) : Prop where
  command : c.remainingCommand = 5
  content : c.remainingContent ≤ 0
  padding : c.remainingPadding ≤ 0
  current : c.currentCommand = 0

theorem Ready.not_spent (h : c.Ready) : ¬ c.Spent := by
  intro hs
  have := h.command
  unfold Spent at hs
  omega

def opened (f : Frame) : Counters :=
  { remainingCommand := 0
    remainingContent := f.content.length
    remainingPadding := f.padding.length
    currentCommand := f.command.value.toNat }

def closed (f : Frame) : Counters :=
  { opened f with remainingContent := 0, remainingPadding := 0 }

theorem feed_header_more (h : 1 < c.remainingCommand) (b : UInt8) :
    c.feed b = (c.header b, []) := by
  have hcommand : (c.header b).remainingCommand = c.remainingCommand - 1 := rfl
  rw [feed_header (by omega), settle_of_not_spent fun hs => by unfold Spent at hs; omega]

section

variable (content padding : Int) (command : Nat) (b : UInt8)

theorem feed_five : feed ⟨5, content, padding, command⟩ b = (⟨4, content, padding, b.toNat⟩, []) :=
  feed_header_more (by simp) b

theorem feed_four :
    feed ⟨4, content, padding, command⟩ b = (⟨3, (b.toNat * 256 : Nat), padding, command⟩, []) :=
  feed_header_more (by simp) b

theorem feed_three :
    feed ⟨3, content, padding, command⟩ b = (⟨2, content + b.toNat, padding, command⟩, []) :=
  feed_header_more (by simp) b

theorem feed_two :
    feed ⟨2, content, padding, command⟩ b = (⟨1, content, (b.toNat * 256 : Nat), command⟩, []) :=
  feed_header_more (by simp) b

theorem feed_one :
    feed ⟨1, content, padding, command⟩ b =
      (settle ⟨0, content, padding + b.toNat, command⟩, []) :=
  feed_header (by simp) b

end

theorem feed_header_take (h : c.remainingCommand = 5) (f : Frame) :
    (transduce feed c (f.header.take 1)).1 =
        ⟨4, c.remainingContent, c.remainingPadding, f.command.value.toNat⟩ ∧
      (transduce feed c (f.header.take 2)).1 =
        ⟨3, (f.content.length / 256 * 256 : Nat), c.remainingPadding, f.command.value.toNat⟩ ∧
      (transduce feed c (f.header.take 3)).1 =
        ⟨2, f.content.length, c.remainingPadding, f.command.value.toNat⟩ ∧
      (transduce feed c (f.header.take 4)).1 =
        ⟨1, f.content.length, (f.padding.length / 256 * 256 : Nat), f.command.value.toNat⟩ ∧
      transduce feed c f.header = ((opened f).settle, []) := by
  obtain ⟨command, content, padding, current⟩ := c
  simp only at h
  subst h
  simp only [Frame.header, take_succ_cons, take_zero, transduce_cons, transduce_nil,
    feed_five, feed_four, feed_three, feed_two, feed_one, highByte_toNat f.content_fits,
    highByte_toNat f.padding_fits, high_add_low]
  exact ⟨trivial, trivial, trivial, trivial, rfl⟩

theorem feed_body_take (f : Frame) {j : Nat} (hj : j < f.content.length + f.padding.length) :
    (transduce feed (opened f) ((f.content ++ f.padding).take j)).1 =
      { opened f with
        remainingContent := (f.content.length - j : Nat)
        remainingPadding := (f.padding.length - (j - f.content.length) : Nat) } := by
  have hbegin : ∀ i, 0 < i → i ≤ f.content.length → i < f.content.length + f.padding.length →
      transduce feed (opened f) (f.content.take i) =
        ({ opened f with remainingContent := (f.content.length - i : Nat) }, f.content.take i) := by
    intro i hpos hle hi
    have hlen : (f.content.take i).length = i := by rw [length_take]; omega
    have htaken := feed_content (c := opened f) (f.content.take i) (le_refl 0)
      (ne_nil_of_length_pos (by omega)) (by rw [hlen]; simp only [opened]; omega)
    have hleft : (opened f).remainingContent - (f.content.take i).length =
        (f.content.length - i : Nat) := by
      rw [hlen]
      simp only [opened]
      omega
    rw [htaken, hleft, settle_of_not_spent fun hs => by
      unfold Spent opened at hs
      simp only at hs
      omega]
  by_cases hle : j ≤ f.content.length
  · have hnone : j - f.content.length = 0 := by omega
    rw [take_append_of_le_length hle, hnone]
    rcases Nat.eq_zero_or_pos j with rfl | hpos
    · simp [opened]
    · rw [hbegin j hpos hle hj]
      simp [opened]
  · -- the content is read, and some of the padding
    have hlen : (f.padding.take (j - f.content.length)).length = j - f.content.length := by
      rw [length_take]
      omega
    have hread : transduce feed (opened f) f.content =
        ({ opened f with remainingContent := 0 }, f.content) := by
      by_cases hcontent : f.content = []
      · simp [hcontent, opened]
      · have hall := hbegin f.content.length (length_pos_iff.mpr hcontent) (le_refl _) (by omega)
        rwa [take_length, Nat.sub_self] at hall
    have htaken := feed_padding (c := { opened f with remainingContent := 0 })
      (f.padding.take (j - f.content.length)) (le_refl 0) (le_refl 0)
      (ne_nil_of_length_pos (by omega)) (by rw [hlen]; simp only [opened]; omega)
    have hleft : (opened f).remainingPadding - (f.padding.take (j - f.content.length)).length =
        (f.padding.length - (j - f.content.length) : Nat) := by
      rw [hlen]
      simp only [opened]
      omega
    have hgone : f.content.length - j = 0 := by omega
    rw [take_append, take_of_length_le (by omega), transduce_append, hread, htaken, hleft,
      hgone, settle_of_not_spent fun hs => by unfold Spent at hs; simp only at hs; omega]
    rfl

theorem feed_body (f : Frame) :
    transduce feed (opened f).settle (f.content ++ f.padding) = ((closed f).settle, f.content) := by
  by_cases hcontent : f.content = []
  · by_cases hpadding : f.padding = []
    · simp [hcontent, hpadding, closed, opened]
    · have hpos : 0 < f.padding.length := length_pos_iff.mpr hpadding
      rw [settle_of_not_spent fun hs => by unfold Spent opened at hs; simp only at hs; omega,
        hcontent, nil_append, feed_padding f.padding (le_refl 0) (by simp [opened, hcontent])
          hpadding (le_refl _)]
      simp [closed, opened, hcontent]
  · have hpos : 0 < f.content.length := length_pos_iff.mpr hcontent
    rw [settle_of_not_spent fun hs => by unfold Spent opened at hs; simp only at hs; omega,
      transduce_append, feed_content f.content (le_refl 0) hcontent (le_refl _)]
    by_cases hpadding : f.padding = []
    · simp [hpadding, closed, opened]
    · have hpos' : 0 < f.padding.length := length_pos_iff.mpr hpadding
      rw [settle_of_not_spent fun hs => by unfold Spent opened at hs; simp only at hs; omega,
        feed_padding f.padding (le_refl 0) (by simp [opened]) hpadding (le_refl _)]
      simp [closed, opened]

/-- **A whole frame** gives its content. -/
theorem feed_frame (h : c.remainingCommand = 5) (f : Frame) :
    transduce feed c f.bytes = ((closed f).settle, f.content) := by
  rw [Frame.bytes_eq, transduce_append, (feed_header_take h f).2.2.2.2, feed_body,
    nil_append]

theorem settle_closed_continue {f : Frame} (h : f.command = .paddingContinue) :
    (closed f).settle = ⟨5, 0, 0, 0⟩ := by
  simp [settle, closed, opened, Spent, h, VisionCommand.value]

theorem settle_closed_terminal {f : Frame} (h : f.command ≠ .paddingContinue) :
    (closed f).settle = ⟨-1, -1, -1, f.command.value.toNat⟩ := by
  cases hcommand : f.command with
  | paddingContinue => exact absurd hcommand h
  | paddingEnd => simp [settle, closed, opened, Spent, hcommand, VisionCommand.value, idle]
  | paddingDirect => simp [settle, closed, opened, Spent, hcommand, VisionCommand.value, idle]

/-- **Inside a frame** the command is known and the frame is not used up. Its
counters look used up at the gaps of the header only. -/
theorem feed_inside (h : c.Ready) (f : Frame) {k : Nat} (hpos : 0 < k) (hk : k < f.bytes.length) :
    (transduce feed c (f.bytes.take k)).1.currentCommand = f.command.value.toNat ∧
      ¬ (transduce feed c (f.bytes.take k)).1.Spent ∧
      ((transduce feed c (f.bytes.take k)).1.remainingContent ≤ 0 ∧
        (transduce feed c (f.bytes.take k)).1.remainingPadding ≤ 0 ↔ f.HeaderGap k) := by
  obtain ⟨hone, htwo, hthree, hfour, hfive⟩ := feed_header_take h.command f
  have hcontent := h.content
  have hpadding := h.padding
  have hlen := f.length_bytes
  have hheader : f.header.length = 5 := rfl
  rw [Frame.bytes_eq]
  by_cases hbody : k < 5
  · rw [take_append_of_le_length (by omega)]
    unfold Frame.HeaderGap
    obtain rfl | rfl | rfl | rfl : k = 1 ∨ k = 2 ∨ k = 3 ∨ k = 4 := by omega
    · rw [hone]
      refine ⟨rfl, by simp [Spent], ?_⟩
      show c.remainingContent ≤ 0 ∧ c.remainingPadding ≤ 0 ↔ _
      omega
    · rw [htwo]
      refine ⟨rfl, by simp [Spent], ?_⟩
      show ((f.content.length / 256 * 256 : Nat) : Int) ≤ 0 ∧ c.remainingPadding ≤ 0 ↔ _
      omega
    · rw [hthree]
      refine ⟨rfl, by simp [Spent], ?_⟩
      show (f.content.length : Int) ≤ 0 ∧ c.remainingPadding ≤ 0 ↔ _
      omega
    · rw [hfour]
      refine ⟨rfl, by simp [Spent], ?_⟩
      show (f.content.length : Int) ≤ 0 ∧ ((f.padding.length / 256 * 256 : Nat) : Int) ≤ 0 ↔ _
      omega
  · have hmore : ¬ (opened f).Spent := fun hs => by
      unfold Spent opened at hs
      simp only at hs
      omega
    rw [take_append, take_of_length_le (by omega), transduce_append, hfive,
      settle_of_not_spent hmore, hheader, feed_body_take f (by omega)]
    unfold Frame.HeaderGap
    refine ⟨rfl, fun hs => ?_, ?_⟩
    · unfold Spent at hs
      simp only at hs
      omega
    · simp only
      omega

theorem ready_between : Ready ⟨5, 0, 0, 0⟩ := ⟨rfl, le_refl 0, le_refl 0, rfl⟩

/-- A run of frames that go on gives their contents. -/
theorem feed_frames (h : c.Ready) {fs : List Frame} (hfs : ∀ f ∈ fs, f.command = .paddingContinue) :
    (transduce feed c (fs.map Frame.bytes).flatten).1.Ready ∧
      (transduce feed c (fs.map Frame.bytes).flatten).2 = (fs.map Frame.content).flatten := by
  induction fs generalizing c with
  | nil => exact ⟨h, rfl⟩
  | cons f fs ih =>
    obtain ⟨hready, hout⟩ := ih ready_between fun g hg => hfs g (mem_cons_of_mem f hg)
    rw [map_cons, flatten_cons, transduce_append, feed_frame h.command,
      settle_closed_continue (hfs f mem_cons_self), map_cons, flatten_cons]
    exact ⟨hready, by rw [hout]⟩

/-- Inside such a run, too, the counters do not look used up. -/
theorem feed_frames_take (h : c.Ready) {fs : List Frame}
    (hfs : ∀ f ∈ fs, f.command = .paddingContinue) (k : Nat) :
    (transduce feed c ((fs.map Frame.bytes).flatten.take k)).1.currentCommand = 0 ∧
      ¬ (transduce feed c ((fs.map Frame.bytes).flatten.take k)).1.Spent := by
  induction fs generalizing c k with
  | nil => simpa using ⟨h.current, h.not_spent⟩
  | cons f fs ih =>
    have hf := hfs f mem_cons_self
    rw [map_cons, flatten_cons]
    by_cases hin : k < f.bytes.length
    · rw [take_append_of_le_length (by omega)]
      rcases Nat.eq_zero_or_pos k with rfl | hpos
      · exact ⟨h.current, h.not_spent⟩
      · obtain ⟨hcurrent, hmore, -⟩ := feed_inside h f hpos hin
        rw [hf] at hcurrent
        exact ⟨hcurrent, hmore⟩
    · rw [take_append, take_of_length_le (by omega), transduce_append, feed_frame h.command,
        settle_closed_continue hf]
      exact ih ready_between (fun g hg => hfs g (mem_cons_of_mem f hg)) _

end Counters

end Anywhere.Vless
