import Mathlib.Logic.Relation
import Anywhere.Grpc.Tunnel
import Anywhere.Naive.HpackRange

/-!
# Anywhere — `GrpcConnection`: whether the decoding of a message ends

A length in a message is a `Long` narrowed to an `Int`, and it is added to the offset before it is
compared with the size. Where the sum wraps, or the length is negative, the check lets it pass: the
offset goes back, or a part of the array is asked for that there is not.

* `grpc_decoding_iff` — these and the DATA frames that hold such messages only.
-/

namespace Anywhere.Grpc

open Lib List
open Naive (int32 uint32 int32_of_nat int32_of_fits int32_of_large fits_int32)

-- ----
-- Turns

/-- One turn of `decodeHunkPayload`: the offset and `out`. -/
def Turn (message : Bytes) (s s' : Int × Bytes) : Prop :=
  s.1 < message.length ∧ decodeField message s.1 s.2 = .ok s'

/-- Every turn from here on moves the offset on. -/
def AdvancesFrom (message : Bytes) (s : Int × Bytes) : Prop :=
  ∀ s₁ s₂, Relation.ReflTransGen (Turn message) s s₁ → Turn message s₁ s₂ → s₁.1 < s₂.1

/-- Nothing is raised but a `GrpcError`. -/
def Settled {α : Type} (r : Except Failure α) : Prop := ∀ e, r = .error e → e.isGrpcError = true

/-- `decodeHunkPayload` ends, with the payload or a `GrpcError`, and its offset increases in every
turn. -/
def HunkSettles (message : Bytes) : Prop :=
  (∃ turns, Settled (decodeHunkPayload message turns 0 [])) ∧ AdvancesFrom message (0, [])

theorem settled_ok {α : Type} (a : α) : Settled (.ok a) := by
  rintro _ ⟨⟩

theorem not_settled_running {α : Type} : ¬ Settled (.error .running : Except Failure α) :=
  fun h => absurd (h _ rfl) Bool.false_ne_true

variable {turns offset fuel : Nat} {message : Bytes}

/-- More turns change nothing. -/
theorem decodeHunkPayload_mono {offset : Int} {out : Bytes}
    (h : decodeHunkPayload message turns offset out ≠ .error .running) {more : Nat}
    (hmore : turns ≤ more) :
    decodeHunkPayload message more offset out = decodeHunkPayload message turns offset out := by
  induction turns generalizing more offset out with
  | zero => exact absurd rfl h
  | succ turns ih =>
    obtain ⟨more, rfl⟩ : ∃ n, more = n + 1 := ⟨more - 1, by omega⟩
    rw [decodeHunkPayload] at h
    rw [decodeHunkPayload, decodeHunkPayload]
    split
    · rename_i hinside
      rw [if_pos hinside] at h
      cases hfield : decodeField message offset out with
      | error e => rfl
      | ok s =>
        rw [hfield] at h
        exact ih h (Nat.le_of_succ_le_succ hmore)
    · rfl

-- ----
-- The walk over the fields

/-- What a field is in integers that do not wrap: `unfit` where the decoder goes wrong. -/
inductive Walked where
  | unfit
  | rejected
  | next (offset : Nat)
  deriving Repr

/-- A field that begins and ends here. -/
def walkTo (message : Bytes) (start : Nat) (stop : Int) : Walked :=
  if 0x80000000 ≤ stop then .unfit
  else if (message.length : Int) < stop then .rejected
  else if stop ≤ start then .unfit
  else .next stop.toNat

def walkField (message : Bytes) (offset : Nat) : Walked :=
  match varintLoop 0 0 0 (message.drop offset) with
  | none => .rejected
  | some (tag, tagConsumed) =>
    match tag % 8 with
    | 2 =>
      match varintLoop 0 0 0 (message.drop (offset + tagConsumed)) with
      | none => .rejected
      | some (length, lenConsumed) =>
        -- the length as an `Int`, and the end as none
        if int32 ((tag / 8 : Nat) : Int) = 1 ∧ int32 length < 0 then .unfit
        else walkTo message offset ((offset + tagConsumed + lenConsumed : Nat) + int32 length)
    | 0 =>
      match varintLoop 0 0 0 (message.drop (offset + tagConsumed)) with
      | none => .rejected
      | some (_, vConsumed) => .next (offset + tagConsumed + vConsumed)
    | 5 => walkTo message offset ((offset + tagConsumed : Nat) + (4 : Nat))
    | 1 => walkTo message offset ((offset + tagConsumed : Nat) + (8 : Nat))
    | _ => .rejected

/-- The fields one after another: none where one is unfit, otherwise whether the message is well
formed. -/
def walkFields (message : Bytes) : Nat → Nat → Option Bool
  | 0, _ => some true
  | fuel + 1, offset =>
    if offset < message.length then
      match walkField message offset with
      | .unfit => none
      | .rejected => some false
      | .next offset => walkFields message fuel offset
    else some true

def FieldsFit (message : Bytes) : Prop := walkFields message (message.length + 1) 0 ≠ none

-- ----
-- One field

theorem varintLoop_count {value shift count : Nat} {rest : Bytes} {r : Nat × Nat}
    (h : varintLoop value shift count rest = some r) : count < r.2 ∧ r.2 ≤ count + rest.length := by
  induction rest generalizing value shift count with
  | nil => cases h
  | cons b rest ih =>
    rw [varintLoop] at h
    rw [length_cons]
    split at h
    · rw [← Option.some.inj h]
      omega
    · split at h
      · cases h
      · have := ih h
        omega

theorem varintDecode_nat (message : Bytes) (offset : Nat) :
    varintDecode message offset = .ok (varintLoop 0 0 0 (message.drop offset)) := by
  rw [varintDecode, if_neg (by omega), Int.toNat_natCast]

/-- What the decoder does with a field, for each thing the walk says of it. -/
inductive Does (offset size : Nat) : Except Failure (Int × Bytes) → Walked → Prop
  | raises {e : Failure} (h : e.isGrpcError = false) : Does offset size (.error e) .unfit
  | back {s : Int × Bytes} (h : s.1 ≤ offset) : Does offset size (.ok s) .unfit
  | rejected {e : Failure} (h : e.isGrpcError = true) : Does offset size (.error e) .rejected
  | next {stop : Nat} {out : Bytes} (h : offset < stop) (h' : stop ≤ size) :
    Does offset size (.ok ((stop : Int), out)) (.next stop)

/-- The wrapped end of a field of a fixed size. -/
theorem skipFixed_does (hsize : message.length < 0x80000000) {start : Nat} (hstart : start < offset)
    (hoffset : offset ≤ message.length) {size : Nat} (hfixed : size ≤ 8) (what : String)
    (out : Bytes) :
    Does start message.length (skipFixed message offset size what out)
      (walkTo message start ((offset : Int) + (size : Int))) := by
  rw [skipFixed, walkTo]
  by_cases hlarge : 0x80000000 ≤ (offset : Int) + (size : Int)
  · rw [if_pos hlarge, int32_of_large (by omega) (by omega), if_neg (by omega)]
    exact .back (by dsimp only; omega)
  · rw [if_neg hlarge, int32_of_fits (by omega) (by omega)]
    by_cases hbeyond : (message.length : Int) < (offset : Int) + (size : Int)
    · rw [if_pos hbeyond, if_pos hbeyond]
      exact .rejected rfl
    · rw [if_neg hbeyond, if_neg hbeyond, if_neg (by omega)]
      rw [← Int.natCast_add, Int.toNat_natCast]
      exact .next (by omega) (by omega)

theorem lengthDelimited_does (hsize : message.length < 0x80000000) {start : Nat}
    (hstart : start < offset) (hoffset : offset ≤ message.length) (fieldNumber : Int)
    {length lenConsumed : Nat}
    (hlength : varintLoop 0 0 0 (message.drop offset) = some (length, lenConsumed)) (out : Bytes) :
    Does start message.length (decodeLengthDelimited message fieldNumber offset out)
      (if fieldNumber = 1 ∧ int32 length < 0 then .unfit
        else walkTo message start ((offset + lenConsumed : Nat) + int32 length)) := by
  obtain ⟨hcount, hcount'⟩ := varintLoop_count hlength
  dsimp only at hcount hcount'
  rw [length_drop] at hcount'
  have hbehind : int32 ((offset : Int) + (lenConsumed : Int)) =
      ((offset + lenConsumed : Nat) : Int) := by
    rw [← Int.natCast_add]
    exact int32_of_nat (by omega)
  obtain ⟨hlow, hhigh⟩ := fits_int32 (length : Int)
  rw [decodeLengthDelimited, varintDecode_nat, hlength]
  dsimp only
  rw [hbehind]
  generalize int32 (length : Int) = lenInt at hlow hhigh ⊢
  rw [walkTo]
  by_cases hlarge : 0x80000000 ≤ ((offset + lenConsumed : Nat) : Int) + lenInt
  · -- the end wraps
    have hpositive : ¬ (fieldNumber = 1 ∧ lenInt < 0) := fun h => absurd h.2 (by omega)
    have hpasses : ¬ (message.length : Int) < ((offset + lenConsumed : Nat) : Int) + lenInt -
        0x100000000 := by omega
    rw [if_neg hpositive, if_pos hlarge, int32_of_large (by omega) (by omega), if_neg hpasses]
    by_cases hfield : fieldNumber = 1
    · rw [if_pos hfield, if_pos (.inr (.inr (by omega)))]
      exact .raises rfl
    · rw [if_neg hfield]
      exact .back (by dsimp only; omega)
  · rw [if_neg hlarge, int32_of_fits (by omega) (by omega)]
    by_cases hbeyond : (message.length : Int) < ((offset + lenConsumed : Nat) : Int) + lenInt
    · have hpositive : ¬ (fieldNumber = 1 ∧ lenInt < 0) := fun h => absurd h.2 (by omega)
      rw [if_neg hpositive, if_pos hbeyond, if_pos hbeyond]
      exact .rejected rfl
    · rw [if_neg hbeyond, if_neg hbeyond]
      by_cases hnegative : lenInt < 0
      · by_cases hfield : fieldNumber = 1
        · have hwrong : fieldNumber = 1 ∧ lenInt < 0 := ⟨hfield, hnegative⟩
          rw [if_pos hwrong, if_pos hfield, if_pos (.inr (.inl hnegative))]
          exact .raises rfl
        · have hother : ¬ (fieldNumber = 1 ∧ lenInt < 0) := fun h => hfield h.1
          rw [if_neg hother, if_neg hfield]
          by_cases hback : ((offset + lenConsumed : Nat) : Int) + lenInt ≤ (start : Int)
          · rw [if_pos hback]
            exact .back hback
          · rw [if_neg hback]
            obtain ⟨stop, hstop⟩ : ∃ stop : Nat, ((offset + lenConsumed : Nat) : Int) +
                lenInt = stop :=
              Int.eq_ofNat_of_zero_le (by omega)
            rw [hstop, Int.toNat_natCast]
            exact .next (by omega) (by omega)
      · obtain ⟨stop, hstop⟩ : ∃ stop : Nat, ((offset + lenConsumed : Nat) : Int) + lenInt = stop :=
          Int.eq_ofNat_of_zero_le (by omega)
        have hon : ¬ ((offset + lenConsumed : Nat) : Int) + lenInt ≤ (start : Int) := by omega
        have hpositive : ¬ (fieldNumber = 1 ∧ lenInt < 0) := fun h => hnegative h.2
        rw [if_neg hpositive, if_neg hon]
        by_cases hfield : fieldNumber = 1
        · rw [if_pos hfield, if_neg (by omega)]
          rw [hstop, Int.toNat_natCast]
          exact .next (by omega) (by omega)
        · rw [if_neg hfield]
          rw [hstop, Int.toNat_natCast]
          exact .next (by omega) (by omega)

/-- One field, with its end in integers that do not wrap. -/
theorem walkField_spec (hsize : message.length < 0x80000000)
    (hoffset : offset < message.length) (out : Bytes) :
    Does offset message.length (decodeField message offset out) (walkField message offset) := by
  rw [decodeField, walkField, varintDecode_nat]
  rcases htag : varintLoop 0 0 0 (message.drop offset) with _ | ⟨tag, tagConsumed⟩
  · exact .rejected rfl
  · obtain ⟨hcount, hcount'⟩ := varintLoop_count htag
    dsimp only at hcount hcount' ⊢
    rw [length_drop] at hcount'
    have hbehind : int32 ((offset : Int) + (tagConsumed : Int)) =
        ((offset + tagConsumed : Nat) : Int) := by
      rw [← Int.natCast_add]
      exact int32_of_nat (by omega)
    rw [hbehind]
    generalize tag % 8 = wireType
    have hstart : offset < offset + tagConsumed := by omega
    have hwithin : offset + tagConsumed ≤ message.length := by omega
    have hcases : wireType = 2 ∨ wireType = 0 ∨ wireType = 5 ∨ wireType = 1 ∨ wireType = 3 ∨
        wireType = 4 ∨
        wireType = 6 ∨ ∃ n, wireType = n + 7 := by
      by_cases hlarge : 7 ≤ wireType
      · exact .inr (.inr (.inr (.inr (.inr (.inr (.inr ⟨wireType - 7, by omega⟩))))))
      · omega
    obtain rfl | rfl | rfl | rfl | rfl | rfl | rfl | ⟨n, rfl⟩ := hcases
    · simp only
      rcases hlength : varintLoop 0 0 0 (message.drop (offset + tagConsumed)) with _ |
        ⟨length, lenConsumed⟩
      · rw [decodeLengthDelimited, varintDecode_nat, hlength]
        exact .rejected rfl
      · exact lengthDelimited_does hsize hstart hwithin _ hlength out
    · simp only
      rw [varintDecode_nat]
      rcases hvalue : varintLoop 0 0 0 (message.drop (offset + tagConsumed)) with _ |
        ⟨value, vConsumed⟩
      · exact .rejected rfl
      · obtain ⟨hpos, hle⟩ := varintLoop_count hvalue
        dsimp only at hpos hle ⊢
        rw [length_drop] at hle
        have hstop : int32 (((offset + tagConsumed : Nat) : Int) + (vConsumed : Int)) =
            ((offset + tagConsumed + vConsumed : Nat) : Int) := by
          rw [← Int.natCast_add]
          exact int32_of_nat (by omega)
        rw [hstop]
        exact .next (by omega) (by omega)
    · simp only
      exact skipFixed_does hsize hstart hwithin (by decide) "fixed32" out
    · simp only
      exact skipFixed_does hsize hstart hwithin (by decide) "fixed64" out
    · exact .rejected rfl
    · exact .rejected rfl
    · exact .rejected rfl
    · exact .rejected rfl

-- ----
-- A message

theorem advancesFrom_of_stuck {s : Int × Bytes} (h : ∀ s', ¬ Turn message s s') :
    AdvancesFrom message s := by
  intro s₁ s₂ hvisit hturn
  rcases Relation.ReflTransGen.cases_head hvisit with rfl | ⟨s', hfirst, -⟩
  · exact absurd hturn (h s₂)
  · exact absurd hfirst (h s')

theorem advancesFrom_of_turn {s s' : Int × Bytes} (hturn : Turn message s s') (hlt : s.1 < s'.1)
    (h : AdvancesFrom message s') : AdvancesFrom message s := by
  have hunique : ∀ s₂, Turn message s s₂ → s₂ = s' := fun s₂ hother =>
    Except.ok.inj (hother.2.symm.trans hturn.2)
  intro s₁ s₂ hvisit hnext
  rcases Relation.ReflTransGen.cases_head hvisit with rfl | ⟨s'', hfirst, hrest⟩
  · rw [hunique s₂ hnext]
    exact hlt
  · rw [hunique s'' hfirst] at hrest
    exact h s₁ s₂ hrest hnext

/-- **Where every field fits**, the decoding ends within the turns there are bytes for. -/
theorem walkFields_some (hsize : message.length < 0x80000000)
    (hfuel : message.length < fuel + offset) {wellFormed : Bool}
    (h : walkFields message fuel offset = some wellFormed) (hoffset : offset ≤ message.length)
    (out : Bytes) :
    Settled (decodeHunkPayload message fuel offset out) ∧
      (decodeHunkPayload message fuel offset out).isOk = wellFormed ∧
        AdvancesFrom message (offset, out) := by
  induction fuel generalizing offset out with
  | zero => omega
  | succ fuel ih =>
    rw [walkFields] at h
    rw [decodeHunkPayload]
    by_cases hinside : offset < message.length
    · rw [if_pos hinside] at h
      rw [if_pos (by omega)]
      have hturn : ∀ {s}, decodeField message offset out = .ok s → Turn message (offset, out) s :=
        fun heq =>
        ⟨by dsimp only; omega, heq⟩
      have hdoes := walkField_spec hsize hinside out
      generalize hfield : decodeField message offset out = r at hdoes hturn ⊢
      generalize walkField message offset = w at hdoes h
      cases hdoes with
      | raises => cases h
      | back => cases h
      | rejected hgrpc =>
        rename_i e
        refine ⟨fun e' he => ?_, Option.some.inj h, advancesFrom_of_stuck fun s hs => ?_⟩
        · rw [← Except.error.inj he]
          exact hgrpc
        · cases hfield.symm.trans hs.2
      | next hlt hle =>
        rename_i stop out'
        obtain ⟨hsettled, hok, hadvances⟩ := ih (by omega) h hle out'
        refine ⟨hsettled, hok, advancesFrom_of_turn (hturn rfl) ?_ hadvances⟩
        dsimp only
        omega
    · rw [if_neg hinside] at h
      rw [if_neg (by omega)]
      refine ⟨settled_ok out, Option.some.inj h, advancesFrom_of_stuck fun s hs => ?_⟩
      have hbelow : (offset : Int) < message.length := hs.1
      omega

/-- **Where one is unfit**, it does not settle, or goes back. -/
theorem walkFields_none (hsize : message.length < 0x80000000)
    (h : walkFields message fuel offset = none) (out : Bytes)
    (hsettled : Settled (decodeHunkPayload message turns offset out)) :
    ¬ AdvancesFrom message (offset, out) := by
  induction fuel generalizing offset out turns with
  | zero => cases h
  | succ fuel ih =>
    rw [walkFields] at h
    by_cases hinside : offset < message.length
    · rw [if_pos hinside] at h
      rcases turns with _ | turns
      · exact absurd hsettled not_settled_running
      · rw [decodeHunkPayload, if_pos (by omega)] at hsettled
        have hturn : ∀ {s}, decodeField message offset out = .ok s → Turn message (offset, out) s :=
          fun heq =>
          ⟨by dsimp only; omega, heq⟩
        have hdoes := walkField_spec hsize hinside out
        generalize decodeField message offset out = r at hdoes hturn hsettled
        generalize walkField message offset = w at hdoes h
        cases hdoes with
        | raises hnot =>
          rw [hsettled _ rfl] at hnot
          cases hnot
        | back hback =>
          intro hadvances
          have hlt : (offset : Int) < _ := hadvances _ _ .refl (hturn rfl)
          omega
        | rejected => cases h
        | next hlt hle =>
          intro hadvances
          refine ih h _ hsettled fun s₁ s₂ hvisit => hadvances s₁ s₂ (.head (hturn rfl) hvisit)
    · rw [if_neg hinside] at h
      cases h

/-- **The messages whose decoding ends**, with every turn further on. -/
theorem hunkSettles_iff (hsize : message.length < 0x80000000) :
    HunkSettles message ↔ FieldsFit message := by
  constructor
  · rintro ⟨⟨turns, hsettled⟩, hadvances⟩ hnone
    exact walkFields_none hsize hnone [] hsettled hadvances
  · intro hfit
    obtain ⟨wellFormed, hwalk⟩ := Option.ne_none_iff_exists'.mp hfit
    obtain ⟨hsettled, -, hadvances⟩ := walkFields_some hsize (by omega) hwalk (Nat.zero_le _) []
    exact ⟨⟨_, hsettled⟩, hadvances⟩

-- ----
-- A DATA frame

/-- The messages `handleDataFrame` hands to `decodeHunkPayload`. -/
def decodedMessages (turns : Nat) : Nat → Bytes → List Bytes
  | 0, _ => []
  | fuel + 1, buffer =>
    match buffer with
    | compressed :: l0 :: l1 :: l2 :: l3 :: rest =>
      let total := int32 (5 + int32 (uint32 l0 l1 l2 l3))
      if (buffer.length : Int) < total ∨ total < 5 ∨ compressed ≠ 0 then []
      else
        rest.take (total - 5).toNat ::
          match decodeHunkPayload (rest.take (total - 5).toNat) turns 0 [] with
          | .error _ => []
          | .ok _ => decodedMessages turns fuel (rest.drop (total - 5).toNat)
    | _ => []

/-- What `handleDataFrame` takes messages from. -/
def reassembled (frame : RawFrame) (isOurStream : Bool) (c : GrpcConnection) : Bytes :=
  if isOurStream = false ∨
      (frame.payload ≠ [] ∧ maxGrpcFrameBufferSize < (c.grpcFrameBuffer ++ frame.payload).length)
        then []
  else c.grpcFrameBuffer ++ frame.payload

/-- `handleDataFrame` raises nothing but a `GrpcError`, and the offset increases in every turn of
the calls it makes. -/
def FrameSettles (frame : RawFrame) (isOurStream : Bool) (c : GrpcConnection) : Prop :=
  ∃ turns, Settled (handleDataFrame turns frame isOurStream c).2 ∧
    ∀ message ∈ decodedMessages turns (reassembled frame isOurStream c).length
      (reassembled frame isOurStream c),
      AdvancesFrom message (0, [])

/-- No length in the buffer is too large for an `Int` with the prefix, and no field of the messages
is unfit, up to the first that is rejected. -/
def bufferFits : Nat → Bytes → Bool
  | 0, _ => true
  | fuel + 1, compressed :: l0 :: l1 :: l2 :: l3 :: rest =>
    if 0x80000000 ≤ 5 + uint32 l0 l1 l2 l3 then false
    else if rest.length < uint32 l0 l1 l2 l3 then true
    else if compressed ≠ 0 then true
    else
      match walkFields (rest.take (uint32 l0 l1 l2 l3))
        ((rest.take (uint32 l0 l1 l2 l3)).length + 1) 0 with
      | none => false
      | some false => true
      | some true => bufferFits fuel (rest.drop (uint32 l0 l1 l2 l3))
  | _ + 1, _ => true

def FrameFits (frame : RawFrame) (isOurStream : Bool) (c : GrpcConnection) : Prop :=
  bufferFits (reassembled frame isOurStream c).length (reassembled frame isOurStream c) = true

theorem uint32_lt (l0 l1 l2 l3 : UInt8) : uint32 l0 l1 l2 l3 < 0x100000000 := by
  have h0 := l0.toNat_lt
  have h1 := l1.toNat_lt
  have h2 := l2.toNat_lt
  have h3 := l3.toNat_lt
  unfold uint32
  omega

/-- A length that leaves no room for the prefix: the end of the copy is before its start. -/
theorem total_of_large {length : Nat} (h : 0x80000000 ≤ 5 + length) (hlt : length < 0x100000000) :
    int32 (5 + int32 length) < 5 := by
  by_cases hsmall : length < 0x80000000
  · rw [int32_of_nat hsmall, int32_of_large (by omega) (by omega)]
    omega
  · rw [int32_of_large (n := (length : Int)) (by omega) (by omega),
      int32_of_fits (by omega) (by omega)]
    omega

/-- What the loop over the messages ends with. -/
def Kept (e : Option Failure) : Prop := ∀ f, e = some f → f.isGrpcError = true

theorem kept_none : Kept none := by
  rintro _ ⟨⟩

theorem isOk_of_settled (hsize : message.length < 0x80000000) {wellFormed : Bool}
    (hwalk : walkFields message (message.length + 1) 0 = some wellFormed)
    (h : Settled (decodeHunkPayload message turns 0 [])) :
    (decodeHunkPayload message turns 0 []).isOk = wellFormed := by
  obtain ⟨hsettled, hok, -⟩ := walkFields_some hsize (by omega) hwalk (Nat.zero_le _) []
  have hrunning : ∀ {n}, Settled (decodeHunkPayload message n 0 []) →
      decodeHunkPayload message n 0 [] ≠ .error .running := by
    intro n hn heq
    rw [heq] at hn
    exact not_settled_running hn
  rcases Nat.le_total turns (message.length + 1) with hle | hle
  · rw [← decodeHunkPayload_mono (hrunning h) hle]
    exact hok
  · rw [decodeHunkPayload_mono (hrunning hsettled) hle]
    exact hok

section Turns

variable {turns fuel : Nat} {compressed l0 l1 l2 l3 : UInt8} {rest out : Bytes}

theorem total_of_small (h : ¬ 0x80000000 ≤ 5 + uint32 l0 l1 l2 l3) :
    int32 (5 + int32 (uint32 l0 l1 l2 l3)) = 5 + (uint32 l0 l1 l2 l3 : Int) := by
  rw [int32_of_nat (n := uint32 l0 l1 l2 l3) (by omega), int32_of_fits (by omega) (by omega)]

theorem extractMessages_large (h : 0x80000000 ≤ 5 + uint32 l0 l1 l2 l3) :
    (extractMessages turns (fuel + 1) (compressed :: l0 :: l1 :: l2 :: l3 :: rest) out).2.2 =
      some .illegalArgument := by
  have htotal := total_of_large h (uint32_lt l0 l1 l2 l3)
  rw [extractMessages]
  dsimp only
  rw [if_neg (by simp only [length_cons]; omega), if_pos htotal]

theorem extractMessages_small (h : ¬ 0x80000000 ≤ 5 + uint32 l0 l1 l2 l3) :
    (extractMessages turns (fuel + 1) (compressed :: l0 :: l1 :: l2 :: l3 :: rest) out).2.2 =
      if rest.length < uint32 l0 l1 l2 l3 then none
      else if compressed ≠ 0 then some .compressedMessageUnsupported
      else
        match decodeHunkPayload (rest.take (uint32 l0 l1 l2 l3)) turns 0 [] with
        | .error e => some e
        | .ok payload =>
            (extractMessages turns fuel (rest.drop (uint32 l0 l1 l2 l3)) (out ++ payload)).2.2 := by
  have htotal := total_of_small h
  have hcount : (5 + (uint32 l0 l1 l2 l3 : Int) - 5).toNat = uint32 l0 l1 l2 l3 := by omega
  rw [extractMessages]
  dsimp only
  rw [htotal, hcount]
  by_cases hpart : rest.length < uint32 l0 l1 l2 l3
  · rw [if_pos (by simp only [length_cons]; omega), if_pos hpart]
  · rw [if_neg (by simp only [length_cons]; omega), if_neg (by omega), if_neg hpart]
    by_cases hflag : compressed ≠ 0
    · rw [if_pos hflag, if_pos hflag]
    · rw [if_neg hflag, if_neg hflag]
      cases decodeHunkPayload (rest.take (uint32 l0 l1 l2 l3)) turns 0 [] <;> rfl

theorem decodedMessages_small (h : ¬ 0x80000000 ≤ 5 + uint32 l0 l1 l2 l3) :
    decodedMessages turns (fuel + 1) (compressed :: l0 :: l1 :: l2 :: l3 :: rest) =
      if rest.length < uint32 l0 l1 l2 l3 ∨ compressed ≠ 0 then []
      else
        rest.take (uint32 l0 l1 l2 l3) ::
          match decodeHunkPayload (rest.take (uint32 l0 l1 l2 l3)) turns 0 [] with
          | .error _ => []
          | .ok _ => decodedMessages turns fuel (rest.drop (uint32 l0 l1 l2 l3)) := by
  have htotal := total_of_small h
  have hcount : (5 + (uint32 l0 l1 l2 l3 : Int) - 5).toNat = uint32 l0 l1 l2 l3 := by omega
  have hpart : (((compressed :: l0 :: l1 :: l2 :: l3 :: rest).length : Int) < 5 +
      (uint32 l0 l1 l2 l3 : Int)) =
      (rest.length < uint32 l0 l1 l2 l3) := by
    simp only [length_cons, eq_iff_iff]
    omega
  have hlow : (5 + (uint32 l0 l1 l2 l3 : Int) < 5) = False := by
    rw [eq_iff_iff, iff_false]
    omega
  rw [decodedMessages, htotal, hcount]
  simp only [hpart, hlow, false_or]

end Turns

theorem buffer_cases (buffer : Bytes) :
    (∃ compressed l0 l1 l2 l3 rest, buffer = compressed :: l0 :: l1 :: l2 :: l3 :: rest) ∨
      buffer.length < 5 := by
  rcases buffer with _ | ⟨b0, _ | ⟨b1, _ | ⟨b2, _ | ⟨b3, _ | ⟨b4, rest⟩⟩⟩⟩⟩
  · exact .inr (by decide)
  · exact .inr (by simp only [length_cons, length_nil]; omega)
  · exact .inr (by simp only [length_cons, length_nil]; omega)
  · exact .inr (by simp only [length_cons, length_nil]; omega)
  · exact .inr (by simp only [length_cons, length_nil]; omega)
  · exact .inl ⟨b0, b1, b2, b3, b4, rest, rfl⟩

theorem short_buffer {turns fuel : Nat} {buffer : Bytes} (h : buffer.length < 5) (out : Bytes) :
    bufferFits fuel buffer = true ∧ (extractMessages turns fuel buffer out).2.2 = none ∧
      decodedMessages turns fuel buffer = [] := by
  rcases fuel with _ | fuel
  · exact ⟨rfl, rfl, rfl⟩
  · rcases buffer with _ | ⟨b0, _ | ⟨b1, _ | ⟨b2, _ | ⟨b3, _ | ⟨b4, rest⟩⟩⟩⟩⟩
    · exact ⟨rfl, rfl, rfl⟩
    · exact ⟨rfl, rfl, rfl⟩
    · exact ⟨rfl, rfl, rfl⟩
    · exact ⟨rfl, rfl, rfl⟩
    · exact ⟨rfl, rfl, rfl⟩
    · simp only [length_cons] at h
      omega

theorem bufferFits_of_kept {buffer : Bytes} (hsize : buffer.length < 0x80000000) {out : Bytes}
    (hkept : Kept (extractMessages turns fuel buffer out).2.2)
    (hadvances : ∀ message ∈ decodedMessages turns fuel buffer, AdvancesFrom message (0, [])) :
    bufferFits fuel buffer = true := by
  induction fuel generalizing buffer out with
  | zero => rfl
  | succ fuel ih =>
    rcases buffer_cases buffer with ⟨compressed, l0, l1, l2, l3, rest, rfl⟩ | hshort
    · rw [bufferFits]
      by_cases hlarge : 0x80000000 ≤ 5 + uint32 l0 l1 l2 l3
      · exact absurd (hkept _ (extractMessages_large hlarge)) Bool.false_ne_true
      · rw [if_neg hlarge]
        rw [extractMessages_small hlarge] at hkept
        rw [decodedMessages_small hlarge] at hadvances
        by_cases hpart : rest.length < uint32 l0 l1 l2 l3
        · rw [if_pos hpart]
        · rw [if_neg hpart] at hkept ⊢
          by_cases hflag : compressed ≠ 0
          · rw [if_pos hflag]
          · have hboth : ¬ (rest.length < uint32 l0 l1 l2 l3 ∨ compressed ≠ 0) :=
              not_or.mpr ⟨hpart, hflag⟩
            rw [if_neg hflag] at hkept ⊢
            rw [if_neg hboth] at hadvances
            simp only [length_cons] at hsize
            have hmessage : (rest.take (uint32 l0 l1 l2 l3)).length < 0x80000000 :=
              Nat.lt_of_le_of_lt (length_take_le _ _) (by omega)
            have hsettled : Settled
                (decodeHunkPayload (rest.take (uint32 l0 l1 l2 l3)) turns 0 []) := by
              intro e he
              rw [he] at hkept
              exact hkept e rfl
            have hfit : FieldsFit (rest.take (uint32 l0 l1 l2 l3)) :=
              (hunkSettles_iff hmessage).mp ⟨⟨turns, hsettled⟩, hadvances _ mem_cons_self⟩
            obtain ⟨wellFormed, hwalk⟩ := Option.ne_none_iff_exists'.mp hfit
            have hok := isOk_of_settled hmessage hwalk hsettled
            rw [hwalk]
            cases wellFormed with
            | false => rfl
            | true =>
              cases hdecoded : decodeHunkPayload (rest.take (uint32 l0 l1 l2 l3)) turns 0 [] with
              | error e =>
                rw [hdecoded] at hok
                exact absurd hok Bool.false_ne_true
              | ok payload =>
                rw [hdecoded] at hkept hadvances
                refine ih ?_ hkept fun message hmem => hadvances message (mem_cons_of_mem _ hmem)
                rw [length_drop]
                omega
    · exact (@short_buffer turns _ _ hshort out).1

/-- A buffer that fits is run over cleanly, with turns enough for its longest message. -/
theorem kept_of_bufferFits {buffer : Bytes} (hsize : buffer.length < 0x80000000)
    (hturns : buffer.length < turns) (h : bufferFits fuel buffer = true) (out : Bytes) :
    Kept (extractMessages turns fuel buffer out).2.2 ∧
      ∀ message ∈ decodedMessages turns fuel buffer, AdvancesFrom message (0, []) := by
  induction fuel generalizing buffer out with
  | zero => exact ⟨nofun, nofun⟩
  | succ fuel ih =>
    rcases buffer_cases buffer with ⟨compressed, l0, l1, l2, l3, rest, rfl⟩ | hshort
    · rw [bufferFits] at h
      by_cases hlarge : 0x80000000 ≤ 5 + uint32 l0 l1 l2 l3
      · rw [if_pos hlarge] at h
        exact absurd h Bool.false_ne_true
      · rw [if_neg hlarge] at h
        rw [extractMessages_small hlarge, decodedMessages_small hlarge]
        by_cases hpart : rest.length < uint32 l0 l1 l2 l3
        · rw [if_pos hpart, if_pos (Or.inl hpart)]
          exact ⟨nofun, nofun⟩
        · rw [if_neg hpart] at h ⊢
          by_cases hflag : compressed ≠ 0
          · rw [if_pos hflag, if_pos (Or.inr hflag)]
            refine ⟨fun f hf => ?_, nofun⟩
            rw [← Option.some.inj hf]
            rfl
          · have hboth : ¬ (rest.length < uint32 l0 l1 l2 l3 ∨ compressed ≠ 0) :=
              not_or.mpr ⟨hpart, hflag⟩
            rw [if_neg hflag] at h ⊢
            rw [if_neg hboth]
            simp only [length_cons] at hsize hturns
            have hlength := length_take_le (uint32 l0 l1 l2 l3) rest
            have hmessage : (rest.take (uint32 l0 l1 l2 l3)).length < 0x80000000 := by omega
            rcases hwalk : walkFields (rest.take (uint32 l0 l1 l2 l3))
              ((rest.take (uint32 l0 l1 l2 l3)).length + 1) 0
              with _ | wellFormed
            · rw [hwalk] at h
              exact absurd h Bool.false_ne_true
            · obtain ⟨hsettled, hok, hadvances⟩ :=
                walkFields_some hmessage (by omega) hwalk (Nat.zero_le _) []
              have hrunning : decodeHunkPayload (rest.take (uint32 l0 l1 l2 l3))
                  ((rest.take (uint32 l0 l1 l2 l3)).length + 1) 0 [] ≠ .error .running :=
                    fun heq => by
                rw [Int.natCast_zero, heq] at hsettled
                exact not_settled_running hsettled
              have henough : (rest.take (uint32 l0 l1 l2 l3)).length + 1 ≤ turns := by omega
              have hsame := decodeHunkPayload_mono hrunning henough
              rw [hwalk] at h
              rw [hsame]
              rw [Int.natCast_zero] at hsettled hok hadvances
              cases hdecoded : decodeHunkPayload (rest.take (uint32 l0 l1 l2 l3))
                  ((rest.take (uint32 l0 l1 l2 l3)).length + 1) 0 [] with
              | error e =>
                refine ⟨fun f hf => ?_, fun message hmem => ?_⟩
                · rw [← Option.some.inj hf]
                  exact hsettled e hdecoded
                · rw [mem_singleton.mp hmem]
                  exact hadvances
              | ok payload =>
                rw [hdecoded] at hok
                obtain rfl : true = wellFormed := hok
                have hdropped := length_drop (i := uint32 l0 l1 l2 l3) (l := rest)
                obtain ⟨hkept, hlater⟩ := ih (by omega) (by omega) h (out ++ payload)
                refine ⟨hkept, fun message hmem => ?_⟩
                rcases mem_cons.mp hmem with rfl | hmem
                · exact hadvances
                · exact hlater message hmem
    · obtain ⟨-, hkept, hnone⟩ := @short_buffer turns (fuel + 1) _ hshort out
      rw [hkept, hnone]
      exact ⟨nofun, nofun⟩

/-- What `handleDataFrame` ends with, by what its loop ends with. -/
theorem settled_handleDataFrame {frame : RawFrame} {isOurStream : Bool} {c : GrpcConnection} :
    Settled (handleDataFrame turns frame isOurStream c).2 ↔
      Kept (extractMessages turns (reassembled frame isOurStream c).length
        (reassembled frame isOurStream c) []).2.2 := by
  obtain ⟨-, hbuffer, -⟩ := emitWindowUpdatesIfNeeded_same frame.payload.length isOurStream c
  have hnothing : Kept (extractMessages turns 0 [] []).2.2 := kept_none
  rw [handleDataFrame]
  dsimp only
  rw [hbuffer, reassembled]
  cases isOurStream with
  | false =>
    rw [if_pos rfl, if_pos (Or.inl rfl)]
    exact ⟨fun _ => hnothing, fun _ => settled_ok none⟩
  | true =>
    rw [if_neg (by decide)]
    by_cases hoverflow : frame.payload ≠ [] ∧ maxGrpcFrameBufferSize <
      (c.grpcFrameBuffer ++ frame.payload).length
    · have hnone : (true = false) ∨ _ := Or.inr hoverflow
      rw [if_pos hoverflow, if_pos hnone]
      refine ⟨fun _ => hnothing, fun _ e he => ?_⟩
      have hgrpc : Failure.isGrpcError (.invalidResponse "gRPC frame buffer overflow") = true := rfl
      dsimp only at he
      split at he
      · rw [← Except.error.inj he]
        exact hgrpc
      · rw [← Except.error.inj he]
        exact hgrpc
    · have hall : ¬ (true = false ∨ _) := not_or.mpr ⟨by decide, hoverflow⟩
      rw [if_neg hoverflow, if_neg hall]
      rcases (extractMessages turns (c.grpcFrameBuffer ++ frame.payload).length
        (c.grpcFrameBuffer ++ frame.payload) []) with ⟨rest, out, _ | e⟩
      · exact ⟨fun _ => kept_none, fun _ => settled_ok _⟩
      · dsimp only
        constructor
        · intro h f hf
          rw [← Option.some.inj hf]
          refine h e ?_
          split <;> rfl
        · intro h e' he
          split at he
          · rw [← Except.error.inj he]
            exact h e rfl
          · rw [← Except.error.inj he]
            exact h e rfl

/-- **The DATA frames that are handled with nothing but a `GrpcError`.** -/
theorem frameSettles_iff (frame : RawFrame) (isOurStream : Bool) {c : GrpcConnection}
    (hsize : c.grpcFrameBuffer.length < 0x80000000) :
    FrameSettles frame isOurStream c ↔ FrameFits frame isOurStream c := by
  have hbuffer : (reassembled frame isOurStream c).length < 0x80000000 := by
    rw [reassembled]
    split
    · decide
    · rename_i hwhole
      by_cases hempty : frame.payload = []
      · rw [hempty, append_nil]
        exact hsize
      · have hlimit : ¬ maxGrpcFrameBufferSize < (c.grpcFrameBuffer ++ frame.payload).length :=
          fun h => hwhole (.inr ⟨hempty, h⟩)
        unfold maxGrpcFrameBufferSize at hlimit
        omega
  constructor
  · rintro ⟨turns, hsettled, hadvances⟩
    exact bufferFits_of_kept hbuffer (settled_handleDataFrame.1 hsettled) hadvances
  · intro hfits
    obtain ⟨hkept, hadvances⟩ := kept_of_bufferFits hbuffer (Nat.lt_succ_self _) hfits []
    exact ⟨_, settled_handleDataFrame.2 hkept, hadvances⟩

/-- **The messages and the DATA frames whose decoding ends with the payload or a `GrpcError`**, with
every turn further on. A message is a byte array, and so is what the connection keeps. -/
theorem grpc_decoding_iff {message : Bytes} (hmessage : message.length < 0x80000000)
    (frame : RawFrame) (isOurStream : Bool) {c : GrpcConnection}
    (hbuffer : c.grpcFrameBuffer.length < 0x80000000) :
    (HunkSettles message ↔ FieldsFit message) ∧
      (FrameSettles frame isOurStream c ↔ FrameFits frame isOurStream c) :=
  ⟨hunkSettles_iff hmessage, frameSettles_iff frame isOurStream hbuffer⟩

theorem grpc_decoding_iff_hunk :
    ([0x0A, 0x01, 0x61] : Bytes).length < 0x80000000 ∧
    ({} : GrpcConnection).grpcFrameBuffer.length < 0x80000000 ∧
      (HunkSettles [0x0A, 0x01, 0x61] ↔ FieldsFit [0x0A, 0x01, 0x61]) ∧
      (FrameSettles ⟨0, 0, 1, [0, 0, 0, 0, 3, 0x0A, 0x01, 0x61]⟩ true {} ↔
        FrameFits ⟨0, 0, 1, [0, 0, 0, 0, 3, 0x0A, 0x01, 0x61]⟩ true {}) :=
  ⟨by decide, by decide,
    grpc_decoding_iff (by decide) ⟨0, 0, 1, [0, 0, 0, 0, 3, 0x0A, 0x01, 0x61]⟩ true (by decide)⟩

/-- A field 2 of length 2^32 - 6: the offset is where it was. -/
def standingMessage : Bytes := [0x12, 0xFA, 0xFF, 0xFF, 0xFF, 0x0F]

theorem grpc_decoding_stands :
    ¬ ∀ (message : Bytes) (frame : RawFrame) (isOurStream : Bool) (c : GrpcConnection),
      message.length < 0x80000000 → c.grpcFrameBuffer.length < 0x80000000 →
      HunkSettles message ∧ FrameSettles frame isOurStream c := by
  intro h
  obtain ⟨hsettles, -⟩ := h standingMessage ⟨0, 0, 1, []⟩ true {} (by decide) (by decide)
  have hfit := (hunkSettles_iff (by decide)).mp hsettles
  exact hfit (by decide)

end Anywhere.Grpc
