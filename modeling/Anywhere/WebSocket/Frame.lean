import Anywhere.Config
import Mathlib.Data.List.GetD

/-!
# Anywhere — WebSocket frames that are sent

`buildFrame` writes a masked frame with its length in one of three forms. The form of
eight bytes is written with shifts of a 32-bit `Int`, whose counts are taken modulo 32.
`decodeFrame` reads a frame as RFC 6455 (section 5.2) defines it.

* `buildFrame_decodes_iff` — the payloads that arrive.
-/

namespace Anywhere.WebSocket

open List

-- ----
-- The model

/-- `length shr count` on a 32-bit `Int` that is not negative. -/
def shr (length count : Nat) : Nat := length >>> (count % 32)

/-- `payload[i] xor maskKey[i and 3]`. -/
def mask (maskKey payload : Bytes) : Bytes :=
  payload.mapIdx fun i b => b ^^^ maskKey.getD (i &&& 3) 0

/-- The first two bytes of a frame and the extended length. -/
def frameHeader (opcode : UInt8) (length : Nat) : Bytes :=
  (0x80 ||| opcode) ::
    if length ≤ 125 then [UInt8.ofNat length ||| 0x80]
    else if length ≤ 65535 then
      [126 ||| 0x80, UInt8.ofNat (shr length 8), UInt8.ofNat length]
    else (127 ||| 0x80) :: [7, 6, 5, 4, 3, 2, 1, 0].map fun i => UInt8.ofNat (shr length (i * 8))

/-- `buildFrame` with the key it draws; null where the size of the frame is no `Int`. -/
def buildFrame (opcode : UInt8) (payload maskKey : Bytes) : Option Bytes :=
  let frame := frameHeader opcode payload.length ++ maskKey ++ mask maskKey payload
  if frame.length < 2 ^ 31 then some frame else none

-- ----
-- RFC 6455

structure Frame where
  fin : Bool
  opcode : Nat
  payload : Bytes

/-- A number from the most significant byte on. -/
def beValue (bytes : Bytes) : Nat := bytes.foldl (fun v b => v * 256 + b.toNat) 0

/-- The first `n` bytes and the others. -/
def takeBytes (n : Nat) (bytes : Bytes) : Option (Bytes × Bytes) :=
  if bytes.length < n then none else some (bytes.take n, bytes.drop n)

/-- The payload length of a frame whose second byte has the value `len` in its low seven
bits; the most significant bit of the longest form is 0. -/
def decodeLength (len : Nat) (bytes : Bytes) : Option (Nat × Bytes) :=
  if len ≤ 125 then some (len, bytes)
  else if len = 126 then (takeBytes 2 bytes).map fun r => (beValue r.1, r.2)
  else ((takeBytes 8 bytes).map fun r => (beValue r.1, r.2)).filter (·.1 < 2 ^ 63)

def decodeFrame : Bytes → Option (Frame × Bytes)
  | b0 :: b1 :: bytes =>
    (decodeLength (b1.toNat % 128) bytes).bind fun length =>
      (takeBytes (if 128 ≤ b1.toNat then 4 else 0) length.2).bind fun maskingKey =>
        (takeBytes length.1 maskingKey.2).map fun octets =>
          (⟨decide (128 ≤ b0.toNat), b0.toNat % 16,
            if 128 ≤ b1.toNat then mask maskingKey.1 octets.1 else octets.1⟩, octets.2)
  | _ => none

-- ----
-- Masking

@[simp] theorem length_mask (maskKey payload : Bytes) :
    (mask maskKey payload).length = payload.length := by
  simp [mask]

/-- Masking twice is nothing. -/
theorem unmask_mask (maskKey payload : Bytes) : mask maskKey (mask maskKey payload) = payload := by
  refine ext_getElem (by simp) fun i h1 h2 => ?_
  simp only [mask, getElem_mapIdx]
  rw [UInt8.xor_assoc, UInt8.xor_self, UInt8.xor_zero]

-- ----
-- Frames with a known length

theorem takeBytes_append {n : Nat} {front : Bytes} (h : front.length = n) (rest : Bytes) :
    takeBytes n (front ++ rest) = some (front, rest) := by
  rw [takeBytes, if_neg (by simp; omega), take_left' h, drop_left' h]

/-- The end of a masked frame, behind a length that is read as `len`. -/
theorem decodeFrame_masked {opcode b1 : UInt8} {len : Nat} {extended maskKey payload : Bytes}
    (hb1 : 128 ≤ b1.toNat) (hkey : maskKey.length = 4)
    (hlen : decodeLength (b1.toNat % 128) (extended ++ (maskKey ++ mask maskKey payload)) =
      some (len, maskKey ++ mask maskKey payload)) :
    decodeFrame ((0x80 ||| opcode) :: b1 :: (extended ++ (maskKey ++ mask maskKey payload))) =
      (takeBytes len (mask maskKey payload)).map fun octets =>
        (⟨decide (128 ≤ (0x80 ||| opcode).toNat), (0x80 ||| opcode).toNat % 16,
          mask maskKey octets.1⟩, octets.2) := by
  rw [decodeFrame, hlen, Option.bind_some, if_pos hb1, takeBytes_append hkey, Option.bind_some]
  simp only [hb1, if_true]

theorem decodeFrame_exact {opcode b1 : UInt8} {extended maskKey payload : Bytes}
    (hb1 : 128 ≤ b1.toNat) (hkey : maskKey.length = 4)
    (hlen : decodeLength (b1.toNat % 128) (extended ++ (maskKey ++ mask maskKey payload)) =
      some (payload.length, maskKey ++ mask maskKey payload)) :
    decodeFrame ((0x80 ||| opcode) :: b1 :: (extended ++ (maskKey ++ mask maskKey payload))) =
      some (⟨decide (128 ≤ (0x80 ||| opcode).toNat), (0x80 ||| opcode).toNat % 16, payload⟩,
        []) := by
  rw [decodeFrame_masked hb1 hkey hlen, takeBytes, if_neg (by simp), take_of_length_le (by simp),
    drop_of_length_le (by simp), Option.map_some, unmask_mask]

variable {maskKey payload : Bytes} {opcode : UInt8}

/-- A frame with its length in the second byte. -/
theorem decodeFrame_short (hkey : maskKey.length = 4)
    (h : payload.length ≤ 125) :
    decodeFrame (frameHeader opcode payload.length ++ maskKey ++ mask maskKey payload) =
      some (⟨decide (128 ≤ (0x80 ||| opcode).toNat), (0x80 ||| opcode).toNat % 16, payload⟩,
        []) := by
  have hbyte : ∀ n < 126, 128 ≤ (UInt8.ofNat n ||| 0x80).toNat ∧
      (UInt8.ofNat n ||| 0x80).toNat % 128 = n := by decide
  obtain ⟨hb1, hmod⟩ := hbyte payload.length (by omega)
  rw [frameHeader, if_pos h, append_assoc]
  refine @decodeFrame_exact opcode _ [] maskKey payload hb1 hkey ?_
  rw [hmod, decodeLength, if_pos h]
  rfl

/-- A frame with its length in two bytes. -/
theorem decodeFrame_medium (hkey : maskKey.length = 4)
    (h : 125 < payload.length) (h' : payload.length ≤ 65535) :
    decodeFrame (frameHeader opcode payload.length ++ maskKey ++ mask maskKey payload) =
      some (⟨decide (128 ≤ (0x80 ||| opcode).toNat), (0x80 ||| opcode).toNat % 16, payload⟩,
        []) := by
  have hshr : shr payload.length 8 = payload.length / 256 := Nat.shiftRight_eq_div_pow _ 8
  have hvalue : beValue [UInt8.ofNat (shr payload.length 8), UInt8.ofNat payload.length] =
      payload.length := by
    simp only [beValue, hshr, foldl_cons, foldl_nil, UInt8.toNat_ofNat']
    omega
  rw [frameHeader, if_neg (by omega), if_pos h', append_assoc]
  refine @decodeFrame_exact opcode _ [UInt8.ofNat (shr payload.length 8),
    UInt8.ofNat payload.length]
    maskKey payload (by decide) hkey ?_
  rw [show ((126 ||| 0x80 : UInt8).toNat % 128) = 126 from rfl, decodeLength, if_neg (by decide),
    if_pos rfl, @takeBytes_append 2 _ rfl, Option.map_some, hvalue]

/-- The value of the eight bytes of the longest form. -/
theorem beValue_long {length : Nat} (h : length < 2 ^ 31) :
    beValue ([7, 6, 5, 4, 3, 2, 1, 0].map fun i => UInt8.ofNat (shr length (i * 8))) =
      length * 2 ^ 32 + length := by
  simp only [beValue, shr, map_cons, map_nil, foldl_cons, foldl_nil,
    UInt8.toNat_ofNat', Nat.shiftRight_eq_div_pow]
  norm_num
  omega

/-- A frame with the longest form says that it is longer than it is. -/
theorem decodeFrame_long (hkey : maskKey.length = 4)
    (h : 65535 < payload.length) (h' : payload.length < 2 ^ 31) :
    decodeFrame (frameHeader opcode payload.length ++ maskKey ++ mask maskKey payload) = none := by
  have hlen : decodeLength ((127 ||| 0x80 : UInt8).toNat % 128)
      (([7, 6, 5, 4, 3, 2, 1, 0].map fun i => UInt8.ofNat (shr payload.length (i * 8))) ++
        (maskKey ++ mask maskKey payload)) =
      some (payload.length * 2 ^ 32 + payload.length, maskKey ++ mask maskKey payload) := by
    rw [show ((127 ||| 0x80 : UInt8).toNat % 128) = 127 from rfl, decodeLength, if_neg (by decide),
      if_neg (by decide), @takeBytes_append 8 _ rfl, Option.map_some, beValue_long h']
    rw [Option.filter_some, if_pos]
    rw [decide_eq_true_eq]
    show payload.length * 2 ^ 32 + payload.length < 2 ^ 63
    omega
  rw [frameHeader, if_neg (by omega), if_neg (by omega), append_assoc]
  refine (@decodeFrame_masked opcode (127 ||| 0x80) _ _ maskKey payload (by decide) hkey hlen).trans
    ?_
  rw [takeBytes, if_pos]
  · rfl
  · rw [length_mask]
    omega

-- ----
-- The frames of `send`

theorem length_frame (opcode : UInt8) (hkey : maskKey.length = 4)
    (h : payload.length ≤ 65535) :
    (frameHeader opcode payload.length ++ maskKey ++ mask maskKey payload).length < 2 ^ 31 := by
  have hheader : (frameHeader opcode payload.length).length ≤ 4 := by
    unfold frameHeader
    by_cases hsmall : payload.length ≤ 125
    · rw [if_pos hsmall]
      simp
    · rw [if_neg hsmall, if_pos h]
      simp
  rw [length_append, length_append, length_mask, hkey]
  omega

/-- A receiver that follows RFC 6455 reads the frame of a payload as a final binary
frame with that payload exactly when its length does not take the longest form. -/
theorem buildFrame_decodes_iff (payload maskKey : Bytes) (hkey : maskKey.length = 4)
    (hlen : payload.length < 2 ^ 31) :
    (buildFrame 0x02 payload maskKey).bind decodeFrame = some (⟨true, 2, payload⟩, []) ↔
      payload.length ≤ 65535 := by
  constructor
  · intro hdecode
    by_contra hlong
    obtain ⟨frame, hframe, hdecode⟩ := Option.bind_eq_some_iff.1 hdecode
    unfold buildFrame at hframe
    dsimp only at hframe
    split at hframe
    · rw [← Option.some.inj hframe, decodeFrame_long hkey (by omega) hlen] at hdecode
      cases hdecode
    · cases hframe
  · intro hshort
    unfold buildFrame
    dsimp only
    rw [if_pos (length_frame 0x02 hkey hshort), Option.bind_some]
    by_cases hsmall : payload.length ≤ 125
    · rw [decodeFrame_short hkey hsmall]
      rfl
    · rw [decodeFrame_medium hkey (by omega) hshort]
      rfl

theorem buildFrame_decodes_iff_three :
    ([1, 2, 3, 4] : Bytes).length = 4 ∧
    ((buildFrame 0x02 [7, 8, 9] [1, 2, 3, 4]).bind decodeFrame = some (⟨true, 2, [7, 8, 9]⟩, []) ↔
      ([7, 8, 9] : Bytes).length ≤ 65535) :=
  ⟨rfl, buildFrame_decodes_iff [7, 8, 9] [1, 2, 3, 4] rfl (by decide)⟩

/-- 65536 zeros: the length is written as 2 ^ 48 + 2 ^ 16, and the receiver waits for the
rest of the frame. -/
theorem long_frame_not_decoded :
    (frameHeader 0x02 (List.replicate 65536 (0 : UInt8)).length = [0x82, 0xFF, 0, 1, 0, 0,
      0, 1, 0, 0]) ∧
    (buildFrame 0x02 (List.replicate 65536 0) [0, 0, 0, 0]).bind decodeFrame ≠
      some (⟨true, 2, List.replicate 65536 0⟩, []) := by
  have hlen : (List.replicate 65536 (0 : UInt8)).length = 65536 := length_replicate
  refine ⟨?_, fun hdecode => ?_⟩
  · rw [hlen]
    decide
  · obtain ⟨frame, hframe, hdecode⟩ := Option.bind_eq_some_iff.1 hdecode
    unfold buildFrame at hframe
    dsimp only at hframe
    split at hframe
    · rw [← Option.some.inj hframe, decodeFrame_long rfl (by omega) (by omega)] at hdecode
      cases hdecode
    · cases hframe

end Anywhere.WebSocket
