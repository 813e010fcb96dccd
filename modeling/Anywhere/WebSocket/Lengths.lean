import Anywhere.WebSocket.Connection

/-!
# Anywhere — WebSocket lengths beyond an `Int`

The length in the header of a frame has up to 64 bits. `tryExtractFrame` reads it as a
`Long` and cuts it to an `Int` before it asks whether the frame is complete.

* `handled_iff` — the buffers that are handled: the header and the payload stay below
  2^31 bytes together, or the low 32 bits of their size still ask for more.
-/

namespace Anywhere.WebSocket

open Lib

-- ----
-- What the server declares

/-- A header as RFC 6455 has it: the length is not cut. -/
structure Declared where
  headerSize : Nat
  payloadLength : Nat
  isMasked : Bool
  deriving DecidableEq

/-- The length in a header and the bytes it takes, behind the first two bytes. -/
def declaredLength (len : Nat) (bytes : Bytes) : Option (Nat × Nat) :=
  if len = 126 then (takeBytes 2 bytes).map fun r => (beValue r.1, 2)
  else if len = 127 then (takeBytes 8 bytes).map fun r => (beValue r.1, 8)
  else some (len, 0)

/-- The header at the front of a buffer, when it is complete as far as its length. -/
def declared : Bytes → Option Declared
  | _ :: byte1 :: bytes =>
    (declaredLength (byte1.toNat % 128) bytes).map fun length =>
      ⟨2 + length.2 + if 128 ≤ byte1.toNat then 4 else 0, length.1, decide (128 ≤ byte1.toNat)⟩
  | _ => none

/-- The payload of a frame: as many bytes as its header declares, without their mask. -/
def Declared.payload (header : Declared) (buffer : Bytes) : Bytes :=
  let octets := (buffer.drop header.headerSize).take header.payloadLength
  if header.isMasked then mask ((buffer.drop (header.headerSize - 4)).take 4) octets else octets

/-- `tryExtractFrame` asks for more, or takes the frame the header declares off the buffer. -/
def Handled (buffer : Bytes) : Prop :=
  match tryExtractFrame buffer with
  | .error _ => False
  | .ok none => True
  | .ok (some (frame, rest)) =>
    ∃ header, declared buffer = some header ∧
      header.headerSize + header.payloadLength ≤ buffer.length ∧
      frame = frameResult ((buffer.getD 0 0).toNat % 16) (header.payload buffer) ∧
      rest = buffer.drop (header.headerSize + header.payloadLength)

-- ----
-- The header

theorem beValue_lt {bytes : Bytes} {n : Nat} (h : bytes.length = n) : beValue bytes < 256 ^ n :=
  h ▸ BigEndian.value_lt bytes

theorem toLong_of_lt {length : Nat} (h : length < 2 ^ 16) : toLong length = length := by
  unfold toLong
  exact Int.bmod_eq_of_le (by omega) (by omega)

theorem extendedLength_declared {len : Nat} (hlen : len < 128) (bytes : Bytes) :
    extendedLength len bytes =
      (declaredLength len bytes).map fun length => (toLong length.1, length.2) := by
  unfold extendedLength declaredLength takeBytes
  split
  · split
    · rfl
    · rename_i hshort
      have hvalue : beValue (bytes.take 2) < 2 ^ 16 :=
        beValue_lt (List.length_take_of_le (by omega))
      rw [Option.map_some, Option.map_some, toLong_of_lt hvalue]
  · split
    · split <;> rfl
    · rw [Option.map_some, toLong_of_lt (by omega)]

/-- `tryExtractFrame` reads the header the server wrote, with the length as a `Long`. -/
theorem parseHeader_declared (buffer : Bytes) :
    parseHeader buffer = (declared buffer).map fun header =>
      ⟨header.headerSize, toLong header.payloadLength, header.isMasked⟩ := by
  rcases buffer with _ | ⟨byte0, _ | ⟨byte1, bytes⟩⟩
  · rfl
  · rfl
  · unfold parseHeader declared
    dsimp only
    rw [extendedLength_declared (Nat.mod_lt _ (by decide))]
    cases declaredLength (byte1.toNat % 128) bytes with
    | none => rfl
    | some length => rw [Option.map_some, Option.map_some, Option.map_some, Option.map_some]

theorem toInt_add_toLong (headerSize length : Nat) :
    toInt (headerSize + toInt (toLong length)) = toInt (headerSize + length : Nat) := by
  have hlow : toInt (toLong length) = toInt length := Int.bmod_bmod_of_dvd (by decide)
  rw [hlow, Nat.cast_add]
  exact Int.add_bmod_bmod

-- ----
-- The lengths that are kept

variable {buffer : Bytes} {header : Declared}

/-- What `tryExtractFrame` does behind a whole header. -/
theorem tryExtractFrame_declared (h : declared buffer = some header)
    {total : Int} (htotal : toInt (header.headerSize + header.payloadLength : Nat) = total)
    {cut : Header}
    (hcut : cut = ⟨header.headerSize, toLong header.payloadLength, header.isMasked⟩) :
    tryExtractFrame buffer =
      if (buffer.length : Int) < total then .ok none
      else if total < header.headerSize then .error .illegalSize
      else .ok (some (frameResult ((buffer.getD 0 0).toNat % 16) (framePayload cut buffer),
        buffer.drop total.toNat)) := by
  rw [← toInt_add_toLong] at htotal
  unfold tryExtractFrame
  rw [parseHeader_declared, h, Option.map_some, ← hcut]
  dsimp only
  rw [hcut]
  dsimp only
  rw [htotal]

/-- A frame that ends below 2^31 is taken as a whole, or waited for. -/
theorem handled_of_lt (h : declared buffer = some header)
    (hlow : header.headerSize + header.payloadLength < 2 ^ 31) : Handled buffer := by
  have htotal : toInt (header.headerSize + header.payloadLength : Nat) =
      (header.headerSize + header.payloadLength : Nat) := by
    unfold toInt
    exact Int.bmod_eq_of_le (by omega) (by omega)
  have hlength : toInt (toLong header.payloadLength) = header.payloadLength := by
    rw [show toInt (toLong header.payloadLength) = toInt header.payloadLength from
      Int.bmod_bmod_of_dvd (by decide)]
    unfold toInt
    exact Int.bmod_eq_of_le (by omega) (by omega)
  have hpayload : framePayload ⟨header.headerSize, toLong header.payloadLength,
      header.isMasked⟩ buffer =
      header.payload buffer := by
    unfold framePayload Declared.payload
    dsimp only
    rw [hlength, Int.toNat_natCast]
  unfold Handled
  rw [tryExtractFrame_declared h htotal rfl, hpayload, Int.toNat_natCast]
  by_cases hwait : (buffer.length : Int) < (header.headerSize + header.payloadLength : Nat)
  · rw [if_pos hwait]
    trivial
  · rw [if_neg hwait, if_neg (by omega)]
    exact ⟨header, h, by omega, rfl, rfl⟩

/-- One that ends behind it and is not waited for ends elsewhere for `tryExtractFrame`. -/
theorem not_handled_of_ge (h : declared buffer = some header)
    (hhigh : 2 ^ 31 ≤ header.headerSize + header.payloadLength)
    (hwait : ¬ (buffer.length : Int) < toInt (header.headerSize + header.payloadLength : Nat)) :
    ¬ Handled buffer := by
  have hbound : toInt (header.headerSize + header.payloadLength : Nat) < 2 ^ 31 :=
    Int.bmod_lt (by decide)
  unfold Handled
  rw [tryExtractFrame_declared h rfl rfl, if_neg hwait]
  generalize toInt (header.headerSize + header.payloadLength : Nat) = total at hbound
  by_cases hnegative : total < header.headerSize
  · rw [if_pos hnegative]
    exact id
  · rw [if_neg hnegative]
    rintro ⟨header', hheader', hle, -, hrest⟩
    obtain rfl : header = header' := Option.some.inj (h.symm.trans hheader')
    have hlengths := congrArg List.length hrest
    rw [List.length_drop, List.length_drop] at hlengths
    omega

/-- Which buffers are handled: those without a whole header, those whose frame ends below
2^31, and those that are shorter than the low 32 bits of its end as a signed number. -/
theorem handled_iff (buffer : Bytes) :
    Handled buffer ↔ ∀ header, declared buffer = some header →
      header.headerSize + header.payloadLength < 2 ^ 31 ∨
        (buffer.length : Int) < toInt (header.headerSize + header.payloadLength : Nat) := by
  constructor
  · intro hhandled header h
    by_contra hcond
    rw [not_or, Nat.not_lt] at hcond
    exact not_handled_of_ge h hcond.1 hcond.2 hhandled
  · intro hcond
    rcases h : declared buffer with _ | header
    · unfold Handled tryExtractFrame
      rw [parseHeader_declared, h]
      trivial
    · rcases hcond header h with hlow | hwait
      · exact handled_of_lt h hlow
      · unfold Handled
        rw [tryExtractFrame_declared h rfl rfl, if_pos hwait]
        trivial

/-- A length of 2^32 is taken for none, and one of 2^31 for an array of a negative size. -/
theorem cut_lengths_not_handled :
    tryExtractFrame [0x82, 127, 0, 0, 0, 1, 0, 0, 0, 0] = .ok (some (.binary [], [])) ∧
      declared [0x82, 127, 0, 0, 0, 1, 0, 0, 0, 0] = some ⟨10, 4294967296, false⟩ ∧
      ¬ Handled [0x82, 127, 0, 0, 0, 1, 0, 0, 0, 0] ∧
      tryExtractFrame [0x82, 127, 0, 0, 0, 0, 0x80, 0, 0, 0] = .error .illegalSize ∧
      ¬ Handled [0x82, 127, 0, 0, 0, 0, 0x80, 0, 0, 0] := by
  have hheader : declared [0x82, 127, 0, 0, 0, 1, 0, 0, 0, 0] = some ⟨10, 4294967296, false⟩ := by
    decide
  have herror : tryExtractFrame [0x82, 127, 0, 0, 0, 0, 0x80, 0, 0, 0] = .error .illegalSize := by
    decide
  refine ⟨by decide, hheader, ?_, herror, ?_⟩
  · exact not_handled_of_ge hheader (by decide) (by decide)
  · unfold Handled
    rw [herror]
    exact id

end Anywhere.WebSocket
