import Anywhere.Lib.Framing
import Anywhere.Naive.Session

/-!
# Anywhere — `GrpcConnection`: messages

The payload of a call is a protobuf message with one field, behind a prefix of five bytes that
says how long it is.

* `messages` — the stream of such messages.
-/

namespace Anywhere.Grpc

open Lib List
open Naive (int32 uint32 int32_of_fits int32_of_nat)

/-- How a call fails. `running` is a loop that has not ended after the turns it was given. -/
inductive Failure where
  | connectionClosed
  | invalidResponse (message : String)
  | compressedMessageUnsupported
  | callFailed (status : Int)
  | indexOutOfBounds
  | illegalArgument
  | running

-- ----
-- Varints

def varintEncode (v : Nat) : Bytes :=
  if v < 128 then [UInt8.ofNat v] else UInt8.ofNat (v % 128 + 128) :: varintEncode (v / 128)
  termination_by v
  decreasing_by omega

/-- The loop of `varintDecode`; `value` is the bits of a `Long`, `count` how many bytes it has
taken. -/
def varintLoop : Nat → Nat → Nat → Bytes → Option (Nat × Nat)
  | _, _, _, [] => none
  | value, shift, count, b :: rest =>
    let value := value ||| (b.toNat % 128 * 2 ^ shift) % 2 ^ 64
    if b.toNat < 128 then some (value, count + 1)
    else if 64 ≤ shift + 7 then none
    else varintLoop value (shift + 7) (count + 1) rest

/-- `varintDecode`; before the array there is nothing to read. -/
def varintDecode (data : Bytes) (start : Int) : Except Failure (Option (Nat × Nat)) :=
  if start < 0 then .error .indexOutOfBounds else .ok (varintLoop 0 0 0 (data.drop start.toNat))

-- ----
-- Hunks

def encodeHunk (data : Bytes) : Bytes := 0x0A :: (varintEncode data.length ++ data)

/-- A field of wire type 2: the offset behind it, and what it adds to `out`. -/
def decodeLengthDelimited (message : Bytes) (fieldNumber offset : Int) (out : Bytes) :
    Except Failure (Int × Bytes) :=
  match varintDecode message offset with
  | .error e => .error e
  | .ok none => .error (.invalidResponse "truncated protobuf length")
  | .ok (some (length, lenConsumed)) =>
    let offset := int32 (offset + lenConsumed)
    let lenInt := int32 length
    if message.length < int32 (offset + lenInt) then
      .error (.invalidResponse "truncated protobuf value")
    else if fieldNumber = 1 then
      if offset < 0 ∨ lenInt < 0 ∨ message.length < offset + lenInt then .error .indexOutOfBounds
      else .ok (int32 (offset + lenInt), out ++ (message.drop offset.toNat).take lenInt.toNat)
    else .ok (int32 (offset + lenInt), out)

def skipFixed (message : Bytes) (offset : Int) (size : Nat) (what : String) (out : Bytes) :
    Except Failure (Int × Bytes) :=
  if message.length < int32 (offset + size) then
    .error (.invalidResponse ("truncated " ++ what ++ " field"))
  else .ok (int32 (offset + size), out)

/-- One turn of `decodeHunkPayload`. -/
def decodeField (message : Bytes) (offset : Int) (out : Bytes) : Except Failure (Int × Bytes) :=
  match varintDecode message offset with
  | .error e => .error e
  | .ok none => .error (.invalidResponse "truncated protobuf tag")
  | .ok (some (tag, tagConsumed)) =>
    let offset := int32 (offset + tagConsumed)
    let fieldNumber := int32 ((tag / 8 : Nat) : Int)
    match tag % 8 with
    | 2 => decodeLengthDelimited message fieldNumber offset out
    | 0 =>
      match varintDecode message offset with
      | .error e => .error e
      | .ok none => .error (.invalidResponse "truncated varint field")
      | .ok (some (_, vConsumed)) => .ok (int32 (offset + vConsumed), out)
    | 5 => skipFixed message offset 4 "fixed32" out
    | 1 => skipFixed message offset 8 "fixed64" out
    | wireType => .error (.invalidResponse ("unknown protobuf wire type " ++ toString wireType))

/-- `decodeHunkPayload`, at most so many turns: a length that is negative as an `Int` moves the
offset back. -/
def decodeHunkPayload (message : Bytes) : Nat → Int → Bytes → Except Failure Bytes
  | 0, _, _ => .error .running
  | turns + 1, offset, out =>
    if offset < message.length then
      match decodeField message offset out with
      | .error e => .error e
      | .ok (offset, out) => decodeHunkPayload message turns offset out
    else .ok out

def wrapGrpcMessage (message : Bytes) : Bytes :=
  [0x00, UInt8.ofNat (message.length / 16777216 % 256), UInt8.ofNat (message.length / 65536 % 256),
    UInt8.ofNat (message.length / 256 % 256), UInt8.ofNat (message.length % 256)] ++ message

-- ----
-- Round trip of a message

theorem varintLoop_last {value n shift count : Nat} {rest : Bytes} (hvalue : value < 2 ^ shift)
    (hn : n < 128) (hsize : value + n * 2 ^ shift < 2 ^ 63) :
    varintLoop value shift count (UInt8.ofNat n :: rest) = some (value + n * 2 ^ shift,
      count + 1) := by
  have hbyte : (UInt8.ofNat n).toNat = n := by
    rw [UInt8.toNat_ofNat']
    omega
  have hor : value ||| n * 2 ^ shift = value + n * 2 ^ shift := by
    rw [Nat.mul_comm, Nat.or_comm, ← Nat.two_pow_add_eq_or_of_lt hvalue, Nat.add_comm]
  rw [varintLoop, hbyte, if_pos hn, Nat.mod_eq_of_lt hn, Nat.mod_eq_of_lt (by omega), hor]

theorem varintLoop_more {value n shift count : Nat} {rest : Bytes} (hvalue : value < 2 ^ shift)
    (hn : n < 128) (hsize : value + n * 2 ^ shift < 2 ^ 63) (hshift : shift + 7 < 64) :
    varintLoop value shift count (UInt8.ofNat (n + 128) :: rest) =
      varintLoop (value + n * 2 ^ shift) (shift + 7) (count + 1) rest := by
  have hbyte : (UInt8.ofNat (n + 128)).toNat = n + 128 := by
    rw [UInt8.toNat_ofNat']
    omega
  have hor : value ||| n * 2 ^ shift = value + n * 2 ^ shift := by
    rw [Nat.mul_comm, Nat.or_comm, ← Nat.two_pow_add_eq_or_of_lt hvalue, Nat.add_comm]
  rw [varintLoop, hbyte, if_neg (by omega), if_neg (by omega), Nat.add_mod_right,
    Nat.mod_eq_of_lt hn, Nat.mod_eq_of_lt (by omega), hor]

theorem shift_lt {a shift : Nat} (ha : 0 < a) (h : a * 2 ^ shift < 2 ^ 63) : shift < 63 := by
  by_contra hshift
  have hpow : 2 ^ 63 ≤ 2 ^ shift := Nat.pow_le_pow_right (by decide) (by omega)
  have : 2 ^ shift ≤ a * 2 ^ shift := Nat.le_mul_of_pos_left _ ha
  omega

theorem varintLoop_encode {value n shift : Nat} (hvalue : value < 2 ^ shift)
    (hsize : value + n * 2 ^ shift < 2 ^ 63) (count : Nat) (rest : Bytes) :
    varintLoop value shift count (varintEncode n ++ rest) =
      some (value + n * 2 ^ shift, count + (varintEncode n).length) := by
  induction n using Nat.strongRecOn generalizing value shift count with
  | ind n ih =>
    rw [varintEncode]
    split
    · rename_i hlast
      exact varintLoop_last hvalue hlast hsize
    · rename_i hmore
      have hseven : 2 ^ (shift + 7) = 128 * 2 ^ shift := by rw [Nat.pow_add, Nat.mul_comm]
      have hsplit : n % 128 * 2 ^ shift + n / 128 * 2 ^ (shift + 7) = n * 2 ^ shift := by
        rw [hseven, ← Nat.mul_assoc, ← Nat.add_mul]
        congr 1
        omega
      have hlow : n % 128 * 2 ^ shift ≤ 127 * 2 ^ shift := Nat.mul_le_mul_right _ (by omega)
      have hshift : shift + 7 < 63 := shift_lt (a := n / 128) (by omega) (by omega)
      rw [cons_append, varintLoop_more hvalue (Nat.mod_lt _ (by decide)) (by omega) (by omega),
        ih (n / 128) (by omega) (by omega) (by omega), length_cons]
      have hsum : value + n % 128 * 2 ^ shift + n / 128 * 2 ^ (shift + 7) = value + n *
          2 ^ shift := by omega
      have hcount : count + 1 + (varintEncode (n / 128)).length = count +
          ((varintEncode (n / 128)).length + 1) := by
        omega
      rw [hsum, hcount]

/-- **A varint, anywhere in a message.** -/
theorem varintDecode_encode {n : Nat} (hn : n < 2 ^ 63) (before rest : Bytes) :
    varintDecode (before ++ (varintEncode n ++ rest)) before.length =
      .ok (some (n, (varintEncode n).length)) := by
  have hvalue : 0 + n * 2 ^ 0 = n := by omega
  rw [varintDecode, if_neg (by omega), Int.toNat_natCast, drop_left,
    varintLoop_encode (by decide) (by omega), hvalue, Nat.zero_add]

theorem length_encodeHunk (data : Bytes) :
    (encodeHunk data).length = 1 + (varintEncode data.length).length + data.length := by
  rw [encodeHunk, length_cons, length_append]
  omega

theorem decodeField_encodeHunk {data : Bytes} (hsize : (encodeHunk data).length < 0x80000000) :
    decodeField (encodeHunk data) 0 [] = .ok (((encodeHunk data).length : Nat), data) := by
  have hlength := length_encodeHunk data
  have htag : varintDecode (encodeHunk data) 0 = .ok (some (10, 1)) := by
    have hten : varintEncode 10 = [0x0A] := by
      rw [varintEncode]
      rfl
    have := varintDecode_encode (n := 10) (by decide) [] (varintEncode data.length ++ data)
    rw [hten] at this
    exact this
  have hlen : varintDecode (encodeHunk data) 1 =
      .ok (some (data.length, (varintEncode data.length).length)) :=
    varintDecode_encode (by omega) [0x0A] data
  have hbehind : int32 ((1 : Int) + ((varintEncode data.length).length : Nat)) =
      ((1 + (varintEncode data.length).length : Nat) : Int) := by
    rw [show (1 : Int) = ((1 : Nat) : Int) from rfl, ← Int.natCast_add]
    exact int32_of_nat (by omega)
  have hend : int32 (((1 + (varintEncode data.length).length : Nat) : Int) + (data.length : Int)) =
      ((encodeHunk data).length : Int) := by
    rw [← Int.natCast_add, ← hlength]
    exact int32_of_nat hsize
  have hcontent : (encodeHunk data).drop (1 + (varintEncode data.length).length) = data := by
    rw [Nat.add_comm, encodeHunk, drop_succ_cons, drop_left]
  rw [decodeField, htag]
  show decodeLengthDelimited (encodeHunk data) 1 1 [] = _
  rw [decodeLengthDelimited, hlen]
  dsimp only
  rw [hbehind, int32_of_nat (n := data.length) (by omega), hend,
    if_neg (Int.lt_irrefl _), if_pos rfl, if_neg (by omega), Int.toNat_natCast, Int.toNat_natCast,
    hcontent, take_length, nil_append]

/-- A message is read back. -/
theorem decodeHunkPayload_encodeHunk {data : Bytes} (hsize : (encodeHunk data).length < 0x80000000)
    {turns : Nat} (hturns : 2 ≤ turns) :
    decodeHunkPayload (encodeHunk data) turns 0 [] = .ok data := by
  obtain ⟨turns, rfl⟩ : ∃ n, turns = n + 2 := ⟨turns - 2, by omega⟩
  have hpos := length_encodeHunk data
  rw [decodeHunkPayload, if_pos (by omega), decodeField_encodeHunk hsize]
  dsimp only
  rw [decodeHunkPayload, if_neg (Int.lt_irrefl _)]

-- ----
-- The stream of messages

/-- The first message of a stream with its flag, and the stream behind it. -/
def takeMessage : Bytes → Option ((UInt8 × Bytes) × Bytes)
  | compressed :: l0 :: l1 :: l2 :: l3 :: rest =>
    if rest.length < uint32 l0 l1 l2 l3 then none
    else some ((compressed, rest.take (uint32 l0 l1 l2 l3)), rest.drop (uint32 l0 l1 l2 l3))
  | _ => none

theorem takeMessage_some {xs ys : Bytes} {m : UInt8 × Bytes} (h : takeMessage xs = some (m, ys)) :
    ∃ compressed l0 l1 l2 l3 rest, xs = compressed :: l0 :: l1 :: l2 :: l3 :: rest ∧
      uint32 l0 l1 l2 l3 ≤ rest.length ∧ m = (compressed, rest.take (uint32 l0 l1 l2 l3)) ∧
      ys = rest.drop (uint32 l0 l1 l2 l3) := by
  unfold takeMessage at h
  split at h
  · rename_i compressed l0 l1 l2 l3 rest
    split at h
    · exact absurd h nofun
    · rename_i hlength
      obtain ⟨rfl, rfl⟩ := Prod.mk.inj (Option.some.inj h)
      exact ⟨compressed, l0, l1, l2, l3, rest, rfl, Nat.not_lt.mp hlength, rfl, rfl⟩
  · exact absurd h nofun

def messages : Framing UInt8 (UInt8 × Bytes) where
  next := takeMessage
  progress := by
    intro xs m ys h
    obtain ⟨compressed, l0, l1, l2, l3, rest, rfl, -, -, rfl⟩ := takeMessage_some h
    simp only [length_drop, length_cons]
    omega
  extend := by
    intro xs m ys zs h
    obtain ⟨compressed, l0, l1, l2, l3, rest, rfl, hle, rfl, rfl⟩ := takeMessage_some h
    have hlength : ¬ (rest ++ zs).length < uint32 l0 l1 l2 l3 := by
      rw [length_append]
      omega
    simp only [cons_append, takeMessage]
    rw [if_neg hlength, take_append_of_le_length hle, drop_append_of_le_length hle]

theorem uint32_bytes {n : Nat} (h : n < 0x80000000) :
    uint32 (UInt8.ofNat (n / 16777216 % 256)) (UInt8.ofNat (n / 65536 % 256))
    (UInt8.ofNat (n / 256 % 256))
      (UInt8.ofNat (n % 256)) = n := by
  simp only [uint32, UInt8.toNat_ofNat']
  omega

/-- What `wrapGrpcMessage` writes is taken back, whatever follows. -/
theorem takeMessage_wrap {message : Bytes} (h : message.length < 0x80000000) (zs : Bytes) :
    takeMessage (wrapGrpcMessage message ++ zs) = some ((0, message), zs) := by
  simp only [wrapGrpcMessage, cons_append, nil_append, takeMessage]
  rw [uint32_bytes h, if_neg (by rw [length_append]; omega), take_left, drop_left]

end Anywhere.Grpc
