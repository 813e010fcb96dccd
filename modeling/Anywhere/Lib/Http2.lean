import Anywhere.Lib.Framing
import Mathlib.Algebra.Group.Nat.Defs

/-!
# Frames of HTTP/2

A frame has a header of nine bytes: the length of the payload in three, the type, the
flags, and the stream in four, of which the highest bit is reserved.

* `RawFrame.bytes`, `RawFrame.take` — writing a frame, and taking one off a stream.
* `RawFrame.framing` — streams of such frames.
* `RawFrame.encodes` — what is written is taken back, whatever follows.
-/

namespace Anywhere.Lib

open List

structure RawFrame where
  type : UInt8
  flags : UInt8
  streamID : Nat
  payload : List UInt8
  deriving DecidableEq, Repr

namespace RawFrame

/-- A number in `n` bytes, the highest first. -/
def bigEndian : Nat → Nat → List UInt8
  | 0, _ => []
  | n + 1, v => UInt8.ofNat (v / 256 ^ n % 256) :: bigEndian n v

theorem length_bigEndian (n v : Nat) : (bigEndian n v).length = n := by
  induction n with
  | zero => rfl
  | succ n ih => rw [bigEndian, length_cons, ih]

theorem toNat_ofNat_mod (n : Nat) : (UInt8.ofNat (n % 256)).toNat = n % 256 := by
  rw [UInt8.toNat_ofNat']
  exact Nat.mod_eq_of_lt (Nat.mod_lt _ (by decide))

def bytes (f : RawFrame) : List UInt8 :=
  bigEndian 3 f.payload.length ++ f.type :: f.flags :: bigEndian 4
    (f.streamID % 0x80000000) ++ f.payload

/-- The first frame of a stream, and the stream behind it. -/
def take : List UInt8 → Option (RawFrame × List UInt8)
  | l0 :: l1 :: l2 :: type :: flags :: s0 :: s1 :: s2 :: s3 :: rest =>
    let length := (l0.toNat * 256 + l1.toNat) * 256 + l2.toNat
    let streamID := ((s0.toNat * 256 + s1.toNat) * 256 + s2.toNat) * 256 + s3.toNat
    if rest.length < length then none
    else some (⟨type, flags, streamID % 0x80000000, rest.take length⟩, rest.drop length)
  | _ => none

theorem take_some {xs ys : List UInt8} {f : RawFrame} (h : take xs = some (f, ys)) :
    ∃ l0 l1 l2 type flags s0 s1 s2 s3 rest,
      xs = l0 :: l1 :: l2 :: type :: flags :: s0 :: s1 :: s2 :: s3 :: rest ∧
      (l0.toNat * 256 + l1.toNat) * 256 + l2.toNat ≤ rest.length ∧
      f = ⟨type, flags, (((s0.toNat * 256 + s1.toNat) * 256 + s2.toNat) * 256 + s3.toNat)
        % 0x80000000, rest.take ((l0.toNat * 256 + l1.toNat) * 256 + l2.toNat)⟩ ∧
      ys = rest.drop ((l0.toNat * 256 + l1.toNat) * 256 + l2.toNat) := by
  unfold take at h
  split at h
  · rename_i l0 l1 l2 type flags s0 s1 s2 s3 rest
    dsimp only at h
    split at h
    · cases h
    · rename_i hlength
      obtain ⟨rfl, rfl⟩ := Prod.mk.inj (Option.some.inj h)
      exact ⟨l0, l1, l2, type, flags, s0, s1, s2, s3, rest, rfl, Nat.not_lt.1 hlength, rfl, rfl⟩
  · cases h

def framing : Framing UInt8 RawFrame where
  next := take
  progress := by
    intro xs f ys h
    obtain ⟨l0, l1, l2, type, flags, s0, s1, s2, s3, rest, rfl, -, -, rfl⟩ := take_some h
    simp only [length_drop, length_cons]
    omega
  extend := by
    intro xs f ys zs h
    obtain ⟨l0, l1, l2, type, flags, s0, s1, s2, s3, rest, rfl, hle, rfl, rfl⟩ := take_some h
    have hlength : ¬ (rest ++ zs).length < (l0.toNat * 256 + l1.toNat) * 256 + l2.toNat := by
      rw [length_append]
      omega
    simp only [cons_append, take]
    rw [if_neg hlength, take_append_of_le_length hle, drop_append_of_le_length hle]

/-- A number below `256 ^ 3` is its three bytes. -/
theorem bigEndian_three {v : Nat} (h : v < 2 ^ 24) :
    ((UInt8.ofNat (v / 256 ^ 2 % 256)).toNat * 256 + (UInt8.ofNat (v / 256 ^ 1 % 256)).toNat) *
      256 +
      (UInt8.ofNat (v / 256 ^ 0 % 256)).toNat = v := by
  rw [toNat_ofNat_mod, toNat_ofNat_mod, toNat_ofNat_mod]
  omega

theorem bigEndian_four {v : Nat} (h : v < 2 ^ 31) :
    (((UInt8.ofNat (v / 256 ^ 3 % 256)).toNat * 256 + (UInt8.ofNat (v / 256 ^ 2 % 256)).toNat) *
      256 + (UInt8.ofNat (v / 256 ^ 1 % 256)).toNat) * 256 +
      (UInt8.ofNat (v / 256 ^ 0 % 256)).toNat = v := by
  rw [toNat_ofNat_mod, toNat_ofNat_mod, toNat_ofNat_mod, toNat_ofNat_mod]
  omega

theorem take_bytes {f : RawFrame} (hsid : f.streamID < 2 ^ 31) (hlength : f.payload.length < 2 ^ 24)
    (zs : List UInt8) : take (f.bytes ++ zs) = some (f, zs) := by
  have hmod : f.streamID % 0x80000000 = f.streamID := by omega
  simp only [bytes, bigEndian, cons_append, nil_append, take]
  rw [bigEndian_three hlength, hmod, bigEndian_four hsid, hmod]
  have hle : ¬ (f.payload ++ zs).length < f.payload.length := by
    rw [length_append]
    omega
  rw [if_neg hle, take_left, drop_left]

theorem encodes {f : RawFrame} (hsid : f.streamID < 2 ^ 31) (hlength : f.payload.length < 2 ^ 24) :
    framing.Encodes bytes f := take_bytes hsid hlength

theorem length_bytes (f : RawFrame) : f.bytes.length = 9 + f.payload.length := by
  simp only [bytes, length_append, length_cons, length_bigEndian]

end RawFrame

end Anywhere.Lib
