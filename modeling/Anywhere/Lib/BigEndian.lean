import Mathlib.Algebra.Ring.Nat
import Mathlib.Data.List.Basic

/-!
# Numbers in bytes, the highest first

* `BigEndian.value`, `BigEndian.digits` — the number in some bytes, and the bytes of a number.
* `BigEndian.value_digits`, `BigEndian.digits_value` — each undoes the other.
-/

namespace Anywhere.Lib

open List

namespace BigEndian

def value (bytes : List UInt8) : Nat := bytes.foldl (fun v b => v * 256 + b.toNat) 0

def digits : Nat → Nat → List UInt8
  | 0, _ => []
  | n + 1, v => UInt8.ofNat (v / 256 ^ n) :: digits n v

/-- What is in front counts for a power of 256 more with each byte. -/
theorem foldl_lt (bytes : List UInt8) (v : Nat) :
    bytes.foldl (fun v b => v * 256 + b.toNat) v < (v + 1) * 256 ^ bytes.length := by
  induction bytes generalizing v with
  | nil => simp
  | cons b bytes ih =>
    have hb : b.toNat < 256 := b.toNat_lt
    rw [foldl_cons, length_cons, Nat.pow_succ']
    calc _ < (v * 256 + b.toNat + 1) * 256 ^ bytes.length := ih _
      _ ≤ (v + 1) * 256 * 256 ^ bytes.length := Nat.mul_le_mul_right _ (by omega)
      _ = _ := Nat.mul_assoc _ _ _

theorem le_foldl (bytes : List UInt8) (v : Nat) :
    v * 256 ^ bytes.length ≤ bytes.foldl (fun v b => v * 256 + b.toNat) v := by
  induction bytes generalizing v with
  | nil => simp
  | cons b bytes ih =>
    rw [foldl_cons, length_cons, Nat.pow_succ', ← Nat.mul_assoc]
    exact Nat.le_trans (Nat.mul_le_mul_right _ (Nat.le_add_right _ _)) (ih _)

theorem value_lt (bytes : List UInt8) : value bytes < 256 ^ bytes.length := by
  have h := foldl_lt bytes 0
  rwa [Nat.zero_add, Nat.one_mul] at h

theorem foldl_digits (n d v : Nat) :
    (digits n d).foldl (fun v b => v * 256 + b.toNat) v = v * 256 ^ n + d % 256 ^ n := by
  induction n generalizing v with
  | zero => simp [digits, Nat.mod_one]
  | succ n ih =>
    have hsplit : d % 256 ^ (n + 1) = d % 256 ^ n + 256 ^ n * (d / 256 ^ n % 256) :=
      Nat.mod_pow_succ
    have hbyte : (UInt8.ofNat (d / 256 ^ n)).toNat = d / 256 ^ n % 256 := UInt8.toNat_ofNat'
    rw [digits, foldl_cons, ih, hbyte, hsplit, Nat.add_mul, Nat.pow_succ', Nat.mul_assoc,
      Nat.mul_comm (_ % 256), Nat.add_assoc, Nat.add_comm (256 ^ n * _)]

theorem value_digits (n d : Nat) : value (digits n d) = d % 256 ^ n := by
  rw [value, foldl_digits, Nat.zero_mul, Nat.zero_add]

theorem digits_foldl (bytes : List UInt8) (v : Nat) :
    digits bytes.length (bytes.foldl (fun v b => v * 256 + b.toNat) v) = bytes := by
  induction bytes generalizing v with
  | nil => rfl
  | cons b bytes ih =>
    have hlo := le_foldl bytes (v * 256 + b.toNat)
    have hhi := foldl_lt bytes (v * 256 + b.toNat)
    have hdiv : bytes.foldl (fun v b => v * 256 + b.toNat)
        (v * 256 + b.toNat) / 256 ^ bytes.length =
        v * 256 + b.toNat := Nat.div_eq_of_lt_le hlo hhi
    rw [length_cons, digits, foldl_cons, ih, hdiv]
    congr 1
    rw [← UInt8.toNat_inj, UInt8.toNat_ofNat']
    have hb : b.toNat < 256 := b.toNat_lt
    omega

theorem digits_value (bytes : List UInt8) : digits bytes.length (value bytes) = bytes :=
  digits_foldl bytes 0

end BigEndian

end Anywhere.Lib
