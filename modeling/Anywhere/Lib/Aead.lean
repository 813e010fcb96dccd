import Mathlib.Data.List.Nodup
import Mathlib.Data.List.Range
import Mathlib.Data.Nat.ModEq
import Mathlib.Algebra.Order.Ring.Nat
import Mathlib.Tactic.Ring

/-!
# Ideal AEAD and counter nonces

* `Aead` — an authenticated cipher with a tag of sixteen bytes, known only by what
  sealing and opening have to do with each other; `Cbc` — a block cipher likewise.
* `increment` — a little-endian counter in an array of bytes, carried byte by byte.
-/

namespace Anywhere.Lib

open List

/-- An authenticated cipher: key, nonce, associated data and text. -/
structure Aead where
  encrypt : List UInt8 → List UInt8 → List UInt8 → List UInt8 → List UInt8
  decrypt : List UInt8 → List UInt8 → List UInt8 → List UInt8 → Option (List UInt8)
  decrypt_encrypt : ∀ key nonce aad text, decrypt key nonce aad (encrypt key nonce aad text) =
    some text
  length_encrypt : ∀ key nonce aad text, (encrypt key nonce aad text).length = text.length + 16

attribute [simp] Aead.decrypt_encrypt Aead.length_encrypt

/-- The text with sixteen zeros behind it. -/
def Aead.toy : Aead where
  encrypt _ _ _ text := text ++ List.replicate 16 0
  decrypt _ _ _ text := if text.length < 16 then none else some (text.take (text.length - 16))
  decrypt_encrypt key nonce aad text := by simp
  length_encrypt key nonce aad text := by simp

/-- What can be decrypted is what was encrypted: there is one ciphertext for a text. -/
def Aead.Tidy (a : Aead) : Prop :=
  ∀ key nonce aad ciphertext text, a.decrypt key nonce aad ciphertext = some text →
    ciphertext = a.encrypt key nonce aad text

/-- The text with sixteen zeros behind it, which have to be there. -/
def Aead.tagged : Aead where
  encrypt _ _ _ text := text ++ List.replicate 16 0
  decrypt _ _ _ ciphertext :=
    if ciphertext = ciphertext.take (ciphertext.length - 16) ++ List.replicate 16 0 then
      some (ciphertext.take (ciphertext.length - 16))
    else none
  decrypt_encrypt key nonce aad text := by simp
  length_encrypt key nonce aad text := by simp

theorem Aead.tagged_tidy : Aead.tagged.Tidy := by
  intro key nonce aad ciphertext text h
  change (if _ then _ else _) = _ at h
  split at h
  · rename_i htag
    rw [Option.some.inj h] at htag
    exact htag
  · cases h

/-- A block cipher in CBC mode without padding of its own: key, initialization vector and
a text of whole blocks. -/
structure Cbc where
  encrypt : List UInt8 → List UInt8 → List UInt8 → List UInt8
  decrypt : List UInt8 → List UInt8 → List UInt8 → List UInt8
  decrypt_encrypt : ∀ key iv text, text.length % 16 = 0 →
    decrypt key iv (encrypt key iv text) = text
  length_encrypt : ∀ key iv text, text.length % 16 = 0 → (encrypt key iv text).length = text.length

def Cbc.toy : Cbc where
  encrypt _ _ text := text
  decrypt _ _ text := text
  decrypt_encrypt _ _ _ _ := rfl
  length_encrypt _ _ _ _ := rfl

-- ----
-- Counters

/-- Add one to the first byte, and go on with the next one while a byte wraps. -/
def increment : List UInt8 → List UInt8
  | [] => []
  | b :: bs => if b + 1 ≠ 0 then (b + 1) :: bs else (b + 1) :: increment bs

/-- The value of the bytes, the first one the lowest. -/
def leValue : List UInt8 → Nat
  | [] => 0
  | b :: bs => b.toNat + 256 * leValue bs

attribute [local grind =] increment leValue

@[simp] theorem length_increment (bs : List UInt8) : (increment bs).length = bs.length := by
  induction bs with
  | nil => rfl
  | cons b bs ih =>
    rw [increment]
    split
    · rfl
    · simp [ih]

theorem leValue_lt (bs : List UInt8) : leValue bs < 256 ^ bs.length := by
  induction bs with
  | nil => simp [leValue]
  | cons b bs ih =>
    have hb := b.toNat_lt
    rw [leValue, length_cons, pow_succ]
    omega

/-- The nonce counts, modulo the size of its array. -/
theorem leValue_increment (bs : List UInt8) :
    leValue (increment bs) = (leValue bs + 1) % 256 ^ bs.length := by
  induction bs with
  | nil => simp [leValue, increment]
  | cons b bs ih =>
    have hlt := leValue_lt bs
    have hb := b.toNat_lt
    have hsucc : (b + 1).toNat = (b.toNat + 1) % 256 := UInt8.toNat_add b 1
    rw [increment]
    by_cases h : b + 1 = 0
    · -- the byte wraps, and the carry goes on
      have h255 : b.toNat = 255 := by
        rw [h] at hsucc
        simp at hsucc
        omega
      rw [if_neg (by simpa using h), leValue, leValue, ih, h, h255, length_cons, pow_succ,
        show 255 + 256 * leValue bs + 1 = 256 * (leValue bs + 1) by ring,
        Nat.mul_comm (256 ^ _) 256, Nat.mul_mod_mul_left]
      simp
    · have hne : (b + 1).toNat ≠ 0 := fun h0 => h (UInt8.toNat_inj.1 h0)
      rw [if_pos h, leValue, leValue, length_cons, pow_succ, Nat.mod_eq_of_lt (by omega)]
      omega

theorem leValue_inj {as bs : List UInt8} (hlen : as.length = bs.length)
    (h : leValue as = leValue bs) : as = bs := by
  induction as generalizing bs with
  | nil => exact (length_eq_zero_iff.1 hlen.symm).symm
  | cons a as ih =>
    rcases bs with _ | ⟨b, bs⟩
    · cases hlen
    · have ha := a.toNat_lt
      have hb := b.toNat_lt
      rw [leValue, leValue] at h
      have hhead : a.toNat = b.toNat := by omega
      rw [UInt8.toNat_inj.1 hhead, ih (by simpa using hlen) (by omega)]

/-- The first `n` values behind a counter, in order. -/
def counters : Nat → List UInt8 → List (List UInt8)
  | 0, _ => []
  | n + 1, bs => increment bs :: counters n (increment bs)

attribute [local grind =] counters

theorem counters_map_leValue (n : Nat) (bs : List UInt8) :
    (counters n bs).map leValue =
      (List.range n).map fun k => (leValue bs + 1 + k) % 256 ^ bs.length := by
  induction n generalizing bs with
  | zero => rfl
  | succ n ih =>
    rw [counters, map_cons, ih, range_succ_eq_map, map_cons, leValue_increment,
      map_map, length_increment, Nat.add_zero]
    congr 1
    refine map_congr_left fun k _ => ?_
    rw [Function.comp_apply, Nat.add_assoc (_ % _), Nat.mod_add_mod]
    congr 1
    omega

theorem length_of_mem_counters {n : Nat} {bs c : List UInt8} (h : c ∈ counters n bs) :
    c.length = bs.length := by
  induction n generalizing bs with
  | zero => cases h
  | succ n ih =>
    rcases mem_cons.1 h with rfl | h
    · exact length_increment bs
    · rw [ih h, length_increment]

/-- Successive values are distinct until all of them have been used. -/
theorem nodup_counters_iff (n : Nat) (bs : List UInt8) :
    (counters n bs).Nodup ↔ n ≤ 256 ^ bs.length := by
  have hvalues := counters_map_leValue n bs
  constructor
  · intro h
    by_contra hgt
    -- the values at 0 and at the size of the array are equal
    have hmap : ((counters n bs).map leValue).Nodup := by
      refine h.map_on fun x hx y hy hxy => ?_
      refine leValue_inj ?_ hxy
      rw [length_of_mem_counters hx, length_of_mem_counters hy]
    rw [hvalues, nodup_map_iff_inj_on nodup_range] at hmap
    have hpos : 0 < 256 ^ bs.length := Nat.pow_pos (by decide)
    have := hmap 0 (by simp; omega) (256 ^ bs.length) (by simp; omega) (by simp)
    omega
  · intro hle
    refine List.Nodup.of_map leValue ?_
    rw [hvalues, nodup_map_iff_inj_on nodup_range]
    intro i hi j hj hij
    rw [mem_range] at hi hj
    have hmod : i % 256 ^ bs.length = j % 256 ^ bs.length := Nat.ModEq.add_left_cancel' _ hij
    rwa [Nat.mod_eq_of_lt (by omega), Nat.mod_eq_of_lt (by omega)] at hmod

end Anywhere.Lib
