import Mathlib.Data.List.Infix
import Mathlib.Data.Nat.Digits.Defs

/-!
# Prefix codes

A code is a table of words. When no word stands in front of another, the word at the front of a
text is found from the text alone; words of bits may be looked up by their number.
-/

namespace Anywhere.Lib

open List

-- ----
-- Words

abbrev Code (σ α : Type) := List (σ × List α)

namespace Code

variable {σ α : Type} {code : Code σ α}

/-- No word stands in front of another. -/
def PrefixFree (code : Code σ α) : Prop := ∀ p ∈ code, ∀ q ∈ code, p.2 <+: q.2 → p = q

/-- Every text of this length begins with a word. -/
def CompleteFrom (n : Nat) (code : Code σ α) : Prop :=
  ∀ xs : List α, n ≤ xs.length → ∃ p ∈ code, p.2 <+: xs

/-- **One word at most stands at the front of a text.** -/
theorem PrefixFree.unique (h : code.PrefixFree) {p q : σ × List α} (hp : p ∈ code) (hq : q ∈ code)
    {xs : List α} (hpx : p.2 <+: xs) (hqx : q.2 <+: xs) : p = q := by
  rcases prefix_or_prefix_of_prefix hpx hqx with hpq | hqp
  · exact h p hp q hq hpq
  · exact (h q hq p hp hqp).symm

/-- No word stands at the front of what is only part of one. -/
theorem PrefixFree.not_prefix (h : code.PrefixFree) {p q : σ × List α} (hp : p ∈ code)
    (hq : q ∈ code) {xs : List α} (hxp : xs <+: p.2) (hlt : xs.length < p.2.length) :
    ¬ q.2 <+: xs := by
  intro hqx
  obtain rfl := h q hq p hp (hqx.trans hxp)
  have := hqx.length_le
  omega

end Code

-- ----
-- Bits

/-- The number bits stand for, the most significant one first. -/
def bitsValue (bits : List Bool) : Nat := Nat.ofDigits 2 ((bits.map Bool.toNat).reverse)

/-- The number of two words, one behind the other. -/
theorem bitsValue_append (xs ys : List Bool) :
    bitsValue (xs ++ ys) = bitsValue xs * 2 ^ ys.length + bitsValue ys := by
  rw [bitsValue, map_append, reverse_append, Nat.ofDigits_append, length_reverse, length_map,
    Nat.add_comm, Nat.mul_comm]
  rfl

theorem digit_lt {bits : List Bool} {d : Nat} (h : d ∈ (bits.map Bool.toNat).reverse) : d < 2 := by
  rw [mem_reverse, mem_map] at h
  obtain ⟨b, -, rfl⟩ := h
  exact b.toNat_lt

theorem bitsValue_lt (bits : List Bool) : bitsValue bits < 2 ^ bits.length := by
  have h := Nat.ofDigits_lt_base_pow_length (l := (bits.map Bool.toNat).reverse) Nat.one_lt_two
    fun _ => digit_lt
  rwa [length_reverse, length_map] at h

/-- Words of one length are told apart by their numbers. -/
theorem bitsValue_inj {xs ys : List Bool} (hlength : xs.length = ys.length)
    (h : bitsValue xs = bitsValue ys) :
    xs = ys := by
  have hdigits : (xs.map Bool.toNat).reverse = (ys.map Bool.toNat).reverse := by
    apply Nat.ofDigits_inj_of_len_eq Nat.one_lt_two _ (fun _ => digit_lt) (fun _ => digit_lt) h
    rw [length_reverse, length_reverse, length_map, length_map, hlength]
  have hinj : Function.Injective Bool.toNat := by
    intro a b hab
    cases a <;> cases b <;> first | rfl | exact absurd hab (by decide)
  exact hinj.list_map (reverse_injective hdigits)

theorem bitsValue_take (bits : List Bool) (n : Nat) :
    bitsValue (bits.take n) = bitsValue bits / 2 ^ (bits.length - n) := by
  have hsplit := bitsValue_append (bits.take n) (bits.drop n)
  have hlt := bitsValue_lt (bits.drop n)
  rw [take_append_drop] at hsplit
  rw [length_drop] at hsplit hlt
  rw [hsplit, Nat.mul_comm, Nat.mul_add_div (Nat.two_pow_pos _), Nat.div_eq_of_lt hlt, Nat.add_zero]

theorem bitsValue_ones (n : Nat) : bitsValue (List.replicate n true) = 2 ^ n - 1 := by
  induction n with
  | zero => rfl
  | succ n ih =>
    rw [replicate_succ', bitsValue_append, ih, length_singleton, Nat.pow_succ]
    have hone : bitsValue [true] = 1 := by decide
    have := Nat.two_pow_pos n
    omega

/-- The last `k` bits of a number. -/
def numberBits (k n : Nat) : List Bool := (List.range k).map fun i => n.testBit (k - 1 - i)

theorem length_numberBits (k n : Nat) : (numberBits k n).length = k := by
  rw [numberBits, length_map, length_range]

theorem numberBits_succ (k n : Nat) :
    numberBits (k + 1) n = numberBits k (n / 2) ++ [n.testBit 0] := by
  rw [numberBits, numberBits, range_succ, map_append, map_singleton]
  congr 1
  · apply map_congr_left
    intro i hi
    have hshift : k + 1 - 1 - i = (k - 1 - i) + 1 := by
      have := mem_range.mp hi
      omega
    rw [hshift, Nat.testBit_succ]
  · rw [Nat.add_sub_cancel, Nat.sub_self]

theorem bitsValue_numberBits (k n : Nat) : bitsValue (numberBits k n) = n % 2 ^ k := by
  induction k generalizing n with
  | zero => rw [Nat.pow_zero, Nat.mod_one]; rfl
  | succ k ih =>
    have hlow : bitsValue [n.testBit 0] = n % 2 := by
      rw [Nat.testBit_zero]
      rcases Nat.mod_two_eq_zero_or_one n with h | h <;> rw [h] <;> decide
    have hsplit : n % (2 * 2 ^ k) = n % 2 + 2 * (n / 2 % 2 ^ k) := Nat.mod_mul
    rw [numberBits_succ, bitsValue_append, ih, hlow, length_singleton, Nat.pow_one, Nat.pow_succ',
      hsplit]
    omega

theorem numberBits_bitsValue (bits : List Bool) :
    numberBits bits.length (bitsValue bits) = bits := by
  apply bitsValue_inj (length_numberBits _ _)
  rw [bitsValue_numberBits, Nat.mod_eq_of_lt (bitsValue_lt bits)]

-- ----
-- Octets

/-- Eight bits to an octet, and ones behind the last of them. -/
def pack : List Bool → List UInt8
  | b7 :: b6 :: b5 :: b4 :: b3 :: b2 :: b1 :: b0 :: rest =>
    UInt8.ofNat (bitsValue [b7, b6, b5, b4, b3, b2, b1, b0]) :: pack rest
  | [] => []
  | bits => [UInt8.ofNat (bitsValue (bits ++ List.replicate (8 - bits.length) true))]

theorem numberBits_octet {bits : List Bool} (h : bits.length = 8) :
    numberBits 8 (UInt8.ofNat (bitsValue bits)).toNat = bits := by
  have hlt := bitsValue_lt bits
  rw [h] at hlt
  rw [UInt8.toNat_ofNat', Nat.mod_eq_of_lt hlt, ← h]
  exact numberBits_bitsValue bits

/-- Bits as octets, with ones behind them. -/
theorem exists_bits_pack (bits : List Bool) :
    ∃ padding < 8, ((pack bits).flatMap fun b => numberBits 8 b.toNat) = bits ++
      List.replicate padding true := by
  induction bits using pack.induct with
  | case1 b7 b6 b5 b4 b3 b2 b1 b0 rest ih =>
    obtain ⟨padding, hpadding, hrest⟩ := ih
    refine ⟨padding, hpadding, ?_⟩
    rw [pack, flatMap_cons, hrest, numberBits_octet rfl]
    rfl
  | case2 => exact ⟨0, by decide, rfl⟩
  | case3 bits hshort hne =>
    have hlength : bits.length < 8 ∧ 0 < bits.length := by
      rcases bits with _ |
        ⟨b7, _ | ⟨b6, _ | ⟨b5, _ | ⟨b4, _ | ⟨b3, _ | ⟨b2, _ | ⟨b1, _ | ⟨b0, rest⟩⟩⟩⟩⟩⟩⟩⟩
      · exact absurd rfl hne
      all_goals first | exact ⟨by simp only [length_cons, length_nil]; omega, Nat.succ_pos _⟩ | skip
      exact absurd rfl (hshort b7 b6 b5 b4 b3 b2 b1 b0 rest)
    refine ⟨8 - bits.length, by omega, ?_⟩
    rw [pack, flatMap_singleton, numberBits_octet]
    · rw [length_append, length_replicate]
      omega
    · exact hshort
    · exact hne

end Anywhere.Lib
