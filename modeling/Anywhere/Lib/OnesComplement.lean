import Mathlib.Algebra.BigOperators.Group.List.Basic
import Mathlib.Tactic.Linarith

/-!
# Ones' complement sums

The checksum of the Internet protocols. Words of sixteen bits are added with the carry brought
around, and a packet carries the complement of its sum, so that the sum of all of it is 0xFFFF.
-/

namespace Anywhere.Lib.OnesComplement

open List

/-- Addition with the carry brought around. -/
def add (a b : Nat) : Nat := if a + b > 0xFFFF then a + b - 0xFFFF else a + b

def sum (words : List Nat) : Nat := words.foldl add 0

/-- The carries of a sum brought around at the end. -/
def fold (n : Nat) : Nat := if n > 0xFFFF then fold (n % 0x10000 + n / 0x10000) else n

def complement (n : Nat) : Nat := 0xFFFF - n

/-- The words of an even number of bytes, most significant byte first. -/
def words : List UInt8 → List Nat
  | hi :: lo :: rest => (hi.toNat * 256 + lo.toNat) :: words rest
  | _ => []

/-- The word that a sum without carries stands for. -/
def residue (n : Nat) : Nat := if n = 0 then 0 else (n - 1) % 0xFFFF + 1

theorem residue_eq {n : Nat} (hpos : 0 < n) : residue n = (n - 1) % 0xFFFF + 1 :=
  if_neg (Nat.ne_of_gt hpos)

theorem residue_carry {n m : Nat} (hn : 0 < n) (hm : 0 < m) (h : n % 0xFFFF = m % 0xFFFF) :
    residue n = residue m := by
  rw [residue_eq hn, residue_eq hm]
  omega

/-- Folding keeps the residue. -/
theorem fold_eq (n : Nat) : fold n = residue n := by
  fun_induction fold n with
  | case1 n hn ih =>
    rw [ih]
    exact residue_carry (by omega) (by omega) (by omega)
  | case2 n hn =>
    rw [residue]
    split <;> omega

theorem add_residue (n : Nat) {b : Nat} (hb : b ≤ 0xFFFF) :
    add (residue n) b = residue (n + b) := by
  rw [add, residue, residue]
  split_ifs <;> omega

/-- The carries may be brought around at the end. -/
theorem sum_eq {ws : List Nat} (h : ∀ w ∈ ws, w ≤ 0xFFFF) : sum ws = residue ws.sum := by
  have hrun : ∀ (ws : List Nat) (n : Nat), (∀ w ∈ ws, w ≤ 0xFFFF) →
      ws.foldl add (residue n) = residue (n + ws.sum) := by
    intro ws
    induction ws with
    | nil =>
      intro n _
      rw [sum_nil, Nat.add_zero]
      rfl
    | cons w ws ih =>
      intro n h
      obtain ⟨hw, hws⟩ := forall_mem_cons.mp h
      rw [foldl_cons, add_residue n hw, ih _ hws, sum_cons, Nat.add_assoc]
  have hzero := hrun ws 0 h
  rwa [Nat.zero_add] at hzero

theorem words_le (bytes : List UInt8) : ∀ w ∈ words bytes, w ≤ 0xFFFF := by
  fun_induction words bytes with
  | case1 hi lo rest ih =>
    intro w hw
    rcases mem_cons.mp hw with rfl | hw
    · have hhi := hi.toNat_lt
      have hlo := lo.toNat_lt
      omega
    · exact ih w hw
  | case2 => nofun

theorem words_append {a : List UInt8} (h : a.length % 2 = 0) (b : List UInt8) :
    words (a ++ b) = words a ++ words b := by
  fun_induction words a with
  | case1 hi lo rest ih =>
    rw [length_cons, length_cons] at h
    rw [cons_append, cons_append, words, ih (by omega), cons_append]
  | case2 a hshort =>
    rcases a with _ | ⟨x, _ | ⟨y, a⟩⟩
    · rfl
    · cases h
    · exact absurd rfl (hshort x y a)

/-- The sum of a packet whose checksum, in the place of two zeros, is the complement of the sum
of the rest and of what is added to it. -/
theorem sum_checksum {front behind : List UInt8} {pseudo : List Nat} {checksum total : Nat}
    (heven : front.length % 2 = 0) (hpseudo : ∀ w ∈ pseudo, w ≤ 0xFFFF)
    (htotal : total = pseudo.sum + (words (front ++ 0 :: 0 :: behind)).sum) (hpos : 0 < total)
    (hchecksum : checksum = complement (fold total)) :
    sum (pseudo ++ words (front ++ UInt8.ofNat (checksum / 256) ::
      UInt8.ofNat checksum :: behind)) =
      0xFFFF := by
  have hlt : checksum < 65536 := by
    rw [hchecksum, complement]
    omega
  have hword : (UInt8.ofNat (checksum / 256)).toNat * 256 + (UInt8.ofNat checksum).toNat =
      checksum := by
    rw [UInt8.toNat_ofNat', UInt8.toNat_ofNat']
    omega
  have hall : ∀ w ∈ pseudo ++ words (front ++ UInt8.ofNat (checksum / 256) ::
      UInt8.ofNat checksum :: behind), w ≤ 0xFFFF := by
    intro w hw
    exact (mem_append.mp hw).elim (hpseudo w) (words_le _ w)
  have hsum : (pseudo ++ words (front ++ UInt8.ofNat (checksum / 256) ::
      UInt8.ofNat checksum :: behind)).sum = total + checksum := by
    rw [htotal, words_append heven, words_append heven, words, words, hword]
    simp only [sum_append, sum_cons, UInt8.toNat_zero]
    omega
  rw [sum_eq hall, hsum, hchecksum, complement, fold_eq, residue_eq (by omega), residue_eq hpos]
  omega

end Anywhere.Lib.OnesComplement
