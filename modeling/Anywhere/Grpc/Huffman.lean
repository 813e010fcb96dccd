import Anywhere.Lib.Utf8
import Anywhere.Naive.Huffman

/-!
# Anywhere — `GrpcConnection`: Huffman coded strings

The second decoder of these strings has a table of its own, which it looks numbers and lengths up
in: it keeps the bits it has not used in a `Long` and tries the lengths from the shortest on.

* `huffman_inverts` — both decoders, on what the table encodes.
-/

namespace Anywhere.Grpc

open Lib List

variable {bits : List Bool} {code : Nat} {octets : Bytes}

namespace Huffman

-- ----
-- The decoder

/-- The entries `HUFFMAN_TABLE` is built from: a code, its length and its symbol. -/
def entries : List (Nat × Nat × Nat) :=
  [(0x1ff8, 13, 0), (0x7fffd8, 23, 1), (0xfffffe2, 28, 2), (0xfffffe3, 28, 3), (0xfffffe4, 28, 4),
    (0xfffffe5, 28, 5), (0xfffffe6, 28, 6), (0xfffffe7, 28, 7), (0xfffffe8, 28, 8),
    (0xffffea, 24, 9), (0x3ffffffc, 30, 10), (0xfffffe9, 28, 11), (0xfffffea, 28, 12),
    (0x3ffffffd, 30, 13), (0xfffffeb, 28, 14), (0xfffffec, 28, 15), (0xfffffed, 28, 16),
    (0xfffffee, 28, 17), (0xfffffef, 28, 18), (0xffffff0, 28, 19), (0xffffff1, 28, 20),
    (0xffffff2, 28, 21), (0x3ffffffe, 30, 22), (0xffffff3, 28, 23), (0xffffff4, 28, 24),
    (0xffffff5, 28, 25), (0xffffff6, 28, 26), (0xffffff7, 28, 27), (0xffffff8, 28, 28),
    (0xffffff9, 28, 29), (0xffffffa, 28, 30), (0xffffffb, 28, 31), (0x14, 6, 32), (0x3f8, 10, 33),
    (0x3f9, 10, 34), (0xffa, 12, 35), (0x1ff9, 13, 36), (0x15, 6, 37), (0xf8, 8, 38),
    (0x7fa, 11, 39), (0x3fa, 10, 40), (0x3fb, 10, 41), (0xf9, 8, 42), (0x7fb, 11, 43),
    (0xfa, 8, 44), (0x16, 6, 45), (0x17, 6, 46), (0x18, 6, 47), (0x0, 5, 48), (0x1, 5, 49),
    (0x2, 5, 50), (0x19, 6, 51), (0x1a, 6, 52), (0x1b, 6, 53), (0x1c, 6, 54), (0x1d, 6, 55),
    (0x1e, 6, 56), (0x1f, 6, 57), (0x5c, 7, 58), (0xfb, 8, 59), (0x7ffc, 15, 60), (0x20, 6, 61),
    (0xffb, 12, 62), (0x3fc, 10, 63), (0x1ffa, 13, 64), (0x21, 6, 65), (0x5d, 7, 66), (0x5e, 7, 67),
    (0x5f, 7, 68), (0x60, 7, 69), (0x61, 7, 70), (0x62, 7, 71), (0x63, 7, 72), (0x64, 7, 73),
    (0x65, 7, 74), (0x66, 7, 75), (0x67, 7, 76), (0x68, 7, 77), (0x69, 7, 78), (0x6a, 7, 79),
    (0x6b, 7, 80), (0x6c, 7, 81), (0x6d, 7, 82), (0x6e, 7, 83), (0x6f, 7, 84), (0x70, 7, 85),
    (0x71, 7, 86), (0x72, 7, 87), (0xfc, 8, 88), (0x73, 7, 89), (0xfd, 8, 90), (0x1ffb, 13, 91),
    (0x7fff0, 19, 92), (0x1ffc, 13, 93), (0x3ffc, 14, 94), (0x22, 6, 95), (0x7ffd, 15, 96),
    (0x3, 5, 97), (0x23, 6, 98), (0x4, 5, 99), (0x24, 6, 100), (0x5, 5, 101),
    (0x25, 6, 102), (0x26, 6, 103), (0x27, 6, 104), (0x6, 5, 105), (0x74, 7, 106), (0x75, 7, 107),
    (0x28, 6, 108), (0x29, 6, 109), (0x2a, 6, 110), (0x7, 5, 111), (0x2b, 6, 112), (0x76, 7, 113),
    (0x2c, 6, 114), (0x8, 5, 115), (0x9, 5, 116), (0x2d, 6, 117), (0x77, 7, 118), (0x78, 7, 119),
    (0x79, 7, 120), (0x7a, 7, 121), (0x7b, 7, 122), (0x7ffe, 15, 123), (0x7fc, 11, 124),
    (0x3ffd, 14, 125), (0x1ffd, 13, 126), (0xffffffc, 28, 127), (0xfffe6, 20, 128),
    (0x3fffd2, 22, 129), (0xfffe7, 20, 130), (0xfffe8, 20, 131), (0x3fffd3, 22, 132),
    (0x3fffd4, 22, 133), (0x3fffd5, 22, 134), (0x7fffd9, 23, 135), (0x3fffd6, 22, 136),
    (0x7fffda, 23, 137), (0x7fffdb, 23, 138), (0x7fffdc, 23, 139), (0x7fffdd, 23, 140),
    (0x7fffde, 23, 141), (0xffffeb, 24, 142), (0x7fffdf, 23, 143), (0xffffec, 24, 144),
    (0xffffed, 24, 145), (0x3fffd7, 22, 146), (0x7fffe0, 23, 147), (0xffffee, 24, 148),
    (0x7fffe1, 23, 149), (0x7fffe2, 23, 150), (0x7fffe3, 23, 151), (0x7fffe4, 23, 152),
    (0x1fffdc, 21, 153), (0x3fffd8, 22, 154), (0x7fffe5, 23, 155), (0x3fffd9, 22, 156),
    (0x7fffe6, 23, 157), (0x7fffe7, 23, 158), (0xffffef, 24, 159), (0x3fffda, 22, 160),
    (0x1fffdd, 21, 161), (0xfffe9, 20, 162), (0x3fffdb, 22, 163), (0x3fffdc, 22, 164),
    (0x7fffe8, 23, 165), (0x7fffe9, 23, 166), (0x1fffde, 21, 167), (0x7fffea, 23, 168),
    (0x3fffdd, 22, 169), (0x3fffde, 22, 170), (0xfffff0, 24, 171), (0x1fffdf, 21, 172),
    (0x3fffdf, 22, 173), (0x7fffeb, 23, 174), (0x7fffec, 23, 175), (0x1fffe0, 21, 176),
    (0x1fffe1, 21, 177), (0x3fffe0, 22, 178), (0x1fffe2, 21, 179), (0x7fffed, 23, 180),
    (0x3fffe1, 22, 181), (0x7fffee, 23, 182), (0x7fffef, 23, 183), (0xfffea, 20, 184),
    (0x3fffe2, 22, 185), (0x3fffe3, 22, 186), (0x3fffe4, 22, 187), (0x7ffff0, 23, 188),
    (0x3fffe5, 22, 189), (0x3fffe6, 22, 190), (0x7ffff1, 23, 191), (0x3ffffe0, 26, 192),
    (0x3ffffe1, 26, 193), (0xfffeb, 20, 194), (0x7fff1, 19, 195), (0x3fffe7, 22, 196),
    (0x7ffff2, 23, 197), (0x3fffe8, 22, 198), (0x1ffffec, 25, 199), (0x3ffffe2, 26, 200),
    (0x3ffffe3, 26, 201), (0x3ffffe4, 26, 202), (0x7ffffde, 27, 203), (0x7ffffdf, 27, 204),
    (0x3ffffe5, 26, 205), (0xfffff1, 24, 206), (0x1ffffed, 25, 207), (0x7fff2, 19, 208),
    (0x1fffe3, 21, 209), (0x3ffffe6, 26, 210), (0x7ffffe0, 27, 211), (0x7ffffe1, 27, 212),
    (0x3ffffe7, 26, 213), (0x7ffffe2, 27, 214), (0xfffff2, 24, 215), (0x1fffe4, 21, 216),
    (0x1fffe5, 21, 217), (0x3ffffe8, 26, 218), (0x3ffffe9, 26, 219), (0xffffffd, 28, 220),
    (0x7ffffe3, 27, 221), (0x7ffffe4, 27, 222), (0x7ffffe5, 27, 223), (0xfffec, 20, 224),
    (0xfffff3, 24, 225), (0xfffed, 20, 226), (0x1fffe6, 21, 227), (0x3fffe9, 22, 228),
    (0x1fffe7, 21, 229), (0x1fffe8, 21, 230), (0x7ffff3, 23, 231), (0x3fffea, 22, 232),
    (0x3fffeb, 22, 233), (0x1ffffee, 25, 234), (0x1ffffef, 25, 235), (0xfffff4, 24, 236),
    (0xfffff5, 24, 237), (0x3ffffea, 26, 238), (0x7ffff4, 23, 239), (0x3ffffeb, 26, 240),
    (0x7ffffe6, 27, 241), (0x3ffffec, 26, 242), (0x3ffffed, 26, 243), (0x7ffffe7, 27, 244),
    (0x7ffffe8, 27, 245), (0x7ffffe9, 27, 246), (0x7ffffea, 27, 247), (0x7ffffeb, 27, 248),
    (0xffffffe, 28, 249), (0x7ffffec, 27, 250), (0x7ffffed, 27, 251), (0x7ffffee, 27, 252),
    (0x7ffffef, 27, 253), (0x7fffff0, 27, 254), (0x3ffffee, 26, 255), (0x3fffffff, 30, 256)]

/-- `HUFFMAN_TABLE[HuffmanKey(code, length)]`; an entry replaces those before it. -/
def huffmanTable (code length : Nat) : Option Nat :=
  (entries.reverse.find? fun e => e.1 == code && e.2.1 == length).map fun e => e.2.2

/-- The loop over the lengths: the first that is a symbol's. -/
def firstMatch (code bits : Nat) : Option (Nat × Nat) :=
  (List.range' 5 (min bits 30 - 4)).findSome? fun length =>
    (huffmanTable (code / 2 ^ (bits - length) % 2 ^ length) length).map fun symbol =>
      (length, symbol)

/-- What the loop over `bits` leaves. -/
inductive Drained where
  /-- EOS ends the string. -/
  | ended (out : Bytes)
  | pending (bits : Nat) (out : Bytes)
  deriving Repr

/-- The loop over `bits`; a turn takes five at least, so there is fuel enough in `bits`. -/
def drain (code : Nat) : Nat → Nat → Bytes → Drained
  | 0, bits, out => .pending bits out
  | fuel + 1, bits, out =>
    if bits < 5 then .pending bits out
    else
      match firstMatch code bits with
      | none => .pending bits out
      | some (length, symbol) =>
        if symbol = 256 then .ended out else drain code fuel (bits - length)
          (out ++ [UInt8.ofNat symbol])

/-- The loop over the bytes, and the check of the trailing bits. -/
def decodeBytes : Bytes → Nat → Nat → Bytes → Option Bytes
  | [], code, bits, out => if 0 < bits ∧ code % 2 ^ bits ≠ 2 ^ bits - 1 then none else some out
  | byte :: data, code, bits, out =>
    let code := (code * 256 + byte.toNat) % 2 ^ 64
    match drain code (bits + 8) (bits + 8) out with
    | .ended out => some out
    | .pending bits out => decodeBytes data code bits out

def huffmanDecode (data : Bytes) : Option Text := (decodeBytes data 0 0 []).map decodeUtf8

-- ----
-- The table

def codes : Code Nat Bool := entries.map fun e => (e.2.2, numberBits e.2.1 e.1)

/-- The entries are those of the other table, whose words stand at the left of 32 bits. -/
theorem entries_computed :
    entries.map (fun e => ((e.1 * 2 ^ (32 - e.2.1), e.2.1), e.2.2)) =
      Naive.HpackHuffman.huffmanTable.zipIdx ∧
      ∀ e ∈ entries, e.1 < 2 ^ e.2.1 ∧ 5 ≤ e.2.1 ∧ e.2.1 ≤ 30 := by decide +kernel

theorem entries_bounds : ∀ e ∈ entries, e.1 < 2 ^ e.2.1 ∧ 5 ≤ e.2.1 ∧ e.2.1 ≤ 30 :=
  entries_computed.2

theorem codeBits_aligned {code length : Nat} (h : length ≤ 32) :
    Naive.HpackHuffman.codeBits (code * 2 ^ (32 - length), length) = numberBits length code := by
  rw [Naive.HpackHuffman.codeBits, numberBits]
  apply map_congr_left
  intro i hi
  have hlt := mem_range.mp hi
  rw [Nat.testBit_mul_two_pow, decide_eq_true (by omega), Bool.true_and]
  congr 1
  omega

/-- The two tables are one code. -/
theorem codes_eq : codes = Naive.HpackHuffman.codes := by
  rw [codes, Naive.HpackHuffman.codes, ← entries_computed.1, map_map]
  apply map_congr_left
  intro e he
  have := entries_bounds e he
  rw [Function.comp_apply, codeBits_aligned (by omega)]

/-- A word has five bits at least, and thirty at most. -/
theorem length_word {p : Nat × List Bool} (h : p ∈ codes) : 5 ≤ p.2.length ∧ p.2.length ≤ 30 := by
  rw [codes, mem_map] at h
  obtain ⟨e, he, rfl⟩ := h
  rw [length_numberBits]
  exact (entries_bounds e he).2

theorem prefixFree_codes : codes.PrefixFree := by
  rw [codes_eq]
  exact Naive.HpackHuffman.prefixFree_codes

/-- **What the table says of a word is its symbol.** -/
theorem huffmanTable_iff {w : List Bool} {s : Nat} : huffmanTable (bitsValue w) w.length = some s ↔
    (s, w) ∈ codes := by
  have hsound : ∀ e ∈ entries, e.1 = bitsValue w → e.2.1 = w.length → (e.2.2, w) ∈ codes := by
    intro e he hcode hlength
    rw [codes, mem_map]
    refine ⟨e, he, ?_⟩
    rw [hcode, hlength, numberBits_bitsValue]
  constructor
  · intro h
    obtain ⟨e, hfind, rfl⟩ := Option.map_eq_some_iff.mp h
    have hkey := List.find?_some hfind
    rw [Bool.and_eq_true, beq_iff_eq, beq_iff_eq] at hkey
    exact hsound e (mem_reverse.mp (List.mem_of_find?_eq_some hfind)) hkey.1 hkey.2
  · intro h
    obtain ⟨e, he, heq⟩ := mem_map.mp h
    obtain ⟨rfl, rfl⟩ := Prod.mk.inj heq
    have hvalue : bitsValue (numberBits e.2.1 e.1) = e.1 := by
      rw [bitsValue_numberBits, Nat.mod_eq_of_lt (entries_bounds e he).1]
    rcases hfind : entries.reverse.find? fun e' => e'.1 == e.1 && e'.2.1 == e.2.1 with _ | e'
    · have := List.find?_eq_none.mp hfind e (mem_reverse.mpr he)
      rw [beq_self_eq_true, beq_self_eq_true] at this
      exact absurd rfl this
    · have hkey := List.find?_some hfind
      rw [Bool.and_eq_true, beq_iff_eq, beq_iff_eq] at hkey
      have hfound := hsound e' (mem_reverse.mp (List.mem_of_find?_eq_some hfind))
        (hkey.1.trans hvalue.symm)
        (hkey.2.trans (length_numberBits _ _).symm)
      have hsame := prefixFree_codes _ hfound _ h (prefix_refl _)
      rw [huffmanTable, hvalue, length_numberBits, hfind, Option.map_some, (Prod.mk.inj hsame).1]

-- ----
-- The front of the bits

/-- The low bits of `code` are these. -/
def Holds (code : Nat) (bits : List Bool) : Prop := code % 2 ^ bits.length = bitsValue bits

theorem candidate_eq (h : Holds code bits) {length : Nat}
    (hle : length ≤ bits.length) :
    code / 2 ^ (bits.length - length) % 2 ^ length = bitsValue (bits.take length) := by
  have hpow : 2 ^ bits.length = 2 ^ (bits.length - length) * 2 ^ length := by
    rw [← Nat.pow_add, Nat.sub_add_cancel hle]
  rw [bitsValue_take, ← h, hpow, Nat.mod_mul_right_div_self]

/-- What the loop over the lengths finds is a word at the front. -/
theorem word_of_match (h : Holds code bits) {length : Nat}
    (hmem : length ∈ List.range' 5 (min bits.length 30 - 4)) {found : Nat × Nat}
    (hfound : (huffmanTable (code / 2 ^ (bits.length - length) % 2 ^ length) length).map
      (fun symbol => (length, symbol)) = some found) :
    (found.2, bits.take length) ∈ codes ∧ found.1 = length ∧
    (bits.take length).length = length := by
  have hrange := mem_range'_1.mp hmem
  have hlength : (bits.take length).length = length := by
    rw [length_take]
    omega
  obtain ⟨symbol, hsymbol, rfl⟩ := Option.map_eq_some_iff.mp hfound
  rw [candidate_eq h (by omega)] at hsymbol
  refine ⟨huffmanTable_iff.1 ?_, rfl, hlength⟩
  rw [hlength]
  exact hsymbol

/-- **The word at the front of the bits is found.** -/
theorem firstMatch_word (h : Holds code bits) {p : Nat × List Bool} (hp : p ∈ codes)
    (hfront : p.2 <+: bits) : firstMatch code bits.length = some (p.2.length, p.1) := by
  have hbounds := length_word hp
  have hle := hfront.length_le
  have hmem : p.2.length ∈ List.range' 5 (min bits.length 30 - 4) := by
    rw [mem_range'_1]
    omega
  have htake : bits.take p.2.length = p.2 := (prefix_iff_eq_take.mp hfront).symm
  have hsome : (firstMatch code bits.length).isSome = true := by
    rw [firstMatch, List.findSome?_isSome_iff]
    refine ⟨p.2.length, hmem, ?_⟩
    rw [candidate_eq h hle, htake, huffmanTable_iff.2 hp]
    rfl
  obtain ⟨found, hfound⟩ := Option.isSome_iff_exists.mp hsome
  obtain ⟨length, hlength, hmatch⟩ := List.exists_of_findSome?_eq_some hfound
  obtain ⟨hword, hfst, htaken⟩ := word_of_match h hlength hmatch
  -- no other word stands there
  have hsame := prefixFree_codes.unique hp hword hfront ( take_prefix _ _)
  rw [hfound, hsame, htaken, ← hfst]

/-- Where only part of a word stands, nothing is found. -/
theorem firstMatch_part (h : Holds code bits)
    (hpart : ∀ p ∈ codes, ¬ p.2 <+: bits) : firstMatch code bits.length = none := by
  rw [firstMatch, List.findSome?_eq_none_iff]
  intro length hmem
  rcases hfound : (huffmanTable (code / 2 ^ (bits.length - length) % 2 ^ length) length).map
      (fun symbol => (length, symbol)) with _ | found
  · rfl
  · exact absurd ( take_prefix _ _) (hpart _ (word_of_match h hmem hfound).1)

-- ----
-- Coded strings

theorem holds_drop {w : List Bool} (h : Holds code (w ++ bits)) : Holds code bits := by
  unfold Holds at h ⊢
  rw [length_append, bitsValue_append] at h
  have hdvd : 2 ^ bits.length ∣ 2 ^ (w.length + bits.length) :=
    Nat.pow_dvd_pow 2 (Nat.le_add_left _ _)
  rw [← Nat.mod_mod_of_dvd code hdvd, h, Nat.mul_comm, Nat.mul_add_mod,
    Nat.mod_eq_of_lt (bitsValue_lt bits)]

/-- One more byte; the `Long` has room for it. -/
theorem holds_byte (h : Holds code bits) (hroom : bits.length < 30) (byte : UInt8) :
    Holds ((code * 256 + byte.toNat) % 2 ^ 64) (bits ++ Hpack.bitsOf byte) := by
  have hbits : Hpack.bitsOf byte = numberBits 8 byte.toNat := rfl
  have hvalue : bitsValue (numberBits 8 byte.toNat) = byte.toNat := by
    rw [bitsValue_numberBits, Nat.mod_eq_of_lt byte.toNat_lt]
  unfold Holds at h ⊢
  rw [hbits, length_append, length_numberBits, bitsValue_append, length_numberBits, hvalue, ← h,
    Nat.mod_mod_of_dvd _ (Nat.pow_dvd_pow 2 (by omega)), Nat.pow_add]
  have hlt := byte.toNat_lt
  have hsplit : code * 256 + byte.toNat =
      (code % 2 ^ bits.length * 256 + byte.toNat) + 2 ^ bits.length * 2 ^ 8 *
        (code / 2 ^ bits.length) := by
    have hdiv := Nat.mod_add_div code (2 ^ bits.length)
    have hassoc : 2 ^ bits.length * 2 ^ 8 * (code / 2 ^ bits.length) =
        (2 ^ bits.length * (code / 2 ^ bits.length)) * 2 ^ 8 := by
      rw [Nat.mul_assoc, Nat.mul_comm (2 ^ 8), Nat.mul_assoc]
    omega
  have hmod := Nat.mod_lt code (Nat.two_pow_pos bits.length)
  rw [hsplit, Nat.add_mul_mod_self_left, Nat.mod_eq_of_lt (by omega)]
  rfl

def coded (octets : Bytes) (padding : Nat) : List Bool :=
  (octets.flatMap fun o => Naive.HpackHuffman.codeOf o.toNat) ++ List.replicate padding true

theorem mem_codes_octet (o : UInt8) : (o.toNat, Naive.HpackHuffman.codeOf o.toNat) ∈ codes := by
  rw [codes_eq, Naive.HpackHuffman.mem_codes]
  exact ⟨Nat.lt_trans o.toNat_lt (by decide), rfl⟩

theorem mem_codes_eos : (256, List.replicate 30 true) ∈ codes := by
  rw [codes_eq, Naive.HpackHuffman.mem_codes, Naive.HpackHuffman.codeOf_eos]
  exact ⟨by decide, rfl⟩

theorem part_of_coded {padding : Nat} (hpadding : padding < 8) {later : List Bool}
    (h : bits ++ later = coded octets padding)
    (hpart : ∀ o os, octets = o :: os → bits.length < (Naive.HpackHuffman.codeOf o.toNat).length) :
    bits.length < 30 ∧ ∀ p ∈ codes, ¬ p.2 <+: bits := by
  obtain ⟨word, hword, hfront, hlt⟩ : ∃ word ∈ codes, bits <+: word.2 ∧
      bits.length < word.2.length := by
    rcases octets with _ | ⟨o, os⟩
    · rw [coded, flatMap_nil, nil_append] at h
      have hlength := congrArg List.length h
      rw [length_append, length_replicate] at hlength
      refine ⟨_, mem_codes_eos, ?_, by rw [length_replicate]; omega⟩
      have hones : List.replicate 30 true = List.replicate padding true ++ List.replicate
          (30 - padding) true := by
        rw [replicate_append_replicate, Nat.add_sub_cancel' (by omega)]
      rw [hones, ← h, append_assoc]
      exact prefix_append _ _
    · have hlt := hpart o os rfl
      refine ⟨_, mem_codes_octet o, ?_, hlt⟩
      apply @prefix_of_prefix_length_le _ _ _ (coded (o :: os) padding) _ _ (Nat.le_of_lt hlt)
      · rw [← h]
        exact prefix_append _ _
      · rw [coded, flatMap_cons, append_assoc]
        exact prefix_append _ _
  have hbounds := length_word hword
  exact ⟨by omega, fun p hp => prefixFree_codes.not_prefix hword hp hfront hlt⟩

/-- **The loop over `bits` takes every octet whose word is complete.** -/
theorem drain_coded {fuel padding : Nat} (hpadding : padding < 8) {later : List Bool}
    (h : Holds code bits) (hfuel : bits.length ≤ fuel)
    (hcoded : bits ++ later = coded octets padding) (out : Bytes) :
    ∃ taken left bits', octets = taken ++ left ∧ drain code fuel bits.length out =
      .pending bits'.length (out ++ taken) ∧
      Holds code bits' ∧ bits' ++ later = coded left padding ∧
      bits'.length < 30 ∧ ∀ p ∈ codes, ¬ p.2 <+: bits' := by
  induction octets generalizing bits fuel out with
  | nil =>
    obtain ⟨hshort, hnone⟩ := part_of_coded hpadding hcoded nofun
    refine ⟨[], [], bits, rfl, ?_, h, hcoded, hshort, hnone⟩
    rw [append_nil]
    rcases fuel with _ | fuel
    · rfl
    · rw [drain, firstMatch_part h hnone, ite_self]
  | cons o os ih =>
    by_cases hwhole : (Naive.HpackHuffman.codeOf o.toNat).length ≤ bits.length
    · have hbounds : 5 ≤ (Naive.HpackHuffman.codeOf o.toNat).length ∧ _ :=
        length_word (mem_codes_octet o)
      have hfront : Naive.HpackHuffman.codeOf o.toNat <+: bits := by
        apply @prefix_of_prefix_length_le _ _ _ (bits ++ later) _ (prefix_append _ _) hwhole
        rw [hcoded, coded, flatMap_cons, append_assoc]
        exact prefix_append _ _
      obtain ⟨rest, rfl⟩ := hfront
      have hnext : rest ++ later = coded os padding := by
        rw [coded, flatMap_cons, append_assoc, append_assoc, append_cancel_left_eq] at hcoded
        exact hcoded
      rcases fuel with _ | fuel
      · rw [length_append] at hfuel
        omega
      · rw [length_append] at hfuel
        have hless : rest.length ≤ fuel := by omega
        obtain ⟨taken, left, bits', rfl, hdrain, hrest⟩ :=
          ih (holds_drop h) hless hnext (out ++ [o])
        refine ⟨o :: taken, left, bits', rfl, ?_, hrest⟩
        have hoctet := o.toNat_lt
        have hleft : (Naive.HpackHuffman.codeOf o.toNat ++ rest).length -
            (Naive.HpackHuffman.codeOf o.toNat).length =
            rest.length := by
          rw [length_append, Nat.add_sub_cancel_left]
        rw [drain, if_neg (by rw [length_append]; omega),
          firstMatch_word h (mem_codes_octet o) (prefix_append _ _)]
        dsimp only
        rw [if_neg (by omega), hleft, UInt8.ofNat_toNat, hdrain, append_assoc]
        rfl
    · have hlt := Nat.lt_of_not_le hwhole
      obtain ⟨hshort, hnone⟩ := part_of_coded hpadding hcoded fun o' os' heq => by
        obtain ⟨rfl, rfl⟩ := List.cons.inj heq
        exact hlt
      refine ⟨[], o :: os, bits, rfl, ?_, h, hcoded, hshort, hnone⟩
      rw [append_nil]
      rcases fuel with _ | fuel
      · rfl
      · rw [drain, firstMatch_part h hnone, ite_self]

theorem decodeBytes_coded {code padding : Nat} (hpadding : padding < 8) {bits : List Bool}
    {data octets : Bytes} (h : Holds code bits)
    (hcoded : bits ++ data.flatMap Hpack.bitsOf = coded octets padding) (hshort : bits.length < 30)
    (hnone : ∀ p ∈ codes, ¬ p.2 <+: bits) (out : Bytes) :
    decodeBytes data code bits.length out = some (out ++ octets) := by
  induction data generalizing code bits octets out with
  | nil =>
    rw [flatMap_nil, append_nil] at hcoded
    rcases octets with _ | ⟨o, os⟩
    · rw [coded, flatMap_nil, nil_append] at hcoded
      have hones : code % 2 ^ bits.length = 2 ^ bits.length - 1 := by
        rw [h, hcoded, bitsValue_ones, length_replicate]
      rw [decodeBytes, if_neg (fun hbad => hbad.2 hones), append_nil]
    · refine absurd ?_ (hnone _ (mem_codes_octet o))
      rw [hcoded, coded, flatMap_cons, append_assoc]
      exact prefix_append _ _
  | cons byte data ih =>
    rw [flatMap_cons, ← append_assoc] at hcoded
    have hlength : (bits ++ Hpack.bitsOf byte).length = bits.length + 8 := by
      rw [length_append]
      rfl
    obtain ⟨taken, left, bits', rfl, hdrain, hholds, hrest, hshort', hnone'⟩ :=
      drain_coded hpadding (holds_byte h hshort byte) (Nat.le_of_eq hlength) hcoded out
    rw [hlength] at hdrain
    rw [decodeBytes, hdrain]
    dsimp only
    rw [ih hholds hrest hshort' hnone', append_assoc]

theorem huffmanDecode_coded {data : Bytes} (h : Hpack.HuffmanCoded octets data) :
    huffmanDecode data = some (decodeUtf8 octets) := by
  obtain ⟨padding, hpadding, hbits⟩ := h
  have hwords : (octets.flatMap fun o => Hpack.huffmanCode o.toNat) =
      octets.flatMap fun o => Naive.HpackHuffman.codeOf o.toNat := by
    apply flatMap_congr
    intro o _
    exact (Naive.HpackHuffman.codeOf_eq (Nat.lt_trans o.toNat_lt (by decide))).symm
  rw [hwords] at hbits
  have hempty : Holds 0 [] := rfl
  have hnone : ∀ p ∈ codes, ¬ p.2 <+: [] := by
    intro p hp hfront
    have hle := hfront.length_le
    have hbounds := length_word hp
    rw [length_nil] at hle
    omega
  have hdecode := @decodeBytes_coded _ _ hpadding _ _ octets hempty hbits (by decide) hnone []
  rw [length_nil] at hdecode
  rw [huffmanDecode, hdecode]
  rfl

/-- **Both decoders give back what the table encodes**, a string of any octets, padded with ones up
to an octet. The second has the same table, no word of it stands in front of another, every text of
thirty bits begins with one, and EOS is thirty ones. -/
theorem huffman_inverts :
    (∀ octets : Bytes, Naive.HpackHuffman.decode (Naive.HpackHuffman.encode octets) = some octets ∧
      huffmanDecode (Naive.HpackHuffman.encode octets) = some (decodeUtf8 octets)) ∧
    codes = Naive.HpackHuffman.codes ∧ codes.PrefixFree ∧ codes.CompleteFrom 30 ∧
    (256, List.replicate 30 true) ∈ codes := by
  refine ⟨fun octets => ?_, codes_eq, prefixFree_codes, ?_, mem_codes_eos⟩
  · have hcoded := Naive.HpackHuffman.coded_encode octets
    exact ⟨Naive.HpackHuffman.decode_coded hcoded, huffmanDecode_coded hcoded⟩
  · rw [codes_eq]
    exact Naive.HpackHuffman.completeFrom_codes

end Huffman

end Anywhere.Grpc
