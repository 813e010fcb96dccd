import Anywhere.Lib.Text

/-!
# Base64

`java.util.Base64`: the encoder with its padding, and the decoder, which takes what is not
padded and throws on every character outside of its alphabet.
-/

namespace Anywhere.Lib.Base64

open List

/-- The digit of six bits; the last two digits are the alphabet's own. -/
def digit (last : Char × Char) (n : Nat) : Char :=
  if n < 26 then Char.ofNat (65 + n)
  else if n < 52 then Char.ofNat (71 + n)
  else if n < 62 then Char.ofNat (n - 4)
  else if n = 62 then last.1 else last.2

def value (last : Char × Char) (c : Char) : Option Nat :=
  if 'A' ≤ c ∧ c ≤ 'Z' then some (c.toNat - 65)
  else if 'a' ≤ c ∧ c ≤ 'z' then some (c.toNat - 71)
  else if '0' ≤ c ∧ c ≤ '9' then some (c.toNat + 4)
  else if c = last.1 then some 62
  else if c = last.2 then some 63
  else none

def standard : Char × Char := ('+', '/')

def urlSafe : Char × Char := ('-', '_')

section Coding

variable (last : Char × Char)

def encodeUnpadded : List UInt8 → Text
  | a :: b :: c :: rest =>
    digit last (a.toNat / 4) :: digit last (a.toNat % 4 * 16 + b.toNat / 16) ::
      digit last (b.toNat % 16 * 4 + c.toNat / 64) :: digit last (c.toNat % 64) ::
        encodeUnpadded rest
  | [a, b] =>
    [digit last (a.toNat / 4), digit last (a.toNat % 4 * 16 + b.toNat / 16),
      digit last (b.toNat % 16 * 4)]
  | [a] => [digit last (a.toNat / 4), digit last (a.toNat % 4 * 16)]
  | [] => []

/-- `encodeToString(bytes)`. -/
def encode (bytes : List UInt8) : Text :=
  encodeUnpadded last bytes ++ List.replicate ((3 - bytes.length % 3) % 3) '='

def decodeOne (a b : Char) : Option (List UInt8) := do
  let a ← value last a
  let b ← value last b
  return [UInt8.ofNat (a * 4 + b / 16)]

def decodeTwo (a b c : Char) : Option (List UInt8) := do
  let first ← decodeOne last a b
  let b ← value last b
  let c ← value last c
  return first ++ [UInt8.ofNat (b % 16 * 16 + c / 4)]

def decodeThree (a b c d : Char) : Option (List UInt8) := do
  let two ← decodeTwo last a b c
  let c ← value last c
  let d ← value last d
  return two ++ [UInt8.ofNat (c % 4 * 64 + d)]

/-- `decode(text)`; none where it throws. -/
def decode : Text → Option (List UInt8)
  | a :: b :: c :: d :: rest =>
    if c = '=' then if d = '=' ∧ rest = [] then decodeOne last a b else none
    else if d = '=' then if rest = [] then decodeTwo last a b c else none
    else do
      let bytes ← decodeThree last a b c d
      let others ← decode rest
      return bytes ++ others
  | [a, b, c] => decodeTwo last a b c
  | [a, b] => decodeOne last a b
  | [_] => none
  | [] => some []

end Coding

-- ----
-- Decoding what was encoded

/-- The alphabet reads its digits, and none of them is the padding or a separator. -/
def Proper (last : Char × Char) : Prop :=
  ∀ n < 64, value last (digit last n) = some n ∧ digit last n ∉ ['=', ':', '@', '&', '%']

theorem proper_standard : Proper standard := by
  unfold Proper
  decide

theorem proper_urlSafe : Proper urlSafe := by
  unfold Proper
  decide

variable {last : Char × Char} {n : Nat}

theorem Proper.ne (h : Proper last) (hn : n < 64) :
    digit last n ≠ '=' := fun heq => (h n hn).2 (by rw [heq]; decide)

section Decoding

variable {last : Char × Char} {a b c d : Char} {x y z : UInt8}

theorem byte_of_parts (h : n = x.toNat) : UInt8.ofNat n = x := by
  rw [h, UInt8.ofNat_toNat]

theorem decodeOne_digits (ha : value last a = some (x.toNat / 4)) (hn : n < 16)
    (hb : value last b = some (x.toNat % 4 * 16 + n)) : decodeOne last a b = some [x] := by
  have hbyte : UInt8.ofNat (x.toNat / 4 * 4 + (x.toNat % 4 * 16 + n) / 16) = x :=
    byte_of_parts (by omega)
  simp only [decodeOne, ha, hb, Option.bind_eq_bind, Option.bind_some, hbyte]
  rfl

theorem decodeTwo_digits (ha : value last a = some (x.toNat / 4))
    (hb : value last b = some (x.toNat % 4 * 16 + y.toNat / 16)) (hn : n < 4)
    (hc : value last c = some (y.toNat % 16 * 4 + n)) : decodeTwo last a b c = some [x, y] := by
  have hy : y.toNat < 256 := y.toNat_lt
  have hbyte : UInt8.ofNat ((x.toNat % 4 * 16 + y.toNat / 16) % 16 * 16 +
      (y.toNat % 16 * 4 + n) / 4) = y := byte_of_parts (by omega)
  simp only [decodeTwo, decodeOne_digits ha (by omega) hb, hb, hc, Option.bind_eq_bind,
    Option.bind_some, hbyte]
  rfl

theorem decodeThree_digits (ha : value last a = some (x.toNat / 4))
    (hb : value last b = some (x.toNat % 4 * 16 + y.toNat / 16))
    (hc : value last c = some (y.toNat % 16 * 4 + z.toNat / 64))
    (hd : value last d = some (z.toNat % 64)) : decodeThree last a b c d = some [x, y, z] := by
  have hz : z.toNat < 256 := z.toNat_lt
  have hbyte : UInt8.ofNat ((y.toNat % 16 * 4 + z.toNat / 64) % 4 * 64 + z.toNat % 64) = z :=
    byte_of_parts (by omega)
  simp only [decodeThree, decodeTwo_digits ha hb (by omega) hc, hc, hd, Option.bind_eq_bind,
    Option.bind_some, hbyte]
  rfl

end Decoding

theorem decode_padded (h : Proper last) (bytes : List UInt8) {k : Nat}
    (hk : k = 0 ∨ (k ≤ 2 ∧ ((encodeUnpadded last bytes).length + k) % 4 = 0)) :
    decode last (encodeUnpadded last bytes ++ List.replicate k '=') = some bytes := by
  fun_induction encodeUnpadded last bytes with
  | case1 x y z rest ih =>
    have hx : x.toNat < 256 := x.toNat_lt
    have hy : y.toNat < 256 := y.toNat_lt
    have hz : z.toNat < 256 := z.toNat_lt
    have hrest := ih (by simp only [length_cons] at hk; omega)
    simp only [cons_append]
    rw [decode, if_neg (h.ne (by omega)), if_neg (h.ne (by omega)),
      decodeThree_digits (h _ (by omega)).1 (h _ (by omega)).1 (h _ (by omega)).1
        (h _ (by omega)).1, hrest]
    rfl
  | case2 x y =>
    have hx : x.toNat < 256 := x.toNat_lt
    have hy : y.toNat < 256 := y.toNat_lt
    have htwo : decodeTwo last (digit last (x.toNat / 4))
        (digit last (x.toNat % 4 * 16 + y.toNat / 16)) (digit last (y.toNat % 16 * 4)) =
          some [x, y] :=
      decodeTwo_digits (n := 0) (h _ (by omega)).1 (h _ (by omega)).1 (by norm_num)
        (h _ (by omega)).1
    rcases hk with rfl | ⟨hle, hlen⟩
    · exact htwo
    · obtain rfl : k = 1 := by simp only [length_cons, length_nil] at hlen; omega
      show decode last [_, _, _, '='] = _
      rw [decode, if_neg (h.ne (by omega)), if_pos rfl, if_pos rfl, htwo]
  | case3 x =>
    have hx : x.toNat < 256 := x.toNat_lt
    have hone : decodeOne last (digit last (x.toNat / 4)) (digit last (x.toNat % 4 * 16)) =
        some [x] :=
      decodeOne_digits (n := 0) (h _ (by omega)).1 (by norm_num) (h _ (by omega)).1
    rcases hk with rfl | ⟨hle, hlen⟩
    · exact hone
    · obtain rfl : k = 2 := by simp only [length_cons, length_nil] at hlen; omega
      show decode last [_, _, '=', '='] = _
      rw [decode, if_pos rfl, if_pos ⟨rfl, rfl⟩, hone]
  | case4 =>
    obtain rfl : k = 0 := by simp only [length_nil] at hk; omega
    rfl

/-- The padding fills up a group of four. -/
theorem length_encodeUnpadded (last : Char × Char) (bytes : List UInt8) :
    ((encodeUnpadded last bytes).length + (3 - bytes.length % 3) % 3) % 4 = 0 := by
  fun_induction encodeUnpadded last bytes with
  | case1 x y z rest ih =>
    simp only [length_cons]
    omega
  | case2 => simp
  | case3 => simp
  | case4 => rfl

/-- Decoding undoes encoding. -/
theorem decode_encode (h : Proper last) (bytes : List UInt8) :
    decode last (encode last bytes) = some bytes :=
  decode_padded h bytes (.inr ⟨by omega, length_encodeUnpadded last bytes⟩)

/-- Decoding undoes encoding without padding. -/
theorem decode_encodeUnpadded (h : Proper last) (bytes : List UInt8) :
    decode last (encodeUnpadded last bytes) = some bytes := by
  simpa using decode_padded h bytes (.inl rfl)

theorem mem_encodeUnpadded {bytes : List UInt8} {c : Char}
    (h : c ∈ encodeUnpadded last bytes) : ∃ n < 64, c = digit last n := by
  fun_induction encodeUnpadded last bytes with
  | case1 x y z rest ih =>
    have hx : x.toNat < 256 := x.toNat_lt
    have hy : y.toNat < 256 := y.toNat_lt
    have hz : z.toNat < 256 := z.toNat_lt
    simp only [mem_cons] at h
    rcases h with rfl | rfl | rfl | rfl | h
    · exact ⟨_, by omega, rfl⟩
    · exact ⟨_, by omega, rfl⟩
    · exact ⟨_, by omega, rfl⟩
    · exact ⟨_, by omega, rfl⟩
    · exact ih h
  | case2 x y =>
    have hx : x.toNat < 256 := x.toNat_lt
    have hy : y.toNat < 256 := y.toNat_lt
    simp only [mem_cons, not_mem_nil, or_false] at h
    rcases h with rfl | rfl | rfl
    · exact ⟨_, by omega, rfl⟩
    · exact ⟨_, by omega, rfl⟩
    · exact ⟨_, by omega, rfl⟩
  | case3 x =>
    have hx : x.toNat < 256 := x.toNat_lt
    simp only [mem_cons, not_mem_nil, or_false] at h
    rcases h with rfl | rfl
    · exact ⟨_, by omega, rfl⟩
    · exact ⟨_, by omega, rfl⟩
  | case4 => cases h

-- ----
-- The other alphabet

section Partial

/-- The alphabet lacks the character, or reads it as the standard one does. -/
def Partial (last : Char × Char) (c : Char) : Prop :=
  value last c = none ∨ value last c = value standard c

theorem partial_urlSafe (h : n < 64) : Partial urlSafe (digit standard n) := by
  have hall : ∀ n < 64, value urlSafe (digit standard n) = none ∨
    value urlSafe (digit standard n) = value standard (digit standard n) := by decide
  exact hall n h

theorem partial_padding : Partial urlSafe '=' := .inl (by decide)

variable {last : Char × Char} {a b c d : Char}

theorem decodeOne_partial (ha : Partial last a) (hb : Partial last b) :
    decodeOne last a b = none ∨ decodeOne last a b = decodeOne standard a b := by
  rcases ha with ha | ha
  · exact .inl (by rw [decodeOne, ha]; rfl)
  rcases hb with hb | hb
  · exact .inl (by simp [decodeOne, hb])
  · exact .inr (by rw [decodeOne, decodeOne, ha, hb])

theorem decodeTwo_partial (ha : Partial last a) (hb : Partial last b) (hc : Partial last c) :
    decodeTwo last a b c = none ∨ decodeTwo last a b c = decodeTwo standard a b c := by
  rcases decodeOne_partial ha hb with hone | hone
  · exact .inl (by rw [decodeTwo, hone]; rfl)
  rcases hb with hb | hb
  · exact .inl (by simp [decodeTwo, hb])
  rcases hc with hc | hc
  · exact .inl (by simp [decodeTwo, hc])
  · exact .inr (by rw [decodeTwo, decodeTwo, hone, hb, hc])

theorem decodeThree_partial (ha : Partial last a) (hb : Partial last b) (hc : Partial last c)
    (hd : Partial last d) : decodeThree last a b c d = none ∨
      decodeThree last a b c d = decodeThree standard a b c d := by
  rcases decodeTwo_partial ha hb hc with htwo | htwo
  · exact .inl (by rw [decodeThree, htwo]; rfl)
  rcases hc with hc | hc
  · exact .inl (by simp [decodeThree, hc])
  rcases hd with hd | hd
  · exact .inl (by simp [decodeThree, hd])
  · exact .inr (by rw [decodeThree, decodeThree, htwo, hc, hd])

/-- A decoder that lacks some of the characters of a text throws, or does as the standard one. -/
theorem decode_partial : ∀ {text : Text}, (∀ c ∈ text, Partial last c) →
    decode last text = none ∨ decode last text = decode standard text
  | [], _ => .inr rfl
  | [_], _ => .inl rfl
  | [a, b], h => decodeOne_partial (h a (by simp)) (h b (by simp))
  | [a, b, c], h => decodeTwo_partial (h a (by simp)) (h b (by simp)) (h c (by simp))
  | a :: b :: c :: d :: rest, h => by
    simp only [forall_mem_cons] at h
    obtain ⟨ha, hb, hc, hd, hrest⟩ := h
    rw [decode, decode]
    split_ifs
    · exact decodeOne_partial ha hb
    · exact .inl rfl
    · exact decodeTwo_partial ha hb hc
    · exact .inl rfl
    · rcases decodeThree_partial ha hb hc hd with hthree | hthree
      · exact .inl (by rw [hthree]; rfl)
      rcases decode_partial hrest with hothers | hothers
      · exact .inl (by simp [hothers])
      · exact .inr (by rw [hthree, hothers])

end Partial

end Anywhere.Lib.Base64
