import Mathlib.Data.List.Basic
import Anywhere.Lib.Text

/-!
# UTF-8

Decoding as `String(bytes, UTF_8)` does it: a sequence that is not well formed
becomes one U+FFFD, and decoding goes on behind the longest part of it that could
have begun a character.

* `nextChar` — the first character, and the bytes behind it.
-/

namespace Anywhere.Lib

open List

def isTail (b : UInt8) : Bool := 0x80 ≤ b.toNat && b.toNat ≤ 0xBF

/-- A second byte: the bounds keep overlong forms, surrogates and what lies behind
U+10FFFF out. -/
def isSecond (lead b : UInt8) : Bool :=
  (if lead.toNat = 0xE0 then 0xA0 else if lead.toNat = 0xF0 then 0x90 else 0x80) ≤ b.toNat &&
    b.toNat ≤ (if lead.toNat = 0xED then 0x9F else if lead.toNat = 0xF4 then 0x8F else 0xBF)

def replacement : Char := Char.ofNat 0xFFFD

/-- The first character of a nonempty list of bytes, and the bytes behind it. -/
def nextChar (b0 : UInt8) (bytes : List UInt8) : Char × List UInt8 :=
  if b0.toNat < 0x80 then (Char.ofNat b0.toNat, bytes)
  else if 0xC2 ≤ b0.toNat && b0.toNat ≤ 0xDF then
    match bytes with
    | b1 :: r1 =>
      if isTail b1 then (Char.ofNat ((b0.toNat - 0xC0) * 64 + (b1.toNat - 0x80)), r1)
      else (replacement, bytes)
    | [] => (replacement, bytes)
  else if 0xE0 ≤ b0.toNat && b0.toNat ≤ 0xEF then
    match bytes with
    | b1 :: r1 =>
      if isSecond b0 b1 then
        match r1 with
        | b2 :: r2 =>
          if isTail b2 then
            (Char.ofNat ((b0.toNat - 0xE0) * 4096 + (b1.toNat - 0x80) * 64 + (b2.toNat - 0x80)), r2)
          else (replacement, r1)
        | [] => (replacement, r1)
      else (replacement, bytes)
    | [] => (replacement, bytes)
  else if 0xF0 ≤ b0.toNat && b0.toNat ≤ 0xF4 then
    match bytes with
    | b1 :: r1 =>
      if isSecond b0 b1 then
        match r1 with
        | b2 :: r2 =>
          if isTail b2 then
            match r2 with
            | b3 :: r3 =>
              if isTail b3 then
                (Char.ofNat ((b0.toNat - 0xF0) * 262144 + (b1.toNat - 0x80) * 4096 +
                  (b2.toNat - 0x80) * 64 + (b3.toNat - 0x80)), r3)
              else (replacement, r2)
            | [] => (replacement, r2)
          else (replacement, r1)
        | [] => (replacement, r1)
      else (replacement, bytes)
    | [] => (replacement, bytes)
  else (replacement, bytes)

/-- The first `n` characters. -/
def decodeChars : Nat → List UInt8 → Text
  | 0, _ => []
  | _ + 1, [] => []
  | n + 1, b :: bytes => (nextChar b bytes).1 :: decodeChars n (nextChar b bytes).2

/-- `String(bytes, Charsets.UTF_8)`; a character takes at least one byte. -/
def decodeUtf8 (bytes : List UInt8) : Text := decodeChars bytes.length bytes

-- ----
-- Decoding what was encoded

theorem nextChar_two {b0 b1 : UInt8} (h0 : 0xC2 ≤ b0.toNat) (h0' : b0.toNat ≤ 0xDF)
    (h1 : isTail b1 = true) (zs : List UInt8) :
    nextChar b0 (b1 :: zs) = (Char.ofNat ((b0.toNat - 0xC0) * 64 + (b1.toNat - 0x80)), zs) := by
  have h : ¬ b0.toNat < 0x80 := by omega
  simp [nextChar, h, h0, h0', h1]

theorem nextChar_three {b0 b1 b2 : UInt8} (h0 : 0xE0 ≤ b0.toNat) (h0' : b0.toNat ≤ 0xEF)
    (h1 : isSecond b0 b1 = true) (h2 : isTail b2 = true) (zs : List UInt8) :
    nextChar b0 (b1 :: b2 :: zs) =
      (Char.ofNat ((b0.toNat - 0xE0) * 4096 + (b1.toNat - 0x80) * 64 + (b2.toNat - 0x80)), zs) := by
  have h : ¬ b0.toNat < 0x80 := by omega
  have hd : ¬ b0.toNat ≤ 0xDF := by omega
  simp [nextChar, h, hd, h0, h0', h1, h2]

theorem nextChar_four {b0 b1 b2 b3 : UInt8} (h0 : 0xF0 ≤ b0.toNat) (h0' : b0.toNat ≤ 0xF4)
    (h1 : isSecond b0 b1 = true) (h2 : isTail b2 = true) (h3 : isTail b3 = true)
    (zs : List UInt8) :
    nextChar b0 (b1 :: b2 :: b3 :: zs) =
      (Char.ofNat ((b0.toNat - 0xF0) * 262144 + (b1.toNat - 0x80) * 4096 +
        (b2.toNat - 0x80) * 64 + (b3.toNat - 0x80)), zs) := by
  have h : ¬ b0.toNat < 0x80 := by omega
  have hd : ¬ b0.toNat ≤ 0xDF := by omega
  have he : ¬ b0.toNat ≤ 0xEF := by omega
  simp [nextChar, h, hd, he, h0, h0', h1, h2, h3]

theorem char_ofNat_val (c : Char) {n : Nat} (h : n = c.val.toNat) : Char.ofNat n = c := by
  rw [h]
  exact Char.ofNat_toNat c

theorem isTail_ofNat (n : Nat) : isTail (UInt8.ofNat (n % 64 + 128)) = true := by
  simp [isTail]
  omega

theorem toNat_ofNat_add {n k : Nat} (h : n + k < 256) : (UInt8.ofNat (n + k)).toNat = n + k := by
  rw [UInt8.toNat_ofNat']
  exact Nat.mod_eq_of_lt h

/-- The bytes of a character give it back, whatever stands behind them. -/
theorem nextChar_encode (c : Char) (zs : List UInt8) :
    ∃ b bs, String.utf8EncodeChar c = b :: bs ∧ nextChar b (bs ++ zs) = (c, zs) := by
  have hv : c.val.toNat < 0xD800 ∨ (0xDFFF < c.val.toNat ∧ c.val.toNat < 0x110000) := c.valid
  have htail : ∀ n, (UInt8.ofNat (n % 64 + 128)).toNat = n % 64 + 128 := fun n =>
    toNat_ofNat_add (by omega)
  unfold String.utf8EncodeChar
  simp only
  split
  · refine ⟨_, _, rfl, ?_⟩
    have hb : (UInt8.ofNat c.val.toNat).toNat = c.val.toNat := by
      rw [UInt8.toNat_ofNat']
      omega
    have h80 : (UInt8.ofNat c.val.toNat).toNat < 0x80 := by omega
    show nextChar _ zs = _
    simp only [nextChar, h80, if_true]
    rw [char_ofNat_val c hb]
  split
  · refine ⟨_, _, rfl, ?_⟩
    have hb := toNat_ofNat_add (n := c.val.toNat / 64 % 32) (k := 192) (by omega)
    show nextChar _ (_ :: zs) = _
    rw [nextChar_two (by omega) (by omega) (isTail_ofNat _)]
    rw [char_ofNat_val c (by rw [hb, htail]; omega)]
  split
  · refine ⟨_, _, rfl, ?_⟩
    have hb := toNat_ofNat_add (n := c.val.toNat / 4096 % 16) (k := 224) (by omega)
    have hs : isSecond (UInt8.ofNat (c.val.toNat / 4096 % 16 + 224))
        (UInt8.ofNat (c.val.toNat / 64 % 64 + 128)) = true := by
      simp only [isSecond, hb, htail, Bool.and_eq_true, decide_eq_true_eq]
      refine ⟨?_, ?_⟩ <;> split_ifs <;> omega
    show nextChar _ (_ :: _ :: zs) = _
    rw [nextChar_three (by omega) (by omega) hs (isTail_ofNat _)]
    rw [char_ofNat_val c (by rw [hb, htail, htail]; omega)]
  · refine ⟨_, _, rfl, ?_⟩
    have hb := toNat_ofNat_add (n := c.val.toNat / 262144 % 8) (k := 240) (by omega)
    have hs : isSecond (UInt8.ofNat (c.val.toNat / 262144 % 8 + 240))
        (UInt8.ofNat (c.val.toNat / 4096 % 64 + 128)) = true := by
      simp only [isSecond, hb, htail, Bool.and_eq_true, decide_eq_true_eq]
      refine ⟨?_, ?_⟩ <;> split_ifs <;> omega
    show nextChar _ (_ :: _ :: _ :: zs) = _
    rw [nextChar_four (by omega) (by omega) hs (isTail_ofNat _) (isTail_ofNat _)]
    rw [char_ofNat_val c (by rw [hb, htail, htail, htail]; omega)]

theorem decodeChars_encode (text : Text) {n : Nat}
    (hn : (text.flatMap String.utf8EncodeChar).length ≤ n) :
    decodeChars n (text.flatMap String.utf8EncodeChar) = text := by
  induction text generalizing n with
  | nil =>
    rcases n with _ | n <;> rfl
  | cons c text ih =>
    obtain ⟨b, bs, hc, hnext⟩ := nextChar_encode c (text.flatMap String.utf8EncodeChar)
    rw [flatMap_cons, hc] at hn ⊢
    rcases n with _ | n
    · simp at hn
    · rw [cons_append, decodeChars, hnext]
      rw [ih (by simp at hn; simp; omega)]

/-- Decoding undoes encoding. -/
theorem decodeUtf8_encode (text : Text) : decodeUtf8 (text.flatMap String.utf8EncodeChar) = text :=
  decodeChars_encode text (Nat.le_refl _)

-- ----
-- Bytes below 0x80

theorem length_nextChar_le (b : UInt8) (bytes : List UInt8) :
    (nextChar b bytes).2.length ≤ bytes.length := by
  unfold nextChar
  repeat' split
  all_goals simp only [length_cons]
  all_goals omega

theorem decodeChars_of_le {n m : Nat} {bytes : List UInt8} (hn : bytes.length ≤ n)
    (hm : bytes.length ≤ m) :
    decodeChars n bytes = decodeChars m bytes := by
  induction n generalizing m bytes with
  | zero =>
    obtain rfl := eq_nil_of_length_eq_zero (Nat.le_zero.mp hn)
    cases m <;> rfl
  | succ n ih =>
    cases bytes with
    | nil => cases m <;> rfl
    | cons b bytes =>
      have hle := length_nextChar_le b bytes
      rw [length_cons] at hn hm
      obtain ⟨m, rfl⟩ : ∃ k, m = k + 1 := ⟨m - 1, by omega⟩
      rw [decodeChars, decodeChars, @ih m _ (by omega) (by omega)]

theorem decodeUtf8_cons (b : UInt8) (bytes : List UInt8) :
    decodeUtf8 (b :: bytes) = (nextChar b bytes).1 :: decodeUtf8 (nextChar b bytes).2 := by
  have hle := length_nextChar_le b bytes
  rw [decodeUtf8, length_cons, decodeChars, decodeUtf8, decodeChars_of_le hle (Nat.le_refl _)]

theorem nextChar_append_ascii (b : UInt8) (bytes : List UInt8) {x : UInt8} (hx : x.toNat < 0x80)
    (more : List UInt8) :
    nextChar b (bytes ++ x :: more) = ((nextChar b bytes).1,
      (nextChar b bytes).2 ++ x :: more) := by
  have htail : isTail x = false := by
    simp [isTail]
    omega
  have hsecond : ∀ lead, isSecond lead x = false := fun lead => by
    simp only [isSecond, Bool.and_eq_false_iff, decide_eq_false_iff_not]
    left
    split_ifs <;> omega
  unfold nextChar
  rcases bytes with _ | ⟨b1, _ | ⟨b2, _ | ⟨b3, r⟩⟩⟩ <;>
    simp only [nil_append, cons_append, htail, hsecond, Bool.false_eq_true, if_false] <;>
    split_ifs <;> simp only [nil_append, cons_append]

/-- A byte below 0x80 is decoded to itself, whatever is around it. -/
theorem decodeUtf8_append_ascii (bytes : List UInt8) {x : UInt8} (hx : x.toNat < 0x80)
    (more : List UInt8) :
    decodeUtf8 (bytes ++ x :: more) = decodeUtf8 bytes ++ Char.ofNat x.toNat ::
      decodeUtf8 more := by
  induction hn : bytes.length using Nat.strong_induction_on generalizing bytes with
  | _ n ih =>
    cases bytes with
    | nil =>
      rw [nil_append, decodeUtf8_cons, nextChar.eq_def, if_pos hx]
      rfl
    | cons b bytes =>
      have hle := length_nextChar_le b bytes
      rw [length_cons] at hn
      rw [cons_append, decodeUtf8_cons, decodeUtf8_cons, nextChar_append_ascii b bytes hx,
        ih _ (by omega) _ rfl, cons_append]

theorem decodeUtf8_ascii {bytes : List UInt8} (h : ∀ b ∈ bytes, b.toNat < 0x80)
    (more : List UInt8) :
    decodeUtf8 (bytes ++ more) = bytes.map (Char.ofNat ·.toNat) ++ decodeUtf8 more := by
  induction bytes with
  | nil => rfl
  | cons b bytes ih =>
    have := decodeUtf8_append_ascii [] (h b mem_cons_self) (bytes ++ more)
    rw [nil_append] at this
    rw [cons_append, this, ih fun c hc => h c (mem_cons_of_mem b hc)]
    rfl

end Anywhere.Lib
