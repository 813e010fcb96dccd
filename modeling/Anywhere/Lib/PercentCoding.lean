import Anywhere.Lib.Utf8

/-!
# Percent coding

Texts as `java.net.URLEncoder` writes them and `java.net.URLDecoder` reads them, in UTF-8: an
escape is a percent sign and two hexadecimal digits, a plus sign is a space, and a run of
escapes is read as one string of bytes.
-/

namespace Anywhere.Lib.PercentCoding

open List

def hexDigit (n : Nat) : Char := (Nat.digitChar n).toUpper

def hexValue (c : Char) : Option Nat :=
  if '0' ≤ c ∧ c ≤ '9' then some (c.toNat - 48)
  else if 'A' ≤ c ∧ c ≤ 'F' then some (c.toNat - 55)
  else if 'a' ≤ c ∧ c ≤ 'f' then some (c.toNat - 87)
  else none

/-- A character that stands for itself. -/
def isUnreserved (c : Char) : Bool := c.isAlphanum || ['-', '_', '.', '*'].contains c

def escape (b : UInt8) : Text := ['%', hexDigit (b.toNat / 16), hexDigit (b.toNat % 16)]

/-- `URLEncoder.encode(text, "UTF-8")`. -/
def formEncode (text : Text) : Text :=
  text.flatMap fun c =>
    if isUnreserved c then [c]
    else if c = ' ' then ['+']
    else (String.utf8EncodeChar c).flatMap escape

/-- The loop of `URLDecoder.decode(text, "UTF-8")`, with the bytes of the escapes right before;
none where it throws. -/
def formDecodeLoop : List UInt8 → Text → Option Text
  | run, [] => some (decodeUtf8 run)
  | run, '%' :: a :: b :: rest =>
    match hexValue a, hexValue b with
    | some high, some low => formDecodeLoop (run ++ [UInt8.ofNat (high * 16 + low)]) rest
    | _, _ => none
  | run, c :: rest =>
    if c = '%' then none
    else
      (formDecodeLoop [] rest).map fun text => decodeUtf8 run ++ (if c = '+' then ' '
        else c) :: text

def formDecode (text : Text) : Option Text := formDecodeLoop [] text

/-- Every percent sign stands in front of two hexadecimal digits. -/
def wellEscaped : Text → Bool
  | [] => true
  | '%' :: a :: b :: rest => (hexValue a).isSome && (hexValue b).isSome && wellEscaped rest
  | c :: rest => c ≠ '%' && wellEscaped rest

attribute [local grind =] formDecodeLoop wellEscaped

-- ----
-- Escapes

theorem hexValue_hexDigit {n : Nat} (h : n < 16) : hexValue (hexDigit n) = some n := by
  have hall : ∀ n < 16, hexValue (hexDigit n) = some n := by decide
  exact hall n h

theorem isUnreserved_hexDigit {n : Nat} (h : n < 16) : isUnreserved (hexDigit n) = true := by
  have hall : ∀ n < 16, isUnreserved (hexDigit n) = true := by decide
  exact hall n h

theorem mem_escape {b : UInt8} {c : Char} (h : c ∈ escape b) :
    c = '%' ∨ isUnreserved c = true := by
  have hlt : b.toNat < 256 := b.toNat_lt
  simp only [escape, mem_cons, not_mem_nil, or_false] at h
  rcases h with rfl | rfl | rfl
  · exact .inl rfl
  · exact .inr (isUnreserved_hexDigit (by omega))
  · exact .inr (isUnreserved_hexDigit (by omega))

theorem formDecodeLoop_escape (run : List UInt8) (b : UInt8) (rest : Text) :
    formDecodeLoop run (escape b ++ rest) = formDecodeLoop (run ++ [b]) rest := by
  have hlt : b.toNat < 256 := b.toNat_lt
  have hbyte : UInt8.ofNat (b.toNat / 16 * 16 + b.toNat % 16) = b := by
    rw [Nat.mul_comm, Nat.div_add_mod, UInt8.ofNat_toNat]
  rw [escape, cons_append, cons_append, singleton_append, formDecodeLoop,
    hexValue_hexDigit (by omega), hexValue_hexDigit (by omega)]
  simp only [hbyte]

/-- A run of escapes gives its bytes. -/
theorem formDecodeLoop_escapes (run bytes : List UInt8) (rest : Text) :
    formDecodeLoop run (bytes.flatMap escape ++ rest) = formDecodeLoop (run ++ bytes) rest := by
  induction bytes generalizing run with
  | nil => rw [flatMap_nil, nil_append, append_nil]
  | cons b bytes ih =>
    rw [flatMap_cons, append_assoc, formDecodeLoop_escape, ih, append_assoc]
    rfl

theorem formDecodeLoop_char {c : Char} (hescape : c ≠ '%') (run : List UInt8) (rest : Text) :
    formDecodeLoop run (c :: rest) = (formDecodeLoop [] rest).map fun text =>
      decodeUtf8 run ++ (if c = '+' then ' ' else c) :: text := by
  rw [formDecodeLoop, if_neg hescape]
  intro a b others hc
  exact absurd hc hescape

theorem wellEscaped_char {c : Char} (hescape : c ≠ '%') (rest : Text) :
    wellEscaped (c :: rest) = wellEscaped rest := by
  rw [wellEscaped, decide_eq_true hescape, Bool.true_and]
  intro a b others hc
  exact absurd hc hescape

/-- What can be decoded. -/
theorem formDecodeLoop_isSome (run : List UInt8) (text : Text) :
    (formDecodeLoop run text).isSome = wellEscaped text := by
  fun_induction formDecodeLoop run text with
  | case1 run => rfl
  | case2 run a b rest high low ha hb ih => rw [wellEscaped, ha, hb, ih]; rfl
  | case3 run a b rest hother =>
    rw [wellEscaped]
    cases ha : hexValue a with
    | none => rfl
    | some high =>
      cases hb : hexValue b with
      | none => rfl
      | some low => exact absurd hb (hother high low ha)
  | case4 run rest hshort =>
    rw [wellEscaped, decide_eq_false (not_not.mpr rfl), Bool.false_and]
    · rfl
    · exact hshort
  | case5 run c rest hshort hc ih => rw [wellEscaped_char hc, Option.isSome_map, ih]

/-- Escapes do not reach over a character that is neither a percent sign nor a digit. -/
theorem wellEscaped_append {c : Char} (hescape : c ≠ '%') (hdigit : hexValue c = none)
    (a b : Text) :
    wellEscaped (a ++ c :: b) = (wellEscaped a && wellEscaped b) := by
  fun_induction wellEscaped a with
  | case1 => exact wellEscaped_char hescape b
  | case2 x y rest ih =>
    show wellEscaped ('%' :: x :: y :: (rest ++ c :: b)) = _
    rw [wellEscaped, ih, Bool.and_assoc, Bool.and_assoc, Bool.and_assoc]
  | case3 x rest hshort ih =>
    by_cases hx : x = '%'
    · subst hx
      rcases rest with _ | ⟨x, _ | ⟨y, rest⟩⟩
      · rcases b with _ | ⟨y, b⟩ <;> simp [wellEscaped, hdigit]
      · simp [wellEscaped, hdigit]
      · exact absurd rfl (hshort x y rest rfl)
    · rw [cons_append, wellEscaped_char hx, ih, decide_eq_true hx, Bool.true_and]

end Anywhere.Lib.PercentCoding
