import Mathlib.Data.List.Basic
import Mathlib.Tactic.Linarith

/-!
# Text

A string is the list of its characters. This module holds the string functions
of the Kotlin standard library the development needs, where Lean has none that
behaves the same: number parsing with a sign, a range and all decimal digits of
the basic plane, and the search for a substring. Splitting at a character is
`List.splitOn`.
-/

namespace Anywhere.Lib

open List

abbrev Text := List Char

instance : LawfulBEq Text := inferInstanceAs (LawfulBEq (List Char))

variable {a b s : Text} {radix n bits : Nat} {c : Char}

namespace Text

-- ----
-- Numbers

/-- The zeros of the decimal digits (general category Nd) of the basic plane. -/
def digitZeros : List Nat :=
  [0x0030, 0x0660, 0x06F0, 0x07C0, 0x0966, 0x09E6, 0x0A66, 0x0AE6, 0x0B66, 0x0BE6, 0x0C66, 0x0CE6,
    0x0D66, 0x0DE6, 0x0E50, 0x0ED0, 0x0F20, 0x1040, 0x1090, 0x17E0, 0x1810, 0x1946, 0x19D0, 0x1A80,
    0x1A90, 0x1B50, 0x1BB0, 0x1C40, 0x1C50, 0xA620, 0xA8D0, 0xA900, 0xA9D0, 0xA9F0, 0xAA50, 0xABF0,
    0xFF10]

/-- The value of a digit or of a Latin letter, plain or fullwidth. -/
def digitValue (c : Char) : Option Nat :=
  match digitZeros.find? (fun z => z ≤ c.toNat && c.toNat < z + 10) with
  | some z => some (c.toNat - z)
  | none =>
    match [0x0041, 0x0061, 0xFF21, 0xFF41].find?
        (fun a => a ≤ c.toNat && c.toNat < a + 26) with
    | some a => some (c.toNat - a + 10)
    | none => none

/-- `Character.digit(c, radix)`. -/
def digitOf (c : Char) (radix : Nat) : Option Nat :=
  (digitValue c).filter (· < radix)

/-- The number with these digits, after `acc`. -/
def parseDigits (radix : Nat) : Nat → Text → Option Nat
  | acc, [] => some acc
  | acc, c :: cs =>
    match digitOf c radix with
    | none => none
    | some d => parseDigits radix (acc * radix + d) cs

/-- `toIntOrNull(radix)` and `toLongOrNull(radix)`: a sign stands in front of at
least one digit, and the value is a two's complement number of `bits` bits. -/
def toNumberOrNull (bits radix : Nat) : Text → Option Int
  | [] => none
  | c :: cs =>
    if c < '0' then
      if cs = [] then none
      else if c = '-' then
        (parseDigits radix 0 cs).bind fun n =>
          if n ≤ 2 ^ (bits - 1) then some (-(n : Int)) else none
      else if c = '+' then
        (parseDigits radix 0 cs).bind fun n =>
          if n < 2 ^ (bits - 1) then some (n : Int) else none
      else none
    else
      (parseDigits radix 0 (c :: cs)).bind fun n =>
        if n < 2 ^ (bits - 1) then some (n : Int) else none

/-- `toUIntOrNull(radix)` and the like: only a plus sign may stand in front. -/
def toUnsignedOrNull (bits radix : Nat) : Text → Option Nat
  | [] => none
  | c :: cs =>
    (if c < '0' then if cs = [] ∨ c ≠ '+' then none else parseDigits radix 0 cs
      else parseDigits radix 0 (c :: cs)).filter (· < 2 ^ bits)

theorem digitOf_digitChar {d : Nat} (hd : d < radix) (hr : radix ≤ 16) :
    digitOf d.digitChar radix = some d := by
  have hvalue : ∀ d < 16, digitValue d.digitChar = some d := by decide
  rw [digitOf, hvalue d (by omega)]
  simp [hd]

theorem parseDigits_append (radix acc : Nat) (a b : Text) :
    parseDigits radix acc (a ++ b) =
      (parseDigits radix acc a).bind fun n => parseDigits radix n b := by
  induction a generalizing acc with
  | nil => rfl
  | cons c a ih =>
    rw [cons_append, parseDigits, parseDigits]
    cases digitOf c radix with
    | none => rfl
    | some d => exact ih _

theorem parseDigits_toDigits (h1 : 1 < radix) (h16 : radix ≤ 16) (n : Nat) :
    parseDigits radix 0 (Nat.toDigits radix n) = some n := by
  induction n using Nat.strongRecOn with
  | ind n ih =>
    rw [Nat.toDigits_eq_if h1]
    split
    · rename_i hlt
      simp [parseDigits, digitOf_digitChar hlt h16]
    · rename_i hge
      have hdiv : n / radix < n := Nat.div_lt_self (by omega) h1
      rw [parseDigits_append, ih _ hdiv]
      have hmod : n % radix < radix := Nat.mod_lt _ (by omega)
      simp only [Option.bind_some, parseDigits, digitOf_digitChar hmod h16]
      rw [Nat.mul_comm, Nat.div_add_mod]

theorem digitChar_of_mem_toDigits (h1 : 1 < radix)
    (hc : c ∈ Nat.toDigits radix n) : ∃ d < radix, c = d.digitChar := by
  induction n using Nat.strongRecOn with
  | ind n ih =>
    rw [Nat.toDigits_eq_if h1] at hc
    split at hc
    · rename_i hlt
      exact ⟨n, hlt, mem_singleton.mp hc⟩
    · rename_i hge
      rcases mem_append.mp hc with hc | hc
      · exact ih _ (Nat.div_lt_self (by omega) h1) hc
      · exact ⟨n % radix, Nat.mod_lt _ (by omega), mem_singleton.mp hc⟩

theorem exists_toDigits (h1 : 1 < radix) (h16 : radix ≤ 16) (n : Nat) :
    ∃ c cs, Nat.toDigits radix n = c :: cs ∧ ¬ c < '0' := by
  cases htext : Nat.toDigits radix n with
  | nil => exact absurd htext Nat.toDigits_ne_nil
  | cons c cs =>
    obtain ⟨d, hd, rfl⟩ := digitChar_of_mem_toDigits (n := n) h1 (c := c) (by rw [htext]; simp)
    have hsign : ∀ d : Nat, d < 16 → ¬ d.digitChar < '0' := by decide
    exact ⟨_, cs, rfl, hsign d (by omega)⟩

/-- **Printing and parsing.** -/
theorem toNumberOrNull_toDigits (h1 : 1 < radix) (h16 : radix ≤ 16)
    (hn : n < 2 ^ (bits - 1)) :
    toNumberOrNull bits radix (Nat.toDigits radix n) = some (n : Int) := by
  have hparse := parseDigits_toDigits h1 h16 n
  obtain ⟨c, cs, htext, hsign⟩ := exists_toDigits h1 h16 n
  rw [htext] at hparse ⊢
  simp [toNumberOrNull, hsign, hparse, hn]

/-- A printed number without a sign parses to itself. -/
theorem toUnsignedOrNull_toDigits (h1 : 1 < radix) (h16 : radix ≤ 16)
    (hn : n < 2 ^ bits) : toUnsignedOrNull bits radix (Nat.toDigits radix n) = some n := by
  have hparse := parseDigits_toDigits h1 h16 n
  obtain ⟨c, cs, htext, hsign⟩ := exists_toDigits h1 h16 n
  rw [htext] at hparse ⊢
  rw [toUnsignedOrNull, if_neg hsign, hparse, Option.filter_some, decide_eq_true hn, if_pos rfl]

/-- A character that is no digit, behind the first one, makes a number null. -/
theorem toNumberOrNull_eq_none
    (ha : a ≠ []) (hc : digitOf c radix = none) :
    toNumberOrNull bits radix (a ++ c :: b) = none := by
  have hparse : ∀ (a : Text) acc, parseDigits radix acc (a ++ c :: b) = none := by
    intro a acc
    rw [parseDigits_append]
    cases parseDigits radix acc a with
    | none => rfl
    | some n => simp [parseDigits, hc]
  cases a with
  | nil => exact absurd rfl ha
  | cons x a =>
    rw [cons_append, toNumberOrNull, hparse a, ← cons_append, hparse (x :: a)]
    simp

-- ----
-- Substrings

/-- `indexOf(pattern)`. -/
def indexOf (pattern : Text) : Text → Option Nat
  | [] => if pattern = [] then some 0 else none
  | c :: cs =>
    if pattern.isPrefixOf (c :: cs) then some 0 else (indexOf pattern cs).map (· + 1)

/-- Every separator of a text is followed by another character. -/
def SepInside (sep : Char) : Text → Prop
  | [] => True
  | c :: cs => (c = sep → ∃ d ds, cs = d :: ds ∧ d ≠ sep) ∧ SepInside sep cs

variable {sep : Char}

theorem sepInside_of_notMem (h : sep ∉ a) : SepInside sep a := by
  induction a with
  | nil => trivial
  | cons c a ih =>
    rw [mem_cons, not_or] at h
    exact ⟨fun hc => absurd hc.symm h.1, ih h.2⟩

theorem sepInside_append (ha : SepInside sep a) {d : Char} (hd : d ≠ sep)
    (hb : SepInside sep (d :: b)) : SepInside sep (a ++ sep :: d :: b) := by
  induction a with
  | nil => exact ⟨fun _ => ⟨d, b, rfl, hd⟩, hb⟩
  | cons c a ih =>
    refine ⟨fun hc => ?_, ih ha.2⟩
    obtain ⟨e, es, rfl, he⟩ := ha.1 hc
    exact ⟨e, es ++ sep :: d :: b, rfl, he⟩

theorem sepInside_intercalate {groups : List Text} (hne : ∀ g ∈ groups, g ≠ [])
    (hsep : ∀ g ∈ groups, sep ∉ g) : SepInside sep ([sep].intercalate groups) := by
  induction groups with
  | nil => trivial
  | cons g groups ih =>
    cases groups with
    | nil => simpa using sepInside_of_notMem (hsep g (by simp))
    | cons g' groups =>
      have hrest := ih (fun g hg => hne g (by simp [hg])) (fun g hg => hsep g (by simp [hg]))
      rw [intercalate_cons_cons]
      -- the second group starts with a character that is no separator
      have hg' : g' ≠ [] := hne g' (by simp)
      cases hg'' : g' with
      | nil => exact absurd hg'' hg'
      | cons d ds =>
        subst hg''
        have hd : d ≠ sep := fun h => hsep (d :: ds) (by simp) (by simp [h])
        obtain ⟨tail, htail⟩ : ∃ tail, [sep].intercalate ((d :: ds) :: groups) = d :: tail := by
          cases groups with
          | nil => exact ⟨ds, by simp⟩
          | cons x xs =>
            rw [intercalate_cons_cons]
            exact ⟨ds ++ [sep] ++ [sep].intercalate (x :: xs), rfl⟩
        rw [htail] at hrest ⊢
        rw [append_assoc, singleton_append]
        exact sepInside_append (sepInside_of_notMem (hsep g (by simp))) hd hrest

/-- The double separator is found behind a text in which no separator is
doubled. -/
theorem indexOf_append {a : Text} (ha : SepInside sep a) (b : Text) :
    indexOf [sep, sep] (a ++ sep :: sep :: b) = some a.length := by
  induction a with
  | nil => simp [indexOf, List.isPrefixOf]
  | cons c a ih =>
    have hno : [sep, sep].isPrefixOf (c :: (a ++ sep :: sep :: b)) = false := by
      by_cases hc : c = sep
      · obtain ⟨d, ds, rfl, hd⟩ := ha.1 hc
        simp [List.isPrefixOf, Ne.symm hd]
      · simp [List.isPrefixOf, Ne.symm hc]
    rw [cons_append, indexOf, hno, ih ha.2]
    rfl

theorem indexOf_eq_none (ha : SepInside sep a) : indexOf [sep, sep] a = none := by
  induction a with
  | nil => rfl
  | cons c a ih =>
    have hno : [sep, sep].isPrefixOf (c :: a) = false := by
      by_cases hc : c = sep
      · obtain ⟨d, ds, rfl, hd⟩ := ha.1 hc
        simp [List.isPrefixOf, Ne.symm hd]
      · simp [List.isPrefixOf, Ne.symm hc]
    rw [indexOf, hno, ih ha.2]
    rfl

/-- `lastIndexOf(c)`. -/
def lastIndexOf (c : Char) : Text → Option Nat
  | [] => none
  | d :: ds =>
    match lastIndexOf c ds with
    | some i => some (i + 1)
    | none => if d = c then some 0 else none

theorem lastIndexOf_eq_none : lastIndexOf c s = none ↔ c ∉ s := by
  induction s with
  | nil => simp [lastIndexOf]
  | cons d ds ih =>
    rw [lastIndexOf, mem_cons, not_or, ← ih]
    cases hlast : lastIndexOf c ds with
    | some i => simp
    | none => simp [eq_comm]

theorem lastIndexOf_eq_some {i : Nat} :
    lastIndexOf c s = some i ↔ ∃ a b, s = a ++ c :: b ∧ c ∉ b ∧ a.length = i := by
  constructor
  · intro h
    induction s generalizing i with
    | nil => cases h
    | cons d ds ih =>
      rw [lastIndexOf] at h
      cases hlast : lastIndexOf c ds with
      | some j =>
        rw [hlast] at h
        cases h
        obtain ⟨a, b, rfl, hb, rfl⟩ := ih hlast
        exact ⟨d :: a, b, rfl, hb, rfl⟩
      | none =>
        simp only [hlast] at h
        split at h
        · rename_i hd
          cases h
          exact ⟨[], ds, by rw [hd]; rfl, lastIndexOf_eq_none.1 hlast, rfl⟩
        · cases h
  · rintro ⟨a, b, rfl, hb, rfl⟩
    induction a with
    | nil => simp [lastIndexOf, lastIndexOf_eq_none.2 hb]
    | cons d a ih => rw [cons_append, lastIndexOf, ih]; rfl

def cutLast (sep : Char) (s : Text) : Option (Text × Text) :=
  (lastIndexOf sep s).map fun i => (s.take i, s.drop (i + 1))

theorem cutLast_append (hb : sep ∉ b) : cutLast sep (a ++ sep :: b) = some (a, b) := by
  rw [cutLast, lastIndexOf_eq_some.2 ⟨a, b, rfl, hb, rfl⟩, Option.map_some, take_left,
    ← drop_drop, drop_left, drop_one, tail_cons]

-- ----
-- White space

/-- `isWhitespace()`. -/
def isWhitespace (c : Char) : Bool :=
  (0x09 ≤ c.toNat && c.toNat ≤ 0x0D) || (0x1C ≤ c.toNat && c.toNat ≤ 0x20) ||
    [0x00A0, 0x1680, 0x2028, 0x2029, 0x202F, 0x205F, 0x3000].contains c.toNat ||
    (0x2000 ≤ c.toNat && c.toNat ≤ 0x200A)

/-- `trim()`. -/
def trim (s : Text) : Text := ((s.dropWhile isWhitespace).reverse.dropWhile isWhitespace).reverse

theorem trim_of_none (h : ∀ c ∈ s, isWhitespace c = false) : s.trim = s := by
  have hdrop : ∀ {s : Text}, (∀ c ∈ s, isWhitespace c = false) → s.dropWhile isWhitespace = s := by
    intro s h
    cases s with
    | nil => rfl
    | cons c cs => exact dropWhile_cons_of_neg (by rw [h c mem_cons_self]; exact nofun)
  rw [trim, hdrop h, hdrop fun c hc => h c (mem_reverse.mp hc), reverse_reverse]

/-- White space around a word is taken off. -/
theorem trim_padded {before after : Text} (hbefore : ∀ c ∈ before, isWhitespace c = true)
    (hafter : ∀ c ∈ after, isWhitespace c = true) (h : ∀ c ∈ s, isWhitespace c = false)
    (hne : s ≠ []) :
    trim (before ++ s ++ after) = s := by
  have hstop : ∀ {s : Text} (rest : Text), s ≠ [] → (∀ c ∈ s, isWhitespace c = false) →
      (s ++ rest).dropWhile isWhitespace = s ++ rest := by
    intro s rest hne h
    cases s with
    | nil => exact absurd rfl hne
    | cons c cs => exact dropWhile_cons_of_neg (by rw [h c mem_cons_self]; exact nofun)
  rw [trim, append_assoc, dropWhile_append_of_pos hbefore, hstop after hne h,
    reverse_append, dropWhile_append_of_pos fun c hc => hafter c (mem_reverse.mp hc)]
  have hreverse := hstop [] (reverse_ne_nil_iff.mpr hne) fun c hc => h c (mem_reverse.mp hc)
  rw [append_nil] at hreverse
  rw [hreverse, reverse_reverse]

-- ----
-- Splitting

/-- What stands before the first separator, and behind it. -/
def cut (sep : Char) : Text → Text × Option Text
  | [] => ([], none)
  | c :: cs => if c = sep then ([], some cs) else (c :: (cut sep cs).1, (cut sep cs).2)

theorem cut_notMem (h : sep ∉ s) : cut sep s = (s, none) := by
  induction s with
  | nil => rfl
  | cons c cs ih =>
    rw [mem_cons, not_or] at h
    rw [cut, if_neg (Ne.symm h.1), ih h.2]

theorem cut_eq_some : cut sep s = (a, some b) ↔ s = a ++ sep :: b ∧ sep ∉ a := by
  induction s generalizing a with
  | nil => simp [cut]
  | cons c cs ih =>
    rw [cut]
    by_cases hc : c = sep
    · subst hc
      rw [if_pos rfl]
      cases a with
      | nil => simp
      | cons d ds =>
        simp only [Prod.mk.injEq, reduceCtorEq, false_and, cons_append, List.cons.injEq,
          mem_cons, not_or, false_iff, not_and, not_not]
        exact fun hd hne => absurd hd.1 hne
    · rw [if_neg hc]
      cases a with
      | nil => simp [hc]
      | cons d ds =>
        have := ih (a := ds)
        rw [Prod.ext_iff] at this ⊢
        simp only [List.cons.injEq, cons_append, mem_cons, not_or] at this ⊢
        constructor
        · rintro ⟨⟨rfl, hds⟩, hb⟩
          obtain ⟨hcs, hsep⟩ := this.mp ⟨hds, hb⟩
          exact ⟨⟨rfl, hcs⟩, Ne.symm hc, hsep⟩
        · rintro ⟨⟨rfl, hcs⟩, -, hsep⟩
          obtain ⟨hds, hb⟩ := this.mpr ⟨hcs, hsep⟩
          exact ⟨⟨rfl, hds⟩, hb⟩

/-- `split(sep, limit = n)`: at most `n` parts, the last one with what is left;
no limit for 0. -/
def splitLimit (sep : Char) : Nat → Text → List Text
  | 0, s => s.splitOn sep
  | 1, s => [s]
  | n + 2, s =>
    match (cut sep s).2 with
    | none => [s]
    | some rest => (cut sep s).1 :: splitLimit sep (n + 1) rest

theorem splitLimit_two :
    splitLimit sep 2 s = [a, b] ↔ s = a ++ sep :: b ∧ sep ∉ a := by
  rw [← cut_eq_some, splitLimit, Prod.ext_iff]
  cases (cut sep s).2 with
  | none => simp
  | some rest => simp [splitLimit]

/-- `split("\r\n")`. -/
def splitLines : Text → List Text
  | [] => [[]]
  | '\r' :: '\n' :: rest => [] :: splitLines rest
  | c :: rest =>
    match splitLines rest with
    | line :: lines => (c :: line) :: lines
    | [] => [[c]]

theorem splitLines_ne_nil (s : Text) : splitLines s ≠ [] := by
  fun_cases splitLines s <;> simp

theorem splitLines_cons {line : Text} {lines : List Text}
    (hbreak : ∀ rest, c = '\r' → s ≠ '\n' :: rest) (h : splitLines s = line :: lines) :
    splitLines (c :: s) = (c :: line) :: lines := by
  rw [splitLines]
  · rw [h]
  · exact fun rest hc hs => hbreak rest hc hs

theorem splitLines_front {front line : Text} {lines : List Text} (hfront : '\r' ∉ front)
    (h : splitLines s = line :: lines) : splitLines (front ++ s) = (front ++ line) :: lines := by
  induction front with
  | nil => exact h
  | cons c front ih =>
    rw [mem_cons, not_or] at hfront
    exact splitLines_cons (fun _ hc => absurd hc.symm hfront.1) (ih hfront.2)

theorem splitLines_append (s rest : Text) :
    splitLines (s ++ '\r' :: '\n' :: rest) = splitLines s ++ splitLines rest := by
  induction s using splitLines.induct with
  | case1 => rfl
  | case2 s ih =>
    show [] :: splitLines (s ++ '\r' :: '\n' :: rest) = [] :: splitLines s ++ splitLines rest
    rw [ih]
    rfl
  | case3 c s hbreak line lines hlines ih =>
    rw [splitLines_cons (fun r hc hs => hbreak r hc hs) hlines, cons_append]
    refine splitLines_cons (fun r hc => ?_) (ih.trans (by rw [hlines]; rfl))
    cases s with
    | nil => exact fun hs => absurd (List.cons.inj hs).1 (by decide)
    | cons d s =>
      exact fun hs => hbreak s hc (by rw [(List.cons.inj hs).1])
  | case4 c s hbreak hnil => exact absurd hnil (splitLines_ne_nil s)

/-- `toByteArray(Charsets.UTF_8).size`. -/
def utf8Length (s : Text) : Nat := (s.map Char.utf8Size).sum

end Text

end Anywhere.Lib
