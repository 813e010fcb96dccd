import Anywhere.Lib.ArrayReads
import Anywhere.Lib.Ranges
import Anywhere.Naive.Hpack

/-!
# Anywhere — `HpackDecoder`: what does not fit

The integers of a header block have no bound, those of the decoder have 31 bits: its sums and shifts
wrap, and its check of a string's end does too. Beside the decoder stands a walk over the block that
counts in numbers of any size.
-/

namespace Anywhere.Naive

open Lib

/-- A sum of two words above their range. -/
theorem int32_of_large {n : Int} (h : 0x80000000 ≤ n) (h' : n < 0x100000000) :
    int32 n = n - 0x100000000 := by
  unfold int32
  rw [Int.bmod_def]
  split <;> omega

variable {m bits n : Nat} {c : Cursor}

namespace HpackDecoder

-- ----
-- The walk

/-- The length of `data`. -/
def Cursor.size (c : Cursor) : Nat := c.offset + c.rest.length

def Cursor.skip (n : Nat) (c : Cursor) : Cursor := ⟨c.offset + n, c.rest.drop n⟩

/-- An integer that ends in `data`. -/
def walkInteger (bits : Nat) (c : Cursor) : Walk (Nat × Cursor) :=
  if Hpack.integerComplete bits c.rest then
    ⟨[Hpack.integerValue bits c.rest],
      some (Hpack.integerValue bits c.rest, c.skip (Hpack.integerCount bits c.rest))⟩
  else ⟨[], none⟩

def readable (huffman : Bool) (stringData : Bytes) : Bool :=
  !huffman || (HpackHuffman.decode stringData).isSome

/-- The bit of a string that says how it is coded. -/
def flagged (c : Cursor) : Bool := 128 ≤ (c.rest.headD 0).toNat

def walkStringAt (huffman : Bool) (p : Nat × Cursor) : Walk Cursor :=
  ⟨[p.2.offset + p.1],
    if p.1 ≤ p.2.rest.length ∧ readable huffman (p.2.rest.take p.1) then
      some (p.2.skip p.1) else none⟩

def walkString (c : Cursor) : Walk Cursor := (walkInteger 7 c).andThen (walkStringAt (flagged c))

/-- A literal, with so many entries in the dynamic table. -/
def walkLiteral (entries bits : Nat) (c : Cursor) : Walk Cursor :=
  (walkInteger bits c).andThen fun p =>
    (if p.1 = 0 then walkString p.2
      else ⟨[], if 1 ≤ p.1 ∧ p.1 ≤ staticTable.length + entries then some p.2 else none⟩).andThen
      walkString

/-- A representation: how many entries there are then, and where it ends. -/
def walkTurn (entries : Nat) (c : Cursor) (byte : UInt8) : Walk (Nat × Cursor) :=
  if 128 ≤ byte.toNat then
    (walkInteger 7 c).andThen fun p =>
      ⟨[], if 1 ≤ p.1 ∧ p.1 ≤ staticTable.length + entries then some (entries, p.2) else none⟩
  else if 64 ≤ byte.toNat then (walkLiteral entries 6 c).andThen fun c =>
    ⟨[], some (entries + 1, c)⟩
  else if byte.toNat < 32 then (walkLiteral entries 4 c).andThen fun c => ⟨[], some (entries, c)⟩
  else
    -- the result of this integer is not looked at
    ⟨(walkInteger 5 c).numbers, some (entries, c.skip (Hpack.integerCount 5 c.rest))⟩

def walkLoop : Nat → Nat → Cursor → Walk Unit
  | 0, _, _ => ⟨[], some ()⟩
  | fuel + 1, entries, c =>
    match c.rest with
    | [] => ⟨[], some ()⟩
    | byte :: _ => (walkTurn entries c byte).andThen fun p => walkLoop fuel p.1 p.2

/-- All the integers of a block, and all the ends of its strings, are below 2^31. -/
def Fits (entries : Nat) (data : Bytes) : Prop :=
  (walkLoop data.length entries ⟨0, data⟩).Fits (2 ^ 31)

-- ----
-- The decoder with its reads

/-- A call of `decodeInteger`. -/
abbrev Read := Nat × Cursor

/-- What it returns is what the octets stand for. -/
def Exact (r : Read) : Prop :=
  ∀ value c, decodeInteger r.1 r.2 = some (value, c) → value = Hpack.integerValue r.1 r.2.rest

def runInteger (bits : Nat) (c : Cursor) : Run Read Stop (Int × Cursor) :=
  ⟨[(bits, c)],
    match decodeInteger bits c with
    | none => .error .null
    | some p => .ok p⟩

/-- `decodeString` behind the length. -/
def stringAt (huffman : Bool) (p : Int × Cursor) : Except Stop (Text × Cursor) :=
  if (p.2.size : Int) < int32 (p.2.offset + p.1) then .error .null
  else if int32 (p.2.offset + p.1) < p.2.offset then .error .illegalArgument
  else
    let stringData := p.2.rest.take (int32 (p.2.offset + p.1) - p.2.offset).toNat
    let c : Cursor := ⟨p.2.offset + stringData.length, p.2.rest.drop stringData.length⟩
    if huffman then
      match HpackHuffman.decode stringData with
      | none => .error .null
      | some decoded => .ok (decodeUtf8 decoded, c)
    else .ok (decodeUtf8 stringData, c)

def runString (c : Cursor) : Run Read Stop (Text × Cursor) :=
  (runInteger 7 c).andThen fun p => ⟨[], stringAt (flagged c) p⟩

def runLiteral (dynamicTable : Headers) (bits : Nat) (c : Cursor) :
    Run Read Stop ((Text × Text) × Cursor) :=
  (runInteger bits c).andThen fun p =>
    (if p.1 = 0 then runString p.2
      else
        ⟨[],
          match lookupEntry dynamicTable p.1 with
          | none => .error .null
          | some entry => .ok (entry.1, p.2)⟩).andThen fun name =>
      (runString name.2).andThen fun value => ⟨[], .ok ((name.1, value.1), value.2)⟩

def runTurn (dynamicTable : Headers) (c : Cursor) (byte : UInt8) :
    Run Read Stop (Headers × Headers × Cursor) :=
  if 128 ≤ byte.toNat then
    (runInteger 7 c).andThen fun p =>
      ⟨[],
        match lookupEntry dynamicTable p.1 with
        | none => .error .null
        | some entry => .ok (dynamicTable, [entry], p.2)⟩
  else if 64 ≤ byte.toNat then
    (runLiteral dynamicTable 6 c).andThen fun p => ⟨[], .ok (p.1 :: dynamicTable, [p.1], p.2)⟩
  else if byte.toNat < 32 then
    (runLiteral dynamicTable 4 c).andThen fun p => ⟨[], .ok (dynamicTable, [p.1], p.2)⟩
  else
    ⟨[(5, c)],
      match decodeInteger 5 c with
      | none => .ok (dynamicTable, [], ⟨c.offset + c.rest.length, []⟩)
      | some (_, c) => .ok (dynamicTable, [], c)⟩

def runLoop : Nat → Headers → Cursor → Headers → Run Read Stop Headers
  | 0, _, _, headers => ⟨[], .ok headers⟩
  | fuel + 1, dynamicTable, c, headers =>
    match c.rest with
    | [] => ⟨[], .ok headers⟩
    | byte :: _ => (runTurn dynamicTable c byte).andThen fun p =>
        runLoop fuel p.1 p.2.2 (headers ++ p.2.1)

/-- `decode` throws nothing, and each integer it goes by is the one that stands there. -/
def Total (dynamicTable : Headers) (data : Bytes) : Prop :=
  (decode dynamicTable data).2 ≠ .error .illegalArgument ∧
    ∀ r ∈ (runLoop data.length dynamicTable ⟨0, data⟩ []).reads, Exact r

theorem outcome_runInteger (bits : Nat) (c : Cursor) :
    (runInteger bits c).outcome =
      match decodeInteger bits c with
      | none => .error .null
      | some p => .ok p := rfl

theorem outcome_runString (c : Cursor) : (runString c).outcome = decodeString c := by
  rw [runString, Run.outcome_andThen, outcome_runInteger, decodeString]
  rcases hrest : c.rest with _ | ⟨b, rest⟩
  · rw [decodeInteger, hrest]
    rfl
  · rcases decodeInteger 7 c with _ | ⟨length, c'⟩
    · rfl
    · have hflag : flagged c = decide (128 ≤ b.toNat) := by rw [flagged, hrest, List.headD_cons]
      dsimp only
      rw [bind_ok, stringAt, hflag, Cursor.size, Int.natCast_add]
      by_cases hb : 128 ≤ b.toNat
      · rw [decide_eq_true hb, if_pos hb]
        rfl
      · rw [decide_eq_false hb, if_neg hb]
        rfl

theorem outcome_runLiteral (dynamicTable : Headers) (bits : Nat) (c : Cursor) :
    (runLiteral dynamicTable bits c).outcome = decodeLiteral dynamicTable bits c := by
  rw [runLiteral, Run.outcome_andThen, outcome_runInteger, decodeLiteral]
  rcases decodeInteger bits c with _ | ⟨index, c⟩
  · rfl
  · dsimp only
    rw [bind_ok, Run.outcome_andThen]
    by_cases hindex : index = 0
    · rw [if_pos hindex, if_pos hindex, outcome_runString]
      rcases decodeString c with stop | name
      · rfl
      · rw [bind_ok, Run.outcome_andThen, outcome_runString]
        dsimp only
        rcases decodeString name.2 with stop | ⟨value, c⟩ <;> rfl
    · rw [if_neg hindex, if_neg hindex]
      rcases lookupEntry dynamicTable index with _ | entry
      · rfl
      · dsimp only
        rw [bind_ok, Run.outcome_andThen, outcome_runString]
        rcases decodeString c with stop | ⟨value, c⟩ <;> rfl

/-- The table of a turn is changed by a literal with incremental indexing only. -/
theorem outcome_runTurn (dynamicTable : Headers) (c : Cursor) (byte : UInt8) :
    decodeTurn dynamicTable c byte =
      match (runTurn dynamicTable c byte).outcome with
      | .error stop => (dynamicTable, .error stop)
      | .ok (dynamicTable, added, c) => (dynamicTable, .ok (added, c)) := by
  have hliteral : ∀ bits, (runLiteral dynamicTable bits c).outcome =
      decodeLiteral dynamicTable bits c :=
    fun bits => outcome_runLiteral dynamicTable bits c
  rw [decodeTurn, runTurn]
  by_cases hindexed : 128 ≤ byte.toNat
  · rw [if_pos hindexed, if_pos hindexed, Run.outcome_andThen, outcome_runInteger]
    rcases decodeInteger 7 c with _ | ⟨index, c⟩
    · rfl
    · dsimp only
      rw [bind_ok]
      dsimp only
      rcases lookupEntry dynamicTable index with _ | entry <;> rfl
  · rw [if_neg hindexed, if_neg hindexed]
    by_cases hincremental : 64 ≤ byte.toNat
    · rw [if_pos hincremental, if_pos hincremental, Run.outcome_andThen, hliteral]
      rcases decodeLiteral dynamicTable 6 c with stop | ⟨header, c⟩ <;> rfl
    · rw [if_neg hincremental, if_neg hincremental]
      by_cases hwithout : byte.toNat < 32
      · rw [if_pos hwithout, if_pos hwithout, Run.outcome_andThen, hliteral]
        rcases decodeLiteral dynamicTable 4 c with stop | ⟨header, c⟩ <;> rfl
      · rw [if_neg hwithout, if_neg hwithout]
        rcases decodeInteger 5 c with _ | ⟨size, c⟩ <;> rfl

theorem outcome_runLoop (fuel : Nat) (dynamicTable : Headers) (c : Cursor) (headers : Headers) :
    (decodeLoop fuel dynamicTable c headers).2 = (runLoop fuel dynamicTable c headers).outcome := by
  induction fuel generalizing dynamicTable c headers with
  | zero => rfl
  | succ fuel ih =>
    rw [decodeLoop, runLoop]
    rcases c.rest with _ | ⟨byte, rest⟩
    · rfl
    · dsimp only
      rw [outcome_runTurn, Run.outcome_andThen]
      rcases (runTurn dynamicTable c byte).outcome with stop | ⟨table, added, c⟩
      · rfl
      · exact ih table c (headers ++ added)

-- ----
-- Integers

/-- The sum that fits is the sum of the words. -/
theorem int32_add_shift {value b more : Nat} (h : value + (b % 128 * 2 ^ m + more) < 2 ^ 31) :
    int32 ((value : Int) + int32 ((b % 128 * 2 ^ (m % 32) : Nat) : Int)) =
      ((value + b % 128 * 2 ^ m : Nat) : Int) := by
  have hshift : b % 128 * 2 ^ (m % 32) = b % 128 * 2 ^ m := by
    by_cases hzero : b % 128 = 0
    · rw [hzero, Nat.zero_mul, Nat.zero_mul]
    · have hm : m < 31 := pow_lt_of_mul_lt (a := b % 128) (by omega) (by omega)
      rw [Nat.mod_eq_of_lt (a := m) (b := 32) (by omega)]
  rw [hshift, int32_of_nat (by omega), ← Int.natCast_add, int32_of_nat (by omega)]

theorem decodeOctets_exact {value : Nat} {offset : Nat} {rest : Bytes}
    (h : value + Hpack.octetsValue m rest < 2 ^ 31) :
    decodeOctets value m offset rest =
      if Hpack.octetsComplete rest then
        some (((value + Hpack.octetsValue m rest : Nat) : Int),
          ⟨offset + Hpack.octetsCount rest, rest.drop (Hpack.octetsCount rest)⟩)
      else none := by
  induction rest generalizing value m offset with
  | nil => rfl
  | cons b rest ih =>
    rw [Hpack.octetsValue] at h ⊢
    rw [decodeOctets, Hpack.octetsComplete, Hpack.octetsCount, int32_add_shift h]
    by_cases hlast : b.toNat < 128
    · rw [if_pos hlast, if_pos hlast, if_pos hlast, decide_eq_true hlast, Nat.add_zero]
      rfl
    · rw [if_neg hlast] at h
      rw [if_neg hlast, if_neg hlast, if_neg hlast, decide_eq_false hlast, Bool.false_or,
        ih (by omega), List.drop_succ_cons]
      have hoffset : offset + (Hpack.octetsCount rest + 1) = offset + 1 +
          Hpack.octetsCount rest := by omega
      rw [hoffset, Nat.add_assoc value]

theorem isSome_decodeOctets (value : Int) (m offset : Nat) (rest : Bytes) :
    (decodeOctets value m offset rest).isSome = Hpack.octetsComplete rest := by
  induction rest generalizing value m offset with
  | nil => rfl
  | cons b rest ih =>
    rw [decodeOctets, Hpack.octetsComplete]
    by_cases hlast : b.toNat < 128
    · rw [if_pos hlast, decide_eq_true hlast]
      rfl
    · rw [if_neg hlast, decide_eq_false hlast, Bool.false_or]
      exact ih _ _ _

theorem decodeOctets_lt {value : Int} {offset : Nat} {rest : Bytes} {v : Int}
    (h : decodeOctets value m offset rest = some (v, c)) : v < 2 ^ 31 := by
  induction rest generalizing value m offset with
  | nil => exact absurd h nofun
  | cons b rest ih =>
    rw [decodeOctets] at h
    split at h
    · obtain ⟨rfl, -⟩ := Prod.mk.inj (Option.some.inj h)
      exact (fits_int32 _).2
    · exact ih h

theorem decodeInteger_exact (h : Hpack.integerValue bits c.rest < 2 ^ 31) :
    decodeInteger bits c =
      if Hpack.integerComplete bits c.rest then
        some (((Hpack.integerValue bits c.rest : Nat) : Int),
          c.skip (Hpack.integerCount bits c.rest))
      else none := by
  obtain ⟨offset, data⟩ := c
  rcases data with _ | ⟨b, rest⟩
  · rfl
  · rw [Hpack.integerValue] at h
    rw [decodeInteger_cons, Hpack.integerValue, Hpack.integerComplete,
      Hpack.integerCount, Cursor.skip]
    by_cases hsmall : b.toNat % 2 ^ bits < 2 ^ bits - 1
    · rw [if_pos hsmall, if_pos hsmall, if_pos hsmall, decide_eq_true hsmall]
      rfl
    · rw [if_neg hsmall] at h
      rw [if_neg hsmall, if_neg hsmall, if_neg hsmall, decide_eq_false hsmall, Bool.false_or,
        decodeOctets_exact h]
      have hoffset : offset + (Hpack.octetsCount rest + 1) = offset + 1 +
          Hpack.octetsCount rest := by omega
      dsimp only
      rw [hoffset, List.drop_succ_cons]

theorem isSome_decodeInteger (bits : Nat) (c : Cursor) :
    (decodeInteger bits c).isSome = Hpack.integerComplete bits c.rest := by
  obtain ⟨offset, data⟩ := c
  rcases data with _ | ⟨b, rest⟩
  · rfl
  · rw [decodeInteger_cons, Hpack.integerComplete]
    by_cases hsmall : b.toNat % 2 ^ bits < 2 ^ bits - 1
    · rw [if_pos hsmall, decide_eq_true hsmall]
      rfl
    · rw [if_neg hsmall, decide_eq_false hsmall, Bool.false_or]
      exact isSome_decodeOctets _ _ _ _

theorem decodeInteger_lt (hbits : bits ≤ 8) {v : Int} {c' : Cursor}
    (h : decodeInteger bits c = some (v, c')) : v < 2 ^ 31 := by
  obtain ⟨offset, data⟩ := c
  rcases data with _ | ⟨b, rest⟩
  · exact absurd h nofun
  · rw [decodeInteger_cons] at h
    split at h
    · obtain ⟨rfl, -⟩ := Prod.mk.inj (Option.some.inj h)
      have hpow : 2 ^ bits ≤ 2 ^ 8 := Nat.pow_le_pow_right (by decide) hbits
      omega
    · exact decodeOctets_lt h

/-- **An integer is read exactly when it fits, or does not end.** -/
theorem exact_iff {bits : Nat} (hbits : bits ≤ 8) (c : Cursor) :
    Exact (bits, c) ↔ (walkInteger bits c).Fits (2 ^ 31) := by
  have hsome := isSome_decodeInteger bits c
  by_cases hcomplete : Hpack.integerComplete bits c.rest = true
  · rw [walkInteger, if_pos hcomplete]
    rw [hcomplete] at hsome
    obtain ⟨⟨v, c'⟩, hread⟩ := Option.isSome_iff_exists.mp hsome
    constructor
    · intro hexact n hn
      obtain rfl := List.mem_singleton.mp hn
      have hlt := decodeInteger_lt hbits hread
      rw [hexact v c' hread] at hlt
      exact_mod_cast hlt
    · intro hfits v' c'' hread'
      have hvalue := decodeInteger_exact (hfits _ List.mem_cons_self)
      rw [if_pos hcomplete, hread'] at hvalue
      exact (Prod.mk.inj (Option.some.inj hvalue)).1
  · rw [walkInteger, if_neg hcomplete]
    rw [Bool.eq_false_of_not_eq_true hcomplete, Option.isSome_eq_false_iff,
      Option.isNone_iff_eq_none] at hsome
    exact ⟨fun _ => nofun, fun _ v c' hread => nomatch hsome.symm.trans hread⟩

-- ----
-- The decoder beside the walk

theorem size_skip (h : n ≤ c.rest.length) : (c.skip n).size = c.size := by
  have hlength : (c.rest.drop n).length = c.rest.length - n := List.length_drop
  show c.offset + n + (c.rest.drop n).length = c.offset + c.rest.length
  omega

/-- As long as the numbers fit, and the failure that must not occur. -/
abbrev Agrees {α β : Type} (related : α → β → Prop) (r : Run Read Stop β) (w : Walk α) : Prop :=
  Follows Exact Stop.illegalArgument (2 ^ 31) related r w

theorem decodeInteger_fits {bits : Nat} {c : Cursor} (h : (walkInteger bits c).Fits (2 ^ 31)) :
    decodeInteger bits c = (walkInteger bits c).result.map fun p => ((p.1 : Int), p.2) := by
  by_cases hcomplete : Hpack.integerComplete bits c.rest = true
  · rw [walkInteger, if_pos hcomplete] at h ⊢
    rw [decodeInteger_exact (h _ List.mem_cons_self), if_pos hcomplete]
    rfl
  · have hsome := isSome_decodeInteger bits c
    rw [Bool.eq_false_of_not_eq_true hcomplete, Option.isSome_eq_false_iff,
      Option.isNone_iff_eq_none] at hsome
    rw [walkInteger, if_neg hcomplete, hsome]
    rfl

theorem walkInteger_some {a : Nat × Cursor} (h : (walkInteger bits c).result = some a) :
    a.1 ∈ (walkInteger bits c).numbers ∧ a.2.size = c.size := by
  rw [walkInteger] at h ⊢
  split at h
  · rename_i hcomplete
    rw [if_pos hcomplete, ← Option.some.inj h]
    exact ⟨List.mem_cons_self, size_skip (Hpack.integerCount_le bits c.rest)⟩
  · exact absurd h nofun

theorem agrees_integer (hbits : bits ≤ 8) (c : Cursor) :
    Agrees (fun a b => b = ((a.1 : Int), a.2) ∧ a.1 < 2 ^ 31 ∧ a.2.size = c.size)
    (runInteger bits c)
      (walkInteger bits c) := by
  have hexact := exact_iff hbits c
  refine ⟨⟨fun hclean => hexact.mp (hclean.reads _ List.mem_cons_self), fun hfits => ⟨?_, ?_⟩⟩, ?_,
    ?_⟩
  · intro r hr
    obtain rfl := List.mem_singleton.mp hr
    exact hexact.mpr hfits
  · rw [outcome_runInteger]
    rcases decodeInteger bits c with _ | p <;> exact nofun
  · intro hfits hnone
    refine ⟨.null, ?_⟩
    rw [outcome_runInteger, decodeInteger_fits hfits, hnone]
    rfl
  · intro hfits a ha
    obtain ⟨hnumber, hsize⟩ := walkInteger_some ha
    refine ⟨((a.1 : Int), a.2), ?_, rfl, hfits _ hnumber, hsize⟩
    rw [outcome_runInteger, decodeInteger_fits hfits, ha]
    rfl

theorem stringAt_fits (huffman : Bool) (hend : c.offset + n < 2 ^ 31) :
    (n ≤ c.rest.length ∧ readable huffman (c.rest.take n) = true →
      ∃ text, stringAt huffman (n, c) = .ok (text, c.skip n)) ∧
    (¬ (n ≤ c.rest.length ∧ readable huffman (c.rest.take n) = true) → stringAt huffman (n, c) =
      .error .null) := by
  have hword : int32 ((c.offset : Int) + (n : Int)) = ((c.offset + n : Nat) : Int) := by
    rw [← Int.natCast_add]
    exact int32_of_nat hend
  have hcount : (((c.offset + n : Nat) : Int) - (c.offset : Int)).toNat = n := by omega
  have hsize : ((n : Int), c).2.size = c.offset + c.rest.length := rfl
  have hoffset : ((n : Int), c).2.offset = c.offset := rfl
  rw [stringAt, hword, hcount]
  by_cases hwithin : n ≤ c.rest.length
  · have hlength : (c.rest.take n).length = n := List.length_take_of_le hwithin
    rw [if_neg (by omega), if_neg (by omega)]
    dsimp only
    rw [hlength, readable]
    cases huffman with
    | true =>
      rcases HpackHuffman.decode (c.rest.take n) with _ | decoded
      · exact ⟨fun h => absurd h.2 (by decide), fun _ => rfl⟩
      · exact ⟨fun _ => ⟨_, rfl⟩, fun h => absurd ⟨hwithin, rfl⟩ h⟩
    | false => exact ⟨fun _ => ⟨_, rfl⟩, fun h => absurd ⟨hwithin, rfl⟩ h⟩
  · rw [if_pos (by omega)]
    exact ⟨fun h => absurd h.1 hwithin, fun _ => rfl⟩

/-- A string whose end is none: the check of the source lets it pass. -/
theorem stringAt_wraps (huffman : Bool) (hn : n < 2 ^ 31) (hoffset : c.offset < 2 ^ 31)
    (hend : 2 ^ 31 ≤ c.offset + n) : stringAt huffman (n, c) = .error .illegalArgument := by
  have hword : int32 ((c.offset : Int) + (n : Int)) = (c.offset : Int) + (n : Int) - 0x100000000 :=
    int32_of_large (by omega) (by omega)
  rw [stringAt, hword, if_neg (by omega), if_pos (by omega)]

/-- A string, with the end that wraps. -/
theorem agrees_stringAt (huffman : Bool) (hn : n < 2 ^ 31) (hsize : c.size < 2 ^ 31) :
    Agrees (fun c' b => b.2 = c' ∧ c'.size = c.size) ⟨[], stringAt huffman (n, c)⟩
    (walkStringAt huffman (n, c)) := by
  have hoffset : c.offset ≤ c.size := Nat.le_add_right _ _
  by_cases hend : c.offset + n < 2 ^ 31
  · obtain ⟨hgood, hbad⟩ := stringAt_fits huffman hend
    have hfits : (walkStringAt huffman (n, c)).Fits (2 ^ 31) := by
      intro k hk
      obtain rfl := List.mem_singleton.mp hk
      exact hend
    by_cases hread : n ≤ c.rest.length ∧ readable huffman (c.rest.take n) = true
    · obtain ⟨text, htext⟩ := hgood hread
      have hresult : (walkStringAt huffman (n, c)).result = some (c.skip n) := if_pos hread
      rw [htext]
      refine ⟨⟨fun _ => hfits, fun _ => ⟨nofun, nofun⟩⟩, fun _ hnone => ?_,
        fun _ a ha => ⟨_, rfl, ?_⟩⟩
      · exact nomatch hresult.symm.trans hnone
      · rw [← Option.some.inj (hresult.symm.trans ha)]
        exact ⟨rfl, size_skip hread.1⟩
    · have hresult : (walkStringAt huffman (n, c)).result = none := if_neg hread
      rw [hbad hread]
      refine ⟨⟨fun _ => hfits, fun _ => ⟨nofun, nofun⟩⟩, fun _ _ => ⟨_, rfl⟩, fun _ a ha => ?_⟩
      exact nomatch hresult.symm.trans ha
  · have hlarge : ¬ (walkStringAt huffman (n, c)).Fits (2 ^ 31) :=
      fun hall => hend (hall _ List.mem_cons_self)
    rw [stringAt_wraps huffman hn (by omega) (Nat.not_lt.mp hend)]
    exact ⟨⟨fun hclean => absurd rfl hclean.outcome, fun hall => absurd hall hlarge⟩,
      fun hall => absurd hall hlarge, fun hall => absurd hall hlarge⟩

theorem agrees_string (hsize : c.size < 2 ^ 31) :
    Agrees (fun c' b => b.2 = c' ∧ c'.size = c.size) (runString c) (walkString c) := by
  apply (agrees_integer (by decide) c).andThen
  rintro ⟨n, c'⟩ b ⟨rfl, hn, hbehind⟩
  rw [← hbehind] at hsize ⊢
  exact agrees_stringAt (flagged c) hn hsize

theorem isSome_lookupEntry (dynamicTable : Headers) (n : Nat) :
    (lookupEntry dynamicTable n).isSome = true ↔ 1 ≤ n ∧ n ≤ staticTable.length +
      dynamicTable.length := by
  have hinside : ∀ (table : Headers) (i : Nat), table[i]?.isSome = true ↔ i < table.length := by
    intro table i
    rw [Option.isSome_iff_ne_none, ne_eq, List.getElem?_eq_none_iff, Nat.not_le]
  rw [lookupEntry]
  by_cases hzero : n = 0
  · rw [if_pos (by omega)]
    exact ⟨fun h => absurd h Bool.false_ne_true, fun h => absurd h.1 (by omega)⟩
  · rw [if_neg (by omega)]
    by_cases hstatic : n ≤ staticTable.length
    · rw [if_pos (by omega), hinside]
      omega
    · rw [if_neg (by omega), hinside]
      omega

theorem agrees_lookup {α β : Type} {related : α → β → Prop} (dynamicTable : Headers)
    (n : Nat) {a : α} {g : Text × Text → β} (hrelated : ∀ entry, related a (g entry)) :
    Agrees related
      ⟨[],
        match lookupEntry dynamicTable n with
        | none => .error .null
        | some entry => .ok (g entry)⟩
      ⟨[], if 1 ≤ n ∧ n ≤ staticTable.length + dynamicTable.length then some a else none⟩ := by
  have hsome := isSome_lookupEntry dynamicTable n
  rcases hentry : lookupEntry dynamicTable n with _ | entry
  · rw [hentry] at hsome
    rw [if_neg fun hle => absurd (hsome.mpr hle) Bool.false_ne_true]
    exact Follows.silent nofun (fun _ => ⟨_, rfl⟩) fun _ ha => nomatch ha
  · rw [hentry] at hsome
    rw [if_pos (hsome.mp rfl)]
    refine Follows.silent nofun nofun fun a' ha => ⟨_, rfl, ?_⟩
    rw [← Option.some.inj ha]
    exact hrelated entry

theorem agrees_literal (dynamicTable : Headers) (hbits : bits ≤ 8) (hsize : c.size < 2 ^ 31) :
    Agrees (fun c' b => b.2 = c' ∧ c'.size = c.size) (runLiteral dynamicTable bits c)
      (walkLiteral dynamicTable.length bits c) := by
  apply (agrees_integer hbits c).andThen
  rintro ⟨n, c'⟩ b ⟨rfl, -, hbehind⟩
  dsimp only at hbehind ⊢
  rw [← hbehind] at hsize ⊢
  have hname : Agrees (fun c'' (b : Text × Cursor) => b.2 = c'' ∧ c''.size = c'.size)
      (if (n : Int) = 0 then runString c'
        else
          ⟨[],
            match lookupEntry dynamicTable n with
            | none => .error .null
            | some entry => .ok (entry.1, c')⟩)
      (if n = 0 then walkString c'
        else ⟨[], if 1 ≤ n ∧ n ≤ staticTable.length + dynamicTable.length then some c'
          else none⟩) := by
    by_cases hzero : n = 0
    · rw [if_pos hzero, if_pos (by omega)]
      exact agrees_string hsize
    · rw [if_neg hzero, if_neg (by omega)]
      exact agrees_lookup dynamicTable n fun _ => ⟨rfl, rfl⟩
  apply hname.andThen
  rintro c'' name ⟨hc, hsize'⟩
  rw [← hsize'] at hsize ⊢
  rw [hc]
  exact (agrees_string hsize).map fun _ _ h => h

/-- The integer of a size update, whose result is not looked at. -/
theorem agrees_sizeUpdate (dynamicTable : Headers) (c : Cursor) :
    Agrees (fun a b => b.1.length = a.1 ∧ b.2.2 = a.2 ∧ a.2.size = c.size)
      ⟨[(5, c)],
        match decodeInteger 5 c with
        | none => .ok (dynamicTable, [], ⟨c.offset + c.rest.length, []⟩)
        | some (_, c) => .ok (dynamicTable, ([] : Headers), c)⟩
      ⟨(walkInteger 5 c).numbers,
        some (dynamicTable.length, c.skip (Hpack.integerCount 5 c.rest))⟩ := by
  have hexact := @exact_iff 5 (by decide) c
  refine ⟨⟨fun hclean => hexact.mp (hclean.reads _ List.mem_cons_self), fun hfits => ⟨?_, ?_⟩⟩,
    nofun, ?_⟩
  · intro r hr
    obtain rfl := List.mem_singleton.mp hr
    exact hexact.mpr hfits
  · rcases decodeInteger 5 c with _ | p <;> exact nofun
  · intro hfits a ha
    obtain rfl := Option.some.inj ha
    have hread := @decodeInteger_fits 5 c hfits
    have hskip := size_skip (Hpack.integerCount_le 5 c.rest)
    by_cases hcomplete : Hpack.integerComplete 5 c.rest = true
    · rw [walkInteger, if_pos hcomplete] at hread
      rw [hread]
      exact ⟨_, rfl, rfl, rfl, hskip⟩
    · rw [walkInteger, if_neg hcomplete] at hread
      have hall := Hpack.integerCount_incomplete (Bool.eq_false_of_not_eq_true hcomplete)
      rw [hread]
      refine ⟨_, rfl, rfl, ?_, hskip⟩
      rw [Cursor.skip, hall, List.drop_length]

theorem agrees_turn (dynamicTable : Headers) (hsize : c.size < 2 ^ 31) (byte : UInt8) :
    Agrees (fun a b => b.1.length = a.1 ∧ b.2.2 = a.2 ∧ a.2.size = c.size)
    (runTurn dynamicTable c byte)
      (walkTurn dynamicTable.length c byte) := by
  rw [runTurn, walkTurn]
  by_cases hindexed : 128 ≤ byte.toNat
  · rw [if_pos hindexed, if_pos hindexed]
    apply (agrees_integer (by decide) c).andThen
    rintro ⟨n, c'⟩ b ⟨rfl, -, hbehind⟩
    dsimp only at hbehind ⊢
    exact agrees_lookup dynamicTable n fun _ => ⟨rfl, rfl, hbehind⟩
  · rw [if_neg hindexed, if_neg hindexed]
    by_cases hincremental : 64 ≤ byte.toNat
    · rw [if_pos hincremental, if_pos hincremental]
      apply (agrees_literal dynamicTable (by decide) hsize).andThen
      rintro c' p ⟨hc, hbehind⟩
      refine Follows.silent nofun nofun fun a ha => ⟨_, rfl, ?_⟩
      rw [← Option.some.inj ha]
      exact ⟨rfl, hc, hbehind⟩
    · rw [if_neg hincremental, if_neg hincremental]
      by_cases hwithout : byte.toNat < 32
      · rw [if_pos hwithout, if_pos hwithout]
        apply (agrees_literal dynamicTable (by decide) hsize).andThen
        rintro c' p ⟨hc, hbehind⟩
        refine Follows.silent nofun nofun fun a ha => ⟨_, rfl, ?_⟩
        rw [← Option.some.inj ha]
        exact ⟨rfl, hc, hbehind⟩
      · rw [if_neg hwithout, if_neg hwithout]
        exact agrees_sizeUpdate dynamicTable c

theorem agrees_loop (fuel : Nat) (dynamicTable : Headers) (hsize : c.size < 2 ^ 31)
    (headers : Headers) :
    Agrees (fun _ _ => True) (runLoop fuel dynamicTable c headers)
    (walkLoop fuel dynamicTable.length c) := by
  have hends : Agrees (fun _ _ => True) ⟨[], .ok headers⟩ ⟨[], some ()⟩ :=
    Follows.silent nofun nofun fun _ _ => ⟨_, rfl, trivial⟩
  induction fuel generalizing dynamicTable c headers with
  | zero => exact hends
  | succ fuel ih =>
    rw [runLoop, walkLoop]
    rcases hrest : c.rest with _ | ⟨byte, rest⟩
    · exact hends
    · dsimp only
      apply (agrees_turn dynamicTable hsize byte).andThen
      rintro ⟨entries, c'⟩ ⟨table, added, c''⟩ ⟨rfl, rfl, hbehind⟩
      dsimp only at hbehind ⊢
      rw [← hbehind] at hsize
      exact ih table hsize (headers ++ added) (Follows.silent nofun nofun fun _ _ =>
        ⟨_, rfl, trivial⟩)

/-- **The decoder is total on the blocks whose numbers fit**, and on no others. -/
theorem total_iff (dynamicTable : Headers) {data : Bytes} (hsize : data.length < 2 ^ 31) :
    Total dynamicTable data ↔ Fits dynamicTable.length data := by
  have hcursor : (⟨0, data⟩ : Cursor).size < 2 ^ 31 := by
    rw [Cursor.size, Nat.zero_add]
    exact hsize
  rw [Total, Fits, ← (agrees_loop data.length dynamicTable hcursor []).clean, decode,
    outcome_runLoop]
  exact ⟨fun h => ⟨h.2, h.1⟩, fun h => ⟨h.outcome, h.reads⟩⟩

end HpackDecoder

end Anywhere.Naive
