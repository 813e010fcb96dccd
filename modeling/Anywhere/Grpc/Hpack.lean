import Anywhere.Grpc.Huffman
import Anywhere.Grpc.Message
import Anywhere.Naive.HpackRange

/-!
# Anywhere — `GrpcConnection`: the headers of a response

A decoder without a dynamic table, for the headers a call is answered and ended with. Its integers
stop after ten octets or with the data, and are never refused.

* `hpack_total_iff` — the blocks the two decoders are total on.
-/

namespace Anywhere.Grpc

open Lib List
open Naive (int32 int32_of_nat int32_of_large Headers)
open Naive.HpackDecoder (Stop)

-- ----
-- The decoder

/-- The loop of `decodeHpackInteger`: the value, and how many octets it has taken. -/
def hpackOctets : Int → Nat → Nat → Bytes → Int × Nat
  | value, _, consumed, [] => (value, consumed)
  | value, m, consumed, b :: rest =>
    let value := int32 (value + int32 (b.toNat % 128 * 2 ^ (m % 32) : Nat))
    if b.toNat < 128 then (value, consumed + 1)
    else if 64 ≤ m + 7 then (value, consumed + 1)
    else hpackOctets value (m + 7) (consumed + 1) rest

def decodeHpackInteger (data : Bytes) (start prefixBits : Nat) : Int × Nat :=
  match data.drop start with
  | [] => (0, 0)
  | b :: rest =>
    let maxPrefix := 2 ^ prefixBits - 1
    let first := b.toNat % 2 ^ prefixBits
    if first < maxPrefix then (first, 1) else hpackOctets maxPrefix 0 1 rest

/-- `decodeHpackString` behind the length: the string and how many bytes of `data` it takes. -/
def hpackStringAt (data : Bytes) (isHuffman : Bool) (start : Nat) (length : Int × Nat) :
    Except Stop (Text × Nat) :=
  let bytesStart := start + length.2
  if (data.length : Int) < int32 (bytesStart + length.1) then .error .null
  else if int32 (bytesStart + length.1) < bytesStart then .error .illegalArgument
  else
    let bytes := (data.drop bytesStart).take (int32 (bytesStart + length.1) - bytesStart).toNat
    let s := if isHuffman then (Huffman.huffmanDecode bytes).getD [] else decodeUtf8 bytes
    .ok (s, length.2 + length.1.toNat)

def decodeHpackString (data : Bytes) (start : Nat) : Except Stop (Text × Nat) :=
  match data.drop start with
  | [] => .error .null
  | b :: _ => hpackStringAt data (128 ≤ b.toNat) start (decodeHpackInteger data start 7)

def staticTableEntry (index : Int) : Option (Text × Option Text) :=
  match index with
  | 1 => some (":authority".toList, none)
  | 2 => some (":method".toList, some "GET".toList)
  | 3 => some (":method".toList, some "POST".toList)
  | 4 => some (":path".toList, some "/".toList)
  | 5 => some (":path".toList, some "/index.html".toList)
  | 6 => some (":scheme".toList, some "http".toList)
  | 7 => some (":scheme".toList, some "https".toList)
  | 8 => some (":status".toList, some "200".toList)
  | 9 => some (":status".toList, some "204".toList)
  | 10 => some (":status".toList, some "206".toList)
  | 11 => some (":status".toList, some "304".toList)
  | 12 => some (":status".toList, some "400".toList)
  | 13 => some (":status".toList, some "404".toList)
  | 14 => some (":status".toList, some "500".toList)
  | 28 => some ("content-length".toList, none)
  | 31 => some ("content-type".toList, none)
  | 58 => some ("user-agent".toList, none)
  | _ => none

/-- `headers[name] = value`. -/
def put (name value : Text) (headers : Headers) : Headers :=
  headers.filter (fun h => h.1 ≠ name) ++ [(name, value)]

section Headers

-- `String.lowercase()`
variable (lowercase : Text → Text)

def hpackLiteral (payload : Bytes) (prefixBits : Nat) (headers : Headers) (offset : Nat) :
    Except Stop (Headers × Nat) := do
  let nameIdx := decodeHpackInteger payload offset prefixBits
  let offset := offset + nameIdx.2
  let name ← if nameIdx.1 = 0 then decodeHpackString payload offset
    else .ok (((staticTableEntry nameIdx.1).map Prod.fst).getD [], 0)
  let offset := offset + name.2
  let v ← decodeHpackString payload offset
  .ok (if name.1 = [] then headers else put (lowercase name.1) v.1 headers, offset + v.2)

/-- A turn of the loop of `decodeHpackHeaders`. -/
def hpackTurn (payload : Bytes) (b : UInt8) (headers : Headers) (offset : Nat) :
    Except Stop (Headers × Nat) :=
  if 128 ≤ b.toNat then
    let idx := decodeHpackInteger payload offset 7
    match staticTableEntry idx.1 with
    | some (name, some value) => .ok (put name value headers, offset + idx.2)
    | _ => .ok (headers, offset + idx.2)
  else if 64 ≤ b.toNat then hpackLiteral lowercase payload 6 headers offset
  else if 32 ≤ b.toNat then .ok (headers, offset + (decodeHpackInteger payload offset 5).2)
  else hpackLiteral lowercase payload 4 headers offset

/-- The loop of `decodeHpackHeaders`; every turn takes a byte at least. -/
def hpackLoop (payload : Bytes) : Nat → Headers → Nat → Except Stop Headers
  | 0, headers, _ => .ok headers
  | fuel + 1, headers, offset =>
    match payload[offset]? with
    | none => .ok headers
    | some b =>
      match hpackTurn lowercase payload b headers offset with
      | .error .null => .ok headers
      | .error .illegalArgument => .error .illegalArgument
      | .ok (headers, offset) => hpackLoop payload fuel headers offset

def decodeHpackHeaders (payload : Bytes) : Except Stop Headers :=
  hpackLoop lowercase payload payload.length [] 0

end Headers

-- ----
-- The fuel

section Fuel

variable {payload : Bytes} {offset : Nat} {b : UInt8} {lowercase : Text → Text} {headers : Headers}

theorem le_hpackOctets (value : Int) (m consumed : Nat) (rest : Bytes) :
    consumed ≤ (hpackOctets value m consumed rest).2 := by
  induction rest generalizing value m consumed with
  | nil => exact Nat.le_refl _
  | cons b rest ih => grind [hpackOctets]

theorem takes_decodeHpackInteger (hb : offset < payload.length) (bits : Nat) :
    0 < (decodeHpackInteger payload offset bits).2 := by
  rw [decodeHpackInteger, drop_eq_getElem_cons hb]
  grind [le_hpackOctets]

/-- Every turn takes an octet. -/
theorem takes_hpackTurn {added : Headers} {next : Nat} (hb : offset < payload.length)
    (h : hpackTurn lowercase payload b headers offset = .ok (added, next)) : offset < next := by
  have htakes := takes_decodeHpackInteger hb
  have hliteral : ∀ bits, hpackLiteral lowercase payload bits headers offset = .ok (added, next) →
      offset < next := by
    intro bits h
    have := htakes bits
    rw [hpackLiteral] at h
    split at h <;>
    · obtain ⟨name, -, h⟩ := bind_eq_ok.mp h
      obtain ⟨v, -, h⟩ := bind_eq_ok.mp h
      cases h
      omega
  grind [hpackTurn]

/-- So the fuel never runs out. -/
theorem hpackLoop_fuel {fuel : Nat} (hfuel : payload.length ≤ fuel + offset) :
    hpackLoop lowercase payload (fuel + 1) headers offset =
      hpackLoop lowercase payload fuel headers offset := by
  induction fuel generalizing offset headers with
  | zero => grind [hpackLoop]
  | succ fuel ih => grind [hpackLoop, → takes_hpackTurn]

end Fuel

-- ----
-- The walk

/-- How many octets the loop takes. -/
def octetsTaken (m : Nat) : Bytes → Nat
  | [] => 0
  | b :: rest => if b.toNat < 128 ∨ 64 ≤ m + 7 then 1 else octetsTaken (m + 7) rest + 1

/-- How many octets an integer takes. -/
def integerTaken (prefixBits : Nat) : Bytes → Nat
  | [] => 0
  | b :: rest => if b.toNat % 2 ^ prefixBits < 2 ^ prefixBits - 1 then 1 else octetsTaken 0 rest + 1

def walkInteger (data : Bytes) (start prefixBits : Nat) : Walk (Nat × Nat) :=
  ⟨[Hpack.integerValue prefixBits (data.drop start)],
    some (Hpack.integerValue prefixBits (data.drop start),
      integerTaken prefixBits (data.drop start))⟩

/-- A string behind its length: how many bytes it takes. -/
def walkStringAt (data : Bytes) (start : Nat) (length : Nat × Nat) : Walk Nat :=
  ⟨[start + length.2 + length.1],
    if start + length.2 + length.1 ≤ data.length then some (length.2 + length.1) else none⟩

def walkString (data : Bytes) (start : Nat) : Walk Nat :=
  if start < data.length then (walkInteger data start 7).andThen (walkStringAt data start)
  else ⟨[], none⟩

def walkLiteral (payload : Bytes) (prefixBits offset : Nat) : Walk Nat :=
  (walkInteger payload offset prefixBits).andThen fun nameIdx =>
    (if nameIdx.1 = 0 then walkString payload (offset + nameIdx.2) else ⟨[], some 0⟩).andThen
      fun name =>
      (walkString payload (offset + nameIdx.2 + name)).andThen fun v =>
        ⟨[], some (offset + nameIdx.2 + name + v)⟩

def walkTurn (payload : Bytes) (b : UInt8) (offset : Nat) : Walk Nat :=
  if 128 ≤ b.toNat then (walkInteger payload offset 7).andThen fun idx =>
    ⟨[], some (offset + idx.2)⟩
  else if 64 ≤ b.toNat then walkLiteral payload 6 offset
  else if 32 ≤ b.toNat then (walkInteger payload offset 5).andThen fun size =>
    ⟨[], some (offset + size.2)⟩
  else walkLiteral payload 4 offset

def walkLoop (payload : Bytes) : Nat → Nat → Walk Unit
  | 0, _ => ⟨[], some ()⟩
  | fuel + 1, offset =>
    match payload[offset]? with
    | none => ⟨[], some ()⟩
    | some b => (walkTurn payload b offset).andThen fun offset => walkLoop payload fuel offset

/-- All the integers of a block, and all the ends of its strings, are below 2^31. -/
def HeadersFit (payload : Bytes) : Prop := (walkLoop payload payload.length 0).Fits (2 ^ 31)

-- ----
-- The decoder with its reads

/-- A call of `decodeHpackInteger`: where, and with which prefix. -/
abbrev Read := Nat × Nat

/-- What it returns is what the octets stand for. -/
def Exact (data : Bytes) (r : Read) : Prop :=
  (decodeHpackInteger data r.1 r.2).1 = Hpack.integerValue r.2 (data.drop r.1)

def runInteger (data : Bytes) (start prefixBits : Nat) : Run Read Stop (Int × Nat) :=
  ⟨[(start, prefixBits)], .ok (decodeHpackInteger data start prefixBits)⟩

def runString (data : Bytes) (start : Nat) : Run Read Stop (Text × Nat) :=
  if start < data.length then
    (runInteger data start 7).andThen fun length =>
      ⟨[], hpackStringAt data (128 ≤ ((data.drop start).headD 0).toNat) start length⟩
  else ⟨[], .error .null⟩

def runLiteral (lowercase : Text → Text) (payload : Bytes) (prefixBits : Nat) (headers : Headers)
    (offset : Nat) :
    Run Read Stop (Headers × Nat) :=
  (runInteger payload offset prefixBits).andThen fun nameIdx =>
    (if nameIdx.1 = 0 then runString payload (offset + nameIdx.2)
      else ⟨[], .ok (((staticTableEntry nameIdx.1).map Prod.fst).getD [], 0)⟩).andThen fun name =>
      (runString payload (offset + nameIdx.2 + name.2)).andThen fun v =>
        ⟨[], .ok (if name.1 = [] then headers else put (lowercase name.1) v.1 headers,
          offset + nameIdx.2 + name.2 + v.2)⟩

def runTurn (lowercase : Text → Text) (payload : Bytes) (b : UInt8) (headers : Headers)
    (offset : Nat) :
    Run Read Stop (Headers × Nat) :=
  if 128 ≤ b.toNat then
    (runInteger payload offset 7).andThen fun idx =>
      ⟨[],
        match staticTableEntry idx.1 with
        | some (name, some value) => .ok (put name value headers, offset + idx.2)
        | _ => .ok (headers, offset + idx.2)⟩
  else if 64 ≤ b.toNat then runLiteral lowercase payload 6 headers offset
  else if 32 ≤ b.toNat then
    (runInteger payload offset 5).andThen fun size => ⟨[], .ok (headers, offset + size.2)⟩
  else runLiteral lowercase payload 4 headers offset

def runLoop (lowercase : Text → Text) (payload : Bytes) : Nat → Headers → Nat →
    Run Read Stop Headers
  | 0, headers, _ => ⟨[], .ok headers⟩
  | fuel + 1, headers, offset =>
    match payload[offset]? with
    | none => ⟨[], .ok headers⟩
    | some b =>
      (runTurn lowercase payload b headers offset).andThen fun p =>
        runLoop lowercase payload fuel p.1 p.2

/-- `decodeHpackHeaders` throws nothing, and each integer it goes by is the one that stands
there. -/
def HeadersTotal (lowercase : Text → Text) (payload : Bytes) : Prop :=
  decodeHpackHeaders lowercase payload ≠ .error .illegalArgument ∧
    ∀ r ∈ (runLoop lowercase payload payload.length [] 0).reads, Exact payload r

theorem outcome_runString (data : Bytes) (start : Nat) :
    (runString data start).outcome = decodeHpackString data start := by
  rw [runString, decodeHpackString]
  by_cases hstart : start < data.length
  · rw [if_pos hstart, drop_eq_getElem_cons hstart]
    rfl
  · rw [if_neg hstart, drop_eq_nil_of_le (Nat.not_lt.mp hstart)]

theorem outcome_runLiteral (lowercase : Text → Text) (payload : Bytes) (prefixBits : Nat)
    (headers : Headers) (offset : Nat) :
    (runLiteral lowercase payload prefixBits headers offset).outcome =
      hpackLiteral lowercase payload prefixBits headers offset := by
  rw [runLiteral, hpackLiteral, Run.outcome_andThen]
  show ((ite _ _ _ : Run Read Stop (Text × Nat)).andThen _).outcome = _
  rw [Run.outcome_andThen]
  have hname : ∀ name : Text × Nat,
      ((runString payload (offset + (decodeHpackInteger payload offset prefixBits).2 +
        name.2)).andThen fun v =>
        (⟨[], .ok (if name.1 = [] then headers else put (lowercase name.1) v.1 headers,
          offset + (decodeHpackInteger payload offset prefixBits).2 + name.2 + v.2)⟩ :
            Run Read Stop (Headers × Nat))).outcome =
      decodeHpackString payload (offset + (decodeHpackInteger payload offset prefixBits).2 +
        name.2) >>= fun v =>
        .ok (if name.1 = [] then headers else put (lowercase name.1) v.1 headers,
          offset + (decodeHpackInteger payload offset prefixBits).2 + name.2 + v.2) := by
    intro name
    rw [Run.outcome_andThen, outcome_runString]
  by_cases hzero : (decodeHpackInteger payload offset prefixBits).1 = 0
  · rw [if_pos hzero, if_pos hzero, outcome_runString]
    rcases decodeHpackString payload (offset + (decodeHpackInteger payload offset prefixBits).2)
      with stop | name
    · rfl
    · exact hname name
  · rw [if_neg hzero, if_neg hzero]
    exact hname _

theorem outcome_runTurn (lowercase : Text → Text) (payload : Bytes) (b : UInt8) (headers : Headers)
    (offset : Nat) :
    (runTurn lowercase payload b headers offset).outcome =
      hpackTurn lowercase payload b headers offset := by
  rw [runTurn, hpackTurn]
  by_cases hindexed : 128 ≤ b.toNat
  · rw [if_pos hindexed, if_pos hindexed, Run.outcome_andThen]
    rfl
  · rw [if_neg hindexed, if_neg hindexed]
    by_cases hincremental : 64 ≤ b.toNat
    · rw [if_pos hincremental, if_pos hincremental]
      exact outcome_runLiteral lowercase payload 6 headers offset
    · rw [if_neg hincremental, if_neg hincremental]
      by_cases hupdate : 32 ≤ b.toNat
      · rw [if_pos hupdate, if_pos hupdate, Run.outcome_andThen]
        rfl
      · rw [if_neg hupdate, if_neg hupdate]
        exact outcome_runLiteral lowercase payload 4 headers offset

theorem hpackLoop_throws (lowercase : Text → Text) (payload : Bytes) (fuel : Nat)
    (headers : Headers) (offset : Nat) :
    hpackLoop lowercase payload fuel headers offset = .error .illegalArgument ↔
      (runLoop lowercase payload fuel headers offset).outcome = .error .illegalArgument := by
  induction fuel generalizing headers offset with
  | zero => exact ⟨nofun, nofun⟩
  | succ fuel ih =>
    rw [hpackLoop, runLoop]
    rcases payload[offset]? with _ | b
    · exact ⟨nofun, nofun⟩
    · dsimp only
      rw [Run.outcome_andThen, outcome_runTurn]
      rcases hpackTurn lowercase payload b headers offset with (_ | _) | p
      · exact ⟨nofun, nofun⟩
      · exact ⟨fun _ => rfl, fun _ => rfl⟩
      · exact ih p.1 p.2

-- ----
-- Integers

theorem octetsTaken_le (m : Nat) (rest : Bytes) : octetsTaken m rest ≤ rest.length := by
  induction rest generalizing m with
  | nil => exact Nat.le_refl _
  | cons b rest ih =>
    have := ih (m + 7)
    rw [octetsTaken, length_cons]
    split <;> omega

theorem integerTaken_le (prefixBits : Nat) (data : Bytes) :
    integerTaken prefixBits data ≤ data.length := by
  rcases data with _ | ⟨b, rest⟩
  · exact Nat.le_refl _
  · have := octetsTaken_le 0 rest
    rw [integerTaken, length_cons]
    split <;> omega

/-- Where the loop gives up, what is behind would be too large for a word, unless it is nothing. -/
theorem hpackOctets_exact {value m consumed : Nat} {rest : Bytes}
    (h : value + Hpack.octetsValue m rest < 2 ^ 31) :
    hpackOctets value m consumed rest =
      (((value + Hpack.octetsValue m rest : Nat) : Int), consumed + octetsTaken m rest) := by
  induction rest generalizing value m consumed with
  | nil => rfl
  | cons b rest ih =>
    rw [Hpack.octetsValue] at h ⊢
    rw [hpackOctets, octetsTaken, Naive.HpackDecoder.int32_add_shift h]
    by_cases hlast : b.toNat < 128
    · rw [if_pos hlast, if_pos hlast, if_pos (Or.inl hlast), Nat.add_zero (b.toNat % 128 * 2 ^ m)]
    · rw [if_neg hlast] at h
      rw [if_neg hlast, if_neg hlast]
      by_cases hcut : 64 ≤ m + 7
      · have hzero : Hpack.octetsValue (m + 7) rest = 0 := by
          have hpow : 2 ^ 64 ≤ 2 ^ (m + 7) := Nat.pow_le_pow_right (by decide) hcut
          exact Nat.eq_zero_of_dvd_of_lt (Hpack.dvd_octetsValue (m + 7) rest) (by omega)
        rw [if_pos hcut, if_pos (Or.inr hcut), hzero, Nat.add_zero (b.toNat % 128 * 2 ^ m)]
      · rw [if_neg hcut, if_neg (not_or.mpr ⟨hlast, hcut⟩), ih (by omega)]
        have hcount : consumed + 1 + octetsTaken (m + 7) rest = consumed +
            (octetsTaken (m + 7) rest + 1) := by omega
        rw [hcount, Nat.add_assoc value]

theorem hpackOctets_lt {value : Int} (hvalue : value < 2 ^ 31) (m consumed : Nat) (rest : Bytes) :
    (hpackOctets value m consumed rest).1 < 2 ^ 31 := by
  induction rest generalizing value m consumed with
  | nil => exact hvalue
  | cons b rest ih =>
    have hword := (Naive.fits_int32 (value + int32 (b.toNat % 128 * 2 ^ (m % 32) : Nat))).2
    rw [hpackOctets]
    split
    · exact hword
    · split
      · exact hword
      · exact ih hword _ _

variable {data payload : Bytes} {prefixBits start offset : Nat}

theorem decodeHpackInteger_exact
    (h : Hpack.integerValue prefixBits (data.drop start) < 2 ^ 31) :
    decodeHpackInteger data start prefixBits =
      (((Hpack.integerValue prefixBits (data.drop start) : Nat) : Int),
        integerTaken prefixBits (data.drop start)) := by
  rw [decodeHpackInteger]
  revert h
  rcases data.drop start with _ | ⟨b, rest⟩
  · exact fun _ => rfl
  · intro h
    rw [Hpack.integerValue] at h ⊢
    rw [integerTaken]
    by_cases hsmall : b.toNat % 2 ^ prefixBits < 2 ^ prefixBits - 1
    · rw [if_pos hsmall, if_pos hsmall]
      exact if_pos hsmall
    · have hpow := Nat.two_pow_pos prefixBits
      have hlt := Nat.mod_lt b.toNat hpow
      have hall : b.toNat % 2 ^ prefixBits = 2 ^ prefixBits - 1 := by omega
      rw [if_neg hsmall] at h
      rw [if_neg hsmall, if_neg hsmall]
      rw [hall] at h ⊢
      dsimp only
      rw [hall, if_neg (Nat.lt_irrefl _), hpackOctets_exact h, Nat.add_comm 1]

theorem decodeHpackInteger_lt (hbits : prefixBits ≤ 8) (data : Bytes) (start : Nat) :
    (decodeHpackInteger data start prefixBits).1 < 2 ^ 31 := by
  have hpow : 2 ^ prefixBits ≤ 2 ^ 8 := Nat.pow_le_pow_right (by decide) hbits
  rw [decodeHpackInteger]
  rcases data.drop start with _ | ⟨b, rest⟩
  · show (0 : Int) < 2 ^ 31
    decide
  · dsimp only
    split
    · dsimp only
      omega
    · exact hpackOctets_lt (by omega) 0 1 rest

/-- **An integer is read exactly when it fits.** -/
theorem exact_iff {prefixBits : Nat} (hbits : prefixBits ≤ 8) (data : Bytes) (start : Nat) :
    Exact data (start, prefixBits) ↔ (walkInteger data start prefixBits).Fits (2 ^ 31) := by
  constructor
  · intro hexact n hn
    obtain rfl := mem_singleton.mp hn
    have hlt := decodeHpackInteger_lt hbits data start
    rw [Exact] at hexact
    rw [hexact] at hlt
    exact_mod_cast hlt
  · intro hfits
    rw [Exact, decodeHpackInteger_exact (hfits _ mem_cons_self)]

-- ----
-- The decoder beside the walk

/-- As long as the numbers fit, and the failure that must not occur. -/
abbrev Agrees {α β : Type} (data : Bytes) (related : α → β → Prop) (r : Run Read Stop β)
    (w : Walk α) : Prop :=
  Follows (Exact data) Stop.illegalArgument (2 ^ 31) related r w

theorem agrees_integer (hstart : start ≤ data.length)
    (hbits : prefixBits ≤ 8) :
    Agrees data (fun a b => b = ((a.1 : Int), a.2) ∧ a.1 < 2 ^ 31 ∧ start + a.2 ≤ data.length)
      (runInteger data start prefixBits) (walkInteger data start prefixBits) := by
  have hexact := exact_iff hbits data start
  refine ⟨⟨fun hclean => hexact.mp (hclean.reads _ mem_cons_self), fun hfits => ⟨?_, nofun⟩⟩, nofun,
    ?_⟩
  · intro r hr
    obtain rfl := mem_singleton.mp hr
    exact hexact.mpr hfits
  · intro hfits a ha
    obtain rfl := Option.some.inj ha
    have hvalue := hfits _ mem_cons_self
    have htaken := integerTaken_le prefixBits (data.drop start)
    rw [length_drop] at htaken
    exact ⟨_, rfl, decodeHpackInteger_exact hvalue, hvalue, by dsimp only; omega⟩

theorem agrees_stringAt (hsize : data.length < 2 ^ 31) (isHuffman : Bool)
    {n taken : Nat} (hn : n < 2 ^ 31) (hwithin : start + taken ≤ data.length) :
    Agrees data (fun a b => b.2 = a ∧ start + a ≤ data.length)
      ⟨[], hpackStringAt data isHuffman start ((n : Int), taken)⟩
      (walkStringAt data start (n, taken)) := by
  by_cases hend : start + taken + n < 2 ^ 31
  · have hword : int32 (((start + taken : Nat) : Int) + (n : Int)) =
        ((start + taken + n : Nat) : Int) := by
      rw [← Int.natCast_add]
      exact int32_of_nat hend
    have hfits : (walkStringAt data start (n, taken)).Fits (2 ^ 31) := by
      intro k hk
      obtain rfl := mem_singleton.mp hk
      exact hend
    rw [hpackStringAt]
    dsimp only
    rw [hword]
    by_cases hinside : start + taken + n ≤ data.length
    · have hresult : (walkStringAt data start (n, taken)).result = some (taken + n) :=
        if_pos hinside
      rw [if_neg (by omega), if_neg (by omega)]
      refine ⟨⟨fun _ => hfits, fun _ => ⟨nofun, nofun⟩⟩, fun _ hnone => ?_,
        fun _ a ha => ⟨_, rfl, ?_⟩⟩
      · exact nomatch hresult.symm.trans hnone
      · rw [← Option.some.inj (hresult.symm.trans ha), Int.toNat_natCast]
        exact ⟨rfl, by omega⟩
    · have hresult : (walkStringAt data start (n, taken)).result = none := if_neg hinside
      rw [if_pos (by omega)]
      refine ⟨⟨fun _ => hfits, fun _ => ⟨nofun, nofun⟩⟩, fun _ _ => ⟨_, rfl⟩, fun _ a ha => ?_⟩
      exact nomatch hresult.symm.trans ha
  · have hword : int32 (((start + taken : Nat) : Int) + (n : Int)) = ((start + taken : Nat) : Int) +
        (n : Int) - 0x100000000 :=
      int32_of_large (by omega) (by omega)
    have hlarge : ¬ (walkStringAt data start (n, taken)).Fits (2 ^ 31) :=
      fun hall => hend (hall _ mem_cons_self)
    rw [hpackStringAt]
    dsimp only
    -- the check of the source lets the wrapped end pass
    rw [hword, if_neg (by omega), if_pos (by omega)]
    exact ⟨⟨fun hclean => absurd rfl hclean.outcome, fun hall => absurd hall hlarge⟩,
      fun hall => absurd hall hlarge, fun hall => absurd hall hlarge⟩

/-- A string, with the end that wraps. -/
theorem agrees_string (hsize : data.length < 2 ^ 31) (hstart : start ≤ data.length) :
    Agrees data (fun a b => b.2 = a ∧ start + a ≤ data.length) (runString data start)
    (walkString data start) := by
  rw [runString, walkString]
  by_cases hinside : start < data.length
  · rw [if_pos hinside, if_pos hinside]
    apply (agrees_integer hstart (by decide)).andThen
    rintro ⟨n, taken⟩ b ⟨rfl, hn, hwithin⟩
    exact agrees_stringAt hsize _ hn hwithin
  · rw [if_neg hinside, if_neg hinside]
    exact Follows.silent nofun (fun _ => ⟨_, rfl⟩) fun _ ha => nomatch ha

theorem agrees_literal (lowercase : Text → Text) (hsize : payload.length < 2 ^ 31)
    (hbits : prefixBits ≤ 8) (headers : Headers) (hoffset : offset ≤ payload.length) :
    Agrees payload (fun a b => b.2 = a ∧ a ≤ payload.length)
    (runLiteral lowercase payload prefixBits headers offset)
      (walkLiteral payload prefixBits offset) := by
  apply (agrees_integer hoffset hbits).andThen
  rintro ⟨n, taken⟩ b ⟨rfl, -, hwithin⟩
  dsimp only at hwithin ⊢
  have hname : Agrees payload (fun a (b : Text × Nat) => b.2 = a ∧ offset + taken + a ≤
      payload.length)
      (if (n : Int) = 0 then runString payload (offset + taken)
        else ⟨[], .ok (((staticTableEntry (n : Int)).map Prod.fst).getD [], 0)⟩)
      (if n = 0 then walkString payload (offset + taken) else ⟨[], some 0⟩) := by
    by_cases hzero : n = 0
    · rw [if_pos hzero, if_pos (by omega)]
      exact agrees_string hsize hwithin
    · rw [if_neg hzero, if_neg (by omega)]
      refine Follows.silent nofun nofun fun a ha => ⟨_, rfl, ?_⟩
      rw [← Option.some.inj ha]
      exact ⟨rfl, hwithin⟩
  apply hname.andThen
  rintro taken' ⟨name, skipped⟩ ⟨rfl, hwithin'⟩
  dsimp only at hwithin' ⊢
  apply (agrees_string hsize hwithin').andThen
  rintro a v ⟨rfl, hend⟩
  refine Follows.silent nofun nofun fun a ha => ⟨_, rfl, ?_⟩
  rw [← Option.some.inj ha]
  exact ⟨rfl, hend⟩

theorem agrees_turn (lowercase : Text → Text) (hsize : payload.length < 2 ^ 31) (b : UInt8)
    (headers : Headers) (hoffset : offset ≤ payload.length) :
    Agrees payload (fun a b => b.2 = a ∧ a ≤ payload.length)
    (runTurn lowercase payload b headers offset)
      (walkTurn payload b offset) := by
  rw [runTurn, walkTurn]
  by_cases hindexed : 128 ≤ b.toNat
  · rw [if_pos hindexed, if_pos hindexed]
    apply (agrees_integer hoffset (by decide)).andThen
    rintro ⟨n, taken⟩ b ⟨rfl, -, hwithin⟩
    dsimp only at hwithin ⊢
    rcases staticTableEntry n with _ | ⟨name, _ | value⟩ <;>
    · refine Follows.silent nofun nofun fun a ha => ⟨_, rfl, ?_⟩
      rw [← Option.some.inj ha]
      exact ⟨rfl, hwithin⟩
  · rw [if_neg hindexed, if_neg hindexed]
    by_cases hincremental : 64 ≤ b.toNat
    · rw [if_pos hincremental, if_pos hincremental]
      exact agrees_literal lowercase hsize (by decide) headers hoffset
    · rw [if_neg hincremental, if_neg hincremental]
      by_cases hupdate : 32 ≤ b.toNat
      · rw [if_pos hupdate, if_pos hupdate]
        apply (agrees_integer hoffset (by decide)).andThen
        rintro ⟨n, taken⟩ b ⟨rfl, -, hwithin⟩
        refine Follows.silent nofun nofun fun a ha => ⟨_, rfl, ?_⟩
        rw [← Option.some.inj ha]
        exact ⟨rfl, hwithin⟩
      · rw [if_neg hupdate, if_neg hupdate]
        exact agrees_literal lowercase hsize (by decide) headers hoffset

theorem agrees_loop (lowercase : Text → Text) (hsize : payload.length < 2 ^ 31) (fuel : Nat)
    (headers : Headers) (hoffset : offset ≤ payload.length) :
    Agrees payload (fun _ _ => True) (runLoop lowercase payload fuel headers offset)
    (walkLoop payload fuel offset) := by
  induction fuel generalizing headers offset with
  | zero => exact Follows.silent nofun nofun fun _ _ => ⟨_, rfl, trivial⟩
  | succ fuel ih =>
    rw [runLoop, walkLoop]
    rcases payload[offset]? with _ | b
    · exact Follows.silent nofun nofun fun _ _ => ⟨_, rfl, trivial⟩
    · dsimp only
      apply (agrees_turn lowercase hsize b headers hoffset).andThen
      rintro offset' p ⟨rfl, hoffset'⟩
      exact ih p.1 hoffset'

theorem headersTotal_iff (lowercase : Text → Text) (hsize : payload.length < 2 ^ 31) :
    HeadersTotal lowercase payload ↔ HeadersFit payload := by
  have hloop := agrees_loop lowercase hsize payload.length [] (Nat.zero_le _)
  rw [HeadersTotal, HeadersFit, ← hloop.clean, decodeHpackHeaders, ne_eq, hpackLoop_throws]
  exact ⟨fun h => ⟨h.2, h.1⟩, fun h => ⟨h.outcome, h.reads⟩⟩

/-- **The blocks the decoders are total on.** Either throws nothing and reads each integer as it
stands there, exactly when all the integers of the block, and all the ends of its strings, are below
2^31. -/
theorem hpack_total_iff (lowercase : Text → Text) (dynamicTable : Headers) {data : Bytes}
    (hsize : data.length < 2 ^ 31) :
    (Naive.HpackDecoder.Total dynamicTable data ↔
      Naive.HpackDecoder.Fits dynamicTable.length data) ∧
      (HeadersTotal lowercase data ↔ HeadersFit data) :=
  ⟨Naive.HpackDecoder.total_iff dynamicTable hsize, headersTotal_iff lowercase hsize⟩

/-- A literal whose name has a length of 2^31 + 127 octets. -/
def wrappingBlock : Bytes := [0x00, 0x7F, 0x80, 0x80, 0x80, 0x80, 0x08]

/-- A table size of three octets and a literal with a name and a value. -/
def literalBlock : Bytes := [0x3F, 0xE1, 0x1F, 0x00, 0x01, 0x61, 0x01, 0x62]
theorem hpack_total_iff_literal :
    literalBlock.length < 2 ^ 31 ∧
      (Naive.HpackDecoder.Total [] literalBlock ∧ Naive.HpackDecoder.Fits 0 literalBlock) ∧
      (HeadersTotal id literalBlock ∧ HeadersFit literalBlock) := by
  have hsize : literalBlock.length < 2 ^ 31 := by decide
  obtain ⟨hdecoder, hheaders⟩ := hpack_total_iff id [] hsize
  have hfits : Naive.HpackDecoder.Fits 0 literalBlock := by
    rw [Naive.HpackDecoder.Fits]
    decide
  have hfit : HeadersFit literalBlock := by
    rw [HeadersFit]
    decide
  exact ⟨hsize, ⟨hdecoder.mpr hfits, hfits⟩, hheaders.mpr hfit, hfit⟩

theorem hpack_not_total :
    ¬ ∀ (lowercase : Text → Text) (dynamicTable : Headers) (data : Bytes), data.length < 2 ^ 31 →
      Naive.HpackDecoder.Total dynamicTable data ∧ HeadersTotal lowercase data := by
  intro h
  obtain ⟨htotal, -⟩ := h id [] wrappingBlock (by decide)
  exact htotal.1 (by decide)

end Anywhere.Grpc
