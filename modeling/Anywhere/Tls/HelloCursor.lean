import Mathlib.Data.List.GetD
import Anywhere.Lib.ArrayReads
import Anywhere.Tls.Hello

/-!
# Anywhere — `PacketUtil.parseServerHello` on its array

`Wire.lean` has the parser as a function of the bytes that are left. Here it is with its offsets,
over reads that fail outside the array, and split into the search for the key share and the copy of
it. The extension loop has two members: the one of `PacketUtil`, and the one of `RealityClient`.

* `Indexed.parseServerHello_reads` — no read is outside, and the result is the one of `Wire.lean`.
* `HelloAt`, `parseRecords_iff` — where the record loop finds the ServerHello.
* `Visits`, `parseExtensions_iff` — where an extension loop comes by, and what it finds.
* `KeyShareAt` — a key_share of the ServerHello with all of its entry in it.
* `HelloArray.findShare_accepted`, `HelloArray.findShare_refused` — the search of an array that
  begins with a ServerHello with one key share.
-/

namespace Anywhere.Tls

open Lib List

-- ----
-- Two bytes of an array

/-- Two bytes, most significant first; outside there are zeros. -/
def wordAt (data : Bytes) (i : Nat) : Nat := be16 (data.getD i 0) (data.getD (i + 1) 0)

variable {data : Bytes} {i : Nat}

theorem readWord_wordAt (h : i + 2 ≤ data.length) : readWord data i = .ok (wordAt data i) := by
  rw [readWord_eq (by omega), wordAt, be16,
    getD_eq_getElem data 0 (show i < data.length by omega),
    getD_eq_getElem data 0 (show i + 1 < data.length by omega)]

theorem be16_wordAt (data : Bytes) (i : Nat) :
    be16 (data.getD i 0) (data.getD (i + 1) 0) = wordAt data i := rfl

theorem wordAt_lt (data : Bytes) (i : Nat) : wordAt data i < 65536 := by
  have hhi := (data.getD i 0).toNat_lt
  have hlo := (data.getD (i + 1) 0).toNat_lt
  rw [wordAt, be16]
  omega

theorem wordAt_drop (data : Bytes) (p i : Nat) : wordAt (data.drop p) i = wordAt data (p + i) := by
  simp only [wordAt, List.getD_eq_getElem?_getD, List.getElem?_drop, Nat.add_assoc]

theorem readByte_getD (h : i < data.length) : readByte data i = .ok (data.getD i 0) := by
  rw [readByte_eq h, getD_eq_getElem data 0 h]

theorem drop_byte (h : i < data.length) : data.drop i = data.getD i 0 :: data.drop (i + 1) := by
  rw [getD_eq_getElem data 0 h]
  exact drop_eq_getElem_cons h

theorem drop_word (h : i + 2 ≤ data.length) :
    data.drop i = data.getD i 0 :: data.getD (i + 1) 0 :: data.drop (i + 2) := by
  rw [drop_byte (show i < data.length by omega), drop_byte (show i + 1 < data.length by omega)]

theorem wordAt_append (front behind : Bytes) (hi lo : UInt8) (h : i = front.length) :
    wordAt (front ++ hi :: lo :: behind) i = be16 hi lo := by
  subst h
  unfold wordAt
  rw [getD_append_right _ _ _ _ (Nat.le_refl _),
    getD_append_right _ _ _ _ (Nat.le_succ _), Nat.sub_self,
    Nat.succ_sub (Nat.le_refl _), Nat.sub_self]
  rfl

-- ----
-- The parser

/-- Where the ServerHello is: its first byte, the length of its record, its extensions. -/
structure HelloBlock where
  message : Nat
  recordLen : Nat
  cipherSuite : Nat
  start : Nat
  extEnd : Nat
  deriving DecidableEq

/-- The extensions end in the array, and the cipher suite is two bytes. -/
structure HelloBlock.Inside (data : Bytes) (hello : HelloBlock) : Prop where
  extEnd_le : hello.extEnd ≤ data.length
  cipherSuite_lt : hello.cipherSuite < 65536

namespace PacketUtil.Indexed

def parseHello (data : Bytes) (offset recordLen : Nat) : Except OutOfBounds (Option HelloBlock) :=
  -- type(1) + length(3) + version(2) + random(32)
  let sh := offset + 1 + 3 + 2 + 32
  if data.length ≤ sh then .ok none
  else do
    let sessionIdLen ← readByte data sh
    let sh := sh + 1 + sessionIdLen.toNat
    if data.length < sh + 2 then .ok none
    else do
      let cipherSuite ← readWord data sh
      -- cipher(2) + compression(1)
      let sh := sh + 3
      if data.length < sh + 2 then .ok none
      else do
        let extLen ← readWord data sh
        let sh := sh + 2
        if data.length < sh + extLen then .ok none
        else .ok (some ⟨offset, recordLen, cipherSuite, sh, sh + extLen⟩)

def parseRecords (data : Bytes) (offset : Nat) : Except OutOfBounds (Option HelloBlock) :=
  if offset + 5 < data.length then do
    let contentType ← readByte data offset
    if contentType ≠ 0x16 then .ok none
    else do
      let recordLen ← readWord data (offset + 3)
      let offset' := offset + 5
      if data.length < offset' + recordLen then .ok none
      else do
        let hsType ← readByte data offset'
        if hsType ≠ 0x02 then parseRecords data (offset' + recordLen) else
          parseHello data offset' recordLen
  else .ok none
termination_by data.length - offset

/-- An extension loop: `accepts` the group and the length of a share, and behind a key share that it
does not accept has `consumed` more bytes than the extension's length says. It finds the place of
the share, and its length. -/
def parseExtensions (accepts : Nat → Nat → Bool) (consumed : Nat) (data : Bytes) (extEnd sh : Nat) :
    Except OutOfBounds (Option (Nat × Nat)) :=
  if sh + 4 ≤ extEnd then do
    let extType ← readWord data sh
    let extDataLen ← readWord data (sh + 2)
    if extType = 0x0033 then
      if data.length < sh + 4 + 4 then .ok none
      else do
        let group ← readWord data (sh + 4)
        let keyLen ← readWord data (sh + 6)
        if accepts group keyLen then
          if data.length < sh + 8 + keyLen then .ok none else .ok (some (sh + 8, keyLen))
        else parseExtensions accepts consumed data extEnd (sh + 4 + consumed + extDataLen)
    else parseExtensions accepts consumed data extEnd (sh + 4 + extDataLen)
  else .ok none
termination_by extEnd - sh

/-- The share that `PacketUtil` accepts. -/
def x25519 (group keyLen : Nat) : Bool := group == 0x001d && keyLen == 32

/-- The ServerHello, and where its key share is. -/
def findShare (accepts : Nat → Nat → Bool) (consumed : Nat) (data : Bytes) :
    Except OutOfBounds (Option (HelloBlock × Nat × Nat)) := do
  let hello ← parseRecords data 0
  match hello with
  | none => .ok none
  | some hello => do
    let found ← parseExtensions accepts consumed data hello.extEnd hello.start
    .ok (found.map fun share => (hello, share))

/-- The search of `PacketUtil`: behind another key share `sh` is four bytes further on. -/
def findX25519 (data : Bytes) : Except OutOfBounds (Option (HelloBlock × Nat × Nat)) :=
  findShare x25519 4 data

/-- `PacketUtil.parseServerHello`: the 32 bytes of the share and the two of the cipher suite. -/
def parseServerHello (data : Bytes) : Except OutOfBounds (Option Bytes) := do
  let found ← findX25519 data
  match found with
  | none => .ok none
  | some (hello, sh, keyLen) => do
    let keyShare ← readBytes data sh keyLen
    .ok (some (keyShare ++ [UInt8.ofNat (hello.cipherSuite / 256), UInt8.ofNat hello.cipherSuite]))

-- ----
-- The ServerHello in the array

theorem parseHello_reads (data : Bytes) (offset recordLen : Nat) :
    ∃ hello, parseHello data offset recordLen = .ok hello ∧
      (∀ block, hello = some block → block.Inside data) ∧
      ∀ loop, PacketUtil.parseHello loop (data.drop offset) =
        hello.bind fun block =>
          loop block.cipherSuite (block.extEnd - block.start) (block.extEnd - block.start)
              (data.drop block.start) := by
  unfold parseHello PacketUtil.parseHello
  dsimp only
  by_cases hfixed : data.length ≤ offset + 1 + 3 + 2 + 32
  · refine ⟨none, by rw [if_pos hfixed], nofun, fun loop => ?_⟩
    rw [drop_drop, drop_eq_nil_of_le (by omega)]
    rfl
  rw [if_neg hfixed, readByte_getD (by omega), bind_ok]
  obtain ⟨sid, hsid⟩ : ∃ sid, data.getD (offset + 1 + 3 + 2 + 32) 0 = sid := ⟨_, rfl⟩
  have hdrop : (data.drop offset).drop 38 = sid :: data.drop (offset + 1 + 3 + 2 + 32 + 1) := by
    rw [drop_drop, ← hsid]
    exact drop_byte (by omega)
  rw [hsid]
  simp only [hdrop, drop_drop]
  obtain ⟨sh, hsh⟩ : ∃ sh, offset + 1 + 3 + 2 + 32 + 1 + sid.toNat = sh := ⟨_, rfl⟩
  rw [hsh]
  by_cases hsuite : data.length < sh + 2
  · refine ⟨none, by rw [if_pos hsuite], nofun, fun loop => ?_⟩
    have hlen : (data.drop sh).length < 2 := by
      rw [length_drop]
      omega
    rcases hq : data.drop sh with _ | ⟨c1, _ | ⟨c2, q⟩⟩
    · rfl
    · rfl
    · rw [hq] at hlen
      exact absurd hlen (by simp)
  rw [if_neg hsuite, readWord_wordAt (by omega), bind_ok, drop_word (by omega)]
  dsimp only
  rw [drop_drop]
  by_cases hlength : data.length < sh + 3 + 2
  · refine ⟨none, by rw [if_pos hlength], nofun, fun loop => ?_⟩
    have hlen : (data.drop (sh + 2 + 1)).length < 2 := by
      rw [length_drop]
      omega
    rcases hq : data.drop (sh + 2 + 1) with _ | ⟨e1, _ | ⟨e2, q⟩⟩
    · rfl
    · rfl
    · rw [hq] at hlen
      exact absurd hlen (by simp)
  rw [if_neg hlength, readWord_wordAt (by omega), bind_ok,
    drop_word (show sh + 2 + 1 + 2 ≤ data.length by omega)]
  dsimp only
  rw [length_drop]
  have hword : be16 (data.getD (sh + 2 + 1) 0) (data.getD (sh + 2 + 1 + 1) 0) =
      wordAt data (sh + 3) := rfl
  rw [hword]
  by_cases hexts : data.length < sh + 3 + 2 + wordAt data (sh + 3)
  · refine ⟨none, by rw [if_pos hexts], nofun, fun loop => ?_⟩
    rw [if_neg (by omega)]
    rfl
  · refine ⟨some _, by rw [if_neg hexts], ?_, fun loop => ?_⟩
    · rintro block ⟨⟩
      exact ⟨Nat.le_of_not_lt hexts, wordAt_lt data sh⟩
    · rw [if_pos (by omega)]
      dsimp only [Option.bind_some]
      rw [Nat.add_sub_cancel_left]
      rfl

/-- Every loop over what is left takes the same turn. -/
theorem parseRecords_turn {data : Bytes} {offset : Nat} (hmore : offset + 5 < data.length)
    (loop : Nat → Nat → Nat → Bytes → Option ServerKeyShare) {fuel : Nat}
    (hfuel : data.length ≤ offset + fuel) :
    ∃ fuel', data.length ≤ offset + 1 + fuel' ∧
      PacketUtil.parseRecords loop fuel (data.drop offset) =
        if data.getD offset 0 ≠ 0x16 then none
        else
          match takeRecord (data.drop offset) with
          | none => none
          | some (r, rest) =>
            if (r.payload ++ rest).head? ≠ some 0x02 then PacketUtil.parseRecords loop fuel' rest
            else PacketUtil.parseHello loop (r.payload ++ rest) := by
  have hhead : (data.drop offset).head? = some (data.getD offset 0) := by
    rw [drop_byte (by omega)]
    rfl
  have hlong : 5 < (data.drop offset).length := by
    rw [length_drop]
    omega
  obtain ⟨fuel, rfl⟩ : ∃ n, fuel = n + 1 := ⟨fuel - 1, by omega⟩
  refine ⟨fuel, by omega, ?_⟩
  rw [PacketUtil.parseRecords, if_pos hlong, hhead]
  cases takeRecord (data.drop offset) <;> simp only [ne_eq, Option.some.injEq]

theorem parseRecords_reads (data : Bytes) (offset : Nat) :
    ∃ hello, parseRecords data offset = .ok hello ∧
      (∀ block, hello = some block → block.Inside data) ∧
      ∀ loop fuel, data.length ≤ offset + fuel →
      PacketUtil.parseRecords loop fuel (data.drop offset) =
        hello.bind fun block =>
          loop block.cipherSuite (block.extEnd - block.start) (block.extEnd - block.start)
              (data.drop block.start) := by
  obtain ⟨left, hleft⟩ : ∃ left, data.length - offset = left := ⟨_, rfl⟩
  induction left using Nat.strong_induction_on generalizing offset with
  | h left ih =>
    rw [parseRecords]
    by_cases hmore : offset + 5 < data.length
    · rw [if_pos hmore, readByte_getD (by omega), bind_ok]
      by_cases htype : data.getD offset 0 ≠ 0x16
      · refine ⟨none, if_pos htype, by simp, fun loop fuel hfuel => ?_⟩
        obtain ⟨fuel', -, hloop⟩ := parseRecords_turn hmore loop hfuel
        rw [hloop, if_pos htype]
        rfl
      rw [if_neg htype, readWord_wordAt (by omega), bind_ok]
      dsimp only
      have htake : takeRecord (data.drop offset) =
          if wordAt data (offset + 3) ≤ (data.drop (offset + 5)).length then
            some (⟨data.getD offset 0,
                [data.getD offset 0, data.getD (offset + 1) 0, data.getD (offset + 2) 0,
              data.getD (offset + 3) 0, data.getD (offset + 4) 0],
              (data.drop (offset + 5)).take (wordAt data (offset + 3))⟩,
              (data.drop (offset + 5)).drop (wordAt data (offset + 3)))
          else none := by
        rw [drop_word (show offset + 2 ≤ data.length by omega),
          drop_word (show offset + 2 + 2 ≤ data.length by omega),
          drop_byte (show offset + 2 + 2 < data.length by omega)]
        rfl
      by_cases hrecord : data.length < offset + 5 + wordAt data (offset + 3)
      · refine ⟨none, if_pos hrecord, by simp, fun loop fuel hfuel => ?_⟩
        obtain ⟨fuel', -, hloop⟩ := parseRecords_turn hmore loop hfuel
        rw [hloop, if_neg htype, htake, if_neg (by rw [length_drop]; omega)]
        rfl
      rw [if_neg hrecord, readByte_getD (by omega), bind_ok]
      rw [if_pos (show wordAt data (offset + 3) ≤
        (data.drop (offset + 5)).length by rw [length_drop]; omega)] at htake
      have hcontent : ((data.drop (offset + 5)).take (wordAt data (offset + 3)) ++
          (data.drop (offset + 5)).drop (wordAt data (offset + 3))) = data.drop (offset + 5) :=
          take_append_drop _ _
      have hfirst : (data.drop (offset + 5)).head? = some (data.getD (offset + 5) 0) := by
        rw [drop_byte (by omega)]
        rfl
      by_cases hhs : data.getD (offset + 5) 0 ≠ 0x02
      · rw [if_pos hhs]
        obtain ⟨hello, hparse, hblock, hloops⟩ :=
          ih _ (by omega) (offset + 5 + wordAt data (offset + 3)) rfl
        refine ⟨hello, hparse, hblock, fun loop fuel hfuel => ?_⟩
        obtain ⟨fuel', hfuel', hloop⟩ := parseRecords_turn hmore loop hfuel
        rw [hloop, if_neg htype, htake]
        dsimp only
        rw [hcontent, hfirst, if_pos (by simpa using hhs), drop_drop]
        exact hloops loop fuel' (by omega)
      · rw [if_neg hhs]
        obtain ⟨hello, hparse, hblock, hloops⟩ :=
          parseHello_reads data (offset + 5) (wordAt data (offset + 3))
        refine ⟨hello, hparse, hblock, fun loop fuel hfuel => ?_⟩
        obtain ⟨fuel', -, hloop⟩ := parseRecords_turn hmore loop hfuel
        rw [hloop, if_neg htype, htake]
        dsimp only
        rw [hcontent, hfirst, if_neg (by simpa using hhs)]
        exact hloops loop
    · refine ⟨none, if_neg hmore, by simp, fun loop fuel hfuel => ?_⟩
      rcases fuel with _ | fuel
      · rfl
      · rw [PacketUtil.parseRecords, if_neg (by rw [length_drop]; omega)]
        rfl

-- ----
-- Where the ServerHello is

structure RecordAt (data : Bytes) (offset : Nat) : Prop where
  content : data.getD offset 0 = 0x16
  header : offset + 5 < data.length
  complete : offset + 5 + wordAt data (offset + 3) ≤ data.length

/-- The fields of the ServerHello that begins at `offset`, and where they are. -/
structure BlockAt (data : Bytes) (offset recordLen : Nat) (hello : HelloBlock) : Prop where
  message : hello.message = offset
  recordLen : hello.recordLen = recordLen
  start : hello.start = offset + 44 + (data.getD (offset + 38) 0).toNat
  cipherSuite : hello.cipherSuite = wordAt data (offset + 39 + (data.getD (offset + 38) 0).toNat)
  extEnd : hello.extEnd =
      hello.start + wordAt data (offset + 42 + (data.getD (offset + 38) 0).toNat)
  inArray : hello.extEnd ≤ data.length

/-- From `offset` on there are complete handshake records that begin with another message, and then
the one of the ServerHello. -/
inductive HelloAt (data : Bytes) : Nat → HelloBlock → Prop
  | here {offset : Nat} {hello : HelloBlock} (hrecord : RecordAt data offset)
      (hfirst : data.getD (offset + 5) 0 = 0x02)
      (h : BlockAt data (offset + 5) (wordAt data (offset + 3)) hello) :
      HelloAt data offset hello
  | next {offset : Nat} {hello : HelloBlock} (hrecord : RecordAt data offset)
      (hother : data.getD (offset + 5) 0 ≠ 0x02)
      (h : HelloAt data (offset + 5 + wordAt data (offset + 3)) hello) :
      HelloAt data offset hello

theorem parseHello_iff (data : Bytes) (offset recordLen : Nat) (hello : HelloBlock) :
    parseHello data offset recordLen = .ok (some hello) ↔ BlockAt data offset recordLen hello := by
  have hinside : BlockAt data offset recordLen hello →
      offset + 44 + (data.getD (offset + 38) 0).toNat ≤ data.length := by
    rintro ⟨-, -, hstart, -, hextEnd, hle⟩
    omega
  rw [parseHello]
  dsimp only
  rw [show offset + 1 + 3 + 2 + 32 = offset + 38 by rfl]
  by_cases hfixed : data.length ≤ offset + 38
  · rw [if_pos hfixed]
    exact ⟨nofun, fun h => absurd (hinside h) (by omega)⟩
  rw [if_neg hfixed, readByte_getD (by omega), bind_ok]
  obtain ⟨n, hn⟩ : ∃ n, (data.getD (offset + 38) 0).toNat = n := ⟨_, rfl⟩
  rw [hn] at hinside ⊢
  rw [show offset + 38 + 1 + n = offset + 39 + n by omega]
  by_cases hsuite : data.length < offset + 39 + n + 2
  · rw [if_pos hsuite]
    exact ⟨nofun, fun h => absurd (hinside h) (by omega)⟩
  rw [if_neg hsuite, readWord_wordAt (by omega), bind_ok,
    show offset + 39 + n + 3 = offset + 42 + n by omega]
  by_cases hlength : data.length < offset + 42 + n + 2
  · rw [if_pos hlength]
    exact ⟨nofun, fun h => absurd (hinside h) (by omega)⟩
  rw [if_neg hlength, readWord_wordAt (by omega), bind_ok,
    show offset + 42 + n + 2 = offset + 44 + n by omega]
  by_cases hexts : data.length < offset + 44 + n + wordAt data (offset + 42 + n)
  · rw [if_pos hexts]
    refine ⟨nofun, ?_⟩
    rintro ⟨-, -, hstart, -, hextEnd, hle⟩
    rw [hn] at hstart hextEnd
    omega
  · rw [if_neg hexts]
    constructor
    · intro h
      obtain rfl := Option.some.inj (Except.ok.inj h)
      exact ⟨rfl, rfl, by rw [hn], by rw [hn], by rw [hn], Nat.le_of_not_lt hexts⟩
    · obtain ⟨message, recordLen', cipherSuite, start, extEnd⟩ := hello
      rintro ⟨hmessage, hrecordLen, hstart, hcipherSuite, hextEnd, -⟩
      dsimp only at hmessage hrecordLen hstart hcipherSuite hextEnd
      rw [hextEnd, hmessage, hrecordLen, hcipherSuite, hstart, hn]

/-- **The record loop** finds the ServerHello where there is one. -/
theorem parseRecords_iff (data : Bytes) (offset : Nat) (hello : HelloBlock) :
    parseRecords data offset = .ok (some hello) ↔ HelloAt data offset hello := by
  obtain ⟨left, hleft⟩ : ∃ left, data.length - offset = left := ⟨_, rfl⟩
  induction left using Nat.strong_induction_on generalizing offset with
  | h left ih =>
    have hrecord : HelloAt data offset hello → RecordAt data offset :=
      fun h => by cases h <;> assumption
    rw [parseRecords]
    by_cases hmore : offset + 5 < data.length
    · rw [if_pos hmore, readByte_getD (by omega), bind_ok]
      by_cases htype : data.getD offset 0 ≠ 0x16
      · rw [if_pos htype]
        exact ⟨nofun, fun h => absurd (hrecord h).content htype⟩
      rw [if_neg htype, readWord_wordAt (by omega), bind_ok]
      dsimp only
      by_cases hcomplete : data.length < offset + 5 + wordAt data (offset + 3)
      · rw [if_pos hcomplete]
        exact ⟨nofun, fun h => absurd (hrecord h).complete (by omega)⟩
      have hat : RecordAt data offset := ⟨not_not.1 htype, hmore, Nat.le_of_not_lt hcomplete⟩
      rw [if_neg hcomplete, readByte_getD (by omega), bind_ok]
      by_cases hhs : data.getD (offset + 5) 0 ≠ 0x02
      · rw [if_pos hhs, ih _ (by omega) _ rfl]
        refine ⟨.next hat hhs, fun h => ?_⟩
        cases h with
        | here _ hfirst => exact absurd hfirst hhs
        | next _ _ h => exact h
      · rw [if_neg hhs, parseHello_iff]
        refine ⟨.here hat (not_not.1 hhs), fun h => ?_⟩
        cases h with
        | here _ _ h => exact h
        | next _ hother => exact absurd hother hhs
    · rw [if_neg hmore]
      exact ⟨nofun, fun h => absurd (hrecord h).header hmore⟩

-- ----
-- The extension loops

section Loop

variable {accepts : Nat → Nat → Bool} {consumed extEnd sh : Nat}

theorem parseExtensions_turn (hend : extEnd ≤ data.length) (hsh : sh + 4 ≤ extEnd) :
    parseExtensions accepts consumed data extEnd sh =
      if wordAt data sh = 0x0033 then
        if data.length < sh + 4 + 4 then .ok none
        else if accepts (wordAt data (sh + 4)) (wordAt data (sh + 6)) then
          if data.length < sh + 8 + wordAt data (sh + 6) then .ok none else
            .ok (some (sh + 8, wordAt data (sh + 6)))
        else parseExtensions accepts consumed data extEnd (sh + 4 + consumed + wordAt data (sh + 2))
      else parseExtensions accepts consumed data extEnd (sh + 4 + wordAt data (sh + 2)) := by
  rw [parseExtensions, if_pos hsh, readWord_wordAt (by omega), bind_ok, readWord_wordAt (by omega),
    bind_ok]
  split
  · split
    · rfl
    · rw [readWord_wordAt (by omega), bind_ok, readWord_wordAt (by omega), bind_ok]
  · rfl

theorem parseExtensions_stop (hsh : ¬ sh + 4 ≤ extEnd) :
    parseExtensions accepts consumed data extEnd sh = .ok none := by
  rw [parseExtensions, if_neg hsh]

/-- A loop over what is left that takes the same turns. -/
structure SameTurns (accepts : Nat → Nat → Bool) (consumed : Nat)
    (loop : Nat → Nat → Nat → Bytes → Option ServerKeyShare) : Prop where
  turn : ∀ {data : Bytes} {cipherSuite extEnd sh fuel : Nat}, extEnd ≤ data.length →
      sh + 4 ≤ extEnd →
    loop cipherSuite (fuel + 1) (extEnd - sh) (data.drop sh) =
      if wordAt data sh = 0x0033 then
        if data.length < sh + 4 + 4 then none
        else if accepts (wordAt data (sh + 4)) (wordAt data (sh + 6)) then
          if data.length < sh + 8 + wordAt data (sh + 6) then none
          else some ⟨(data.drop (sh + 8)).take (wordAt data (sh + 6)), cipherSuite⟩
        else loop cipherSuite fuel (extEnd - (sh + 4 + consumed + wordAt data (sh + 2)))
          (data.drop (sh + 4 + consumed + wordAt data (sh + 2)))
      else loop cipherSuite fuel (extEnd - (sh + 4 + wordAt data (sh + 2)))
        (data.drop (sh + 4 + wordAt data (sh + 2)))
  stop : ∀ {cipherSuite fuel left : Nat} {q : Bytes}, left < 4 → loop cipherSuite fuel left q = none

theorem SameTurns.reads {loop : Nat → Nat → Nat → Bytes → Option ServerKeyShare}
    (h : SameTurns accepts consumed loop)
    (cipherSuite : Nat) {fuel : Nat} (hend : extEnd ≤ data.length) (hfuel : extEnd - sh ≤ fuel) :
    ∃ found, parseExtensions accepts consumed data extEnd sh = .ok found ∧
      loop cipherSuite fuel (extEnd - sh) (data.drop sh) =
        found.map fun share => ⟨(data.drop share.1).take share.2, cipherSuite⟩ := by
  induction fuel generalizing sh with
  | zero => exact ⟨none, parseExtensions_stop (by omega), h.stop (by omega)⟩
  | succ fuel ih =>
    by_cases hsh : sh + 4 ≤ extEnd
    · rw [parseExtensions_turn hend hsh, h.turn hend hsh]
      split
      · split
        · exact ⟨none, rfl, rfl⟩
        · split
          · split
            · exact ⟨none, rfl, rfl⟩
            · exact ⟨some _, rfl, rfl⟩
          · exact ih (by omega)
      · exact ih (by omega)
    · exact ⟨none, parseExtensions_stop hsh, h.stop (by omega)⟩

end Loop

theorem sameTurns_parseExtensions : SameTurns x25519 4 PacketUtil.parseExtensions where
  turn := by
    intro data cipherSuite extEnd sh fuel hend hsh
    rw [drop_word (show sh + 2 ≤ data.length by omega),
      drop_word (show sh + 2 + 2 ≤ data.length by omega),
      PacketUtil.parseExtensions, if_pos (by omega)]
    dsimp only
    rw [be16_wordAt, be16_wordAt]
    by_cases htype : wordAt data sh = 0x0033
    · rw [if_pos htype, if_pos htype]
      by_cases hshort : data.length < sh + 4 + 4
      · rw [if_pos hshort]
        have hlen : (data.drop (sh + 2 + 2)).length < 4 := by
          rw [length_drop]
          omega
        rcases hq : data.drop (sh + 2 + 2) with _ | ⟨_, _ | ⟨_, _ | ⟨_, _ | ⟨_, q⟩⟩⟩⟩
        · rfl
        · rfl
        · rfl
        · rfl
        · rw [hq] at hlen
          simp only [length_cons] at hlen
          omega
      · rw [if_neg hshort, drop_word (show sh + 2 + 2 + 2 ≤ data.length by omega),
          drop_word (show sh + 2 + 2 + 2 + 2 ≤ data.length by omega)]
        dsimp only
        rw [be16_wordAt, be16_wordAt]
        by_cases haccepts : x25519 (wordAt data (sh + 4)) (wordAt data (sh + 6)) = true
        · have hshare : wordAt data (sh + 4) = 0x001d ∧ wordAt data (sh + 6) = 32 := by
            simpa [x25519] using haccepts
          rw [if_pos hshare, if_pos haccepts, hshare.2, length_drop]
          by_cases hkey : data.length < sh + 8 + 32
          · rw [if_pos hkey, if_neg (by omega)]
          · rw [if_neg hkey, if_pos (by omega)]
        · have hshare : ¬ (wordAt data (sh + 4) = 0x001d ∧ wordAt data (sh + 6) = 32) := by
            simpa [x25519] using haccepts
          rw [if_neg hshare, if_neg haccepts, drop_drop]
          exact congrArg₂ _ (by omega) rfl
    · rw [if_neg htype, if_neg htype, drop_drop]
      exact congrArg₂ _ (by omega) rfl
  stop := parseExtensions_end

-- ----
-- What the loops come by

/-- From `sh` the loop comes by the second place. -/
inductive Visits (accepts : Nat → Nat → Bool) (consumed : Nat) (data : Bytes) (extEnd : Nat) :
    Nat → Nat → Prop
  | here {sh : Nat} (hsh : sh + 4 ≤ extEnd) : Visits accepts consumed data extEnd sh sh
  | passed {sh s : Nat} (hsh : sh + 4 ≤ extEnd) (htype : wordAt data sh ≠ 0x0033)
      (hnext : Visits accepts consumed data extEnd (sh + 4 + wordAt data (sh + 2)) s) :
      Visits accepts consumed data extEnd sh s
  | behind {sh s : Nat} (hsh : sh + 4 ≤ extEnd) (htype : wordAt data sh = 0x0033)
      (hread : sh + 4 + 4 ≤ data.length)
      (hother : ¬ accepts (wordAt data (sh + 4)) (wordAt data (sh + 6)) = true)
      (hnext : Visits accepts consumed data extEnd (sh + 4 + consumed + wordAt data (sh + 2)) s) :
      Visits accepts consumed data extEnd sh s

/-- What is read as a key share of an accepted group, all of it in the array. -/
structure ReadsAsShare (accepts : Nat → Nat → Bool) (data : Bytes) (s : Nat) : Prop where
  keyShare : wordAt data s = 0x0033
  accepted : accepts (wordAt data (s + 4)) (wordAt data (s + 6)) = true
  inArray : s + 8 + wordAt data (s + 6) ≤ data.length

section Visits

variable {accepts : Nat → Nat → Bool} {consumed extEnd : Nat}

/-- The loop finds the first share that it comes by. -/
theorem parseExtensions_iff (hend : extEnd ≤ data.length) (sh : Nat) (share : Nat × Nat) :
    parseExtensions accepts consumed data extEnd sh = .ok (some share) ↔
      ∃ s, Visits accepts consumed data extEnd sh s ∧ ReadsAsShare accepts data s ∧
        share = (s + 8, wordAt data (s + 6)) := by
  obtain ⟨left, hleft⟩ : ∃ left, extEnd - sh = left := ⟨_, rfl⟩
  induction left using Nat.strong_induction_on generalizing sh with
  | h left ih =>
    by_cases hsh : sh + 4 ≤ extEnd
    · rw [parseExtensions_turn hend hsh]
      by_cases htype : wordAt data sh = 0x0033
      · rw [if_pos htype]
        by_cases hread : data.length < sh + 4 + 4
        · rw [if_pos hread]
          refine ⟨by simp, ?_⟩
          rintro ⟨s, hvisits, hshare, -⟩
          have hinside := hshare.inArray
          cases hvisits with
          | here => omega
          | passed _ hother => exact absurd htype hother
          | behind _ _ hlong => omega
        rw [if_neg hread]
        by_cases haccepts : accepts (wordAt data (sh + 4)) (wordAt data (sh + 6)) = true
        · rw [if_pos haccepts]
          by_cases hkey : data.length < sh + 8 + wordAt data (sh + 6)
          · rw [if_pos hkey]
            refine ⟨by simp, ?_⟩
            rintro ⟨s, hvisits, hshare, -⟩
            have hinside := hshare.inArray
            cases hvisits with
            | here => omega
            | passed _ hother => exact absurd htype hother
            | behind _ _ _ hother => exact absurd haccepts hother
          · rw [if_neg hkey]
            constructor
            · intro h
              exact ⟨sh, .here hsh, ⟨htype, haccepts, by omega⟩,
                (Option.some.inj (Except.ok.inj h)).symm⟩
            · rintro ⟨s, hvisits, -, rfl⟩
              cases hvisits with
              | here => rfl
              | passed _ hother => exact absurd htype hother
              | behind _ _ _ hother => exact absurd haccepts hother
        · rw [if_neg haccepts, ih _ (by omega) _ rfl]
          refine exists_congr fun s => and_congr_left ?_
          rintro ⟨hshare, -⟩
          constructor
          · exact .behind hsh htype (by omega) haccepts
          · intro hvisits
            cases hvisits with
            | here => exact absurd hshare.accepted haccepts
            | passed _ hother => exact absurd htype hother
            | behind _ _ _ _ hnext => exact hnext
      · rw [if_neg htype, ih _ (by omega) _ rfl]
        refine exists_congr fun s => and_congr_left ?_
        rintro ⟨hshare, -⟩
        constructor
        · exact .passed hsh htype
        · intro hvisits
          cases hvisits with
          | here => exact absurd hshare.keyShare htype
          | passed _ _ hnext => exact hnext
          | behind _ hother => exact absurd hother htype
    · rw [parseExtensions_stop hsh]
      refine ⟨by simp, ?_⟩
      rintro ⟨s, hvisits, -⟩
      cases hvisits <;> contradiction

end Visits

-- ----
-- The search and its result

section Search

variable {accepts : Nat → Nat → Bool} {consumed : Nat}
    {loop : Nat → Nat → Nat → Bytes → Option ServerKeyShare}

/-- The search finds what its loop comes by first. -/
theorem findShare_iff (data : Bytes) (hello : HelloBlock) (share : Nat × Nat) :
    findShare accepts consumed data = .ok (some (hello, share)) ↔
      parseRecords data 0 = .ok (some hello) ∧
      ∃ s, Visits accepts consumed data hello.extEnd hello.start s ∧
        ReadsAsShare accepts data s ∧ share = (s + 8, wordAt data (s + 6)) := by
  obtain ⟨hello', hparse, hblock, -⟩ := parseRecords_reads data 0
  rw [findShare, hparse, bind_ok]
  cases hello' with
  | none => exact ⟨nofun, nofun⟩
  | some hello' =>
    have hend := (hblock hello' rfl).extEnd_le
    dsimp only
    constructor
    · intro h
      obtain ⟨found, hfound, h⟩ := bind_eq_ok.1 h
      obtain ⟨share', rfl, heq⟩ := Option.map_eq_some_iff.1 (Except.ok.inj h)
      obtain ⟨rfl, rfl⟩ := Prod.mk.inj heq
      exact ⟨rfl, (parseExtensions_iff hend _ _).1 hfound⟩
    · rintro ⟨heq, h⟩
      obtain rfl := Option.some.inj (Except.ok.inj heq)
      rw [(parseExtensions_iff hend _ share).2 h]
      rfl

def shareOf (data : Bytes) (found : HelloBlock × Nat × Nat) : ServerKeyShare :=
  ⟨(data.drop found.2.1).take found.2.2, found.1.cipherSuite⟩

/-- The search reads nothing outside, what it finds can be copied, and the copy is what the loop
over what is left returns. -/
theorem findShare_reads (h : SameTurns accepts consumed loop) (data : Bytes) :
    ∃ found, findShare accepts consumed data = .ok found ∧
      PacketUtil.parseRecords loop data.length data = found.map (shareOf data) ∧
      ∀ share, found = some share →
        readBytes data share.2.1 share.2.2 = .ok (shareOf data share).keyShare ∧
        share.1.Inside data := by
  obtain ⟨hello, hparse, hblock, hloop⟩ := parseRecords_reads data 0
  have hwire : PacketUtil.parseRecords loop data.length data = _ :=
    hloop loop data.length (by omega)
  rw [findShare, hparse, bind_ok, hwire]
  cases hello with
  | none => exact ⟨none, rfl, rfl, nofun⟩
  | some hello =>
    have hinside := hblock hello rfl
    obtain ⟨found, hfound, hexts⟩ := h.reads hello.cipherSuite hinside.extEnd_le (Nat.le_refl _)
    refine ⟨found.map fun share => (hello, share), by dsimp only; rw [hfound]; rfl, ?_, ?_⟩
    · dsimp only [Option.bind_some]
      rw [hexts, Option.map_map]
      rfl
    · intro share hshare
      obtain ⟨_, rfl, rfl⟩ := Option.map_eq_some_iff.1 hshare
      obtain ⟨s, -, hreads, rfl⟩ := (parseExtensions_iff hinside.extEnd_le _ _).1 hfound
      exact ⟨readBytes_eq hreads.inArray, hinside⟩

end Search

def suiteBytes (cipherSuite : Nat) : Bytes :=
  [UInt8.ofNat (cipherSuite / 256), UInt8.ofNat cipherSuite]

/-- **`PacketUtil.parseServerHello`** reads nothing outside, and is the function of `Wire.lean`. -/
theorem parseServerHello_reads (data : Bytes) :
    parseServerHello data = .ok ((PacketUtil.parseServerHello data).map fun share =>
      share.keyShare ++ suiteBytes share.cipherSuite) := by
  obtain ⟨found, hfound, hwire, hcopy⟩ := findShare_reads sameTurns_parseExtensions data
  have hlist : PacketUtil.parseServerHello data = found.map (shareOf data) := hwire
  rw [parseServerHello, findX25519, hfound, bind_ok, hlist]
  cases found with
  | none => rfl
  | some share =>
    obtain ⟨hello, sh, keyLen⟩ := share
    dsimp only [Option.map_some]
    rw [(hcopy _ rfl).1, bind_ok]
    rfl

end PacketUtil.Indexed

-- ----
-- The extensions of a message

/-- Three bytes, most significant first. -/
def lengthAt (data : Bytes) (i : Nat) : Nat :=
  be24 (data.getD i 0) (data.getD (i + 1) 0) (data.getD (i + 2) 0)

/-- From `sh` on, an extension begins at the second place: every extension is followed by
the next one. -/
inductive ExtensionAt (data : Bytes) (extEnd : Nat) : Nat → Nat → Prop
  | here {sh : Nat} (hsh : sh + 4 ≤ extEnd) : ExtensionAt data extEnd sh sh
  | next {sh s : Nat} (hsh : sh + 4 ≤ extEnd)
      (h : ExtensionAt data extEnd (sh + 4 + wordAt data (sh + 2)) s) :
      ExtensionAt data extEnd sh s

/-- A key_share extension of the ServerHello, with all of its entry in it, in its message
and in its record. -/
structure KeyShareAt (data : Bytes) (hello : HelloBlock) (s : Nat) : Prop where
  extension : ExtensionAt data hello.extEnd hello.start s
  keyShare : wordAt data s = 0x0033
  entry : 4 + wordAt data (s + 6) ≤ wordAt data (s + 2)
  inBlock : s + 4 + wordAt data (s + 2) ≤ hello.extEnd
  inMessage : hello.extEnd ≤ hello.message + 4 + lengthAt data (hello.message + 1)
  inRecord : hello.message + 4 + lengthAt data (hello.message + 1) ≤ hello.message + hello.recordLen

-- ----
-- In a well-formed ServerHello

namespace Hello

def block (h : Hello) (recordLen : Nat) : HelloBlock where
  message := 5
  recordLen := recordLen
  cipherSuite := h.cipherSuite
  start := 49 + h.sessionId.length
  extEnd := 49 + h.sessionId.length + h.extensionsBytes.length

end Hello

theorem getD_append_cons (front behind : Bytes) (b : UInt8) (h : i = front.length) :
    (front ++ b :: behind).getD i 0 = b := by
  subst h
  rw [getD_append_right _ _ _ _ (Nat.le_refl _), Nat.sub_self]
  rfl

theorem parseRecords_block {r : Record} {h : Hello} {fragment : Bytes} (hr : r.WellFormed)
    (htype : r.contentType = 0x16) (hpayload : r.payload = h.message.bytes ++ fragment)
    (zs : Bytes) :
    PacketUtil.Indexed.parseRecords (r.bytes ++ zs) 0 = .ok (some (h.block r.payload.length)) ∧
      (r.bytes ++ zs).drop (49 + h.sessionId.length) = h.extensionsBytes ++ (fragment ++ zs) := by
  obtain ⟨v1, v2, l1, l2, hheader, hlen⟩ := hr
  obtain ⟨data, hdata⟩ : ∃ data, r.bytes ++ zs = data := ⟨_, rfl⟩
  obtain ⟨front, hfront⟩ :
    ∃ front, r.header ++ (h.message.header ++ ([h.v1, h.v2] ++ h.random)) = front :=
    ⟨_, rfl⟩
  let exts := h.extensionsBytes ++ (fragment ++ zs)
  let tail := h.c1 :: h.c2 :: 0x00 :: UInt8.ofNat (h.extensionsBytes.length / 256) ::
    UInt8.ofNat h.extensionsBytes.length :: exts
  -- the fixed part, the session id, and the rest
  have hsplit : data = front ++ UInt8.ofNat h.sessionId.length :: (h.sessionId ++ tail) := by
    rw [← hdata, ← hfront, Record.bytes, hpayload]
    simp [HandshakeMessage.bytes, Hello.message, Hello.body, tail, exts]
  have hfrontLen : front.length = 43 := by
    rw [← hfront, hheader]
    simp [Hello.message, h.random_length]
  have hlength : data.length = 49 + h.sessionId.length + exts.length := by
    rw [hsplit]
    simp only [length_append, length_cons, hfrontLen, tail]
    omega
  have hexts : exts.length = h.extensionsBytes.length + (fragment ++ zs).length :=
    length_append
  have hrecord : 5 + r.payload.length ≤ data.length := by
    rw [← hdata, Record.bytes, hheader]
    simp only [length_append, length_cons, length_nil]
    omega
  have hfirst : data.getD 0 0 = 0x16 := by
    rw [← hdata, Record.bytes, hheader, htype]
    rfl
  have hrecordLen : wordAt data 3 = r.payload.length := by
    rw [← hlen, ← hdata, Record.bytes, hheader]
    rfl
  have hhsType : data.getD 5 0 = 0x02 := by
    rw [← hdata, Record.bytes, hheader, hpayload]
    rfl
  have hsession : data.getD 43 0 = UInt8.ofNat h.sessionId.length := by
    rw [hsplit]
    exact getD_append_cons _ _ _ hfrontLen.symm
  have hsessionLen : (UInt8.ofNat h.sessionId.length).toNat = h.sessionId.length := by
    rw [UInt8.toNat_ofNat']
    exact Nat.mod_eq_of_lt h.sessionId_length
  have hbehind : data = (front ++ [UInt8.ofNat h.sessionId.length] ++ h.sessionId) ++ tail := by
    rw [hsplit]
    simp
  have hbehindLen : (front ++ [UInt8.ofNat h.sessionId.length] ++ h.sessionId).length =
      44 + h.sessionId.length := by
    simp only [length_append, length_cons, length_nil, hfrontLen]
  have hsuite : wordAt data (44 + h.sessionId.length) = h.cipherSuite := by
    rw [hbehind]
    exact wordAt_append _ _ _ _ hbehindLen.symm
  have hextLen : wordAt data (44 + h.sessionId.length + 3) = h.extensionsBytes.length := by
    have htail : data = (front ++ [UInt8.ofNat h.sessionId.length] ++ h.sessionId ++
        [h.c1, h.c2, 0x00]) ++
        UInt8.ofNat (h.extensionsBytes.length / 256) :: UInt8.ofNat h.extensionsBytes.length ::
        exts := by
      rw [hbehind]
      simp [tail]
    rw [htail, wordAt_append _ _ _ _ (by rw [length_append, hbehindLen]; rfl)]
    exact be16_ofNat h.extensions_length
  rw [hdata]
  refine ⟨?_, ?_⟩
  · rw [PacketUtil.Indexed.parseRecords, if_pos (by omega), readByte_getD (by omega), bind_ok,
      hfirst,
      if_neg (by decide)]
    dsimp only
    rw [readWord_wordAt (by omega), bind_ok, hrecordLen, if_neg (by omega),
      readByte_getD (by omega), bind_ok,
      hhsType, if_neg (by decide), PacketUtil.Indexed.parseHello]
    dsimp only
    rw [if_neg (by omega), readByte_getD (by omega), bind_ok, hsession, hsessionLen,
      show 0 + 5 + 1 + 3 + 2 + 32 + 1 + h.sessionId.length = 44 + h.sessionId.length by omega,
      if_neg (by omega), readWord_wordAt (by omega), bind_ok, hsuite, if_neg (by omega),
      readWord_wordAt (by omega), bind_ok, hextLen, if_neg (by omega),
      show 44 + h.sessionId.length + 3 + 2 = 49 + h.sessionId.length by omega]
    rfl
  · rw [hbehind, show 49 + h.sessionId.length = 44 + h.sessionId.length + 5 by omega,
      ← drop_drop,
      drop_left' hbehindLen]
    rfl

section Walk

variable {accepts : Nat → Nat → Bool} {consumed extEnd p s : Nat} {rest : Bytes}

theorem extension_words {e : Extension} (hdrop : data.drop p = e.bytes ++ rest) :
    wordAt data p = be16 e.t1 e.t2 ∧ wordAt data (p + 2) = e.data.length ∧
      data.drop (p + 4 + e.data.length) = rest := by
  refine ⟨?_, ?_, ?_⟩
  · have htype := wordAt_drop data p 0
    rw [hdrop] at htype
    exact htype.symm
  · rw [← wordAt_drop, hdrop]
    exact be16_ofNat e.length_lt
  · rw [Nat.add_assoc, ← drop_drop, hdrop, drop_left' e.length_bytes]

/-- A loop comes over the extensions in front of the key share. -/
theorem visits_before {before : List Extension} (hbefore : ∀ e ∈ before, ¬ e.IsKeyShare)
    (hdrop : data.drop p = before.flatMap Extension.bytes ++ rest)
    (hend : p + (before.flatMap Extension.bytes).length + 4 ≤ extEnd) :
    PacketUtil.Indexed.Visits accepts consumed data extEnd p
      (p + (before.flatMap Extension.bytes).length) := by
  induction before generalizing p with
  | nil => exact .here hend
  | cons e before ih =>
    rw [flatMap_cons, append_assoc] at hdrop
    rw [flatMap_cons, length_append, e.length_bytes] at hend ⊢
    obtain ⟨htype, hlen, hnext⟩ := extension_words hdrop
    refine .passed (by omega) (htype ▸ hbefore e mem_cons_self) ?_
    rw [hlen]
    have hvisits := ih (fun e' he' => hbefore e' (mem_cons_of_mem _ he')) hnext (by omega)
    have hplace : p + 4 + e.data.length + (before.flatMap Extension.bytes).length =
        p + (4 + e.data.length + (before.flatMap Extension.bytes).length) := by omega
    rwa [hplace] at hvisits

/-- Where every key share is refused a loop that consumes nothing more walks from extension
to extension. -/
theorem extensionAt_of_visits (h : PacketUtil.Indexed.Visits accepts 0 data extEnd p s) :
    ExtensionAt data extEnd p s := by
  induction h with
  | here hsh => exact .here hsh
  | passed hsh _ _ ih => exact .next hsh ih
  | behind hsh _ _ _ _ ih => exact .next hsh ih

theorem no_keyShare {exts : List Extension} (hexts : ∀ e ∈ exts, ¬ e.IsKeyShare)
    (hdrop : data.drop p = exts.flatMap Extension.bytes ++ rest)
    (hend : extEnd = p + (exts.flatMap Extension.bytes).length) (h : ExtensionAt data extEnd p s) :
    wordAt data s ≠ 0x0033 := by
  induction exts generalizing p with
  | nil =>
    rw [flatMap_nil, length_nil] at hend
    cases h <;> omega
  | cons e exts ih =>
    rw [flatMap_cons, append_assoc] at hdrop
    rw [flatMap_cons, length_append, e.length_bytes] at hend
    obtain ⟨htype, hlen, hnext⟩ := extension_words hdrop
    cases h with
    | here => exact htype ▸ hexts e mem_cons_self
    | next _ h =>
      rw [hlen] at h
      exact ih (fun e' he' => hexts e' (mem_cons_of_mem _ he')) hnext (by omega) h

theorem keyShare_place {before behind : List Extension} {share : Extension}
    (hbefore : ∀ e ∈ before, ¬ e.IsKeyShare) (hbehind : ∀ e ∈ behind, ¬ e.IsKeyShare)
    (hdrop : data.drop p = (before ++ share :: behind).flatMap Extension.bytes ++ rest)
    (hend : extEnd = p + ((before ++ share :: behind).flatMap Extension.bytes).length)
    (h : ExtensionAt data extEnd p s) (htype : wordAt data s = 0x0033) :
    s = p + (before.flatMap Extension.bytes).length := by
  induction before generalizing p with
  | nil =>
    rw [nil_append, flatMap_cons, append_assoc] at hdrop
    rw [nil_append, flatMap_cons, length_append, share.length_bytes] at hend
    obtain ⟨-, hlen, hnext⟩ := extension_words hdrop
    cases h with
    | here => rfl
    | next _ h =>
      rw [hlen] at h
      exact absurd htype (no_keyShare hbehind hnext (by omega) h)
  | cons e before ih =>
    rw [cons_append, flatMap_cons, append_assoc] at hdrop
    rw [cons_append, flatMap_cons, length_append, e.length_bytes] at hend
    obtain ⟨hfirst, hlen, hnext⟩ := extension_words hdrop
    cases h with
    | here => exact absurd (hfirst.symm.trans htype) (hbefore e mem_cons_self)
    | next _ h =>
      rw [hlen] at h
      have hplace := ih (fun e' he' => hbefore e' (mem_cons_of_mem _ he')) hnext (by omega) h
      rw [flatMap_cons, length_append, e.length_bytes]
      omega

end Walk

/-- An array that begins with a ServerHello with one key share. -/
structure HelloArray where
  record : Record
  hello : Hello
  fragment : Bytes
  zs : Bytes
  before : List Extension
  behind : List Extension
  g1 : UInt8
  g2 : UInt8
  key : Bytes
  key_length : key.length < 65532
  record_wellFormed : record.WellFormed
  record_type : record.contentType = 0x16
  payload_eq : record.payload = hello.message.bytes ++ fragment
  extensions_eq : hello.extensions = before ++ keyShareExtension g1 g2 key key_length :: behind
  before_others : ∀ e ∈ before, ¬ e.IsKeyShare
  behind_others : ∀ e ∈ behind, ¬ e.IsKeyShare

namespace HelloArray

variable (a : HelloArray)

def bytes : Bytes := a.record.bytes ++ a.zs

def group : Nat := be16 a.g1 a.g2

def share : Extension := keyShareExtension a.g1 a.g2 a.key a.key_length

def block : HelloBlock := a.hello.block a.record.payload.length

def place : Nat := a.block.start + (a.before.flatMap Extension.bytes).length

theorem parseRecords_bytes : PacketUtil.Indexed.parseRecords a.bytes 0 = .ok (some a.block) :=
  (parseRecords_block a.record_wellFormed a.record_type a.payload_eq a.zs).1

theorem drop_start : a.bytes.drop a.block.start =
    (a.before ++ a.share :: a.behind).flatMap Extension.bytes ++ (a.fragment ++ a.zs) := by
  have hdrop := (parseRecords_block a.record_wellFormed a.record_type a.payload_eq a.zs).2
  rw [Hello.extensionsBytes, a.extensions_eq] at hdrop
  exact hdrop

theorem extEnd_eq : a.block.extEnd =
    a.block.start + ((a.before ++ a.share :: a.behind).flatMap Extension.bytes).length := by
  show 49 + a.hello.sessionId.length + a.hello.extensionsBytes.length = _
  rw [Hello.extensionsBytes, a.extensions_eq]
  rfl

theorem drop_place : a.bytes.drop a.place =
    a.share.bytes ++ (a.behind.flatMap Extension.bytes ++ (a.fragment ++ a.zs)) := by
  rw [place, ← drop_drop, drop_start, flatMap_append, append_assoc, drop_left,
    flatMap_cons, append_assoc]

theorem length_share : a.share.data.length = 4 + a.key.length := by
  show ([a.g1, a.g2, _, _] ++ a.key).length = _
  rw [length_append]
  rfl

theorem place_le_extEnd : a.place + 8 + a.key.length ≤ a.block.extEnd := by
  rw [extEnd_eq, place, flatMap_append, flatMap_cons, length_append,
    length_append,
    Extension.length_bytes, length_share]
  omega

theorem share_words : wordAt a.bytes a.place = 0x0033 ∧
    wordAt a.bytes (a.place + 2) = 4 + a.key.length ∧
    wordAt a.bytes (a.place + 4) = a.group ∧ wordAt a.bytes (a.place + 6) = a.key.length ∧
    (a.bytes.drop (a.place + 8)).take a.key.length = a.key ∧
    a.place + 8 + a.key.length ≤ a.bytes.length := by
  obtain ⟨htype, hlen, -⟩ := extension_words a.drop_place
  have hbytes : a.bytes.drop a.place = [0x00, 0x33, UInt8.ofNat (a.share.data.length / 256),
      UInt8.ofNat a.share.data.length] ++ (a.g1 :: a.g2 :: UInt8.ofNat (a.key.length / 256) ::
        UInt8.ofNat a.key.length ::
        (a.key ++ (a.behind.flatMap Extension.bytes ++ (a.fragment ++ a.zs)))) :=
    a.drop_place
  have hkeyShare : be16 a.share.t1 a.share.t2 = 0x0033 := show be16 0x00 0x33 = 0x0033 by decide
  refine ⟨htype.trans hkeyShare, hlen.trans a.length_share, ?_, ?_, ?_, ?_⟩
  · rw [← wordAt_drop, hbytes]
    rfl
  · rw [← wordAt_drop, hbytes]
    have hlt := a.key_length
    exact be16_ofNat (show a.key.length < 65536 by omega)
  · rw [← drop_drop, hbytes]
    simp only [cons_append, nil_append, drop_succ_cons, drop_zero,
      take_left]
  · have hlength := congrArg List.length hbytes
    rw [length_drop, length_append] at hlength
    simp only [length_cons, length_nil, length_append] at hlength
    omega

/-- Every loop comes by the key share. -/
theorem visits_place (accepts : Nat → Nat → Bool) (consumed : Nat) :
    PacketUtil.Indexed.Visits accepts consumed a.bytes a.block.extEnd a.block.start a.place := by
  have hplace := a.place_le_extEnd
  have hdrop := a.drop_start
  rw [flatMap_append, append_assoc] at hdrop
  refine visits_before a.before_others hdrop ?_
  rw [place] at hplace
  omega

theorem place_of_keyShareAt {s : Nat} (h : KeyShareAt a.bytes a.block s) : s = a.place :=
  keyShare_place a.before_others a.behind_others a.drop_start a.extEnd_eq h.extension h.keyShare

theorem lengthAt_message : lengthAt a.bytes 6 = a.hello.body.length := by
  obtain ⟨v1, v2, l1, l2, hheader, -⟩ := a.record_wellFormed
  obtain ⟨h1, h2, h3, hmessage, hlen⟩ := a.hello.message_wellFormed
  rw [bytes, Record.bytes, hheader, a.payload_eq, HandshakeMessage.bytes, hmessage]
  exact hlen

theorem keyShareAt_place : KeyShareAt a.bytes a.block a.place := by
  obtain ⟨htype, hextLen, -, hlen, -, -⟩ := a.share_words
  have hplace := a.place_le_extEnd
  have hbody := a.hello.length_body
  have hend : a.block.extEnd = 49 + a.hello.sessionId.length + a.hello.extensionsBytes.length := rfl
  have hmessage : lengthAt a.bytes (a.block.message + 1) = a.hello.body.length := a.lengthAt_message
  have hstart : a.block.message = 5 := rfl
  have hrecord : a.block.recordLen = 4 + a.hello.body.length + a.fragment.length := by
    show a.record.payload.length = _
    rw [a.payload_eq, length_append, HandshakeMessage.bytes, length_append]
    rfl
  refine ⟨extensionAt_of_visits (a.visits_place (fun _ _ => false) 0), htype, ?_, ?_, ?_, ?_⟩
  · rw [hlen, hextLen]
  · omega
  · rw [hmessage]
    omega
  · rw [hmessage]
    omega

section Search

variable {accepts : Nat → Nat → Bool} {consumed : Nat}
    {loop : Nat → Nat → Nat → Bytes → Option ServerKeyShare}

theorem findShare_accepted (haccepts : accepts a.group a.key.length = true) :
    PacketUtil.Indexed.findShare accepts consumed a.bytes =
      .ok (some (a.block, a.place + 8, a.key.length)) := by
  obtain ⟨htype, -, hgroup, hlen, -, hinside⟩ := a.share_words
  rw [PacketUtil.Indexed.findShare_iff]
  refine ⟨a.parseRecords_bytes, a.place, a.visits_place _ _, ⟨htype, ?_, ?_⟩, ?_⟩
  · rw [hgroup, hlen]
    exact haccepts
  · rw [hlen]
    exact hinside
  · rw [hlen]

/-- Where the share is not accepted, nothing is found, if what is found is a key share. -/
theorem findShare_refused (h : PacketUtil.Indexed.SameTurns accepts consumed loop)
    (haccepts : ¬ accepts a.group a.key.length = true)
    (htaken : ∀ share, PacketUtil.Indexed.findShare accepts consumed a.bytes =
        .ok (some (a.block, share)) →
      ∃ s, KeyShareAt a.bytes a.block s ∧ share.1 = s + 8) :
    PacketUtil.Indexed.findShare accepts consumed a.bytes = .ok none := by
  obtain ⟨-, -, hgroup, hlen, -, -⟩ := a.share_words
  obtain ⟨found, hfound, -⟩ := PacketUtil.Indexed.findShare_reads h a.bytes
  rw [hfound]
  cases found with
  | none => rfl
  | some found =>
    obtain ⟨hello, share⟩ := found
    obtain ⟨hparse, s, -, hshare, hs⟩ := (PacketUtil.Indexed.findShare_iff _ _ _).1 hfound
    rw [a.parseRecords_bytes] at hparse
    obtain rfl := Option.some.inj (Except.ok.inj hparse)
    obtain ⟨s', hkeyShare, hs'⟩ := htaken share hfound
    have hplace := a.place_of_keyShareAt hkeyShare
    have heq : s = a.place := by
      rw [hs] at hs'
      dsimp only at hs'
      omega
    have haccepted := hshare.accepted
    rw [heq, hgroup, hlen] at haccepted
    exact absurd haccepted haccepts

end Search

end HelloArray

end Anywhere.Tls
