import Anywhere.Lib.Utf8
import Anywhere.Naive.Huffman
import Anywhere.Naive.Session

/-!
# Anywhere — `HpackDecoder`

The decoder of a session keeps every entry a header block has ever inserted: it takes no notice of
the size of its table. What a peer's encoder may refer to is at the front of it.

* `Mirrors` — the table of RFC 7541 is the front of the decoder's.
* `decode_simulates` — every block of every sequence.
-/

namespace Anywhere.Naive

open Lib List

-- ----
-- `HpackDecoder`

variable {fields : List Hpack.Field} {m n offset value : Nat} {rest : Bytes} {t' : Hpack.Table}

namespace HpackDecoder

def staticTable : Headers :=
  List.map (fun p => (p.1.toList, p.2.toList))
    [(":authority", ""), (":method", "GET"), (":method", "POST"), (":path", "/"),
    (":path", "/index.html"), (":scheme", "http"), (":scheme", "https"), (":status", "200"),
    (":status", "204"), (":status", "206"), (":status", "304"), (":status", "400"),
    (":status", "404"), (":status", "500"), ("accept-charset", ""),
    ("accept-encoding", "gzip, deflate"), ("accept-language", ""), ("accept-ranges", ""),
    ("accept", ""), ("access-control-allow-origin", ""), ("age", ""), ("allow", ""),
    ("authorization", ""), ("cache-control", ""), ("content-disposition", ""),
    ("content-encoding", ""), ("content-language", ""), ("content-length", ""),
    ("content-location", ""), ("content-range", ""), ("content-type", ""), ("cookie", ""),
    ("date", ""), ("etag", ""), ("expect", ""), ("expires", ""), ("from", ""),
    ("host", ""), ("if-match", ""), ("if-modified-since", ""), ("if-none-match", ""),
    ("if-range", ""), ("if-unmodified-since", ""), ("last-modified", ""), ("link", ""),
    ("location", ""), ("max-forwards", ""), ("proxy-authenticate", ""), ("proxy-authorization", ""),
    ("range", ""), ("referer", ""), ("refresh", ""), ("retry-after", ""), ("server", ""),
    ("set-cookie", ""), ("strict-transport-security", ""), ("transfer-encoding", ""),
    ("user-agent", ""), ("vary", ""), ("via", ""), ("www-authenticate", "")]

/-- `data` behind `offset`. -/
structure Cursor where
  offset : Nat
  rest : Bytes

/-- How a call ends without a result. -/
inductive Stop where
  | null
  /-- `copyOfRange` with an end before its start. -/
  | illegalArgument
  deriving DecidableEq

/-- The loop of `decodeInteger`. -/
def decodeOctets : Int → Nat → Nat → Bytes → Option (Int × Cursor)
  | _, _, _, [] => none
  | value, m, offset, b :: rest =>
    let value := int32 (value + int32 (b.toNat % 128 * 2 ^ (m % 32) : Nat))
    if b.toNat < 128 then some (value, ⟨offset + 1, rest⟩)
    else decodeOctets value (m + 7) (offset + 1) rest

/-- `decodeInteger`; it returns null only at the end of `data`. -/
def decodeInteger (prefixBits : Nat) (c : Cursor) : Option (Int × Cursor) :=
  match c.rest with
  | [] => none
  | b :: rest =>
    let maxPrefix := 2 ^ prefixBits - 1
    let value := b.toNat % 2 ^ prefixBits
    if value < maxPrefix then some (value, ⟨c.offset + 1, rest⟩)
    else decodeOctets value 0 (c.offset + 1) rest

def decodeString (c : Cursor) : Except Stop (Text × Cursor) :=
  match c.rest with
  | [] => .error .null
  | b :: _ =>
    match decodeInteger 7 c with
    | none => .error .null
    | some (length, c) =>
      if (c.offset + c.rest.length : Int) < int32 (c.offset + length) then .error .null
      else if int32 (c.offset + length) < c.offset then .error .illegalArgument
      else
        let stringData := c.rest.take (int32 (c.offset + length) - c.offset).toNat
        let c : Cursor := ⟨c.offset + stringData.length, c.rest.drop stringData.length⟩
        if 128 ≤ b.toNat then
          match HpackHuffman.decode stringData with
          | none => .error .null
          | some decoded => .ok (decodeUtf8 decoded, c)
        else .ok (decodeUtf8 stringData, c)

def lookupEntry (dynamicTable : Headers) (index : Int) : Option (Text × Text) :=
  if index < 1 then none
  else if index ≤ staticTable.length then staticTable[(index - 1).toNat]?
  else dynamicTable[(index - staticTable.length - 1).toNat]?

def decodeLiteral (dynamicTable : Headers) (prefixBits : Nat) (c : Cursor) :
    Except Stop ((Text × Text) × Cursor) :=
  match decodeInteger prefixBits c with
  | none => .error .null
  | some (nameIndex, c) =>
    let name : Except Stop (Text × Cursor) :=
      if nameIndex = 0 then decodeString c
      else
        match lookupEntry dynamicTable nameIndex with
        | none => .error .null
        | some entry => .ok (entry.1, c)
    match name with
    | .error stop => .error stop
    | .ok (name, c) =>
      match decodeString c with
      | .error stop => .error stop
      | .ok (value, c) => .ok ((name, value), c)

/-- One turn of the loop of `decode`: the table, the headers it adds and where it stands. -/
def decodeTurn (dynamicTable : Headers) (c : Cursor) (byte : UInt8) :
    Headers × Except Stop (Headers × Cursor) :=
  if 128 ≤ byte.toNat then
    match decodeInteger 7 c with
    | none => (dynamicTable, .error .null)
    | some (index, c) =>
      match lookupEntry dynamicTable index with
      | none => (dynamicTable, .error .null)
      | some entry => (dynamicTable, .ok ([entry], c))
  else if 64 ≤ byte.toNat then
    match decodeLiteral dynamicTable 6 c with
    | .error stop => (dynamicTable, .error stop)
    | .ok (header, c) => (header :: dynamicTable, .ok ([header], c))
  else if byte.toNat < 32 then
    match decodeLiteral dynamicTable 4 c with
    | .error stop => (dynamicTable, .error stop)
    | .ok (header, c) => (dynamicTable, .ok ([header], c))
  else
    match decodeInteger 5 c with
    | none => (dynamicTable, .ok ([], ⟨c.offset + c.rest.length, []⟩))
    | some (_, c) => (dynamicTable, .ok ([], c))

/-- The loop of `decode`; every turn takes a byte at least, so the length is fuel enough. -/
def decodeLoop : Nat → Headers → Cursor → Headers → Headers × Except Stop Headers
  | 0, dynamicTable, _, headers => (dynamicTable, .ok headers)
  | fuel + 1, dynamicTable, c, headers =>
    match c.rest with
    | [] => (dynamicTable, .ok headers)
    | byte :: _ =>
      match decodeTurn dynamicTable c byte with
      | (dynamicTable, .error stop) => (dynamicTable, .error stop)
      | (dynamicTable, .ok (added, c)) => decodeLoop fuel dynamicTable c (headers ++ added)

def decode (dynamicTable : Headers) (data : Bytes) : Headers × Except Stop Headers :=
  decodeLoop data.length dynamicTable ⟨0, data⟩ []

-- ----
-- The fuel

section Fuel

variable {c c' : Cursor} {dynamicTable headers : Headers}

theorem takes_decodeOctets {value v : Int} {m offset : Nat} {rest : Bytes}
    (h : decodeOctets value m offset rest = some (v, c')) : c'.rest.length < rest.length := by
  induction rest generalizing value m offset with
  | nil => cases h
  | cons b rest ih => grind [decodeOctets]

theorem takes_decodeInteger {bits : Nat} {v : Int} (h : decodeInteger bits c = some (v, c')) :
    c'.rest.length < c.rest.length := by
  grind [decodeInteger, → takes_decodeOctets]

theorem takes_decodeString {text : Text} (h : decodeString c = .ok (text, c')) :
    c'.rest.length < c.rest.length := by
  grind [decodeString, → takes_decodeInteger]

theorem takes_decodeLiteral {bits : Nat} {header : Text × Text}
    (h : decodeLiteral dynamicTable bits c = .ok (header, c')) :
    c'.rest.length < c.rest.length := by
  grind [decodeLiteral, → takes_decodeInteger, → takes_decodeString]

/-- Every turn takes an octet. -/
theorem takes_decodeTurn {table added : Headers} {byte : UInt8} (hne : c.rest ≠ [])
    (h : decodeTurn dynamicTable c byte = (table, .ok (added, c'))) :
    c'.rest.length < c.rest.length := by
  grind [decodeTurn, → takes_decodeInteger, → takes_decodeLiteral, length_pos_iff]

/-- So the fuel never runs out. -/
theorem decodeLoop_fuel {fuel : Nat} (hfuel : c.rest.length ≤ fuel) :
    decodeLoop (fuel + 1) dynamicTable c headers = decodeLoop fuel dynamicTable c headers := by
  induction fuel generalizing c dynamicTable headers with
  | zero => grind [decodeLoop]
  | succ fuel ih => grind [decodeLoop, → takes_decodeTurn]

end Fuel

-- ----
-- Integers

theorem decodeOctets_last (hm : m < 32) (hn : n < 128)
    (hsize : value + n * 2 ^ m < 0x80000000) :
    decodeOctets value m offset (UInt8.ofNat n :: rest) =
      some (((value + n * 2 ^ m : Nat) : Int), ⟨offset + 1, rest⟩) := by
  have hoctet : (UInt8.ofNat n).toNat = n := by
    rw [UInt8.toNat_ofNat']
    omega
  rw [decodeOctets, hoctet, if_pos hn, Nat.mod_eq_of_lt hn, Nat.mod_eq_of_lt hm,
    int32_of_nat (by omega), ← Int.natCast_add, int32_of_nat hsize]

theorem decodeOctets_more (hm : m < 32) (hn : n < 128)
    (hsize : value + n * 2 ^ m < 0x80000000) :
    decodeOctets value m offset (UInt8.ofNat (n + 128) :: rest) =
      decodeOctets ((value + n * 2 ^ m : Nat) : Int) (m + 7) (offset + 1) rest := by
  have hoctet : (UInt8.ofNat (n + 128)).toNat = n + 128 := by
    rw [UInt8.toNat_ofNat']
    omega
  rw [decodeOctets, hoctet, if_neg (by omega), Nat.add_mod_right, Nat.mod_eq_of_lt hn,
    Nat.mod_eq_of_lt hm, int32_of_nat (by omega), ← Int.natCast_add, int32_of_nat hsize]

theorem pow_lt_of_mul_lt {a : Nat} (ha : 0 < a) (h : a * 2 ^ m < 0x80000000) : m < 31 := by
  by_contra hm
  have hpow : 2 ^ 31 ≤ 2 ^ m := Nat.pow_le_pow_right (by decide) (by omega)
  have : 2 ^ m ≤ a * 2 ^ m := Nat.le_mul_of_pos_left _ ha
  omega

/-- The continuation octets of an integer. -/
theorem decodeOctets_continuation (hm : m < 32)
    (hsize : value + n * 2 ^ m < 0x80000000) (offset : Nat) (rest : Bytes) :
    decodeOctets value m offset (Hpack.continuation n ++ rest) =
      some (((value + n * 2 ^ m : Nat) : Int), ⟨offset + (Hpack.continuation n).length, rest⟩) := by
  induction n using Nat.strongRecOn generalizing value m offset with
  | ind n ih =>
    rw [Hpack.continuation]
    split
    · rename_i hlast
      exact decodeOctets_last hm hlast hsize
    · rename_i hmore
      -- what this octet adds, and what is left for those behind it
      have hsplit : n % 128 * 2 ^ m + n / 128 * 2 ^ (m + 7) = n * 2 ^ m := by
        have hseven : 2 ^ (m + 7) = 128 * 2 ^ m := by rw [Nat.pow_add, Nat.mul_comm]
        rw [hseven, ← Nat.mul_assoc, ← Nat.add_mul]
        congr 1
        omega
      have hshift : m + 7 < 31 := pow_lt_of_mul_lt (a := n / 128) (by omega) (by omega)
      rw [cons_append, decodeOctets_more hm (Nat.mod_lt _ (by decide)) (by omega),
        ih (n / 128) (by omega) (by omega) (by omega), length_cons]
      have hvalue : value + n % 128 * 2 ^ m + n / 128 * 2 ^ (m + 7) = value + n * 2 ^ m := by omega
      have hoffset : offset + 1 + (Hpack.continuation (n / 128)).length =
          offset + ((Hpack.continuation (n / 128)).length + 1) := by omega
      rw [hvalue, hoffset]

theorem decodeInteger_cons (bits offset : Nat) (b : UInt8) (rest : Bytes) :
    decodeInteger bits ⟨offset, b :: rest⟩ =
      if b.toNat % 2 ^ bits < 2 ^ bits - 1 then some (((b.toNat % 2 ^ bits : Nat) : Int),
        ⟨offset + 1, rest⟩)
      else decodeOctets (b.toNat % 2 ^ bits : Nat) 0 (offset + 1) rest := rfl

theorem decodeInteger_encode {bits high : Nat} (hhigh : high % 2 ^ bits = 0)
    (hbits : high + 2 ^ bits ≤ 256) (hn : n < 0x80000000) (offset : Nat) (rest : Bytes) :
    decodeInteger bits ⟨offset, Hpack.encodeInteger bits high n ++ rest⟩ =
      some ((n : Int), ⟨offset + (Hpack.encodeInteger bits high n).length, rest⟩) := by
  have hpos : 0 < 2 ^ bits := Nat.two_pow_pos bits
  have hoctet : ∀ k < 2 ^ bits, (UInt8.ofNat (high + k)).toNat % 2 ^ bits = k := by
    intro k hk
    rw [UInt8.toNat_ofNat', Nat.mod_eq_of_lt (a := high + k) (by omega), Nat.add_mod, hhigh,
      Nat.zero_add, Nat.mod_mod, Nat.mod_eq_of_lt hk]
  by_cases hsmall : n < 2 ^ bits - 1
  · rw [Hpack.encodeInteger, if_pos hsmall, singleton_append, decodeInteger_cons,
      hoctet n (by omega), if_pos hsmall]
    rfl
  · have hvalue : 2 ^ bits - 1 + (n - (2 ^ bits - 1)) * 2 ^ 0 = n := by omega
    have hoffset : offset + 1 + (Hpack.continuation (n - (2 ^ bits - 1))).length =
        offset + ((Hpack.continuation (n - (2 ^ bits - 1))).length + 1) := by omega
    rw [Hpack.encodeInteger, if_neg hsmall, cons_append, decodeInteger_cons,
      hoctet (2 ^ bits - 1) (by omega), if_neg (Nat.lt_irrefl _),
      decodeOctets_continuation (by decide) (by omega), hvalue, length_cons, hoffset]

theorem exists_octet {bits high : Nat} (hbits : high + 2 ^ bits ≤ 256) (n : Nat) :
    ∃ b tail, Hpack.encodeInteger bits high n = b :: tail ∧ high ≤ b.toNat ∧
      b.toNat < high + 2 ^ bits := by
  have hpos : 0 < 2 ^ bits := Nat.two_pow_pos bits
  unfold Hpack.encodeInteger
  split
  · refine ⟨_, _, rfl, ?_⟩
    rw [UInt8.toNat_ofNat', Nat.mod_eq_of_lt (by omega)]
    omega
  · refine ⟨_, _, rfl, ?_⟩
    rw [UInt8.toNat_ofNat', Nat.mod_eq_of_lt (by omega)]
    omega

-- ----
-- Strings

theorem decodeString_eq {b : UInt8} {tail data : Bytes} {offset' : Nat}
    (hlength : decodeInteger 7 ⟨offset, b :: tail⟩ = some ((data.length : Int),
      ⟨offset', data ++ rest⟩))
    (hsize : offset' + data.length < 0x80000000) :
    decodeString ⟨offset, b :: tail⟩ =
      if 128 ≤ b.toNat then
        match HpackHuffman.decode data with
        | none => .error .null
        | some decoded => .ok (decodeUtf8 decoded, ⟨offset' + data.length, rest⟩)
      else .ok (decodeUtf8 data, ⟨offset' + data.length, rest⟩) := by
  have hend : int32 ((offset' : Int) + (data.length : Int)) =
      ((offset' + data.length : Nat) : Int) := by
    rw [← Int.natCast_add]
    exact int32_of_nat hsize
  have htake : (((offset' + data.length : Nat) : Int) - (offset' : Int)).toNat =
      data.length := by omega
  unfold decodeString
  dsimp only
  rw [hlength]
  dsimp only
  rw [hend, if_neg (by rw [length_append]; omega), if_neg (by omega), htake, take_left, drop_left]

theorem decodeString_flag {high : Nat} (hhigh : high = 0 ∨ high = 128) (data : Bytes) (offset : Nat)
    (rest : Bytes)
    (hsize : offset + ((Hpack.encodeInteger 7 high data.length).length + data.length) <
      0x80000000) :
    decodeString ⟨offset, Hpack.encodeInteger 7 high data.length ++ (data ++ rest)⟩ =
      if high = 128 then
        match HpackHuffman.decode data with
        | none => .error .null
        | some decoded =>
          .ok (decodeUtf8 decoded,
            ⟨offset + ((Hpack.encodeInteger 7 high data.length).length + data.length), rest⟩)
      else
        .ok (decodeUtf8 data,
          ⟨offset + ((Hpack.encodeInteger 7 high data.length).length + data.length), rest⟩) := by
  have hmod : high % 2 ^ 7 = 0 := by omega
  have hbits : high + 2 ^ 7 ≤ 256 := by omega
  have hlength := decodeInteger_encode hmod hbits (by omega : data.length < 0x80000000) offset
      (data ++ rest)
  obtain ⟨b, tail, hhead, hb, hb'⟩ := exists_octet hbits data.length
  rw [hhead, cons_append] at hlength
  rw [hhead] at hsize ⊢
  rw [cons_append, decodeString_eq hlength (by omega), Nat.add_assoc]
  congr 1
  rw [eq_iff_iff]
  omega

/-- A string is read back, coded or not. -/
theorem decodeString_bytes (lit : Hpack.StringLiteral) (offset : Nat) (rest : Bytes)
    (hsize : offset + lit.bytes.length < 0x80000000) :
    decodeString ⟨offset, lit.bytes ++ rest⟩ =
      .ok (decodeUtf8 lit.octets, ⟨offset + lit.bytes.length, rest⟩) := by
  rcases lit with octets | ⟨octets, data, hcoded⟩
  · rw [Hpack.StringLiteral.bytes, length_append] at hsize ⊢
    rw [append_assoc, decodeString_flag (.inl rfl) octets offset rest hsize]
    rfl
  · rw [Hpack.StringLiteral.bytes, length_append] at hsize ⊢
    rw [append_assoc, decodeString_flag (.inr rfl) data offset rest hsize, if_pos rfl,
      HpackHuffman.decode_coded hcoded]
    rfl

-- ----
-- Tables

/-- A field as `decode` returns it. -/
def text (f : Hpack.Field) : Text × Text := (decodeUtf8 f.name, decodeUtf8 f.value)

/-- The table of RFC 7541 is the front of the decoder's. -/
def Mirrors (t : Hpack.Table) (dynamicTable : Headers) : Prop := t.entries.map text <+: dynamicTable

theorem staticTable_eq : staticTable = Hpack.staticTable.map text := by
  have htext : ∀ s : String, decodeUtf8 (Hpack.ascii s) = s.toList :=
    fun s => decodeUtf8_encode s.toList
  have hnames : staticTable = Hpack.staticNames.map fun p => (p.1.toList, p.2.toList) := rfl
  rw [hnames, Hpack.staticTable, map_map]
  apply map_congr_left
  intro p _
  simp only [Function.comp_apply, text, htext]

theorem length_staticTable : staticTable.length = Hpack.staticTable.length := by
  rw [staticTable_eq, length_map]

variable {t : Hpack.Table} {dynamicTable : Headers}

/-- **What the RFC finds at an index the decoder finds there.** -/
theorem lookupEntry_of_mirrors (h : Mirrors t dynamicTable) {index : Nat} {f : Hpack.Field}
    (hlookup : t.lookup index = some f) : lookupEntry dynamicTable index = some (text f) := by
  unfold Hpack.Table.lookup at hlookup
  split at hlookup
  · exact absurd hlookup nofun
  · split at hlookup
    · have hindex : ((index : Int) - 1).toNat = index - 1 := by omega
      rw [lookupEntry, if_neg (by omega), if_pos (by rw [length_staticTable]; omega), hindex,
        staticTable_eq, List.getElem?_map, hlookup]
      rfl
    · have hindex : ((index : Int) - (staticTable.length : Int) - 1).toNat =
          index - Hpack.staticTable.length - 1 := by
        rw [length_staticTable]
        omega
      rw [lookupEntry, if_neg (by omega), if_neg (by rw [length_staticTable]; omega), hindex]
      obtain ⟨older, hfront⟩ := h
      obtain ⟨hlt, -⟩ := List.getElem?_eq_some_iff.mp hlookup
      rw [← hfront, List.getElem?_append_left (by rw [length_map]; exact hlt),
        List.getElem?_map, hlookup]
      rfl

/-- An insertion; the decoder evicts nothing. -/
theorem mirrors_insert (h : Mirrors t dynamicTable) (f : Hpack.Field) :
    Mirrors (t.insert f) (text f :: dynamicTable) := by
  unfold Mirrors Hpack.Table.insert
  split
  · have hkept : (Hpack.evict (t.maxSize - f.size) t.entries).map text <+: t.entries.map text :=
      (Hpack.evict_isPrefix _ _).map text
    obtain ⟨older, hfront⟩ := hkept.trans h
    exact ⟨older, by rw [← hfront]; rfl⟩
  · exact nil_prefix

theorem mirrors_resize (h : Mirrors t dynamicTable) (maxSize : Nat) :
    Mirrors (t.resize maxSize) dynamicTable :=
  ((Hpack.evict_isPrefix maxSize t.entries).map text).trans h

-- ----
-- Representations

/-- SETTINGS_HEADER_TABLE_SIZE as the connection preface announces it. -/
def headerTableSize : Nat := 65536

/-- A table a peer may use. -/
structure Allowed (t : Hpack.Table) : Prop where
  fits : t.Fits
  maxSize : t.maxSize ≤ headerTableSize

theorem index_lt (ht : Allowed t) {index : Nat} {f : Hpack.Field}
    (hlookup : t.lookup index = some f) :
    index < 0x80000000 := by
  have hstatic : Hpack.staticTable.length = 61 := rfl
  have hlength := Hpack.length_le_of_fits ht.fits
  have hmax := ht.maxSize
  unfold headerTableSize at hmax
  unfold Hpack.Table.lookup at hlookup
  split at hlookup
  · omega
  · split at hlookup
    · omega
    · obtain ⟨hlt, -⟩ := List.getElem?_eq_some_iff.mp hlookup
      omega

theorem indexing_high (indexing : Hpack.Indexing) :
    indexing.high % 2 ^ indexing.bits = 0 ∧ indexing.high + 2 ^ indexing.bits ≤ 256 := by
  rcases indexing <;> decide

theorem decodeLiteral_bytes (h : Mirrors t dynamicTable) (ht : Allowed t)
    (indexing : Hpack.Indexing) {name : Hpack.Name} {octets : Bytes}
    (hname : name.resolve t = some octets) (value : Hpack.StringLiteral) (offset : Nat)
    (rest : Bytes) (hsize : offset + (name.bytes indexing ++ value.bytes).length < 0x80000000) :
    decodeLiteral dynamicTable indexing.bits
    ⟨offset, name.bytes indexing ++ (value.bytes ++ rest)⟩ =
      .ok (text ⟨octets, value.octets⟩,
        ⟨offset + (name.bytes indexing ++ value.bytes).length, rest⟩) := by
  obtain ⟨hmod, hbits⟩ := indexing_high indexing
  rw [length_append] at hsize ⊢
  unfold decodeLiteral
  rcases name with index | lit
  · rw [Hpack.Name.resolve, Option.map_eq_some_iff] at hname
    obtain ⟨f, hlookup, rfl⟩ := hname
    have hpos : index ≠ 0 := by
      rintro rfl
      exact absurd hlookup nofun
    rw [Hpack.Name.bytes] at hsize ⊢
    rw [decodeInteger_encode hmod hbits (index_lt ht hlookup)]
    dsimp only
    rw [if_neg (by omega), lookupEntry_of_mirrors h hlookup]
    dsimp only
    rw [decodeString_bytes value _ rest (by omega), Nat.add_assoc]
    rfl
  · obtain rfl : lit.octets = octets := Option.some.inj hname
    rw [Hpack.Name.bytes, length_append] at hsize ⊢
    rw [append_assoc, decodeInteger_encode hmod hbits (by decide)]
    dsimp only
    rw [if_pos Int.natCast_zero, decodeString_bytes lit _ _ (by omega)]
    dsimp only
    rw [decodeString_bytes value _ rest (by omega), Nat.add_assoc, Nat.add_assoc, Nat.add_assoc]
    rfl

theorem exists_name_octet (indexing : Hpack.Indexing) (name : Hpack.Name) :
    ∃ b tail, name.bytes indexing = b :: tail ∧ indexing.high ≤ b.toNat ∧
      b.toNat < indexing.high + 2 ^ indexing.bits := by
  obtain ⟨-, hbits⟩ := indexing_high indexing
  rcases name with index | lit
  · exact exists_octet hbits index
  · obtain ⟨b, tail, hhead, hb⟩ := exists_octet hbits 0
    exact ⟨b, tail ++ lit.bytes, by rw [Hpack.Name.bytes, hhead, cons_append], hb⟩

/-- A field is read back. -/
theorem decodeTurn_bytes (h : Mirrors t dynamicTable) (ht : Allowed t) {rep : Hpack.Representation}
    (happly : rep.apply headerTableSize t = some (fields, t')) (offset : Nat) (rest : Bytes)
    (hsize : offset + rep.bytes.length < 0x80000000) :
    ∃ b tail dynamicTable', rep.bytes = b :: tail ∧
      decodeTurn dynamicTable ⟨offset, rep.bytes ++ rest⟩ b =
        (dynamicTable', .ok (fields.map text, ⟨offset + rep.bytes.length, rest⟩)) ∧
      Mirrors t' dynamicTable' ∧ Allowed t' := by
  rcases rep with index | ⟨indexing, name, value⟩ | maxSize
  · -- indexed
    rw [Hpack.Representation.apply, Option.map_eq_some_iff] at happly
    obtain ⟨f, hlookup, heq⟩ := happly
    obtain ⟨rfl, rfl⟩ := Prod.mk.injEq .. ▸ heq
    obtain ⟨b, tail, hhead, hb, -⟩ := @exists_octet 7 0x80 (by decide) index
    refine ⟨b, tail, dynamicTable, hhead, ?_, h, ht⟩
    rw [Hpack.Representation.bytes, decodeTurn, if_pos hb,
      decodeInteger_encode (by decide) (by decide) (index_lt ht hlookup)]
    dsimp only
    rw [lookupEntry_of_mirrors h hlookup]
    rfl
  · -- literal
    rw [Hpack.Representation.apply, Option.map_eq_some_iff] at happly
    obtain ⟨octets, hname, heq⟩ := happly
    obtain ⟨rfl, rfl⟩ := Prod.mk.injEq .. ▸ heq
    obtain ⟨b, tail, hhead, hb, hb'⟩ := exists_name_octet indexing name
    have hliteral := decodeLiteral_bytes h ht indexing hname value offset rest hsize
    rw [Hpack.Representation.bytes, append_assoc]
    have hbytes : name.bytes indexing ++ value.bytes = b :: (tail ++ value.bytes) := by
      rw [hhead, cons_append]
    by_cases hindexing : indexing = .incremental
    · subst hindexing
      have hfirst : 64 ≤ b.toNat ∧ b.toNat < 128 := ⟨hb, hb'⟩
      refine ⟨b, _, text ⟨octets, value.octets⟩ :: dynamicTable, hbytes, ?_, ?_, ?_⟩
      · rw [decodeTurn, if_neg (by omega), if_pos hfirst.1]
        rw [Hpack.Indexing.bits] at hliteral
        rw [hliteral]
        rfl
      · exact mirrors_insert h _
      · exact ⟨Hpack.Table.fits_insert _
          t, by rw [if_pos rfl, Hpack.Table.maxSize_insert]; exact ht.maxSize⟩
    · have hfirst : b.toNat < 32 ∧ indexing.bits = 4 := by
        rcases indexing
        · exact absurd rfl hindexing
        · exact ⟨Nat.lt_trans hb' (by decide), rfl⟩
        · exact ⟨hb', rfl⟩
      refine ⟨b, _, dynamicTable, hbytes, ?_, ?_, ?_⟩
      · rw [decodeTurn, if_neg (by omega), if_neg (by omega), if_pos hfirst.1, ← hfirst.2, hliteral]
        rfl
      · rw [if_neg hindexing]
        exact h
      · rw [if_neg hindexing]
        exact ht
  · -- size update
    rw [Hpack.Representation.apply] at happly
    split at happly
    · rename_i hmax
      obtain ⟨rfl, rfl⟩ := Prod.mk.injEq .. ▸ Option.some.inj happly
      obtain ⟨b, tail, hhead, hb, hb'⟩ := @exists_octet 5 0x20 (by decide) maxSize
      refine ⟨b, tail, dynamicTable, hhead, ?_, mirrors_resize h maxSize,
        ⟨Hpack.Table.fits_resize _ t, hmax⟩⟩
      unfold headerTableSize at hmax
      rw [Hpack.Representation.bytes, decodeTurn, if_neg (by omega), if_neg (by omega),
        if_neg (by omega), decodeInteger_encode (by decide) (by decide) (by omega)]
      rfl
    · exact absurd happly nofun

-- ----
-- Blocks

theorem decodeLoop_bytes {block : List Hpack.Representation}
    (h : Mirrors t dynamicTable) (ht : Allowed t)
    (happly : Hpack.applyBlock headerTableSize t block = some (fields, t')) (fuel offset : Nat)
    (hfuel : (Hpack.blockBytes block).length ≤ fuel)
    (hsize : offset + (Hpack.blockBytes block).length < 0x80000000) (headers : Headers) :
    ∃ dynamicTable',
      decodeLoop fuel dynamicTable ⟨offset, Hpack.blockBytes block⟩ headers =
        (dynamicTable', .ok (headers ++ fields.map text)) ∧
      Mirrors t' dynamicTable' ∧ Allowed t' := by
  induction block generalizing t dynamicTable fields fuel offset headers with
  | nil =>
    obtain ⟨rfl, rfl⟩ := Prod.mk.injEq .. ▸ Option.some.inj happly
    refine ⟨dynamicTable, ?_, h, ht⟩
    rw [map_nil, append_nil]
    rcases fuel with _ | fuel <;> rfl
  | cons rep block ih =>
    rw [Hpack.applyBlock] at happly
    rcases hrep : rep.apply headerTableSize t with _ | ⟨added, t₁⟩
    · rw [hrep] at happly
      exact absurd happly nofun
    · rw [hrep] at happly
      obtain ⟨later, hlater, heq⟩ := Option.map_eq_some_iff.mp happly
      obtain ⟨rfl, rfl⟩ := Prod.mk.injEq .. ▸ heq
      have hbytes : Hpack.blockBytes (rep :: block) = rep.bytes ++ Hpack.blockBytes block :=
        flatMap_cons
      rw [hbytes, length_append] at hfuel hsize
      obtain ⟨b, tail, table₁, hhead, hturn, h₁, ht₁⟩ :=
        decodeTurn_bytes h ht hrep offset (Hpack.blockBytes block) (by omega)
      have hlength : rep.bytes.length = tail.length + 1 := by rw [hhead, length_cons]
      rcases fuel with _ | fuel
      · omega
      · obtain ⟨table₂, hloop, h₂, ht₂⟩ :=
          ih h₁ ht₁ hlater fuel (offset + rep.bytes.length) (by omega) (by omega)
            (headers ++ added.map text)
        refine ⟨table₂, ?_, h₂, ht₂⟩
        rw [append_assoc, ← map_append] at hloop
        rw [decodeLoop, hbytes]
        rw [hhead, cons_append] at hturn ⊢
        dsimp only
        rw [hturn]
        rw [hhead] at hloop
        exact hloop

/-- A block is read back. -/
theorem decode_bytes {block : List Hpack.Representation}
    (h : Mirrors t dynamicTable) (ht : Allowed t)
    (happly : Hpack.applyBlock headerTableSize t block = some (fields, t'))
    (hsize : (Hpack.blockBytes block).length < 0x80000000) :
    (decode dynamicTable (Hpack.blockBytes block)).2 = .ok (fields.map text) ∧
      Mirrors t' (decode dynamicTable (Hpack.blockBytes block)).1 ∧ Allowed t' := by
  obtain ⟨table', hloop, h', ht'⟩ :=
    decodeLoop_bytes h ht happly (Hpack.blockBytes block).length 0 (Nat.le_refl _) (by omega) []
  rw [nil_append] at hloop
  rw [decode, hloop]
  exact ⟨rfl, h', ht'⟩

def decodeBlocks : Headers → List Bytes → List (Except Stop Headers)
  | _, [] => []
  | dynamicTable, data :: blocks => (decode dynamicTable data).2 :: decodeBlocks
      (decode dynamicTable data).1 blocks

/-- The blocks of a sequence are read back. -/
theorem decodeBlocks_bytes (h : Mirrors t dynamicTable) (ht : Allowed t)
    {blocks : List (List Hpack.Representation)} {lists : List (List Hpack.Field)}
    (happly : Hpack.applyBlocks headerTableSize t blocks = some lists)
    (hsize : ∀ block ∈ blocks, (Hpack.blockBytes block).length < 0x80000000) :
    decodeBlocks dynamicTable (blocks.map Hpack.blockBytes) = lists.map fun fields =>
      .ok (fields.map text) := by
  induction blocks generalizing t dynamicTable lists with
  | nil =>
    obtain rfl := Option.some.inj happly
    rfl
  | cons block blocks ih =>
    rw [Hpack.applyBlocks] at happly
    rcases hblock : Hpack.applyBlock headerTableSize t block with _ | ⟨fields, t₁⟩
    · rw [hblock] at happly
      exact absurd happly nofun
    · rw [hblock] at happly
      obtain ⟨later, hlater, rfl⟩ := Option.map_eq_some_iff.mp happly
      obtain ⟨hfields, h₁, ht₁⟩ := decode_bytes h ht hblock (hsize block mem_cons_self)
      rw [map_cons, decodeBlocks, hfields, map_cons,
        ih h₁ ht₁ hlater fun b hb => hsize b (mem_cons_of_mem _ hb)]

/-- **The decoder simulates that of RFC 7541.** Whatever blocks a peer sends, as long as the RFC's
decoder accepts them, each is decoded to the header list the RFC gives for it. A block is a byte
array, and the table may be as large as the connection preface allows. -/
theorem decode_simulates {maxSize : Nat} (hmax : maxSize ≤ headerTableSize)
    {blocks : List (List Hpack.Representation)} {lists : List (List Hpack.Field)}
    (haccepted : Hpack.applyBlocks headerTableSize ⟨[], maxSize⟩ blocks = some lists)
    (hsize : ∀ block ∈ blocks, (Hpack.blockBytes block).length < 0x80000000) :
    decodeBlocks [] (blocks.map Hpack.blockBytes) = lists.map fun fields =>
      .ok (fields.map text) := by
  have hempty : Mirrors ⟨[], maxSize⟩ [] := nil_prefix
  exact decodeBlocks_bytes hempty ⟨Nat.zero_le _, hmax⟩ haccepted hsize

/-- `:status` 302 as a Huffman coded string. -/
def status302 : Hpack.StringLiteral :=
  .huffman [0x33, 0x30, 0x32] [0x64, 0x02] ⟨0, by decide, by decide⟩

/-- An entry is inserted, used from the next block and evicted with the table's size. -/
def evictingBlocks : List (List Hpack.Representation) :=
  [[.literal .incremental (.indexed 8) status302],
    [.indexed 62, .sizeUpdate 0, .literal .incremental (.literal (.raw [0x61])) (.raw [0x62])],
    [.literal .never (.indexed 24) (.raw [])]]

theorem decode_simulates_eviction :
    (∀ block ∈ evictingBlocks, (Hpack.blockBytes block).length < 0x80000000) ∧
      decodeBlocks [] (evictingBlocks.map Hpack.blockBytes) =
        [.ok [(":status".toList, "302".toList)],
          .ok [(":status".toList, "302".toList), ("a".toList, "b".toList)],
          .ok [("cache-control".toList, [])]] := by
  have hsize : ∀ block ∈ evictingBlocks, (Hpack.blockBytes block).length <
      0x80000000 := by decide +kernel
  have haccepted : Hpack.applyBlocks headerTableSize ⟨[], 4096⟩ evictingBlocks =
      some [[⟨Hpack.ascii ":status", Hpack.ascii "302"⟩],
        [⟨Hpack.ascii ":status", Hpack.ascii "302"⟩, ⟨Hpack.ascii "a", Hpack.ascii "b"⟩],
        [⟨Hpack.ascii "cache-control", []⟩]] := by
    decide
  refine ⟨hsize, (decode_simulates (by decide) haccepted hsize).trans ?_⟩
  decide

end HpackDecoder

end Anywhere.Naive
