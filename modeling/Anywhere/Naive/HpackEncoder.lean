import Anywhere.Naive.Hpack

/-!
# Anywhere — `HpackEncoder`

The header block of a CONNECT request. Lengths and indices are written as integers with nothing in
front of their prefix, and the bits that belong in front of it are masked in the first octet
afterwards.

* `decode_encodeConnectRequest` — what `HpackDecoder` makes of it.
-/

namespace Anywhere.Naive

open Lib List

namespace HpackEncoder

-- ----
-- The encoder

/-- `string.toByteArray(Charsets.UTF_8)`. -/
def encodeUtf8 (string : Text) : Bytes := string.flatMap String.utf8EncodeChar

/-- The loop of `encodeInteger`. -/
def encodeRemaining (remaining : Nat) : Bytes :=
  if 128 ≤ remaining then UInt8.ofNat (remaining % 128 + 128) :: encodeRemaining (remaining / 128)
  else [UInt8.ofNat remaining]
  termination_by remaining
  decreasing_by omega

def encodeInteger (value prefixBits : Nat) : Bytes :=
  let maxPrefix := 2 ^ prefixBits - 1
  if value < maxPrefix then [UInt8.ofNat value] else UInt8.ofNat maxPrefix :: encodeRemaining
    (value - maxPrefix)

/-- `bytes[0] = bytes[0] and mask`. -/
def maskFirst (mask : UInt8) : Bytes → Bytes
  | [] => []
  | b :: rest => (b &&& mask) :: rest

def encodeString (string : Text) : Bytes :=
  let bytes := encodeUtf8 string
  maskFirst 0x7F (encodeInteger bytes.length 7) ++ bytes

/-- `encodeLiteralWithoutIndexing` with a `nameIndex`. -/
def encodeIndexed (nameIndex : Nat) (value : Text) : Bytes :=
  maskFirst 0x0F (encodeInteger nameIndex 4) ++ encodeString value

/-- `encodeLiteralWithoutIndexing` with a `name`. -/
def encodeLiteral (name value : Text) : Bytes := 0x00 :: (encodeString name ++ encodeString value)

-- `String.lowercase()`
variable (lowercase : Text → Text)

def staticTableNameIndex (name : Text) : Option Nat :=
  (HpackDecoder.staticTable.findIdx? fun entry => entry.1 = lowercase name).map (· + 1)

def encodeHeader (header : Text × Text) : Bytes :=
  match staticTableNameIndex lowercase header.1 with
  | some nameIdx => encodeIndexed nameIdx header.2
  | none => encodeLiteral header.1 header.2

def encodeConnectRequest (authority : Text) (extraHeaders : Headers) : Bytes :=
  encodeIndexed 2 "CONNECT".toList ++ (encodeIndexed 1 authority ++ extraHeaders.flatMap
    (encodeHeader lowercase))

-- ----
-- Integers and strings

theorem encodeRemaining_eq (remaining : Nat) :
    encodeRemaining remaining = Hpack.continuation remaining := by
  induction remaining using Nat.strongRecOn with
  | ind n ih =>
    rw [encodeRemaining, Hpack.continuation]
    by_cases hlast : n < 128
    · rw [if_neg (by omega), if_pos hlast]
    · rw [if_pos (by omega), if_neg hlast, ih (n / 128) (by omega)]

theorem encodeInteger_eq (value prefixBits : Nat) :
    encodeInteger value prefixBits = Hpack.encodeInteger prefixBits 0 value := by
  rw [encodeInteger, Hpack.encodeInteger, encodeRemaining_eq, Nat.zero_add, Nat.zero_add]

/-- The first octet has nothing in front of its prefix, so the mask takes nothing away. -/
theorem maskFirst_encodeInteger {mask : UInt8} {prefixBits : Nat} (hbits : prefixBits ≤ 8)
    (hmask : ∀ b : UInt8, b.toNat < 2 ^ prefixBits → b &&& mask = b) (value : Nat) :
    maskFirst mask (encodeInteger value prefixBits) = Hpack.encodeInteger prefixBits 0 value := by
  have hpow : 2 ^ prefixBits ≤ 2 ^ 8 := Nat.pow_le_pow_right (by decide) hbits
  obtain ⟨b, tail, hhead, -, hlt⟩ := @HpackDecoder.exists_octet prefixBits 0 (by omega) value
  rw [Nat.zero_add] at hlt
  rw [encodeInteger_eq, hhead, maskFirst, hmask b hlt]

theorem and_mask {mask : UInt8} {k : Nat} (hmask : mask.toNat = 2 ^ k - 1) (b : UInt8)
    (hlt : b.toNat < 2 ^ k) :
    b &&& mask = b := by
  apply UInt8.toNat_inj.mp
  rw [UInt8.toNat_and, hmask, Nat.and_two_pow_sub_one_eq_mod, Nat.mod_eq_of_lt hlt]

/-- **A string is a literal of RFC 7541.** -/
theorem encodeString_eq (string : Text) :
    encodeString string = (Hpack.StringLiteral.raw (encodeUtf8 string)).bytes := by
  rw [encodeString, maskFirst_encodeInteger (by decide) (and_mask rfl), Hpack.StringLiteral.bytes]

/-- What the mask of the first octet leaves. -/
theorem encodeIndexed_eq (nameIndex : Nat) (value : Text) :
    encodeIndexed nameIndex value =
      (Hpack.Representation.literal .without (.indexed nameIndex)
        (.raw (encodeUtf8 value))).bytes := by
  rw [encodeIndexed, maskFirst_encodeInteger (by decide) (and_mask rfl), encodeString_eq]
  rfl

theorem encodeLiteral_eq (name value : Text) :
    encodeLiteral name value =
      (Hpack.Representation.literal .without (.literal (.raw (encodeUtf8 name)))
        (.raw (encodeUtf8 value))).bytes := by
  rw [encodeLiteral, encodeString_eq, encodeString_eq]
  rfl

-- ----
-- The block

/-- An extra header as RFC 7541 represents it. -/
def representation (header : Text × Text) : Hpack.Representation :=
  match staticTableNameIndex lowercase header.1 with
  | some nameIdx => .literal .without (.indexed nameIdx) (.raw (encodeUtf8 header.2))
  | none => .literal .without (.literal (.raw (encodeUtf8 header.1))) (.raw (encodeUtf8 header.2))

def block (authority : Text) (extraHeaders : Headers) : List Hpack.Representation :=
  .literal .without (.indexed 2) (.raw (encodeUtf8 "CONNECT".toList)) ::
    .literal .without (.indexed 1) (.raw (encodeUtf8 authority)) :: extraHeaders.map
      (representation lowercase)

theorem encodeHeader_eq (header : Text × Text) :
    encodeHeader lowercase header = (representation lowercase header).bytes := by
  rw [encodeHeader, representation]
  cases staticTableNameIndex lowercase header.1 with
  | none => exact encodeLiteral_eq header.1 header.2
  | some nameIdx => exact encodeIndexed_eq nameIdx header.2

/-- The block in the representations of RFC 7541. -/
theorem encodeConnectRequest_eq (authority : Text) (extraHeaders : Headers) :
    encodeConnectRequest lowercase authority extraHeaders = Hpack.blockBytes
    (block lowercase authority extraHeaders) := by
  have hheaders : extraHeaders.flatMap (encodeHeader lowercase) =
      Hpack.blockBytes (extraHeaders.map (representation lowercase)) := by
    rw [Hpack.blockBytes, flatMap_map]
    exact flatMap_congr fun header _ => encodeHeader_eq lowercase header
  rw [encodeConnectRequest, encodeIndexed_eq, encodeIndexed_eq, hheaders, block]
  rfl

/-- A header as it comes back: a name of the static table is in lower case. -/
def received (header : Text × Text) : Text × Text :=
  (if lowercase header.1 ∈ HpackDecoder.staticTable.map Prod.fst then lowercase header.1
    else header.1, header.2)

/-- A name's index leads to an entry with this name, in lower case. -/
theorem lookup_nameIndex {name : Text} {index : Nat}
    (h : staticTableNameIndex lowercase name = some index) (t : Hpack.Table) :
    ∃ f, t.lookup index = some f ∧ decodeUtf8 f.name = lowercase name := by
  obtain ⟨i, hi, rfl⟩ := Option.map_eq_some_iff.mp h
  obtain ⟨hlt, hname, -⟩ := List.findIdx?_eq_some_iff_getElem.mp hi
  have hlt' : i < Hpack.staticTable.length := by
    rw [← HpackDecoder.length_staticTable]
    exact hlt
  refine ⟨Hpack.staticTable[i], ?_, ?_⟩
  · rw [Hpack.Table.lookup, if_neg (Nat.succ_ne_zero i), if_pos (Nat.succ_le_of_lt hlt'),
      Nat.add_sub_cancel, List.getElem?_eq_getElem hlt']
  · have hentry : HpackDecoder.staticTable[i]? = some (HpackDecoder.text Hpack.staticTable[i]) := by
      rw [HpackDecoder.staticTable_eq, List.getElem?_map, List.getElem?_eq_getElem hlt']
      rfl
    rw [List.getElem?_eq_getElem hlt] at hentry
    rw [Option.some.inj hentry] at hname
    exact of_decide_eq_true hname

theorem nameIndex_isSome (name : Text) :
    (staticTableNameIndex lowercase name).isSome = true ↔
      lowercase name ∈ HpackDecoder.staticTable.map Prod.fst := by
  rw [staticTableNameIndex, Option.isSome_map, List.findIdx?_isSome, any_eq_true, mem_map]
  constructor
  · rintro ⟨entry, hmem, hname⟩
    exact ⟨entry, hmem, of_decide_eq_true hname⟩
  · rintro ⟨entry, hmem, hname⟩
    exact ⟨entry, hmem, decide_eq_true hname⟩

/-- **An extra header stands for what is received.** -/
theorem apply_representation (limit : Nat) (t : Hpack.Table) (header : Text × Text) :
    ∃ f, (representation lowercase header).apply limit t = some ([f], t) ∧
      HpackDecoder.text f = received lowercase header := by
  have hvalue := decodeUtf8_encode header.2
  have hsome := nameIndex_isSome lowercase header.1
  rw [representation, received]
  rcases hindex : staticTableNameIndex lowercase header.1 with _ | index
  · rw [hindex] at hsome
    rw [if_neg fun hmem => absurd (hsome.mpr hmem) Bool.false_ne_true]
    refine ⟨⟨encodeUtf8 header.1, encodeUtf8 header.2⟩, rfl, ?_⟩
    exact Prod.ext (decodeUtf8_encode header.1) hvalue
  · rw [hindex] at hsome
    rw [if_pos (hsome.mp rfl)]
    obtain ⟨f, hlookup, hname⟩ := lookup_nameIndex lowercase hindex t
    refine ⟨⟨f.name, encodeUtf8 header.2⟩, ?_, Prod.ext hname hvalue⟩
    dsimp only
    rw [Hpack.Representation.apply, Hpack.Name.resolve, hlookup]
    rfl

/-- An index of the static table whose name is known. -/
theorem apply_indexed {index : Nat} {f : Hpack.Field} {t : Hpack.Table}
    (hlookup : t.lookup index = some f) (limit : Nat) (value : Text) :
    (Hpack.Representation.literal .without (.indexed index) (.raw (encodeUtf8 value))).apply limit
      t =
      some ([⟨f.name, encodeUtf8 value⟩], t) := by
  rw [Hpack.Representation.apply, Hpack.Name.resolve, hlookup]
  rfl

theorem applyBlock_cons {limit : Nat} {t : Hpack.Table} {rep : Hpack.Representation}
    {reps : List Hpack.Representation} {f : Hpack.Field} {fields : List Hpack.Field}
    (hrep : rep.apply limit t = some ([f], t))
    (hreps : Hpack.applyBlock limit t reps = some (fields, t)) :
    Hpack.applyBlock limit t (rep :: reps) = some (f :: fields, t) := by
  rw [Hpack.applyBlock, hrep]
  dsimp only
  rw [hreps]
  rfl

theorem apply_headers (limit : Nat) (t : Hpack.Table) (extraHeaders : Headers) :
    ∃ fields, Hpack.applyBlock limit t (extraHeaders.map (representation lowercase)) =
      some (fields, t) ∧
      fields.map HpackDecoder.text = extraHeaders.map (received lowercase) := by
  induction extraHeaders with
  | nil => exact ⟨[], rfl, rfl⟩
  | cons header extraHeaders ih =>
    obtain ⟨fields, happly, hfields⟩ := ih
    obtain ⟨f, hone, htext⟩ := apply_representation lowercase limit t header
    refine ⟨f :: fields, ?_, ?_⟩
    · rw [map_cons]
      exact applyBlock_cons hone happly
    · rw [map_cons, map_cons, htext, hfields]

/-- **A CONNECT request is decoded to its headers.** The block is a byte array. -/
theorem decode_encodeConnectRequest (authority : Text) (extraHeaders : Headers)
    (hsize : (encodeConnectRequest lowercase authority extraHeaders).length < 0x80000000) :
    (HpackDecoder.decode [] (encodeConnectRequest lowercase authority extraHeaders)).2 =
      .ok ((":method".toList, "CONNECT".toList) :: (":authority".toList, authority) ::
        extraHeaders.map (received lowercase)) := by
  let t : Hpack.Table := ⟨[], 0⟩
  have hmethod : t.lookup 2 = some ⟨Hpack.ascii ":method", Hpack.ascii "GET"⟩ := rfl
  have hauthority : t.lookup 1 = some ⟨Hpack.ascii ":authority", Hpack.ascii ""⟩ := rfl
  obtain ⟨fields, happly, hfields⟩ :=
    apply_headers lowercase HpackDecoder.headerTableSize t extraHeaders
  have hblock :=
    applyBlock_cons (apply_indexed hmethod HpackDecoder.headerTableSize "CONNECT".toList)
    (applyBlock_cons (apply_indexed hauthority HpackDecoder.headerTableSize authority) happly)
  have htext : ∀ (name : String) (value : Text),
      HpackDecoder.text ⟨Hpack.ascii name, encodeUtf8 value⟩ = (name.toList, value) :=
        fun name value =>
    Prod.ext (decodeUtf8_encode name.toList) (decodeUtf8_encode value)
  rw [encodeConnectRequest_eq, block] at hsize ⊢
  have hempty : HpackDecoder.Mirrors t [] := nil_prefix
  obtain ⟨hdecode, -, -⟩ :=
    HpackDecoder.decode_bytes hempty ⟨Nat.zero_le _, Nat.zero_le _⟩ hblock hsize
  rw [hdecode, map_cons, map_cons, hfields, htext, htext]

theorem decode_encodeConnectRequest_padding :
    (encodeConnectRequest (List.map Char.toLower) "example.org:443".toList
      [("Padding".toList, "~".toList), ("User-Agent".toList, "x".toList)]).length < 0x80000000 ∧
    (HpackDecoder.decode [] (encodeConnectRequest (List.map Char.toLower) "example.org:443".toList
      [("Padding".toList, "~".toList), ("User-Agent".toList, "x".toList)])).2 =
      .ok ((":method".toList, "CONNECT".toList) :: (":authority".toList,
        "example.org:443".toList) :: [("Padding".toList, "~".toList),
        ("User-Agent".toList, "x".toList)].map
          (received (List.map Char.toLower))) := by
  have hsize : (encodeConnectRequest (List.map Char.toLower) "example.org:443".toList
      [("Padding".toList, "~".toList), ("User-Agent".toList, "x".toList)]).length < 0x80000000 := by
    decide +kernel
  exact ⟨hsize, decode_encodeConnectRequest (List.map Char.toLower) _ _ hsize⟩

end HpackEncoder

end Anywhere.Naive
