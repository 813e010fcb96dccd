import Mathlib.Data.List.Basic
import Mathlib.Data.List.Infix
import Mathlib.Tactic.Linarith

/-!
# HPACK

Header compression as RFC 7541 describes it: the two tables a decoder looks indices up in, the
representations a header block is made of, and how they are written as octets.

* `Table.insert`, `Table.resize` — the dynamic table, with its evictions.
* `Representation.apply` — what a decoder makes of a representation.
* `huffmanCode` — the canonical code of Appendix B.
* `Representation.bytes` — the wire.
-/

namespace Anywhere.Lib.Hpack

open List

abbrev Octets := List UInt8

-- ----
-- Tables (§2.3, §4)

structure Field where
  name : Octets
  value : Octets
  deriving DecidableEq

/-- §4.1. -/
def Field.size (f : Field) : Nat := f.name.length + f.value.length + 32

def ascii (s : String) : Octets := s.toList.flatMap String.utf8EncodeChar

/-- Appendix A. -/
def staticNames : List (String × String) :=
  [(":authority", ""), (":method", "GET"), (":method", "POST"), (":path", "/"),
    (":path", "/index.html"), (":scheme", "http"), (":scheme", "https"), (":status", "200"),
    (":status", "204"), (":status", "206"), (":status", "304"), (":status", "400"),
    (":status", "404"), (":status", "500"), ("accept-charset", ""),
    ("accept-encoding", "gzip, deflate"), ("accept-language", ""), ("accept-ranges", ""),
    ("accept", ""), ("access-control-allow-origin", ""), ("age", ""), ("allow", ""),
    ("authorization", ""), ("cache-control", ""), ("content-disposition", ""),
    ("content-encoding", ""), ("content-language", ""), ("content-length", ""),
    ("content-location", ""), ("content-range", ""), ("content-type", ""), ("cookie", ""),
    ("date", ""), ("etag", ""), ("expect", ""), ("expires", ""), ("from", ""),
    ("host", ""), ("if-match", ""), ("if-modified-since", ""), ("if-none-match", ""),
    ("if-range", ""), ("if-unmodified-since", ""), ("last-modified", ""), ("link", ""),
    ("location", ""), ("max-forwards", ""), ("proxy-authenticate", ""), ("proxy-authorization", ""),
    ("range", ""), ("referer", ""), ("refresh", ""), ("retry-after", ""), ("server", ""),
    ("set-cookie", ""), ("strict-transport-security", ""), ("transfer-encoding", ""),
    ("user-agent", ""), ("vary", ""), ("via", ""), ("www-authenticate", "")]

def staticTable : List Field := staticNames.map fun p => ⟨ascii p.1, ascii p.2⟩

/-- The dynamic table, the newest entry first. -/
structure Table where
  entries : List Field
  maxSize : Nat

def size (entries : List Field) : Nat := (entries.map Field.size).sum

/-- §4.3, §4.4: the oldest entries go until the rest is no larger than `limit`. -/
def evict (limit : Nat) (entries : List Field) : List Field :=
  if _h : size entries ≤ limit then entries else evict limit entries.dropLast
  termination_by entries.length
  decreasing_by
    rcases entries with _ | ⟨e, es⟩
    · exact absurd (Nat.zero_le limit) _h
    · rw [length_dropLast, length_cons]
      omega

namespace Table

/-- §4.4: an entry larger than the table empties it. -/
def insert (f : Field) (t : Table) : Table :=
  if f.size ≤ t.maxSize then { t with entries := f :: evict (t.maxSize - f.size) t.entries }
  else { t with entries := [] }

/-- §4.3. -/
def resize (maxSize : Nat) (t : Table) : Table := ⟨evict maxSize t.entries, maxSize⟩

/-- §2.3.3. -/
def lookup (index : Nat) (t : Table) : Option Field :=
  if index = 0 then none
  else if index ≤ staticTable.length then staticTable[index - 1]?
  else t.entries[index - staticTable.length - 1]?

end Table

theorem evict_nil (limit : Nat) : evict limit [] = [] := by
  rw [evict]
  exact dif_pos (Nat.zero_le limit)

/-- Eviction drops entries at the end, the oldest. -/
theorem evict_isPrefix (limit : Nat) (entries : List Field) : evict limit entries <+: entries := by
  induction hn : entries.length generalizing entries with
  | zero =>
    rw [length_eq_zero_iff.mp hn, evict_nil]
  | succ n ih =>
    rw [evict]
    split
    · exact prefix_refl _
    · exact (ih _ (by rw [length_dropLast, hn]; rfl)).trans ( dropLast_prefix _)

/-- What is left fits. -/
theorem size_evict (limit : Nat) (entries : List Field) : size (evict limit entries) ≤ limit := by
  induction hn : entries.length generalizing entries with
  | zero =>
    rw [length_eq_zero_iff.mp hn, evict_nil]
    exact Nat.zero_le limit
  | succ n ih =>
    rw [evict]
    split
    · assumption
    · exact ih _ (by rw [length_dropLast, hn]; rfl)

/-- The table is never larger than it may be. -/
def Table.Fits (t : Table) : Prop := size t.entries ≤ t.maxSize

theorem Table.fits_insert (f : Field) (t : Table) : (t.insert f).Fits := by
  unfold Table.insert Table.Fits
  split
  · have hrest := size_evict (t.maxSize - f.size) t.entries
    show size (f :: _) ≤ t.maxSize
    unfold size at hrest ⊢
    rw [map_cons, sum_cons]
    omega
  · exact Nat.zero_le _

theorem Table.maxSize_insert (f : Field) (t : Table) : (t.insert f).maxSize = t.maxSize := by
  unfold Table.insert
  split <;> rfl

theorem Table.fits_resize (maxSize : Nat) (t : Table) : (t.resize maxSize).Fits :=
  size_evict maxSize t.entries

theorem length_le_of_fits {t : Table} (h : t.Fits) : 32 * t.entries.length ≤ t.maxSize := by
  have hcount : ∀ es : List Field, 32 * es.length ≤ size es := by
    intro es
    induction es with
    | nil => exact Nat.zero_le _
    | cons e es ih =>
      unfold size at ih ⊢
      rw [length_cons, map_cons, sum_cons, Field.size]
      omega
  exact (hcount t.entries).trans h

-- ----
-- The Huffman code (Appendix B)

/-- How long the code of each octet is, and that of EOS. -/
def huffmanLengths : List Nat :=
  [13, 23, 28, 28, 28, 28, 28, 28, 28, 24, 30, 28, 28, 30, 28, 28, 28, 28, 28, 28, 28,
    28, 30, 28, 28, 28, 28, 28, 28, 28, 28, 28, 6, 10, 10, 12, 13, 6, 8, 11, 10, 10, 8, 11, 8, 6, 6,
    6, 5, 5, 5, 6, 6, 6, 6, 6, 6, 6, 7, 8, 15, 6, 12, 10, 13, 6, 7, 7, 7, 7, 7, 7, 7, 7, 7, 7, 7, 7,
    7, 7, 7, 7, 7, 7, 7, 7, 7, 7, 8, 7, 8, 13, 19, 13, 14, 6, 15, 5, 6, 5, 6, 5, 6, 6, 6, 5, 7, 7,
    6, 6, 6, 5, 6, 7, 6, 5, 5, 6, 7, 7, 7, 7, 7, 15, 11, 14, 13, 28, 20, 22, 20, 20, 22, 22, 22, 23,
    22, 23, 23, 23, 23, 23, 24, 23, 24, 24, 22, 23, 24, 23, 23, 23, 23, 21, 22, 23, 22, 23, 23, 24,
    22, 21, 20, 22, 22, 23, 23, 21, 23, 22, 22, 24, 21, 22, 23, 23, 21, 21, 22, 21, 23, 22, 23, 23,
    20, 22, 22, 22, 23, 22, 22, 23, 26, 26, 20, 19, 22, 23, 22, 25, 26, 26, 26, 27, 27, 26, 24, 25,
    19, 21, 26, 27, 27, 26, 27, 24, 21, 21, 26, 26, 28, 27, 27, 27, 20, 24, 20, 21, 22, 21, 21, 23,
    22, 22, 25, 25, 24, 24, 26, 23, 26, 27, 26, 26, 27, 27, 27, 27, 27, 28, 27, 27, 27,
    27, 27, 26, 30]

def leftBits (word count : Nat) : List Bool := (List.range count).map fun i => word.testBit (31 - i)

/-- The order of a canonical code: shorter codes first, then smaller symbols. -/
def canonicalOrder (lengths : List Nat) : List (Nat × Nat) :=
  (List.range 33).flatMap fun l => lengths.zipIdx.filter fun p => p.1 == l

/-- In that order each code, at the left of 32 bits, begins where the one before it ends. -/
def assign (start : Nat) : List (Nat × Nat) → List (Nat × List Bool)
  | [] => []
  | (length, symbol) :: rest => (symbol, leftBits start length) :: assign
      (start + 2 ^ (32 - length)) rest

def huffmanCodes : List (Nat × List Bool) := assign 0 (canonicalOrder huffmanLengths)

def huffmanCode (symbol : Nat) : List Bool :=
  ((huffmanCodes.find? fun p => p.1 == symbol).map Prod.snd).getD []

theorem mem_canonicalOrder {lengths : List Nat} (hshort : ∀ l ∈ lengths, l < 33) {symbol : Nat}
    (h : symbol < lengths.length) : (lengths[symbol], symbol) ∈ canonicalOrder lengths := by
  rw [canonicalOrder, mem_flatMap]
  refine ⟨lengths[symbol], mem_range.mpr (hshort _ (getElem_mem h)), ?_⟩
  rw [mem_filter]
  exact ⟨List.mem_zipIdx_iff_getElem?.mpr (List.getElem?_eq_getElem h), beq_self_eq_true _⟩

theorem exists_assign {order : List (Nat × Nat)} {length symbol : Nat}
    (h : (length, symbol) ∈ order) (start : Nat) : ∃ code, (symbol, code) ∈ assign start order := by
  induction order generalizing start with
  | nil => exact absurd h not_mem_nil
  | cons p rest ih =>
    obtain ⟨l, s⟩ := p
    rw [assign]
    rcases mem_cons.mp h with heq | hrest
    · obtain ⟨rfl, rfl⟩ := Prod.mk.injEq .. ▸ heq
      exact ⟨_, mem_cons_self⟩
    · obtain ⟨code, hcode⟩ := ih hrest (start + 2 ^ (32 - l))
      exact ⟨code, mem_cons_of_mem _ hcode⟩

/-- Every octet, and EOS, has its code. -/
theorem huffmanCode_mem {symbol : Nat} (h : symbol < 257) :
    (symbol, huffmanCode symbol) ∈ huffmanCodes := by
  have hshort : ∀ l ∈ huffmanLengths, l < 33 := by decide +kernel
  have hlength : huffmanLengths.length = 257 := by decide +kernel
  obtain ⟨code, hcode⟩ := exists_assign (mem_canonicalOrder hshort (hlength ▸ h)) 0
  have hsome : (huffmanCodes.find? fun p => p.1 == symbol).isSome = true :=
    List.find?_isSome.mpr ⟨_, hcode, beq_self_eq_true _⟩
  obtain ⟨⟨s, found⟩, hfind⟩ := Option.isSome_iff_exists.mp hsome
  have hsame := List.find?_some hfind
  have hs : s = symbol := eq_of_beq hsame
  subst hs
  rw [huffmanCode, hfind]
  exact List.mem_of_find?_eq_some hfind

/-- The bits of an octet, the most significant one first. -/
def bitsOf (b : UInt8) : List Bool := (List.range 8).map fun i => b.toNat.testBit (7 - i)

/-- §5.2: the codes of the octets, and fewer than eight ones behind them. -/
def HuffmanCoded (octets data : Octets) : Prop :=
  ∃ padding < 8, data.flatMap bitsOf =
    (octets.flatMap fun o => huffmanCode o.toNat) ++ List.replicate padding true

-- ----
-- Representations (§6)

inductive StringLiteral where
  | raw (octets : Octets)
  | huffman (octets data : Octets) (coded : HuffmanCoded octets data)

def StringLiteral.octets : StringLiteral → Octets
  | .raw octets => octets
  | .huffman octets _ _ => octets

inductive Name where
  | indexed (index : Nat)
  | literal (name : StringLiteral)

inductive Indexing where
  | incremental
  | without
  | never
  deriving DecidableEq, Repr

inductive Representation where
  | indexed (index : Nat)
  | literal (indexing : Indexing) (name : Name) (value : StringLiteral)
  | sizeUpdate (maxSize : Nat)

def Name.resolve (t : Table) : Name → Option Octets
  | .indexed index => (t.lookup index).map Field.name
  | .literal name => some name.octets

/-- The header field a representation stands for, if any, and the table behind it. `limit` is what
the decoder allows the table to grow to. -/
def Representation.apply (limit : Nat) (t : Table) : Representation → Option (List Field × Table)
  | .indexed index => (t.lookup index).map fun f => ([f], t)
  | .literal indexing name value =>
    (name.resolve t).map fun name =>
      ([⟨name, value.octets⟩], if indexing = .incremental then t.insert ⟨name, value.octets⟩ else t)
  | .sizeUpdate maxSize => if maxSize ≤ limit then some ([], t.resize maxSize) else none

def applyBlock (limit : Nat) : Table → List Representation → Option (List Field × Table)
  | t, [] => some ([], t)
  | t, rep :: reps =>
    match rep.apply limit t with
    | none => none
    | some (fields, t') => (applyBlock limit t' reps).map fun later => (fields ++ later.1, later.2)

def applyBlocks (limit : Nat) : Table → List (List Representation) → Option (List (List Field))
  | _, [] => some []
  | t, block :: blocks =>
    match applyBlock limit t block with
    | none => none
    | some (fields, t') => (applyBlocks limit t' blocks).map fun later => fields :: later

-- ----
-- The wire (§5, §6)

/-- §5.1, behind the prefix. -/
def continuation (n : Nat) : Octets :=
  if n < 128 then [UInt8.ofNat n] else UInt8.ofNat (n % 128 + 128) :: continuation (n / 128)
  termination_by n
  decreasing_by omega

/-- §5.1: an integer in the low bits of an octet whose high ones are taken. -/
def encodeInteger (bits high n : Nat) : Octets :=
  if n < 2 ^ bits - 1 then [UInt8.ofNat (high + n)]
  else UInt8.ofNat (high + (2 ^ bits - 1)) :: continuation (n - (2 ^ bits - 1))

/-- §5.1: what the octets behind a prefix stand for, as far as they go. -/
def octetsValue (m : Nat) : Octets → Nat
  | [] => 0
  | b :: rest => b.toNat % 128 * 2 ^ m + if b.toNat < 128 then 0 else octetsValue (m + 7) rest

/-- How many octets these are. -/
def octetsCount : Octets → Nat
  | [] => 0
  | b :: rest => if b.toNat < 128 then 1 else octetsCount rest + 1

def octetsComplete : Octets → Bool
  | [] => false
  | b :: rest => decide (b.toNat < 128) || octetsComplete rest

theorem octetsCount_le (rest : Octets) : octetsCount rest ≤ rest.length := by
  induction rest with
  | nil => exact Nat.le_refl _
  | cons b rest ih =>
    rw [octetsCount, length_cons]
    split <;> omega

theorem octetsCount_incomplete {rest : Octets} (h : octetsComplete rest = false) :
    octetsCount rest = rest.length := by
  induction rest with
  | nil => rfl
  | cons b rest ih =>
    rw [octetsComplete, Bool.or_eq_false_iff, decide_eq_false_iff_not] at h
    rw [octetsCount, if_neg h.1, ih h.2, length_cons]

theorem dvd_octetsValue (m : Nat) (rest : Octets) : 2 ^ m ∣ octetsValue m rest := by
  induction rest generalizing m with
  | nil => exact Nat.dvd_zero _
  | cons b rest ih =>
    rw [octetsValue]
    apply Nat.dvd_add (Nat.dvd_mul_left _ _)
    split
    · exact Nat.dvd_zero _
    · exact (Nat.pow_dvd_pow 2 (Nat.le_add_right m 7)).trans (ih (m + 7))

/-- The integer that begins here, of any size. -/
def integerValue (bits : Nat) : Octets → Nat
  | [] => 0
  | b :: rest =>
    if b.toNat % 2 ^ bits < 2 ^ bits - 1 then b.toNat % 2 ^ bits
    else b.toNat % 2 ^ bits + octetsValue 0 rest

def integerCount (bits : Nat) : Octets → Nat
  | [] => 0
  | b :: rest => if b.toNat % 2 ^ bits < 2 ^ bits - 1 then 1 else octetsCount rest + 1

def integerComplete (bits : Nat) : Octets → Bool
  | [] => false
  | b :: rest => decide (b.toNat % 2 ^ bits < 2 ^ bits - 1) || octetsComplete rest

/-- An integer ends inside the octets. -/
theorem integerCount_le (bits : Nat) (data : Octets) : integerCount bits data ≤ data.length := by
  rcases data with _ | ⟨b, rest⟩
  · exact Nat.le_refl _
  · have := octetsCount_le rest
    rw [integerCount, length_cons]
    split <;> omega

theorem integerCount_incomplete {bits : Nat} {data : Octets}
    (h : integerComplete bits data = false) :
    integerCount bits data = data.length := by
  rcases data with _ | ⟨b, rest⟩
  · rfl
  · rw [integerComplete, Bool.or_eq_false_iff, decide_eq_false_iff_not] at h
    rw [integerCount, if_neg h.1, octetsCount_incomplete h.2, length_cons]

/-- §5.2. -/
def StringLiteral.bytes : StringLiteral → Octets
  | .raw octets => encodeInteger 7 0 octets.length ++ octets
  | .huffman _ data _ => encodeInteger 7 128 data.length ++ data

/-- §6.2: how many bits are left for the index, and what stands before them. -/
def Indexing.bits : Indexing → Nat
  | .incremental => 6
  | .without => 4
  | .never => 4

def Indexing.high : Indexing → Nat
  | .incremental => 0x40
  | .without => 0x00
  | .never => 0x10

def Name.bytes (indexing : Indexing) : Name → Octets
  | .indexed index => encodeInteger indexing.bits indexing.high index
  | .literal name => encodeInteger indexing.bits indexing.high 0 ++ name.bytes

def Representation.bytes : Representation → Octets
  | .indexed index => encodeInteger 7 0x80 index
  | .literal indexing name value => name.bytes indexing ++ value.bytes
  | .sizeUpdate maxSize => encodeInteger 5 0x20 maxSize

def blockBytes (block : List Representation) : Octets := block.flatMap Representation.bytes

end Anywhere.Lib.Hpack
