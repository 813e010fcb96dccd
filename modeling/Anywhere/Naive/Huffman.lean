import Anywhere.Config
import Anywhere.Lib.Hpack
import Anywhere.Lib.PrefixCode
import Mathlib.Data.List.Nodup
import Mathlib.Data.List.Perm.Subperm

/-!
# Anywhere — `HpackHuffman`

The tree that the Huffman coded strings of a header block are read with. It is built from a table
of codes; that these are the codes of RFC 7541 is checked symbol by symbol.
-/

namespace Anywhere.Naive

open Lib List

namespace HpackHuffman

/-- A node with what its `left` and `right` point to; `none` where they are -1. -/
inductive Node where
  | none
  | node (left right : Node) (symbol : Option Nat)
  deriving DecidableEq, Repr

def Node.left : Node → Node
  | .none => .none
  | .node left _ _ => left

def Node.right : Node → Node
  | .none => .none
  | .node _ right _ => right

def Node.symbol : Node → Option Nat
  | .none => Option.none
  | .node _ _ symbol => symbol

/-- The way along the bits of a code, with the nodes that are missing, and `symbol` at its end. -/
def Node.insert (sym : Nat) : Node → List Bool → Node
  | t, [] => .node t.left t.right (some sym)
  | t, false :: bits => .node (t.left.insert sym bits) t.right t.symbol
  | t, true :: bits => .node t.left (t.right.insert sym bits) t.symbol

def huffmanTable : List (Nat × Nat) :=
  [(0xffc00000, 13), (0xffffb000, 23), (0xfffffe20, 28), (0xfffffe30, 28), (0xfffffe40, 28),
    (0xfffffe50, 28), (0xfffffe60, 28), (0xfffffe70, 28), (0xfffffe80, 28), (0xffffea00, 24),
    (0xfffffff0, 30), (0xfffffe90, 28), (0xfffffea0, 28), (0xfffffff4, 30), (0xfffffeb0, 28),
    (0xfffffec0, 28), (0xfffffed0, 28), (0xfffffee0, 28), (0xfffffef0, 28), (0xffffff00, 28),
    (0xffffff10, 28), (0xffffff20, 28), (0xfffffff8, 30), (0xffffff30, 28), (0xffffff40, 28),
    (0xffffff50, 28), (0xffffff60, 28), (0xffffff70, 28), (0xffffff80, 28), (0xffffff90, 28),
    (0xffffffa0, 28), (0xffffffb0, 28), (0x50000000, 6), (0xfe000000, 10), (0xfe400000, 10),
    (0xffa00000, 12), (0xffc80000, 13), (0x54000000, 6), (0xf8000000, 8), (0xff400000, 11),
    (0xfe800000, 10), (0xfec00000, 10), (0xf9000000, 8), (0xff600000, 11), (0xfa000000, 8),
    (0x58000000, 6), (0x5c000000, 6), (0x60000000, 6), (0x00000000, 5), (0x08000000, 5),
    (0x10000000, 5), (0x64000000, 6), (0x68000000, 6), (0x6c000000, 6), (0x70000000, 6),
    (0x74000000, 6), (0x78000000, 6), (0x7c000000, 6), (0xb8000000, 7), (0xfb000000, 8),
    (0xfff80000, 15), (0x80000000, 6), (0xffb00000, 12), (0xff000000, 10), (0xffd00000, 13),
    (0x84000000, 6), (0xba000000, 7), (0xbc000000, 7), (0xbe000000, 7), (0xc0000000, 7),
    (0xc2000000, 7), (0xc4000000, 7), (0xc6000000, 7), (0xc8000000, 7), (0xca000000, 7),
    (0xcc000000, 7), (0xce000000, 7), (0xd0000000, 7), (0xd2000000, 7), (0xd4000000, 7),
    (0xd6000000, 7), (0xd8000000, 7), (0xda000000, 7), (0xdc000000, 7), (0xde000000, 7),
    (0xe0000000, 7), (0xe2000000, 7), (0xe4000000, 7), (0xfc000000, 8), (0xe6000000, 7),
    (0xfd000000, 8), (0xffd80000, 13), (0xfffe0000, 19), (0xffe00000, 13), (0xfff00000, 14),
    (0x88000000, 6), (0xfffa0000, 15), (0x18000000, 5), (0x8c000000, 6), (0x20000000, 5),
    (0x90000000, 6), (0x28000000, 5), (0x94000000, 6), (0x98000000, 6), (0x9c000000, 6),
    (0x30000000, 5), (0xe8000000, 7), (0xea000000, 7), (0xa0000000, 6), (0xa4000000, 6),
    (0xa8000000, 6), (0x38000000, 5), (0xac000000, 6), (0xec000000, 7), (0xb0000000, 6),
    (0x40000000, 5), (0x48000000, 5), (0xb4000000, 6), (0xee000000, 7), (0xf0000000, 7),
    (0xf2000000, 7), (0xf4000000, 7), (0xf6000000, 7), (0xfffc0000, 15), (0xff800000, 11),
    (0xfff40000, 14), (0xffe80000, 13), (0xffffffc0, 28), (0xfffe6000, 20), (0xffff4800, 22),
    (0xfffe7000, 20), (0xfffe8000, 20), (0xffff4c00, 22), (0xffff5000, 22), (0xffff5400, 22),
    (0xffffb200, 23), (0xffff5800, 22), (0xffffb400, 23), (0xffffb600, 23), (0xffffb800, 23),
    (0xffffba00, 23), (0xffffbc00, 23), (0xffffeb00, 24), (0xffffbe00, 23), (0xffffec00, 24),
    (0xffffed00, 24), (0xffff5c00, 22), (0xffffc000, 23), (0xffffee00, 24), (0xffffc200, 23),
    (0xffffc400, 23), (0xffffc600, 23), (0xffffc800, 23), (0xfffee000, 21), (0xffff6000, 22),
    (0xffffca00, 23), (0xffff6400, 22), (0xffffcc00, 23), (0xffffce00, 23), (0xffffef00, 24),
    (0xffff6800, 22), (0xfffee800, 21), (0xfffe9000, 20), (0xffff6c00, 22), (0xffff7000, 22),
    (0xffffd000, 23), (0xffffd200, 23), (0xfffef000, 21), (0xffffd400, 23), (0xffff7400, 22),
    (0xffff7800, 22), (0xfffff000, 24), (0xfffef800, 21), (0xffff7c00, 22), (0xffffd600, 23),
    (0xffffd800, 23), (0xffff0000, 21), (0xffff0800, 21), (0xffff8000, 22), (0xffff1000, 21),
    (0xffffda00, 23), (0xffff8400, 22), (0xffffdc00, 23), (0xffffde00, 23), (0xfffea000, 20),
    (0xffff8800, 22), (0xffff8c00, 22), (0xffff9000, 22), (0xffffe000, 23), (0xffff9400, 22),
    (0xffff9800, 22), (0xffffe200, 23), (0xfffff800, 26), (0xfffff840, 26), (0xfffeb000, 20),
    (0xfffe2000, 19), (0xffff9c00, 22), (0xffffe400, 23), (0xffffa000, 22), (0xfffff600, 25),
    (0xfffff880, 26), (0xfffff8c0, 26), (0xfffff900, 26), (0xfffffbc0, 27), (0xfffffbe0, 27),
    (0xfffff940, 26), (0xfffff100, 24), (0xfffff680, 25), (0xfffe4000, 19), (0xffff1800, 21),
    (0xfffff980, 26), (0xfffffc00, 27), (0xfffffc20, 27), (0xfffff9c0, 26), (0xfffffc40, 27),
    (0xfffff200, 24), (0xffff2000, 21), (0xffff2800, 21), (0xfffffa00, 26), (0xfffffa40, 26),
    (0xffffffd0, 28), (0xfffffc60, 27), (0xfffffc80, 27), (0xfffffca0, 27), (0xfffec000, 20),
    (0xfffff300, 24), (0xfffed000, 20), (0xffff3000, 21), (0xffffa400, 22), (0xffff3800, 21),
    (0xffff4000, 21), (0xffffe600, 23), (0xffffa800, 22), (0xffffac00, 22), (0xfffff700, 25),
    (0xfffff780, 25), (0xfffff400, 24), (0xfffff500, 24), (0xfffffa80, 26), (0xffffe800, 23),
    (0xfffffac0, 26), (0xfffffcc0, 27), (0xfffffb00, 26), (0xfffffb40, 26), (0xfffffce0, 27),
    (0xfffffd00, 27), (0xfffffd20, 27), (0xfffffd40, 27), (0xfffffd60, 27), (0xffffffe0, 28),
    (0xfffffd80, 27), (0xfffffda0, 27), (0xfffffdc0, 27), (0xfffffde0, 27), (0xfffffe00, 27),
    (0xfffffb80, 26), (0xfffffffc, 30)]

def codeBits (entry : Nat × Nat) : List Bool :=
  (List.range entry.2).map fun bitPos => entry.1.testBit (31 - bitPos)

def buildTree : Node :=
  huffmanTable.zipIdx.foldl (fun nodes p => nodes.insert p.2 (codeBits p.1))
    (.node .none .none Option.none)

/-- The bits `decode` looks at, in its order. -/
def dataBits (data : Bytes) : List Bool :=
  data.flatMap fun byte => (List.range 8).map fun i => byte.toNat.testBit (7 - i)

def decodeBits (tree : Node) : Node → List Bool → Bytes → Option Bytes
  | _, [], result => some result
  | node, bit :: bits, result =>
    match if bit = false then node.left else node.right with
    | .none => Option.none
    | .node left right symbol =>
      match symbol with
      | Option.none => decodeBits tree (.node left right Option.none) bits result
      | some sym =>
        if sym = 256 then some result else decodeBits tree tree bits (result ++ [UInt8.ofNat sym])

def decode (data : Bytes) : Option Bytes := decodeBits buildTree buildTree (dataBits data) []

-- ----
-- Ways in the tree

/-- The bits lead from a node to `sym`, past no other symbol. -/
def Node.leads (sym : Nat) : Node → List Bool → Bool
  | _, [] => false
  | t, bit :: bits =>
    match if bit = false then t.left else t.right with
    | .none => false
    | .node left right symbol =>
      match symbol with
      | Option.none => Node.leads sym (.node left right Option.none) bits
      | some found => found == sym && bits.isEmpty

theorem decodeBits_leads {tree t : Node} {octet : UInt8} {code : List Bool}
    (h : Node.leads octet.toNat t code = true) (rest : List Bool) (result : Bytes) :
    decodeBits tree t (code ++ rest) result = decodeBits tree tree rest (result ++ [octet]) := by
  induction code generalizing t with
  | nil => exact absurd h Bool.false_ne_true
  | cons bit code ih =>
    rw [cons_append, decodeBits]
    rw [Node.leads] at h
    rcases hnext : (if bit = false then t.left else t.right) with _ | ⟨left, right, symbol⟩
    · rw [hnext] at h
      exact absurd h Bool.false_ne_true
    · rw [hnext] at h
      rcases symbol with _ | sym
      · exact ih h
      · rw [Bool.and_eq_true, beq_iff_eq, List.isEmpty_iff] at h
        obtain ⟨rfl, rfl⟩ := h
        have := octet.toNat_lt
        dsimp only
        rw [if_neg (by omega), nil_append, UInt8.ofNat_toNat]

/-- No symbol on the way along so many ones. -/
def Node.quiet : Nat → Node → Bool
  | 0, _ => true
  | n + 1, t => t.right != .none && t.right.symbol == Option.none && Node.quiet n t.right

theorem decodeBits_ones {tree t : Node} {n : Nat} (h : Node.quiet n t = true) (result : Bytes) :
    decodeBits tree t (List.replicate n true) result = some result := by
  induction n generalizing t with
  | zero => rfl
  | succ n ih =>
    rw [Node.quiet, Bool.and_eq_true, Bool.and_eq_true, bne_iff_ne, beq_iff_eq] at h
    obtain ⟨⟨hpresent, hsilent⟩, hrest⟩ := h
    rw [replicate_succ, decodeBits, if_neg (by decide)]
    rcases hright : t.right with _ | ⟨left, right, symbol⟩
    · exact absurd hright hpresent
    · rw [hright] at hsilent hrest
      obtain rfl : symbol = Option.none := hsilent
      exact ih hrest

/-- The symbols below a node, each with the way to it, behind the way to the node. -/
def Node.words (path : List Bool) : Node → List (Nat × List Bool)
  | .none => []
  | .node _ _ (some sym) => [(sym, path)]
  | .node left right Option.none => left.words (path ++ [false]) ++ right.words (path ++ [true])

/-- Every way ends at a symbol. -/
def Node.full : Node → Bool
  | .none => false
  | .node _ _ (some _) => true
  | .node left right Option.none => left.full && right.full

def Node.height : Node → Nat
  | .none => 0
  | .node left right _ => max left.height right.height + 1

theorem mem_words_of_leads {t : Node} {path w : List Bool} {sym : Nat}
    (hroot : t.symbol = Option.none) (hleads : Node.leads sym t w = true) :
    (sym, path ++ w) ∈ t.words path := by
  induction w generalizing t path with
  | nil => exact absurd hleads Bool.false_ne_true
  | cons bit w ih =>
    rcases t with _ | ⟨left, right, symbol⟩
    · rw [Node.leads, Node.left, Node.right, ite_self] at hleads
      exact absurd hleads Bool.false_ne_true
    · obtain rfl : symbol = Option.none := hroot
      rw [Node.leads, Node.left, Node.right] at hleads
      have hbelow : (sym, path ++ [bit] ++ w) ∈ (if bit = false then left else right).words
          (path ++ [bit]) := by
        rcases hnode : (if bit = false then left else right) with _ | ⟨left', right', symbol'⟩
        · rw [hnode] at hleads
          exact absurd hleads Bool.false_ne_true
        · rw [hnode] at hleads
          rcases symbol' with _ | found
          · exact ih rfl hleads
          · rw [Bool.and_eq_true, beq_iff_eq, List.isEmpty_iff] at hleads
            obtain ⟨rfl, rfl⟩ := hleads
            rw [append_nil]
            exact mem_singleton.mpr rfl
      rw [← append_cons] at hbelow
      rw [Node.words, mem_append]
      cases bit with
      | false => exact Or.inl hbelow
      | true => exact Or.inr hbelow

theorem exists_word {t : Node} {path : List Bool} (h : t.full = true) (bits : List Bool)
    (hlength : t.height ≤ bits.length + 1) : ∃ p ∈ t.words path, p.2 <+: path ++ bits := by
  induction t generalizing path bits with
  | none => exact absurd h Bool.false_ne_true
  | node left right symbol ihleft ihright =>
    rcases symbol with _ | sym
    · rw [Node.full, Bool.and_eq_true] at h
      rw [Node.height] at hlength
      rw [Node.words]
      rcases bits with _ | ⟨bit, bits⟩
      · have hleft : left.height ≠ 0 := by
          rcases left with _ | ⟨l, r, s⟩
          · exact absurd h.1 Bool.false_ne_true
          · exact Nat.succ_ne_zero _
        rw [length_nil] at hlength
        omega
      · rw [length_cons] at hlength
        cases bit with
        | false =>
          obtain ⟨p, hp, hword⟩ := ihleft h.1 bits (by omega)
          rw [← append_cons] at hword
          exact ⟨p, mem_append_left _ hp, hword⟩
        | true =>
          obtain ⟨p, hp, hword⟩ := ihright h.2 bits (by omega)
          rw [← append_cons] at hword
          exact ⟨p, mem_append_right _ hp, hword⟩
    · exact ⟨(sym, path), mem_singleton.mpr rfl, prefix_append _ _⟩

theorem leads_unique {t : Node} {s s' : Nat} {w more : List Bool} (h : Node.leads s t w = true)
    (h' : Node.leads s' t (w ++ more) = true) : s = s' ∧ more = [] := by
  induction w generalizing t with
  | nil => exact absurd h Bool.false_ne_true
  | cons bit w ih =>
    rw [cons_append, Node.leads] at h'
    rw [Node.leads] at h
    rcases hnext : (if bit = false then t.left else t.right) with _ | ⟨left, right, symbol⟩
    · rw [hnext] at h
      exact absurd h Bool.false_ne_true
    · rw [hnext] at h h'
      rcases symbol with _ | found
      · exact ih h h'
      · rw [Bool.and_eq_true, beq_iff_eq, List.isEmpty_iff] at h h'
        exact ⟨h.1.symm.trans h'.1, (append_eq_nil_iff.mp h'.2).2⟩

-- ----
-- The code of `HUFFMAN_TABLE`

def codes : Code Nat Bool := huffmanTable.zipIdx.map fun p => (p.2, codeBits p.1)

def codeOf (sym : Nat) : List Bool := codeBits (huffmanTable.getD sym (0, 0))

def encode (octets : Bytes) : Bytes := pack (octets.flatMap fun o => codeOf o.toNat)

/-- The entries by their lengths, and those of one length by their symbols. -/
def canonicalEntries : List ((Nat × Nat) × Nat) :=
  (List.range 33).flatMap fun l => huffmanTable.zipIdx.filter fun p => p.1.2 == l

/-- Each word begins where the one before it ends. -/
def adjoining (start : Nat) : List ((Nat × Nat) × Nat) → Bool
  | [] => true
  | p :: rest => p.1.1 == start && adjoining (start + 2 ^ (32 - p.1.2)) rest

/-- What is computed of the table and of its tree. -/
theorem huffmanTable_computed :
    (huffmanTable.map Prod.snd = Hpack.huffmanLengths ∧ adjoining 0 canonicalEntries = true ∧
      huffmanTable.length = 257 ∧ codeOf 256 = List.replicate 30 true) ∧
    ((codes.all fun p => Node.leads p.1 buildTree p.2) = true ∧ (buildTree.words []).length = 257 ∧
      buildTree.symbol = Option.none ∧ buildTree.full = true ∧ buildTree.height = 31 ∧
      ∀ n < 8, Node.quiet n buildTree = true) := by
  decide +kernel

theorem length_huffmanTable : huffmanTable.length = 257 := huffmanTable_computed.1.2.2.1

theorem codeOf_eos : codeOf 256 = List.replicate 30 true := huffmanTable_computed.1.2.2.2

theorem mem_codes {p : Nat × List Bool} : p ∈ codes ↔ p.1 < 257 ∧ p.2 = codeOf p.1 := by
  have hcodeOf : ∀ sym entry, huffmanTable[sym]? = some entry → codeOf sym = codeBits entry := by
    intro sym entry h
    rw [codeOf, List.getD_eq_getElem?_getD, h, Option.getD_some]
  rw [codes, mem_map]
  constructor
  · rintro ⟨⟨entry, sym⟩, hmem, rfl⟩
    have hentry := List.mem_zipIdx_iff_getElem?.mp hmem
    refine ⟨?_, (hcodeOf sym entry hentry).symm⟩
    rw [← length_huffmanTable]
    exact (List.getElem?_eq_some_iff.mp hentry).1
  · rintro ⟨hlt, hword⟩
    rw [← length_huffmanTable] at hlt
    have hentry := List.getElem?_eq_getElem hlt
    refine ⟨(huffmanTable[p.1], p.1), List.mem_zipIdx_iff_getElem?.mpr hentry, ?_⟩
    rw [← hcodeOf p.1 _ hentry, ← hword]

theorem assign_of_adjoining {start : Nat} {entries : List ((Nat × Nat) × Nat)}
    (h : adjoining start entries = true) :
    Hpack.assign start (entries.map fun p => (p.1.2, p.2)) = entries.map fun p =>
      (p.2, codeBits p.1) := by
  induction entries generalizing start with
  | nil => rfl
  | cons p entries ih =>
    rw [adjoining, Bool.and_eq_true, beq_iff_eq] at h
    obtain ⟨rfl, hrest⟩ := h
    rw [map_cons, map_cons, Hpack.assign, ih hrest]
    rfl

/-- The table is Appendix B. -/
theorem codeOf_eq {sym : Nat} (h : sym < 257) : codeOf sym = Hpack.huffmanCode sym := by
  have horder : Hpack.canonicalOrder Hpack.huffmanLengths = canonicalEntries.map fun p =>
      (p.1.2, p.2) := by
    rw [← huffmanTable_computed.1.1, Hpack.canonicalOrder, canonicalEntries,
      map_flatMap, zipIdx_map]
    apply flatMap_congr
    intro l _
    rw [filter_map]
    rfl
  have hmem := Hpack.huffmanCode_mem h
  rw [Hpack.huffmanCodes, horder, assign_of_adjoining huffmanTable_computed.1.2.1, mem_map] at hmem
  obtain ⟨p, hp, heq⟩ := hmem
  rw [canonicalEntries, mem_flatMap] at hp
  obtain ⟨l, -, hp⟩ := hp
  have hcode : (p.2, codeBits p.1) ∈ codes := mem_map.mpr ⟨p, (mem_filter.mp hp).1, rfl⟩
  rw [heq] at hcode
  obtain ⟨-, hword⟩ := mem_codes.1 hcode
  exact hword.symm

/-- The codes lead to their symbols. -/
theorem leads_of_mem {p : Nat × List Bool} (h : p ∈ codes) : Node.leads p.1 buildTree p.2 = true :=
  all_eq_true.mp huffmanTable_computed.2.1 p h

/-- The words of the table are all the ways there are: they are as many. -/
theorem words_perm_codes : (buildTree.words []).Perm codes := by
  obtain ⟨-, hcount, hroot, -⟩ := huffmanTable_computed.2
  have hnodup : codes.Nodup := by
    apply List.Nodup.of_map Prod.fst
    have hsymbols : codes.map Prod.fst = List.range' 0 huffmanTable.length := by
      rw [codes, map_map]
      exact List.zipIdx_map_snd 0 huffmanTable
    rw [hsymbols]
    exact List.nodup_range'
  have hsubset : codes ⊆ buildTree.words [] := by
    intro p hp
    exact mem_words_of_leads hroot (leads_of_mem hp)
  have hlength : codes.length = 257 := by
    rw [codes, length_map, List.length_zipIdx, length_huffmanTable]
  exact ((List.subperm_of_subset hnodup hsubset).perm_of_length_le (by omega)).symm

/-- **No word of the table stands in front of another.** -/
theorem prefixFree_codes : codes.PrefixFree := by
  intro p hp q hq hprefix
  obtain ⟨more, hmore⟩ := hprefix
  have hleads := leads_of_mem hq
  rw [← hmore] at hleads
  obtain ⟨hsym, rfl⟩ := leads_unique (leads_of_mem hp) hleads
  rw [append_nil] at hmore
  exact Prod.ext hsym hmore

/-- **Every text of thirty bits begins with a word.** -/
theorem completeFrom_codes : codes.CompleteFrom 30 := by
  obtain ⟨-, -, -, hfull, hheight, -⟩ := huffmanTable_computed.2
  intro bits hlength
  obtain ⟨p, hp, hword⟩ := @exists_word buildTree [] hfull bits (by omega)
  exact ⟨p, words_perm_codes.mem_iff.mp hp, hword⟩

-- ----
-- Coded strings

theorem decodeBits_codes (octets : Bytes) (rest : List Bool) (result : Bytes) :
    decodeBits buildTree buildTree ((octets.flatMap fun o => codeOf o.toNat) ++ rest) result =
      decodeBits buildTree buildTree rest (result ++ octets) := by
  induction octets generalizing result with
  | nil => rw [flatMap_nil, nil_append, append_nil]
  | cons octet octets ih =>
    have hmem : (octet.toNat, codeOf octet.toNat) ∈ codes :=
      mem_codes.2 ⟨Nat.lt_trans octet.toNat_lt (by decide), rfl⟩
    rw [flatMap_cons, append_assoc, decodeBits_leads (leads_of_mem hmem), ih, append_assoc]
    rfl

theorem flatMap_codeOf (octets : Bytes) :
    (octets.flatMap fun o => codeOf o.toNat) = octets.flatMap fun o =>
      Hpack.huffmanCode o.toNat := by
  apply flatMap_congr
  intro o _
  exact codeOf_eq (Nat.lt_trans o.toNat_lt (by decide))

/-- **A coded string, with its padding.** -/
theorem decode_coded {octets data : Bytes} (h : Hpack.HuffmanCoded octets data) :
    decode data = some octets := by
  obtain ⟨padding, hpadding, hbits⟩ := h
  have hdata : dataBits data = data.flatMap Hpack.bitsOf := rfl
  have hquiet := huffmanTable_computed.2.2.2.2.2.2 padding hpadding
  rw [decode, hdata, hbits, ← flatMap_codeOf, decodeBits_codes, decodeBits_ones hquiet, nil_append]

theorem coded_encode (octets : Bytes) : Hpack.HuffmanCoded octets (encode octets) := by
  obtain ⟨padding, hpadding, hbits⟩ := exists_bits_pack (octets.flatMap fun o => codeOf o.toNat)
  rw [← encode, flatMap_codeOf] at hbits
  exact ⟨padding, hpadding, hbits⟩

end HpackHuffman

end Anywhere.Naive
