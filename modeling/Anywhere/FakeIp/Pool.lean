import Mathlib.Data.List.AList
import Anywhere.FakeIp.Address
import Anywhere.Lib.Linked
import Anywhere.Lib.Machine

/-!
# Anywhere — `FakeIpPool`

The pool keeps three hash maps and a doubly linked list in step. Over it stands
what it is for: a list of domains with their offsets, the domain touched last
first. `Keeps` connects the two, and every operation of the pool is an operation
of that list.

* `Slots` — the abstract pool.
* `pool_invariant` — what holds of the maps and the list after every run.
-/

namespace Anywhere.FakeIp

open Lib List

-- ----
-- The model

abbrev HashMap (κ ν : Type) := AList (fun _ : κ => ν)

/-- `FakeIpPool.Entry`. -/
structure Entry where
  domain : Text

/-- `FakeIpPool`. Node objects are numbered in the order they are created. -/
structure FakeIpPool where
  domainToOffset : HashMap Text Nat := ∅
  offsetToEntry : HashMap Nat Entry := ∅
  offsetToNode : HashMap Nat Ref := ∅
  lru : Linked Nat := { heap := fun _ => ⟨0, none, none⟩ }
  created : Ref := 0
  nextOffset : Nat := 1

namespace FakeIpPool

def touchLru (s : FakeIpPool) (offset : Nat) : FakeIpPool :=
  match s.offsetToNode.lookup offset with
  | none => s
  | some node => { s with lru := (s.lru.removeNode node).insertAtHead node }

def appendLru (s : FakeIpPool) (offset : Nat) : FakeIpPool :=
  let node := s.created
  { s with
    created := s.created + 1
    offsetToNode := s.offsetToNode.insert offset node
    lru := Linked.insertAtHead
      { s.lru with heap := Function.update s.lru.heap node ⟨offset, none, none⟩ } node }

/-- `evictLru`; on an empty list it falls back to offset 1. -/
def evictLru (s : FakeIpPool) : FakeIpPool × Nat :=
  match s.lru.tail with
  | none => (s, 1)
  | some tail =>
    let offset := (s.lru.heap tail).value
    ({ s with
        lru := s.lru.removeNode tail
        offsetToNode := s.offsetToNode.erase offset
        offsetToEntry := s.offsetToEntry.erase offset
        domainToOffset :=
          match s.offsetToEntry.lookup offset with
          | some entry => s.domainToOffset.erase entry.domain
          | none => s.domainToOffset }, offset)

/-- The end of `allocate`, with the offset it has chosen. -/
def assign (s : FakeIpPool) (domain : Text) (offset : Nat) : FakeIpPool :=
  appendLru
    { s with
      domainToOffset := s.domainToOffset.insert domain offset
      offsetToEntry := s.offsetToEntry.insert offset ⟨domain⟩ } offset

def allocate (s : FakeIpPool) (domain : Text) : FakeIpPool × Nat :=
  match s.domainToOffset.lookup domain with
  | some offset => (s.touchLru offset, offset)
  | none =>
    if s.nextOffset ≤ poolSize then
      (assign { s with nextOffset := s.nextOffset + 1 } domain s.nextOffset, s.nextOffset)
    else
      let evicted := s.evictLru
      (assign evicted.1 domain evicted.2, evicted.2)

def lookup (s : FakeIpPool) (ip : Text) : FakeIpPool × Option Entry :=
  match ipToOffset ip with
  | none => (s, none)
  | some offset =>
    match s.offsetToEntry.lookup offset with
    | none => (s, none)
    | some entry => (s.touchLru offset, some entry)

/-- `reset`; the node objects stay what they are. -/
def reset (s : FakeIpPool) : FakeIpPool :=
  { s with
    domainToOffset := ∅
    offsetToEntry := ∅
    offsetToNode := ∅
    lru := { s.lru with head := none, tail := none }
    nextOffset := 1 }

def count (s : FakeIpPool) : Nat := s.domainToOffset.keys.length

end FakeIpPool

inductive Op where
  | allocate (domain : Text)
  | lookup (ip : Text)
  | reset
  deriving DecidableEq, Repr

def step (s : FakeIpPool) : Op → FakeIpPool
  | .allocate domain => (s.allocate domain).1
  | .lookup ip => (s.lookup ip).1
  | .reset => s.reset

-- ----
-- What the pool is for

/-- Domains with their offsets, the one touched last first, and the next offset
that was never used. -/
structure Slots where
  order : List (Text × Nat) := []
  next : Nat := 1

namespace Slots

def touch (t : Slots) (p : Text × Nat) : Slots := { t with order := p :: t.order.erase p }

/-- The domain's own slot, a new one, or the one of the domain touched least
recently. -/
def allocate (t : Slots) (domain : Text) : Slots × Nat :=
  match t.order.find? (·.1 == domain) with
  | some p => (t.touch p, p.2)
  | none =>
    if t.next ≤ poolSize then
      (⟨(domain, t.next) :: t.order, t.next + 1⟩, t.next)
    else
      match t.order.getLast? with
      | some p => ({ t with order := (domain, p.2) :: t.order.dropLast }, p.2)
      | none => ({ t with order := [(domain, 1)] }, 1)

def lookup (t : Slots) (offset : Nat) : Slots × Option Text :=
  match t.order.find? (·.2 == offset) with
  | some p => (t.touch p, some p.1)
  | none => (t, none)

/-- Every domain has one slot, and the slots are the offsets used so far. -/
structure Valid (t : Slots) : Prop where
  domains : (t.order.map Prod.fst).Nodup
  offsets : (t.order.map Prod.snd).Perm (List.range' 1 (t.next - 1))
  next_pos : 1 ≤ t.next
  next_le : t.next ≤ poolSize + 1

end Slots

-- ----
-- The connection

/-- The maps and the list hold these slots, on these nodes. -/
structure Tables (s : FakeIpPool) (ns : List Ref) (order : List (Text × Nat)) : Prop where
  represents : s.lru.Represents ns
  values : ns.map (fun n => (s.lru.heap n).value) = order.map Prod.snd
  created : ∀ n ∈ ns, n < s.created
  domains : ∀ d o, s.domainToOffset.lookup d = some o ↔ (d, o) ∈ order
  entries : ∀ d o, s.offsetToEntry.lookup o = some ⟨d⟩ ↔ (d, o) ∈ order
  nodes : ∀ o n, s.offsetToNode.lookup o = some n ↔ n ∈ ns ∧ (s.lru.heap n).value = o
  domains_nodup : (order.map Prod.fst).Nodup
  offsets_nodup : (order.map Prod.snd).Nodup

variable {d : Text} {o : Nat}

section Tables

variable {s : FakeIpPool} {ns : List Ref} {order : List (Text × Nat)}

theorem tables_empty : Tables {} [] [] := by
  refine ⟨⟨nodup_nil, rfl, rfl, trivial⟩, rfl, ?_, ?_, ?_, ?_, nodup_nil, nodup_nil⟩
  · simp
  · simp
  · simp
  · simp

/-- The node of a slot stands where the slot stands. -/
theorem Tables.split (h : Tables s ns order) {l r : List (Text × Nat)}
    (horder : order = l ++ (d, o) :: r) :
    ∃ a n b, ns = a ++ n :: b ∧ s.offsetToNode.lookup o = some n ∧ (s.lru.heap n).value = o ∧
      a.map (fun n => (s.lru.heap n).value) = l.map Prod.snd ∧
      b.map (fun n => (s.lru.heap n).value) = r.map Prod.snd := by
  have hvalues := h.values
  rw [horder, map_append, map_cons] at hvalues
  obtain ⟨a, rest, rfl, ha, hrest⟩ := map_eq_append_iff.mp hvalues
  obtain ⟨n, b, rfl, hn, hb⟩ := map_eq_cons_iff.mp hrest
  exact ⟨a, n, b, rfl, (h.nodes o n).mpr ⟨by simp, hn⟩, hn, ha, hb⟩

/-- `touchLru` of a slot's offset moves the slot to the front. -/
theorem Tables.touchLru (h : Tables s ns order) (hmem : (d, o) ∈ order) :
    ∃ ns', Tables (s.touchLru o) ns' ((d, o) :: order.erase (d, o)) := by
  obtain ⟨l, r, horder⟩ := append_of_mem hmem
  obtain ⟨a, n, b, rfl, hnode, hvalue, ha, hb⟩ := h.split horder
  have hnodup : order.Nodup := List.Nodup.of_map Prod.fst h.domains_nodup
  have hl : (d, o) ∉ l := by
    rw [horder] at hnodup
    exact fun hin => (nodup_append.mp hnodup).2.2 _ hin _ (by simp) rfl
  have herase : order.erase (d, o) = l ++ r := by
    rw [horder, erase_append_right _ hl, erase_cons_head]
  have hperm : order.Perm ((d, o) :: (l ++ r)) := by
    rw [horder]
    exact perm_middle
  have hnsperm : (a ++ n :: b).Perm (n :: (a ++ b)) := perm_middle
  have hn : n ∉ a ++ b := (nodup_cons.mp (hnsperm.nodup_iff.mp h.represents.nodup)).1
  have hheap : ∀ m, (((s.lru.removeNode n).insertAtHead n).heap m).value =
      (s.lru.heap m).value := by
    simp
  refine ⟨n :: (a ++ b), ?_⟩
  rw [FakeIpPool.touchLru, hnode, herase]
  refine ⟨?_, ?_, ?_, ?_, ?_, ?_, ?_, ?_⟩
  · exact Linked.insertAtHead_represents (Linked.removeNode_represents h.represents) hn
  · simp only [hheap, map_cons, map_append, ha, hb, hvalue]
  · exact fun m hm => h.created m (hnsperm.mem_iff.mpr hm)
  · exact fun d' o' => (h.domains d' o').trans hperm.mem_iff
  · exact fun d' o' => (h.entries d' o').trans hperm.mem_iff
  · intro o' m
    rw [hheap]
    exact (h.nodes o' m).trans (and_congr_left fun _ => hnsperm.mem_iff)
  · exact (hperm.map Prod.fst).nodup_iff.mp h.domains_nodup
  · exact (hperm.map Prod.snd).nodup_iff.mp h.offsets_nodup

/-- `evictLru` takes the last slot. -/
theorem Tables.evictLru (h : Tables s ns (order ++ [(d, o)])) :
    s.evictLru.2 = o ∧ s.evictLru.1.nextOffset = s.nextOffset ∧
      ∃ ns', Tables s.evictLru.1 ns' order := by
  obtain ⟨a, n, b, rfl, hnode, hvalue, ha, hb⟩ := h.split (l := order) (r := []) rfl
  have hbnil : b = [] := by simpa using hb
  subst hbnil
  have htail : s.lru.tail = some n := by
    rw [h.represents.tail]
    simp
  have hentry : s.offsetToEntry.lookup o = some ⟨d⟩ := (h.entries d o).mpr (by simp)
  -- no other slot has this domain or this offset
  have hdom : ∀ d' o', (d', o') ∈ order → d' ≠ d := by
    intro d' o' hmem he
    have := h.domains_nodup
    rw [map_append, nodup_append] at this
    exact this.2.2 d' (mem_map.mpr ⟨_, hmem, rfl⟩) d (by simp) he
  have hoff : ∀ d' o', (d', o') ∈ order → o' ≠ o := by
    intro d' o' hmem he
    have := h.offsets_nodup
    rw [map_append, nodup_append] at this
    exact this.2.2 o' (mem_map.mpr ⟨_, hmem, rfl⟩) o (by simp) he
  have hmemiff : ∀ d' o', (d', o') ∈ order ++ [(d, o)] ↔ (d', o') ∈ order ∨ (d' = d ∧ o' = o) := by
    simp
  have hna : n ∉ a := fun hin =>
    (nodup_append.mp h.represents.nodup).2.2 n hin n (by simp) rfl
  unfold FakeIpPool.evictLru
  rw [htail]
  dsimp only
  rw [hvalue, hentry]
  refine ⟨rfl, rfl, a, ?_, ?_, ?_, ?_, ?_, ?_, ?_, ?_⟩
  · have := Linked.removeNode_represents (l := a) (r := []) h.represents
    rwa [append_nil] at this
  · simpa using ha
  · exact fun m hm => h.created m (by simp [hm])
  · intro d' o'
    by_cases hd : d' = d
    · subst hd
      rw [AList.lookup_erase]
      exact ⟨fun h' => (by cases h'), fun hmem => absurd rfl (hdom d' o' hmem)⟩
    · rw [AList.lookup_erase_ne hd, h.domains, hmemiff]
      simp [hd]
  · intro d' o'
    by_cases ho : o' = o
    · subst ho
      rw [AList.lookup_erase]
      exact ⟨fun h' => (by cases h'), fun hmem => absurd rfl (hoff d' o' hmem)⟩
    · rw [AList.lookup_erase_ne ho, h.entries, hmemiff]
      simp [ho]
  · intro o' m
    rw [Linked.removeNode_value]
    by_cases ho : o' = o
    · subst ho
      rw [AList.lookup_erase]
      refine ⟨fun h' => (by cases h'), ?_⟩
      rintro ⟨hm, hmv⟩
      -- its node would be another one with the same offset
      have : s.offsetToNode.lookup o' = some m := (h.nodes o' m).mpr ⟨by simp [hm], hmv⟩
      rw [hnode, Option.some.injEq] at this
      exact absurd (this ▸ hm) hna
    · rw [AList.lookup_erase_ne ho, h.nodes]
      constructor
      · rintro ⟨hm, hmv⟩
        rcases mem_append.mp hm with hm | hm
        · exact ⟨hm, hmv⟩
        · rw [mem_singleton.mp hm, hvalue] at hmv
          exact absurd hmv.symm ho
      · rintro ⟨hm, hmv⟩
        exact ⟨by simp [hm], hmv⟩
  · have := h.domains_nodup
    rw [map_append, nodup_append] at this
    exact this.1
  · have := h.offsets_nodup
    rw [map_append, nodup_append] at this
    exact this.1

/-- The end of `allocate` puts a new slot in front. -/
theorem Tables.assign (h : Tables s ns order)
    (hd : d ∉ order.map Prod.fst) (ho : o ∉ order.map Prod.snd) :
    ∃ ns', Tables (s.assign d o) ns' ((d, o) :: order) := by
  have hdmem : ∀ o', (d, o') ∉ order := fun o' hmem => hd (mem_map.mpr ⟨_, hmem, rfl⟩)
  have homem : ∀ d', (d', o) ∉ order := fun d' hmem => ho (mem_map.mpr ⟨_, hmem, rfl⟩)
  have hnew : s.created ∉ ns := fun hmem => Nat.lt_irrefl _ (h.created _ hmem)
  have hheap : ∀ m, (((Linked.insertAtHead
      { s.lru with heap := Function.update s.lru.heap s.created ⟨o, none, none⟩ }
      s.created).heap m).value) = if m = s.created then o else (s.lru.heap m).value := by
    intro m
    rw [Linked.insertAtHead_value]
    by_cases hm : m = s.created
    · simp [hm]
    · simp [hm]
  refine ⟨s.created :: ns, ?_, ?_, ?_, ?_, ?_, ?_, ?_, ?_⟩
  · -- the new object is in no list yet
    refine Linked.insertAtHead_represents ⟨h.represents.nodup, h.represents.head,
      h.represents.tail, Linked.seg_congr (fun m hm => ?_) h.represents.links⟩ hnew
    have hne : m ≠ s.created := fun he => hnew (he ▸ hm)
    simp [Function.update_of_ne hne]
  · show List.map (fun n => ((Linked.insertAtHead _ s.created).heap n).value) (s.created :: ns) = _
    simp only [hheap, map_cons, if_true]
    rw [← h.values]
    congr 1
    refine map_congr_left fun m hm => ?_
    have hne : m ≠ s.created := fun he => hnew (he ▸ hm)
    rw [if_neg hne]
  · intro m hm
    show m < s.created + 1
    rcases mem_cons.mp hm with rfl | hm
    · exact Nat.lt_succ_self _
    · exact Nat.lt_succ_of_lt (h.created m hm)
  · intro d' o'
    show (s.domainToOffset.insert d o).lookup d' = some o' ↔ _
    by_cases hdd : d' = d
    · subst hdd
      rw [AList.lookup_insert, Option.some.injEq, mem_cons, Prod.mk.injEq]
      simp [hdmem o', eq_comm]
    · rw [AList.lookup_insert_ne hdd, h.domains, mem_cons, Prod.mk.injEq]
      simp [hdd]
  · intro d' o'
    show (s.offsetToEntry.insert o ⟨d⟩).lookup o' = some ⟨d'⟩ ↔ _
    by_cases hoo : o' = o
    · subst hoo
      rw [AList.lookup_insert, Option.some.injEq, Entry.mk.injEq, mem_cons, Prod.mk.injEq]
      simp [homem d', eq_comm]
    · rw [AList.lookup_insert_ne hoo, h.entries, mem_cons, Prod.mk.injEq]
      simp [hoo]
  · intro o' m
    show (s.offsetToNode.insert o s.created).lookup o' = some m ↔
      m ∈ s.created :: ns ∧ ((Linked.insertAtHead _ s.created).heap m).value = o'
    rw [hheap]
    by_cases hoo : o' = o
    · subst hoo
      rw [AList.lookup_insert, Option.some.injEq, mem_cons]
      constructor
      · rintro rfl
        exact ⟨.inl rfl, if_pos rfl⟩
      · rintro ⟨rfl | hm, hmv⟩
        · rfl
        · -- the offset has no node yet
          have hne : m ≠ s.created := fun he => hnew (he ▸ hm)
          rw [if_neg hne] at hmv
          have : o' ∈ order.map Prod.snd := by
            rw [← h.values]
            exact mem_map.mpr ⟨m, hm, hmv⟩
          exact absurd this ho
    · rw [AList.lookup_insert_ne hoo, h.nodes, mem_cons]
      by_cases hm : m = s.created
      · subst hm
        simp [hnew, Ne.symm hoo]
      · simp [hm]
  · exact nodup_cons.mpr ⟨hd, h.domains_nodup⟩
  · exact nodup_cons.mpr ⟨ho, h.offsets_nodup⟩

theorem Tables.notMem_of_lookup (h : Tables s ns order)
    (hd : s.domainToOffset.lookup d = none) : d ∉ order.map Prod.fst := by
  intro hin
  obtain ⟨⟨d', o⟩, hmem, rfl⟩ := mem_map.mp hin
  rw [(h.domains d' o).mpr hmem] at hd
  cases hd

theorem Tables.reset : Tables s.reset [] [] := by
  refine ⟨⟨nodup_nil, rfl, rfl, trivial⟩, rfl, ?_, ?_, ?_, ?_, nodup_nil, nodup_nil⟩
  · simp
  · simp [FakeIpPool.reset]
  · simp [FakeIpPool.reset]
  · simp [FakeIpPool.reset]

end Tables

-- ----
-- The slots

section Slots

variable {t : Slots} {p : Text × Nat}

namespace Slots

theorem Valid.offsets_nodup (h : t.Valid) : (t.order.map Prod.snd).Nodup :=
  h.offsets.nodup_iff.mpr nodup_range'

theorem Valid.length (h : t.Valid) : t.order.length + 1 = t.next := by
  have := h.offsets.length_eq
  rw [length_map, length_range'] at this
  have := h.next_pos
  omega

theorem Valid.range (h : t.Valid) (hp : p ∈ t.order) : 1 ≤ p.2 ∧ p.2 ≤ poolSize := by
  have hmem := h.offsets.mem_iff.mp (mem_map.mpr ⟨p, hp, rfl⟩)
  have := h.next_le
  rw [mem_range'_1] at hmem
  omega

/-- In a list without two equal keys, the element with a key is the one found. -/
theorem find_key {α κ : Type} [BEq κ] [LawfulBEq κ] {key : α → κ} {l : List α}
    (hnodup : (l.map key).Nodup) {a : α} (ha : a ∈ l) : l.find? (key · == key a) = some a := by
  obtain ⟨b, hb⟩ := Option.isSome_iff_exists.mp
    (List.find?_isSome (p := fun x => key x == key a).mpr ⟨a, ha, beq_self_eq_true _⟩)
  have hkey : key b = key a := by simpa using List.find?_some hb
  rw [hb, inj_on_of_nodup_map hnodup (List.mem_of_find?_eq_some hb) ha hkey]

theorem find_domain (h : t.Valid) (hp : p ∈ t.order) :
    t.order.find? (·.1 == p.1) = some p :=
  find_key h.domains hp

theorem find_offset (h : t.Valid) (hp : p ∈ t.order) :
    t.order.find? (·.2 == p.2) = some p :=
  find_key h.offsets_nodup hp

theorem find_none (hd : d ∉ t.order.map Prod.fst) :
    t.order.find? (·.1 == d) = none := by
  rw [List.find?_eq_none]
  intro p hp hpd
  exact hd (mem_map.mpr ⟨p, hp, by simpa using hpd⟩)

/-- With every offset in use there is a domain touched least recently. -/
theorem Valid.exists_last (h : t.Valid) (hfull : ¬ t.next ≤ poolSize) :
    ∃ init p, t.order = init ++ [p] := by
  have hlen := h.length
  have hpos : 0 < poolSize := by decide
  have hne : t.order ≠ [] := by
    intro he
    rw [he, length_nil] at hlen
    omega
  obtain ⟨init, p, horder⟩ := eq_nil_or_concat t.order |>.resolve_left hne
  exact ⟨init, p, by rw [horder, concat_eq_append]⟩

theorem allocate_fresh (hd : d ∉ t.order.map Prod.fst) (hnext : t.next ≤ poolSize) :
    t.allocate d = (⟨(d, t.next) :: t.order, t.next + 1⟩, t.next) := by
  rw [allocate, find_none hd]
  exact if_pos hnext

theorem allocate_full {init : List (Text × Nat)} (hd : d ∉ t.order.map Prod.fst)
    (hfull : ¬ t.next ≤ poolSize) (horder : t.order = init ++ [p]) :
    t.allocate d = (⟨(d, p.2) :: init, t.next⟩, p.2) := by
  rw [allocate, find_none hd]
  dsimp only
  rw [if_neg hfull, horder, List.getLast?_concat, dropLast_concat]

theorem Valid.touch (h : t.Valid) (hp : p ∈ t.order) : (t.touch p).Valid := by
  have hperm : (p :: t.order.erase p).Perm t.order := (perm_cons_erase hp).symm
  exact ⟨(hperm.map Prod.fst).nodup_iff.mpr h.domains, (hperm.map Prod.snd).trans h.offsets,
    h.next_pos, h.next_le⟩

/-- A slot for a domain that had none, from the offsets never used. -/
theorem Valid.fresh (h : t.Valid) (hd : d ∉ t.order.map Prod.fst)
    (hnext : t.next ≤ poolSize) : Valid ⟨(d, t.next) :: t.order, t.next + 1⟩ := by
  refine ⟨nodup_cons.mpr ⟨hd, h.domains⟩, ?_, by simp, by simpa using hnext⟩
  have hpos := h.next_pos
  have hrange : List.range' 1 (t.next + 1 - 1) = List.range' 1 (t.next - 1) ++ [t.next] := by
    have hone : t.next + 1 - 1 = (t.next - 1) + 1 := by omega
    have hlast : 1 + (t.next - 1) = t.next := by omega
    rw [hone, List.range'_1_concat, hlast]
  rw [hrange, map_cons]
  exact (h.offsets.cons t.next).trans (perm_append_singleton t.next _).symm

/-- A slot for a domain that had none, from the domain touched least recently. -/
theorem Valid.reuse {init : List (Text × Nat)} (h : t.Valid) (horder : t.order = init ++ [p])
    (hd : d ∉ t.order.map Prod.fst) :
    Valid { t with order := (d, p.2) :: init } := by
  have hdomains := h.domains
  have hoffsets := h.offsets
  rw [horder, map_append] at hdomains hoffsets hd
  refine ⟨nodup_cons.mpr ⟨fun hmem => hd (mem_append_left _ hmem),
    (nodup_append.mp hdomains).1⟩, ?_, h.next_pos, h.next_le⟩
  exact (perm_append_singleton p.2 _).symm.trans hoffsets

end Slots

end Slots

-- ----
-- The pool refines the slots

structure Keeps (s : FakeIpPool) (t : Slots) : Prop where
  tables : ∃ ns, Tables s ns t.order
  next : s.nextOffset = t.next
  valid : t.Valid

section Refinement

variable {s : FakeIpPool} {t : Slots}

theorem keeps_empty : Keeps {} {} :=
  ⟨⟨[], tables_empty⟩, rfl, nodup_nil, List.Perm.refl _, by decide, by decide⟩

theorem reset_keeps : Keeps s.reset {} :=
  ⟨⟨[], Tables.reset⟩, rfl, keeps_empty.valid⟩

theorem touchLru_nextOffset (s : FakeIpPool) (o : Nat) :
    (s.touchLru o).nextOffset = s.nextOffset := by
  unfold FakeIpPool.touchLru
  split
  · rfl
  · rfl

theorem touch_keeps (h : Keeps s t) (hmem : (d, o) ∈ t.order) :
    Keeps (s.touchLru o) (t.touch (d, o)) := by
  obtain ⟨ns, hns⟩ := h.tables
  exact ⟨hns.touchLru hmem, (touchLru_nextOffset s o).trans h.next, h.valid.touch hmem⟩

/-- The pool allocates as its table does. -/
theorem allocate_keeps (h : Keeps s t) (d : Text) :
    Keeps (s.allocate d).1 (t.allocate d).1 ∧ (s.allocate d).2 = (t.allocate d).2 := by
  obtain ⟨ns, hns⟩ := h.tables
  cases hlook : s.domainToOffset.lookup d with
  | some o =>
    have hmem : (d, o) ∈ t.order := (hns.domains d o).mp hlook
    have hfind : t.order.find? (·.1 == d) = some (d, o) := Slots.find_domain h.valid hmem
    rw [FakeIpPool.allocate, hlook, Slots.allocate, hfind]
    exact ⟨touch_keeps h hmem, rfl⟩
  | none =>
    have hd : d ∉ t.order.map Prod.fst := hns.notMem_of_lookup hlook
    rw [FakeIpPool.allocate, hlook]
    dsimp only
    rw [h.next]
    by_cases hfull : t.next ≤ poolSize
    · rw [if_pos hfull, Slots.allocate_fresh hd hfull]
      -- the offset is above all that were used
      have ho : t.next ∉ t.order.map Prod.snd := by
        intro hin
        have := h.valid.offsets.mem_iff.mp hin
        have := h.valid.next_pos
        rw [mem_range'_1] at *
        omega
      have hbefore : Tables { s with nextOffset := t.next + 1 } ns t.order :=
        ⟨hns.represents, hns.values, hns.created, hns.domains, hns.entries, hns.nodes,
          hns.domains_nodup, hns.offsets_nodup⟩
      exact ⟨⟨hbefore.assign hd ho, rfl, h.valid.fresh hd hfull⟩, rfl⟩
    · obtain ⟨init, ⟨e, o⟩, horder⟩ := h.valid.exists_last hfull
      rw [if_neg hfull, Slots.allocate_full hd hfull horder]
      rw [horder] at hns
      obtain ⟨hoffset, hnext, ns', hns'⟩ := hns.evictLru
      have hinit : d ∉ init.map Prod.fst := by
        rw [horder, map_append] at hd
        exact fun hin => hd (mem_append_left _ hin)
      have ho : o ∉ init.map Prod.snd := by
        have := hns.offsets_nodup
        rw [map_append, nodup_append] at this
        exact fun hin => this.2.2 o hin o (by simp) rfl
      refine ⟨⟨?_, ?_, ?_⟩, hoffset⟩
      · rw [hoffset]
        exact hns'.assign hinit ho
      · exact hnext.trans h.next
      · exact h.valid.reuse horder hd

/-- The pool looks up as its table does. -/
theorem lookup_keeps (h : Keeps s t) {ip : Text} (hip : ipToOffset ip = some o) :
    Keeps (s.lookup ip).1 (t.lookup o).1 ∧
      (s.lookup ip).2 = (t.lookup o).2.map Entry.mk := by
  obtain ⟨ns, hns⟩ := h.tables
  cases hlook : s.offsetToEntry.lookup o with
  | some entry =>
    obtain ⟨d⟩ := entry
    have hmem : (d, o) ∈ t.order := (hns.entries d o).mp hlook
    have hfind : t.order.find? (·.2 == o) = some (d, o) := Slots.find_offset h.valid hmem
    simp only [FakeIpPool.lookup, hip, hlook, Slots.lookup, hfind]
    exact ⟨touch_keeps h hmem, rfl⟩
  | none =>
    have hfind : t.order.find? (·.2 == o) = none := by
      rw [List.find?_eq_none]
      rintro ⟨d, o'⟩ hp hpo
      have ho : o' = o := by simpa using hpo
      subst ho
      rw [(hns.entries d o').mpr hp] at hlook
      cases hlook
    simp only [FakeIpPool.lookup, hip, hlook, Slots.lookup, hfind]
    exact ⟨h, rfl⟩

theorem lookup_of_no_offset {ip : Text} (hip : ipToOffset ip = none) :
    s.lookup ip = (s, none) := by
  rw [FakeIpPool.lookup, hip]

theorem step_keeps (h : ∃ t, Keeps s t) (op : Op) : ∃ t, Keeps (step s op) t := by
  obtain ⟨t, h⟩ := h
  cases op with
  | allocate d => exact ⟨_, (allocate_keeps h d).1⟩
  | lookup ip =>
    cases hip : ipToOffset ip with
    | none =>
      refine ⟨t, ?_⟩
      rw [step, lookup_of_no_offset hip]
      exact h
    | some o => exact ⟨_, (lookup_keeps h hip).1⟩
  | reset => exact ⟨_, reset_keeps⟩

end Refinement

-- ----
-- The representation invariant

/-- The maps, the list and the bounds, in step. -/
structure RepInv (s : FakeIpPool) : Prop where
  /-- The two maps are inverse to each other. -/
  inverse : ∀ d o, s.domainToOffset.lookup d = some o ↔ s.offsetToEntry.lookup o = some ⟨d⟩
  /-- The list holds the allocated offsets, each once and on its own node. -/
  list : ∃ ns, s.lru.Represents ns ∧ (ns.map fun n => (s.lru.heap n).value).Nodup ∧
    (∀ o, o ∈ ns.map (fun n => (s.lru.heap n).value) ↔ o ∈ s.offsetToEntry) ∧
    ∀ o n, s.offsetToNode.lookup o = some n ↔ n ∈ ns ∧ (s.lru.heap n).value = o
  range : ∀ o, o ∈ s.offsetToEntry → 1 ≤ o ∧ o ≤ poolSize
  count : s.count ≤ poolSize
  /-- An `allocate` that evicts finds a node to evict. -/
  evicts : ∀ d, s.domainToOffset.lookup d = none → ¬ s.nextOffset ≤ poolSize → s.lru.tail ≠ none

variable {s : FakeIpPool}

theorem Tables.mem_entries {ns : List Ref} {order : List (Text × Nat)}
    (h : Tables s ns order) (o : Nat) : o ∈ s.offsetToEntry ↔ o ∈ order.map Prod.snd := by
  rw [← AList.lookup_isSome, Option.isSome_iff_exists, mem_map]
  constructor
  · rintro ⟨⟨d⟩, hlook⟩
    exact ⟨(d, o), (h.entries d o).mp hlook, rfl⟩
  · rintro ⟨⟨d, o'⟩, hmem, rfl⟩
    exact ⟨⟨d⟩, (h.entries d o').mpr hmem⟩

theorem Tables.count_eq {ns : List Ref} {order : List (Text × Nat)}
    (h : Tables s ns order) : s.count = order.length := by
  have hmem : ∀ d, d ∈ s.domainToOffset.keys ↔ d ∈ order.map Prod.fst := by
    intro d
    rw [← AList.mem_keys, ← AList.lookup_isSome, Option.isSome_iff_exists, mem_map]
    constructor
    · rintro ⟨o, hlook⟩
      exact ⟨(d, o), (h.domains d o).mp hlook, rfl⟩
    · rintro ⟨⟨d', o⟩, hin, rfl⟩
      exact ⟨o, (h.domains d' o).mpr hin⟩
  have hperm : s.domainToOffset.keys.Perm (order.map Prod.fst) :=
    (perm_ext_iff_of_nodup s.domainToOffset.keys_nodup h.domains_nodup).mpr hmem
  rw [FakeIpPool.count, hperm.length_eq, length_map]

theorem Keeps.repInv {t : Slots} (h : Keeps s t) : RepInv s := by
  obtain ⟨ns, hns⟩ := h.tables
  have hlen := h.valid.length
  have hle := h.valid.next_le
  refine ⟨?_, ⟨ns, hns.represents, ?_, ?_, hns.nodes⟩, ?_, ?_, ?_⟩
  · exact fun d o => (hns.domains d o).trans (hns.entries d o).symm
  · rw [hns.values]
    exact hns.offsets_nodup
  · intro o
    rw [hns.values]
    exact (hns.mem_entries o).symm
  · intro o ho
    obtain ⟨p, hp, rfl⟩ := mem_map.mp ((hns.mem_entries o).mp ho)
    exact h.valid.range hp
  · rw [hns.count_eq]
    omega
  · -- every offset is in use, so the list has nodes
    intro d _ hfull htail
    rw [hns.represents.tail, List.getLast?_eq_none_iff] at htail
    have hvalues := congrArg List.length hns.values
    have hpos : 0 < poolSize := by decide
    rw [htail, map_nil, length_nil, length_map] at hvalues
    have := h.next
    omega

/-- After every sequence of operations on the empty pool. -/
theorem pool_invariant (ops : List Op) : RepInv (run step {} ops) := by
  have hinv : ∃ t, Keeps (run step {} ops) t :=
    run_invariant (I := fun s => ∃ t, Keeps s t) (fun _ op h => step_keeps h op)
      ⟨{}, keeps_empty⟩ ops
  obtain ⟨t, ht⟩ := hinv
  exact ht.repInv

end Anywhere.FakeIp
