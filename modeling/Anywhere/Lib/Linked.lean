import Mathlib.Data.List.Nodup
import Mathlib.Logic.Function.Basic

/-!
# Doubly linked lists in a heap

Nodes are objects with mutable links: a heap gives every reference a node, and a
list is a pair of references to its first and last node. The two operations are
the ones a recency list needs, written as the sequence of assignments such code
consists of: unlink a node wherever it stands, and put a node in front.

* `Linked.Represents` — the nodes of a list, in order, with all links consistent.
-/

namespace Anywhere.Lib

open List

universe u

abbrev Ref := Nat

/-- A node object: a value that does not change, and two links that do. -/
structure Node (α : Type u) where
  value : α
  prev : Option Ref := none
  next : Option Ref := none

/-- A doubly linked list: its nodes, its first and its last one. -/
structure Linked (α : Type u) where
  heap : Ref → Node α
  head : Option Ref := none
  tail : Option Ref := none

variable {ns l r : List Ref} {p q : Option Ref}

namespace Linked

variable {α : Type u}

/-- `node?.next = v`. -/
def setNext (heap : Ref → Node α) (node v : Option Ref) : Ref → Node α :=
  match node with
  | none => heap
  | some n => Function.update heap n { heap n with next := v }

/-- `node?.prev = v`. -/
def setPrev (heap : Ref → Node α) (node v : Option Ref) : Ref → Node α :=
  match node with
  | none => heap
  | some n => Function.update heap n { heap n with prev := v }

/-- Unlink a node: its neighbours first, then the ends of the list, then the
node itself. -/
def removeNode (s : Linked α) (n : Ref) : Linked α :=
  let heap := setNext s.heap (s.heap n).prev (s.heap n).next
  let heap := setPrev heap (heap n).next (heap n).prev
  { heap := Function.update heap n { heap n with prev := none, next := none }
    head := if s.head = some n then (heap n).next else s.head
    tail := if s.tail = some n then (heap n).prev else s.tail }

/-- Put a node in front. -/
def insertAtHead (s : Linked α) (n : Ref) : Linked α :=
  let heap := Function.update s.heap n { s.heap n with next := s.head, prev := none }
  { heap := setPrev heap s.head (some n)
    head := some n
    tail := if s.tail = none then some n else s.tail }

-- ----
-- Links

/-- The nodes `ns` are linked in this order, between the nodes `p` and `q`. -/
def Seg (heap : Ref → Node α) : Option Ref → List Ref → Option Ref → Prop
  | _, [], _ => True
  | p, n :: ns, q =>
    (heap n).prev = p ∧ (heap n).next = ns.head?.or q ∧ Seg heap (some n) ns q

/-- The list with these nodes, from the first to the last. -/
structure Represents (s : Linked α) (ns : List Ref) : Prop where
  nodup : ns.Nodup
  head : s.head = ns.head?
  tail : s.tail = ns.getLast?
  links : Seg s.heap none ns none

variable {heap : Ref → Node α}

theorem seg_congr {heap' : Ref → Node α}
    (h : ∀ n ∈ ns, (heap' n).prev = (heap n).prev ∧ (heap' n).next = (heap n).next)
    (hs : Seg heap p ns q) : Seg heap' p ns q := by
  induction ns generalizing p with
  | nil => trivial
  | cons n ns ih =>
    obtain ⟨hp, hn, hrest⟩ := hs
    have hlinks := h n (by simp)
    exact ⟨by rw [hlinks.1, hp], by rw [hlinks.2, hn], ih (fun m hm => h m (by simp [hm])) hrest⟩

theorem seg_append :
    Seg heap p (l ++ r) q ↔ Seg heap p l (r.head?.or q) ∧ Seg heap (l.getLast?.or p) r q := by
  induction l generalizing p with
  | nil => simp [Seg]
  | cons n l ih =>
    rw [cons_append, Seg, Seg, ih]
    have hnext : (l ++ r).head?.or q = l.head?.or (r.head?.or q) := by
      cases l with
      | nil => simp
      | cons m l => simp
    have hlast : (n :: l).getLast?.or p = l.getLast?.or (some n) := by
      cases l with
      | nil => simp
      | cons m l =>
        rw [List.getLast?_cons_cons]
        cases h : (m :: l).getLast? with
        | none => simp at h
        | some x => rfl
    rw [hnext, hlast, and_assoc, and_assoc]

/-- Assigning the last node's `next` changes what the segment ends at. -/
theorem seg_setNext_last {q' : Option Ref} (hl : l.Nodup)
    (hs : Seg heap p l q) : Seg (setNext heap l.getLast? q') p l q' := by
  rcases eq_nil_or_concat l with rfl | ⟨l, n, rfl⟩
  · trivial
  · rw [concat_eq_append] at hl hs ⊢
    have hn : n ∉ l := by
      have := nodup_append.mp hl
      exact fun hmem => this.2.2 n hmem n (by simp) rfl
    rw [List.getLast?_append_of_ne_nil _ (by simp), List.getLast?_singleton]
    obtain ⟨hfront, hlast⟩ := seg_append.1 hs
    refine seg_append.2 ⟨seg_congr ?_ hfront, ?_, ?_, trivial⟩
    · intro m hm
      have hne : m ≠ n := fun h => hn (h ▸ hm)
      simp [setNext, Function.update_of_ne hne]
    · simp only [setNext, Function.update_self]
      exact hlast.1
    · simp [setNext]

/-- Assigning the first node's `prev` changes what the segment starts at. -/
theorem seg_setPrev_head {p' : Option Ref} (hr : r.Nodup)
    (hs : Seg heap p r q) : Seg (setPrev heap r.head? p') p' r q := by
  cases r with
  | nil => trivial
  | cons n r =>
    obtain ⟨-, hnext, hrest⟩ := hs
    refine ⟨by simp [setPrev], by simpa [setPrev] using hnext, seg_congr ?_ hrest⟩
    intro m hm
    have hne : m ≠ n := fun h => (nodup_cons.mp hr).1 (h ▸ hm)
    simp [setPrev, Function.update_of_ne hne]

/-- An assignment to a node outside a segment does not concern it. -/
theorem seg_setNext_of_notMem {n v : Option Ref}
    (hn : ∀ m ∈ ns, n ≠ some m) (hs : Seg heap p ns q) : Seg (setNext heap n v) p ns q := by
  cases n with
  | none => exact hs
  | some n =>
    refine seg_congr (fun m hm => ?_) hs
    have hne : m ≠ n := fun h => hn m hm (congrArg some h.symm)
    simp [setNext, Function.update_of_ne hne]

theorem seg_setPrev_of_notMem {n v : Option Ref}
    (hn : ∀ m ∈ ns, n ≠ some m) (hs : Seg heap p ns q) : Seg (setPrev heap n v) p ns q := by
  cases n with
  | none => exact hs
  | some n =>
    refine seg_congr (fun m hm => ?_) hs
    have hne : m ≠ n := fun h => hn m hm (congrArg some h.symm)
    simp [setPrev, Function.update_of_ne hne]

@[simp] theorem setNext_value (n v : Option Ref) (m : Ref) :
    (setNext heap n v m).value = (heap m).value := by
  cases n with
  | none => rfl
  | some n =>
    by_cases h : m = n
    · subst h
      simp [setNext]
    · simp [setNext, Function.update_of_ne h]

@[simp] theorem setPrev_value (n v : Option Ref) (m : Ref) :
    (setPrev heap n v m).value = (heap m).value := by
  cases n with
  | none => rfl
  | some n =>
    by_cases h : m = n
    · subst h
      simp [setPrev]
    · simp [setPrev, Function.update_of_ne h]

-- ----
-- The operations

variable {s : Linked α}

@[simp] theorem removeNode_value (n m : Ref) :
    ((s.removeNode n).heap m).value = (s.heap m).value := by
  by_cases h : m = n
  · subst h
    simp [removeNode]
  · simp [removeNode, Function.update_of_ne h]

@[simp] theorem insertAtHead_value (n m : Ref) :
    ((s.insertAtHead n).heap m).value = (s.heap m).value := by
  simp only [insertAtHead, setPrev_value]
  by_cases h : m = n
  · subst h
    simp
  · simp [Function.update_of_ne h]

/-- A removal, with what it leaves alone. -/
theorem removeNode_represents {n : Ref} (h : s.Represents (l ++ n :: r)) :
    (s.removeNode n).Represents (l ++ r) := by
  obtain ⟨hnodup, hhead, htail, hlinks⟩ := h
  have hl : l.Nodup := hnodup.sublist (sublist_append_left _ _)
  have hnr : (n :: r).Nodup := hnodup.sublist (sublist_append_right _ _)
  have hr : r.Nodup := (nodup_cons.mp hnr).2
  have hn_r : n ∉ r := (nodup_cons.mp hnr).1
  have hdisj : ∀ m ∈ l, ∀ m' ∈ n :: r, m ≠ m' := (nodup_append.mp hnodup).2.2
  have hn_l : n ∉ l := fun hmem => hdisj n hmem n (by simp) rfl
  obtain ⟨hfront, hprev, hnext, hback⟩ := seg_append.1 hlinks
  rw [Option.or_none] at hprev hnext
  have hlast_ne : ∀ m ∈ n :: r, l.getLast? ≠ some m := by
    intro m hm hlast
    exact hdisj m (List.mem_of_getLast? hlast) m hm rfl
  have hfirst_ne : ∀ m ∈ n :: l, r.head? ≠ some m := by
    intro m hm hfirst
    have hmr : m ∈ r := List.mem_of_head? hfirst
    rcases mem_cons.mp hm with rfl | hm
    · exact hn_r hmr
    · exact hdisj m hm m (by simp [hmr]) rfl
  -- the two assignments to the neighbours do not touch the node itself
  have hself : setNext s.heap (s.heap n).prev (s.heap n).next n = s.heap n := by
    rw [hprev]
    cases hlast : l.getLast? with
    | none => rfl
    | some m =>
      have hne : n ≠ m := fun he => hlast_ne n (by simp) (by rw [hlast, he])
      simp [setNext, Function.update_of_ne hne]
  have hself' : setPrev (setNext s.heap l.getLast? r.head?) r.head? l.getLast? n = s.heap n := by
    rw [hprev, hnext] at hself
    cases hfirst : r.head? with
    | none =>
      rw [hfirst] at hself
      exact hself
    | some m =>
      have hne : n ≠ m := fun he => hfirst_ne n (by simp) (by rw [hfirst, he])
      rw [hfirst] at hself
      simp [setPrev, Function.update_of_ne hne, hself]
  have hheap : (s.removeNode n).heap = Function.update
      (setPrev (setNext s.heap l.getLast? r.head?) r.head? l.getLast?) n
      { s.heap n with prev := none, next := none } := by
    simp only [removeNode, hself]
    rw [hprev, hnext, hself']
  refine ⟨?_, ?_, ?_, ?_⟩
  · exact hnodup.sublist (List.Sublist.append (List.Sublist.refl l) (sublist_cons_self n r))
  · -- the first node changes only when it is the one removed
    have : (s.removeNode n).head = if s.head = some n then r.head? else s.head := by
      simp only [removeNode, hself]
      rw [hprev, hnext, hself', hnext]
    rw [this, hhead]
    cases l with
    | nil => simp
    | cons m l =>
      have hne : m ≠ n := hdisj m (by simp) n (by simp)
      simp [hne]
  · have : (s.removeNode n).tail = if s.tail = some n then l.getLast? else s.tail := by
      simp only [removeNode, hself]
      rw [hprev, hnext, hself', hprev]
    rw [this, htail]
    cases r with
    | nil => simp
    | cons m r =>
      rw [List.getLast?_append_of_ne_nil _ (by simp), List.getLast?_append_of_ne_nil _ (by simp),
        List.getLast?_cons_cons, if_neg]
      intro hlast
      exact hn_r (List.mem_of_getLast? hlast)
  · -- both parts keep their links but for the two ends that now meet
    have hkeep : ∀ ns : List Ref, n ∉ ns → ∀ m ∈ ns,
        ((s.removeNode n).heap m).prev =
          (setPrev (setNext s.heap l.getLast? r.head?) r.head? l.getLast? m).prev ∧
        ((s.removeNode n).heap m).next =
          (setPrev (setNext s.heap l.getLast? r.head?) r.head? l.getLast? m).next := by
      intro ns hns m hm
      have hne : m ≠ n := fun he => hns (he ▸ hm)
      rw [hheap, Function.update_of_ne hne]
      exact ⟨rfl, rfl⟩
    refine seg_append.2 ⟨seg_congr (hkeep l hn_l) ?_, seg_congr (hkeep r hn_r) ?_⟩
    · rw [Option.or_none]
      refine seg_setPrev_of_notMem (fun m hm => hfirst_ne m (by simp [hm])) ?_
      exact seg_setNext_last hl hfront
    · rw [Option.or_none]
      refine seg_setPrev_head hr (p := some n) ?_
      exact seg_setNext_of_notMem (fun m hm => hlast_ne m (by simp [hm])) hback

/-- **Putting a node in front.** -/
theorem insertAtHead_represents {n : Ref} (h : s.Represents ns) (hn : n ∉ ns) :
    (s.insertAtHead n).Represents (n :: ns) := by
  obtain ⟨hnodup, hhead, htail, hlinks⟩ := h
  refine ⟨nodup_cons.mpr ⟨hn, hnodup⟩, rfl, ?_, ?_⟩
  · simp only [insertAtHead, htail]
    cases ns with
    | nil => simp
    | cons m ns => simp [List.getLast?_cons_cons]
  · have hself : setPrev (Function.update s.heap n { s.heap n with next := s.head, prev := none })
        s.head (some n) n = { s.heap n with next := s.head, prev := none } := by
      rw [hhead]
      cases hfirst : ns.head? with
      | none => simp [setPrev]
      | some m =>
        have hne : n ≠ m := fun he => hn (he ▸ List.mem_of_head? hfirst)
        simp [setPrev, Function.update_of_ne hne]
    refine ⟨?_, ?_, ?_⟩
    · simp only [insertAtHead, hself]
    · show (setPrev _ s.head (some n) n).next = _
      rw [hself, Option.or_none, ← hhead]
    · show Seg (setPrev _ s.head (some n)) (some n) ns none
      rw [hhead]
      refine seg_setPrev_head hnodup (p := none) (seg_congr (fun m hm => ?_) hlinks)
      have hne : m ≠ n := fun he => hn (he ▸ hm)
      simp [Function.update_of_ne hne]

end Linked

end Anywhere.Lib
