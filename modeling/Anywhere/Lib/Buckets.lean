import Mathlib.Data.List.Nodup
import Mathlib.Logic.Function.Basic

/-!
# Buckets

A multimap kept as a hash map from keys to lists: adding under an absent key
makes a new list, and a list that becomes empty is taken out of the map. The
lists are in the order the elements were added in.

* `Full` — no key holds an empty list.
* `Indexes` — the buckets list, under every key, exactly what a relation has there,
  once each. Adding and removing keep an index of the changed relation.
-/

namespace Anywhere.Lib

open List

abbrev Buckets (κ τ : Type) : Type := κ → Option (List τ)

namespace Buckets

variable {κ τ : Type}

def empty : Buckets κ τ := fun _ => none

def listed (b : Buckets κ τ) (k : κ) : List τ := (b k).getD []

/-- No key holds an empty list. -/
def Full (b : Buckets κ τ) : Prop := ∀ k, b k ≠ some []

@[simp] theorem listed_empty (k : κ) : (empty : Buckets κ τ).listed k = [] := rfl

theorem full_empty : (empty : Buckets κ τ).Full := by
  intro k h
  cases h

-- ----
-- Adding

section Add

variable [DecidableEq κ]

/-- `getOrPut(k) { mutableListOf() }.add(t)`. -/
def add (b : Buckets κ τ) (k : κ) (t : τ) : Buckets κ τ :=
  Function.update b k (some (b.listed k ++ [t]))

/-- One element under many keys. -/
def addAll (b : Buckets κ τ) (ks : List κ) (t : τ) : Buckets κ τ :=
  ks.foldl (fun b k => b.add k t) b

theorem listed_add (b : Buckets κ τ) (k k' : κ) (t : τ) :
    (b.add k t).listed k' = if k' = k then b.listed k' ++ [t] else b.listed k' := by
  by_cases h : k' = k
  · subst h
    simp [add, listed]
  · simp [add, listed, h]

theorem full_add {b : Buckets κ τ} (hb : b.Full) (k : κ) (t : τ) : (b.add k t).Full := by
  intro k' h
  by_cases hk : k' = k
  · subst hk
    simp [add] at h
  · rw [add, Function.update_of_ne hk] at h
    exact hb k' h

/-- What is listed under a key after adding an element under many keys. -/
theorem listed_addAll {ks : List κ} (hks : ks.Nodup) (b : Buckets κ τ) (k' : κ) (t : τ) :
    (b.addAll ks t).listed k' = if k' ∈ ks then b.listed k' ++ [t] else b.listed k' := by
  induction ks generalizing b with
  | nil => simp [addAll]
  | cons k ks ih =>
    obtain ⟨hk, hks⟩ := nodup_cons.1 hks
    show ((b.add k t).addAll ks t).listed k' = _
    rw [ih hks, listed_add]
    by_cases h : k' = k
    · subst h
      simp [hk]
    · simp [h]

theorem full_addAll {b : Buckets κ τ} (hb : b.Full) (ks : List κ) (t : τ) :
    (b.addAll ks t).Full := by
  induction ks generalizing b with
  | nil => exact hb
  | cons k ks ih => exact ih (full_add hb k t)

end Add

-- ----
-- Removing

section Remove

variable [DecidableEq κ] [DecidableEq τ]

/-- The list without an element, null when that leaves nothing. -/
def without (ts : List τ) (t : τ) : Option (List τ) :=
  if (ts.filter (· ≠ t)).isEmpty then none else some (ts.filter (· ≠ t))

/-- Remove every occurrence under the key, and the key with its last one. -/
def remove (b : Buckets κ τ) (k : κ) (t : τ) : Buckets κ τ :=
  Function.update b k ((b k).bind fun ts => without ts t)

def removeAll (b : Buckets κ τ) (ks : List κ) (t : τ) : Buckets κ τ :=
  ks.foldl (fun b k => b.remove k t) b

theorem without_getD (ts : List τ) (t : τ) : (without ts t).getD [] = ts.filter (· ≠ t) := by
  unfold without
  split
  · rename_i h
    exact (List.isEmpty_iff.1 h).symm
  · rfl

theorem without_ne (ts : List τ) (t : τ) : without ts t ≠ some [] := by
  unfold without
  split
  · simp
  · rename_i h
    intro he
    exact h (List.isEmpty_iff.2 (Option.some.inj he))

theorem listed_remove (b : Buckets κ τ) (k k' : κ) (t : τ) :
    (b.remove k t).listed k' = if k' = k then (b.listed k').filter (· ≠ t) else b.listed k' := by
  by_cases h : k' = k
  · subst h
    rcases hb : b k' with _ | ts
    · simp [remove, listed, hb]
    · simp [remove, listed, hb, without_getD]
  · simp [remove, listed, h]

theorem full_remove {b : Buckets κ τ} (hb : b.Full) (k : κ) (t : τ) : (b.remove k t).Full := by
  intro k' h
  by_cases hk : k' = k
  · subst hk
    rw [remove, Function.update_self] at h
    obtain ⟨ts, -, hts⟩ := Option.bind_eq_some_iff.1 h
    exact without_ne ts t hts
  · rw [remove, Function.update_of_ne hk] at h
    exact hb k' h

/-- What is listed under a key after removing it again. -/
theorem listed_removeAll (b : Buckets κ τ) (ks : List κ) (k' : κ) (t : τ) :
    (b.removeAll ks t).listed k' =
      if k' ∈ ks then (b.listed k').filter (· ≠ t) else b.listed k' := by
  induction ks generalizing b with
  | nil => simp [removeAll]
  | cons k ks ih =>
    show ((b.remove k t).removeAll ks t).listed k' = _
    rw [ih, listed_remove]
    by_cases h : k' = k
    · subst h
      simp
    · simp [h]

theorem full_removeAll {b : Buckets κ τ} (hb : b.Full) (ks : List κ) (t : τ) :
    (b.removeAll ks t).Full := by
  induction ks generalizing b with
  | nil => exact hb
  | cons k ks ih => exact ih (full_remove hb k t)

end Remove

-- ----
-- Indexes

/-- The buckets are an index of a relation between keys and elements. -/
structure Indexes (b : Buckets κ τ) (R : κ → τ → Prop) : Prop where
  full : b.Full
  nodup : ∀ k, (b.listed k).Nodup
  mem_iff : ∀ k t, t ∈ b.listed k ↔ R k t

theorem indexes_empty {R : κ → τ → Prop} (h : ∀ k t, ¬ R k t) : Indexes empty R where
  full := full_empty
  nodup _ := nodup_nil
  mem_iff k t := by simp [h k t]

theorem Indexes.congr {b : Buckets κ τ} {R R' : κ → τ → Prop} (hb : Indexes b R)
    (h : ∀ k t, R k t ↔ R' k t) : Indexes b R' where
  full := hb.full
  nodup := hb.nodup
  mem_iff k t := (hb.mem_iff k t).trans (h k t)

theorem Indexes.addAll [DecidableEq κ] {b : Buckets κ τ} {R : κ → τ → Prop} (hb : Indexes b R)
    {ks : List κ} (hks : ks.Nodup) {t : τ} (hnew : ∀ k ∈ ks, ¬ R k t) :
    Indexes (b.addAll ks t) (fun k t' => R k t' ∨ (t' = t ∧ k ∈ ks)) where
  full := full_addAll hb.full ks t
  nodup k := by
    rw [listed_addAll hks]
    split
    · rename_i hk
      have ht : t ∉ b.listed k := fun h => hnew k hk ((hb.mem_iff k t).1 h)
      rw [nodup_append]
      refine ⟨hb.nodup k, nodup_singleton t, ?_⟩
      rintro a ha b' hb' rfl
      rw [mem_singleton] at hb'
      exact ht (hb' ▸ ha)
    · exact hb.nodup k
  mem_iff k t' := by
    rw [listed_addAll hks]
    split <;> rename_i hk
    · rw [mem_append, hb.mem_iff, mem_singleton]
      simp [hk]
    · rw [hb.mem_iff]
      simp [hk]

theorem Indexes.removeAll [DecidableEq κ] [DecidableEq τ] {b : Buckets κ τ} {R : κ → τ → Prop}
    (hb : Indexes b R) {ks : List κ} {t : τ} (hall : ∀ k, R k t → k ∈ ks) :
    Indexes (b.removeAll ks t) (fun k t' => R k t' ∧ t' ≠ t) where
  full := full_removeAll hb.full ks t
  nodup k := by
    rw [listed_removeAll]
    split
    · exact (hb.nodup k).filter _
    · exact hb.nodup k
  mem_iff k t' := by
    rw [listed_removeAll]
    split <;> rename_i hk
    · simp [hb.mem_iff]
    · rw [hb.mem_iff]
      refine ⟨fun h => ⟨h, ?_⟩, fun h => h.1⟩
      rintro rfl
      exact hk (hall k h)

/-- Removing an element everywhere it may be takes it out of every list. -/
theorem Indexes.listed_removeAll_eq [DecidableEq κ] [DecidableEq τ] {b : Buckets κ τ}
    {R : κ → τ → Prop} (hb : Indexes b R) {ks : List κ} {t : τ} (hall : ∀ k, R k t → k ∈ ks)
    (k : κ) : (b.removeAll ks t).listed k = (b.listed k).filter (· ≠ t) := by
  rw [listed_removeAll]
  split <;> rename_i hk
  · rfl
  · symm
    rw [filter_eq_self]
    intro t' ht'
    rw [decide_eq_true_eq]
    rintro rfl
    exact hk (hall k ((hb.mem_iff k t').1 ht'))

end Buckets

end Anywhere.Lib
