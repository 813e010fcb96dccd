import Mathlib.Data.List.AList

/-!
# Tables of objects

Objects are numbered in the order they are made, and each has a key that never
changes. A table finds an object by its key. It *registers* the objects that are
alive when it holds each of them under its key and nothing else; then no two of
them have one key.

* `Registers.insert` — a new object goes into the table when no object that is
  alive has its key.
* `Registers.eraseAll` — keys may be erased when only the objects that die have them.
-/

namespace Anywhere.Lib

/-- A table that finds objects by their keys. -/
abbrev Table (κ : Type*) := AList fun _ : κ => Nat

variable {κ : Type*} [DecidableEq κ] {key key' : Nat → Option κ} {alive alive' : Nat → Prop}
  {table : Table κ}

/-- The table holds the objects that are alive, each under its key. -/
def Registers (key : Nat → Option κ) (alive : Nat → Prop) (table : Table κ) : Prop :=
  ∀ k i, table.lookup k = some i ↔ alive i ∧ key i = some k

theorem lookup_eraseAll (table : Table κ) (ks : List κ) (k : κ) :
    (ks.foldl (fun t k => t.erase k) table).lookup k = if k ∈ ks then none else table.lookup k := by
  induction ks generalizing table with
  | nil => simp
  | cons k' ks ih =>
    rw [List.foldl_cons, ih]
    by_cases hk : k = k'
    · subst hk
      simp
    · simp [AList.lookup_erase_ne hk, hk]

namespace Registers

theorem empty (h : ∀ i, ¬alive i) : Registers key alive (∅ : Table κ) := by
  intro k i
  simp [h i]

theorem unique (h : Registers key alive table) {i j : Nat} {k : κ} (hi : alive i)
    (hj : alive j) (hki : key i = some k) (hkj : key j = some k) : i = j := by
  have hi' := (h k i).2 ⟨hi, hki⟩
  have hj' := (h k j).2 ⟨hj, hkj⟩
  rw [hi'] at hj'
  exact Option.some.inj hj'

theorem congr (h : Registers key alive table) (hkey : ∀ i, alive i → key' i = key i)
    (halive : ∀ i, alive' i ↔ alive i) : Registers key' alive' table := by
  intro k i
  rw [h k i, halive i]
  constructor
  · rintro ⟨hi, hk⟩
    exact ⟨hi, (hkey i hi).trans hk⟩
  · rintro ⟨hi, hk⟩
    exact ⟨hi, (hkey i hi).symm.trans hk⟩

/-- A new object that no other one shares its key with. -/
theorem insert (h : Registers key alive table) {n : Nat} {k : κ} (hnew : ∀ i, alive i → i ≠ n)
    (hfresh : ∀ i, alive i → key i ≠ some k) (hkn : key' n = some k)
    (hkey : ∀ i, alive i → key' i = key i) (halive : ∀ i, alive' i ↔ alive i ∨ i = n) :
    Registers key' alive' (table.insert k n) := by
  intro k' i
  rw [halive i]
  by_cases hk : k' = k
  · subst hk
    rw [AList.lookup_insert, Option.some.injEq]
    constructor
    · rintro rfl
      exact ⟨Or.inr rfl, hkn⟩
    · rintro ⟨hi | rfl, hki⟩
      · exact absurd ((hkey i hi).symm.trans hki) (hfresh i hi)
      · rfl
  · rw [AList.lookup_insert_ne hk, h k' i]
    constructor
    · rintro ⟨hi, hki⟩
      exact ⟨Or.inl hi, (hkey i hi).trans hki⟩
    · rintro ⟨hi | rfl, hki⟩
      · exact ⟨hi, (hkey i hi).symm.trans hki⟩
      · rw [hkn, Option.some.injEq] at hki
        exact absurd hki.symm hk

theorem eraseAll (h : Registers key alive table) {ks : List κ}
    (hkey : ∀ i, alive i → key' i = key i)
    (halive : ∀ i, alive' i ↔ alive i ∧ ∀ k ∈ ks, key i ≠ some k) :
    Registers key' alive' (ks.foldl (fun t k => t.erase k) table) := by
  intro k' i
  rw [lookup_eraseAll, halive i]
  by_cases hk : k' ∈ ks
  · rw [if_pos hk]
    constructor
    · intro hnone
      cases hnone
    · rintro ⟨⟨hi, hne⟩, hki⟩
      exact absurd ((hkey i hi).symm.trans hki) (hne k' hk)
  · rw [if_neg hk, h k' i]
    constructor
    · rintro ⟨hi, hki⟩
      refine ⟨⟨hi, ?_⟩, (hkey i hi).trans hki⟩
      rintro k hks hki'
      rw [hki, Option.some.injEq] at hki'
      subst hki'
      exact hk hks
    · rintro ⟨⟨hi, -⟩, hki⟩
      exact ⟨hi, (hkey i hi).symm.trans hki⟩

theorem erase (h : Registers key alive table) {k : κ} (hkey : ∀ i, alive i → key' i = key i)
    (halive : ∀ i, alive' i ↔ alive i ∧ key i ≠ some k) :
    Registers key' alive' (table.erase k) := by
  have halive' : ∀ i, alive' i ↔ alive i ∧ ∀ k' ∈ [k], key i ≠ some k' := by simpa using halive
  exact h.eraseAll hkey halive'

end Registers

end Anywhere.Lib
