import Mathlib.Data.List.Basic

/-!
# Waiting at a gate

A party that finds a gate shut registers and sleeps until it is woken; whoever opens the gate
takes the registered ones out and wakes them, at once or in a later pass. Finding the gate shut
and registering are two steps, and so are opening it and waking, so a party can be asleep before
an open gate with nobody about to wake it.

`Guarded ready asleep registered taken due` says that this is not so: `ready i` — the gate is open
for `i`, `registered` and `taken` — who is registered and who is taken out and not woken yet,
`due` — the passes that are still to come.
-/

namespace Anywhere.Lib

open List

variable {ι : Type*} {ready ready' asleep asleep' : ι → Prop}
    {registered taken registered' taken' : List ι}
  {due : Nat} {i : ι}

/-- Nobody sleeps before an open gate without being about to be woken. -/
structure Guarded (ready asleep : ι → Prop) (registered taken : List ι) (due : Nat) : Prop where
  kept : ∀ i, asleep i ↔ i ∈ registered ∨ i ∈ taken
  apart : ∀ i ∈ registered, i ∉ taken
  shut : due = 0 → ∀ i ∈ registered, ¬ ready i

namespace Guarded

theorem start (h : ∀ i, ¬ asleep i) : Guarded ready asleep [] [] 0 where
  kept := fun i => iff_of_false (h i) (by simp)
  apart := by simp
  shut := by simp

/-- Who sleeps before an open gate is about to be woken. -/
theorem awaited (h : Guarded ready asleep registered taken due) (hasleep : asleep i)
    (hready : ready i) :
    i ∈ taken ∨ (0 < due ∧ i ∈ registered) := by
  rcases (h.kept i).mp hasleep with hregistered | htaken
  · rcases Nat.eq_zero_or_pos due with hdue | hdue
    · exact absurd hready (h.shut hdue i hregistered)
    · exact .inr ⟨hdue, hregistered⟩
  · exact .inl htaken

/-- The gate is opened for nobody who is registered. -/
theorem congr (h : Guarded ready asleep registered taken due) (hasleep : ∀ i, asleep' i ↔ asleep i)
    (hready : due = 0 → ∀ i ∈ registered, ready' i → ready i) :
    Guarded ready' asleep' registered taken due where
  kept := fun i => (hasleep i).trans (h.kept i)
  apart := h.apart
  shut := fun hdue i hi hi' => h.shut hdue i hi (hready hdue i hi hi')

/-- The gate is opened and a pass is due. -/
theorem raise (h : Guarded ready asleep registered taken due)
    (hasleep : ∀ i, asleep' i ↔ asleep i) :
    Guarded ready' asleep' registered taken (due + 1) where
  kept := fun i => (hasleep i).trans (h.kept i)
  apart := h.apart
  shut := fun hdue => absurd hdue (Nat.succ_ne_zero due)

/-- A pass takes all out. -/
theorem wake (h : Guarded ready asleep registered taken due) (hasleep : ∀ i, asleep' i ↔ asleep i)
    (hall : ∀ i, i ∈ taken' ↔ i ∈ registered ∨ i ∈ taken) (due' : Nat) :
    Guarded ready' asleep' [] taken' due' where
  kept := by
    intro i
    rw [hasleep i, h.kept i, hall i]
    simp
  apart := by simp
  shut := by simp

/-- One registers, before a shut gate or before a pass that is due. -/
theorem register (h : Guarded ready asleep registered taken due) (hawake : ¬ asleep i)
    (hopen : ready' i → 0 < due) (hasleep : ∀ j, asleep' j ↔ j = i ∨ asleep j)
    (hready : ∀ j ∈ registered, ready' j → ready j) :
    Guarded ready' asleep' (registered ++ [i]) taken due where
  kept := by
    intro j
    rw [hasleep j, h.kept j, mem_append, mem_singleton, or_comm (a := j = i), or_right_comm]
  apart := by
    intro j hj
    rcases mem_append.mp hj with hj | hj
    · exact h.apart j hj
    · rw [mem_singleton.mp hj]
      exact fun htaken => hawake ((h.kept i).mpr (.inr htaken))
  shut := by
    intro hdue j hj hj'
    rcases mem_append.mp hj with hj | hj
    · exact h.shut hdue j hj (hready j hj hj')
    · rw [mem_singleton.mp hj] at hj'
      exact absurd (hopen hj') (by omega)

/-- One that sleeps is woken or gives up. -/
theorem leave (h : Guarded ready asleep registered taken due)
    (hasleep : ∀ j, asleep' j ↔ j ≠ i ∧ asleep j) (hregistered : ∀ j, j ∈ registered' ↔ j ≠ i ∧
      j ∈ registered)
    (htaken : ∀ j, j ∈ taken' ↔ j ≠ i ∧ j ∈ taken)
    (hready : ∀ j ∈ registered', ready' j → ready j) :
    Guarded ready' asleep' registered' taken' due where
  kept := by
    intro j
    rw [hasleep j, h.kept j, hregistered j, htaken j, and_or_left]
  apart := by
    intro j hj htaken'
    exact h.apart j ((hregistered j).mp hj).2 ((htaken j).mp htaken').2
  shut := fun hdue j hj hj' => h.shut hdue j ((hregistered j).mp hj).2 (hready j hj hj')

theorem woken (h : Guarded ready asleep registered taken due) (hi : i ∈ taken)
    (hasleep : ∀ j, asleep' j ↔ j ≠ i ∧ asleep j) (htaken : ∀ j, j ∈ taken' ↔ j ≠ i ∧ j ∈ taken)
    (hready : ∀ j ∈ registered, ready' j → ready j) :
    Guarded ready' asleep' registered taken' due := by
  refine h.leave hasleep ?_ htaken hready
  intro j
  refine ⟨fun hj => ⟨?_, hj⟩, fun hj => hj.2⟩
  rintro rfl
  exact h.apart j hj hi

end Guarded

end Anywhere.Lib
