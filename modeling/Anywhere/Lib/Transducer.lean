import Mathlib.Algebra.Ring.Nat
import Mathlib.Data.List.Basic

/-!
# Transducers

A transducer reads its input one symbol at a time and writes a piece of output for
each. A decoder that is called with one chunk after another and keeps its state
between the calls is one whose symbols are the chunks; seen from inside it is often
one whose symbols are bytes. How the output of a run is put together
(`transduce_append`) is the same for both.
-/

namespace Anywhere.Lib

open List

variable {σ α β : Type*}

/-- The state after the whole input, and the output. -/
def transduce (step : σ → α → σ × List β) : σ → List α → σ × List β
  | s, [] => (s, [])
  | s, a :: as =>
    let now := step s a
    let later := transduce step now.1 as
    (later.1, now.2 ++ later.2)

section

variable (step : σ → α → σ × List β)

@[simp] theorem transduce_nil (s : σ) : transduce step s [] = (s, []) := rfl

theorem transduce_cons (s : σ) (a : α) (as : List α) :
    transduce step s (a :: as) =
      ((transduce step (step s a).1 as).1, (step s a).2 ++ (transduce step (step s a).1 as).2) :=
  rfl

@[simp] theorem transduce_singleton (s : σ) (a : α) : transduce step s [a] = step s a := by
  rw [transduce_cons, transduce_nil, append_nil]

theorem transduce_append (s : σ) (as bs : List α) :
    transduce step s (as ++ bs) =
      ((transduce step (transduce step s as).1 bs).1,
        (transduce step s as).2 ++ (transduce step (transduce step s as).1 bs).2) := by
  induction as generalizing s with
  | nil => simp
  | cons a as ih =>
    rw [cons_append, transduce_cons, ih, transduce_cons, append_assoc]

end

/-- A state that passes the input through unchanged. -/
theorem transduce_through {step : σ → α → σ × List α} {s : σ} (h : ∀ a, step s a = (s, [a]))
    (as : List α) : transduce step s as = (s, as) := by
  induction as with
  | nil => rfl
  | cons a as ih =>
    rw [transduce_cons, h, ih]
    rfl

/-- No more output than input in each step, so in the whole run. -/
theorem transduce_length_le {size : α → Nat} {step : σ → α → σ × List β}
    (h : ∀ s a, (step s a).2.length ≤ size a) (s : σ) (as : List α) :
    (transduce step s as).2.length ≤ (as.map size).sum := by
  induction as generalizing s with
  | nil => simp
  | cons a as ih =>
    rw [transduce_cons, length_append, map_cons, sum_cons]
    have hnow := h s a
    have hlater := ih (step s a).1
    omega

end Anywhere.Lib
