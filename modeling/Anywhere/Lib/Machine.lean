import Mathlib.Data.List.Perm.Basic
import Mathlib.Algebra.BigOperators.Group.List.Basic
import Mathlib.Logic.Relation

/-!
# Event machines

A deterministic machine is a step function `σ → ε → σ`; a run is the fold of
the step function over a list of events. This module holds the two rules every
whole-run result of the development is proved with.

The second half is about *bags of pending work*: a list from which any element
may be taken next. Taking the element at an index is a permutation followed by
a `cons` (`perm_cons_eraseIdx`), so facts about bags reduce to facts about
their head.
-/

namespace Anywhere.Lib

variable {σ ε : Type*}

/-! ## Runs -/

/-- The state a machine is in after a list of events. -/
def run (step : σ → ε → σ) (s : σ) (es : List ε) : σ :=
  es.foldl step s

@[simp] theorem run_nil (step : σ → ε → σ) (s : σ) : run step s [] = s := rfl

@[simp] theorem run_cons (step : σ → ε → σ) (s : σ) (e : ε) (es : List ε) :
    run step s (e :: es) = run step (step s e) es := rfl

theorem run_append (step : σ → ε → σ) (s : σ) (es fs : List ε) :
    run step s (es ++ fs) = run step (run step s es) fs := by
  simp [run, List.foldl_append]

/-- Every step of the run meets `C` in the state it is taken in. -/
def RunAll (step : σ → ε → σ) (C : σ → ε → Prop) : σ → List ε → Prop
  | _, [] => True
  | s, e :: es => C s e ∧ RunAll step C (step s e) es

theorem runAll_append {step : σ → ε → σ} {C : σ → ε → Prop} {s : σ} {es fs : List ε} :
    RunAll step C s (es ++ fs) ↔ RunAll step C s es ∧ RunAll step C (run step s es) fs := by
  induction es generalizing s with
  | nil => simp [RunAll]
  | cons e es ih => simp [RunAll, ih, and_assoc]

theorem RunAll.imp {step : σ → ε → σ} {C C' : σ → ε → Prop} (h : ∀ s e, C s e → C' s e) {s : σ}
    {es : List ε} (hrun : RunAll step C s es) : RunAll step C' s es := by
  induction es generalizing s with
  | nil => trivial
  | cons e es ih => exact ⟨h s e hrun.1, ih hrun.2⟩

/-- A condition on the events alone. -/
theorem runAll_of_forall {C : ε → Prop} {es : List ε} (h : ∀ e ∈ es, C e)
    (step : σ → ε → σ) (s : σ) :
    RunAll step (fun _ e => C e) s es := by
  induction es generalizing s with
  | nil => trivial
  | cons e es ih =>
      exact ⟨h e List.mem_cons_self, ih (fun e' he' => h e' (List.mem_cons_of_mem _ he')) _⟩

theorem runAll_true (step : σ → ε → σ) (s : σ) (es : List ε) :
    RunAll step (fun _ _ => True) s es := by
  induction es generalizing s with
  | nil => trivial
  | cons e es ih => exact ⟨trivial, ih (step s e)⟩

instance decidableRunAll (step : σ → ε → σ) (C : σ → ε → Prop) [∀ s e, Decidable (C s e)] :
    ∀ (s : σ) (es : List ε), Decidable (RunAll step C s es)
  | _, [] => isTrue trivial
  | s, e :: es =>
    have := decidableRunAll step C (step s e) es
    inferInstanceAs (Decidable (C s e ∧ RunAll step C (step s e) es))

/-- **Invariant rule, conditional form.** -/
theorem run_invariant_of {step : σ → ε → σ} {C : σ → ε → Prop} {I : σ → Prop}
    (hstep : ∀ s e, C s e → I s → I (step s e)) :
    ∀ {es : List ε} {s : σ}, RunAll step C s es → I s → I (run step s es) := by
  intro es
  induction es with
  | nil => intro s _ hs; exact hs
  | cons e es ih =>
    intro s hC hs
    exact ih hC.2 (hstep s e hC.1 hs)

/-- What holds at the start and is preserved by every step holds after every run. -/
theorem run_invariant {step : σ → ε → σ} {I : σ → Prop}
    (hstep : ∀ s e, I s → I (step s e)) {s : σ} (hs : I s) (es : List ε) :
    I (run step s es) := by
  exact run_invariant_of (fun s e _ h => hstep s e h) (runAll_true step s es) hs

theorem RunAll.of_invariant {step : σ → ε → σ} {C P : σ → ε → Prop} {I : σ → Prop}
    (hstep : ∀ s e, C s e → I s → I (step s e)) (hP : ∀ s e, C s e → I s → P s e) :
    ∀ {es : List ε} {s : σ}, RunAll step C s es → I s → RunAll step P s es := by
  intro es
  induction es with
  | nil => intro s _ _; trivial
  | cons e es ih =>
    intro s hC hs
    exact ⟨hP s e hC.1 hs, ih hC.2 (hstep s e hC.1 hs)⟩

theorem actions_invariant {A : σ → σ → Prop} {I : σ → Prop}
    (hA : ∀ s t, A s t → I s → I t) {s t : σ}
    (h : Relation.ReflTransGen A s t) (hs : I s) : I t := by
  induction h with
  | refl => exact hs
  | tail _ hAct ih => exact hA _ _ hAct ih

/-! ## Bags of pending work -/

section Bag

variable {α : Type*}

/-- Taking the element at an index out of a bag. -/
theorem perm_cons_eraseIdx {l : List α} {i : Nat} {a : α} (h : l[i]? = some a) :
    l.Perm (a :: l.eraseIdx i) := by
  obtain ⟨hi, rfl⟩ := List.getElem?_eq_some_iff.mp h
  exact (List.getElem_cons_eraseIdx_perm hi).symm

/-- Two bags with the same elements have the same total weight. -/
theorem sum_map_perm {M : Type*} [AddCommMonoid M] {l l' : List α} (h : l.Perm l')
    (f : α → M) : (l.map f).sum = (l'.map f).sum :=
  (h.map f).sum_eq

/-- In a bag with at most one element satisfying `p`, the order of the bag
does not show in that part of it. -/
theorem filter_eq_of_perm {l l' : List α} {p : α → Bool} (h : l.Perm l')
    (hp : (l.filter p).length ≤ 1) : l.filter p = l'.filter p := by
  have hperm := h.filter p
  have hlen := hperm.length_eq
  match hl : l.filter p, hl' : l'.filter p with
  | [], [] => rfl
  | [a], [b] =>
    rw [hl, hl'] at hperm
    rw [List.perm_singleton.mp hperm.symm]
  | [], _ :: _ => simp [hl, hl'] at hlen
  | [_], [] => simp [hl, hl'] at hlen
  | [_], _ :: _ :: _ => simp [hl, hl'] at hlen
  | _ :: _ :: _, _ => simp [hl] at hp

end Bag

end Anywhere.Lib
