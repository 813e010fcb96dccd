import Mathlib.Data.List.Basic

/-!
# Words and numbers of any size

A program that reads numbers into words, beside the same program over numbers of any size. The one
records what it has read and the other the numbers that came up; as long as these fit, the two go
the same way, and what does not fit is the first thing that is not read exactly.

* `Walk.fits_andThen` — the numbers of one walk after another.
-/

namespace Anywhere.Lib

open List

variable {ρ ε α β γ δ : Type}

-- ----
-- Walks

/-- The numbers that come up, and the result if there is one. -/
structure Walk (α : Type) where
  numbers : List Nat
  result : Option α

namespace Walk

def andThen (w : Walk α) (f : α → Walk γ) : Walk γ :=
  match w.result with
  | none => ⟨w.numbers, none⟩
  | some a => ⟨w.numbers ++ (f a).numbers, (f a).result⟩

def Fits (limit : Nat) (w : Walk α) : Prop := ∀ n ∈ w.numbers, n < limit

instance (limit : Nat) (w : Walk α) : Decidable (w.Fits limit) := List.decidableBAll _ _

variable {limit : Nat} {w : Walk α} {f : α → Walk γ}

theorem andThen_none (h : w.result = none) : w.andThen f = ⟨w.numbers, none⟩ := by
  rw [andThen, h]

theorem andThen_some {a : α} (h : w.result = some a) :
    w.andThen f = ⟨w.numbers ++ (f a).numbers, (f a).result⟩ := by
  rw [andThen, h]

theorem fits_andThen : (w.andThen f).Fits limit ↔ w.Fits limit ∧ ∀ a, w.result = some a →
    (f a).Fits limit := by
  cases hresult : w.result with
  | none =>
    rw [andThen_none hresult]
    exact ⟨fun h => ⟨h, nofun⟩, fun h => h.1⟩
  | some a =>
    rw [andThen_some hresult]
    constructor
    · intro h
      refine ⟨fun n hn => h n (mem_append_left _ hn), fun a' ha n hn => ?_⟩
      obtain rfl := Option.some.inj ha
      exact h n (mem_append_right _ hn)
    · rintro ⟨hfirst, hsecond⟩ n hn
      rcases mem_append.mp hn with hn | hn
      · exact hfirst n hn
      · exact hsecond a rfl n hn

end Walk

-- ----
-- Runs

/-- What is read, and how it ends. -/
structure Run (ρ ε β : Type) where
  reads : List ρ
  outcome : Except ε β

namespace Run

def andThen (r : Run ρ ε β) (f : β → Run ρ ε δ) : Run ρ ε δ :=
  match r.outcome with
  | .error e => ⟨r.reads, .error e⟩
  | .ok b => ⟨r.reads ++ (f b).reads, (f b).outcome⟩

/-- All is read exactly, and it does not end in this way. -/
structure Clean (exact : ρ → Prop) (bad : ε) (r : Run ρ ε β) : Prop where
  reads : ∀ x ∈ r.reads, exact x
  outcome : r.outcome ≠ .error bad

variable {r : Run ρ ε β} {f : β → Run ρ ε δ}

theorem andThen_error {e : ε} (h : r.outcome = .error e) : r.andThen f = ⟨r.reads, .error e⟩ := by
  rw [andThen, h]

theorem andThen_ok {b : β} (h : r.outcome = .ok b) :
    r.andThen f = ⟨r.reads ++ (f b).reads, (f b).outcome⟩ := by
  rw [andThen, h]

theorem outcome_andThen : (r.andThen f).outcome = r.outcome >>= fun b => (f b).outcome := by
  cases h : r.outcome with
  | error e => rw [andThen_error h]; rfl
  | ok b => rw [andThen_ok h]; rfl

end Run

-- ----
-- One beside the other

/-- The run is clean when the numbers of the walk fit, and then they end alike. -/
structure Follows (exact : ρ → Prop) (bad : ε) (limit : Nat) (related : α → β → Prop)
    (r : Run ρ ε β) (w : Walk α) :
    Prop where
  clean : r.Clean exact bad ↔ w.Fits limit
  stops : w.Fits limit → w.result = none → ∃ e, r.outcome = .error e
  goesOn : w.Fits limit → ∀ a, w.result = some a → ∃ b, r.outcome = .ok b ∧ related a b

variable {exact : ρ → Prop} {bad : ε} {limit : Nat} {related : α → β → Prop}
    {related' : γ → δ → Prop}

/-- **One call after another.** -/
theorem Follows.andThen {r : Run ρ ε β} {w : Walk α} {f : β → Run ρ ε δ} {g : α → Walk γ}
    (h : Follows exact bad limit related r w)
    (hthen : ∀ a b, related a b → Follows exact bad limit related' (f b) (g a)) :
    Follows exact bad limit related' (r.andThen f) (w.andThen g) := by
  by_cases hfits : w.Fits limit
  · have hclean := h.clean.mpr hfits
    cases hresult : w.result with
    | none =>
      obtain ⟨e, he⟩ := h.stops hfits hresult
      rw [Walk.andThen_none hresult, Run.andThen_error he]
      have hgood : (Except.error e : Except ε δ) ≠ .error bad := fun heq =>
        hclean.outcome (he.trans (congrArg Except.error (Except.error.inj heq)))
      exact ⟨⟨fun _ => hfits, fun _ => ⟨hclean.reads, hgood⟩⟩, fun _ _ => ⟨e, rfl⟩,
        fun _ a ha => nomatch ha⟩
    | some a =>
      obtain ⟨b, hb, hrelated⟩ := h.goesOn hfits a hresult
      have hnext := hthen a b hrelated
      rw [Run.andThen_ok hb]
      have hboth : (w.andThen g).Fits limit ↔ (g a).Fits limit := by
        rw [Walk.fits_andThen]
        constructor
        · exact fun hall => hall.2 a hresult
        · intro hlater
          refine ⟨hfits, fun a' ha => ?_⟩
          rw [hresult] at ha
          rw [← Option.some.inj ha]
          exact hlater
      have hsame : (w.andThen g).result = (g a).result := by rw [Walk.andThen_some hresult]
      refine ⟨?_, ?_, ?_⟩
      · rw [hboth, ← hnext.clean]
        constructor
        · exact fun hall => ⟨fun x hx => hall.reads x (mem_append_right _ hx), hall.outcome⟩
        · refine fun hlater => ⟨fun x hx => ?_, hlater.outcome⟩
          rcases mem_append.mp hx with hx | hx
          · exact hclean.reads x hx
          · exact hlater.reads x hx
      · intro hall hnone
        exact hnext.stops (hboth.mp hall) (hsame ▸ hnone)
      · intro hall c hc
        exact hnext.goesOn (hboth.mp hall) c (hsame ▸ hc)
  · -- what does not fit comes up before the second call
    have hdirty : ¬ r.Clean exact bad := fun hclean => hfits (h.clean.mp hclean)
    have hlarge : ¬ (w.andThen g).Fits limit := fun hall => hfits (Walk.fits_andThen.mp hall).1
    refine ⟨⟨fun hclean => absurd ?_ hdirty, fun hall => absurd hall hlarge⟩,
      fun hall => absurd hall hlarge, fun hall => absurd hall hlarge⟩
    cases houtcome : r.outcome with
    | error e =>
      rw [Run.andThen_error houtcome] at hclean
      refine ⟨hclean.reads, fun heq => hclean.outcome ?_⟩
      exact congrArg Except.error (Except.error.inj (houtcome.symm.trans heq))
    | ok b =>
      rw [Run.andThen_ok houtcome] at hclean
      exact ⟨fun x hx => hclean.reads x (mem_append_left _ hx), by rw [houtcome]; exact nofun⟩

theorem Follows.map {related' : α → δ → Prop} {r : Run ρ ε β} {w : Walk α} {g : β → δ}
    (h : Follows exact bad limit related r w) (hmap : ∀ a b, related a b → related' a (g b)) :
    Follows exact bad limit related' (r.andThen fun b => ⟨[], .ok (g b)⟩) w := by
  have hclean : (r.andThen fun b => (⟨[], .ok (g b)⟩ : Run ρ ε δ)).Clean exact bad ↔
      r.Clean exact bad := by
    rcases r with ⟨reads, e | b⟩
    · rw [Run.andThen_error rfl]
      exact ⟨fun hall =>
        ⟨hall.reads, fun heq => hall.outcome (congrArg Except.error (Except.error.inj heq))⟩,
        fun hall =>
        ⟨hall.reads, fun heq => hall.outcome (congrArg Except.error (Except.error.inj heq))⟩⟩
    · rw [Run.andThen_ok rfl, append_nil]
      exact ⟨fun hall => ⟨hall.reads, nofun⟩, fun hall => ⟨hall.reads, nofun⟩⟩
  refine ⟨hclean.trans h.clean, fun hfits hnone => ?_, fun hfits a ha => ?_⟩
  · obtain ⟨e, he⟩ := h.stops hfits hnone
    rw [Run.andThen_error he]
    exact ⟨e, rfl⟩
  · obtain ⟨b, hb, hrelated⟩ := h.goesOn hfits a ha
    rw [Run.andThen_ok hb]
    exact ⟨g b, rfl, hmap a b hrelated⟩

theorem Follows.silent {o : Except ε β} {result : Option α} (hbad : o ≠ .error bad)
    (hstops : result = none → ∃ e, o = .error e) (hgoesOn : ∀ a, result = some a → ∃ b, o = .ok b ∧
      related a b) :
    Follows exact bad limit related ⟨[], o⟩ ⟨[], result⟩ :=
  ⟨⟨fun _ => nofun, fun _ => ⟨nofun, hbad⟩⟩, fun _ => hstops, fun _ => hgoesOn⟩

end Anywhere.Lib
