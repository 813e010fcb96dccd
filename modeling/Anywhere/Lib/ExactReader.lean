import Mathlib.Data.List.Basic
import Mathlib.Data.List.Flatten

/-!
# Exact readers

A reader that always knows how many elements it needs next: it waits for them,
takes exactly that many, and the state it is in behind them says how many it needs
then. What is read may be refused.

* `feed` — take all complete pieces off a stream: the state, the elements that are
  left, and what was put out.
-/

namespace Anywhere.Lib

open List

universe u v w

/-- A reader that takes pieces of a known length. -/
structure ExactReader (σ : Type u) (α : Type v) (ω : Type w) where
  need : σ → Nat
  need_pos : ∀ s, 0 < need s
  /-- What a piece of the needed length does; null when it is refused. -/
  on : σ → List α → Option (σ × List ω)

namespace ExactReader

variable {σ : Type u} {α : Type v} {ω : Type w} (R : ExactReader σ α ω)

/-- Take the complete pieces off the front of `xs`. -/
def feed (s : σ) (xs : List α) : Option (σ × List α × List ω) :=
  if xs.length < R.need s then some (s, xs, [])
  else
    (R.on s (xs.take (R.need s))).bind fun r =>
      (feed r.1 (xs.drop (R.need s))).map fun t => (t.1, t.2.1, r.2 ++ t.2.2)
termination_by xs.length
decreasing_by
  have := R.need_pos s
  simp only [length_drop]
  omega

theorem feed_short {s : σ} {xs : List α} (h : xs.length < R.need s) :
    R.feed s xs = some (s, xs, []) := by
  rw [feed, if_pos h]

theorem feed_of_le {s : σ} {xs : List α} (h : R.need s ≤ xs.length) :
    R.feed s xs = (R.on s (xs.take (R.need s))).bind fun r =>
      (R.feed r.1 (xs.drop (R.need s))).map fun t => (t.1, t.2.1, r.2 ++ t.2.2) := by
  rw [feed, if_neg (by omega)]

/-- A feed that is not refused takes the first piece, and feeds what stands behind it. -/
theorem feed_of_le_some {s s' : σ} {xs rest : List α} {out : List ω} (h : R.need s ≤ xs.length)
    (hfeed : R.feed s xs = some (s', rest, out)) :
    ∃ s₁ out₁ out₂, R.on s (xs.take (R.need s)) = some (s₁, out₁) ∧
      R.feed s₁ (xs.drop (R.need s)) = some (s', rest, out₂) ∧ out = out₁ ++ out₂ := by
  rw [R.feed_of_le h] at hfeed
  obtain ⟨⟨s₁, out₁⟩, hon, hfeed⟩ := Option.bind_eq_some_iff.1 hfeed
  obtain ⟨⟨s₂, rest₂, out₂⟩, hbehind, heq⟩ := Option.map_eq_some_iff.1 hfeed
  obtain ⟨rfl, rfl, rfl⟩ := by simpa using heq
  exact ⟨s₁, out₁, out₂, hon, hbehind, rfl⟩

/-- One piece at a time, for round trips. -/
theorem feed_piece {s s' : σ} {piece : List α} {out : List ω} (hlen : piece.length = R.need s)
    (hon : R.on s piece = some (s', out)) (ys : List α) :
    R.feed s (piece ++ ys) = (R.feed s' ys).map fun t => (t.1, t.2.1, out ++ t.2.2) := by
  rw [R.feed_of_le (by simp; omega), take_left' hlen, drop_left' hlen, hon]
  rfl

/-- What is left is too short for the next piece. -/
theorem feed_rest {s s' : σ} {xs rest : List α} {out : List ω}
    (h : R.feed s xs = some (s', rest, out)) : rest.length < R.need s' := by
  induction hn : xs.length using Nat.strongRecOn generalizing s xs out with
  | ind n ih =>
    subst hn
    by_cases hlt : xs.length < R.need s
    · rw [R.feed_short hlt] at h
      obtain ⟨rfl, rfl, -⟩ := by simpa using h
      exact hlt
    · have hpos := R.need_pos s
      obtain ⟨s₁, out₁, out₂, -, hfeed, -⟩ := R.feed_of_le_some (by omega) h
      exact ih _ (by simp; omega) hfeed rfl

/-- A feed takes no piece, or it ends in a state that a piece leads to. -/
theorem feed_stays_or {P : σ → Prop}
    (hon : ∀ s piece s' out, R.on s piece = some (s', out) → P s') {s s' : σ} {xs rest : List α}
    {out : List ω} (h : R.feed s xs = some (s', rest, out)) : (s' = s ∧ rest = xs) ∨ P s' := by
  induction hn : xs.length using Nat.strongRecOn generalizing s xs out with
  | ind n ih =>
    subst hn
    by_cases hlt : xs.length < R.need s
    · rw [R.feed_short hlt] at h
      obtain ⟨rfl, rfl, -⟩ := by simpa using h
      exact .inl ⟨rfl, rfl⟩
    · have hpos := R.need_pos s
      obtain ⟨s₁, out₁, out₂, hpiece, hfeed, -⟩ := R.feed_of_le_some (by omega) h
      rcases ih _ (by simp; omega) hfeed rfl with ⟨rfl, -⟩ | hend
      · exact .inr (hon _ _ _ _ hpiece)
      · exact .inr hend

/-- Feeding is resumable. -/
theorem feed_append (s : σ) (xs ys : List α) :
    R.feed s (xs ++ ys) = (R.feed s xs).bind fun r =>
      (R.feed r.1 (r.2.1 ++ ys)).map fun t => (t.1, t.2.1, r.2.2 ++ t.2.2) := by
  induction hn : xs.length using Nat.strongRecOn generalizing s xs with
  | ind n ih =>
    subst hn
    by_cases hlt : xs.length < R.need s
    · rw [R.feed_short hlt]
      simp
    · have hpos := R.need_pos s
      have hle : R.need s ≤ xs.length := by omega
      have hle' : R.need s ≤ (xs ++ ys).length := by simp; omega
      rw [R.feed_of_le hle, R.feed_of_le hle',
        take_append_of_le_length hle, drop_append_of_le_length hle]
      rcases R.on s (xs.take (R.need s)) with _ | ⟨s₁, out₁⟩
      · rfl
      · simp only [Option.bind_some]
        rw [ih _ (by simp; omega) s₁ (xs.drop (R.need s)) rfl]
        rcases R.feed s₁ (xs.drop (R.need s)) with _ | ⟨s₂, rest₂, out₂⟩
        · rfl
        · simp only [Option.bind_some, Option.map_some]
          rcases R.feed s₂ (rest₂ ++ ys) with _ | ⟨s₃, rest₃, out₃⟩
          · rfl
          · simp

def feedAll : σ → List α → List (List α) → Option (σ × List α × List (List ω))
  | s, rest, [] => some (s, rest, [])
  | s, rest, chunk :: chunks =>
    (R.feed s (rest ++ chunk)).bind fun r =>
      (feedAll r.1 r.2.1 chunks).map fun t => (t.1, t.2.1, r.2.2 :: t.2.2)

/-- The cuts do not show: the chunks are refused when the whole stream is, and put
out what it does. -/
theorem feedAll_eq {s : σ} {rest : List α} (hrest : rest.length < R.need s)
    (chunks : List (List α)) :
    R.feed s (rest ++ chunks.flatten) =
      (R.feedAll s rest chunks).map fun t => (t.1, t.2.1, t.2.2.flatten) := by
  induction chunks generalizing s rest with
  | nil => simp [feedAll, R.feed_short hrest]
  | cons chunk chunks ih =>
    rw [flatten_cons, ← append_assoc, feed_append, feedAll]
    rcases h : R.feed s (rest ++ chunk) with _ | ⟨s₁, rest₁, out₁⟩
    · rfl
    · simp only [Option.bind_some]
      rw [ih (R.feed_rest h)]
      rcases R.feedAll s₁ rest₁ chunks with _ | ⟨s₂, rest₂, outs₂⟩
      · rfl
      · simp

end ExactReader

end Anywhere.Lib
