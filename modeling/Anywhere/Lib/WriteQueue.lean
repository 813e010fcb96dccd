import Mathlib.Data.List.Basic

/-!
# Messages written in pieces

A writer takes messages one after the other and writes them in that order. Of the
first message that is not written out yet a part may be written, of the later ones
nothing. `Writes accepted outs written finished` says that the messages `accepted`
are all taken, that `finished` of them are written out, and how much is written of
those that are left, `outs`.

* `Writes.written_out` — what is written is the beginning of what was taken.
* `Writes.finished_out` — a message that is written out is in it.
* `Writes.push`, `Writes.pushPart`, `Writes.advance`, `Writes.finish` — taking a
  message, also one that is begun at once, writing on, and the end of a message.
-/

namespace Anywhere.Lib

open List

variable {α : Type*}

/-- What is written of the first message that is left. -/
def begun : List (List α × Nat) → List α
  | [] => []
  | (data, offset) :: _ => data.take offset

/-- How far the messages are written. -/
structure Writes (accepted : List (List α)) (outs : List (List α × Nat)) (written : List α)
    (finished : Nat) : Prop where
  le : finished ≤ accepted.length
  left : outs.map Prod.fst = accepted.drop finished
  out : written = (accepted.take finished).flatten ++ begun outs
  later : ∀ out ∈ outs.tail, out.2 = 0

namespace Writes

variable {accepted : List (List α)} {outs : List (List α × Nat)} {written : List α} {finished : Nat}
  {data : List α} {offset : Nat}

theorem start : Writes ([] : List (List α)) [] [] 0 := by
  refine ⟨Nat.le_refl _, rfl, rfl, ?_⟩
  intro out hout
  cases hout

theorem length (h : Writes accepted outs written finished) :
    accepted.length = finished + outs.length := by
  have hlen := congrArg List.length h.left
  rw [length_map, length_drop] at hlen
  have := h.le
  omega

theorem begun_out (outs : List (List α × Nat)) : begun outs <+: (outs.map Prod.fst).flatten := by
  rcases outs with _ | ⟨⟨data, offset⟩, outs⟩
  · exact prefix_rfl
  · rw [map_cons, flatten_cons]
    show data.take offset <+: _
    nth_rewrite 2 [← take_append_drop offset data]
    rw [append_assoc]
    exact prefix_append _ _

theorem written_out (h : Writes accepted outs written finished) : written <+: accepted.flatten := by
  have hsplit : accepted.flatten = (accepted.take finished).flatten ++
      (outs.map Prod.fst).flatten := by
    rw [h.left, ← flatten_append, take_append_drop]
  rw [h.out, hsplit]
  exact (prefix_append_right_inj _).2 (begun_out outs)

theorem finished_out (h : Writes accepted outs written finished) {k : Nat} (hk : k < finished) :
    (accepted.take (k + 1)).flatten <+: written := by
  have htake : accepted.take finished =
      accepted.take (k + 1) ++ (accepted.take finished).drop (k + 1) := by
    have hmin : (accepted.take finished).take (k + 1) = accepted.take (k + 1) := by
      rw [take_take, Nat.min_eq_left hk]
    rw [← hmin, take_append_drop]
  rw [h.out, htake, flatten_append, append_assoc]
  exact prefix_append _ _

theorem push (h : Writes accepted outs written finished) (data : List α) :
    Writes (accepted ++ [data]) (outs ++ [(data, 0)]) written finished := by
  have hle := h.le
  refine ⟨by simp; omega, ?_, ?_, ?_⟩
  · rw [map_append, h.left, drop_append_of_le_length hle]
    rfl
  · rw [take_append_of_le_length hle, h.out]
    rcases outs with _ | ⟨out, outs⟩
    · simp [begun]
    · rfl
  · intro out hout
    rcases outs with _ | ⟨first, outs⟩
    · cases hout
    · rw [cons_append, tail_cons, mem_append, mem_singleton] at hout
      rcases hout with hout | rfl
      · exact h.later out hout
      · rfl

/-- A message that is begun at once, when nothing is left. -/
theorem pushPart (h : Writes accepted [] written finished) (data : List α) (n : Nat) :
    Writes (accepted ++ [data]) [(data, n)] (written ++ data.take n) finished := by
  have hle := h.le
  refine ⟨by simp; omega, ?_, ?_, ?_⟩
  · rw [drop_append_of_le_length hle, ← h.left]
    rfl
  · rw [take_append_of_le_length hle, h.out]
    simp [begun]
  · intro out hout
    cases hout

theorem advance (h : Writes accepted ((data, offset) :: outs) written finished) (n : Nat) :
    Writes accepted ((data, offset + n) :: outs) (written ++ (data.drop offset).take n)
      finished := by
  refine ⟨h.le, h.left, ?_, h.later⟩
  rw [h.out, append_assoc]
  show _ = _ ++ data.take (offset + n)
  rw [take_add]
  rfl

theorem finish (h : Writes accepted ((data, offset) :: outs) written finished)
    (hoffset : data.length ≤ offset) : Writes accepted outs written (finished + 1) := by
  have hlen := h.length
  rw [length_cons] at hlen
  have hget : accepted[finished]? = some data := by
    have hdrop := congrArg (·[0]?) h.left
    simpa using hdrop.symm
  refine ⟨by omega, ?_, ?_, ?_⟩
  · have htail := congrArg List.tail h.left
    rw [map_cons, tail_cons, tail_drop] at htail
    exact htail
  · have hbegun : begun outs = [] := by
      rcases outs with _ | ⟨⟨next, off⟩, outs⟩
      · rfl
      · have hzero : off = 0 := h.later (next, off) (by simp)
        rw [hzero]
        rfl
    rw [h.out, hbegun, take_add_one, hget, flatten_append]
    show _ ++ data.take offset = _
    rw [take_of_length_le hoffset]
    simp
  · intro out hout
    exact h.later out (mem_of_mem_tail hout)

end Writes

end Anywhere.Lib
