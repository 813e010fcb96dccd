import Mathlib.Data.List.Nodup
import Mathlib.Data.Finset.Card
import Mathlib.Data.List.Induction
import Mathlib.Data.List.DropRight

/-!
# Recency lists

The distinct keys of a history of touches, the one touched last first. A cache
that keeps the `n` keys touched most recently holds the first `n` keys of that
list, and a key is among them as long as fewer than `n` other keys were touched
since it was.

* `recency` — the recency list of a history.
-/

namespace Anywhere.Lib

open List

universe u

variable {κ : Type u} [DecidableEq κ]

/-- Move a key to the front. -/
def touch (k : κ) (l : List κ) : List κ := k :: l.erase k

/-- The distinct keys of a history, the last touched first. -/
def recency (touches : List κ) : List κ := touches.foldl (fun l k => touch k l) []

@[simp] theorem recency_snoc (touches : List κ) (k : κ) :
    recency (touches ++ [k]) = touch k (recency touches) := by
  simp [recency, foldl_append]

variable {k : κ} {l touches : List κ}

theorem touch_append {r : List κ} (hk : k ∉ l) : touch k (l ++ k :: r) = k :: (l ++ r) := by
  rw [touch, erase_append_right _ hk, erase_cons_head]

theorem nodup_touch (h : l.Nodup) (k : κ) : (touch k l).Nodup :=
  nodup_cons.mpr ⟨h.not_mem_erase, h.erase k⟩

theorem nodup_recency (touches : List κ) : (recency touches).Nodup := by
  induction touches using List.reverseRecOn with
  | nil => exact nodup_nil
  | append_singleton touches k ih =>
    rw [recency_snoc]
    exact nodup_touch ih k

theorem mem_recency : k ∈ recency touches ↔ k ∈ touches := by
  induction touches using List.reverseRecOn with
  | nil => simp [recency]
  | append_singleton touches k' ih =>
    rw [recency_snoc, touch, mem_cons, mem_append, mem_singleton, ← ih]
    by_cases hk : k = k'
    · simp [hk]
    · simp [hk, mem_erase_of_ne hk]

/-- What a later part of the history does to the order. -/
theorem recency_append (a b : List κ) :
    recency (a ++ b) = recency b ++ (recency a).filter (fun k => k ∉ b) := by
  induction b using List.reverseRecOn with
  | nil => simp [recency]
  | append_singleton b k ih =>
    rw [← append_assoc, recency_snoc, ih, recency_snoc, touch, touch, cons_append]
    congr 1
    by_cases hk : k ∈ b
    · -- the key is in the later part already
      rw [erase_append_left _ (mem_recency.2 hk)]
      congr 1
      refine filter_congr fun x _ => ?_
      by_cases hx : x = k
      · simp [hx, hk]
      · simp [hx]
    · have hkr : k ∉ recency b := fun h => hk (mem_recency.1 h)
      rw [erase_append_right _ hkr, erase_of_not_mem hkr]
      congr 1
      rw [((nodup_recency a).filter _).erase_eq_filter, filter_filter]
      refine filter_congr fun x _ => ?_
      by_cases hx : x = k
      · simp [hx]
      · simp [hx]

theorem length_recency (touches : List κ) : (recency touches).length = touches.toFinset.card := by
  have h : touches.toFinset = (recency touches).toFinset := by
    ext k
    simp [mem_recency]
  rw [h, toFinset_card_of_nodup (nodup_recency touches)]

-- ----
-- A cache of `n` keys

/-- A touch of a key that is in the cache. -/
theorem take_touch_of_mem {n : Nat} (hk : k ∈ l.take n) :
    (touch k l).take n = touch k (l.take n) := by
  have hpos : 0 < n := by
    rcases n with - | n
    · simp at hk
    · omega
  have hl : l = l.take n ++ l.drop n := (take_append_drop n l).symm
  -- the key is cut out of the first part
  have herase : l.erase k = (l.take n).erase k ++ l.drop n := by
    conv_lhs => rw [hl]
    rw [erase_append_left _ hk]
  have hlen' : ((l.take n).erase k).length = min n l.length - 1 := by
    rw [length_erase_of_mem hk, length_take]
  rw [touch, touch, herase]
  obtain ⟨m, rfl⟩ : ∃ m, n = m + 1 := ⟨n - 1, by omega⟩
  rw [take_succ_cons]
  congr 1
  by_cases hfull : m + 1 ≤ l.length
  · rw [take_append_of_le_length (by omega), take_of_length_le (by omega)]
  · rw [drop_of_length_le (by omega), append_nil, take_of_length_le (by omega)]

/-- Touching a key the cache does not hold: the last key makes room for it. -/
theorem take_touch_of_notMem {n : Nat} (hk : k ∉ l.take (n + 1)) :
    (touch k l).take (n + 1) = k :: l.take n := by
  rw [touch, take_succ_cons]
  congr 1
  have hkn : k ∉ l.take n := fun h => hk (by
    rw [take_add_one]
    exact mem_append_left _ h)
  have hl : l = l.take n ++ l.drop n := (take_append_drop n l).symm
  conv_lhs => rw [hl]
  rw [erase_append_right _ hkn]
  by_cases hfull : n ≤ l.length
  · rw [take_append_of_le_length (by rw [length_take]; omega),
      take_of_length_le (by rw [length_take]; omega)]
  · rw [drop_of_length_le (by omega)]
    simp

/-- **How long a key stays.** -/
theorem mem_take_recency {a b : List κ} (hk : k ∉ b) (n : Nat) :
    k ∈ (recency (a ++ k :: b)).take n ↔ b.toFinset.card < n := by
  have hsplit : recency (a ++ k :: b) =
      recency b ++ k :: ((recency a).erase k).filter (fun x => x ∉ b) := by
    have hcut : a ++ k :: b = (a ++ [k]) ++ b := by simp
    rw [hcut, recency_append, recency_snoc, touch, filter_cons_of_pos (by simpa using hk)]
  have hkr : k ∉ recency b := fun h => hk (mem_recency.1 h)
  rw [hsplit, ← length_recency]
  constructor
  · intro hmem
    by_contra hle
    rw [take_append_of_le_length (by omega)] at hmem
    exact hkr (mem_of_mem_take hmem)
  · intro hlt
    obtain ⟨m, hm⟩ : ∃ m, n = (recency b).length + (m + 1) :=
      ⟨n - (recency b).length - 1, by omega⟩
    rw [hm, take_length_add_append, take_succ_cons]
    simp

-- ----
-- Since a key was last touched

/-- What was touched since `k` was last touched. -/
def since (k : κ) (touches : List κ) : List κ := touches.rtakeWhile (fun x => decide (x ≠ k))

theorem notMem_since (k : κ) (touches : List κ) : k ∉ since k touches := by
  intro hmem
  simpa using mem_rtakeWhile_imp hmem

theorem exists_append_since (hk : k ∈ touches) :
    ∃ a, touches = a ++ k :: since k touches := by
  induction touches using List.reverseRecOn with
  | nil => cases hk
  | append_singleton touches x ih =>
    by_cases hx : x = k
    · exact ⟨touches, by simp [since, hx]⟩
    · obtain ⟨a, ha⟩ := ih (by simpa [Ne.symm hx] using hk)
      refine ⟨a, ?_⟩
      rw [since, rtakeWhile_concat_pos _ _ _ (by simpa using hx), ← since]
      conv_lhs => rw [ha]
      simp

theorem since_append_cons (k : κ) (a b : List κ) : since k (a ++ k :: b) = since k b := by
  induction b using List.reverseRecOn with
  | nil => simp [since]
  | append_singleton b x ih =>
    have hcut : a ++ k :: (b ++ [x]) = (a ++ k :: b) ++ [x] := by simp
    rw [hcut, since, since, rtakeWhile_concat, rtakeWhile_concat, ← since, ← since, ih]

/-- **How long a key stays**, over a history that goes on after it was touched. -/
theorem mem_take_recency_since (a b : List κ) (k : κ) (n : Nat) :
    k ∈ (recency (a ++ k :: b)).take n ↔ (since k b).toFinset.card < n := by
  obtain ⟨c, hc⟩ := exists_append_since (show k ∈ a ++ k :: b by simp)
  rw [hc, since_append_cons]
  exact mem_take_recency (notMem_since k b) n

/-- **The order is the order of last touches**: what stands in front of a key was
touched since. -/
theorem mem_since_of_recency {r : List κ}
    (h : recency touches = l ++ k :: r) {x : κ} (hx : x ∈ l) : x ∈ since k touches := by
  have hk : k ∈ touches := by
    rw [← mem_recency, h]
    simp
  obtain ⟨a, ha⟩ := exists_append_since hk
  have hnodup := nodup_recency touches
  rw [h] at hnodup
  have hl : k ∉ l := fun hin => (nodup_append.mp hnodup).2.2 k hin k (by simp) rfl
  have hr : k ∉ r := (nodup_cons.mp (nodup_append.mp hnodup).2.1).1
  have hsplit := recency_append (a ++ [k]) (since k touches)
  rw [append_assoc, singleton_append, ← ha, h, recency_snoc, touch,
    filter_cons_of_pos (by simpa using notMem_since k touches)] at hsplit
  have := (append_cons_inj_of_notMem hl hr).mp hsplit
  rw [this.1] at hx
  exact mem_recency.1 hx

end Anywhere.Lib
