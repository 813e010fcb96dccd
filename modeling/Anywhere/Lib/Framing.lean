import Mathlib.Data.List.Basic
import Mathlib.Data.List.Flatten

/-!
# Framed streams

A stream is cut into frames by a function that takes the first complete frame
off its front. A reader keeps the bytes it could not use yet, appends what the
transport delivers next and tries again; the question is whether the cuts of
the transport show.

* `Framing` — a way to take a frame, that makes progress and does not change its
  mind when more of the stream arrives (`extend`).
* `drain` — handle the complete frames at the front until a condition stops it.
* `frames`, `rest` — all complete frames of a stream, and what is left.
* `Fits` — the pieces a reader with a bounded buffer can take.
* `readLoop`, `readLoop_spec` — the loop that drains, reads and drains again.
-/

namespace Anywhere.Lib

open List

universe u v w

section Cuts

variable {α : Type u}

theorem exists_rest {xs ys zs us : List α} (h : xs ++ ys = zs ++ us) (hlt : xs.length < zs.length) :
    ∃ rest, xs ++ rest = zs ∧ rest ≠ [] := by
  rcases append_eq_append_iff.mp h with ⟨rest, hzs, -⟩ | ⟨rest, hxs, -⟩
  · refine ⟨rest, hzs.symm, ?_⟩
    rintro rfl
    rw [hzs, append_nil] at hlt
    exact Nat.lt_irrefl _ hlt
  · rw [hxs, length_append] at hlt
    omega

theorem exists_beyond {xs ys zs us : List α} (h : xs ++ ys = zs ++ us)
    (hge : zs.length ≤ xs.length) :
    ∃ rest, xs = zs ++ rest ∧ rest ++ ys = us := by
  rcases append_eq_append_iff.mp h with ⟨rest, hzs, hys⟩ | ⟨rest, hxs, hus⟩
  · have hnil : rest = [] := by
      rw [hzs, length_append] at hge
      exact length_eq_zero_iff.mp (by omega)
    subst hnil
    exact ⟨[], by rw [hzs, append_nil, append_nil], by rw [hys, nil_append, nil_append]⟩
  · exact ⟨rest, hxs, hus.symm⟩

end Cuts

/-- How a stream is cut into frames. -/
structure Framing (α : Type u) (φ : Type v) where
  /-- The first frame and the stream behind it, when it is complete. -/
  next : List α → Option (φ × List α)
  progress : ∀ {xs f ys}, next xs = some (f, ys) → ys.length < xs.length
  extend : ∀ {xs f ys} (zs : List α), next xs = some (f, ys) → next (xs ++ zs) = some (f, ys ++ zs)

namespace Framing

variable {α : Type u} {φ : Type v} {S : Type w} (F : Framing α φ) (on : S → φ → S) (stop : S → Bool)

/-- A drain of at most `n` frames. -/
def drainFuel : Nat → S → List α → S × List α
  | 0, s, xs => (s, xs)
  | n + 1, s, xs =>
    if stop s then (s, xs)
    else
      match F.next xs with
      | none => (s, xs)
      | some (f, ys) => drainFuel n (on s f) ys

/-- Handle the complete frames at the front of `xs` until `stop`; every frame
takes at least one element, so the length is fuel enough. -/
def drain (s : S) (xs : List α) : S × List α := F.drainFuel on stop xs.length s xs

theorem next_nil : F.next [] = none := by
  cases h : F.next [] with
  | none => rfl
  | some p => exact absurd (F.progress h) (by simp)

theorem drainFuel_eq {n : Nat} {xs : List α} (hn : xs.length ≤ n) (s : S) :
    F.drainFuel on stop n s xs = F.drain on stop s xs := by
  -- both unfold alike as long as there is fuel
  suffices h : ∀ m n : Nat, ∀ xs : List α, ∀ s, xs.length ≤ m → xs.length ≤ n →
      F.drainFuel on stop n s xs = F.drainFuel on stop m s xs from h _ _ _ _ (Nat.le_refl _) hn
  intro m
  induction m with
  | zero =>
    intro n xs s hm _
    have hnil : xs = [] := eq_nil_of_length_eq_zero (by omega)
    subst hnil
    cases n <;> simp [drainFuel, F.next_nil]
  | succ m ih =>
    intro n xs s hm hn
    cases n with
    | zero =>
      have hnil : xs = [] := eq_nil_of_length_eq_zero (by omega)
      subst hnil
      simp [drainFuel, F.next_nil]
    | succ n =>
      unfold drainFuel
      split
      · rfl
      · cases hnext : F.next xs with
        | none => rfl
        | some p =>
          have := F.progress hnext
          exact ih n p.2 _ (by omega) (by omega)

theorem drain_eq (s : S) (xs : List α) :
    F.drain on stop s xs =
      if stop s then (s, xs)
      else
        match F.next xs with
        | none => (s, xs)
        | some (f, ys) => F.drain on stop (on s f) ys := by
  cases xs with
  | nil => simp [drain, drainFuel, F.next_nil]
  | cons x xs =>
    rw [drain, length_cons, drainFuel]
    split
    · rfl
    · cases hnext : F.next (x :: xs) with
      | none => rfl
      | some p =>
        have := F.progress hnext
        exact F.drainFuel_eq on stop (by rw [length_cons] at this; omega) _

theorem drain_stop {s : S} (h : stop s = true) (xs : List α) :
    F.drain on stop s xs = (s, xs) := by
  rw [drain_eq, if_pos h]

theorem drain_none {xs : List α} (h : F.next xs = none) (s : S) :
    F.drain on stop s xs = (s, xs) := by
  rw [drain_eq, h]
  split <;> rfl

theorem drain_some {s : S} {xs ys : List α} {f : φ} (hs : stop s = false)
    (h : F.next xs = some (f, ys)) : F.drain on stop s xs = F.drain on stop (on s f) ys := by
  rw [drain_eq, h, hs]
  rfl

theorem drain_induction {P : S → List α → Prop}
    (hstop : ∀ s xs, stop s = true → P s xs)
    (hnone : ∀ s xs, stop s = false → F.next xs = none → P s xs)
    (hsome : ∀ s xs f ys, stop s = false → F.next xs = some (f, ys) → P (on s f) ys → P s xs)
    (s : S) (xs : List α) : P s xs := by
  induction hn : xs.length using Nat.strongRecOn generalizing s xs with
  | ind n ih =>
    cases hs : stop s with
    | true => exact hstop s xs hs
    | false =>
      cases hnext : F.next xs with
      | none => exact hnone s xs hs hnext
      | some p =>
        have := F.progress hnext
        exact hsome s xs p.1 p.2 hs hnext (ih _ (by omega) _ _ rfl)

/-- Draining is resumable: stopping at a cut and going on with the rest is the same as having had
everything at once. -/
theorem drain_append (s : S) (xs zs : List α) :
    F.drain on stop s (xs ++ zs) =
      F.drain on stop (F.drain on stop s xs).1 ((F.drain on stop s xs).2 ++ zs) := by
  induction s, xs using F.drain_induction on stop with
  | hstop s xs hs => rw [F.drain_stop on stop hs xs]
  | hnone s xs hs hnext => rw [F.drain_none on stop hnext]
  | hsome s xs f ys hs hnext ih =>
    rw [F.drain_some on stop hs (F.extend zs hnext), F.drain_some on stop hs hnext, ih]

theorem drain_invariant {I : S → Prop}
    (hon : ∀ s xs f ys, stop s = false → F.next xs = some (f, ys) → I s → I (on s f)) {s : S}
    (hs : I s) (xs : List α) : I (F.drain on stop s xs).1 := by
  induction s, xs using F.drain_induction on stop with
  | hstop s xs h => rwa [F.drain_stop on stop h]
  | hnone s xs h hnext => rwa [F.drain_none on stop hnext]
  | hsome s xs f ys h hnext ih =>
    rw [F.drain_some on stop h hnext]
    exact ih (hon s xs f ys h hnext hs)

/-- **Simulation.** Two drains whose handlers agree through `g` agree through
`g`. -/
theorem drain_map {T : Type w} (on' : T → φ → T) (stop' : T → Bool) (g : S → T)
    (hon : ∀ s f, g (on s f) = on' (g s) f) (hstop : ∀ s, stop' (g s) = stop s) (s : S)
    (xs : List α) :
    F.drain on' stop' (g s) xs = (g (F.drain on stop s xs).1, (F.drain on stop s xs).2) := by
  induction s, xs using F.drain_induction on stop with
  | hstop s xs h => rw [F.drain_stop on stop h, F.drain_stop on' stop' (by rw [hstop, h])]
  | hnone s xs h hnext => rw [F.drain_none on stop hnext, F.drain_none on' stop' hnext]
  | hsome s xs f ys h hnext ih =>
    rw [F.drain_some on stop h hnext, F.drain_some on' stop' (by rw [hstop, h]) hnext, ← hon]
    exact ih

/-! ## All frames of a stream -/

def frames (xs : List α) : List φ := (F.drain (fun l f => l ++ [f]) (fun _ => false) [] xs).1

def rest (xs : List α) : List α := (F.drain (fun l f => l ++ [f]) (fun _ => false) [] xs).2

theorem collect_append (l : List φ) (xs : List α) :
    F.drain (fun l f => l ++ [f]) (fun _ => false) l xs = (l ++ F.frames xs, F.rest xs) := by
  have h := F.drain_map (fun l f => l ++ [f]) (fun _ => false) (fun l f => l ++ [f])
    (fun _ => false) (l ++ ·) (by simp) (fun _ => rfl) [] xs
  rw [append_nil] at h
  exact h

theorem frames_none {xs : List α} (h : F.next xs = none) : F.frames xs = [] := by
  rw [frames, F.drain_none _ _ h]

theorem rest_none {xs : List α} (h : F.next xs = none) : F.rest xs = xs := by
  rw [rest, F.drain_none _ _ h]

theorem frames_some {xs ys : List α} {f : φ} (h : F.next xs = some (f, ys)) :
    F.frames xs = f :: F.frames ys := by
  rw [frames, F.drain_some _ _ rfl h, collect_append]
  rfl

theorem rest_some {xs ys : List α} {f : φ} (h : F.next xs = some (f, ys)) :
    F.rest xs = F.rest ys := by
  rw [rest, F.drain_some _ _ rfl h, collect_append]

theorem frames_append (xs ys : List α) :
    F.frames (xs ++ ys) = F.frames xs ++ F.frames (F.rest xs ++ ys) := by
  rw [frames, drain_append, collect_append, collect_append, nil_append]

theorem rest_append (xs ys : List α) : F.rest (xs ++ ys) = F.rest (F.rest xs ++ ys) := by
  rw [rest, drain_append, collect_append, collect_append]

/-- What is left holds no complete frame. -/
theorem next_rest (xs : List α) : F.next (F.rest xs) = none := by
  induction h : xs.length using Nat.strongRecOn generalizing xs with
  | ind n ih =>
    rcases hnext : F.next xs with _ | ⟨f, ys⟩
    · rw [F.rest_none hnext]
      exact hnext
    · have hlt := F.progress hnext
      rw [F.rest_some hnext]
      exact ih ys.length (by omega) ys rfl

theorem length_rest_le (xs : List α) : (F.rest xs).length ≤ xs.length := by
  induction h : xs.length using Nat.strongRecOn generalizing xs with
  | ind n ih =>
    rcases hnext : F.next xs with _ | ⟨f, ys⟩
    · rw [F.rest_none hnext]
      exact Nat.le_of_eq h
    · have hlt := F.progress hnext
      have hys := ih ys.length (by omega) ys rfl
      rw [F.rest_some hnext]
      omega

/-- A drain that nothing stops goes through all frames. -/
theorem drain_all (s : S) (xs : List α) :
    F.drain on (fun _ => false) s xs = ((F.frames xs).foldl on s, F.rest xs) := by
  induction s, xs using F.drain_induction on (fun _ => false) with
  | hstop s xs h => cases h
  | hnone s xs _ hnext =>
    rw [F.drain_none on _ hnext, F.frames_none hnext, F.rest_none hnext]
    rfl
  | hsome s xs f ys hs hnext ih =>
    rw [F.drain_some on _ hs hnext, ih, F.frames_some hnext, F.rest_some hnext]
    rfl

/-- A drain goes through a first part of the frames, and through all of them when
nothing stops it. -/
theorem drain_frames (s : S) (xs : List α) :
    ∃ fs gs, F.frames xs = fs ++ gs ∧ (F.drain on stop s xs).1 = fs.foldl on s ∧
      (stop (F.drain on stop s xs).1 = false → gs = [] ∧ (F.drain on stop s xs).2 = F.rest xs) := by
  induction s, xs using F.drain_induction on stop with
  | hstop s xs hs =>
    rw [F.drain_stop on stop hs]
    exact ⟨[], F.frames xs, rfl, rfl, fun h => by rw [hs] at h; cases h⟩
  | hnone s xs hs hnext =>
    rw [F.drain_none on stop hnext, F.frames_none hnext, F.rest_none hnext]
    exact ⟨[], [], rfl, rfl, fun _ => ⟨rfl, rfl⟩⟩
  | hsome s xs f ys hs hnext ih =>
    obtain ⟨fs, gs, hframes, hstate, hall⟩ := ih
    rw [F.drain_some on stop hs hnext, F.frames_some hnext, F.rest_some hnext, hframes]
    exact ⟨f :: fs, gs, rfl, hstate, hall⟩

/-- A drain that nothing stops on these frames goes through all of them. -/
theorem drain_whole {s : S} {xs : List α}
    (h : ∀ fs gs, F.frames xs = fs ++ gs → stop (fs.foldl on s) = false) :
    F.drain on stop s xs = ((F.frames xs).foldl on s, F.rest xs) := by
  obtain ⟨fs, gs, hframes, hstate, hall⟩ := F.drain_frames on stop s xs
  have hstop : stop (F.drain on stop s xs).1 = false := by
    rw [hstate]
    exact h fs gs hframes
  obtain ⟨rfl, hrest⟩ := hall hstop
  rw [append_nil] at hframes
  rw [hframes, ← hstate, ← hrest]

/-! ## Encoded frames -/

/-- `enc` writes frames that `next` takes back off, whatever follows. -/
def Encodes (enc : φ → List α) (f : φ) : Prop := ∀ zs, F.next (enc f ++ zs) = some (f, zs)

theorem frames_encoded {enc : φ → List α} {fs : List φ} (hfs : ∀ f ∈ fs, F.Encodes enc f)
    (zs : List α) :
    F.frames (fs.flatMap enc ++ zs) = fs ++ F.frames zs ∧
      F.rest (fs.flatMap enc ++ zs) = F.rest zs := by
  induction fs with
  | nil => exact ⟨rfl, rfl⟩
  | cons f fs ih =>
    have hf := hfs f (by simp) (fs.flatMap enc ++ zs)
    obtain ⟨hframes, hrest⟩ := ih fun f' hf' => hfs f' (by simp [hf'])
    rw [flatMap_cons, append_assoc, F.frames_some hf, F.rest_some hf, hframes, hrest]
    exact ⟨rfl, rfl⟩

theorem frames_flatMap {enc : φ → List α} {fs : List φ} (hfs : ∀ f ∈ fs, F.Encodes enc f) :
    F.frames (fs.flatMap enc) = fs ∧ F.rest (fs.flatMap enc) = [] := by
  have h := F.frames_encoded hfs []
  rwa [append_nil, F.frames_none F.next_nil, F.rest_none F.next_nil, append_nil] at h

/-- A first part of an encoded list holds a first part of the frames, and what is left of
it begins the others. -/
theorem split_encoded {enc : φ → List α} {fs : List φ} (hfs : ∀ f ∈ fs, F.Encodes enc f)
    {xs more : List α} (h : xs ++ more = fs.flatMap enc) :
    ∃ done later tail, fs = done ++ later ∧ xs = done.flatMap enc ++ tail ∧
      F.next tail = none ∧ tail ++ more = later.flatMap enc := by
  induction fs generalizing xs with
  | nil =>
    obtain ⟨rfl, rfl⟩ := append_eq_nil_iff.1 h
    exact ⟨[], [], [], rfl, rfl, F.next_nil, rfl⟩
  | cons f fs ih =>
    rw [flatMap_cons] at h
    have hf := hfs f (by simp)
    -- the cut is behind the first frame, or within it
    rcases append_eq_append_iff.1 h with ⟨within, henc, hmore⟩ | ⟨ys, rfl, hys⟩
    · by_cases hw : within = []
      · subst hw
        obtain ⟨done, later, tail, rfl, htail, hnext, hlater⟩ :=
          ih (fun f' hf' => hfs f' (by simp [hf']))
            (show [] ++ more = fs.flatMap enc by simpa using hmore)
        refine ⟨f :: done, later, tail, rfl, ?_, hnext, hlater⟩
        rw [flatMap_cons, append_assoc, ← htail, henc]
        simp
      · refine ⟨[], f :: fs, xs, rfl, rfl, ?_, h⟩
        rcases hnext : F.next xs with _ | ⟨f', ys⟩
        · rfl
        · -- a frame in front of the cut would leave the bytes behind it
          have hwhole := F.extend within hnext
          have hfirst := hf []
          rw [append_nil, henc, hwhole] at hfirst
          have hrest : ys ++ within = [] := (Prod.mk.inj (Option.some.inj hfirst)).2
          exact absurd (append_eq_nil_iff.1 hrest).2 hw
    · obtain ⟨done, later, tail, rfl, rfl, hnext, hlater⟩ :=
        ih (fun f' hf' => hfs f' (by simp [hf'])) hys.symm
      exact ⟨f :: done, later, tail, rfl, by simp, hnext, hlater⟩

/-! ## Pieces of an encoded stream -/

section Pieces

variable {F} {enc : φ → List α}

theorem frames_bytes (henc : ∀ {xs f ys}, F.next xs = some (f, ys) → xs = enc f ++ ys)
    (xs : List α) : (F.frames xs).flatMap enc ++ F.rest xs = xs := by
  induction h : xs.length using Nat.strongRecOn generalizing xs with
  | ind n ih =>
    rcases hnext : F.next xs with _ | ⟨f, ys⟩
    · rw [F.frames_none hnext, F.rest_none hnext, flatMap_nil, nil_append]
    · have hlt := F.progress hnext
      rw [F.frames_some hnext, F.rest_some hnext, flatMap_cons, append_assoc,
        ih ys.length (by omega) ys rfl]
      exact (henc hnext).symm

/-- A drain takes encoded frames off the stream. -/
theorem drain_bytes (henc : ∀ {xs f ys}, F.next xs = some (f, ys) → xs = enc f ++ ys)
    (s : S) (xs : List α) : ∃ fs : List φ, (F.drain on stop s xs).1 = fs.foldl on s ∧
      fs.flatMap enc ++ (F.drain on stop s xs).2 = xs := by
  induction s, xs using F.drain_induction on stop with
  | hstop s xs hs =>
    rw [F.drain_stop on stop hs]
    exact ⟨[], rfl, rfl⟩
  | hnone s xs hs hnext =>
    rw [F.drain_none on stop hnext]
    exact ⟨[], rfl, rfl⟩
  | hsome s xs f ys hs hnext ih =>
    obtain ⟨fs, hstate, hbytes⟩ := ih
    rw [F.drain_some on stop hs hnext]
    refine ⟨f :: fs, hstate, ?_⟩
    rw [flatMap_cons, append_assoc, hbytes]
    exact (henc hnext).symm

/-- When no piece ends within a frame, the frames of the pieces are those of the stream. -/
theorem frames_flatten {pieces : List (List α)} (h : ∀ p ∈ pieces, F.rest p = []) :
    F.frames pieces.flatten = (pieces.map F.frames).flatten := by
  induction pieces with
  | nil => exact F.frames_none F.next_nil
  | cons p pieces ih =>
    rw [flatten_cons, F.frames_append, h p (by simp), nil_append,
      ih fun q hq => h q (by simp [hq]), map_cons, flatten_cons]

end Pieces

/-! ## Bounded buffers -/

section Bounded

def Fits (limit : Nat) (buffer : List α) (pieces : List (List α)) : Prop :=
  ∀ before piece after, pieces = before ++ piece :: after →
    (F.rest (buffer ++ before.flatten)).length + piece.length ≤ limit

variable {F} {limit : Nat} {buffer : List α}

theorem fits_of_length_le {pieces : List (List α)} (h : (buffer ++ pieces.flatten).length ≤ limit) :
    F.Fits limit buffer pieces := by
  intro before piece after hsplit
  have hrest := F.length_rest_le (buffer ++ before.flatten)
  rw [hsplit, flatten_append, flatten_cons] at h
  simp only [length_append] at h hrest
  omega

theorem Fits.head {piece : List α} {pieces : List (List α)}
    (h : F.Fits limit buffer (piece :: pieces)) :
    (F.rest buffer).length + piece.length ≤ limit := by
  have hfirst := h [] piece pieces rfl
  rwa [flatten_nil, append_nil] at hfirst

theorem Fits.congr {buffer' : List α} {pieces : List (List α)} (h : F.Fits limit buffer pieces)
    (hrest : F.rest buffer' = F.rest buffer) : F.Fits limit buffer' pieces := by
  intro before piece after hsplit
  rw [F.rest_append, hrest, ← F.rest_append]
  exact h before piece after hsplit

theorem Fits.tail {piece : List α} {pieces : List (List α)}
    (h : F.Fits limit buffer (piece :: pieces)) :
    F.Fits limit (buffer ++ piece) pieces := by
  intro before next after hsplit
  have hlater := h (piece :: before) next after (by rw [hsplit, cons_append])
  rwa [flatten_cons, ← append_assoc] at hlater

end Bounded

/-! ## Reading -/

/-- The loop around a drain: `start` begins each pass, and while `stop` does not
hold at its end, one more read is appended to what is left. `none` when the reads
run out first. -/
def readLoop (start : S → S) : S → List α → List (List α) → Option (S × List α × List (List α))
  | s, rest, reads =>
    let pass := F.drain on stop (start s) rest
    if stop pass.1 then some (pass.1, pass.2, reads)
    else
      match reads with
      | [] => none
      | data :: reads => readLoop start pass.1 (pass.2 ++ data) reads

/-- What the start of a pass and every frame preserve the loop preserves. -/
theorem readLoop_invariant {start : S → S} {I : S → Prop} (hstart : ∀ s, I s → I (start s))
    (hon : ∀ s xs f ys, stop s = false → F.next xs = some (f, ys) → I s → I (on s f))
    {reads : List (List α)} {s : S} {rest : List α} (hs : I s) {s' : S} {r : List α}
    {reads' : List (List α)}
    (h : F.readLoop on stop start s rest reads = some (s', r, reads')) :
    stop s' = true ∧ I s' := by
  induction reads generalizing s rest with
  | nil =>
    rw [readLoop] at h
    split at h
    · rename_i hdone
      simp only [Option.some.injEq, Prod.mk.injEq] at h
      obtain ⟨rfl, -, -⟩ := h
      exact ⟨hdone, F.drain_invariant on stop hon (hstart s hs) rest⟩
    · cases h
  | cons data reads ih =>
    have hpass := F.drain_invariant on stop hon (hstart s hs) rest
    rw [readLoop] at h
    split at h
    · rename_i hdone
      simp only [Option.some.injEq, Prod.mk.injEq] at h
      obtain ⟨rfl, -, -⟩ := h
      exact ⟨hdone, hpass⟩
    · exact ih hpass h

/-- **The cuts do not show.** Seen through a `g` that the start of a pass leaves
alone, the loop ends as one drain of the whole stream does, and what it left
unhandled followed by what it did not read is what that drain leaves. -/
theorem readLoop_spec {T : Type w} (on' : T → φ → T) (stop' : T → Bool) (start : S → S)
    (g : S → T) (hon : ∀ s f, g (on s f) = on' (g s) f) (hstop : ∀ s, stop' (g s) = stop s)
    (hstart : ∀ s, stop s = false → g (start s) = g s) (reads : List (List α)) {s : S}
    (hs : stop s = false) (rest : List α) :
    match F.readLoop on stop start s rest reads with
    | none => stop' (F.drain on' stop' (g s) (rest ++ reads.flatten)).1 = false
    | some (s', r, reads') =>
      stop s' = true ∧
        F.drain on' stop' (g s) (rest ++ reads.flatten) = (g s', r ++ reads'.flatten) := by
  induction reads generalizing s rest with
  | nil =>
    have hpass := F.drain_map on stop on' stop' g hon hstop (start s) rest
    rw [hstart s hs] at hpass
    rw [readLoop]
    cases hdone : stop (F.drain on stop (start s) rest).1 with
    | true => simpa [hdone] using hpass
    | false => simpa [hpass, hstop] using hdone
  | cons data reads ih =>
    have hpass := F.drain_map on stop on' stop' g hon hstop (start s) rest
    rw [hstart s hs] at hpass
    rw [readLoop]
    -- the drain of the whole stream goes through the end of this pass
    have hwhole := F.drain_append on' stop' (g s) rest (data ++ reads.flatten)
    rw [hpass] at hwhole
    cases hdone : stop (F.drain on stop (start s) rest).1 with
    | true =>
      simp only [hdone, if_true, flatten_cons]
      refine ⟨trivial, ?_⟩
      rw [hwhole, F.drain_stop on' stop' (by rw [hstop, hdone])]
    | false =>
      simp only [Bool.false_eq_true, if_false, flatten_cons]
      rw [hwhole, ← append_assoc]
      exact ih hdone ((F.drain on stop (start s) rest).2 ++ data)

end Framing

end Anywhere.Lib
