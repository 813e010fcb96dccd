import Mathlib.Data.List.Basic
import Mathlib.Data.List.Induction
import Mathlib.Logic.Function.Basic

/-!
# Longest-prefix maps

A table of rules gives values to paths, in the order the rules were inserted. A
search for a path wants the rule whose path is the longest prefix of it, the rule
inserted last where two have the same path. A tree that branches on the elements
of a path finds it on one walk from its root.

* `stored` — the table as a map: the last value inserted for a path.
* `deepest` — the last value a walk along a path meets.
* `LongestMatch` — the rule a search is meant to find.
* `Branching` — trees that branch on the elements of a path; `Branching.walk_stored`
  says that a walk from the root is the search in the table of what was inserted.
-/

namespace Anywhere.Lib.PrefixMap

open List

universe u v

variable {κ : Type u} {ν : Type v} {f : List κ → Option ν} {path : List κ} {a : ν}

/-- The value of the longest prefix of a path that has one. -/
def deepest (f : List κ → Option ν) : List κ → Option ν
  | [] => f []
  | k :: path => (deepest (fun p => f (k :: p)) path).or (f [])

theorem deepest_eq_none : deepest f path = none ↔ ∀ p, p <+: path → f p = none := by
  induction path generalizing f with
  | nil => simp [deepest]
  | cons k path ih =>
    rw [deepest, Option.or_eq_none_iff, ih]
    constructor
    · rintro ⟨hdeep, hroot⟩ p hp
      rcases prefix_cons_iff.mp hp with rfl | ⟨p', rfl, hp'⟩
      · exact hroot
      · exact hdeep p' hp'
    · intro h
      exact ⟨fun p hp => h _ ((prefix_cons_inj k).mpr hp), h [] nil_prefix⟩

theorem deepest_eq_some : deepest f path = some a ↔
    ∃ p, p <+: path ∧ f p = some a ∧ ∀ q, q <+: path → p.length < q.length → f q = none := by
  induction path generalizing f a with
  | nil =>
    rw [deepest]
    constructor
    · intro h
      refine ⟨[], nil_prefix, h, fun q hq hlt => ?_⟩
      rw [prefix_nil.mp hq] at hlt
      exact absurd hlt (Nat.lt_irrefl 0)
    · rintro ⟨p, hp, hfp, -⟩
      rwa [prefix_nil.mp hp] at hfp
  | cons k path ih =>
    rw [deepest]
    cases hdeep : deepest (fun p => f (k :: p)) path with
    | some b =>
      -- the walk goes on below the root
      rw [Option.some_or, ← hdeep, ih]
      constructor
      · rintro ⟨p, hp, hfp, hmax⟩
        refine ⟨k :: p, (prefix_cons_inj k).mpr hp, hfp, fun q hq hlt => ?_⟩
        rcases prefix_cons_iff.mp hq with rfl | ⟨q', rfl, hq'⟩
        · exact absurd hlt (Nat.not_lt_zero _)
        · exact hmax q' hq' (Nat.lt_of_succ_lt_succ hlt)
      · rintro ⟨p, hp, hfp, hmax⟩
        rcases prefix_cons_iff.mp hp with rfl | ⟨p', rfl, hp'⟩
        · obtain ⟨q, hq, hfq, -⟩ := ih.mp hdeep
          rw [hmax (k :: q) ((prefix_cons_inj k).mpr hq) (by simp)] at hfq
          cases hfq
        · exact ⟨p', hp', hfp, fun q hq hlt =>
            hmax (k :: q) ((prefix_cons_inj k).mpr hq) (by simpa using hlt)⟩
    | none =>
      have hbelow := deepest_eq_none.1 hdeep
      rw [Option.none_or]
      constructor
      · intro h
        refine ⟨[], nil_prefix, h, fun q hq hlt => ?_⟩
        rcases prefix_cons_iff.mp hq with rfl | ⟨q', rfl, hq'⟩
        · exact absurd hlt (Nat.lt_irrefl 0)
        · exact hbelow q' hq'
      · rintro ⟨p, hp, hfp, -⟩
        rcases prefix_cons_iff.mp hp with rfl | ⟨p', rfl, hp'⟩
        · exact hfp
        · rw [hbelow p' hp'] at hfp
          cases hfp

-- ----
-- Tables of rules

section Stored

variable [DecidableEq κ] {rules : List (List κ × ν)}

/-- The map after these insertions. -/
def stored (rules : List (List κ × ν)) : List κ → Option ν :=
  rules.foldl (fun f r => Function.update f r.1 (some r.2)) (fun _ => none)

@[simp] theorem stored_snoc (rules : List (List κ × ν)) (p : List κ) (a : ν) :
    stored (rules ++ [(p, a)]) = Function.update (stored rules) p (some a) := by
  simp [stored, foldl_append]

theorem stored_eq_some {p : List κ} : stored rules p = some a ↔
    ∃ before after, rules = before ++ (p, a) :: after ∧ ∀ r ∈ after, r.1 ≠ p := by
  induction rules using List.reverseRecOn with
  | nil => simp [stored]
  | append_singleton rules r ih =>
    obtain ⟨q, b⟩ := r
    rw [stored_snoc]
    by_cases hpq : p = q
    · subst hpq
      rw [Function.update_self, Option.some.injEq]
      constructor
      · rintro rfl
        exact ⟨rules, [], rfl, by simp⟩
      · rintro ⟨before, after, hsplit, hafter⟩
        rcases eq_nil_or_concat after with rfl | ⟨after, r, rfl⟩
        · have := (append_inj_right' hsplit rfl)
          simpa using this
        · rw [concat_eq_append] at hsplit hafter
          rw [← cons_append, ← append_assoc] at hsplit
          have hr : (p, b) = r := by simpa using append_inj_right' hsplit rfl
          exact absurd (by rw [← hr]) (hafter r (by simp))
    · rw [Function.update_of_ne hpq, ih]
      constructor
      · rintro ⟨before, after, rfl, hafter⟩
        refine ⟨before, after ++ [(q, b)], by simp, fun r hr => ?_⟩
        rcases mem_append.mp hr with hr | hr
        · exact hafter r hr
        · rw [mem_singleton.mp hr]
          exact Ne.symm hpq
      · rintro ⟨before, after, hsplit, hafter⟩
        rcases eq_nil_or_concat after with rfl | ⟨after, r, rfl⟩
        · have := append_inj_right' hsplit rfl
          simp only [List.cons.injEq, Prod.mk.injEq, and_true] at this
          exact absurd this.1.symm hpq
        · rw [concat_eq_append] at hsplit hafter
          rw [← cons_append, ← append_assoc] at hsplit
          exact ⟨before, after, append_inj_left' hsplit rfl,
            fun r hr => hafter r (by simp [hr])⟩

theorem stored_eq_none {p : List κ} : stored rules p = none ↔ ∀ r ∈ rules, r.1 ≠ p := by
  induction rules using List.reverseRecOn with
  | nil => simp [stored]
  | append_singleton rules r ih =>
    obtain ⟨q, b⟩ := r
    rw [stored_snoc]
    by_cases hpq : p = q
    · subst hpq
      simp
    · rw [Function.update_of_ne hpq, ih]
      simp [or_imp, forall_and, Ne.symm hpq]

/-- The rule a search for `path` finds has value `a`: no rule before it has a
longer path on the way, and none after it one as long. -/
def LongestMatch (rules : List (List κ × ν)) (path : List κ) (a : ν) : Prop :=
  ∃ before p after, rules = before ++ (p, a) :: after ∧ p <+: path ∧
    (∀ r ∈ before, r.1 <+: path → r.1.length ≤ p.length) ∧
    ∀ r ∈ after, r.1 <+: path → r.1.length < p.length

/-- The walk finds nothing just when nothing matches. -/
theorem deepest_stored_eq_none :
    deepest (stored rules) path = none ↔ ∀ r ∈ rules, ¬ r.1 <+: path := by
  rw [deepest_eq_none]
  constructor
  · intro h r hr hp
    exact stored_eq_none.1 (h r.1 hp) r hr rfl
  · intro h p hp
    exact stored_eq_none.2 fun r hr he => h r hr (he ▸ hp)

/-- The walk finds the longest match. -/
theorem deepest_stored_eq_some :
    deepest (stored rules) path = some a ↔ LongestMatch rules path a := by
  rw [deepest_eq_some]
  constructor
  · rintro ⟨p, hp, hfp, hmax⟩
    obtain ⟨before, after, hsplit, hafter⟩ := stored_eq_some.1 hfp
    have hle : ∀ r ∈ rules, r.1 <+: path → r.1.length ≤ p.length := by
      intro r hr hrp
      by_contra hlt
      exact stored_eq_none.1 (hmax r.1 hrp (by omega)) r hr rfl
    refine ⟨before, p, after, hsplit, hp, fun r hr => hle r (by simp [hsplit, hr]), ?_⟩
    intro r hr hrp
    refine Nat.lt_of_le_of_ne (hle r (by simp [hsplit, hr]) hrp) fun he => hafter r hr ?_
    -- two prefixes of one length are the same path
    exact (prefix_of_prefix_length_le hrp hp (Nat.le_of_eq he)).eq_of_length he
  · rintro ⟨before, p, after, rfl, hp, hbefore, hafter⟩
    refine ⟨p, hp, ?_, ?_⟩
    · exact stored_eq_some.2 ⟨before, after, rfl, fun r hr he =>
        absurd (hafter r hr (he ▸ hp)) (by simp [he])⟩
    · intro q hq hlt
      refine stored_eq_none.2 fun r hr he => ?_
      subst he
      rcases mem_append.mp hr with hr | hr
      · have := hbefore r hr hq
        omega
      · rcases mem_cons.mp hr with rfl | hr
        · exact Nat.lt_irrefl _ hlt
        · have := hafter r hr hq
          omega

end Stored

/-- The search among the rules a list of sources gives: some give none. -/
theorem longestMatch_filterMap {α : Type*} {g : α → Option (List κ × ν)} {l : List α} :
    LongestMatch (l.filterMap g) path a ↔
      ∃ before x after p, l = before ++ x :: after ∧ g x = some (p, a) ∧ p <+: path ∧
        (∀ y ∈ before, ∀ q b, g y = some (q, b) → q <+: path → q.length ≤ p.length) ∧
        ∀ y ∈ after, ∀ q b, g y = some (q, b) → q <+: path → q.length < p.length := by
  constructor
  · rintro ⟨before, p, after, hsplit, hp, hbefore, hafter⟩
    obtain ⟨l₁, rest, rfl, hl₁, hrest⟩ := filterMap_eq_append_iff.mp hsplit
    obtain ⟨skipped, x, l₂, rfl, hskipped, hx, hl₂⟩ := filterMap_eq_cons_iff.mp hrest
    refine ⟨l₁ ++ skipped, x, l₂, p, by simp, hx, hp, ?_, ?_⟩
    · intro y hy q b hgy hq
      rcases mem_append.mp hy with hy | hy
      · exact hbefore (q, b) (hl₁ ▸ mem_filterMap.mpr ⟨y, hy, hgy⟩) hq
      · rw [hskipped y hy] at hgy
        cases hgy
    · intro y hy q b hgy hq
      exact hafter (q, b) (hl₂ ▸ mem_filterMap.mpr ⟨y, hy, hgy⟩) hq
  · rintro ⟨before, x, after, p, rfl, hx, hp, hbefore, hafter⟩
    refine ⟨before.filterMap g, p, after.filterMap g, ?_, hp, ?_, ?_⟩
    · rw [filterMap_append, filterMap_cons_some hx]
    · rintro ⟨q, b⟩ hr hq
      obtain ⟨y, hy, hgy⟩ := mem_filterMap.mp hr
      exact hbefore y hy q b hgy hq
    · rintro ⟨q, b⟩ hr hq
      obtain ⟨y, hy, hgy⟩ := mem_filterMap.mp hr
      exact hafter y hy q b hgy hq

/-- A path of the first `m` values of a function. -/
theorem map_range_prefix {g h : Nat → κ} {m n : Nat} :
    (List.range m).map g <+: (List.range n).map h ↔ m ≤ n ∧ ∀ i < m, g i = h i := by
  constructor
  · intro hp
    have hlen : m ≤ n := by simpa using hp.length_le
    refine ⟨hlen, fun i hi => ?_⟩
    have := hp.getElem (i := i) (by simpa using hi)
    simpa using this
  · rintro ⟨hlen, heq⟩
    rw [prefix_iff_eq_take, ← map_take, length_map, length_range,
      take_range, Nat.min_eq_left hlen]
    exact map_congr_left fun i hi => heq i (mem_range.mp hi)

-- ----
-- Trees

/-- Nodes that may have a value of their own and a next node for each element. -/
structure Branching (τ : Type*) (κ : Type u) (ν : Type v) [DecidableEq κ] where
  empty : τ
  next : τ → κ → Option τ
  setNext : τ → κ → τ → τ
  value : τ → Option ν
  setValue : τ → ν → τ
  next_empty : ∀ k, next empty k = none
  value_empty : value empty = none
  next_setNext : ∀ t k u k', next (setNext t k u) k' = if k' = k then some u else next t k'
  value_setNext : ∀ t k u, value (setNext t k u) = value t
  next_setValue : ∀ t a k, next (setValue t a) k = next t k
  value_setValue : ∀ t a, value (setValue t a) = some a

namespace Branching

variable {τ : Type*} [DecidableEq κ] (B : Branching τ κ ν)

/-- Follow a path, making the nodes that are missing, and set the value there. -/
def insert (a : ν) : List κ → τ → τ
  | [], t => B.setValue t a
  | k :: path, t => B.setNext t k (insert a path ((B.next t k).getD B.empty))

/-- Follow a path as far as there are nodes, and keep the last value met. -/
def walk : List κ → τ → Option ν → Option ν
  | [], _, last => last
  | k :: path, t, last =>
    match B.next t k with
    | none => last
    | some u => walk path u ((B.value u).or last)

/-- The value at the end of a path. -/
def read : τ → List κ → Option ν
  | t, [] => B.value t
  | t, k :: path =>
    match B.next t k with
    | none => none
    | some u => read u path

theorem read_empty (path : List κ) : B.read B.empty path = none := by
  cases path with
  | nil => exact B.value_empty
  | cons k path => rw [read, B.next_empty]

theorem read_cons (t : τ) (k : κ) (path : List κ) :
    B.read t (k :: path) = B.read ((B.next t k).getD B.empty) path := by
  rw [read]
  cases hnext : B.next t k with
  | none => exact (B.read_empty path).symm
  | some u => rfl

/-- An insertion sets the value of its own path, and leaves every other alone. -/
theorem read_insert (a : ν) (path : List κ) (t : τ) :
    B.read (B.insert a path t) = Function.update (B.read t) path (some a) := by
  induction path generalizing t with
  | nil =>
    funext q
    cases q with
    | nil =>
      rw [Function.update_self]
      exact B.value_setValue t a
    | cons k q => rw [Function.update_of_ne (by simp), insert, read_cons, read_cons,
        B.next_setValue]
  | cons k path ih =>
    funext q
    cases q with
    | nil =>
      rw [Function.update_of_ne (by simp)]
      exact B.value_setNext t k _
    | cons k' q =>
      rw [insert, read_cons, B.next_setNext]
      by_cases h : k' = k
      · subst h
        rw [if_pos rfl, Option.getD_some, ih]
        by_cases hq : q = path
        · subst hq
          rw [Function.update_self, Function.update_self]
        · rw [Function.update_of_ne hq, Function.update_of_ne (by simpa using hq), read_cons]
      · rw [if_neg h, Function.update_of_ne (by simp [h]), read_cons]

/-- The tree after these insertions. -/
def ofRules (rules : List (List κ × ν)) : τ :=
  rules.foldl (fun t r => B.insert r.2 r.1 t) B.empty

theorem ofRules_filterMap_snoc {α : Type*} (g : α → Option (List κ × ν)) (l : List α) (x : α) :
    B.ofRules ((l ++ [x]).filterMap g) =
      match g x with
      | none => B.ofRules (l.filterMap g)
      | some (p, a) => B.insert a p (B.ofRules (l.filterMap g)) := by
  rw [filterMap_append, ofRules, foldl_append, ← ofRules]
  cases hx : g x with
  | none => rw [filterMap_cons_none hx]; rfl
  | some r => rw [filterMap_cons_some hx]; rfl

theorem read_ofRules (rules : List (List κ × ν)) : B.read (B.ofRules rules) = stored rules := by
  induction rules using List.reverseRecOn with
  | nil =>
    funext path
    exact B.read_empty path
  | append_singleton rules r ih =>
    rw [ofRules, foldl_append, foldl_cons, foldl_nil, read_insert, stored_snoc,
      ← ofRules, ih]

/-- The walk meets the values below a node; the node's own value is what it
starts with. -/
theorem walk_eq (path : List κ) (t : τ) (last : Option ν) :
    B.walk path t ((B.value t).or last) = (deepest (B.read t) path).or last := by
  induction path generalizing t last with
  | nil => rfl
  | cons k path ih =>
    rw [walk, deepest]
    cases hnext : B.next t k with
    | none =>
      have hbelow : deepest (fun p => B.read t (k :: p)) path = none :=
        deepest_eq_none.2 fun p _ => by simp [read, hnext]
      rw [hbelow]
      rfl
    | some u =>
      have hbelow : (fun p => B.read t (k :: p)) = B.read u := by
        funext p
        simp [read, hnext]
      rw [hbelow, Option.or_assoc]
      exact ih u ((B.value t).or last)

/-- **A walk from the root is the search in the table.** -/
theorem walk_stored (rules : List (List κ × ν)) (path : List κ) :
    B.walk path (B.ofRules rules) (B.value (B.ofRules rules)) = deepest (stored rules) path := by
  have h := B.walk_eq path (B.ofRules rules) none
  rwa [Option.or_none, Option.or_none, read_ofRules] at h

end Branching

end Anywhere.Lib.PrefixMap
