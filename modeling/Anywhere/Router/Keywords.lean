import Mathlib.Data.List.Dedup
import Mathlib.Data.List.Infix
import Anywhere.Router.DomainRouter

/-!
# Anywhere — the keyword rules of `DomainRouter`

The keyword rules stand in the order in which their patterns were first inserted; a pattern that
is inserted again keeps its place and gets the new action. The scan of `lookupKeywordRule`
decides ties by that place.

* `lookupKeywordRule_iff` — when that is the latest insertion of the longest patterns.
-/

namespace Anywhere.Router

open Lib List

-- ----
-- Substrings

theorem isSome_indexOf_iff {pattern domain : Text} :
    (Text.indexOf pattern domain).isSome = true ↔ pattern <:+: domain := by
  induction domain with
  | nil =>
    rw [Text.indexOf, infix_nil]
    by_cases h : pattern = []
    · simp [h]
    · simp [h]
  | cons c cs ih =>
    rw [Text.indexOf, infix_cons_iff, ← ih, ← isPrefixOf_iff_prefix]
    by_cases h : pattern.isPrefixOf (c :: cs) = true
    · simp [h]
    · simp [h]

-- ----
-- Histories

/-- The router after a sequence of calls of `insertKeywordRule`. -/
def insertAll (insertions : List (Text × RouteAction)) : DomainRouter :=
  insertions.foldl (fun r insertion => r.insertKeywordRule insertion.1 insertion.2) {}

/-- The patterns in the order of their first insertions; the empty one is never inserted. -/
def patternsInOrder (insertions : List (Text × RouteAction)) : List Text :=
  ((insertions.map (·.1)).filter (· ≠ [])).reverse.dedup.reverse

def lastAction (insertions : List (Text × RouteAction)) (pattern : Text) : Option RouteAction :=
  (insertions.filter (·.1 = pattern)).getLast?.map (·.2)

/-- The rules are the patterns in the order of their first insertions, each with its last
action. -/
structure Recorded (insertions : List (Text × RouteAction)) (rules : List KeywordRule) : Prop where
  patterns : rules.map (·.pattern) = patternsInOrder insertions
  action : ∀ rule ∈ rules, lastAction insertions rule.pattern = some rule.action
  patternLength : ∀ rule ∈ rules, rule.patternLength = Text.utf8Length rule.pattern

section Insertion

variable (insertions : List (Text × RouteAction)) (pattern : Text) (action : RouteAction)

theorem lastAction_concat (other : Text) :
    lastAction (insertions ++ [(pattern, action)]) other =
      if pattern = other then some action else lastAction insertions other := by
  rw [lastAction, lastAction, filter_append]
  split
  · rename_i h
    rw [filter_cons_of_pos (by simpa using h), filter_nil, List.getLast?_concat]
    rfl
  · rename_i h
    rw [filter_cons_of_neg (by simpa using h), filter_nil, append_nil]

theorem mem_patternsInOrder {other : Text} :
    other ∈ patternsInOrder insertions ↔ other ≠ [] ∧ ∃ action, (other, action) ∈ insertions := by
  simp [patternsInOrder, and_comm]

theorem patternsInOrder_concat :
    patternsInOrder (insertions ++ [(pattern, action)]) =
      if pattern = [] ∨ pattern ∈ patternsInOrder insertions then patternsInOrder insertions
      else patternsInOrder insertions ++ [pattern] := by
  rw [patternsInOrder, map_append, filter_append, map_cons, map_nil]
  by_cases hempty : pattern = []
  · rw [if_pos (Or.inl hempty), filter_cons_of_neg (by simpa using hempty), filter_nil,
      append_nil, patternsInOrder]
  · rw [filter_cons_of_pos (by simpa using hempty), filter_nil, reverse_concat]
    by_cases hmem : pattern ∈ patternsInOrder insertions
    · have hdedup : pattern ∈ ((insertions.map (·.1)).filter (· ≠ [])).reverse := by
        rwa [patternsInOrder, mem_reverse, mem_dedup] at hmem
      rw [if_pos (Or.inr hmem), dedup_cons_of_mem hdedup, patternsInOrder]
    · have hdedup : pattern ∉ ((insertions.map (·.1)).filter (· ≠ [])).reverse := by
        rwa [patternsInOrder, mem_reverse, mem_dedup] at hmem
      rw [if_neg (not_or.mpr ⟨hempty, hmem⟩), dedup_cons_of_notMem hdedup, reverse_cons,
        patternsInOrder]

variable {insertions pattern action}

/-- An insertion records its action, in the place the pattern has or in the last one. -/
theorem Recorded.insertKeywordRule {r : DomainRouter} (h : Recorded insertions r.keywordRules) :
    Recorded (insertions ++ [(pattern, action)])
      (r.insertKeywordRule pattern action).keywordRules := by
  have hfilled : ∀ rule ∈ r.keywordRules, rule.pattern ≠ [] := by
    intro rule hrule
    have hpattern := mem_map_of_mem (f := (·.pattern)) hrule
    rw [h.patterns, mem_patternsInOrder] at hpattern
    exact hpattern.1
  -- the action of another pattern stays
  have hother : ∀ rule ∈ r.keywordRules, rule.pattern ≠ pattern →
      lastAction (insertions ++ [(pattern, action)]) rule.pattern = some rule.action := by
    intro rule hrule hne
    rw [lastAction_concat, if_neg (Ne.symm hne), h.action rule hrule]
  have hthis : lastAction (insertions ++ [(pattern, action)]) pattern = some action := by
    rw [lastAction_concat, if_pos rfl]
  rw [DomainRouter.insertKeywordRule]
  by_cases hempty : pattern = []
  · rw [if_pos hempty]
    refine ⟨?_, fun rule hrule => hother rule hrule ?_, h.patternLength⟩
    · rw [patternsInOrder_concat, if_pos (Or.inl hempty), h.patterns]
    · rw [hempty]
      exact hfilled rule hrule
  · rw [if_neg hempty]
    cases hfind : r.keywordRules.findIdx? (·.pattern == pattern) with
    | none =>
      rw [List.findIdx?_eq_none_iff] at hfind
      have hne : ∀ rule ∈ r.keywordRules, rule.pattern ≠ pattern := by
        intro rule hrule
        simpa using hfind rule hrule
      have hnew : pattern ∉ patternsInOrder insertions := by
        rw [← h.patterns, mem_map]
        rintro ⟨rule, hrule, hpattern⟩
        exact hne rule hrule hpattern
      refine ⟨?_, ?_, ?_⟩
      · rw [patternsInOrder_concat, if_neg (not_or.mpr ⟨hempty, hnew⟩), map_append, h.patterns]
        rfl
      · intro rule hrule
        rcases mem_append.mp hrule with hold | hlast
        · exact hother rule hold (hne rule hold)
        · rw [mem_singleton] at hlast
          rw [hlast]
          exact hthis
      · intro rule hrule
        rcases mem_append.mp hrule with hold | hlast
        · exact h.patternLength rule hold
        · rw [mem_singleton] at hlast
          rw [hlast]
    | some index =>
      obtain ⟨hindex, hpattern, hbefore⟩ := List.findIdx?_eq_some_iff_getElem.mp hfind
      rw [beq_iff_eq] at hpattern
      have hknown : pattern ∈ patternsInOrder insertions := by
        rw [← h.patterns, ← hpattern]
        exact mem_map_of_mem (getElem_mem hindex)
      have hpatterns : (r.keywordRules.set index ⟨pattern, action, Text.utf8Length pattern⟩).map
          (·.pattern) = r.keywordRules.map (·.pattern) := by
        have hself : pattern = (r.keywordRules.map (·.pattern)).get
            ⟨index, by rwa [length_map]⟩ := by
          rw [get_eq_getElem, getElem_map, hpattern]
        rw [map_set, hself, get_eq_getElem, set_getElem_self]
      -- each pattern has one rule, so the other rules are those of other patterns
      have hnodup : (r.keywordRules.map (·.pattern)).Nodup := by
        rw [h.patterns, patternsInOrder, nodup_reverse]
        exact nodup_dedup _
      refine ⟨?_, ?_, ?_⟩
      · rw [hpatterns, h.patterns, patternsInOrder_concat, if_pos (Or.inr hknown)]
      · intro rule hrule
        obtain ⟨i, hi, rfl⟩ := mem_iff_getElem.mp hrule
        rw [length_set] at hi
        rw [getElem_set]
        split
        · exact hthis
        · rename_i hne
          have hdistinct := pairwise_iff_getElem.mp (pairwise_map.mp hnodup)
          refine hother _ (getElem_mem hi) fun hsame => ?_
          rcases Nat.lt_or_gt_of_ne hne with hlt | hgt
          · exact hdistinct index i hindex hi hlt (hpattern.trans hsame.symm)
          · exact hdistinct i index hi hindex hgt (hsame.trans hpattern.symm)
      · intro rule hrule
        rcases mem_or_eq_of_mem_set hrule with hold | rfl
        · exact h.patternLength rule hold
        · rfl

theorem recorded_insertAll (insertions : List (Text × RouteAction)) :
    Recorded insertions (insertAll insertions).keywordRules := by
  induction insertions using List.reverseRecOn with
  | nil =>
    refine ⟨rfl, ?_, ?_⟩
    · intro rule hrule
      cases hrule
    · intro rule hrule
      cases hrule
  | append_singleton insertions insertion ih =>
    rw [insertAll, foldl_append]
    exact ih.insertKeywordRule

end Insertion

-- ----
-- The scan

/-- The best rule so far and its length: the last of the longest that are contained. -/
def IsBest (domain : Text) (rules : List KeywordRule) (bestAction : Option RouteAction)
    (bestLength : Int) : Prop :=
  (∀ rule ∈ rules, ¬ rule.pattern <:+: domain) ∧ bestAction = none ∧ bestLength = -1 ∨
  ∃ before rule behind, rules = before ++ rule :: behind ∧ rule.pattern <:+: domain ∧
    bestAction = some rule.action ∧ bestLength = rule.patternLength ∧
    (∀ other ∈ before, other.pattern <:+: domain → other.patternLength ≤ rule.patternLength) ∧
    (∀ other ∈ behind, other.pattern <:+: domain → other.patternLength < rule.patternLength)

section Scan

variable {domain : Text} {rules : List KeywordRule} {rule : KeywordRule}
  {bestAction : Option RouteAction} {bestLength : Int}

theorem IsBest.keep (h : IsBest domain rules bestAction bestLength)
    (hrule : rule.pattern <:+: domain → rule.patternLength < bestLength) :
    IsBest domain (rules ++ [rule]) bestAction bestLength := by
  rcases h with ⟨hnone, hall, hlength⟩ | ⟨before, best, behind, hrules, hbest, hall,
    hlength, hbefore, hbehind⟩
  · refine Or.inl ⟨?_, hall, hlength⟩
    intro other hother hcontained
    rcases mem_append.mp hother with hold | hlast
    · exact hnone other hold hcontained
    · rw [mem_singleton] at hlast
      have := hrule (hlast ▸ hcontained)
      omega
  · refine Or.inr ⟨before, best, behind ++ [rule], by rw [hrules]; simp, hbest, hall, hlength,
      hbefore, ?_⟩
    intro other hother hcontained
    rcases mem_append.mp hother with hold | hlast
    · exact hbehind other hold hcontained
    · rw [mem_singleton] at hlast
      have := hrule (hlast ▸ hcontained)
      rw [hlast]
      omega

theorem IsBest.replace (h : IsBest domain rules bestAction bestLength)
    (hcontained : rule.pattern <:+: domain) (hlong : (rule.patternLength : Int) ≥ bestLength) :
    IsBest domain (rules ++ [rule]) (some rule.action) rule.patternLength := by
  refine Or.inr ⟨rules, rule, [], rfl, hcontained, rfl, rfl, ?_, ?_⟩
  · intro other hother hin
    rcases h with ⟨hnone, -, -⟩ | ⟨before, best, behind, rfl, hbest, -, hlength, hbefore, hbehind⟩
    · exact absurd hin (hnone other hother)
    · rcases mem_append.mp hother with hold | hlater
      · have := hbefore other hold hin
        omega
      · rcases mem_cons.mp hlater with rfl | hlater
        · omega
        · have := hbehind other hlater hin
          omega
  · intro other hother
    cases hother

theorem isBest_bestKeyword (behind : List KeywordRule)
    (h : IsBest domain rules bestAction bestLength) :
    ∃ length, IsBest domain (rules ++ behind)
      (DomainRouter.bestKeyword domain behind bestAction bestLength) length := by
  induction behind generalizing rules bestAction bestLength with
  | nil =>
    rw [append_nil]
    exact ⟨bestLength, h⟩
  | cons rule behind ih =>
    rw [append_cons, DomainRouter.bestKeyword]
    by_cases hcontained : rule.pattern <:+: domain
    · have hfound : ¬ (Text.indexOf rule.pattern domain).isNone = true := by
        rw [← isSome_indexOf_iff] at hcontained
        simpa [Option.isNone_iff_eq_none, Option.isSome_iff_ne_none] using hcontained
      rw [if_neg hfound]
      by_cases hlong : (rule.patternLength : Int) ≥ bestLength
      · rw [if_pos hlong]
        exact ih (h.replace hcontained hlong)
      · rw [if_neg hlong]
        exact ih (h.keep fun _ => by omega)
    · have hmissing : (Text.indexOf rule.pattern domain).isNone = true := by
        rw [← isSome_indexOf_iff] at hcontained
        simpa using hcontained
      rw [if_pos hmissing]
      exact ih (h.keep fun hin => absurd hin hcontained)

end Scan

-- ----
-- The documented order

def Contained (domain pattern : Text) : Prop := pattern ≠ [] ∧ pattern <:+: domain

/-- A contained pattern, none of the inserted ones being longer. -/
def Contends (insertions : List (Text × RouteAction)) (domain pattern : Text) : Prop :=
  Contained domain pattern ∧ ∀ insertion ∈ insertions, Contained domain insertion.1 →
    Text.utf8Length insertion.1 ≤ Text.utf8Length pattern

instance (domain pattern : Text) : Decidable (Contained domain pattern) :=
  inferInstanceAs (Decidable (_ ∧ _))

instance (insertions : List (Text × RouteAction)) (domain pattern : Text) :
    Decidable (Contends insertions domain pattern) :=
  inferInstanceAs (Decidable (_ ∧ _))

/-- The most recent of the insertions of the longest patterns. -/
def latestInsertion (insertions : List (Text × RouteAction)) (domain : Text) :
    Option (Text × RouteAction) :=
  (insertions.filter (Contends insertions domain ·.1)).getLast?

/-- The one of the longest patterns that was the last to be inserted for the first time. -/
def newestPattern (insertions : List (Text × RouteAction)) (domain : Text) : Option Text :=
  ((patternsInOrder insertions).filter (Contends insertions domain ·)).getLast?

section Lookup

variable (insertions : List (Text × RouteAction)) (domain : Text)

/-- The scan finds the pattern that was the last to be inserted for the first time, with the
action it was inserted with the last time. -/
theorem lookupKeywordRule_insertAll :
    (insertAll insertions).lookupKeywordRule domain =
      (newestPattern insertions domain).bind (lastAction insertions) := by
  have hrecorded := recorded_insertAll insertions
  obtain ⟨length, hbest⟩ := isBest_bestKeyword (insertAll insertions).keywordRules
    (Or.inl ⟨by simp, rfl, rfl⟩ : IsBest domain [] none (-1))
  rw [nil_append] at hbest
  change IsBest domain _ ((insertAll insertions).lookupKeywordRule domain) length at hbest
  -- the rule of a contained insertion
  have hrule : ∀ insertion ∈ insertions, Contained domain insertion.1 →
      ∃ rule ∈ (insertAll insertions).keywordRules, rule.pattern = insertion.1 := by
    intro insertion hinsertion hcontained
    have hmem : insertion.1 ∈ patternsInOrder insertions :=
      (mem_patternsInOrder insertions).mpr ⟨hcontained.1, insertion.2, hinsertion⟩
    rw [← hrecorded.patterns] at hmem
    exact mem_map.mp hmem
  rcases hbest with ⟨hnone, hlookup, -⟩ | ⟨before, rule, behind, hrules, hcontained, hlookup, -,
    hbefore, hbehind⟩
  · have hempty : newestPattern insertions domain = none := by
      rw [newestPattern, ← hrecorded.patterns, List.getLast?_eq_none_iff, filter_eq_nil_iff]
      intro pattern hpattern hcontends
      obtain ⟨rule, hmem, rfl⟩ := mem_map.mp hpattern
      exact hnone rule hmem (of_decide_eq_true hcontends).1.2
    rw [hlookup, hempty, Option.bind_none]
  · have hmem : rule ∈ (insertAll insertions).keywordRules := by
      rw [hrules]
      exact mem_append_right _ mem_cons_self
    have hfilled : rule.pattern ≠ [] := by
      have hpattern := mem_map_of_mem (f := (·.pattern)) hmem
      rw [hrecorded.patterns, mem_patternsInOrder] at hpattern
      exact hpattern.1
    have hlengths := hrecorded.patternLength
    have hcontends : Contends insertions domain rule.pattern := by
      refine ⟨⟨hfilled, hcontained⟩, ?_⟩
      intro insertion hinsertion hin
      obtain ⟨other, hother, hpattern⟩ := hrule insertion hinsertion hin
      rw [← hpattern, ← hlengths other hother, ← hlengths rule hmem]
      have hcontained' : other.pattern <:+: domain := hpattern ▸ hin.2
      rw [hrules] at hother
      rcases mem_append.mp hother with hold | hlater
      · exact hbefore other hold hcontained'
      · rcases mem_cons.mp hlater with rfl | hlater
        · exact Nat.le_refl _
        · exact Nat.le_of_lt (hbehind other hlater hcontained')
    -- a later rule is shorter
    have hlater : (behind.map (·.pattern)).filter (Contends insertions domain ·) = [] := by
      rw [filter_eq_nil_iff]
      intro pattern hpattern hother
      obtain ⟨other, hmemother, rfl⟩ := mem_map.mp hpattern
      obtain ⟨hin, hlongest⟩ := of_decide_eq_true hother
      have hknown : other ∈ (insertAll insertions).keywordRules := by
        rw [hrules]
        exact mem_append_right _ (mem_cons_of_mem _ hmemother)
      have hpatterns := mem_map_of_mem (f := (·.pattern)) hmem
      rw [hrecorded.patterns, mem_patternsInOrder] at hpatterns
      obtain ⟨action, hinsertion⟩ := hpatterns.2
      have hle := hlongest (rule.pattern, action) hinsertion hcontends.1
      have hlt := hbehind other hmemother hin.2
      rw [hlengths other hknown, hlengths rule hmem] at hlt
      exact absurd hle (Nat.not_le.mpr hlt)
    have hnewest : newestPattern insertions domain = some rule.pattern := by
      rw [newestPattern, ← hrecorded.patterns, hrules, map_append, map_cons,
        filter_append, filter_cons_of_pos (by simpa using hcontends), hlater,
        List.getLast?_concat]
    rw [hlookup, hnewest, Option.bind_some, hrecorded.action rule hmem]

variable {insertions domain}

theorem getLast?_filter {α : Type} (p : α → Bool) (l : List α) :
    (l.filter p).getLast? = l.reverse.find? p := by
  rw [← List.head?_reverse, ← filter_reverse, List.head?_filter]

theorem lastAction_latestInsertion {pattern : Text} {action : RouteAction}
    (h : latestInsertion insertions domain = some (pattern, action)) :
    Contends insertions domain pattern ∧ (pattern, action) ∈ insertions ∧
      lastAction insertions pattern = some action := by
  rw [latestInsertion, getLast?_filter, List.find?_eq_some_iff_append] at h
  obtain ⟨hcontends, behind, before, hinsertions, hbehind⟩ := h
  have hcontends : Contends insertions domain pattern := of_decide_eq_true hcontends
  refine ⟨hcontends, ?_, ?_⟩
  · rw [← mem_reverse, hinsertions]
    exact mem_append_right _ mem_cons_self
  · have hlast : insertions.reverse.find? (·.1 = pattern) = some (pattern, action) := by
      rw [List.find?_eq_some_iff_append]
      refine ⟨by simp, behind, before, hinsertions, ?_⟩
      intro insertion hinsertion
      have hnot := hbehind insertion hinsertion
      simp only [Bool.not_eq_true', decide_eq_false_iff_not] at hnot ⊢
      rintro rfl
      exact hnot hcontends
    rw [lastAction, getLast?_filter, hlast]
    rfl

theorem newestPattern_eq_none_iff :
    newestPattern insertions domain = none ↔ latestInsertion insertions domain = none := by
  rw [newestPattern, latestInsertion, List.getLast?_eq_none_iff, List.getLast?_eq_none_iff,
    filter_eq_nil_iff, filter_eq_nil_iff]
  constructor
  · intro hnone insertion hinsertion hcontends
    have hfilled := (of_decide_eq_true hcontends).1.1
    exact hnone insertion.1 ((mem_patternsInOrder insertions).mpr
      ⟨hfilled, insertion.2, hinsertion⟩) hcontends
  · intro hnone pattern hpattern hcontends
    obtain ⟨-, action, hinsertion⟩ := (mem_patternsInOrder insertions).mp hpattern
    exact hnone (pattern, action) hinsertion hcontends

variable (insertions domain)

/-- The rule that is found is the most recent insertion of the longest patterns, unless another of
them was inserted for the first time after the pattern of that insertion was. -/
theorem lookupKeywordRule_iff :
    (insertAll insertions).lookupKeywordRule domain =
        (latestInsertion insertions domain).map (·.2) ↔
      ∀ pattern action newest, latestInsertion insertions domain = some (pattern, action) →
        newestPattern insertions domain = some newest →
        newest = pattern ∨ lastAction insertions newest = some action := by
  rw [lookupKeywordRule_insertAll]
  cases hlatest : latestInsertion insertions domain with
  | none =>
    rw [newestPattern_eq_none_iff.mpr hlatest]
    constructor
    · intro _ pattern action newest hnone
      cases hnone
    · intro _
      rfl
  | some latest =>
    obtain ⟨pattern, action⟩ := latest
    have hsome : newestPattern insertions domain ≠ none := by
      rw [ne_eq, newestPattern_eq_none_iff, hlatest]
      exact Option.some_ne_none _
    obtain ⟨newest, hnewest⟩ := Option.ne_none_iff_exists'.mp hsome
    obtain ⟨-, -, hlast⟩ := lastAction_latestInsertion hlatest
    rw [hnewest, Option.bind_some, Option.map_some]
    constructor
    · intro h pattern' action' newest' hlatest' hnewest'
      cases hlatest'
      cases hnewest'
      exact Or.inr h
    · intro h
      rcases h pattern action newest rfl rfl with rfl | haction
      · exact hlast
      · exact haction

/-- A pattern that is inserted again keeps its place, and loses the tie to a pattern that was
inserted in between. -/
theorem lookupKeywordRule_of_reinserted : ¬ ∀ (insertions : List (Text × RouteAction))
    (domain : Text), (insertAll insertions).lookupKeywordRule domain =
      (latestInsertion insertions domain).map (·.2) := by
  intro h
  exact absurd (h [(['a', 'd'], .direct), (['c', 'd'], .direct), (['a', 'd'], .reject)]
    ['a', 'd', '.', 'c', 'd', 'n']) (by decide)

end Lookup

end Anywhere.Router
