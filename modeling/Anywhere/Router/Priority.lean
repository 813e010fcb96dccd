import Anywhere.Router.Matching
import Anywhere.Router.RuleSetRepository

/-!
# Anywhere — the compiled routing and its priorities

`syncRoutingFile` compiles the rule sets into a descriptor, `loadRoutingConfiguration`
inserts its rules in order, and the last one at a place of a trie is the one that counts.
So the router's action at a suffix or a prefix is that of the last source that lists it:
the country bypass, then the rule sets as the repository orders them.

* `routing_follows_priority` — the two together.
-/

namespace Anywhere.Router

open Lib PrefixMap List

-- ----
-- Compiling

structure StoredConfiguration where
  id : Uuid
  configuration : ProxyConfiguration

def resolveConfigurationAddresses (resolveAddress : String → Option String)
    (config : ProxyConfiguration) : ProxyConfiguration :=
  { config with
    resolvedIP := config.resolvedIP.or (resolveAddress config.serverAddress)
    chain :=
      match _h : config.chain with
      | none => none
      | some chain =>
          some (chain.attach.map fun c => resolveConfigurationAddresses resolveAddress c.1) }
termination_by sizeOf config
decreasing_by
  have hmem := sizeOf_lt_of_mem c.2
  obtain ⟨⟩ := config
  simp only at _h
  subst _h
  simp only [ProxyConfiguration.mk.sizeOf_spec, Option.some.sizeOf_spec]
  omega

/-- A rule as the router reads it back. -/
def ruleObject (rule : DomainRule) : Option RuleObject :=
  some ⟨.number rule.type.rawValue, rule.value⟩

def DomainRuleType.isAddress : DomainRuleType → Bool
  | .ipCidr | .ipCidr6 => true
  | .domainSuffix | .domainKeyword => false

/-- `put` of a JSON object. -/
def putConfig (configs : List (Text × Option ProxyConfiguration)) (key : Text)
    (config : ProxyConfiguration) : List (Text × Option ProxyConfiguration) :=
  if configs.any (·.1 == key) then
    configs.map fun entry => if entry.1 = key then (key, some config) else entry
  else configs ++ [(key, some config)]

namespace RuleSetRepository

variable (platform : Platform) (db : RulesDatabase) (configurations : List StoredConfiguration)
  (resolveAddress : String → Option String)

def ruleEntry (rules : List DomainRule) (action : String) (configId : Text) : UserRule :=
  let domainRules := (rules.filter (!·.type.isAddress)).map ruleObject
  let ipRules := (rules.filter (·.type.isAddress)).map ruleObject
  { action, configId, domainRules := some domainRules,
    ipRules := if ipRules.length > 0 then some ipRules else none }

def syncRuleSet (repository : RuleSetRepository)
    (routing : List (Option UserRule) × List (Text × Option ProxyConfiguration))
    (ruleSet : RuleSet) : List (Option UserRule) × List (Text × Option ProxyConfiguration) :=
  match ruleSet.assignedConfigurationId with
  | none => routing
  | some assignedId =>
    let domainRules := repository.loadRules db ruleSet
    if domainRules = [] then routing
    else if assignedId = assignedDirect then
      (routing.1 ++ [some (ruleEntry domainRules "direct" [])], routing.2)
    else if assignedId = assignedReject then
      (routing.1 ++ [some (ruleEntry domainRules "reject" [])], routing.2)
    else
      match platform.uuidFromString assignedId with
      | none => routing
      | some configUuid =>
        match configurations.find? (·.id == configUuid) with
        | none => routing
        | some config =>
          (routing.1 ++ [some (ruleEntry domainRules "proxy" assignedId)],
            putConfig routing.2 assignedId
              (resolveConfigurationAddresses resolveAddress config.configuration))

def bypassRules (repository : RuleSetRepository) : List DomainRule :=
  if repository.bypassCountryCode ≠ [] then db.loadRules repository.bypassCountryCode else []

def syncRoutingFile (repository : RuleSetRepository) : Descriptor :=
  let routing := repository.ruleSets.foldl
    (repository.syncRuleSet platform db configurations resolveAddress) ([], [])
  { rules := some routing.1
    configs := routing.2
    bypassRules :=
      if repository.bypassRules db ≠ [] then some ((repository.bypassRules db).map ruleObject)
      else none }

-- ----
-- What the priorities ask for

end RuleSetRepository

/-- A place of the router: a suffix by its labels, from the top-level one inward, or a
prefix by its bits. -/
inductive Key where
  | suffix (labels : List Text)
  | ipv4 (bits : List Bool)
  | ipv6 (bits : List Bool)
  deriving DecidableEq, Repr

/-- The action stored for exactly this suffix or prefix. -/
def DomainRouter.actionAt (r : DomainRouter) : Key → Option RouteAction
  | .suffix labels => TrieNode.branching.read r.trieRoot labels
  | .ipv4 bits => CIDRTrie.branching.read r.ipv4Trie bits
  | .ipv6 bits => CIDRTrie.branching.read r.ipv6Trie bits

/-- The suffix or the prefix a rule names; a keyword names none, nor does a text that is no
prefix. Letter case, empty labels and host bits are not part of it. -/
def keyOf (platform : Platform) (type : DomainRuleType) (value : Text) : Option Key :=
  if value = [] then none
  else
    match type with
    | .domainSuffix => some (.suffix (labels (platform.lowercase value)).reverse)
    | .domainKeyword => none
    | .ipCidr => (parseIPv4CIDR value).map fun net =>
        .ipv4 ((List.range net.2).map (bit4 net.1))
    | .ipCidr6 => (parseIPv6CIDR platform value).map fun net =>
        .ipv6 ((List.range net.2).map (bit6 net.1))

/-- Rules with the action assigned to them, none where they do not take part. -/
structure Source where
  rules : List DomainRule
  action : Option RouteAction

def Source.Lists (platform : Platform) (source : Source) (key : Key) : Prop :=
  ∃ rule ∈ source.rules, keyOf platform rule.type rule.value = some key

/-- `action` is that of the last source, among those that take part, that lists the key. -/
def Prevails (platform : Platform) (sources : List Source) (key : Key) (action : RouteAction) :
    Prop :=
  ∃ before source after, sources = before ++ source :: after ∧ source.action = some action ∧
    source.Lists platform key ∧ ∀ s ∈ after, s.action ≠ none → ¬ s.Lists platform key

namespace RuleSetRepository

variable (platform : Platform) (db : RulesDatabase) (configurations : List StoredConfiguration)
  (resolveAddress : String → Option String)

/-- The action a rule set is assigned; none without an assignment, or where its
configuration is missing. -/
def assignedAction (ruleSet : RuleSet) : Option RouteAction :=
  ruleSet.assignedConfigurationId.bind fun assignedId =>
    if assignedId = assignedDirect then some .direct
    else if assignedId = assignedReject then some .reject
    else
      (platform.uuidFromString assignedId).bind fun configUuid =>
        if ∃ config ∈ configurations, config.id = configUuid then some (.proxy configUuid)
        else none

/-- The sources by their priority, the lowest first. -/
def sources (repository : RuleSetRepository) : List Source :=
  ⟨repository.bypassRules db, some .direct⟩ ::
    repository.ruleSets.map fun ruleSet =>
      ⟨repository.loadRules db ruleSet, assignedAction platform configurations ruleSet⟩

end RuleSetRepository

-- ----
-- The last rule

section Last

variable {platform : Platform}

def lastFor (platform : Platform) (key : Key) (rules : List Rule) : Option RouteAction :=
  ((rules.filter fun rule => keyOf platform rule.type rule.value = some key).getLast?).map
    Rule.action

theorem lastFor_append (key : Key) (earlier later : List Rule) :
    lastFor platform key (earlier ++ later) =
      (lastFor platform key later).or (lastFor platform key earlier) := by
  rw [lastFor, filter_append, List.getLast?_append, Option.map_or]
  rfl

/-- The table of one of the tries, whose paths are keys of one kind. -/
theorem stored_filterMap {κ : Type} [DecidableEq κ] {path : Rule → Option (List κ × RouteAction)}
    {mk : List κ → Key} {rules : List Rule}
    (hpath : ∀ rule ∈ rules, ∀ p a, path rule = some (p, a) ↔
      keyOf platform rule.type rule.value = some (mk p) ∧ rule.action = a) (p : List κ) :
    stored (rules.filterMap path) p = lastFor platform (mk p) rules := by
  induction rules using List.reverseRecOn with
  | nil => rfl
  | append_singleton rules rule ih =>
    have hrule := hpath rule (by simp)
    specialize ih fun r hr => hpath r (by simp [hr])
    rw [filterMap_append, lastFor_append, ← ih]
    cases hown : path rule with
    | none =>
      have hkey : keyOf platform rule.type rule.value ≠ some (mk p) := by
        intro hkey
        have := (hrule p rule.action).mpr ⟨hkey, rfl⟩
        rw [hown] at this
        cases this
      simp [hown, lastFor, hkey]
    | some r =>
      obtain ⟨q, a⟩ := r
      obtain ⟨hkey, rfl⟩ := (hrule q a).mp hown
      rw [filterMap_cons_some hown, filterMap_nil, stored_snoc]
      by_cases hpq : p = q
      · subst hpq
        rw [Function.update_self]
        simp [lastFor, hkey]
      · have hne : keyOf platform rule.type rule.value ≠ some (mk p) := by
          intro hsame
          have := (hrule p rule.action).mpr ⟨hsame, rfl⟩
          rw [hown, Option.some.injEq, Prod.mk.injEq] at this
          exact hpq this.1.symm
        rw [Function.update_of_ne hpq]
        simp [lastFor, hne]

/-- The action at a place is that of the last rule for it. -/
theorem actionAt_eq {r : DomainRouter} {rules : List Rule} (h : Loads platform r rules)
    (hvalues : ∀ rule ∈ rules, rule.value ≠ []) (key : Key) :
    r.actionAt key = lastFor platform key rules := by
  cases key with
  | suffix p =>
    rw [DomainRouter.actionAt, h.suffixes, Branching.read_ofRules]
    refine stored_filterMap (fun rule hrule q a => ?_) p
    obtain ⟨type, value, action⟩ := rule
    have hvalue : value ≠ [] := hvalues _ hrule
    cases type <;> simp [suffixPath, keyOf, hvalue]
  | ipv4 p =>
    rw [DomainRouter.actionAt, h.ipv4, Branching.read_ofRules]
    refine stored_filterMap (fun rule hrule q a => ?_) p
    obtain ⟨type, value, action⟩ := rule
    have hvalue : value ≠ [] := hvalues _ hrule
    cases type with
    | ipCidr => cases hnet : parseIPv4CIDR value <;> simp [path4, keyOf, hvalue, hnet]
    | ipCidr6 => simp [path4, keyOf, hvalue]
    | domainSuffix => simp [path4, keyOf, hvalue]
    | domainKeyword => simp [path4, keyOf, hvalue]
  | ipv6 p =>
    rw [DomainRouter.actionAt, h.ipv6, Branching.read_ofRules]
    refine stored_filterMap (fun rule hrule q a => ?_) p
    obtain ⟨type, value, action⟩ := rule
    have hvalue : value ≠ [] := hvalues _ hrule
    cases type with
    | ipCidr => simp [path6, keyOf, hvalue]
    | ipCidr6 => cases hnet : parseIPv6CIDR platform value <;> simp [path6, keyOf, hvalue, hnet]
    | domainSuffix => simp [path6, keyOf, hvalue]
    | domainKeyword => simp [path6, keyOf, hvalue]

end Last

-- ----
-- The sources

section Sources

variable {platform : Platform} {source : Source} {chunk : List Rule} {key : Key} {a : RouteAction}

/-- The rules of a source that takes part, in any order, without those of an empty value. -/
def Chunk (source : Source) (chunk : List Rule) : Prop :=
  ∀ rule, rule ∈ chunk ↔
    source.action = some rule.action ∧ rule.value ≠ [] ∧ ⟨rule.type, rule.value⟩ ∈ source.rules

theorem Chunk.lastFor (h : Chunk source chunk) :
    lastFor platform key chunk = some a ↔ source.action = some a ∧ source.Lists platform key := by
  rw [Router.lastFor, Option.map_eq_some_iff]
  constructor
  · rintro ⟨rule, hlast, rfl⟩
    obtain ⟨hrule, hkey⟩ := mem_filter.mp (List.mem_of_getLast? hlast)
    obtain ⟨haction, -, hlisted⟩ := (h rule).mp hrule
    exact ⟨haction, ⟨rule.type, rule.value⟩, hlisted, by simpa using hkey⟩
  · rintro ⟨haction, listed, hlisted, hkey⟩
    have hvalue : listed.value ≠ [] := by
      intro hempty
      simp [keyOf, hempty] at hkey
    have hmem : (⟨listed.type, listed.value, a⟩ : Rule) ∈
        chunk.filter fun rule => keyOf platform rule.type rule.value = some key :=
      mem_filter.mpr ⟨(h _).mpr ⟨haction, hvalue, hlisted⟩, by simpa using hkey⟩
    obtain ⟨last, hlast⟩ := Option.ne_none_iff_exists'.mp
      (mt List.getLast?_eq_none_iff.mp (ne_nil_of_mem hmem))
    refine ⟨last, hlast, ?_⟩
    obtain ⟨hsame, -, -⟩ := (h last).mp (mem_filter.mp (List.mem_of_getLast? hlast)).1
    exact Option.some.inj (hsame.symm.trans haction)

theorem prevails_cons {sources : List Source} :
    Prevails platform (source :: sources) key a ↔
      Prevails platform sources key a ∨
        source.action = some a ∧ source.Lists platform key ∧
          ∀ s ∈ sources, s.action ≠ none → ¬ s.Lists platform key := by
  constructor
  · rintro ⟨before, s, after, hsplit, haction, hlists, hafter⟩
    rcases before with _ | ⟨first, before⟩
    · obtain ⟨rfl, rfl⟩ := List.cons.inj hsplit
      exact .inr ⟨haction, hlists, hafter⟩
    · exact .inl ⟨before, s, after, (List.cons.inj hsplit).2, haction, hlists, hafter⟩
  · rintro (⟨before, s, after, rfl, h⟩ | h)
    · exact ⟨source :: before, s, after, rfl, h⟩
    · exact ⟨[], source, sources, rfl, h⟩

theorem values_of_chunks {sources : List Source} {chunks : List (List Rule)}
    (h : List.Forall₂ Chunk sources chunks) : ∀ rule ∈ chunks.flatten, rule.value ≠ [] := by
  induction h with
  | nil => simp
  | cons hchunk _ ih =>
    intro rule hrule
    rw [flatten_cons, mem_append] at hrule
    exact hrule.elim (fun hown => ((hchunk rule).mp hown).2.1) (ih rule)

theorem lastFor_chunks {sources : List Source} {chunks : List (List Rule)}
    (h : List.Forall₂ Chunk sources chunks) :
    (∀ a, lastFor platform key chunks.flatten = some a ↔ Prevails platform sources key a) ∧
      (lastFor platform key chunks.flatten = none ↔
        ∀ s ∈ sources, s.action ≠ none → ¬ s.Lists platform key) := by
  induction h with
  | nil =>
    refine ⟨fun a => ⟨nofun, ?_⟩, by simp [lastFor]⟩
    rintro ⟨before, s, after, hsplit, -⟩
    simp at hsplit
  | @cons source chunk sources chunks hchunk _ ih =>
    obtain ⟨hsome, hnone⟩ := ih
    rw [flatten_cons, lastFor_append]
    cases hlater : lastFor platform key chunks.flatten with
    | some b =>
      have hlist : ¬ ∀ s ∈ sources, s.action ≠ none → ¬ s.Lists platform key := by
        rw [← hnone, hlater]
        nofun
      refine ⟨fun a => ?_, ?_⟩
      · rw [Option.some_or, ← hlater, hsome, prevails_cons]
        exact ⟨.inl, fun h => h.resolve_right fun hown => hlist hown.2.2⟩
      · rw [Option.some_or]
        exact ⟨nofun, fun h => absurd (fun s hs => h s (by simp [hs])) hlist⟩
    | none =>
      have hlist := hnone.mp hlater
      rw [Option.none_or]
      refine ⟨fun a => ?_, ?_⟩
      · have hlater : ¬ Prevails platform sources key a := by
          rw [← hsome, hlater]
          nofun
        rw [hchunk.lastFor, prevails_cons]
        exact ⟨fun h => .inr ⟨h.1, h.2, hlist⟩, fun h => have hown := h.resolve_left hlater
          ⟨hown.1, hown.2.1⟩⟩
      · rw [Option.eq_none_iff_forall_ne_some, forall_mem_cons]
        constructor
        · intro h
          refine ⟨fun haction hlists => ?_, hlist⟩
          obtain ⟨a, ha⟩ := Option.ne_none_iff_exists'.mp haction
          exact h a (hchunk.lastFor.mpr ⟨ha, hlists⟩)
        · intro h a ha
          obtain ⟨haction, hlists⟩ := hchunk.lastFor.mp ha
          exact h.1 (by simp [haction]) hlists

end Sources

-- ----
-- The compiled descriptor

section Compiled

variable {platform : Platform}

theorem mem_rulesOf {kinds : List DomainRuleType} {action : RouteAction}
    {rules : List DomainRule} {rule : Rule} :
    rule ∈ (rules.map ruleObject).flatMap (rulesOf kinds action) ↔
      rule.action = action ∧ rule.value ≠ [] ∧ rule.type ∈ kinds ∧
        ⟨rule.type, rule.value⟩ ∈ rules := by
  have hone : ∀ listed : DomainRule, rule ∈ rulesOf kinds action (ruleObject listed) ↔
      rule.action = action ∧ rule.value ≠ [] ∧ rule.type ∈ kinds ∧
        listed = ⟨rule.type, rule.value⟩ := by
    rintro ⟨type, value⟩
    obtain ⟨type', value', action'⟩ := rule
    simp only [rulesOf, ruleObject, DomainRouter.ruleOf, parseRuleType,
      DomainRuleType.fromRawValue_rawValue]
    by_cases hvalue : value = []
    · simp only [hvalue, if_true, not_mem_nil, DomainRule.mk.injEq, false_iff]
      rintro ⟨-, hne, -, -, rfl⟩
      exact hne rfl
    · simp only [hvalue, if_false]
      by_cases hkind : type ∈ kinds
      · simp only [hkind, if_true, mem_singleton, Rule.mk.injEq, DomainRule.mk.injEq]
        constructor
        · rintro ⟨rfl, rfl, rfl⟩
          exact ⟨rfl, hvalue, hkind, rfl, rfl⟩
        · rintro ⟨rfl, -, -, rfl, rfl⟩
          exact ⟨rfl, rfl, rfl⟩
      · simp only [hkind, if_false, not_mem_nil, DomainRule.mk.injEq, false_iff]
        rintro ⟨-, -, hin, rfl, -⟩
        exact hkind hin
  simp only [flatMap_map, mem_flatMap, hone]
  constructor
  · rintro ⟨listed, hmem, haction, hvalue, hkind, rfl⟩
    exact ⟨haction, hvalue, hkind, hmem⟩
  · rintro ⟨haction, hvalue, hkind, hmem⟩
    exact ⟨_, hmem, haction, hvalue, hkind, rfl⟩

namespace RuleSetRepository

variable (db : RulesDatabase) (configurations : List StoredConfiguration)
  (resolveAddress : String → Option String) (repository : RuleSetRepository)

variable (platform) in
theorem chunk_bypassRules :
    Chunk ⟨repository.bypassRules db, some .direct⟩
      (((repository.syncRoutingFile platform db configurations resolveAddress).bypassRules.getD
        []).flatMap (rulesOf [.ipCidr, .ipCidr6, .domainSuffix, .domainKeyword] .direct)) := by
  have hrules : (repository.syncRoutingFile platform db configurations resolveAddress
      ).bypassRules.getD [] = (repository.bypassRules db).map ruleObject := by
    simp only [syncRoutingFile]
    split
    · rfl
    · rename_i hempty
      rw [not_not.mp hempty]
      rfl
  intro rule
  have hkind : rule.type ∈ [DomainRuleType.ipCidr, .ipCidr6, .domainSuffix, .domainKeyword] := by
    cases rule.type <;> decide
  rw [hrules, mem_rulesOf, Option.some.injEq, eq_comm]
  exact ⟨fun h => ⟨h.1, h.2.1, h.2.2.2⟩, fun h => ⟨h.1, h.2.1, hkind, h.2.2⟩⟩

theorem chunk_ruleEntry {rules : List DomainRule} {action : String} {configId : Text}
    {a : RouteAction}
    (haction : DomainRouter.actionOf platform (ruleEntry rules action configId) = some a) :
    Chunk ⟨rules, some a⟩ (userRulesOf platform (some (ruleEntry rules action configId))) := by
  have hip : (ruleEntry rules action configId).ipRules.getD [] =
      (rules.filter (·.type.isAddress)).map ruleObject := by
    simp only [ruleEntry]
    split
    · rfl
    · rename_i hnone
      rw [eq_nil_of_length_eq_zero (Nat.eq_zero_of_not_pos hnone)]
      rfl
  have hdomain : (ruleEntry rules action configId).domainRules.getD [] =
      (rules.filter (!·.type.isAddress)).map ruleObject := rfl
  intro rule
  rw [userRulesOf, haction]
  dsimp only
  rw [hip, hdomain, mem_append, mem_rulesOf, mem_rulesOf, mem_filter, mem_filter,
    Option.some.injEq, eq_comm (a := a)]
  cases htype : rule.type <;> simp [DomainRuleType.isAddress]

variable (platform)

theorem syncRuleSet_chunk
    (routing : List (Option UserRule) × List (Text × Option ProxyConfiguration))
    (ruleSet : RuleSet) :
    ∃ chunk, Chunk ⟨repository.loadRules db ruleSet,
        assignedAction platform configurations ruleSet⟩ chunk ∧
      (repository.syncRuleSet platform db configurations resolveAddress routing ruleSet).1.flatMap
          (userRulesOf platform) = routing.1.flatMap (userRulesOf platform) ++ chunk := by
  rw [syncRuleSet, assignedAction]
  generalize repository.loadRules db ruleSet = rules
  have hskipped : ∀ action : Option RouteAction, action = none ∨ rules = [] →
      ∃ chunk, Chunk ⟨rules, action⟩ chunk ∧ routing.1.flatMap (userRulesOf platform) =
        routing.1.flatMap (userRulesOf platform) ++ chunk := by
    intro action hnothing
    refine ⟨[], fun rule => ?_, by simp⟩
    rcases hnothing with rfl | rfl <;> simp
  have hadded : ∀ {action : String} {configId : Text} {a : RouteAction},
      DomainRouter.actionOf platform (ruleEntry rules action configId) = some a →
      ∃ chunk, Chunk ⟨rules, some a⟩ chunk ∧
        (routing.1 ++ [some (ruleEntry rules action configId)]).flatMap (userRulesOf platform) =
          routing.1.flatMap (userRulesOf platform) ++ chunk := by
    intro action configId a haction
    exact ⟨_, chunk_ruleEntry haction, by rw [flatMap_append, flatMap_singleton]⟩
  cases ruleSet.assignedConfigurationId with
  | none => exact hskipped none (.inl rfl)
  | some assignedId =>
    dsimp only [Option.bind_some]
    by_cases hempty : rules = []
    · rw [if_pos hempty]
      exact hskipped _ (.inr hempty)
    · rw [if_neg hempty]
      by_cases hdirect : assignedId = assignedDirect
      · rw [if_pos hdirect, if_pos hdirect]
        exact hadded rfl
      · rw [if_neg hdirect, if_neg hdirect]
        by_cases hreject : assignedId = assignedReject
        · rw [if_pos hreject, if_pos hreject]
          exact hadded rfl
        · rw [if_neg hreject, if_neg hreject]
          cases huuid : platform.uuidFromString assignedId with
          | none => exact hskipped none (.inl rfl)
          | some configUuid =>
            dsimp only [Option.bind_some]
            cases hfind : configurations.find? (·.id == configUuid) with
            | none =>
              have hmissing : ¬ ∃ config ∈ configurations, config.id = configUuid := by
                simpa using hfind
              rw [if_neg hmissing]
              exact hskipped none (.inl rfl)
            | some config =>
              have hfound : ∃ config ∈ configurations, config.id = configUuid :=
                ⟨config, List.mem_of_find?_eq_some hfind, by
                  simpa using List.find?_some hfind⟩
              rw [if_pos hfound]
              exact hadded (by simp [DomainRouter.actionOf, ruleEntry, huuid])

/-- The loop over the rule sets adds them source by source. -/
theorem sync_chunks_from (ruleSets : List RuleSet)
    (routing : List (Option UserRule) × List (Text × Option ProxyConfiguration)) :
    ∃ chunks, List.Forall₂ Chunk (ruleSets.map fun ruleSet =>
        ⟨repository.loadRules db ruleSet, assignedAction platform configurations ruleSet⟩) chunks ∧
      (ruleSets.foldl (repository.syncRuleSet platform db configurations resolveAddress)
          routing).1.flatMap (userRulesOf platform) =
        routing.1.flatMap (userRulesOf platform) ++ chunks.flatten := by
  induction ruleSets generalizing routing with
  | nil => exact ⟨[], .nil, by simp⟩
  | cons ruleSet ruleSets ih =>
    obtain ⟨chunk, hchunk, hstep⟩ :=
      syncRuleSet_chunk platform db configurations resolveAddress repository
      routing ruleSet
    obtain ⟨chunks, hchunks, hrest⟩ := ih
      (repository.syncRuleSet platform db configurations resolveAddress routing ruleSet)
    refine ⟨chunk :: chunks, .cons hchunk hchunks, ?_⟩
    rw [foldl_cons, hrest, hstep, flatten_cons, append_assoc]

/-- The rules of a compiled descriptor, source by source. -/
theorem sync_chunks :
    ∃ chunks, List.Forall₂ Chunk (repository.sources platform db configurations) chunks ∧
      (repository.syncRoutingFile platform db configurations resolveAddress).inserted platform =
        chunks.flatten := by
  obtain ⟨chunks, hchunks, hrules⟩ := sync_chunks_from platform db configurations resolveAddress
    repository repository.ruleSets ([], [])
  refine ⟨_, .cons (chunk_bypassRules platform db configurations resolveAddress repository) hchunks,
    ?_⟩
  rw [flatten_cons, Descriptor.inserted]
  congr 1

variable {repository}

theorem loadRules_custom (hids : (repository.customRuleSets.map (·.id)).Nodup)
    {custom : CustomRuleSet} (hcustom : custom ∈ repository.customRuleSets) {ruleSet : RuleSet}
    (hkind : ruleSet.isCustom = true) (hid : ruleSet.id = custom.id) :
    repository.loadRules db ruleSet = custom.rules := by
  have hfind : repository.customRuleSet custom.id = some custom := by
    rw [customRuleSet]
    cases hfound : repository.customRuleSets.find? (·.id == custom.id) with
    | none => exact absurd (by simp) (List.find?_eq_none.mp hfound custom hcustom)
    | some found =>
      have hsame : found.id = custom.id := by simpa using List.find?_some hfound
      rw [inj_on_of_nodup_map hids (List.mem_of_find?_eq_some hfound) hcustom hsame]
  rw [loadRules, if_pos hkind, hid, hfind]
  rfl

/-- **The priority of the rule sets.** The router's action at every suffix and every prefix is
that of the last source listing it, in the order country bypass, `Direct`, services, custom rule
sets as they are listed, `ADBlock`; a rule set without an assignment, or whose configuration is
missing, takes no part. -/
theorem routing_follows_priority (h : Reachable db repository) :
    let router := DomainRouter.loadRoutingConfiguration platform
      (some (repository.syncRoutingFile platform db configurations resolveAddress))
    let sources := repository.sources platform db configurations
    InPriorityOrder db repository ∧
    (∀ key a, router.actionAt key = some a ↔ Prevails platform sources key a) ∧
    (∀ key, router.actionAt key = none ↔
      ∀ s ∈ sources, s.action ≠ none → ¬ s.Lists platform key) ∧
    ((repository.customRuleSets.map (·.id)).Nodup →
      ∀ custom ∈ repository.customRuleSets, ∀ ruleSet ∈ repository.ruleSets,
        ruleSet.isCustom = true → ruleSet.id = custom.id →
        repository.loadRules db ruleSet = custom.rules) := by
  intro router sources
  obtain ⟨chunks, hchunks, hinserted⟩ :=
    sync_chunks platform db configurations resolveAddress repository
  have haction : ∀ key, router.actionAt key = lastFor platform key chunks.flatten := by
    have hloads : Loads platform router chunks.flatten := hinserted ▸ load_loads _
    exact fun key => actionAt_eq hloads (values_of_chunks hchunks) key
  refine ⟨h.inPriorityOrder, fun key a => ?_, fun key => ?_, ?_⟩
  · rw [haction, (lastFor_chunks hchunks).1]
  · rw [haction, (lastFor_chunks hchunks).2]
  · exact fun hids custom hcustom ruleSet _ hkind hid => loadRules_custom db hids hcustom hkind hid

/-- The country `C`, whose rule for `com` is another action's in `ADBlock`. -/
def comDatabase : RulesDatabase where
  rows := [⟨['C'], 2, some ['c', 'o', 'm']⟩, ⟨adBlock, 2, some ['.', 'C', 'o', 'm']⟩]

def comRepository : RuleSetRepository :=
  rebuildRuleSets comDatabase ⟨[], [], [adBlock ++ '=' :: assignedReject], ['C']⟩

theorem routing_of_two_sources :
    (DomainRouter.loadRoutingConfiguration asciiPlatform
      (some (comRepository.syncRoutingFile asciiPlatform comDatabase [] fun _ => none))).actionAt
        (.suffix [['c', 'o', 'm']]) = some .reject := by
  refine ((routing_follows_priority asciiPlatform comDatabase [] (fun _ => none)
    (.init [] _ _)).2.1 _ _).mpr ?_
  exact ⟨[⟨[⟨.domainSuffix, ['c', 'o', 'm']⟩], some .direct⟩, ⟨[], some .direct⟩],
    ⟨[⟨.domainSuffix, ['.', 'C', 'o', 'm']⟩], some .reject⟩, [], rfl, rfl,
    ⟨_, mem_singleton_self _, by decide⟩, by simp⟩

end RuleSetRepository

end Compiled

end Anywhere.Router
