import Anywhere.Router.DomainRouter

/-!
# Anywhere — what the router answers

The rules a descriptor inserts, in order (`inserted`), decide both answers: the
domain rule with the longest matching suffix, and the address rule with the
longest prefix that covers the address, the later one among equals.

* `matchDomain_longest_suffix`, `matchIP_longest_prefix` — the two answers.
-/

namespace Anywhere.Router

open Lib PrefixMap List

-- ----
-- The rules a descriptor inserts

structure Rule where
  type : DomainRuleType
  value : Text
  action : RouteAction
  deriving DecidableEq

section Inserted

variable (platform : Platform)

def rulesOf (kinds : List DomainRuleType) (action : RouteAction) (object : Option RuleObject) :
    List Rule :=
  match DomainRouter.ruleOf object with
  | some (type, value) => if type ∈ kinds then [⟨type, value, action⟩] else []
  | none => []

def userRulesOf (rule : Option UserRule) : List Rule :=
  match rule with
  | none => []
  | some rule =>
    match DomainRouter.actionOf platform rule with
    | none => []
    | some action =>
      (rule.domainRules.getD []).flatMap (rulesOf [.domainSuffix, .domainKeyword] action) ++
        (rule.ipRules.getD []).flatMap (rulesOf [.ipCidr, .ipCidr6] action)

/-- The bypass rules first, then the user's. -/
def Descriptor.inserted (descriptor : Descriptor) : List Rule :=
  (descriptor.bypassRules.getD []).flatMap
      (rulesOf [.ipCidr, .ipCidr6, .domainSuffix, .domainKeyword] .direct) ++
    (descriptor.rules.getD []).flatMap (userRulesOf platform)

-- ----
-- The tries hold them

def labels (suffix : Text) : List Text := (suffix.splitOn '.').filter (· ≠ [])

def suffixPath (rule : Rule) : Option (List Text × RouteAction) :=
  if rule.type = .domainSuffix then
    some ((labels (platform.lowercase rule.value)).reverse, rule.action)
  else none

/-- The path of an address rule in the IPv4 trie. -/
def path4 (rule : Rule) : Option (List Bool × RouteAction) :=
  if rule.type = .ipCidr then
    (parseIPv4CIDR rule.value).map fun net =>
      ((List.range net.2).map (bit4 net.1), rule.action)
  else none

/-- The path of an address rule in the IPv6 trie. -/
def path6 (rule : Rule) : Option (List Bool × RouteAction) :=
  if rule.type = .ipCidr6 then
    (parseIPv6CIDR platform rule.value).map fun net =>
      ((List.range net.2).map (bit6 net.1), rule.action)
  else none

/-- The tries are those of these rules. -/
structure Loads (r : DomainRouter) (rules : List Rule) : Prop where
  suffixes : r.trieRoot = TrieNode.branching.ofRules (rules.filterMap (suffixPath platform))
  ipv4 : r.ipv4Trie = CIDRTrie.branching.ofRules (rules.filterMap path4)
  ipv6 : r.ipv6Trie = CIDRTrie.branching.ofRules (rules.filterMap (path6 platform))

variable {platform} {r : DomainRouter} {rules : List Rule}

theorem loads_empty : Loads platform {} [] := ⟨rfl, rfl, rfl⟩

theorem insertKeywordRule_tries (r : DomainRouter) (pattern : Text) (action : RouteAction) :
    (r.insertKeywordRule pattern action).trieRoot = r.trieRoot ∧
      (r.insertKeywordRule pattern action).ipv4Trie = r.ipv4Trie ∧
      (r.insertKeywordRule pattern action).ipv6Trie = r.ipv6Trie := by
  unfold DomainRouter.insertKeywordRule
  split
  · exact ⟨rfl, rfl, rfl⟩
  · split
    · exact ⟨rfl, rfl, rfl⟩
    · exact ⟨rfl, rfl, rfl⟩

theorem Loads.insertRule (h : Loads platform r rules) (rule : Rule) :
    Loads platform (r.insertRule platform rule.action rule.value rule.type) (rules ++ [rule]) := by
  obtain ⟨type, value, action⟩ := rule
  cases type with
  | domainSuffix =>
    refine ⟨?_, ?_, ?_⟩
    · rw [Branching.ofRules_filterMap_snoc, suffixPath, if_pos rfl, ← h.suffixes, labels,
        ← filter_reverse]
      rfl
    · rw [Branching.ofRules_filterMap_snoc, path4, if_neg (by simp)]
      exact h.ipv4
    · rw [Branching.ofRules_filterMap_snoc, path6, if_neg (by simp)]
      exact h.ipv6
  | domainKeyword =>
    obtain ⟨htrie, hip4, hip6⟩ := insertKeywordRule_tries r (platform.lowercase value) action
    refine ⟨?_, ?_, ?_⟩
    · rw [Branching.ofRules_filterMap_snoc, suffixPath, if_neg (by simp)]
      exact htrie.trans h.suffixes
    · rw [Branching.ofRules_filterMap_snoc, path4, if_neg (by simp)]
      exact hip4.trans h.ipv4
    · rw [Branching.ofRules_filterMap_snoc, path6, if_neg (by simp)]
      exact hip6.trans h.ipv6
  | ipCidr =>
    simp only [DomainRouter.insertRule]
    refine ⟨?_, ?_, ?_⟩
    · rw [Branching.ofRules_filterMap_snoc, suffixPath, if_neg (by simp)]
      cases parseIPv4CIDR value <;> exact h.suffixes
    · rw [Branching.ofRules_filterMap_snoc, path4, if_pos rfl, ← h.ipv4]
      cases parseIPv4CIDR value <;> rfl
    · rw [Branching.ofRules_filterMap_snoc, path6, if_neg (by simp)]
      cases parseIPv4CIDR value <;> exact h.ipv6
  | ipCidr6 =>
    simp only [DomainRouter.insertRule]
    refine ⟨?_, ?_, ?_⟩
    · rw [Branching.ofRules_filterMap_snoc, suffixPath, if_neg (by simp)]
      cases parseIPv6CIDR platform value <;> exact h.suffixes
    · rw [Branching.ofRules_filterMap_snoc, path4, if_neg (by simp)]
      cases parseIPv6CIDR platform value <;> exact h.ipv4
    · rw [Branching.ofRules_filterMap_snoc, path6, if_pos rfl, ← h.ipv6]
      cases parseIPv6CIDR platform value <;> rfl

theorem Loads.congr (h : Loads platform r rules) {r' : DomainRouter}
    (htrie : r'.trieRoot = r.trieRoot) (h4 : r'.ipv4Trie = r.ipv4Trie)
    (h6 : r'.ipv6Trie = r.ipv6Trie) : Loads platform r' rules :=
  ⟨htrie.trans h.suffixes, h4.trans h.ipv4, h6.trans h.ipv6⟩

theorem Loads.foldl {α : Type} {f : DomainRouter → α → DomainRouter} {g : α → List Rule}
    (hstep : ∀ r rules x, Loads platform r rules → Loads platform (f r x) (rules ++ g x))
    (h : Loads platform r rules) (xs : List α) :
    Loads platform (xs.foldl f r) (rules ++ xs.flatMap g) := by
  induction xs generalizing r rules with
  | nil => simpa using h
  | cons x xs ih =>
    rw [foldl_cons, flatMap_cons, ← append_assoc]
    exact ih (hstep r rules x h)

theorem Loads.loadBypassRule (h : Loads platform r rules) (object : Option RuleObject) :
    Loads platform (r.loadBypassRule platform object)
      (rules ++ rulesOf [.ipCidr, .ipCidr6, .domainSuffix, .domainKeyword] .direct object) := by
  unfold DomainRouter.loadBypassRule rulesOf
  cases DomainRouter.ruleOf object with
  | none => simpa using h
  | some rule =>
    obtain ⟨type, value⟩ := rule
    have hkind : type ∈ [DomainRuleType.ipCidr, .ipCidr6, .domainSuffix, .domainKeyword] := by
      cases type <;> decide
    dsimp only
    rw [if_pos hkind]
    exact h.insertRule ⟨type, value, .direct⟩

theorem Loads.loadDomainRule (h : Loads platform r rules) (action : RouteAction)
    (object : Option RuleObject) :
    Loads platform (r.loadDomainRule platform action object)
      (rules ++ rulesOf [.domainSuffix, .domainKeyword] action object) := by
  unfold DomainRouter.loadDomainRule rulesOf
  cases DomainRouter.ruleOf object with
  | none => simpa using h
  | some rule =>
    obtain ⟨type, value⟩ := rule
    cases type with
    | domainSuffix => exact (h.insertRule ⟨.domainSuffix, value, action⟩).congr rfl rfl rfl
    | domainKeyword => exact (h.insertRule ⟨.domainKeyword, value, action⟩).congr rfl rfl rfl
    | ipCidr => simpa using h
    | ipCidr6 => simpa using h

theorem Loads.loadIpRule (h : Loads platform r rules) (action : RouteAction)
    (object : Option RuleObject) :
    Loads platform (r.loadIpRule platform action object)
      (rules ++ rulesOf [.ipCidr, .ipCidr6] action object) := by
  unfold DomainRouter.loadIpRule rulesOf
  cases DomainRouter.ruleOf object with
  | none => simpa using h
  | some rule =>
    obtain ⟨type, value⟩ := rule
    cases type with
    | domainSuffix => simpa using h
    | domainKeyword => simpa using h
    | ipCidr =>
      have := h.insertRule ⟨.ipCidr, value, action⟩
      dsimp only
      split
      · exact this.congr rfl rfl rfl
      · exact this
    | ipCidr6 =>
      have := h.insertRule ⟨.ipCidr6, value, action⟩
      dsimp only
      split
      · exact this.congr rfl rfl rfl
      · exact this

theorem Loads.loadUserRule (h : Loads platform r rules) (rule : Option UserRule) :
    Loads platform (r.loadUserRule platform rule) (rules ++ userRulesOf platform rule) := by
  unfold DomainRouter.loadUserRule userRulesOf
  cases rule with
  | none => simpa using h
  | some rule =>
    dsimp only
    cases DomainRouter.actionOf platform rule with
    | none => simpa using h
    | some action =>
      dsimp only
      rw [← append_assoc]
      exact (h.foldl (fun _ _ object h => h.loadDomainRule action object) _).foldl
        (fun _ _ object h => h.loadIpRule action object) _

theorem Loads.loadConfig (h : Loads platform r rules)
    (entry : Text × Option ProxyConfiguration) :
    Loads platform (r.loadConfig platform entry) (rules ++ []) := by
  rw [append_nil]
  unfold DomainRouter.loadConfig
  split
  · exact h.congr rfl rfl rfl
  · exact h

/-- The tries of a loaded router hold the inserted rules. -/
theorem load_loads (descriptor : Descriptor) :
    Loads platform (DomainRouter.loadRoutingConfiguration platform (some descriptor))
      (descriptor.inserted platform) := by
  have hempty : Loads platform {} [] := loads_empty
  have hbypass := hempty.foldl (fun _ _ object h => h.loadBypassRule object)
    (descriptor.bypassRules.getD [])
  have hconfigs := hbypass.foldl (fun _ _ entry h => h.loadConfig entry) descriptor.configs
  have hnone : descriptor.configs.flatMap (fun _ => ([] : List Rule)) = [] := by simp
  rw [hnone, append_nil, nil_append] at hconfigs
  exact hconfigs.foldl (fun _ _ rule h => h.loadUserRule rule) _

end Inserted

-- ----
-- Domains

variable {a : RouteAction} {domain : Text} {rule : Rule} {rules : List Rule}

section Domains

variable (platform : Platform)

/-- The number of labels of a rule's suffix. -/
def Rule.labelCount (rule : Rule) : Nat := (labels (platform.lowercase rule.value)).length

/-- A suffix rule whose labels end the domain. -/
def Rule.SuffixOf (rule : Rule) (domain : Text) : Prop :=
  rule.type = .domainSuffix ∧ labels (platform.lowercase rule.value) <:+ domain.splitOn '.'

/-- The action of the rule with the most labels among those whose suffix ends the
domain, the last inserted one among equals. -/
def LongestSuffix (rules : List Rule) (domain : Text) (action : RouteAction) : Prop :=
  ∃ before rule after, rules = before ++ rule :: after ∧ rule.action = action ∧
    rule.SuffixOf platform domain ∧
    (∀ r ∈ before, r.SuffixOf platform domain → r.labelCount platform ≤ rule.labelCount platform) ∧
    ∀ r ∈ after, r.SuffixOf platform domain → r.labelCount platform < rule.labelCount platform

variable {platform}

theorem suffixPath_spec (domain : Text) {p : List Text}
    (h : suffixPath platform rule = some (p, a)) :
    rule.action = a ∧ p.length = rule.labelCount platform ∧
      (p <+: reversedLabels domain ↔ rule.SuffixOf platform domain) := by
  unfold suffixPath at h
  split at h
  · rename_i htype
    rw [Option.some.injEq, Prod.mk.injEq] at h
    obtain ⟨rfl, rfl⟩ := h
    refine ⟨rfl, length_reverse, ?_⟩
    rw [reversedLabels, reverse_prefix]
    exact ⟨fun hsuffix => ⟨htype, hsuffix⟩, fun hsuffix => hsuffix.2⟩
  · cases h

theorem suffixPath_of_suffixOf
    (h : rule.SuffixOf platform domain) : suffixPath platform rule =
      some ((labels (platform.lowercase rule.value)).reverse, rule.action) := by
  rw [suffixPath, if_pos h.1]

theorem longestSuffix_iff :
    LongestSuffix platform rules domain a ↔
      LongestMatch (rules.filterMap (suffixPath platform)) (reversedLabels domain) a := by
  rw [longestMatch_filterMap]
  constructor
  · rintro ⟨before, rule, after, rfl, rfl, hrule, hbefore, hafter⟩
    have hpath := suffixPath_of_suffixOf hrule
    obtain ⟨-, hlen, hiff⟩ := suffixPath_spec domain hpath
    refine ⟨before, rule, after, _, rfl, hpath, hiff.mpr hrule, ?_, ?_⟩
    · intro r hr q b hq hqp
      obtain ⟨-, hqlen, hqiff⟩ := suffixPath_spec domain hq
      rw [hqlen, hlen]
      exact hbefore r hr (hqiff.mp hqp)
    · intro r hr q b hq hqp
      obtain ⟨-, hqlen, hqiff⟩ := suffixPath_spec domain hq
      rw [hqlen, hlen]
      exact hafter r hr (hqiff.mp hqp)
  · rintro ⟨before, rule, after, p, rfl, hpath, hp, hbefore, hafter⟩
    obtain ⟨haction, hlen, hiff⟩ := suffixPath_spec domain hpath
    refine ⟨before, rule, after, rfl, haction, hiff.mp hp, ?_, ?_⟩
    · intro r hr hsuffix
      have hq := suffixPath_of_suffixOf hsuffix
      obtain ⟨-, hqlen, hqiff⟩ := suffixPath_spec domain hq
      rw [← hqlen, ← hlen]
      exact hbefore r hr _ _ hq (hqiff.mpr hsuffix)
    · intro r hr hsuffix
      have hq := suffixPath_of_suffixOf hsuffix
      obtain ⟨-, hqlen, hqiff⟩ := suffixPath_spec domain hq
      rw [← hqlen, ← hlen]
      exact hafter r hr _ _ hq (hqiff.mpr hsuffix)

theorem noSuffix_iff :
    (∀ r ∈ rules, ¬ r.SuffixOf platform domain) ↔
      ∀ r ∈ rules.filterMap (suffixPath platform), ¬ r.1 <+: reversedLabels domain := by
  constructor
  · rintro h ⟨p, a⟩ hmem hp
    obtain ⟨rule, hrule, hpath⟩ := mem_filterMap.mp hmem
    exact h rule hrule ((suffixPath_spec domain hpath).2.2.mp hp)
  · intro h rule hrule hsuffix
    have hpath := suffixPath_of_suffixOf hsuffix
    exact h _ (mem_filterMap.mpr ⟨rule, hrule, hpath⟩)
      ((suffixPath_spec domain hpath).2.2.mpr hsuffix)

/-- `trieLookup` of a loaded router is the search among its suffix rules. -/
theorem trieLookup_eq {r : DomainRouter} (h : Loads platform r rules)
    (hrules : ∀ rule ∈ rules, rule.type = .domainSuffix →
      labels (platform.lowercase rule.value) ≠ []) (domain : Text) :
    r.trieLookup domain =
      deepest (stored (rules.filterMap (suffixPath platform))) (reversedLabels domain) := by
  -- no rule reaches the root, whose action the walk does not look at
  have hroot : TrieNode.branching.value
      (TrieNode.branching.ofRules (rules.filterMap (suffixPath platform))) = none := by
    have hread := TrieNode.branching.read_ofRules (rules.filterMap (suffixPath platform))
    refine (congrFun hread []).trans (stored_eq_none.2 ?_)
    rintro ⟨p, a⟩ hmem hnil
    obtain ⟨rule, hrule, hpath⟩ := mem_filterMap.mp hmem
    unfold suffixPath at hpath
    split at hpath
    · rename_i htype
      rw [Option.some.injEq, Prod.mk.injEq] at hpath
      exact hrules rule hrule htype (reverse_eq_nil_iff.mp (hpath.1.trans hnil))
    · cases hpath
  have hwalk := TrieNode.branching.walk_stored (rules.filterMap (suffixPath platform))
    (reversedLabels domain)
  rwa [hroot, ← h.suffixes] at hwalk

/-- **Suffix routing.** -/
theorem matchDomain_longest_suffix (platform : Platform) (descriptor : Descriptor)
    (hrules : ∀ rule ∈ descriptor.inserted platform, rule.type = .domainSuffix →
      labels (platform.lowercase rule.value) ≠ []) (domain : Text) :
    let router := DomainRouter.loadRoutingConfiguration platform (some descriptor)
    let rules := descriptor.inserted platform
    let lowered := platform.lowercase domain
    (∀ a, router.trieLookup lowered = some a ↔ LongestSuffix platform rules lowered a) ∧
    (router.trieLookup lowered = none ↔ ∀ r ∈ rules, ¬ r.SuffixOf platform lowered) ∧
    (domain ≠ [] →
      (∀ a, LongestSuffix platform rules lowered a →
        router.matchDomain platform domain = some a) ∧
      ((∀ r ∈ rules, ¬ r.SuffixOf platform lowered) →
        router.matchDomain platform domain = router.lookupKeywordRule lowered)) := by
  intro router rules lowered
  have hlookup := trieLookup_eq (load_loads descriptor) hrules lowered
  have hsome : ∀ a, router.trieLookup lowered = some a ↔
      LongestSuffix platform rules lowered a := by
    intro a
    rw [longestSuffix_iff, ← deepest_stored_eq_some, ← hlookup]
  have hnone : router.trieLookup lowered = none ↔
      ∀ r ∈ rules, ¬ r.SuffixOf platform lowered := by
    rw [noSuffix_iff, ← deepest_stored_eq_none, ← hlookup]
  refine ⟨hsome, hnone, fun hdomain => ⟨fun a ha => ?_, fun hno => ?_⟩⟩
  · simp only [DomainRouter.matchDomain, if_neg hdomain]
    rw [show router.trieLookup (platform.lowercase domain) = some a from (hsome a).mpr ha]
  · simp only [DomainRouter.matchDomain, if_neg hdomain]
    rw [show router.trieLookup (platform.lowercase domain) = none from hnone.mpr hno]

/-- A bypass rule for `com` and a user rule for `.Ad.com`. -/
def adsDescriptor : Descriptor where
  bypassRules := some [some ⟨.number 2, ['c', 'o', 'm']⟩]
  rules := some [some
    { action := "reject"
      configId := []
      domainRules := some [none, some ⟨.number 2, ['.', 'A', 'd', '.', 'c', 'o', 'm']⟩] }]

def asciiPlatform : Platform where
  lowercase := List.map Char.toLower
  uuidFromString _ := none
  getByName _ := none

theorem matchDomain_of_two_suffixes :
    (∀ rule ∈ adsDescriptor.inserted asciiPlatform, rule.type = .domainSuffix →
      labels (asciiPlatform.lowercase rule.value) ≠ []) ∧
    (DomainRouter.loadRoutingConfiguration asciiPlatform (some adsDescriptor)).matchDomain
      asciiPlatform ['x', '.', 'A', 'd', '.', 'c', 'o', 'm'] = some .reject := by
  have hrules : ∀ rule ∈ adsDescriptor.inserted asciiPlatform, rule.type = .domainSuffix →
      labels (asciiPlatform.lowercase rule.value) ≠ [] := by decide
  refine ⟨hrules, ((matchDomain_longest_suffix asciiPlatform adsDescriptor hrules _).2.2
    (by decide)).1 .reject ?_⟩
  refine ⟨[⟨.domainSuffix, ['c', 'o', 'm'], .direct⟩],
    ⟨.domainSuffix, ['.', 'A', 'd', '.', 'c', 'o', 'm'], .reject⟩, [], by decide, rfl,
    ⟨rfl, by decide⟩, ?_, by simp⟩
  intro r hr _
  rw [mem_singleton.mp hr]
  decide

end Domains

-- ----
-- Addresses

/-- An address `matchIP` looks up. -/
inductive Address where
  | v4 (address : Nat)
  | v6 (bytes : Bytes)
  deriving DecidableEq, Repr

/-- The address `matchIP` parses. -/
def addressOf (platform : Platform) (ip : Text) : Option Address :=
  if ip = [] then none
  else if ip.contains ':' then (parseIPv6Address platform ip).map .v6
  else (parseIPv4 ip).map .v4

variable {bytes : Bytes} {i len : Nat}

section Addresses

variable (platform : Platform)

/-- The rule names a network of this length, of the address's family, and the
address agrees with it in the first `len` bits. The bits behind do not matter. -/
def Rule.Covers (rule : Rule) (len : Nat) : Address → Prop
  | .v4 address => rule.type = .ipCidr ∧ len ≤ 32 ∧ ∃ addr lenText net,
      rule.value = addr ++ '/' :: lenText ∧ '/' ∉ addr ∧ parseIPv4 addr = some net ∧
      Text.toNumberOrNull 32 10 lenText = some (len : Int) ∧ ∀ i < len, bit4 net i = bit4 address i
  | .v6 bytes => rule.type = .ipCidr6 ∧ len ≤ 128 ∧ ∃ addr lenText net,
      rule.value = addr ++ '/' :: lenText ∧ '/' ∉ lenText ∧
      parseIPv6Address platform addr = some net ∧
      Text.toNumberOrNull 32 10 lenText = some (len : Int) ∧ ∀ i < len, bit6 net i = bit6 bytes i

/-- The action of the rule with the longest prefix that covers the address, the
last inserted one among equals. -/
def LongestCover (rules : List Rule) (address : Address) (action : RouteAction) : Prop :=
  ∃ before rule after len, rules = before ++ rule :: after ∧ rule.action = action ∧
    rule.Covers platform len address ∧
    (∀ r ∈ before, ∀ l, r.Covers platform l address → l ≤ len) ∧
    ∀ r ∈ after, ∀ l, r.Covers platform l address → l < len

variable {platform}

theorem testBit_ones {n : Nat} (hi : i < n) : (2 ^ n - 1).testBit i = true := by
  rw [Nat.testBit_two_pow_sub_one]
  simpa using hi

theorem bit4_mask {ip pref : Nat} (hi : i < pref) (hpref : pref ≤ 32) :
    bit4 (ip &&& mask4 pref) i = bit4 ip i := by
  have hones : (0xFFFFFFFF : Nat) = 2 ^ 32 - 1 := by norm_num
  rw [bit4, bit4, mask4, if_neg (by omega), Nat.testBit_and, Nat.testBit_and,
    Nat.testBit_shiftLeft, hones, testBit_ones (by omega), testBit_ones (by omega)]
  have hle : 31 - i ≥ 32 - pref := by omega
  simp [hle]

/-- The accepted texts: an address and a length. The host bits are cleared. -/
theorem parseIPv4CIDR_eq_some {cidr : Text} {net : Nat} :
    parseIPv4CIDR cidr = some (net, len) ↔ len ≤ 32 ∧ ∃ addr lenText ip,
      cidr = addr ++ '/' :: lenText ∧ '/' ∉ addr ∧ parseIPv4 addr = some ip ∧
      Text.toNumberOrNull 32 10 lenText = some (len : Int) ∧ net = ip &&& mask4 len := by
  constructor
  · intro h
    unfold parseIPv4CIDR at h
    split at h
    · rename_i addr lenText hsplit
      obtain ⟨hcidr, haddr⟩ := Text.splitLimit_two.mp hsplit
      split at h
      · cases h
      · rename_i pref hpref
        split at h
        · cases h
        · split at h
          · cases h
          · rename_i hrange _ ip hip
            rw [Option.some.injEq, Prod.mk.injEq] at h
            obtain ⟨rfl, rfl⟩ := h
            refine ⟨by omega, addr, lenText, ip, hcidr, haddr, hip, ?_, rfl⟩
            rw [hpref, Int.toNat_of_nonneg (by omega)]
    · cases h
  · rintro ⟨hlen, addr, lenText, ip, rfl, haddr, hip, hpref, rfl⟩
    unfold parseIPv4CIDR
    rw [Text.splitLimit_two.mpr ⟨rfl, haddr⟩]
    dsimp only
    rw [hpref]
    dsimp only
    rw [if_neg (by omega), hip, Int.toNat_natCast]

theorem path4_covers {address : Nat} :
    rule.Covers platform len (.v4 address) ↔
      ∃ p, path4 rule = some (p, rule.action) ∧ p.length = len ∧
        p <+: (List.range 32).map (bit4 address) := by
  constructor
  · rintro ⟨htype, hlen, addr, lenText, ip, hvalue, haddr, hip, hpref, hbits⟩
    have hparse := parseIPv4CIDR_eq_some.2
      ⟨hlen, addr, lenText, ip, hvalue, haddr, hip, hpref, rfl⟩
    refine ⟨(List.range len).map (bit4 (ip &&& mask4 len)), ?_, by simp, ?_⟩
    · rw [path4, if_pos htype, hparse]
      rfl
    · exact map_range_prefix.2 ⟨hlen, fun i hi => (bit4_mask hi hlen).trans (hbits i hi)⟩
  · rintro ⟨p, hpath, rfl, hp⟩
    unfold path4 at hpath
    split at hpath
    · rename_i htype
      obtain ⟨⟨net, len⟩, hparse, hpair⟩ := Option.map_eq_some_iff.mp hpath
      obtain ⟨hlen, addr, lenText, ip, hvalue, haddr, hip, hpref, rfl⟩ :=
        parseIPv4CIDR_eq_some.1 hparse
      rw [Prod.mk.injEq] at hpair
      obtain ⟨rfl, -⟩ := hpair
      obtain ⟨-, hbits⟩ := map_range_prefix.1 hp
      rw [length_map, length_range]
      exact ⟨htype, hlen, addr, lenText, ip, hvalue, haddr, hip, hpref,
        fun i hi => (bit4_mask hi hlen).symm.trans (hbits i hi)⟩
    · cases hpath

theorem bit6_mask (hbytes : bytes.length = 16) (hi : i < len)
    (hlen : len ≤ 128) : bit6 (bytes.mapIdx (maskByte len)) i = bit6 bytes i := by
  have hindex : i / 8 < bytes.length := by omega
  have hmask : (bytes.mapIdx (maskByte len)).getD (i / 8) 0 =
      maskByte len (i / 8) (bytes.getD (i / 8) 0) := by
    rw [List.getD_eq_getElem?_getD, List.getD_eq_getElem?_getD, List.getElem?_mapIdx,
      List.getElem?_eq_getElem hindex]
    rfl
  rw [bit6, bit6, hmask, maskByte]
  generalize bytes.getD (i / 8) 0 = byte
  rw [if_neg (by omega)]
  split
  · -- the byte the prefix ends in
    rename_i hcut
    have hsmall : byte.toNat &&& (0xFF <<< (8 - (len - i / 8 * 8)) &&& 0xFF) < 256 :=
      lt_of_le_of_lt Nat.and_le_left (UInt8.toNat_lt byte)
    have hones : (0xFF : Nat) = 2 ^ 8 - 1 := by norm_num
    rw [UInt8.toNat_ofNat_of_lt' hsmall, Nat.testBit_and, Nat.testBit_and, Nat.testBit_shiftLeft,
      hones, testBit_ones (by omega), testBit_ones (by omega)]
    have hle : 7 - i % 8 ≥ 8 - (len - i / 8 * 8) := by omega
    simp [hle]
  · rfl

theorem length_parseIPv6Address {ip : Text}
    (h : parseIPv6Address platform ip = some bytes) : bytes.length = 16 := by
  rw [parseIPv6Address, Option.filter_eq_some_iff] at h
  simpa using h.2

theorem parseIPv6CIDR_eq_some {cidr : Text} {net : Bytes} :
    parseIPv6CIDR platform cidr = some (net, len) ↔ len ≤ 128 ∧ ∃ addr lenText bytes,
      cidr = addr ++ '/' :: lenText ∧ '/' ∉ lenText ∧
      parseIPv6Address platform addr = some bytes ∧
      Text.toNumberOrNull 32 10 lenText = some (len : Int) ∧
      net = bytes.mapIdx (maskByte len) := by
  have hparts : ∀ addr lenText : Text, (addr ++ '/' :: lenText).take addr.length = addr ∧
      (addr ++ '/' :: lenText).drop (addr.length + 1) = lenText := by
    intro addr lenText
    exact ⟨take_left' rfl, by rw [← drop_drop, drop_left' rfl]; rfl⟩
  constructor
  · intro h
    unfold parseIPv6CIDR at h
    split at h
    · cases h
    · rename_i slash hslash
      obtain ⟨addr, lenText, rfl, hlenText, rfl⟩ := Text.lastIndexOf_eq_some.mp hslash
      rw [(hparts addr lenText).1, (hparts addr lenText).2] at h
      split at h
      · cases h
      · rename_i pref hpref
        split at h
        · cases h
        · split at h
          · cases h
          · rename_i hrange _ bytes hbytes
            rw [Option.some.injEq, Prod.mk.injEq] at h
            obtain ⟨rfl, rfl⟩ := h
            refine ⟨by omega, addr, lenText, bytes, rfl, hlenText, hbytes, ?_, rfl⟩
            rw [hpref, Int.toNat_of_nonneg (by omega)]
  · rintro ⟨hlen, addr, lenText, bytes, rfl, hlenText, hbytes, hpref, rfl⟩
    unfold parseIPv6CIDR
    rw [Text.lastIndexOf_eq_some.mpr ⟨addr, lenText, rfl, hlenText, rfl⟩]
    dsimp only
    rw [(hparts addr lenText).1, (hparts addr lenText).2, hpref]
    dsimp only
    rw [if_neg (by omega), hbytes, Int.toNat_natCast]

theorem path6_covers :
    rule.Covers platform len (.v6 bytes) ↔
      ∃ p, path6 platform rule = some (p, rule.action) ∧ p.length = len ∧
        p <+: (List.range 128).map (bit6 bytes) := by
  constructor
  · rintro ⟨htype, hlen, addr, lenText, net, hvalue, hlenText, hnet, hpref, hbits⟩
    have hparse := parseIPv6CIDR_eq_some.2
      ⟨hlen, addr, lenText, net, hvalue, hlenText, hnet, hpref, rfl⟩
    refine ⟨(List.range len).map (bit6 (net.mapIdx (maskByte len))), ?_, by simp, ?_⟩
    · rw [path6, if_pos htype, hparse]
      rfl
    · exact map_range_prefix.2 ⟨hlen, fun i hi =>
        (bit6_mask (length_parseIPv6Address hnet) hi hlen).trans (hbits i hi)⟩
  · rintro ⟨p, hpath, rfl, hp⟩
    unfold path6 at hpath
    split at hpath
    · rename_i htype
      obtain ⟨⟨masked, len⟩, hparse, hpair⟩ := Option.map_eq_some_iff.mp hpath
      obtain ⟨hlen, addr, lenText, net, hvalue, hlenText, hnet, hpref, rfl⟩ :=
        parseIPv6CIDR_eq_some.1 hparse
      rw [Prod.mk.injEq] at hpair
      obtain ⟨rfl, -⟩ := hpair
      obtain ⟨-, hbits⟩ := map_range_prefix.1 hp
      rw [length_map, length_range]
      exact ⟨htype, hlen, addr, lenText, net, hvalue, hlenText, hnet, hpref, fun i hi =>
        (bit6_mask (length_parseIPv6Address hnet) hi hlen).symm.trans (hbits i hi)⟩
    · cases hpath

/-- The search in a trie is the search among the rules that cover the address, for
either family. -/
theorem longestCover_iff {address : Address}
    {path : Rule → Option (List Bool × RouteAction)} {bits : List Bool}
    (haction : ∀ rule p b, path rule = some (p, b) → b = rule.action)
    (hcovers : ∀ (rule : Rule) len, rule.Covers platform len address ↔
      ∃ p, path rule = some (p, rule.action) ∧ p.length = len ∧ p <+: bits) :
    LongestCover platform rules address a ↔ LongestMatch (rules.filterMap path) bits a := by
  rw [longestMatch_filterMap]
  constructor
  · rintro ⟨before, rule, after, len, rfl, rfl, hrule, hbefore, hafter⟩
    obtain ⟨p, hpath, rfl, hp⟩ := (hcovers rule len).mp hrule
    refine ⟨before, rule, after, p, rfl, hpath, hp, ?_, ?_⟩
    · intro r hr q b hq hqp
      rw [haction r q b hq] at hq
      exact hbefore r hr _ ((hcovers r _).mpr ⟨q, hq, rfl, hqp⟩)
    · intro r hr q b hq hqp
      rw [haction r q b hq] at hq
      exact hafter r hr _ ((hcovers r _).mpr ⟨q, hq, rfl, hqp⟩)
  · rintro ⟨before, rule, after, p, rfl, hpath, hp, hbefore, hafter⟩
    have hown := haction rule p a hpath
    subst hown
    refine ⟨before, rule, after, p.length, rfl, rfl, (hcovers rule _).mpr ⟨p, hpath, rfl, hp⟩,
      ?_, ?_⟩
    · intro r hr l hl
      obtain ⟨q, hq, rfl, hqp⟩ := (hcovers r l).mp hl
      exact hbefore r hr q _ hq hqp
    · intro r hr l hl
      obtain ⟨q, hq, rfl, hqp⟩ := (hcovers r l).mp hl
      exact hafter r hr q _ hq hqp

theorem noCover_iff {address : Address}
    {path : Rule → Option (List Bool × RouteAction)} {bits : List Bool}
    (haction : ∀ rule p b, path rule = some (p, b) → b = rule.action)
    (hcovers : ∀ (rule : Rule) len, rule.Covers platform len address ↔
      ∃ p, path rule = some (p, rule.action) ∧ p.length = len ∧ p <+: bits) :
    (∀ r ∈ rules, ∀ len, ¬ r.Covers platform len address) ↔
      ∀ r ∈ rules.filterMap path, ¬ r.1 <+: bits := by
  constructor
  · rintro h ⟨p, b⟩ hmem hp
    obtain ⟨rule, hrule, hpath⟩ := mem_filterMap.mp hmem
    rw [haction rule p b hpath] at hpath
    exact h rule hrule _ ((hcovers rule _).mpr ⟨p, hpath, rfl, hp⟩)
  · intro h rule hrule len hcover
    obtain ⟨p, hpath, -, hp⟩ := (hcovers rule len).mp hcover
    exact h _ (mem_filterMap.mpr ⟨rule, hrule, hpath⟩) hp

/-- **Address routing.** -/
theorem matchIP_longest_prefix (platform : Platform) (descriptor : Descriptor) (ip : Text)
    (address : Address) (hip : addressOf platform ip = some address) :
    let router := DomainRouter.loadRoutingConfiguration platform (some descriptor)
    let rules := descriptor.inserted platform
    (∀ a, router.matchIP platform ip = some a ↔ LongestCover platform rules address a) ∧
    (router.matchIP platform ip = none ↔ ∀ r ∈ rules, ∀ len, ¬ r.Covers platform len address) := by
  intro router rules
  have hloads : Loads platform router rules := load_loads descriptor
  have hne : ip ≠ [] := by
    intro he
    rw [addressOf, if_pos he] at hip
    cases hip
  rw [addressOf, if_neg hne] at hip
  rw [DomainRouter.matchIP, if_neg hne]
  split at hip
  · rename_i hcolon
    obtain ⟨bytes, hbytes, rfl⟩ := Option.map_eq_some_iff.mp hip
    have haction : ∀ rule p b, path6 platform rule = some (p, b) → b = rule.action := by
      intro rule p b hpath
      unfold path6 at hpath
      split at hpath
      · obtain ⟨net, -, hpair⟩ := Option.map_eq_some_iff.mp hpath
        exact (congrArg Prod.snd hpair).symm
      · cases hpath
    have hwalk : router.ipv6Trie.lookup (bit6 bytes) 128 =
        deepest (stored (rules.filterMap (path6 platform)))
          ((List.range 128).map (bit6 bytes)) := by
      rw [hloads.ipv6]
      exact CIDRTrie.branching.walk_stored _ _
    rw [if_pos hcolon, hbytes, Option.bind_some, hwalk]
    exact ⟨fun a => by
        rw [longestCover_iff haction fun rule len => path6_covers, deepest_stored_eq_some],
      by rw [noCover_iff haction fun rule len => path6_covers, deepest_stored_eq_none]⟩
  · rename_i hcolon
    obtain ⟨address, haddress, rfl⟩ := Option.map_eq_some_iff.mp hip
    have haction : ∀ rule p b, path4 rule = some (p, b) → b = rule.action := by
      intro rule p b hpath
      unfold path4 at hpath
      split at hpath
      · obtain ⟨net, -, hpair⟩ := Option.map_eq_some_iff.mp hpath
        exact (congrArg Prod.snd hpair).symm
      · cases hpath
    have hwalk : router.ipv4Trie.lookup (bit4 address) 32 =
        deepest (stored (rules.filterMap path4)) ((List.range 32).map (bit4 address)) := by
      rw [hloads.ipv4]
      exact CIDRTrie.branching.walk_stored _ _
    rw [if_neg hcolon, haddress, Option.bind_some, hwalk]
    exact ⟨fun a => by
        rw [longestCover_iff haction fun rule len => path4_covers, deepest_stored_eq_some],
      by rw [noCover_iff haction fun rule len => path4_covers, deepest_stored_eq_none]⟩

/-- A prefix inside a prefix, and the inner one again with another action. -/
def nestedDescriptor : Descriptor where
  bypassRules := some [some ⟨.number 0, "1.0.0.3/8".toList⟩, some ⟨.number 0, "1.2.0.0/16".toList⟩]
  rules := some [some
    { action := "reject"
      configId := []
      ipRules := some [some ⟨.number 0, "1.2.9.9/16".toList⟩,
        some ⟨.number 0, "1.2.3.0/24".toList⟩] }]

theorem matchIP_of_one_address :
    addressOf asciiPlatform "1.2.0.2".toList = some (.v4 16908290) ∧
    (DomainRouter.loadRoutingConfiguration asciiPlatform (some nestedDescriptor)).matchIP
      asciiPlatform
      "1.2.0.2".toList = some .reject ∧
    LongestCover asciiPlatform (nestedDescriptor.inserted asciiPlatform)
    (.v4 16908290) .reject := by
  have hip : addressOf asciiPlatform "1.2.0.2".toList = some (.v4 16908290) := by decide
  have hmatch : (DomainRouter.loadRoutingConfiguration asciiPlatform
      (some nestedDescriptor)).matchIP
      asciiPlatform "1.2.0.2".toList = some .reject := by decide
  have hlongest := matchIP_longest_prefix asciiPlatform nestedDescriptor _ _ hip
  exact ⟨hip, hmatch, (hlongest.1 _).mp hmatch⟩

end Addresses

end Anywhere.Router
