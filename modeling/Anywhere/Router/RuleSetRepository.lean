import Anywhere.Router.DomainRouter

/-!
# Anywhere — `RuleSetRepository`

The rule sets, their assignments, and the routing descriptor compiled from them.
The bundled database (`RulesDatabase`) and the stored configurations are parameters;
what the preferences hold is part of the state. The descriptor is given as the router
reads it back.
-/

namespace Anywhere.Router

open Lib List

-- ----
-- Rules

def DomainRuleType.rawValue : DomainRuleType → Int
  | .ipCidr => 0
  | .ipCidr6 => 1
  | .domainSuffix => 2
  | .domainKeyword => 3

@[simp] theorem DomainRuleType.fromRawValue_rawValue (type : DomainRuleType) :
    fromRawValue type.rawValue = some type := by
  cases type <;> decide

structure DomainRule where
  type : DomainRuleType
  value : Text
  deriving DecidableEq

/-- A row of the table `rules`. -/
structure RuleRow where
  source : Text
  type : Int
  value : Option Text

/-- `RulesDatabase`: the rows, and `supportedServices` of the metadata; both are empty
where the database cannot be opened. -/
structure RulesDatabase where
  rows : List RuleRow := []
  supportedServices : List Text := []

def RulesDatabase.loadRules (db : RulesDatabase) (source : Text) : List DomainRule :=
  (db.rows.filter (·.source == source)).filterMap fun row =>
    match DomainRuleType.fromRawValue row.type, row.value with
    | some type, some value => some ⟨type, value⟩
    | _, _ => none

-- ----
-- The repository

structure RuleSet where
  id : Text
  name : Text
  assignedConfigurationId : Option Text := none
  isCustom : Bool := false

structure CustomRuleSet where
  id : Text
  name : Text
  rules : List DomainRule := []
  subscriptionUrl : Option Text := none
  deriving DecidableEq

/-- `RuleSetRepository`; the last two fields are preferences: the string set of the
assignments and the country of the bypass. -/
structure RuleSetRepository where
  ruleSets : List RuleSet := []
  customRuleSets : List CustomRuleSet := []
  ruleSetAssignments : List Text := []
  bypassCountryCode : Text := []

abbrev Assignments := AList (fun _ : Text => Text)

def direct : Text := ['D', 'i', 'r', 'e', 'c', 't']

def adBlock : Text := ['A', 'D', 'B', 'l', 'o', 'c', 'k']

def assignedDirect : Text := ['D', 'I', 'R', 'E', 'C', 'T']

def assignedReject : Text := ['R', 'E', 'J', 'E', 'C', 'T']

def defaultAssignments (name : Text) : Option Text :=
  if name = direct then some assignedDirect else none

namespace RuleSetRepository

variable (db : RulesDatabase)

def loadAssignments (repository : RuleSetRepository) : Assignments :=
  repository.ruleSetAssignments.foldl (fun result entry =>
    match Text.splitLimit '=' 2 entry with
    | [key, value] => result.insert key value
    | _ => result) ∅

def saveAssignmentMap (repository : RuleSetRepository) (map : Assignments) : RuleSetRepository :=
  { repository with
    ruleSetAssignments := (map.entries.map fun entry => entry.1 ++ '=' :: entry.2).dedup }

def saveAssignments (repository : RuleSetRepository) : RuleSetRepository :=
  repository.saveAssignmentMap (repository.ruleSets.foldl (fun map ruleSet =>
    match ruleSet.assignedConfigurationId with
    | some assignedId => map.insert ruleSet.id assignedId
    | none => map) ∅)

def builtInNames : List Text := direct :: db.supportedServices ++ [adBlock]

/-- A loop over the built-in names that ends at the first `ADBlock`. -/
def rebuildRuleSets (repository : RuleSetRepository) : RuleSetRepository :=
  let assignments := repository.loadAssignments
  let builtIn := ((builtInNames db).takeWhile (· ≠ adBlock)).map fun name =>
    { id := name, name := name,
      assignedConfigurationId := (assignments.lookup name).or (defaultAssignments name) }
  let custom := repository.customRuleSets.map fun custom =>
    { id := custom.id, name := custom.name,
      assignedConfigurationId := assignments.lookup custom.id, isCustom := true }
  let last : RuleSet :=
    { id := adBlock, name := adBlock, assignedConfigurationId := assignments.lookup adBlock }
  { repository with ruleSets := builtIn ++ custom ++ [last] }

def updateAssignment (repository : RuleSetRepository) (id : Text) (configurationId : Option Text) :
    RuleSetRepository :=
  saveAssignments
    { repository with
      ruleSets := repository.ruleSets.map fun ruleSet =>
        if ruleSet.id = id then { ruleSet with assignedConfigurationId := configurationId }
        else ruleSet }

def resetAssignments (repository : RuleSetRepository) : RuleSetRepository :=
  saveAssignments
    { repository with
      ruleSets := repository.ruleSets.map fun ruleSet =>
        if ruleSet.id = direct ∨ ruleSet.id = adBlock then ruleSet
        else { ruleSet with assignedConfigurationId := none } }

def orphaned (available : List Text) (ruleSet : RuleSet) : Bool :=
  match ruleSet.assignedConfigurationId with
  | none => false
  | some assignedId =>
    assignedId ≠ assignedDirect && assignedId ≠ assignedReject && !available.contains assignedId

def clearOrphanedAssignments (repository : RuleSetRepository) (available : List Text) :
    List Text × RuleSetRepository :=
  let affected := (repository.ruleSets.filter (orphaned available)).map RuleSet.name
  let cleared :=
    { repository with
      ruleSets := repository.ruleSets.map fun ruleSet =>
        if orphaned available ruleSet then { ruleSet with assignedConfigurationId := none }
        else ruleSet }
  (affected, if affected ≠ [] then cleared.saveAssignments else cleared)

/-- `addCustomRuleSet`, with the new set's random id. -/
def addCustomRuleSet (repository : RuleSetRepository) (id name : Text) (rules : List DomainRule)
    (subscriptionUrl : Option Text) : RuleSetRepository :=
  rebuildRuleSets db
    { repository with
      customRuleSets := repository.customRuleSets ++ [⟨id, name, rules, subscriptionUrl⟩] }

def removeCustomRuleSet (repository : RuleSetRepository) (id : Text) : RuleSetRepository :=
  let removed :=
    { repository with customRuleSets := repository.customRuleSets.filter (·.id ≠ id) }
  let assignments := removed.loadAssignments
  rebuildRuleSets db
    (if (assignments.lookup id).isSome then removed.saveAssignmentMap (assignments.erase id)
     else removed)

/-- The rest of `updateCustomRuleSet` and `refreshCustomRuleSet`. -/
def setCustomRuleSets (repository : RuleSetRepository) (updated : List CustomRuleSet) :
    RuleSetRepository :=
  if updated = repository.customRuleSets then repository
  else rebuildRuleSets db { repository with customRuleSets := updated }

def updateCustomRuleSet (repository : RuleSetRepository) (id : Text) (name : Option Text)
    (rules : Option (List DomainRule)) : RuleSetRepository :=
  repository.setCustomRuleSets db <| repository.customRuleSets.map fun custom =>
    if custom.id = id then
      { custom with name := name.getD custom.name, rules := rules.getD custom.rules }
    else custom

/-- `refreshCustomRuleSet`, with the name and the rules parsed from the answer. -/
def refreshCustomRuleSet (repository : RuleSetRepository) (id name : Text)
    (rules : List DomainRule) : RuleSetRepository :=
  repository.setCustomRuleSets db <| repository.customRuleSets.map fun custom =>
    if custom.id = id then
      { custom with name := if name ≠ [] then name else custom.name, rules := rules }
    else custom

/-- The rules of one custom rule set are replaced; the rule sets are not rebuilt. -/
def setRules (repository : RuleSetRepository) (id : Text)
    (f : List DomainRule → List DomainRule) : RuleSetRepository :=
  { repository with
    customRuleSets := repository.customRuleSets.map fun custom =>
      if custom.id = id then { custom with rules := f custom.rules } else custom }

def addRule (repository : RuleSetRepository) (id : Text) (rule : DomainRule) :
    RuleSetRepository :=
  repository.setRules id (· ++ [rule])

def addRules (repository : RuleSetRepository) (id : Text) (rules : List DomainRule) :
    RuleSetRepository :=
  if rules = [] then repository else repository.setRules id (· ++ rules)

def removeRules (repository : RuleSetRepository) (id : Text) (indices : List Int) :
    RuleSetRepository :=
  if indices = [] then repository
  else
    repository.setRules id fun rules =>
      (indices.mergeSort fun i j => decide (i ≥ j)).foldl
        (fun (remaining : List DomainRule) (i : Int) =>
          if 0 ≤ i ∧ i < (remaining.length : Int) then remaining.eraseIdx i.toNat else remaining)
        rules

def customRuleSet (repository : RuleSetRepository) (id : Text) : Option CustomRuleSet :=
  repository.customRuleSets.find? (·.id == id)

def loadRules (repository : RuleSetRepository) (ruleSet : RuleSet) : List DomainRule :=
  if ruleSet.isCustom then ((repository.customRuleSet ruleSet.id).map (·.rules)).getD []
  else db.loadRules ruleSet.name

-- ----
-- The order of the rule sets

/-- What is done to a repository; the country of the bypass is set elsewhere. -/
inductive Operation where
  | updateAssignment (id : Text) (configurationId : Option Text)
  | resetAssignments
  | clearOrphanedAssignments (available : List Text)
  | addCustomRuleSet (id name : Text) (rules : List DomainRule) (subscriptionUrl : Option Text)
  | removeCustomRuleSet (id : Text)
  | updateCustomRuleSet (id : Text) (name : Option Text) (rules : Option (List DomainRule))
  | refreshCustomRuleSet (id name : Text) (rules : List DomainRule)
  | addRule (id : Text) (rule : DomainRule)
  | addRules (id : Text) (rules : List DomainRule)
  | removeRules (id : Text) (indices : List Int)
  | setBypassCountryCode (code : Text)

def perform (repository : RuleSetRepository) : Operation → RuleSetRepository
  | .updateAssignment id configurationId => repository.updateAssignment id configurationId
  | .resetAssignments => repository.resetAssignments
  | .clearOrphanedAssignments available => (repository.clearOrphanedAssignments available).2
  | .addCustomRuleSet id name rules url => repository.addCustomRuleSet db id name rules url
  | .removeCustomRuleSet id => repository.removeCustomRuleSet db id
  | .updateCustomRuleSet id name rules => repository.updateCustomRuleSet db id name rules
  | .refreshCustomRuleSet id name rules => repository.refreshCustomRuleSet db id name rules
  | .addRule id rule => repository.addRule id rule
  | .addRules id rules => repository.addRules id rules
  | .removeRules id indices => repository.removeRules id indices
  | .setBypassCountryCode code => { repository with bypassCountryCode := code }

/-- The states after any operations on a repository that starts with any preferences. -/
inductive Reachable : RuleSetRepository → Prop
  | init (customRuleSets : List CustomRuleSet) (ruleSetAssignments : List Text)
      (bypassCountryCode : Text) :
      Reachable (rebuildRuleSets db ⟨[], customRuleSets, ruleSetAssignments, bypassCountryCode⟩)
  | perform {repository : RuleSetRepository} (operation : Operation) :
      Reachable repository → Reachable (repository.perform db operation)

def identity (ruleSet : RuleSet) : Text × Text × Bool :=
  (ruleSet.id, ruleSet.name, ruleSet.isCustom)

def services : List Text := db.supportedServices.takeWhile (· ≠ adBlock)

/-- `Direct`, then the services, then the custom rule sets as they are listed, then `ADBlock`. -/
def InPriorityOrder (repository : RuleSetRepository) : Prop :=
  repository.ruleSets.map identity =
    (direct, direct, false) :: (services db).map (fun name => (name, name, false)) ++
      repository.customRuleSets.map (fun custom => (custom.id, custom.name, true)) ++
      [(adBlock, adBlock, false)]

variable {db} {repository : RuleSetRepository}

theorem takeWhile_builtInNames :
    (builtInNames db).takeWhile (· ≠ adBlock) = direct :: services db := by
  have hdirect : direct ≠ adBlock := by decide
  rw [builtInNames, cons_append, takeWhile_cons_of_pos (by simpa using hdirect), services]
  congr 1
  induction db.supportedServices with
  | nil => simp
  | cons name names ih =>
    by_cases hname : name = adBlock
    · simp [hname]
    · simpa [hname] using ih

theorem inPriorityOrder_rebuild (repository : RuleSetRepository) :
    InPriorityOrder db (repository.rebuildRuleSets db) := by
  simp only [InPriorityOrder, rebuildRuleSets, takeWhile_builtInNames, map_append,
    map_map, map_cons, map_nil]
  rfl

/-- The order is kept where neither the rule sets nor the custom ones are others. -/
theorem InPriorityOrder.congr (h : InPriorityOrder db repository) {after : RuleSetRepository}
    (hsets : after.ruleSets.map identity = repository.ruleSets.map identity)
    (hcustom : after.customRuleSets.map (fun custom => (custom.id, custom.name, true)) =
      repository.customRuleSets.map fun custom => (custom.id, custom.name, true)) :
    InPriorityOrder db after := by
  rw [InPriorityOrder, hsets, hcustom]
  exact h

theorem map_identity (p : RuleSet → Prop) [DecidablePred p] (assigned : Option Text)
    (ruleSets : List RuleSet) :
    (ruleSets.map fun ruleSet =>
      if p ruleSet then { ruleSet with assignedConfigurationId := assigned }
      else ruleSet).map identity = ruleSets.map identity := by
  rw [map_map]
  refine map_congr_left fun ruleSet _ => ?_
  by_cases hp : p ruleSet <;> simp [identity, hp]

theorem InPriorityOrder.setRules (h : InPriorityOrder db repository) (id : Text)
    (f : List DomainRule → List DomainRule) :
    InPriorityOrder db (repository.setRules id f) := by
  refine h.congr rfl ?_
  rw [RuleSetRepository.setRules, map_map]
  refine map_congr_left fun custom _ => ?_
  by_cases hid : custom.id = id <;> simp [hid]

theorem InPriorityOrder.setCustomRuleSets (h : InPriorityOrder db repository)
    (updated : List CustomRuleSet) :
    InPriorityOrder db (repository.setCustomRuleSets db updated) := by
  rw [RuleSetRepository.setCustomRuleSets]
  split
  · exact h
  · exact inPriorityOrder_rebuild _

theorem InPriorityOrder.perform (h : InPriorityOrder db repository) (operation : Operation) :
    InPriorityOrder db (repository.perform db operation) := by
  cases operation with
  | updateAssignment id configurationId =>
    exact h.congr (map_identity (fun ruleSet => ruleSet.id = id) configurationId _) rfl
  | resetAssignments =>
    refine h.congr ?_ rfl
    refine Eq.trans ?_ (map_identity (fun ruleSet => ¬ (ruleSet.id = direct ∨ ruleSet.id = adBlock))
      none _)
    simp only [RuleSetRepository.perform, RuleSetRepository.resetAssignments, saveAssignments,
      saveAssignmentMap, ite_not]
  | clearOrphanedAssignments available =>
    have hcleared := map_identity (fun ruleSet => orphaned available ruleSet = true) none
      repository.ruleSets
    simp only [RuleSetRepository.perform, RuleSetRepository.clearOrphanedAssignments]
    split
    · exact h.congr hcleared rfl
    · exact h.congr hcleared rfl
  | addCustomRuleSet id name rules url => exact inPriorityOrder_rebuild _
  | removeCustomRuleSet id => exact inPriorityOrder_rebuild _
  | updateCustomRuleSet id name rules => exact h.setCustomRuleSets _
  | refreshCustomRuleSet id name rules => exact h.setCustomRuleSets _
  | addRule id rule => exact h.setRules id _
  | addRules id rules =>
    simp only [RuleSetRepository.perform, RuleSetRepository.addRules]
    split
    · exact h
    · exact h.setRules id _
  | removeRules id indices =>
    simp only [RuleSetRepository.perform, RuleSetRepository.removeRules]
    split
    · exact h
    · exact h.setRules id _
  | setBypassCountryCode code => exact h

/-- Whatever is done to a repository, its rule sets stand in the order of their priority. -/
theorem Reachable.inPriorityOrder (h : Reachable db repository) :
    InPriorityOrder db repository := by
  induction h with
  | init => exact inPriorityOrder_rebuild _
  | perform operation _ ih => exact ih.perform operation

end RuleSetRepository

end Anywhere.Router
