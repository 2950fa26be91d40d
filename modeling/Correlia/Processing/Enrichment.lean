import Correlia.Config.Topology

/-!
# Processing.Enrichment — topology tags (`app/processing/enrichment.py`)
-/

namespace Correlia

open Lib

structure EnrichmentDiagnostic where
  ruleId : String
  ruleName : String
  matchSource : String
  tagsAdded : Items String String
  tagsOverridden : List (String × String × String)
  conflicts : List (String × String × String)

structure EnrichmentResult where
  event : EventData
  diagnostics : List EnrichmentDiagnostic

/-- The exception of `match.group`. -/
inductive GroupException
  | indexError
deriving DecidableEq, Repr

/-- `match.group(i)`. -/
def Match.lookup {n : ℕ} (m : Match n) (i : ℤ) : Except GroupException (Option String) :=
  if i = 0 then .ok (some m.whole)
  else if h : 1 ≤ i ∧ i ≤ n then .ok (m.group ⟨i.toNat - 1, by omega⟩)
  else .error .indexError

/-! ### `_apply_rule` -/

/-- The four containers `_apply_rule` fills. -/
structure AppliedTags where
  newTags : Items String String
  tagsAdded : Items String String := .empty
  tagsOverridden : List (String × String × String) := []
  conflicts : List (String × String × String) := []

namespace AppliedTags

def overridden (t : AppliedTags) (key old value : String) : AppliedTags :=
  { t with
    tagsOverridden := t.tagsOverridden ++ [(key, old, value)]
    conflicts := t.conflicts ++ [(key, old, value)] }

def setTag (t : AppliedTags) (key value : String) : AppliedTags :=
  { t with newTags := t.newTags.set key value }

def addTag (t : AppliedTags) (key value : String) : AppliedTags :=
  { t with tagsAdded := t.tagsAdded.set key value }

/-- `if key in tags_added: tags_added[key] = value`. -/
def readd (t : AppliedTags) (key value : String) : AppliedTags :=
  if (t.tagsAdded.get key).isSome then t.addTag key value else t

/-- The loop over the literal tags. -/
def literal (t : AppliedTags) (e : String × String) : AppliedTags :=
  match t.newTags.get e.1 with
  | some old => (if old ≠ e.2 then t.overridden e.1 old e.2 else t).setTag e.1 e.2
  | none => (t.addTag e.1 e.2).setTag e.1 e.2

/-- The rest of the loop over the capture groups, for a value that is there. -/
def captured (t : AppliedTags) (e : String × String) : AppliedTags :=
  match t.newTags.get e.1 with
  | some old =>
    (if old ≠ e.2 then (t.overridden e.1 old e.2).readd e.1 e.2 else t).setTag e.1 e.2
  | none => (t.addTag e.1 e.2).setTag e.1 e.2

/-- The loop over the capture groups. -/
def derive {n : ℕ} (m : Match n) (t : AppliedTags) (e : String × ℤ) :
    Except GroupException AppliedTags := do
  match ← m.lookup e.2 with
  | none => return t
  | some value => if value = "" then return t else return t.captured (e.1, value)

end AppliedTags

/-- The end of `_apply_rule`. -/
def enrichmentResult (event : EventData) (ruleId ruleName matchSource : String) (t : AppliedTags) :
    EnrichmentResult where
  event := { event with tags := t.newTags }
  diagnostics := [⟨ruleId, ruleName, matchSource, t.tagsAdded, t.tagsOverridden, t.conflicts⟩]

/-- `_apply_rule` with a hostname rule and its match. -/
def applyHostnameRule (event : EventData) (rule : CompiledHostnameRule) (m : Match rule.pattern.groups) :
    Except GroupException EnrichmentResult := do
  let t := rule.tags.entries.foldl AppliedTags.literal { newTags := event.tags }
  let t ← rule.tagCaptureGroups.entries.foldlM (AppliedTags.derive m) t
  return enrichmentResult event rule.id rule.name "hostname" t

/-- `_apply_rule` with a subnet rule. -/
def applySubnetRule (event : EventData) (rule : CompiledSubnetRule) : EnrichmentResult :=
  enrichmentResult event rule.id rule.name "subnet"
    (rule.tags.entries.foldl AppliedTags.literal { newTags := event.tags })

/-! ### `StaticTopologyEnricher.enrich` -/

/-- The first hostname rule that matches, with its match. -/
def firstHostnameMatch (host : String) :
    List CompiledHostnameRule → Option ((rule : CompiledHostnameRule) × Match rule.pattern.groups)
  | [] => none
  | rule :: rules =>
    match rule.pattern.match host with
    | some m => some ⟨rule, m⟩
    | none => firstHostnameMatch host rules

/-- The first subnet rule whose network holds the address. -/
def firstSubnet (addr : IPAddress) : List CompiledSubnetRule → Option CompiledSubnetRule
  | [] => none
  | rule :: rules =>
    if addr.version ≠ rule.network.version then firstSubnet addr rules
    else if rule.network.contains addr then some rule
    else firstSubnet addr rules

def enrich (config : CompiledTopologyConfig) (event : EventData) :
    Except GroupException EnrichmentResult :=
  match firstHostnameMatch event.host config.hostnameRules with
  | some ⟨rule, m⟩ => applyHostnameRule event rule m
  | none =>
    match event.ipAddress with
    | none => .ok ⟨event, []⟩
    | some text =>
      match ipAddress text with
      | none => .ok ⟨event, []⟩
      | some addr =>
        match firstSubnet addr config.subnetRules with
        | some rule => .ok (applySubnetRule event rule)
        | none => .ok ⟨event, []⟩

end Correlia
