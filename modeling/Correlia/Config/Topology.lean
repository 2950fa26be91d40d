import Correlia.Domain.Events
import Correlia.Lib.IpNetwork

/-!
# Config.Topology — loading the topology file (`app/config/topology.py`)

The YAML document is given as the values of its fields, and `re.compile` as a function that returns a
pattern or refuses it.
-/

namespace Correlia

open Lib

/-! ### Patterns -/

/-- A match of a pattern with `n` groups: the whole text, and what each group holds if it took part. -/
structure Match (n : ℕ) where
  whole : String
  group : Fin n → Option String

structure Pattern where
  groups : ℕ
  «match» : String → Option (Match groups)

/-- `re.compile`; `none` is `re.error`. -/
abbrev PatternCompiler := String → Option Pattern

/-! ### The document -/

/-- `key.startswith("topology.")`. -/
def isTopologyKey (key : String) : Bool := decide ("topology.".toList <+: key.toList)

/-- `EventTags`, then `_tags_must_start_with_topology`. -/
def topologyTagsErrors (tags : Items String String) : List FieldError :=
  thenErrors (eventTagsErrors tags)
    (match tags.entries.find? fun e => !isTopologyKey e.1 with
    | none => []
    | some e => [⟨"tags", .valueError ("tag key must start with 'topology.': " ++ e.1)⟩])

/-- The two checks of one capture group. -/
def captureGroupError (e : String × ℤ) : Option String :=
  if !isTopologyKey e.1 then some ("capture group key must start with 'topology.': " ++ e.1)
  else if e.2 < 1 then
    some ("capture group index for '" ++ e.1 ++ "' must be >= 1, got " ++ toString e.2)
  else none

/-- The field type of `tag_capture_groups`, then `_capture_groups_must_be_valid`. -/
def captureGroupsErrors (groups : Items String ℤ) : List FieldError :=
  thenErrors
    (thenErrors (itemErrors (fun e => eventTagKeyErrors "tag_capture_groups" e.1) groups.entries)
      (check (decide (groups.entries.length ≤ eventTagMaxEntries)) "tag_capture_groups" .tooLong))
    (match groups.entries.findSome? captureGroupError with
    | none => []
    | some message => [⟨"tag_capture_groups", .valueError message⟩])

structure HostnameTopologyRule where
  id : String
  name : String
  hostnamePattern : String
  tags : Items String String
  tagCaptureGroups : Items String ℤ := ⟨[], List.nodup_nil⟩

def HostnameTopologyRule.errors (r : HostnameTopologyRule) : List FieldError :=
  topologyTagsErrors r.tags ++ captureGroupsErrors r.tagCaptureGroups

structure SubnetTopologyRule where
  id : String
  name : String
  subnet : String
  tags : Items String String

def SubnetTopologyRule.errors (r : SubnetTopologyRule) : List FieldError := topologyTagsErrors r.tags

/-! ### Overlapping subnets -/

/-- A rule with its network. -/
def parseSubnet (r : SubnetTopologyRule) : Except String (SubnetTopologyRule × IPNetwork) :=
  orThrow ("Invalid CIDR in subnet rule '" ++ r.id ++ "': " ++ r.subnet)
    ((ipNetwork r.subnet).map fun network => (r, network))

def conflicting (a b : SubnetTopologyRule × IPNetwork) : Bool :=
  decide (a.2.version = b.2.version) && a.2.overlaps b.2 && !a.1.tags.eq b.1.tags

/-- The first pair of rules that conflict, in the order of the two loops. -/
def firstConflict : List (SubnetTopologyRule × IPNetwork) →
    Option ((SubnetTopologyRule × IPNetwork) × (SubnetTopologyRule × IPNetwork))
  | [] => none
  | a :: rest =>
    match rest.find? (conflicting a) with
    | some b => some (a, b)
    | none => firstConflict rest

/-- `_reject_overlapping_conflicting_subnets`. -/
def rejectOverlapping (rules : List SubnetTopologyRule) : Except String Unit := do
  let subnets ← rules.mapM parseSubnet
  match firstConflict subnets with
  | none => .ok ()
  | some (a, b) =>
    .error ("Overlapping subnet rules '" ++ a.1.id ++ "' (" ++ a.2.text ++ ") and '" ++ b.1.id ++
      "' (" ++ b.2.text ++ ") assign different tags")

structure TopologyFields where
  hostnameRules : List HostnameTopologyRule := []
  subnetRules : List SubnetTopologyRule := []

def TopologyFields.errors (c : TopologyFields) : List FieldError :=
  thenErrors
    (itemErrors HostnameTopologyRule.errors c.hostnameRules ++
      itemErrors SubnetTopologyRule.errors c.subnetRules)
    (match rejectOverlapping c.subnetRules with
    | .ok () => []
    | .error message => [⟨"", .valueError message⟩])

abbrev TopologyConfig := Checked TopologyFields.errors

/-! ### `load_topology_config` -/

structure CompiledHostnameRule where
  id : String
  name : String
  pattern : Pattern
  tags : Items String String
  tagCaptureGroups : Items String ℤ

structure CompiledSubnetRule where
  id : String
  name : String
  network : IPNetwork
  tags : Items String String

structure CompiledTopologyConfig where
  hostnameRules : List CompiledHostnameRule
  subnetRules : List CompiledSubnetRule

/-- One turn of the loop over the hostname rules. -/
def compileHostnameRule (compile : PatternCompiler) (r : HostnameTopologyRule) :
    Except InputError CompiledHostnameRule := do
  let pattern ← orThrow
    (.value ("Invalid regex in hostname rule '" ++ r.id ++ "': " ++ r.hostnamePattern))
    (compile r.hostnamePattern)
  match r.tagCaptureGroups.entries.find? fun e => decide ((pattern.groups : ℤ) < e.2) with
  | none => .ok ⟨r.id, r.name, pattern, r.tags, r.tagCaptureGroups⟩
  | some e =>
    .error (.value ("capture group index for '" ++ e.1 ++ "' in hostname rule '" ++ r.id ++ "' is " ++
      toString e.2 ++ " but pattern '" ++ r.hostnamePattern ++ "' only has " ++
      natText pattern.groups ++ " group(s)"))

/-- One turn of the loop over the subnet rules. -/
def compileSubnetRule (r : SubnetTopologyRule) : Except InputError CompiledSubnetRule := do
  let network ← orThrow
    (.value ("'" ++ r.subnet ++ "' does not appear to be an IPv4 or IPv6 network"))
    (ipNetwork r.subnet)
  return ⟨r.id, r.name, network, r.tags⟩

/-- The two loops of `load_topology_config`. -/
def compileTopologyConfig (compile : PatternCompiler) (config : TopologyConfig) :
    Except InputError CompiledTopologyConfig := do
  let hostnameRules ← config.val.hostnameRules.mapM (compileHostnameRule compile)
  let subnetRules ← config.val.subnetRules.mapM compileSubnetRule
  return ⟨hostnameRules, subnetRules⟩

/-- `load_topology_config`; an empty document is `none`. -/
def loadTopologyConfig (compile : PatternCompiler) (data : Option TopologyFields) :
    Except InputError CompiledTopologyConfig := do
  let config ← liftError (.validation "TopologyConfig")
    (modelValidate TopologyFields.errors (data.getD {}))
  compileTopologyConfig compile config

/-! ### What passes -/

section

variable {tags : Items String String} {groups : Items String ℤ}

theorem isTopologyKey_of_topologyTagsErrors (h : topologyTagsErrors tags = []) :
    ∀ e ∈ tags.entries, isTopologyKey e.1 = true := by
  have hfind := (thenErrors_eq_nil.mp h).2
  split at hfind
  · rename_i hnone
    intro e he
    simpa using List.find?_eq_none.mp hnone e he
  · cases hfind

theorem captureGroupError_eq_none {e : String × ℤ} :
    captureGroupError e = none ↔ isTopologyKey e.1 = true ∧ 1 ≤ e.2 := by
  unfold captureGroupError
  cases isTopologyKey e.1
  · simp
  · by_cases h : e.2 < 1
    · simp only [Bool.not_true, Bool.false_eq_true, if_false, if_pos h, reduceCtorEq, true_and,
        false_iff, not_le]
      exact h
    · simp only [Bool.not_true, Bool.false_eq_true, if_false, if_neg h, true_and, true_iff]
      exact not_lt.mp h

theorem captureGroup_of_errors (h : captureGroupsErrors groups = []) :
    ∀ e ∈ groups.entries, isTopologyKey e.1 = true ∧ 1 ≤ e.2 := by
  have hfind := (thenErrors_eq_nil.mp h).2
  split at hfind
  · rename_i hnone
    exact fun e he => captureGroupError_eq_none.mp (List.findSome?_eq_none_iff.mp hnone e he)
  · cases hfind

/-- A hostname rule compiles when its pattern does and has the groups the rule asks for. -/
theorem compileHostnameRule_eq_ok {compile : PatternCompiler} {r : HostnameTopologyRule}
    {c : CompiledHostnameRule} :
    compileHostnameRule compile r = .ok c ↔ ∃ pattern, compile r.hostnamePattern = some pattern ∧
      (∀ e ∈ r.tagCaptureGroups.entries, e.2 ≤ pattern.groups) ∧
      c = ⟨r.id, r.name, pattern, r.tags, r.tagCaptureGroups⟩ := by
  unfold compileHostnameRule
  rw [bind_eq_ok]
  refine exists_congr fun pattern => ?_
  rw [orThrow_eq_ok]
  refine and_congr_right' ?_
  split
  · rename_i hnone
    have hgroups : ∀ e ∈ r.tagCaptureGroups.entries, e.2 ≤ pattern.groups := by
      intro e he
      simpa using List.find?_eq_none.mp hnone e he
    rw [Except.ok.injEq]
    exact ⟨fun h => ⟨hgroups, h.symm⟩, fun h => h.2.symm⟩
  · rename_i e hsome
    constructor
    · nofun
    · rintro ⟨hgroups, -⟩
      have hlt : (pattern.groups : ℤ) < e.2 := by simpa using List.find?_some hsome
      exact absurd (hgroups e (List.mem_of_find?_eq_some hsome)) (not_le.mpr hlt)

theorem compileSubnetRule_eq_ok {r : SubnetTopologyRule} {c : CompiledSubnetRule} :
    compileSubnetRule r = .ok c ↔
      ∃ network, ipNetwork r.subnet = some network ∧ c = ⟨r.id, r.name, network, r.tags⟩ := by
  unfold compileSubnetRule
  rw [bind_eq_ok]
  refine exists_congr fun network => ?_
  rw [orThrow_eq_ok]
  exact and_congr_right' ⟨fun h => (Except.ok.inj h).symm, fun h => congrArg Except.ok h.symm⟩

end

end Correlia
