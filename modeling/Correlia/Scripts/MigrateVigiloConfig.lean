import Correlia.Config.RulesDocument
import Correlia.Scripts.Promotion

/-!
# Scripts.MigrateVigiloConfig — translating rules and topology
(`scripts/migrate_vigilo_config.py`)

A source document is what `_load_yaml` returns: the value of `yaml.safe_load`, and an empty mapping for
an empty document.
-/

namespace Correlia

open Lib

/-- What the scripts call of the standard library on values that are no plain text:
`str()` and `int()` of values that are no string and no integer, `fnmatch.translate`, and
`re.compile(regex).groups`. -/
structure MigrationCalls where
  str : Yaml → String
  int : Yaml → Option ℤ
  translate : String → String
  groups : String → Option ℕ

/-- `str(value)`. -/
def pyStr (calls : MigrationCalls) : Yaml → String
  | .str s => s
  | v => calls.str v

/-- `int(value)`, if it does not raise. -/
def pyInt (calls : MigrationCalls) : Yaml → Option ℤ
  | .int n => some n
  | .bool b => some (if b then 1 else 0)
  | v => calls.int v

/-! ### Utilities -/

/-- A run of other characters becomes one `-`. -/
def slugChars : (pending : Bool) → List Char → List Char
  | pending, [] => if pending then ['-'] else []
  | pending, c :: cs =>
    if ('a' ≤ c ∧ c ≤ 'z') ∨ ('0' ≤ c ∧ c ≤ '9') then
      (if pending then ['-', c] else [c]) ++ slugChars false cs
    else slugChars true cs

/-- `.strip("-")` -/
def stripDashes (l : List Char) : List Char :=
  ((l.dropWhile (· == '-')).reverse.dropWhile (· == '-')).reverse

/-- `_to_slug`. -/
def toSlug (name : String) : String :=
  let slug := String.ofList (stripDashes (slugChars false (lower name)))
  if slug = "" then "rule" else slug

/-- `_unique_slugs`, with the counts so far. -/
def uniqueSlugs : (seen : List (String × ℕ)) → List String → List String
  | _, [] => []
  | seen, name :: names =>
    let slug := toSlug name
    let count := (getItem slug seen).getD 0
    (if count = 0 then slug else slug ++ "-" ++ natText count) ::
      uniqueSlugs (setItem slug (count + 1) seen) names

/-- `_TAG_KEY_RE.match(key)`: the `$` also stands before a final newline. -/
def tagKeyReMatch (key : String) : Bool :=
  matchesTagKey key ||
    (key.toList.getLast? == some '\n' && matchesTagKey (String.ofList key.toList.dropLast))

/-- `_to_correlia_tag_key`. -/
def toCorreliaTagKey (bare : String) : Option String :=
  if bare = "" then none
  else
    let prefixed := if "topology.".toList <+: bare.toList then bare else "topology." ++ bare
    if tagKeyReMatch prefixed then some prefixed else none

/-- `_has_glob_metachar`. -/
def hasGlobMetachar (value : String) : Bool := value.toList.any fun c => c ∈ ['*', '?', '[', ']']

/-- An issue about a source document. -/
def sourceIssue (domain location code message : String) : MigrationIssue :=
  ⟨domain, location, code, message, "CFG-06"⟩

/-! ### Rules -/

/-- The issue of one entry of `match.tags`, or the entry it becomes. -/
def rewriteMatchTag (e : YamlKey × Yaml) : Except MigrationIssue (String × String) :=
  let location := "match.tags[" ++ e.1.text ++ "]"
  match e.1, e.2 with
  | .other t, _ =>
    .error (sourceIssue "rules" location "invalid_topology_tag_key"
      ("tag key '" ++ t ++ "' must be a string"))
  | .str key, .str value =>
    if hasGlobMetachar value then
      .error (sourceIssue "rules" location "unsupported_tag_wildcard"
        ("tag value for '" ++ key ++ "' contains unsupported fnmatch metacharacters"))
    else
      match toCorreliaTagKey key with
      | none =>
        .error (sourceIssue "rules" location "invalid_topology_tag_key"
          ("tag key '" ++ key ++ "' cannot be converted to a valid topology.* key"))
      | some newKey => .ok (newKey, value)
  | .str key, _ =>
    .error (sourceIssue "rules" location "unsupported_tag_wildcard"
      ("tag value for '" ++ key ++ "' must be a string"))

/-- The entry of the loop of `_rewrite_match_tags`. -/
def rewriteMatchTagsStep (acc : List (String × String) × List MigrationIssue)
    (e : YamlKey × Yaml) : List (String × String) × List MigrationIssue :=
  match rewriteMatchTag e with
  | .ok (key, value) => (setItem key value acc.1, acc.2)
  | .error issue => (acc.1, acc.2 ++ [issue])

/-- `_rewrite_match_tags`. -/
def rewriteMatchTags (tags : YamlMap) : List (String × String) × List MigrationIssue :=
  tags.foldl rewriteMatchTagsStep ([], [])

/-- A piece of a summary: text, or what stands between the braces of a placeholder. -/
inductive SummaryPiece
  | text (c : Char)
  | placeholder (inner : List Char)

/-- The matches of `\x7b[^\x7b\x7d]*\x7d` and the text between them.  The argument is what has been
read since an opening brace, when inside. -/
def summaryPieces : Option (List Char) → List Char → List SummaryPiece
  | none, [] => []
  | some inner, [] => .text '\x7b' :: inner.reverse.map .text
  | none, c :: cs =>
    if c = '\x7b' then summaryPieces (some []) cs else .text c :: summaryPieces none cs
  | some inner, c :: cs =>
    if c = '\x7b' then .text '\x7b' :: inner.reverse.map .text ++ summaryPieces (some []) cs
    else if c = '\x7d' then .placeholder inner.reverse :: summaryPieces none cs
    else summaryPieces (some (c :: inner)) cs

/-- `replacer` of `_rewrite_summary`: the new inner text, or an issue. -/
def rewritePlaceholder (location : String) (inner : List Char) :
    Except MigrationIssue (List Char) :=
  let name := String.ofList inner
  if inner.isEmpty || !inner.all isVariableChar then
    .error (sourceIssue "rules" location "unsupported_summary_placeholder"
      ("summary placeholder '\x7b" ++ name ++ "\x7d' is not a valid identifier"))
  else if name ∈ knownNormalizedFields then .ok inner
  else
    match toCorreliaTagKey name with
    | none =>
      .error (sourceIssue "rules" location "unsupported_summary_placeholder"
        ("summary placeholder '" ++ name ++ "' is not a normalized field or valid topology key"))
    | some key => .ok key.toList

def rewritePiece (location : String) : SummaryPiece → List Char × List MigrationIssue
  | .text c => ([c], [])
  | .placeholder inner =>
    match rewritePlaceholder location inner with
    | .ok inner' => ('\x7b' :: inner' ++ ['\x7d'], [])
    | .error issue => ('\x7b' :: inner ++ ['\x7d'], [issue])

/-- `_rewrite_summary`. -/
def rewriteSummary (summary location : String) : String × List MigrationIssue :=
  let pieces := (summaryPieces none summary.toList).map (rewritePiece location)
  (String.ofList (pieces.flatMap Prod.fst), pieces.flatMap Prod.snd)

/-- One entry of `window.group_by`. -/
def rewriteGroupByEntry (idx : ℕ) : Yaml → Except MigrationIssue String
  | .str entry =>
    let location := "window.group_by[" ++ entry ++ "]"
    if entry ∈ knownNormalizedFields then .ok entry
    else if entry = "rule_name" then
      .error (sourceIssue "rules" location "unsupported_group_by"
        "window.group_by value 'rule_name' is not supported")
    else
      match toCorreliaTagKey entry with
      | none =>
        .error (sourceIssue "rules" location "unsupported_group_by"
          ("window.group_by value '" ++ entry ++ "' is not a normalized field or valid topology key"))
      | some key => .ok key
  | _ =>
    .error (sourceIssue "rules" ("window.group_by[" ++ natText idx ++ "]") "unsupported_group_by"
      "window.group_by entries must be strings")

/-- The values and the errors of a list of results. -/
def partitionResults {ε α : Type} (l : List (Except ε α)) : List α × List ε :=
  (l.filterMap fun | .ok a => some a | .error _ => none,
    l.filterMap fun | .ok _ => none | .error e => some e)

/-- `_rewrite_group_by`. -/
def rewriteGroupBy (entries : List Yaml) : List String × List MigrationIssue :=
  partitionResults (entries.mapIdx rewriteGroupByEntry)

/-- `_unknown_source_field_issues`. -/
def unknownSourceFieldIssues (source : YamlMap) (allowed : List String) (domain location : String) :
    List MigrationIssue :=
  source.filterMap fun e =>
    let known : Bool := match e.1 with
      | .str s => s ∈ allowed
      | .other _ => false
    if known then none
    else some (sourceIssue domain
      (if location = "" then e.1.text else location ++ "." ++ e.1.text) "unknown_source_field"
      "unknown source schema field is not supported")

/-- An issue unless the condition holds. -/
def issueUnless (ok : Bool) (domain location code message : String) : List MigrationIssue :=
  if ok then [] else [sourceIssue domain location code message]

/-- An issue of a part of a rule, at the rule's location. -/
def MigrationIssue.under (loc : String) (issue : MigrationIssue) : MigrationIssue :=
  { issue with location := loc ++ "." ++ issue.location }

def ruleSourceFields : List String :=
  ["name", "priority", "match", "window", "output_summary", "actions", "is_dc_level"]

def ruleMatchSourceFields : List String := ["severity", "host", "service", "tags"]

def ruleWindowSourceFields : List String :=
  ["group_by", "duration_seconds", "trigger_threshold", "min_hosts"]

/-- The checks of a rule's `match` block. -/
def preflightMatch (loc : String) : Yaml → List MigrationIssue
  | .map block =>
    unknownSourceFieldIssues block ruleMatchSourceFields "rules" (loc ++ ".match") ++
    (match getKey "severity" block with
      | some (.seq (_ :: _)) => []
      | _ => [sourceIssue "rules" (loc ++ ".match.severity") "invalid_rule_severity"
          "match.severity must be a non-empty list"]) ++
    issueUnless ((getKey "host" block).all Yaml.isStr) "rules" (loc ++ ".match.host")
      "invalid_rule_matcher" "match.host must be a string when present" ++
    (match getKey "service" block with
      | none | some .null | some (.str _) => []
      | _ => [sourceIssue "rules" (loc ++ ".match.service") "invalid_rule_matcher"
          "match.service must be a string or null when present"]) ++
    (match (getKey "tags" block).getD (.map []) with
      | .map tags => (rewriteMatchTags tags).2.map (MigrationIssue.under loc)
      | _ => [sourceIssue "rules" (loc ++ ".match.tags") "invalid_rule_tags"
          "match.tags must be a mapping"])
  | _ => [sourceIssue "rules" (loc ++ ".match") "invalid_rule_severity"
      "match block must be a mapping"]

/-- The checks of a rule's priority. -/
def preflightPriority (loc : String) : Option Yaml → List MigrationIssue
  | some (.int _) => []
  | none | some .null =>
    [sourceIssue "rules" (loc ++ ".priority") "invalid_rule_priority"
      "priority is required and must be an integer"]
  | _ =>
    [sourceIssue "rules" (loc ++ ".priority") "invalid_rule_priority" "priority must be an integer"]

/-- The checks of a rule's actions. -/
def preflightActions (loc : String) : Yaml → List MigrationIssue
  | .seq [] =>
    [sourceIssue "rules" (loc ++ ".actions") "empty_actions" "empty actions are not supported"]
  | .seq actions =>
    (actions.mapIdx fun i action => issueUnless action.isStr "rules"
      (loc ++ ".actions[" ++ natText i ++ "]") "invalid_action_entry"
      "action entries must be strings").flatten
  | _ =>
    [sourceIssue "rules" (loc ++ ".actions") "invalid_action_entry"
      "actions must be a list of strings"]

/-- The round of one rule in `_preflight_rules`. -/
def preflightRule (idx : ℕ) (rule : Yaml) : List MigrationIssue :=
  let loc := "rules[" ++ natText idx ++ "]"
  match rule with
  | .map rule =>
    let window := ((getKey "window" rule).getD (.map [])).entries
    unknownSourceFieldIssues rule ruleSourceFields "rules" loc ++
    unknownSourceFieldIssues window ruleWindowSourceFields "rules" (loc ++ ".window") ++
    issueUnless (getKey "min_hosts" window).isNone "rules" (loc ++ ".window.min_hosts")
      "unsupported_rule_min_hosts" "window.min_hosts is not supported" ++
    issueUnless (getKey "is_dc_level" rule).isNone "rules" (loc ++ ".is_dc_level")
      "unsupported_rule_is_dc_level" "is_dc_level is not supported" ++
    preflightMatch loc ((getKey "match" rule).getD (.map [])) ++
    preflightPriority loc (getKey "priority" rule) ++
    (match (getKey "group_by" window).getD (.seq []) with
      | .seq entries => (rewriteGroupBy entries).2.map (MigrationIssue.under loc)
      | _ => []) ++
    (match (getKey "output_summary" rule).getD (.str "") with
      | .str summary => (rewriteSummary summary (loc ++ ".output_summary")).2
      | _ => []) ++
    preflightActions loc ((getKey "actions" rule).getD (.seq []))
  | _ => [sourceIssue "rules" loc "invalid_rule_priority" "rule entry must be a mapping"]

/-- The integer priority of a rule entry. -/
def sourcePriority : Yaml → Option ℤ
  | .map rule =>
    match getKey "priority" rule with
    | some (.int n) => some n
    | _ => none
  | _ => none

/-- The first priority that has been seen before. -/
def firstRepeated : (seen : List ℤ) → List ℤ → Option ℤ
  | _, [] => none
  | seen, p :: ps => if p ∈ seen then some p else firstRepeated (p :: seen) ps

/-- `_preflight_rules`. -/
def preflightRules : Yaml → List MigrationIssue
  | .seq rules =>
    (rules.mapIdx preflightRule).flatten ++
    match firstRepeated [] (rules.filterMap sourcePriority) with
    | none => []
    | some p => [sourceIssue "rules" "rules" "duplicate_rule_priority"
        ("duplicate priority: " ++ toString p)]
  | _ => [sourceIssue "rules" "rules" "invalid_rule_severity" "rules must be a list"]

/-- What the transforms raise. -/
inductive TransformError
  | valueError (text : String)
  | badInt
  | indexError

/-- The generated `match` block. -/
def transformMatch (calls : MigrationCalls) (block : YamlMap) : Except TransformError Yaml := do
  let host ← match getKey "host" block with
    | none => .ok "*"
    | some (.str host) => .ok host
    | some _ => .error (.valueError "match.host must be a string when present")
  let service ← match getKey "service" block with
    | none | some .null => .ok none
    | some (.str service) => .ok (some service)
    | some _ => .error (.valueError "match.service must be a string or null when present")
  let tags ← match (getKey "tags" block).getD (.map []) with
    | .map tags => .ok tags
    | _ => .error (.valueError "match.tags must be a mapping")
  return yamlMap [
    ("severities", (getKey "severity" block).getD (.seq [])),
    ("host_pattern", .str (calls.translate host)),
    ("service_pattern", (service.map fun s => Yaml.str (calls.translate s)).getD .null),
    ("tags", yamlMap ((rewriteMatchTags tags).1.map fun e => (e.1, .str e.2)))]

/-- The generated `window` block. -/
def transformWindow (window : YamlMap) : Except TransformError Yaml := do
  let entries := match (getKey "group_by" window).getD (.seq []) with
    | .seq entries => entries
    | _ => []
  if entries.any fun e => !e.isStr then
    .error (.valueError "window.group_by entries must be strings")
  else
    .ok (yamlMap [
      ("duration_seconds", (getKey "duration_seconds" window).getD (.int 60)),
      ("group_by", .seq ((rewriteGroupBy entries).1.map .str)),
      ("trigger_threshold", (getKey "trigger_threshold" window).getD (.int 1))])

/-- The actions that are strings. -/
def actionObjects : Yaml → List Yaml
  | .seq actions => actions.filterMap fun
    | .str action => some (yamlMap [("name", .str "create_incident"), ("plugin", .str action)])
    | _ => none
  | _ => []

/-- The round of one rule in `_transform_rules`. -/
def transformRule (calls : MigrationCalls) (newPriority : ℕ) (rule : YamlMap) :
    Except TransformError Yaml := do
  let «match» ← transformMatch calls ((getKey "match" rule).getD (.map [])).entries
  let window ← transformWindow ((getKey "window" rule).getD (.map [])).entries
  let summary := match (getKey "output_summary" rule).getD (.str "") with
    | .str summary => summary
    | _ => ""
  return yamlMap [
    ("name", (getKey "name" rule).getD (.str ("rule-" ++ natText newPriority))),
    ("priority", .int newPriority),
    ("match", «match»),
    ("window", window),
    ("output_summary", .str (rewriteSummary summary "output_summary").1),
    ("actions", .seq (actionObjects ((getKey "actions" rule).getD (.seq []))))]

def yamlMaps (items : List Yaml) : List YamlMap :=
  items.filterMap fun | .map d => some d | _ => none

/-- The mappings of the list with their sort keys. -/
def keyedRules (calls : MigrationCalls) (rules : List Yaml) :
    Except TransformError (List (ℤ × YamlMap)) :=
  (yamlMaps rules).mapM fun rule => do
    let key ← orThrow .badInt (pyInt calls ((getKey "priority" rule).getD (.int 0)))
    return (key, rule)

/-- `sorted(…, key=…, reverse=True)`, which keeps equal keys in order. -/
def sortedDescending (rules : List (ℤ × YamlMap)) : List YamlMap :=
  (sortBy (fun r => -r.1) rules).map Prod.snd

/-- `enumerate(sorted_rules, start=1)` and the loop over it. -/
def transformSorted (calls : MigrationCalls) :
    (newPriority : ℕ) → List YamlMap → Except TransformError (List Yaml)
  | _, [] => .ok []
  | newPriority, rule :: rules => do
    let generated ← transformRule calls newPriority rule
    let rest ← transformSorted calls (newPriority + 1) rules
    return generated :: rest

/-- `_transform_rules`: the generated rules. -/
def transformRules (calls : MigrationCalls) (rules : List Yaml) :
    Except TransformError (List Yaml) := do
  let keyed ← keyedRules calls rules
  transformSorted calls 1 (sortedDescending keyed)

/-! ### Topology -/

def topologySourceFields : List String := ["hostname_patterns", "ip_subnets"]

def hostnameSourceFields : List String := ["name", "regex", "target_tag", "tags"]

def subnetSourceFields : List String := ["name", "cidr", "value", "target_tag"]

/-- `_is_valid_tag_value`. -/
def isValidTagValue (value : String) : Bool := (tagValueErrors "tag" value).isEmpty

/-- The checks of one literal tag of a hostname pattern. -/
def preflightLiteralTag (loc : String) (e : YamlKey × Yaml) : List MigrationIssue :=
  let location := loc ++ ".tags[" ++ e.1.text ++ "]"
  match e.1 with
  | .other _ => [sourceIssue "topology" location "invalid_topology_tag_key"
      "hostname pattern literal tag names must be strings"]
  | .str name =>
    (match e.2 with
      | .str value => issueUnless (isValidTagValue value) "topology" location
          "invalid_topology_value"
          ("hostname pattern literal tag values must be non-empty strings " ++
            "no longer than 256 characters")
      | _ => [sourceIssue "topology" location "invalid_topology_value"
          "hostname pattern literal tag values must be strings"]) ++
    issueUnless (toCorreliaTagKey name).isSome "topology" location "invalid_topology_tag_key"
      ("tag name '" ++ name ++ "' cannot be converted to a valid topology.* key")

/-- The checks of a target tag that is there: what is no string has its own issue when `asked`. -/
def preflightTargetTag (loc message : String) (asked : Bool) : Option Yaml → List MigrationIssue
  | some (.str tag) =>
    issueUnless (toCorreliaTagKey tag).isSome "topology" (loc ++ ".target_tag")
      "invalid_topology_tag_key"
      ("target_tag '" ++ tag ++ "' cannot be converted to a valid topology.* key")
  | some _ =>
    issueUnless (!asked) "topology" (loc ++ ".target_tag") "invalid_topology_value" message
  | none => []

/-- `pattern.groups > 0`, or false for `re.error`. -/
def hasCapture (calls : MigrationCalls) (regex : String) : Bool :=
  (calls.groups regex).any fun n => decide (0 < n)

/-- The checks of an entry once its regex is a non-empty string. -/
def preflightHostnameTags (calls : MigrationCalls) (loc regex : String) (entry : YamlMap) :
    List MigrationIssue :=
  let tags := ((getKey "tags" entry).getD (.map [])).entries
  (match getKey "tags" entry with
    | none | some (.map _) => []
    | some _ => [sourceIssue "topology" (loc ++ ".tags") "invalid_topology_value"
        "hostname pattern tags must be a mapping"]) ++
  issueUnless (!hasCapture calls regex || (getKey "target_tag" entry).isSome) "topology" loc
    "missing_topology_target_tag" "hostname pattern with capture groups requires target_tag" ++
  issueUnless (hasCapture calls regex || !tags.isEmpty) "topology" loc
    "unsupported_hostname_topology"
    "hostname pattern without capture groups must have literal tags" ++
  preflightTargetTag loc "hostname pattern target_tag must be a string" (hasCapture calls regex)
    (getKey "target_tag" entry) ++
  tags.flatMap (preflightLiteralTag loc)

/-- The round of one hostname pattern in `_preflight_topology`. -/
def preflightHostname (calls : MigrationCalls) (idx : ℕ) (entry : Yaml) : List MigrationIssue :=
  let loc := "topology_rules.hostname_patterns[" ++ natText idx ++ "]"
  match entry with
  | .map entry =>
    unknownSourceFieldIssues entry hostnameSourceFields "topology" loc ++
    match (getKey "regex" entry).getD (.str "") with
    | .str regex =>
      if regex = "" then
        [sourceIssue "topology" (loc ++ ".regex") "invalid_topology_value"
          "hostname pattern regex must be a non-empty string"]
      else preflightHostnameTags calls loc regex entry
    | _ => [sourceIssue "topology" (loc ++ ".regex") "invalid_topology_value"
        "hostname pattern regex must be a string"]
  | _ => [sourceIssue "topology" loc "unsupported_hostname_topology"
      "hostname pattern entry must be a mapping"]

/-- The round of one subnet in `_preflight_topology`. -/
def preflightSubnet (idx : ℕ) (entry : Yaml) : List MigrationIssue :=
  let loc := "topology_rules.ip_subnets[" ++ natText idx ++ "]"
  match entry with
  | .map entry =>
    unknownSourceFieldIssues entry subnetSourceFields "topology" loc ++
    (["cidr", "value", "target_tag"].flatMap fun field =>
      issueUnless (getKey field entry).isSome "topology" (loc ++ "." ++ field)
        "missing_subnet_field" ("subnet entry missing required field '" ++ field ++ "'")) ++
    preflightTargetTag loc "subnet target_tag must be a string" true (getKey "target_tag" entry) ++
    (match getKey "value" entry with
      | none => []
      | some (.str value) => issueUnless (isValidTagValue value) "topology" (loc ++ ".value")
          "invalid_topology_value"
          "subnet values must be non-empty strings no longer than 256 characters"
      | some _ => [sourceIssue "topology" (loc ++ ".value") "invalid_topology_value"
          "subnet value must be a string"])
  | _ => [sourceIssue "topology" loc "missing_subnet_field" "subnet entry must be a mapping"]

/-- One of the two lists of the topology, with the issue of what is no list. -/
def topologySection (name : String) (topology : YamlMap) : List Yaml × List MigrationIssue :=
  match (getKey name topology).getD (.seq []) with
  | .seq items => (items, [])
  | _ => ([], [sourceIssue "topology" ("topology_rules." ++ name) "invalid_topology_section"
      ("topology_rules." ++ name ++ " must be a list")])

/-- `_preflight_topology`. -/
def preflightTopology (calls : MigrationCalls) : Yaml → List MigrationIssue
  | .map topology =>
    let hostnames := topologySection "hostname_patterns" topology
    let subnets := topologySection "ip_subnets" topology
    unknownSourceFieldIssues topology topologySourceFields "topology" "topology_rules" ++
    hostnames.2 ++ (hostnames.1.mapIdx (preflightHostname calls)).flatten ++
    subnets.2 ++ (subnets.1.mapIdx preflightSubnet).flatten
  | _ => [sourceIssue "topology" "topology_rules" "unsupported_hostname_topology"
      "topology_rules must be a mapping"]

/-- The loop over the literal tags in `_transform_topology`. -/
def rewriteLiteralTags (calls : MigrationCalls) (tags : YamlMap) : List (String × String) :=
  tags.foldl (fun rewritten e =>
    match toCorreliaTagKey e.1.text with
    | some newKey => setItem newKey (pyStr calls e.2) rewritten
    | none => rewritten) []

/-- `f"{prefix}-{idx}"` for the entries without the key, with the indices of the whole list. -/
def entryNames (calls : MigrationCalls) (key stem : String) (items : List Yaml) : List String :=
  (items.mapIdx fun idx entry => (entry, idx)).filterMap fun e =>
    match e.1 with
    | .map entry =>
      some (pyStr calls ((getKey key entry).getD (.str (stem ++ natText e.2))))
    | _ => none

/-- The rule generated for a hostname pattern. -/
def transformHostname (calls : MigrationCalls) (ruleId : String) (entry : YamlMap) : Yaml :=
  let regex := pyStr calls ((getKey "regex" entry).getD (.str ""))
  let tags := rewriteLiteralTags calls ((getKey "tags" entry).getD (.map [])).entries
  let captureGroups : List (String × Yaml) :=
    match hasCapture calls regex, getKey "target_tag" entry with
    | _, none | _, some .null | false, _ => []
    | true, some tag =>
      match toCorreliaTagKey (pyStr calls tag) with
      | some key => [("tag_capture_groups", yamlMap [(key, .int 1)])]
      | none => []
  yamlMap ([("id", .str ruleId), ("name", (getKey "name" entry).getD (.str ruleId)),
    ("hostname_pattern", .str regex), ("tags", yamlMap (tags.map fun e => (e.1, .str e.2)))] ++
    captureGroups)

/-- The rule generated for a subnet. -/
def transformSubnet (calls : MigrationCalls) (ruleId : String) (entry : YamlMap) : Yaml :=
  let targetTag := pyStr calls ((getKey "target_tag" entry).getD (.str ""))
  let value := pyStr calls ((getKey "value" entry).getD (.str ""))
  let tags : List (String × Yaml) :=
    match toCorreliaTagKey targetTag with
    | some key => [(key, .str value)]
    | none => []
  yamlMap [("id", .str ruleId), ("name", (getKey "name" entry).getD (.str ruleId)),
    ("subnet", .str (pyStr calls ((getKey "cidr" entry).getD (.str "")))), ("tags", yamlMap tags)]

/-- `ids[idx]` for the entries that are mappings, which raises when a list is too short. -/
def transformEntries (transform : String → YamlMap → Yaml) (ids : List String) (items : List Yaml) :
    Option (List Yaml) :=
  (items.mapIdx fun idx entry => (entry, idx)).filterMap (fun e =>
    match e.1 with
    | .map entry => some (entry, e.2)
    | _ => none) |>.mapM fun e => (ids[e.2]?).map fun ruleId => transform ruleId e.1

/-- The two generated lists. -/
structure GeneratedTopology where
  hostnameRules : List Yaml
  subnetRules : List Yaml

/-- `_transform_topology`. -/
def transformTopology (calls : MigrationCalls) (topology : YamlMap) :
    Except TransformError GeneratedTopology := do
  let hostnames := topologySection "hostname_patterns" topology
  let subnets := topologySection "ip_subnets" topology
  if hostnames.2 ≠ [] then
    throw (.valueError "topology_rules.hostname_patterns must be a list")
  if subnets.2 ≠ [] then
    throw (.valueError "topology_rules.ip_subnets must be a list")
  let hostnameIds := uniqueSlugs [] (entryNames calls "name" "hostname-" hostnames.1)
  let hostnameRules ← orThrow .indexError
    (transformEntries (transformHostname calls) hostnameIds hostnames.1)
  let subnetIds := uniqueSlugs [] (entryNames calls "target_tag" "subnet-" subnets.1)
  let subnetRules ← orThrow .indexError
    (transformEntries (transformSubnet calls) subnetIds subnets.1)
  return ⟨hostnameRules, subnetRules⟩

/-! ### `main` -/

/-- The value under a document's only key, and the issues of the document. -/
def unwrapDocument (domain wrapper : String) (absent : Yaml) :
    Yaml → Yaml × List MigrationIssue
  | .map document =>
    let unknown := unknownSourceFieldIssues document [wrapper] domain ""
    match getKey wrapper document with
    | some value => (value, unknown)
    | none => (absent, unknown ++ [sourceIssue domain wrapper "missing_top_level_wrapper"
        (domain ++ " source document is missing top-level '" ++ wrapper ++ "'")])
  | _ => (absent, [sourceIssue domain domain "invalid_source_document"
      (domain ++ " source document must be a mapping")])

/-- The source documents; of the plugins only the issues and the generated file. -/
structure MigrationSource where
  rules : Yaml
  topology : Yaml
  pluginIssues : List MigrationIssue
  plugins : Yaml

def MigrationSource.rulesList (source : MigrationSource) : Yaml × List MigrationIssue :=
  unwrapDocument "rules" "rules" (.seq []) source.rules

def MigrationSource.topologyRules (source : MigrationSource) : Yaml × List MigrationIssue :=
  unwrapDocument "topology" "topology_rules" (.map []) source.topology

/-- The issues of all documents. -/
def sourceIssues (calls : MigrationCalls) (source : MigrationSource) : List MigrationIssue :=
  source.rulesList.2 ++ source.topologyRules.2 ++ preflightRules source.rulesList.1 ++
    preflightTopology calls source.topologyRules.1 ++ source.pluginIssues

/-- The issues of the documents, the failure code `_finish` is given, and the output directory
afterwards; without a code an exception has escaped. -/
structure Migrated where
  issues : List MigrationIssue
  failureCode : Option MigrationFailureCode
  out : Option (Directory Yaml)

/-- The generated files. -/
def generatedFile (rules : List Yaml) (topology : GeneratedTopology) (plugins : Yaml) :
    ConfigFile → Yaml
  | .rules => yamlMap [("rules", .seq rules)]
  | .topology => yamlMap [("hostname_rules", .seq topology.hostnameRules),
      ("subnet_rules", .seq topology.subnetRules)]
  | .plugins => plugins

/-- `main`, once the documents are read. -/
def migrate (calls : MigrationCalls) (fails : PublishStep → Bool) (debris : Directory Yaml)
    (out : Option (Directory Yaml)) (source : MigrationSource) : Migrated :=
  let issues := sourceIssues calls source
  if issues.isEmpty then
    match source.rulesList.1, source.topologyRules.1 with
    | .seq rules, .map topology =>
      match transformRules calls rules, transformTopology calls topology with
      | .ok rules, .ok topology =>
        let published := publish debris fails out (generatedFile rules topology source.plugins)
        ⟨[], published.1, published.2⟩
      | _, _ => ⟨[], none, out⟩
    | _, _ => ⟨[], none, out⟩
  else ⟨issues, some .catalogedIncompatibility, out⟩

end Correlia
