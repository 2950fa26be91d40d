import Correlia.Plugins.Loader

/-!
# Api.Health — the readiness probe (`app/api/routers/health.py`)

What a request finds of the process is a `Probe`; plugins report their status anew each time.  The
process keeps the log, the snapshot of the last response that differed, and the two gauges.
-/

namespace Correlia

open Lib

inductive ReadinessState
  | ready | notReady | notConfigured
deriving DecidableEq

/-- `_READINESS_CHECK_KEYS`: the dependencies, and then the categories of output plugins. -/
inductive ReadinessCheck
  | database | lifecycleWorker | pluginRegistry | plugins | rulesConfig | settings | topologyConfig
  | email
deriving DecidableEq

def readinessCheckKeys : List ReadinessCheck :=
  [.database, .lifecycleWorker, .pluginRegistry, .plugins, .rulesConfig, .settings, .topologyConfig,
    .email]

/-- `READINESS_STATES` -/
def readinessStateValues : List ReadinessState := [.ready, .notReady, .notConfigured]

/-- `readiness_states`, of its one category. -/
def readinessStates (entries : List (PluginRegistryEntry × StatusReport)) : ReadinessState :=
  entries.foldl (fun state e =>
    if pluginCategory e.1 ≠ .email ∨ state = .notReady then state
    else if e.2.all fun status => !status.ready then .notReady
    else if state = .notConfigured then .ready
    else state) .notConfigured

/-- What a request finds. -/
structure Probe where
  /-- `check_database_ready` returns. -/
  databaseReady : Bool
  hasSettings : Bool
  rulesConfigured : Bool
  rulesLoaded : Bool
  topologyConfigured : Bool
  topologyLoaded : Bool
  /-- The entries of the registry, with what their plugins report. -/
  registry : Option (List (PluginRegistryEntry × StatusReport))
  /-- `healthy` of the worker. -/
  workerHealthy : Option Bool

namespace Probe

variable (p : Probe)

def readyIf (b : Bool) : ReadinessState := if b then .ready else .notReady

/-- `_configured_state_check` -/
def configuredStateCheck (configured loaded : Bool) : ReadinessState :=
  if configured && !loaded then .notReady else .ready

/-- `_plugin_category_checks` -/
def pluginCategoryChecks : ReadinessState :=
  match p.registry with
  | none => .notReady
  | some entries => readinessStates entries

/-- `_dependency_checks`, with `_plugins_check`, and the category. -/
def state : ReadinessCheck → ReadinessState
  | .database => readyIf p.databaseReady
  | .settings => readyIf p.hasSettings
  | .rulesConfig => configuredStateCheck p.rulesConfigured p.rulesLoaded
  | .topologyConfig => configuredStateCheck p.topologyConfigured p.topologyLoaded
  | .pluginRegistry => readyIf p.registry.isSome
  | .plugins => if p.pluginCategoryChecks = .notReady then .notReady else .ready
  | .lifecycleWorker => readyIf (p.workerHealthy.getD false)
  | .email => p.pluginCategoryChecks

def snapshot : List (ReadinessCheck × ReadinessState) :=
  readinessCheckKeys.map fun k => (k, p.state k)

end Probe

/-- What a line of the log is about; `none` is the aggregate. -/
structure ReadinessLine where
  category : Option ReadinessCheck
  state : ReadinessState

/-- `readiness_log_snapshot`, and the log. -/
structure ReadinessLog where
  snapshot : Option (List (ReadinessCheck × ReadinessState)) := none
  lines : List ReadinessLine := []

/-- The lines of one evaluation. -/
def transitionLines (previous : Option (List (ReadinessCheck × ReadinessState)))
    (snapshot : List (ReadinessCheck × ReadinessState)) : List ReadinessLine :=
  match previous with
  | none =>
    let failures := snapshot.filter fun e => decide (e.2 = .notReady)
    if failures ≠ [] then failures.map fun e => ⟨some e.1, e.2⟩ else [⟨none, .ready⟩]
  | some previous =>
    (snapshot.filter fun e => decide (getItem e.1 previous ≠ some e.2)).map fun e => ⟨some e.1, e.2⟩

/-- `_record_readiness_transitions` -/
def recordReadinessTransitions (snapshot : List (ReadinessCheck × ReadinessState))
    (log : ReadinessLog) : ReadinessLog :=
  if log.snapshot = some snapshot then log
  else ⟨some snapshot, log.lines ++ transitionLines log.snapshot snapshot⟩

/-- `readyz`: the status code and the checks. -/
def readyz (p : Probe) (log : ReadinessLog) :
    ReadinessLog × ℕ × List (ReadinessCheck × ReadinessState) :=
  (recordReadinessTransitions p.snapshot log,
    if readinessCheckKeys.any fun k => decide (p.state k = .notReady) then 503 else 200, p.snapshot)

/-- The samples of `correlia_readiness_dependencies` and `correlia_output_plugin_readiness`, by check
and state; a process that has not been probed has none. -/
abbrev ReadinessGauges := List ((ReadinessCheck × ReadinessState) × ℕ)

/-- `record_readiness_evaluation`: it sets every sample, so nothing of an earlier one is left. -/
def recordReadinessEvaluation (checks : List (ReadinessCheck × ReadinessState)) : ReadinessGauges :=
  checks.flatMap fun e => readinessStateValues.map fun candidate =>
    ((e.1, candidate), if candidate = e.2 then 1 else 0)

/-- The log of a process after its probes. -/
def readinessLogAfter (probes : List Probe) : ReadinessLog :=
  probes.foldl (fun log p => (readyz p log).1) {}

end Correlia
