import Intel4Ops.AgentJobs.Model
import Intel4Ops.Lib.Group
import Mathlib.Data.Rat.Defs

/-!
# The simulation controller

Batches of simulations, the validation results that their runs are scored by, and the jobs that
classify what was missed. Customer files, production runs and packages on disk are given to a call
from outside, with what becomes of them. Amounts are exact, precision and recall are left out, and
an evidence package is given by its impact.
-/

namespace Intel4Ops.ValidationProgram

open Lib

/-! ## Batches -/

/-- `SimulationBatchStatus` -/
inductive SimulationBatchStatus
  | active | pausedSafetyGate | ownerReviewRequired | complete
  deriving DecidableEq

/-- `SimulationBatchItemState` -/
inductive SimulationBatchItemState
  | available | selected | importing | productionRunning | terminal | frozen | validating | scored
  | missClassification | gapClustering | remediationReview | retest | regression | graduated
  | blocked
  deriving DecidableEq

/-- SCORED, or one of the states behind it. -/
def SimulationBatchItemState.ReachedScored (state : SimulationBatchItemState) : Prop :=
  state ∈ [scored, missClassification, gapClustering, remediationReview, retest, regression,
    graduated]

instance (state : SimulationBatchItemState) : Decidable state.ReachedScored :=
  inferInstanceAs (Decidable (_ ∈ _))

/-- `SimulationBatchItem` -/
structure SimulationBatchItem where
  (id batchId organizationId : UUID)
  simulationId : String
  state : SimulationBatchItemState
  (analysisCaseId runId validationSimulationId : Option UUID)
  (frozenAt truthAccessedAt scoredAt : Option Instant)
  (truePositiveCount falsePositiveCount falseNegativeCount : Option ℕ)
  blockReason : Option String
  deriving DecidableEq

/-- What a decision package says of an item. -/
structure PackagedItem where
  simulationId : String
  state : SimulationBatchItemState
  (truePositiveCount falsePositiveCount falseNegativeCount : Option ℕ)
  deriving DecidableEq

/-- An entry of `gap_clusters`. -/
structure GapCluster where
  gapClass : String
  jobIds : List UUID
  simulationsAffected : List String
  jobCount : ℕ
  deriving DecidableEq

/-- `decision_package` -/
structure DecisionPackage where
  batchId : UUID
  items : List PackagedItem
  gapClusters : List GapCluster
  deriving DecidableEq

/-- `SimulationBatch`; the package stands for the reference to it. -/
structure SimulationBatch where
  (id organizationId : UUID)
  name : String
  status : SimulationBatchStatus
  safetyGateReason : Option String
  decisionPackage : Option DecisionPackage
  deriving DecidableEq

/-! ## Validation results -/

/-- `ValidationSimulation` -/
structure ValidationSimulation where
  (id organizationId : UUID)
  simulationCode : String
  analysisCaseId : UUID
  deriving DecidableEq

/-- `ValidationGroundTruth` -/
structure ValidationGroundTruth where
  simulationId : UUID
  version : ℕ
  checksum : String

/-- `SimulationValidationRun` -/
structure SimulationValidationRun where
  (id organizationId simulationId : UUID)
  startedAt : Instant

/-- `ValidationScore` -/
structure ValidationScore where
  validationRunId : UUID
  (truePositiveCount falsePositiveCount falseNegativeCount : ℕ)

/-- `ValidationMatchType` -/
inductive ValidationMatchType
  | truePositive | falsePositive | falseNegative
  deriving DecidableEq

/-- `ValidationFindingMatch` -/
structure ValidationFindingMatch where
  (id validationRunId : UUID)
  matchType : ValidationMatchType
  (expectedFindingId expectedLeakageTruthId : Option UUID)
  deriving DecidableEq

/-- `ValidationExpectedFinding` -/
structure ValidationExpectedFinding where
  id : UUID
  expectedEconomicImpact : Option ℚ
  (currency expectedDetectionFamily linkedLeakageId : Option String)

/-- `ValidationLeakageTruth` -/
structure ValidationLeakageTruth where
  id : UUID
  truthLeakageId : String
  trueLeakageValue : Option ℚ
  (currency detectionFamily : Option String)

/-- The tables of the validation service. -/
structure Validation where
  simulations : List ValidationSimulation
  groundTruths : List ValidationGroundTruth
  runs : List SimulationValidationRun
  scores : List ValidationScore
  findingMatches : List ValidationFindingMatch
  expectedFindings : List ValidationExpectedFinding
  leakageTruths : List ValidationLeakageTruth

/-- A failed call. -/
inductive Error
  | service (code message : String) (status : ℕ)
  | truthIsolationViolation (item : UUID)
  | assertion
  | importFailed
  | truthRefused
  deriving DecidableEq

/-- An entry of what `get_results` returns. -/
structure Result where
  run : SimulationValidationRun
  score : Option ValidationScore
  findingMatches : List ValidationFindingMatch

/-- `get_results` -/
def Validation.getResults (v : Validation) (organizationId simulationId : UUID) :
    Except Error (List Result) := do
  ensure (∃ s ∈ v.simulations, s.organizationId = organizationId ∧ s.id = simulationId)
    (.service "simulation_not_found" "Simulation not found" 404)
  let runs := (v.runs.filter fun r => r.organizationId = organizationId ∧
    r.simulationId = simulationId).insertionSort fun r s => r.startedAt ≤ s.startedAt
  return runs.map fun run => {
    run := run
    score := v.scores.find? (·.validationRunId = run.id)
    findingMatches := v.findingMatches.filter (·.validationRunId = run.id) }

/-- `get_simulation_by_code` -/
def Validation.simulationByCode (v : Validation) (organizationId : UUID) (code : String) :
    Option ValidationSimulation :=
  v.simulations.find? fun s => s.organizationId = organizationId ∧ s.simulationCode = code

/-! ## Misses -/

/-- What `_resolve_family_and_value` returns. -/
structure Resolved where
  family : String
  value : Option ℚ
  currency : Option String

/-- `family or "UNSPECIFIED"` -/
def familyOr (family : Option String) : String := (family.filter (· ≠ "")).getD "UNSPECIFIED"

/-- An amount that counts as true. -/
def nonzero (value : Option ℚ) : Option ℚ := value.filter (· ≠ 0)

def Validation.expectedFinding (v : Validation) (miss : ValidationFindingMatch) :
    Option ValidationExpectedFinding :=
  miss.expectedFindingId.bind fun id => v.expectedFindings.find? (·.id = id)

def Validation.leakageTruth (v : Validation) (miss : ValidationFindingMatch) :
    Option ValidationLeakageTruth :=
  miss.expectedLeakageTruthId.bind fun id => v.leakageTruths.find? (·.id = id)

/-- `_resolve_family_and_value` -/
def Validation.resolve (v : Validation) (miss : ValidationFindingMatch) : Resolved :=
  match v.expectedFinding miss with
  | some expected => {
      family := familyOr expected.expectedDetectionFamily
      value := nonzero expected.expectedEconomicImpact
      currency := expected.currency }
  | none =>
    match v.leakageTruth miss with
    | some leakage => {
        family := familyOr leakage.detectionFamily
        value := nonzero leakage.trueLeakageValue
        currency := leakage.currency }
    | none => ⟨"UNSPECIFIED", none, none⟩

/-- `EvidenceImpact` -/
structure EvidenceImpact where
  affectedItems : ℕ
  affectedEconomicValue : Option ℚ
  currency : Option String

/-- `currency or miss_currency` -/
def orCurrency (currency other : Option String) : Option String :=
  if currency = none ∨ currency = some "" then other else currency

/-- The loop over the misses of a family. -/
def addUp (misses : List Resolved) : ℚ × Option String :=
  misses.foldl (fun (total, currency) miss =>
    match miss.value with
    | some value => (total + value, orCurrency currency miss.currency)
    | none => (total, currency)) (0, none)

def impactOf (misses : List Resolved) : EvidenceImpact where
  affectedItems := misses.length
  affectedEconomicValue := nonzero (some (addUp misses).1)
  currency := (addUp misses).2

/-- The false negatives among the matches of a result. -/
def Result.misses (result : Result) : List ValidationFindingMatch :=
  result.findingMatches.filter (·.matchType = .falseNegative)

/-! ## Jobs -/

/-- What a result says of the gap. -/
structure WorkerResult where
  primaryGapClass : Option String

/-- `AgentJob`; the impact and the result stand for the references to them. -/
structure AgentJob where
  id : UUID
  organizationId : Option UUID
  jobType : String
  status : AgentJobs.AgentJobStatus
  (simulationId clientIdempotencyKey : Option String)
  impact : EvidenceImpact
  result : Option WorkerResult

/-- How an identifier is written. -/
structure Env where
  text : UUID → String
  text_injective : Function.Injective text
  text_colon : ∀ id, ':' ∉ (text id).toList

def Env.itemKey (env : Env) (itemId : UUID) : String := "miss-classify:" ++ env.text itemId ++ ":"

def Env.familyKey (env : Env) (itemId : UUID) (family : String) : String :=
  env.itemKey itemId ++ family

/-- `create_job` -/
def createJob (jobs : List AgentJob) (job : AgentJob) : List AgentJob × AgentJob :=
  match jobs.find? fun j => j.organizationId = job.organizationId ∧
    j.clientIdempotencyKey = job.clientIdempotencyKey with
  | some existing => (jobs, existing)
  | none => (jobs ++ [job], job)

/-- `create_job` for one job after the other. -/
def createJobs : List AgentJob → List AgentJob → List AgentJob × List AgentJob
  | jobs, [] => (jobs, [])
  | jobs, job :: rest =>
    let first := createJob jobs job
    let others := createJobs first.1 rest
    (others.1, first.2 :: others.2)

def SimulationBatchItem.job (item : SimulationBatchItem) (env : Env) (newId : UUID → String → UUID)
    (family : String) (misses : List Resolved) : AgentJob where
  id := newId item.id family
  organizationId := some item.organizationId
  jobType := "MISS_CLASSIFICATION"
  status := .queued
  simulationId := some item.simulationId
  clientIdempotencyKey := some (env.familyKey item.id family)
  impact := impactOf misses
  result := none

def Validation.family (v : Validation) (miss : ValidationFindingMatch) : String :=
  (v.resolve miss).family

/-- The keys of `by_family`. -/
def Validation.families (v : Validation) (misses : List ValidationFindingMatch) : List String :=
  firsts (misses.map v.family)

/-- The misses of a family in `by_family`. -/
def Validation.missesIn (v : Validation) (misses : List ValidationFindingMatch) (family : String) :
    List ValidationFindingMatch :=
  group v.family misses family

/-- The misses of an item in its latest result, once they may be read. -/
def Validation.missesOf (v : Validation) (item : SimulationBatchItem) :
    Except Error (List ValidationFindingMatch) := do
  ensure (item.frozenAt ≠ none) (.truthIsolationViolation item.id)
  let simulationId ← orFail item.validationSimulationId .assertion
  let results ← v.getResults item.organizationId simulationId
  return (results.getLast?.map (·.misses)).getD []

/-! ## The store -/

/-- The tables. -/
structure Store where
  batches : List SimulationBatch
  items : List SimulationBatchItem
  jobs : List AgentJob
  validation : Validation

/-- `_get_batch` -/
def Store.getBatch (store : Store) (batchId : UUID) : Except Error SimulationBatch :=
  orFail (store.batches.find? (·.id = batchId))
    (.service "BATCH_NOT_FOUND" "Simulation batch not found" 404)

def Store.itemsOf (store : Store) (batchId : UUID) : List SimulationBatchItem :=
  store.items.filter (·.batchId = batchId)

end Intel4Ops.ValidationProgram
