import Intel4Ops.ValidationProgram.Model

/-!
# The operations of the controller

A call commits more than once: an import that fails leaves the rows that were committed before it.
Such a call is answered with its error next to the store that it leaves; a call that fails before
it writes anything leaves the store as it was.
-/

namespace Intel4Ops.ValidationProgram

open Lib Table Prod

/-! ## Selecting a batch -/

/-- A package of the corpus, with whether `upload_ground_truth` takes its truth. -/
structure Package where
  simulationId : String
  ready : Bool
  checksum : String
  accepted : Bool

/-- `discover_candidates` -/
def Store.discoverCandidates (store : Store) (organizationId : UUID) (corpus : List Package) :
    List Package :=
  corpus.filter fun p => p.ready = true ∧
    ∀ item ∈ store.items, item.organizationId = organizationId → item.simulationId ≠ p.simulationId

/-- `_has_open_safety_gate` -/
def Store.HasOpenSafetyGate (store : Store) (organizationId : UUID) : Prop :=
  ∃ batch ∈ store.batches, batch.organizationId = organizationId ∧
    (batch.status = .pausedSafetyGate ∨ batch.status = .ownerReviewRequired)

instance (store : Store) (organizationId : UUID) :
    Decidable (store.HasOpenSafetyGate organizationId) :=
  inferInstanceAs (Decidable (∃ _ ∈ _, _))

def newItem (batchId organizationId id : UUID) (package : Package) : SimulationBatchItem where
  id := id
  batchId := batchId
  organizationId := organizationId
  simulationId := package.simulationId
  state := .selected
  analysisCaseId := none
  runId := none
  validationSimulationId := none
  frozenAt := none
  truthAccessedAt := none
  scoredAt := none
  truePositiveCount := none
  falsePositiveCount := none
  falseNegativeCount := none
  blockReason := none

/-- `select_batch`, with the identifiers of the new rows. -/
def Store.selectBatch (store : Store) (organizationId : UUID) (corpus : List Package)
    (name : String) (batchSize : ℕ) (batchId : UUID) (itemIds : List UUID) :
    Except Error (Store × UUID) := do
  ensure (¬ store.HasOpenSafetyGate organizationId)
    (.service "SAFETY_GATE_OPEN" ("Cannot start a new batch while a prior batch is paused on a " ++
      "safety gate or awaiting owner review") 409)
  let candidates := (store.discoverCandidates organizationId corpus).take batchSize
  ensure (candidates ≠ [])
    (.service "NO_CANDIDATES" "No unregistered, sealed simulations found" 404)
  let batches ← orFail (insert (fun a b => a.id = b.id)
    ⟨batchId, organizationId, name, .active, none, none⟩ store.batches) .assertion
  let items ← orFail (insertAll (fun a b => a.id = b.id)
    (List.zipWith (newItem batchId organizationId) itemIds candidates) store.items) .assertion
  return ({ store with batches := batches, items := items }, batchId)

/-! ## Preparing a batch -/

/-- What becomes of an item whose package is there: the case is not created, or its files are
refused before or behind a commit with the case, or the item is imported. -/
inductive ImportOutcome
  | refused
  | created
  | partly (analysisCase : UUID)
  | imported (analysisCase : UUID) (committed : Bool)

/-- What a call to prepare a batch finds outside. -/
structure Preparation where
  corpus : List Package
  imports : UUID → ImportOutcome
  newSimulation : String → UUID

/-- The rows that are committed, the rows as they are in the session, and
`case_ids_by_simulation`. -/
structure Session where
  (committed current : List SimulationBatchItem)
  cases : List (String × UUID)
  deriving DecidableEq

/-- Rewrite one row. -/
def setItem (items : List SimulationBatchItem) (id : UUID)
    (f : SimulationBatchItem → SimulationBatchItem) : List SimulationBatchItem :=
  update (fun item => item.id = id) f items

def SimulationBatchItem.block (reason : String) (item : SimulationBatchItem) :
    SimulationBatchItem :=
  { item with state := .blocked, blockReason := some reason }

def SimulationBatchItem.moveTo (state : SimulationBatchItemState) (item : SimulationBatchItem) :
    SimulationBatchItem :=
  { item with state := state }

def SimulationBatchItem.withCase (analysisCase : UUID) (item : SimulationBatchItem) :
    SimulationBatchItem :=
  { item with analysisCaseId := some analysisCase }

/-- The first loop of `prepare_batch`; a failure says what is committed. -/
def Session.importItem (s : Session) (prep : Preparation) (item : SimulationBatchItem) :
    Except (List SimulationBatchItem) Session :=
  if item.state ≠ .selected then .ok s
  else if ∀ p ∈ prep.corpus, p.simulationId ≠ item.simulationId then
    let rows := setItem s.current item.id (·.block "package no longer discoverable at corpus_root")
    .ok { s with current := rows }
  else
    let importing := setItem s.current item.id (·.moveTo .importing)
    match prep.imports item.id with
    | .refused => .error s.committed
    | .created => .error importing
    | .partly analysisCase => .error (setItem importing item.id (·.withCase analysisCase))
    | .imported analysisCase committed =>
      let rows := setItem importing item.id (·.withCase analysisCase)
      .ok {
        committed := if committed then rows else importing
        current := rows
        cases := (item.simulationId, analysisCase) :: s.cases }

/-- `CorpusRegistrationOutcome.outcome` -/
inductive RegistrationOutcome
  | newlyRegistered | alreadyRegistered | awaitingCase | conflict | notReady
  deriving DecidableEq

/-- `latest_ground_truth` -/
def Validation.latestGroundTruth (v : Validation) (simulationId : UUID) :
    Option ValidationGroundTruth :=
  ((v.groundTruths.filter (·.simulationId = simulationId)).insertionSort
    fun a b => b.version ≤ a.version).head?

/-- `upload_ground_truth` for a simulation without one. -/
def Validation.uploadGroundTruth (v : Validation) (simulationId : UUID) (checksum : String) :
    Validation :=
  { v with groundTruths := v.groundTruths ++ [⟨simulationId, 1, checksum⟩] }

/-- `create_simulation` -/
def Validation.createSimulation (v : Validation) (simulation : ValidationSimulation) : Validation :=
  { v with simulations := v.simulations ++ [simulation] }

/-- `_register_ready_package`; a failure says what is committed. -/
def Validation.registerReadyPackage (v : Validation) (organizationId : UUID) (prep : Preparation)
    (cases : List (String × UUID)) (package : Package) :
    Except Validation (Validation × RegistrationOutcome) :=
  match v.simulationByCode organizationId package.simulationId with
  | some existing =>
    match v.latestGroundTruth existing.id with
    | some latest =>
      .ok (v, if latest.checksum = package.checksum then .alreadyRegistered else .conflict)
    | none =>
      if package.accepted then
        .ok (v.uploadGroundTruth existing.id package.checksum, .newlyRegistered)
      else .error v
  | none =>
    match cases.find? (·.1 = package.simulationId) with
    | none => .ok (v, .awaitingCase)
    | some entry =>
      let simulation : ValidationSimulation := {
        id := prep.newSimulation package.simulationId
        organizationId := organizationId
        simulationCode := package.simulationId
        analysisCaseId := entry.2 }
      if package.accepted then
        .ok ((v.createSimulation simulation).uploadGroundTruth simulation.id package.checksum,
          .newlyRegistered)
      else .error (v.createSimulation simulation)

/-- `register_corpus` -/
def Validation.registerCorpus (v : Validation) (organizationId : UUID) (prep : Preparation)
    (cases : List (String × UUID)) :
    List Package → Except Validation (Validation × List (String × RegistrationOutcome))
  | [] => .ok (v, [])
  | package :: packages =>
    if package.ready then
      match v.registerReadyPackage organizationId prep cases package with
      | .error v' => .error v'
      | .ok (v', outcome) =>
        (v'.registerCorpus organizationId prep cases packages).map fun rest =>
          (rest.1, (package.simulationId, outcome) :: rest.2)
    else
      (v.registerCorpus organizationId prep cases packages).map fun rest =>
        (rest.1, (package.simulationId, .notReady) :: rest.2)

/-- `registered_ok` -/
def registeredOk (outcomes : List (String × RegistrationOutcome)) : List String :=
  (outcomes.filter fun o => o.2 = .newlyRegistered ∨ o.2 = .alreadyRegistered).map (·.1)

/-- The second loop of `prepare_batch`. -/
def blockUnregistered (batchId : UUID) (ok : List String) (items : List SimulationBatchItem) :
    List SimulationBatchItem :=
  update (fun item => item.batchId = batchId ∧ item.analysisCaseId ≠ none ∧ item.simulationId ∉ ok)
    (·.block "ground truth registration did not succeed") items

/-- The first loop over the items of a batch. -/
def Store.importItems (store : Store) (batchId : UUID) (prep : Preparation) :
    Except (List SimulationBatchItem) Session :=
  (store.itemsOf batchId).foldlM (fun s item => s.importItem prep item)
    ⟨store.items, store.items, []⟩

/-- What follows the first loop of `prepare_batch`. -/
def Store.registerImported (store : Store) (batch : SimulationBatch) (prep : Preparation)
    (session : Session) : Store × Option Error :=
  if session.cases = [] then ({ store with items := session.current }, none)
  else
    let registered := store.validation.registerCorpus batch.organizationId prep session.cases
      prep.corpus
    match registered with
    | .error validation =>
      ({ store with items := session.current, validation := validation }, some .truthRefused)
    | .ok (validation, outcomes) =>
      let items := blockUnregistered batch.id (registeredOk outcomes) session.current
      ({ store with items := items, validation := validation }, none)

/-- `prepare_batch` -/
def Store.prepareBatch (store : Store) (batchId : UUID) (prep : Preparation) :
    Except Error (Store × Option Error) := do
  let batch ← store.getBatch batchId
  match store.importItems batchId prep with
  | .error committed => return ({ store with items := committed }, some .importFailed)
  | .ok session => return store.registerImported batch prep session

/-! ## Running a batch -/

/-- The outcomes of a wave. -/
inductive WaveOutcome
  | scored | alreadyScored | notRegistered | runFailed | validationFailed
  deriving DecidableEq

def WaveOutcome.value : WaveOutcome → String
  | scored => "scored"
  | alreadyScored => "already_scored"
  | notRegistered => "not_registered"
  | runFailed => "run_failed"
  | validationFailed => "validation_failed"

/-- `WaveMemberResult` -/
structure WaveMemberResult where
  analysisCaseRunId : Option UUID
  outcome : WaveOutcome
  detail : String

/-- What a wave comes to: the result of each member, and the tables of the validation service. -/
structure Wave where
  results : String → WaveMemberResult
  validation : Validation

/-- The validation service does not remove simulations. -/
def Validation.Extends (v v' : Validation) : Prop := ∀ s ∈ v.simulations, s ∈ v'.simulations

instance (v v' : Validation) : Decidable (v.Extends v') := inferInstanceAs (Decidable (∀ _ ∈ _, _))

/-- The last item of each simulation, which is the one that a dictionary keeps. -/
def lastOfEach : List SimulationBatchItem → List SimulationBatchItem
  | [] => []
  | item :: items =>
    if ∃ other ∈ items, other.simulationId = item.simulationId then lastOfEach items
    else item :: lastOfEach items

/-- `_freeze_and_score` -/
def SimulationBatchItem.freezeAndScore (item : SimulationBatchItem) (validation : Validation)
    (organizationId : UUID) (now : Instant) : Except Error SimulationBatchItem := do
  let frozen := { item with frozenAt := some now, state := .validating }
  let simulationId ← orFail frozen.validationSimulationId .assertion
  let results ← validation.getResults organizationId simulationId
  match results.getLast? with
  | none =>
    return frozen.block "validation reported success but no ValidationScore was found"
  | some result =>
    let accessed := { frozen with truthAccessedAt := some now, scoredAt := some now }
    let counted := match result.score with
      | none => accessed
      | some score => { accessed with
          truePositiveCount := some score.truePositiveCount
          falsePositiveCount := some score.falsePositiveCount
          falseNegativeCount := some score.falseNegativeCount }
    return { counted with state := .scored }

/-- What the result of a wave makes of an item. -/
def SimulationBatchItem.finish (item : SimulationBatchItem) (wave : Wave) (organizationId : UUID)
    (now : Instant) : Except Error SimulationBatchItem :=
  let result := wave.results item.simulationId
  let ran := { item with runId := result.analysisCaseRunId }
  if result.outcome = .scored ∨ result.outcome = .alreadyScored then
    let simulation := wave.validation.simulationByCode organizationId item.simulationId
    let terminal := { ran with
      validationSimulationId := simulation.map ValidationSimulation.id
      state := .terminal }
    terminal.freezeAndScore wave.validation organizationId now
  else .ok (ran.block (result.outcome.value ++ ": " ++ result.detail))

/-- The items that `run_batch` runs. -/
def Store.runnable (store : Store) (batchId : UUID) : List SimulationBatchItem :=
  lastOfEach ((store.itemsOf batchId).filter fun item =>
    item.analysisCaseId ≠ none ∧ item.state = .importing)

def rowOf (rows : List SimulationBatchItem) (item : SimulationBatchItem) : SimulationBatchItem :=
  (rows.find? (·.id = item.id)).getD item

/-- `run_batch` -/
def Store.runBatch (store : Store) (batchId : UUID) (wave : Wave) (now : Instant) :
    Except Error (Store × Option Error) := do
  let batch ← store.getBatch batchId
  let items := (store.runnable batchId).map (·.moveTo .productionRunning)
  if items = [] then return (store, none)
  else
    let rows := store.items.map (rowOf items)
    let running := { store with items := rows, validation := wave.validation }
    match items.mapM fun item => item.finish wave batch.organizationId now with
    | .error e => return (running, some e)
    | .ok rows => return ({ running with items := running.items.map (rowOf rows) }, none)

/-! ## Classifying misses -/

def Validation.wanted (v : Validation) (env : Env) (newId : UUID → String → UUID)
    (item : SimulationBatchItem) (misses : List ValidationFindingMatch) : List AgentJob :=
  (v.families misses).map fun family =>
    item.job env newId family ((v.missesIn misses family).map v.resolve)

/-- The loop over the scored items, with the jobs of each. -/
def Validation.classify (v : Validation) (env : Env) (newId : UUID → String → UUID) :
    List SimulationBatchItem → List AgentJob →
      Except Error (List AgentJob × List (SimulationBatchItem × List AgentJob))
  | [], jobs => .ok (jobs, [])
  | item :: items, jobs => do
    let misses ← v.missesOf item
    let created := createJobs jobs (v.wanted env newId item misses)
    let rest ← v.classify env newId items created.1
    return (rest.1, (item, created.2) :: rest.2)

/-- The items that misses are classified of. -/
def Store.scoredItems (store : Store) (batchId : UUID) : List SimulationBatchItem :=
  (store.itemsOf batchId).filter (·.state = .scored)

/-- `create_miss_classification_jobs`, with the jobs that it reports for each item. -/
def Store.createMissClassificationJobs (store : Store) (env : Env) (batchId : UUID)
    (newId : UUID → String → UUID) :
    Except Error (Store × List (SimulationBatchItem × List AgentJob)) := do
  let classified ← store.validation.classify env newId (store.scoredItems batchId) store.jobs
  let marked := (classified.2.filter fun entry => entry.2 ≠ []).map fun entry => entry.1.id
  let items := update (fun item => item.id ∈ marked) (·.moveTo .missClassification) store.items
  return ({ store with items := items, jobs := classified.1 }, classified.2)

/-! ## The decision package -/

/-- The condition of the query of `build_decision_package`. -/
def AgentJob.Finished (job : AgentJob) (organizationId : UUID) : Prop :=
  job.organizationId = some organizationId ∧ job.jobType = "MISS_CLASSIFICATION" ∧
    (job.status = .succeeded ∨ job.status = .escalated)

instance (job : AgentJob) (organizationId : UUID) : Decidable (job.Finished organizationId) :=
  inferInstanceAs (Decidable (_ ∧ _))

def AgentJob.gapClass (job : AgentJob) : String :=
  (job.result.bind (·.primaryGapClass)).getD "UNSPECIFIED"

/-- One entry of `clusters`. -/
def clusterOf (gapClass : String) (jobs : List AgentJob) : GapCluster where
  gapClass := gapClass
  jobIds := jobs.map (·.id)
  simulationsAffected := ((jobs.filterMap (·.simulationId)).filter (· ≠ "")).dedup.insertionSort
    (· ≤ ·)
  jobCount := jobs.length

/-- The loop over the finished jobs. -/
def gapClusters (jobs : List AgentJob) : List GapCluster :=
  let read := jobs.filter (·.result ≠ none)
  (firsts (read.map (·.gapClass))).map fun gapClass => clusterOf gapClass
    (group (·.gapClass) read gapClass)

def SimulationBatchItem.packaged (item : SimulationBatchItem) : PackagedItem where
  simulationId := item.simulationId
  state := item.state
  truePositiveCount := item.truePositiveCount
  falsePositiveCount := item.falsePositiveCount
  falseNegativeCount := item.falseNegativeCount

/-- `build_decision_package` -/
def Store.buildDecisionPackage (store : Store) (batchId : UUID) :
    Except Error (Store × DecisionPackage) := do
  let batch ← store.getBatch batchId
  let package : DecisionPackage := {
    batchId := batchId
    items := (store.itemsOf batchId).map (·.packaged)
    gapClusters := gapClusters (store.jobs.filter fun job => job.Finished batch.organizationId) }
  let batches := update (fun b => b.id = batchId)
    (fun b => { b with decisionPackage := some package, status := .ownerReviewRequired })
    store.batches
  let items := update
    (fun item => item.batchId = batchId ∧ item.state = .missClassification)
    (·.moveTo .gapClustering) store.items
  return ({ store with batches := batches, items := items }, package)

/-- `pause_for_safety` -/
def Store.pauseForSafety (store : Store) (batchId : UUID) (reason : String) :
    Except Error Store := do
  let _ ← store.getBatch batchId
  let batches := update (fun b => b.id = batchId)
    (fun b => { b with status := .pausedSafetyGate, safetyGateReason := some reason })
    store.batches
  return { store with batches := batches }

/-! ## The service -/

/-- The calls of the controller, and what others do to the jobs and the validation results. -/
inductive Call
  | selectBatch (organizationId : UUID) (corpus : List Package) (name : String) (batchSize : ℕ)
      (batchId : UUID) (itemIds : List UUID)
  | prepareBatch (batchId : UUID) (prep : Preparation)
  | runBatch (batchId : UUID) (wave : Wave) (now : Instant)
  | createMissClassificationJobs (batchId : UUID) (newId : UUID → String → UUID)
  | buildDecisionPackage (batchId : UUID)
  | pauseForSafety (batchId : UUID) (reason : String)
  | jobsChanged (jobs : List AgentJob)
  | validated (validation : Validation)

/-- What they return. -/
inductive Reply
  | selected (batchId : UUID)
  | returned (raised : Option Error)
  | classified (jobs : List (SimulationBatchItem × List AgentJob))
  | packaged (package : DecisionPackage)

def Store.serve (env : Env) (store : Store) : Call → Except Error (Store × Reply)
  | .selectBatch organizationId corpus name batchSize batchId itemIds =>
    (store.selectBatch organizationId corpus name batchSize batchId itemIds).map
      (map id Reply.selected)
  | .prepareBatch batchId prep => (store.prepareBatch batchId prep).map (map id Reply.returned)
  | .runBatch batchId wave now => do
    ensure (store.validation.Extends wave.validation) .assertion
    (store.runBatch batchId wave now).map (map id Reply.returned)
  | .createMissClassificationJobs batchId newId =>
    (store.createMissClassificationJobs env batchId newId).map (map id Reply.classified)
  | .buildDecisionPackage batchId =>
    (store.buildDecisionPackage batchId).map (map id Reply.packaged)
  | .pauseForSafety batchId reason =>
    (store.pauseForSafety batchId reason).map fun store' => (store', .returned none)
  | .jobsChanged jobs => .ok ({ store with jobs := jobs }, .returned none)
  | .validated validation => do
    ensure (store.validation.Extends validation) .assertion
    return ({ store with validation := validation }, .returned none)

/-- The controller as a service. -/
def service (env : Env) : Service Store Call Reply Error := Store.serve env

/-- Nothing is stored. -/
def Store.empty : Store := ⟨[], [], [], ⟨[], [], [], [], [], [], []⟩⟩

end Intel4Ops.ValidationProgram
