import Intel4Ops.Mapping.Calls

/-!
# Mapping runs: sessions

The operations on queued runs as the steps that the database sees. `execute_claimed` reads its run,
maps the records in a transaction of its own, and commits with a compare-and-set on the status and
the lease; `fail` and `retry` read, and write later. Claims, heartbeats, sweeps and `fail_claimed`
lock the rows that they write, or are single updates with their guard, so each is one step; a claim
or a sweep skips the rows that others have locked.
-/

namespace Intel4Ops.Mapping

open Lib Table

/-! ## What a worker is about to write -/

/-- The rows that the records of a run add, and the surviving links that they set. -/
structure Work where
  entities : List CanonicalEntity
  survivors : List (UUID × UUID)
  (events metrics : List CanonicalOccurrence)
  results : List MappingRecordResult
  links : List SourceCanonicalLink
  candidates : List EntityMatchCandidate
  exceptions : List MappingException

/-- The stored entities whose surviving link is another one in the worker's transaction. -/
def survivorsOf (db mapped : Db) : List (UUID × UUID) :=
  (mapped.entities.take db.entities.length).filterMap fun e =>
    if db.entities.any fun e' => e'.id = e.id ∧
        e'.survivorshipSourceLinkId = e.survivorshipSourceLinkId then none
    else e.survivorshipSourceLinkId.map fun link => (e.id, link)

/-- What a worker's transaction adds to the tables that it started from. -/
def workOf (db mapped : Db) : Work where
  entities := mapped.entities.drop db.entities.length
  survivors := survivorsOf db mapped
  events := mapped.events.drop db.events.length
  metrics := mapped.metrics.drop db.metrics.length
  results := mapped.results.drop db.results.length
  links := mapped.links.drop db.links.length
  candidates := mapped.candidates.drop db.candidates.length
  exceptions := mapped.exceptions.drop db.exceptions.length

/-- Write surviving links by primary key. -/
def writeSurvivors (entities : List CanonicalEntity) (survivors : List (UUID × UUID)) :
    List CanonicalEntity :=
  survivors.foldl (fun es s => update (fun e => e.id = s.1)
    (fun e => { e with survivorshipSourceLinkId := some s.2 }) es) entities

/-- The tables with the rows of the work, unless a row clashes with one that was stored since. -/
def Work.write (work : Work) (db : Db) : Raises Db := do
  let entities ← orFail (insertAll CanonicalEntity.Clashes work.entities db.entities) .integrity
  let events ← orFail (insertAll CanonicalOccurrence.Clashes work.events db.events) .integrity
  let metrics ← orFail (insertAll CanonicalOccurrence.Clashes work.metrics db.metrics) .integrity
  let results ← orFail (insertAll MappingRecordResult.Clashes work.results db.results) .integrity
  let links ← orFail (insertAll SourceCanonicalLink.Clashes work.links db.links) .integrity
  return { db with
    entities := writeSurvivors entities work.survivors
    events
    metrics
    results
    links
    candidates := db.candidates ++ work.candidates
    exceptions := db.exceptions ++ work.exceptions }

/-- The columns that the compare-and-set of `execute_claimed` writes. -/
def MappingRun.settled (row counted : MappingRun) : MappingRun :=
  { row with
    status := counted.finalStatus
    mappedCount := counted.mappedCount
    exceptionCount := counted.exceptionCount
    rejectedCount := counted.rejectedCount
    executionLeaseId := none
    executionWorkerId := none }

/-- The commit of `execute_claimed`: `none` when the lease is lost, and the work is rolled back. -/
def settleRun (db : Db) (claim : MappingExecutionClaim) (counted : MappingRun) (work : Work) :
    Raises (Option Db) := do
  let written ← work.write db
  if db.runs.any fun r => r.HeldBy claim then
    return some { written with
      runs := update (fun r => r.HeldBy claim) (·.settled counted) db.runs }
  else return none

/-! ## Sessions -/

/-- The name of a database session. -/
abbrev TxId := ℕ

/-- A session between its read and its commit. -/
inductive Session
  | executing (claim : MappingExecutionClaim) (run : MappingRun) (version : MappingTemplateVersion)
      (inputs : List MappingInputRecord)
  | finishing (claim : MappingExecutionClaim) (counted : MappingRun) (work : Work)
  | aborting (claim : MappingExecutionClaim) (code : String)
  | failing (runId : UUID) (code : String) (retryable : Bool)
  | retrying (organizationId : UUID) (predecessor : MappingRun) (inputs : List MappingRunInput)
      (key : String)

/-- The tables and the open sessions. -/
structure World where
  db : Db
  sessions : List (TxId × Session)

def World.session (w : World) (tx : TxId) : Option Session :=
  (w.sessions.find? (·.1 = tx)).map (·.2)

/-- Why a step is not taken. -/
inductive Blocked
  | service (error : Raised)
  | sessionInUse
  | noSession

/-- A failure of the service, or its result. -/
def served {α : Type} : Raises α → Except Blocked α
  | .ok a => .ok a
  | .error e => .error (.service e)

/-- Open a session. -/
def World.load (w : World) (tx : TxId) (s : Session) : Except Blocked (World × Unit) := do
  let sessions ← orFail (insert (fun a b => a.1 = b.1) (tx, s) w.sessions) .sessionInUse
  return ({ w with sessions }, ())

/-- The session goes on as `s`, over the tables `db`. -/
def World.proceed (w : World) (tx : TxId) (s : Session) (db : Db) : World :=
  ⟨db, w.sessions.filter (·.1 ≠ tx) ++ [(tx, s)]⟩

/-- The session ends with the tables `db`. -/
def World.finish (w : World) (tx : TxId) (db : Db) : World := ⟨db, w.sessions.filter (·.1 ≠ tx)⟩

/-! ## Steps -/

inductive Action
  | submit (organizationId : UUID) (payload : MappingRunCreate) (requestFingerprint : String)
      (now : Instant)
  | claimNext (locked : List UUID) (workerId : String) (now : Instant)
  | claimRun (locked : List UUID) (organizationId runId : UUID) (workerId : String) (now : Instant)
  | heartbeat (claim : MappingExecutionClaim) (now : Instant)
  | recoverStale (locked : List UUID) (now : Instant) (staleAfter : ℤ) (limit : ℕ)
  | failClaimed (claim : MappingExecutionClaim) (code : String) (retryable : Bool)
  | executeRead (tx : TxId) (claim : MappingExecutionClaim)
  | executeWork (tx : TxId) (now : Instant)
  | failRead (tx : TxId) (organizationId runId : UUID) (code : String) (retryable : Bool)
  | retryRead (tx : TxId) (organizationId runId : UUID) (key : String)
  | commit (tx : TxId) (now : Instant)
  | rollback (tx : TxId)

/-- What `execute_claimed` reads. -/
def readExecution (db : Db) (claim : MappingExecutionClaim) : Raises Session := do
  let run ← orFail (db.runs.find? fun r => r.HeldBy claim) (.service "MAPPING_EXECUTION_LEASE_LOST")
  let version ← requireVersion db run.templateVersionId claim.organizationId
  return .executing claim run version (inputsOf db claim.organizationId run.id)

/-- The records of a run are mapped, in a transaction that draws its identifiers. -/
def executeWork (env : Env) (w : World) (tx : TxId) : Except Blocked (World × Unit) :=
  match w.session tx with
  | some (.executing claim run version inputs) =>
    match mapRecords env version w.db run inputs with
    | .ok (mapped, counted) => .ok (w.proceed tx
        (.finishing claim counted (workOf w.db mapped)) { w.db with nextId := mapped.nextId }, ())
    | .error e => .ok (w.proceed tx (.aborting claim (failureCode e)) w.db, ())
  | _ => .error .noSession

/-- What the commit of a session leaves. -/
def commit (w : World) (tx : TxId) (now : Instant) : Except Blocked (World × Unit) :=
  match w.session tx with
  | some (.finishing claim counted work) =>
    match settleRun w.db claim counted work with
    | .ok outcome => .ok (w.finish tx (outcome.getD w.db), ())
    | .error e => .ok (w.proceed tx (.aborting claim (failureCode e)) w.db, ())
  | some (.aborting claim code) =>
    .ok (w.finish tx ((failClaimed w.db claim code false).getD w.db), ())
  | some (.failing runId code retryable) =>
    .ok (w.finish tx (writeFailing w.db runId code retryable), ())
  | some (.retrying org predecessor inputs key) =>
    match writeRetry w.db org predecessor inputs key now with
    | .ok p => .ok (w.finish tx p.1, ())
    | .error _ => .ok (w.finish tx w.db, ())
  | _ => .error .noSession

/-- What `retry` reads opens a session, unless there is nothing to write. -/
def retryRead (w : World) (tx : TxId) (organizationId runId : UUID) (key : String) :
    Except Blocked (World × Unit) := do
  match ← served (readRetry w.db organizationId runId key) with
  | .found _ => return (w, ())
  | .retryable predecessor inputs =>
    w.load tx (.retrying organizationId predecessor inputs key)

/-- One step of one session. -/
def step (env : Env) : Service World Action Unit Blocked := fun w a =>
  match a with
  | .submit org payload print now => do
    let submitted ← served (submit w.db org payload print now)
    return ({ w with db := submitted.1 }, ())
  | .claimNext locked workerId now =>
    .ok ({ w with db := ((claimNext w.db locked workerId now).map (·.1)).getD w.db }, ())
  | .claimRun locked org runId workerId now => do
    let claimed ← served (claimRun w.db locked org runId workerId now)
    return ({ w with db := claimed.1 }, ())
  | .heartbeat claim now => .ok ({ w with db := (heartbeat w.db claim now).1 }, ())
  | .recoverStale locked now staleAfter limit =>
    .ok ({ w with db := (recoverStale w.db locked now staleAfter limit).1 }, ())
  | .failClaimed claim code retryable =>
    .ok ({ w with db := (failClaimed w.db claim code retryable).getD w.db }, ())
  | .executeRead tx claim => do
    let session ← served (readExecution w.db claim)
    w.load tx session
  | .executeWork tx now => executeWork (env.at now) w tx
  | .failRead tx org runId code retryable => do
    let run ← served (readFailing w.db org runId)
    w.load tx (.failing run.id code retryable)
  | .retryRead tx org runId key => retryRead w tx org runId key
  | .commit tx now => commit w tx now
  | .rollback tx => .ok (w.finish tx w.db, ())

end Intel4Ops.Mapping
