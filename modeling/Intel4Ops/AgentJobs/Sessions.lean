import Intel4Ops.AgentJobs.Lifecycle

/-!
# Agent jobs: sessions

The operations of the service as the steps that the database sees. A session loads rows and commits
later: `claim_next` and `recover_stale` lock the rows they load (`FOR UPDATE SKIP LOCKED`), while
`submit_result` and `submit_failure` load without a lock and write by primary key. A commit writes
the columns that the session changed, and waits while another session locks the row. `heartbeat` is
one `UPDATE` with its guard. The owner's decisions, which write neither the status nor the lease,
are left out.
-/

namespace Intel4Ops.AgentJobs

open Lib List Table Prod

/-! ## Flushing a row -/

namespace AgentJob

/-- The column after a flush: written when the session changed it, as stored otherwise. -/
def flushed {α : Type} [DecidableEq α] (loaded modified stored : AgentJob) (column : AgentJob → α) :
    α :=
  if column modified = column loaded then column stored else column modified

/-- The row after a session that loaded `loaded` writes `modified` by primary key. -/
def flush (loaded modified stored : AgentJob) : AgentJob where
  id := flushed loaded modified stored (·.id)
  organizationId := flushed loaded modified stored (·.organizationId)
  jobType := flushed loaded modified stored (·.jobType)
  riskClass := flushed loaded modified stored (·.riskClass)
  status := flushed loaded modified stored (·.status)
  priority := flushed loaded modified stored (·.priority)
  evidencePlane := flushed loaded modified stored (·.evidencePlane)
  assignedWorker := flushed loaded modified stored (·.assignedWorker)
  assignedModel := flushed loaded modified stored (·.assignedModel)
  inputEvidenceRef := flushed loaded modified stored (·.inputEvidenceRef)
  resultRef := flushed loaded modified stored (·.resultRef)
  confidence := flushed loaded modified stored (·.confidence)
  escalationReason := flushed loaded modified stored (·.escalationReason)
  createdAt := flushed loaded modified stored (·.createdAt)
  startedAt := flushed loaded modified stored (·.startedAt)
  completedAt := flushed loaded modified stored (·.completedAt)
  failedAt := flushed loaded modified stored (·.failedAt)
  retryCount := flushed loaded modified stored (·.retryCount)
  executionTimeMs := flushed loaded modified stored (·.executionTimeMs)
  inputTokens := flushed loaded modified stored (·.inputTokens)
  outputTokens := flushed loaded modified stored (·.outputTokens)
  reasoningTokens := flushed loaded modified stored (·.reasoningTokens)
  errorCode := flushed loaded modified stored (·.errorCode)
  errorDetail := flushed loaded modified stored (·.errorDetail)
  ownerApprovalRequired := flushed loaded modified stored (·.ownerApprovalRequired)
  ownerApprovalStatus := flushed loaded modified stored (·.ownerApprovalStatus)
  executionLeaseId := flushed loaded modified stored (·.executionLeaseId)
  executionWorkerId := flushed loaded modified stored (·.executionWorkerId)
  heartbeatAt := flushed loaded modified stored (·.heartbeatAt)
  clientIdempotencyKey := flushed loaded modified stored (·.clientIdempotencyKey)

variable {loaded modified : AgentJob}

theorem flushed_of_eq {α : Type} [DecidableEq α] {stored : AgentJob} {column : AgentJob → α}
    (h : column stored = column loaded) :
    flushed loaded modified stored column = column modified := by
  by_cases hsame : column modified = column loaded
  · rw [flushed, if_pos hsame, h, hsame]
  · rw [flushed, if_neg hsame]

theorem flush_self (loaded modified : AgentJob) : loaded.flush modified loaded = modified := by
  simp only [flush, flushed_of_eq]

/-- The row with another heartbeat. -/
def withHeartbeat (beat : Option Instant) (job : AgentJob) : AgentJob :=
  { job with heartbeatAt := beat }

theorem flush_withHeartbeat (loaded modified : AgentJob) (beat : Option Instant) :
    loaded.flush modified (loaded.withHeartbeat beat) = modified.withHeartbeat
      (flushed loaded modified (loaded.withHeartbeat beat) (·.heartbeatAt)) := by
  simp only [flush, flushed_of_eq, withHeartbeat]

theorem flush_of_kept (h : modified.heartbeatAt = loaded.heartbeatAt) (beat : Option Instant) :
    loaded.flush modified (loaded.withHeartbeat beat) = modified.withHeartbeat beat := by
  rw [flush_withHeartbeat, flushed, if_pos h]
  rfl

theorem flush_of_written (h : modified.heartbeatAt ≠ loaded.heartbeatAt) (beat : Option Instant) :
    loaded.flush modified (loaded.withHeartbeat beat) = modified := by
  rw [flush_withHeartbeat, flushed, if_neg h]
  rfl

end AgentJob

/-- A session writes the rows that it loaded, each modified by `f`. -/
def flushRows (loaded : List AgentJob) (f : AgentJob → AgentJob) (jobs : List AgentJob) :
    List AgentJob :=
  jobs.map fun stored =>
    match loaded.find? (·.id = stored.id) with
    | some row => row.flush (f row) stored
    | none => stored

/-- What the commit of a session leaves in the tables. -/
def writeBack (db : Db) (loaded : List AgentJob) (f : AgentJob → AgentJob)
    (types : AgentJob → List AgentJobEventType) : Db :=
  { jobs := flushRows loaded f db.jobs
    events := db.events ++ loaded.flatMap fun row => (types row).map (⟨row.id, ·⟩) }

variable {f : AgentJob → AgentJob} {tx : TxId} {w w' : World} {u : Unit}

theorem flushRows_eq_update {loaded jobs : List AgentJob}
    (h : ∀ row ∈ loaded, ∀ stored ∈ jobs, stored.id = row.id → row.flush (f row) stored = f stored)
    :
    flushRows loaded f jobs = update (fun job => job.id ∈ loaded.map (·.id)) f jobs := by
  refine map_congr_left fun stored hstored => ?_
  split
  case h_1 row hrow =>
    obtain ⟨hmem, hid⟩ := find?_spec hrow
    rw [if_pos (decide_eq_true (hid ▸ mem_map_of_mem hmem)), h row hmem stored hstored hid.symm]
  case h_2 hnone =>
    rw [if_neg]
    intro hin
    obtain ⟨row, hmem, hid⟩ := mem_map.1 (of_decide_eq_true hin)
    simpa [hid] using List.find?_eq_none.1 hnone row hmem

theorem mem_flushRows {loaded jobs : List AgentJob} {job : AgentJob} (hj : job ∈ jobs)
    (hfree : ∀ row ∈ loaded, row.id ≠ job.id) : job ∈ flushRows loaded f jobs := by
  refine mem_map.2 ⟨job, hj, ?_⟩
  have hnone : loaded.find? (·.id = job.id) = none := by
    rw [List.find?_eq_none]
    intro row hrow
    simpa using hfree row hrow
  rw [hnone]

/-! ## Sessions -/

/-- The name of a database session. -/
abbrev TxId := Nat

/-- What a worker reports about its job. -/
inductive Submission
  | result (raw : RawResult) (telemetry : Telemetry)
  | failure (code detail : String) (retryable : Bool)

namespace Submission

/-- The columns that the submission writes; `job` is the row that the session has loaded. -/
def columns (submission : Submission) (reference : String) (job : AgentJob) :
    Except AgentJobError Unit :=
  match submission with
  | .result raw telemetry => resultColumns raw telemetry reference
  | .failure code _ retryable => failureColumns code retryable job

def write (submission : Submission) (reference : String) (now : Instant) (job : AgentJob) :
    AgentJob :=
  match submission with
  | .result raw telemetry => job.submitResult raw telemetry reference now
  | .failure code detail retryable => job.submitFailure code detail retryable now

def events (submission : Submission) (job : AgentJob) : List AgentJobEventType :=
  match submission with
  | .result raw _ => job.submitResultEvents raw
  | .failure _ _ retryable => job.submitFailureEvents retryable

end Submission

/-- A session between its read and its commit, with the rows that it has loaded. -/
inductive Session
  | claiming (credential : AgentWorkerCredential) (job : AgentJob)
  | recovering (stale : List AgentJob)
  | submitting (claim : AgentJobClaim) (submission : Submission) (job : AgentJob)

def Session.locked : Session → List AgentJob
  | claiming _ job => [job]
  | recovering stale => stale
  | submitting _ _ _ => []

/-- The tables and the open sessions. -/
structure World where
  db : Db
  sessions : List (TxId × Session)

def World.empty : World := ⟨Db.empty, []⟩

/-- Some session has locked the row. -/
def World.Locked (w : World) (jobId : UUID) : Prop :=
  ∃ s ∈ w.sessions, ∃ job ∈ s.2.locked, job.id = jobId

instance (w : World) (jobId : UUID) : Decidable (w.Locked jobId) :=
  inferInstanceAs (Decidable (∃ s ∈ w.sessions, _))

def World.session (w : World) (tx : TxId) : Option Session :=
  (w.sessions.find? (·.1 = tx)).map (·.2)

/-- The session ends with the tables `db`. -/
def World.finish (w : World) (tx : TxId) (db : Db) : World := ⟨db, w.sessions.filter (·.1 ≠ tx)⟩

/-- Why a step is not taken. -/
inductive Blocked
  | service (error : AgentJobError)
  | sessionInUse
  | noSession
  | nothingQueued
  | rowLocked

/-- Open a session that has loaded its rows. -/
def World.load (w : World) (tx : TxId) (s : Session) : Except Blocked (World × Unit) := do
  let sessions ← orFail (insert (fun a b => a.1 = b.1) (tx, s) w.sessions) .sessionInUse
  return ({ w with sessions }, ())

/-- A failure of the service, or its result. -/
def served {α : Type} : Except AgentJobError α → Except Blocked α
  | .ok a => .ok a
  | .error e => .error (.service e)

/-! ## Steps -/

/-- What a session does next; `drawn` values and times are those of the step. -/
inductive Action
  | createJob (org : Option UUID) (payload : AgentJobCreate) (id : UUID) (reference : String)
      (now : Instant)
  | claimRead (tx : TxId) (credential : AgentWorkerCredential)
  | claimCommit (tx : TxId) (lease : UUID) (now : Instant)
  | heartbeat (claim : AgentJobClaim) (now : Instant)
  | recoverRead (tx : TxId) (now staleAfter : Instant) (limit : Nat)
  | recoverCommit (tx : TxId) (now : Instant)
  | submitRead (tx : TxId) (claim : AgentJobClaim) (submission : Submission)
  | submitCommit (tx : TxId) (reference : String) (now : Instant)
  | rollback (tx : TxId)

/-- The commit of `claim_next`. -/
def claimCommit (w : World) (tx : TxId) (lease : UUID) (now : Instant) :
    Except Blocked (World × Unit) :=
  match w.session tx with
  | some (.claiming credential job) =>
    .ok (w.finish tx (writeBack w.db [job] (.claim lease credential.workerId now)
      fun _ => [.claimed, .started]), ())
  | _ => .error .noSession

/-- The commit of `recover_stale`. -/
def recoverCommit (w : World) (tx : TxId) (now : Instant) : Except Blocked (World × Unit) :=
  match w.session tx with
  | some (.recovering stale) =>
    .ok (w.finish tx (writeBack w.db stale (.recover now) fun job => [job.recoverEvent]), ())
  | _ => .error .noSession

/-- The commit of `submit_result` and of `submit_failure`, which waits for the row. -/
def submitCommit (w : World) (tx : TxId) (reference : String) (now : Instant) :
    Except Blocked (World × Unit) :=
  match w.session tx with
  | some (.submitting _ submission job) => do
    served (submission.columns reference job)
    ensure (¬ w.Locked job.id) .rowLocked
    return (w.finish tx (writeBack w.db [job] (submission.write reference now)
      submission.events), ())
  | _ => .error .noSession

/-- One step of one session. -/
def step : Service World Action Unit Blocked := fun w a =>
  match a with
  | .createJob org payload id reference now => do
    let created ← served (createJob w.db org payload id reference now)
    return ({ w with db := created.1 }, ())
  | .claimRead tx credential => do
    let job ← orFail (nextJob w.db.jobs credential fun job => ¬ w.Locked job.id) .nothingQueued
    w.load tx (.claiming credential job)
  | .claimCommit tx lease now => claimCommit w tx lease now
  | .heartbeat claim now => do
    ensure (∀ job ∈ w.db.jobs, job.HeldBy claim → ¬ w.Locked job.id) .rowLocked
    return ({ w with db := (heartbeat w.db claim now).1 }, ())
  | .recoverRead tx now staleAfter limit =>
    w.load tx (.recovering (staleJobs w.db.jobs now staleAfter limit fun job => ¬ w.Locked job.id))
  | .recoverCommit tx now => recoverCommit w tx now
  | .submitRead tx claim submission => do
    let job ← served (heldJob w.db claim)
    w.load tx (.submitting claim submission job)
  | .submitCommit tx reference now => submitCommit w tx reference now
  | .rollback tx => .ok (w.finish tx w.db, ())

/-! ## What a step does -/

def Session.LoadedFrom (w : World) : Session → Prop
  | .claiming _ job => job ∈ w.db.jobs ∧ job.status = .queued ∧ ¬ w.Locked job.id
  | .recovering stale => Unique (·.id) stale ∧
      ∀ job ∈ stale, job ∈ w.db.jobs ∧ job.status = .running ∧ ¬ w.Locked job.id
  | .submitting claim _ job => job ∈ w.db.jobs ∧ job.HeldBy claim

/-- What one step does to the tables and the sessions. -/
inductive WorldStep (w : World) (a : Action) : World → Prop
  | create (org : Option UUID) (payload : AgentJobCreate) (id : UUID) (reference : String)
      (now : Instant) (db : Db) (job : AgentJob)
      (h : createJob w.db org payload id reference now = .ok (db, job)) :
      WorldStep w a { w with db }
  | load (tx : TxId) (s : Session) (h : s.LoadedFrom w) :
      WorldStep w a { w with sessions := w.sessions ++ [(tx, s)] }
  | beat (claim : AgentJobClaim) (now : Instant)
      (hfree : ∀ job ∈ w.db.jobs, job.HeldBy claim → ¬ w.Locked job.id) :
      WorldStep w a { w with db := (heartbeat w.db claim now).1 }
  | claim (tx : TxId) (credential : AgentWorkerCredential) (job : AgentJob) (lease : UUID)
      (now : Instant) (hs : (tx, .claiming credential job) ∈ w.sessions) :
      WorldStep w a (w.finish tx (writeBack w.db [job] (.claim lease credential.workerId now)
        fun _ => [.claimed, .started]))
  | recover (tx : TxId) (stale : List AgentJob) (now : Instant)
      (hs : (tx, .recovering stale) ∈ w.sessions) :
      WorldStep w a (w.finish tx (writeBack w.db stale (.recover now) fun job => [job.recoverEvent]))
  | submit (tx : TxId) (claim : AgentJobClaim) (submission : Submission) (job : AgentJob)
      (reference : String) (now : Instant) (ha : a = .submitCommit tx reference now)
      (hs : w.session tx = some (.submitting claim submission job))
      (hcolumns : submission.columns reference job = .ok ()) (hfree : ¬ w.Locked job.id) :
      WorldStep w a (w.finish tx (writeBack w.db [job] (submission.write reference now)
        submission.events))
  | rollback (tx : TxId) : WorldStep w a (w.finish tx w.db)

@[simp] theorem served_eq_ok {α : Type} {x : Except AgentJobError α} {a : α} :
    served x = .ok a ↔ x = .ok a := by
  cases x <;> simp [served]

theorem World.mem_of_session {s : Session} (h : w.session tx = some s) : (tx, s) ∈ w.sessions := by
  obtain ⟨⟨tx', s'⟩, hfind, rfl⟩ := Option.map_eq_some_iff.1 h
  obtain ⟨hmem, rfl⟩ := find?_spec hfind
  exact hmem

theorem World.load_ok {s : Session} (h : w.load tx s = .ok (w', u)) :
    w' = { w with sessions := w.sessions ++ [(tx, s)] } := by
  simp only [World.load, bind_eq_ok, orFail_eq_ok, insert_eq_some, pure_eq_ok] at h
  obtain ⟨_, ⟨-, rfl⟩, rfl, -⟩ := h
  rfl

theorem submitCommit_ok {reference : String} {now : Instant} {claim : AgentJobClaim}
    {submission : Submission} {job : AgentJob}
    (hs : w.session tx = some (.submitting claim submission job))
    (h : submitCommit w tx reference now = .ok (w', u)) :
    submission.columns reference job = .ok () ∧ ¬ w.Locked job.id ∧
      w' = w.finish tx (writeBack w.db [job] (submission.write reference now)
        submission.events) := by
  simp only [submitCommit, hs, bind_eq_ok, served_eq_ok, ensure_eq_ok, pure_eq_ok, mk.injEq] at h
  obtain ⟨_, hcolumns, _, hfree, rfl, -⟩ := h
  exact ⟨hcolumns, hfree, rfl⟩

theorem step_worldStep {a : Action} (hunique : Unique (·.id) w.db.jobs)
    (h : step w a = .ok (w', u)) : WorldStep w a w' := by
  unfold step at h
  split at h
  case h_1 org payload id reference now =>
    simp only [bind_eq_ok, served_eq_ok, pure_eq_ok, mk.injEq] at h
    obtain ⟨⟨db, job⟩, hcreate, rfl, -⟩ := h
    exact .create org payload id reference now db job hcreate
  case h_2 tx credential =>
    simp only [bind_eq_ok, orFail_eq_ok] at h
    obtain ⟨job, hnext, hload⟩ := h
    obtain ⟨hmem, ⟨hqueued, -⟩, hfree⟩ := nextJob_some hnext
    rw [World.load_ok hload]
    exact .load tx (.claiming credential job) ⟨hmem, hqueued, of_decide_eq_true hfree⟩
  case h_3 tx lease now =>
    unfold claimCommit at h
    split at h
    case h_1 credential job hs =>
      obtain rfl := congrArg fst (Except.ok.inj h)
      exact .claim tx credential job lease now (World.mem_of_session hs)
    case h_2 => cases h
  case h_4 claim now =>
    simp only [bind_eq_ok, ensure_eq_ok, pure_eq_ok, mk.injEq] at h
    obtain ⟨_, hfree, rfl, -⟩ := h
    exact .beat claim now hfree
  case h_5 tx now staleAfter limit =>
    rw [World.load_ok h]
    refine .load tx _ ⟨staleJobs_unique hunique now staleAfter limit _, fun job hj => ?_⟩
    obtain ⟨hmem, ⟨hrunning, -⟩, hfree⟩ := mem_staleJobs hj
    exact ⟨hmem, hrunning, of_decide_eq_true hfree⟩
  case h_6 tx now =>
    unfold recoverCommit at h
    split at h
    case h_1 stale hs =>
      obtain rfl := congrArg fst (Except.ok.inj h)
      exact .recover tx stale now (World.mem_of_session hs)
    case h_2 => cases h
  case h_7 tx claim submission =>
    simp only [bind_eq_ok, served_eq_ok] at h
    obtain ⟨job, hheld, hload⟩ := h
    rw [World.load_ok hload]
    exact .load tx (.submitting claim submission job) (heldJob_ok hheld)
  case h_8 tx reference now =>
    cases hs : w.session tx with
    | none => simp [submitCommit, hs] at h
    | some session =>
      cases session with
      | claiming | recovering => simp [submitCommit, hs] at h
      | submitting claim submission job =>
        obtain ⟨hcolumns, hfree, rfl⟩ := submitCommit_ok hs h
        exact .submit tx claim submission job reference now rfl hs hcolumns hfree
  case h_9 tx =>
    obtain rfl := congrArg fst (Except.ok.inj h)
    exact .rollback tx

/-! ## Undisturbed sessions -/

theorem writeBack_singleton {db : Db} {loaded : AgentJob}
    {types : AgentJob → List AgentJobEventType}
    (h : ∀ stored ∈ db.jobs, stored.id = loaded.id → loaded.flush (f loaded) stored = f stored) :
    writeBack db [loaded] f types = writeJob db loaded.id f (types loaded) := by
  have hjobs : flushRows [loaded] f db.jobs =
      update (fun job => job.id ∈ [loaded].map (·.id)) f db.jobs := by
    refine flushRows_eq_update fun row hrow => ?_
    rw [mem_singleton.1 hrow]
    exact h
  rw [writeBack, hjobs]
  simp [writeJob, recordEvents]

theorem writeBack_stored {db : Db} (hunique : Unique (·.id) db.jobs) {loaded : AgentJob}
    (hmem : loaded ∈ db.jobs) (f : AgentJob → AgentJob)
    (types : AgentJob → List AgentJobEventType) :
    writeBack db [loaded] f types = writeJob db loaded.id f (types loaded) := by
  refine writeBack_singleton fun stored hstored hid => ?_
  obtain rfl := hunique.eq_of_key_eq hstored hmem hid
  exact AgentJob.flush_self stored (f stored)

theorem writeBack_recover {db : Db} (hunique : Unique (·.id) db.jobs)
    {stale : List AgentJob} (hstored : ∀ job ∈ stale, job ∈ db.jobs) (now : Instant) :
    writeBack db stale (.recover now) (fun job => [job.recoverEvent]) =
      recoverJobs db stale now := by
  have hjobs : flushRows stale (.recover now) db.jobs =
      update (fun job => job.id ∈ stale.map (·.id)) (.recover now) db.jobs := by
    refine flushRows_eq_update fun row hrow stored hmem hid => ?_
    obtain rfl := hunique.eq_of_key_eq hmem (hstored row hrow) hid
    exact AgentJob.flush_self stored _
  rw [writeBack, hjobs]
  simp [recoverJobs, map_eq_flatMap]

end Intel4Ops.AgentJobs
