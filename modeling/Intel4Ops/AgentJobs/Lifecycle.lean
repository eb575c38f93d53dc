import Intel4Ops.AgentJobs.Model

/-!
# Agent jobs: the lifecycle of a job

Requests are served one at a time. `Move` lists what a request can do to one job together with the
events it records, and `LifecycleStep` lifts it to the tables: a request adds a job, or moves the
stored ones. The counts of retries and claims, the lease of a running job and the owner gate are
read off the moves.
-/

namespace Intel4Ops.AgentJobs

open Lib List Table Service Except

/-! ## Moves of one job -/

variable {db db' : Db}

/-- The events of a job, oldest first. -/
def jobEvents (db : Db) (jobId : UUID) : List AgentJobEventType :=
  (db.events.filter (·.agentJobId = jobId)).map (·.eventType)

/-- What one request can do to a job, with the events it records. -/
inductive Move (job : AgentJob) : List AgentJobEventType → AgentJob → Prop
  | idle : Move job [] job
  | claim (lease : UUID) (worker : String) (now : Instant) (h : job.status = .queued) :
      Move job [.claimed, .started] (job.claim lease worker now)
  | beat (now : Instant) (h : job.status = .running) : Move job [] (job.beat now)
  | requeue (h : job.status = .running) (hretry : job.retryCount < 3) :
      Move job [.retried] job.requeue
  | timeOut (now : Instant) (h : job.status = .running) (hretry : ¬ job.retryCount < 3) :
      Move job [.timedOut] (job.recover now)
  | submit (raw : RawResult) (telemetry : Telemetry) (reference : String) (now : Instant)
      (h : job.status = .running) :
      Move job (job.submitResultEvents raw) (job.submitResult raw telemetry reference now)
  | fail (code detail : String) (now : Instant) (h : job.status = .running) :
      Move job [.failed] (job.failWith now code detail)
  | decide (approve : Bool) (hrequired : job.ownerApprovalRequired = true)
      (hpending : job.ownerApprovalStatus = .pending) :
      Move job [if approve then .ownerApproved else .ownerRejected] (job.ownerDecision approve)

/-- What one committed request does to the tables. -/
inductive LifecycleStep (db db' : Db) : Prop
  | create (org : Option UUID) (payload : AgentJobCreate) (id : UUID) (reference : String)
      (now : Instant) (hfresh : ∀ job ∈ db.jobs, job.id ≠ id)
      (hjobs : db'.jobs = db.jobs ++ [newJob org payload id reference now])
      (hevents : db'.events = db.events ++ (newJobEvents payload).map (⟨id, ·⟩))
  | moves (f : AgentJob → AgentJob) (types : AgentJob → List AgentJobEventType)
      (hmove : ∀ job ∈ db.jobs, Move job (types job) (f job)) (hjobs : db'.jobs = db.jobs.map f)
      (hevents : ∀ job ∈ db.jobs, jobEvents db' job.id = jobEvents db job.id ++ types job)
      (hstored : ∀ e ∈ db'.events, e ∈ db.events ∨ ∃ job ∈ db.jobs, job.id = e.agentJobId)

variable {job' : AgentJob} {types : List AgentJobEventType} {now : Instant} {org : Option UUID}

theorem Move.id_eq {job : AgentJob} (h : Move job types job') :
    job'.id = job.id ∧ job'.riskClass = job.riskClass := by
  cases h with
  | idle | claim | beat | requeue | fail | decide => exact ⟨rfl, rfl⟩
  | timeOut now h hretry =>
    rw [AgentJob.recover, if_neg hretry]
    exact ⟨rfl, rfl⟩
  | submit raw telemetry reference now h =>
    unfold AgentJob.submitResult AgentJob.escalate
    cases raw with
    | malformed error => exact ⟨rfl, rfl⟩
    | structured result =>
      dsimp only
      split
      · exact ⟨rfl, rfl⟩
      · split
        · exact ⟨rfl, rfl⟩
        · exact ⟨rfl, rfl⟩

/-! ## The moves of a request -/

theorem jobEvents_recordEvents (db : Db) (jobId id : UUID) (types : List AgentJobEventType) :
    jobEvents (recordEvents db jobId types) id =
      jobEvents db id ++ if jobId = id then types else [] := by
  rw [jobEvents, recordEvents, filter_append, map_append, ← jobEvents]
  congr 1
  by_cases h : jobId = id
  · have hall : (types.map (⟨jobId, ·⟩ : AgentJobEventType → AgentJobEvent)).filter
        (·.agentJobId = id) = types.map (⟨jobId, ·⟩) := by
      rw [filter_eq_self]
      intro e he
      obtain ⟨t, -, rfl⟩ := mem_map.1 he
      exact decide_eq_true h
    rw [if_pos h, hall, map_map]
    exact map_id _
  · have hnone : (types.map (⟨jobId, ·⟩ : AgentJobEventType → AgentJobEvent)).filter
        (·.agentJobId = id) = [] := by
      rw [filter_eq_nil_iff]
      intro e he
      obtain ⟨t, -, rfl⟩ := mem_map.1 he
      simpa using h
    rw [if_neg h, hnone]
    rfl

theorem writeJob_step (hunique : Table.Unique (·.id) db.jobs) {job : AgentJob}
    (hmem : job ∈ db.jobs) {f : AgentJob → AgentJob} (hmove : Move job types (f job)) :
    LifecycleStep db (writeJob db job.id f types) := by
  refine .moves (fun j => if j.id = job.id then f j else j)
    (fun j => if j.id = job.id then types else []) (fun j hj => ?_) ?_ (fun j hj => ?_)
    fun e he => ?_
  · by_cases hid : j.id = job.id
    · obtain rfl := hunique.eq_of_key_eq hj hmem hid
      simpa using hmove
    · simpa [hid] using Move.idle
  · simp [writeJob, recordEvents, update]
  · rw [writeJob, jobEvents_recordEvents]
    congr 1
    simp only [eq_comm]
  · rw [writeJob, recordEvents, mem_append] at he
    rcases he with he | he
    · exact .inl he
    · obtain ⟨t, -, rfl⟩ := mem_map.1 he
      exact .inr ⟨job, hmem, rfl⟩

theorem LifecycleStep.same (db : Db) : LifecycleStep db db := by
  refine .moves id (fun _ => []) (fun _ _ => .idle) (map_id _).symm (fun _ _ => ?_)
    fun e he => .inl he
  rw [append_nil]

theorem nextJob_some {jobs : List AgentJob} {credential : AgentWorkerCredential}
    {free : AgentJob → Bool} {job : AgentJob} (h : nextJob jobs credential free = some job) :
    job ∈ jobs ∧ job.ClaimableBy credential ∧ free job = true := by
  have hmem := mem_of_mem_head? (Option.mem_def.2 h)
  rw [mem_insertionSort, mem_filter, decide_eq_true_eq] at hmem
  exact hmem

theorem mem_staleJobs {jobs : List AgentJob} {staleAfter : Instant} {limit : Nat}
    {free : AgentJob → Bool} {job : AgentJob} (h : job ∈ staleJobs jobs now staleAfter limit free) :
    job ∈ jobs ∧ job.Stale now staleAfter ∧ free job = true := by
  have hmem := mem_of_mem_take h
  rw [mem_insertionSort, mem_filter, decide_eq_true_eq] at hmem
  exact hmem

theorem staleJobs_unique {jobs : List AgentJob} (hunique : Table.Unique (·.id) jobs)
    (now staleAfter : Instant) (limit : Nat) (free : AgentJob → Bool) :
    Table.Unique (·.id) (staleJobs jobs now staleAfter limit free) := by
  have hperm := (perm_insertionSort AgentJob.StaleBefore
    (jobs.filter fun job => job.Stale now staleAfter ∧ free job)).map (·.id)
  have hsorted := hperm.symm.nodup (hunique.filter _)
  exact hsorted.sublist ((take_sublist limit _).map _)

theorem claimNext_step (hunique : Table.Unique (·.id) db.jobs)
    (credential : AgentWorkerCredential) (lease : UUID) (now : Instant) :
    LifecycleStep db (claimNext db credential lease now).1 := by
  unfold claimNext
  split
  case h_1 => exact .same db
  case h_2 job hnext =>
    obtain ⟨hmem, ⟨hqueued, -⟩, -⟩ := nextJob_some hnext
    exact writeJob_step hunique hmem (.claim lease credential.workerId now hqueued)

theorem heartbeat_step (claim : AgentJobClaim) (now : Instant) :
    LifecycleStep db (heartbeat db claim now).1 := by
  refine .moves (fun job => if job.HeldBy claim then job.beat now else job) (fun _ => [])
    (fun job hj => ?_) ?_ (fun job hj => ?_) fun e he => .inl he
  · by_cases hheld : job.HeldBy claim
    · rw [if_pos hheld]
      exact .beat now hheld.2.1
    · rw [if_neg hheld]
      exact .idle
  · simp [heartbeat, update]
  · rw [append_nil]
    rfl

section

variable (hunique : Table.Unique (·.id) db.jobs)
include hunique

theorem jobEvents_recoverJobs {stale : List AgentJob} (hstored : ∀ job ∈ stale, job ∈ db.jobs)
    (hstale : Table.Unique (·.id) stale) (now : Instant) {job : AgentJob} (hj : job ∈ db.jobs) :
    jobEvents (recoverJobs db stale now) job.id =
      jobEvents db job.id ++ if job ∈ stale then [job.recoverEvent] else [] := by
  rw [jobEvents, recoverJobs, filter_append, map_append, ← jobEvents, filter_map, map_map]
  congr 1
  have hrows : (stale.filter fun s => s.id = job.id) = if job ∈ stale then [job] else [] := by
    by_cases hmem : job ∈ stale
    · rw [if_pos hmem, hstale.filter_eq_toList (by simp_all),
        hstale.find?_eq_some hmem (by simp) (by simp)]
      rfl
    · rw [if_neg hmem, filter_eq_nil_iff]
      intro s hs hid
      obtain rfl := hunique.eq_of_key_eq (hstored s hs) hj (of_decide_eq_true hid)
      exact hmem hs
  simp only [Function.comp_def, hrows]
  split
  · rfl
  · rfl

theorem recoverJobs_step {stale : List AgentJob} (hstored : ∀ job ∈ stale, job ∈ db.jobs)
    (hrunning : ∀ job ∈ stale, job.status = .running) (hstale : Table.Unique (·.id) stale)
    (now : Instant) :
    LifecycleStep db (recoverJobs db stale now) := by
  refine .moves (fun job => if job.id ∈ stale.map (·.id) then job.recover now else job)
    (fun job => if job ∈ stale then [job.recoverEvent] else [])
    (fun job hj => ?_) ?_ (fun job hj => jobEvents_recoverJobs hunique hstored hstale now hj)
    fun e he => ?_
  · by_cases hmem : job ∈ stale
    · rw [if_pos (mem_map_of_mem hmem), if_pos hmem]
      by_cases hretry : job.retryCount < 3
      · rw [AgentJob.recover, if_pos hretry, AgentJob.recoverEvent, if_pos hretry]
        exact .requeue (hrunning job hmem) hretry
      · rw [AgentJob.recoverEvent, if_neg hretry]
        exact .timeOut now (hrunning job hmem) hretry
    · have hids : job.id ∉ stale.map (·.id) := by
        intro hid
        obtain ⟨s, hs, hsid⟩ := mem_map.1 hid
        obtain rfl := hunique.eq_of_key_eq (hstored s hs) hj hsid
        exact hmem hs
      rw [if_neg hids, if_neg hmem]
      exact .idle
  · simp [recoverJobs, update]
  · rw [recoverJobs, mem_append] at he
    rcases he with he | he
    · exact .inl he
    · obtain ⟨s, hs, rfl⟩ := mem_map.1 he
      exact .inr ⟨s, hstored s hs, rfl⟩

theorem recoverStale_step (now staleAfter : Instant) (limit : Nat) :
    LifecycleStep db (recoverStale db now staleAfter limit).1 :=
  recoverJobs_step hunique (fun _ hs => (mem_staleJobs hs).1) (fun _ hs => (mem_staleJobs hs).2.1.1)
    (staleJobs_unique hunique now staleAfter limit fun _ => true) now

end

theorem heldJob_ok {claim : AgentJobClaim} {job : AgentJob} (h : heldJob db claim = .ok job) :
    job ∈ db.jobs ∧ job.HeldBy claim := by
  rw [heldJob, orFail_eq_ok] at h
  exact find?_spec h

section

variable (hunique : Table.Unique (·.id) db.jobs)
include hunique

theorem submitResult_step {claim : AgentJobClaim} {raw : RawResult} {telemetry : Telemetry}
    {reference : String} {job : AgentJob}
    (h : submitResult db claim raw telemetry reference now = .ok (db', job)) :
    LifecycleStep db db' := by
  simp only [submitResult, bind_eq_ok, pure_eq_ok, Prod.mk.injEq] at h
  obtain ⟨held, hheld, _, -, rfl, -⟩ := h
  obtain ⟨hmem, -, hrunning, -⟩ := heldJob_ok hheld
  exact writeJob_step hunique hmem (.submit raw telemetry reference now hrunning)

theorem submitFailure_step {claim : AgentJobClaim} {code detail : String} {retryable : Bool}
    {job : AgentJob} (h : submitFailure db claim code detail retryable now = .ok (db', job)) :
    LifecycleStep db db' := by
  simp only [submitFailure, bind_eq_ok, pure_eq_ok, Prod.mk.injEq] at h
  obtain ⟨held, hheld, _, -, rfl, -⟩ := h
  obtain ⟨hmem, -, hrunning, -⟩ := heldJob_ok hheld
  refine writeJob_step hunique hmem ?_
  unfold AgentJob.submitFailure AgentJob.submitFailureEvents
  split
  case isTrue hretry => exact .requeue hrunning hretry.2
  case isFalse => exact .fail code _ now hrunning

theorem applyOwnerDecision_step {jobId : UUID} {approve : Bool} {job : AgentJob}
    (h : applyOwnerDecision db org jobId approve = .ok (db', job)) : LifecycleStep db db' := by
  simp only [applyOwnerDecision, bind_eq_ok, ensure_eq_ok, pure_eq_ok, Prod.mk.injEq] at h
  obtain ⟨stored, hget, _, hrequired, _, hpending, rfl, -⟩ := h
  rw [get, orFail_eq_ok] at hget
  exact writeJob_step hunique (find?_spec hget).1 (.decide approve hrequired hpending)

end

theorem createJob_step {payload : AgentJobCreate} {id : UUID} {reference : String}
    {job : AgentJob} (h : createJob db org payload id reference now = .ok (db', job)) :
    LifecycleStep db db' ∧ db.jobs ⊆ db'.jobs := by
  unfold createJob at h
  obtain ⟨_, -, h⟩ := bind_eq_ok.1 h
  split at h
  case h_1 existing hprior =>
    cases pure_eq_ok.1 h
    exact ⟨.same db, Subset.refl _⟩
  case h_2 hprior =>
    simp only [bind_eq_ok, orFail_eq_ok, pure_eq_ok, insert_eq_some, Prod.mk.injEq] at h
    obtain ⟨_, -, _, -, _, -, _, -, jobs, ⟨hfree, rfl⟩, rfl, -⟩ := h
    exact ⟨.create org payload id reference now hfree rfl rfl, subset_append_left _ _⟩

theorem serve_lifecycleStep {call : Call} {r : Reply} (hunique : Table.Unique (·.id) db.jobs)
    (h : serve db call = .ok (db', r)) : LifecycleStep db db' := by
  unfold serve at h
  split at h
  case h_1 org payload hrequest =>
    obtain ⟨job, h, -⟩ := reply_ok h
    exact (createJob_step h).1
  case h_2 credential hrequest =>
    obtain rfl := congrArg Prod.fst (ok.inj h)
    exact claimNext_step hunique credential call.drawn call.now
  case h_3 claim hrequest =>
    obtain rfl := congrArg Prod.fst (ok.inj h)
    exact heartbeat_step claim call.now
  case h_4 staleAfter limit hrequest =>
    obtain rfl := congrArg Prod.fst (ok.inj h)
    exact recoverStale_step hunique call.now staleAfter limit
  case h_5 claim raw telemetry hrequest =>
    obtain ⟨job, h, -⟩ := reply_ok h
    exact submitResult_step hunique h
  case h_6 claim code detail retryable hrequest =>
    obtain ⟨job, h, -⟩ := reply_ok h
    exact submitFailure_step hunique h
  case h_7 org jobId approve hrequest =>
    obtain ⟨job, h, -⟩ := reply_ok h
    exact applyOwnerDecision_step hunique h

/-- Only `claim_next` replies with a claim. -/
theorem serve_claim {call : Call} {claim : AgentJobClaim}
    (h : serve db call = .ok (db', .claim (some claim))) :
    ∃ credential, (claimNext db credential call.drawn call.now).2 = some claim := by
  unfold serve at h
  split at h
  case h_1 org payload hrequest =>
    obtain ⟨job, -, hreply⟩ := reply_ok h
    cases hreply
  case h_2 credential hrequest =>
    exact ⟨credential, Reply.claim.inj (congrArg Prod.snd (ok.inj h))⟩
  case h_3 claim hrequest | h_4 staleAfter limit hrequest =>
    cases congrArg Prod.snd (ok.inj h)
  case h_5 claim raw telemetry hrequest | h_6 claim code detail retryable hrequest
      | h_7 org jobId approve hrequest =>
    obtain ⟨job, -, hreply⟩ := reply_ok h
    cases hreply

/-! ## The invariant of a job -/

/-- How often a job was claimed since its last retry: once it has left the queue, once. -/
def openClaims (status : AgentJobStatus) : Nat :=
  match status with
  | .queued => 0
  | .ownerReviewRequired => 0
  | _ => 1

/-- A job whose risk class asks for the owner's approval at creation. -/
def CreatedGated (job : AgentJob) : Prop := (route job.riskClass).ownerGateRequired = true

/-- What ties a job to its events. -/
structure JobInvariant (events : List AgentJobEventType) (job : AgentJob) : Prop where
  lease : job.executionLeaseId.isSome = true ↔ job.status = .running
  retries : job.retryCount ≤ 3
  retried : events.count .retried = job.retryCount
  claimed : events.count .claimed = job.retryCount + openClaims job.status
  approval : job.ownerApprovalRequired = true →
    job.status = .ownerReviewRequired ∨ job.status = .escalated
  gated : CreatedGated job ↔ job.status = .ownerReviewRequired
  waiting : job.status = .ownerReviewRequired → job.retryCount = 0

theorem newJob_invariant (org : Option UUID) (payload : AgentJobCreate) (id : UUID)
    (reference : String) (now : Instant) :
    JobInvariant (newJobEvents payload) (newJob org payload id reference now) := by
  have hroute : ∀ riskClass, (route (route riskClass).riskClass) = route riskClass := by
    intro riskClass
    cases riskClass <;> rfl
  unfold newJobEvents newJob
  by_cases hgate : (route payload.riskClass).ownerGateRequired = true
  · constructor <;> simp [hgate, openClaims, CreatedGated, hroute]
  · constructor <;> simp [hgate, openClaims, CreatedGated, hroute]

/-- A job that leaves `running` with some events but no claim, and no retry. -/
theorem JobInvariant.finish {events : List AgentJobEventType} {job : AgentJob}
    (h : JobInvariant events job) (hrunning : job.status = .running)
    (hlease : job'.executionLeaseId = none) (hretries : job'.retryCount = job.retryCount)
    (hrisk : job'.riskClass = job.riskClass)
    (hstatus : job'.status ∈ [AgentJobStatus.succeeded, .failed, .timedOut, .escalated])
    (happroval : job'.ownerApprovalRequired = true →
      job.ownerApprovalRequired = true ∨ job'.status = .escalated)
    (htypes : types.count .retried = 0 ∧ types.count .claimed = 0) :
    JobInvariant (events ++ types) job' := by
  have hnot : job.ownerApprovalRequired ≠ true := by
    intro hrequired
    have happroval := h.approval hrequired
    simp [hrunning] at happroval
  have hgated : ¬ CreatedGated job := by
    rw [h.gated, hrunning]
    simp
  have hopen : openClaims job.status = 1 := by rw [hrunning]; rfl
  have hclosed : openClaims job'.status = 1 ∧ job'.status ≠ .running ∧
      job'.status ≠ .ownerReviewRequired := by
    simp only [mem_cons, not_mem_nil, or_false] at hstatus
    rcases hstatus with hs | hs | hs | hs <;> simp [hs, openClaims]
  refine ⟨?_, ?_, ?_, ?_, fun hrequired => ?_, ?_, fun hs => absurd hs hclosed.2.2⟩
  · simp [hlease, hclosed.2.1]
  · rw [hretries]
    exact h.retries
  · rw [count_append, h.retried, htypes.1, hretries, Nat.add_zero]
  · rw [count_append, h.claimed, htypes.2, hretries, hopen, hclosed.1]
  · rcases happroval hrequired with hold | hescalated
    · exact absurd hold hnot
    · exact .inr hescalated
  · rw [CreatedGated, hrisk, ← CreatedGated]
    simp [hgated, hclosed.2.2]

/-- A submitted result ends the run of the job, and may ask for the owner when it escalates. -/
theorem JobInvariant.submit {events : List AgentJobEventType} {job : AgentJob}
    (h : JobInvariant events job) (hrunning : job.status = .running) (raw : RawResult)
    (telemetry : Telemetry) (reference : String) (now : Instant) :
    JobInvariant (events ++ job.submitResultEvents raw)
      (job.submitResult raw telemetry reference now) := by
  cases raw with
  | malformed error =>
    exact h.finish hrunning rfl rfl rfl (by simp [AgentJob.submitResult, AgentJob.failWith])
      .inl ⟨rfl, rfl⟩
  | structured result =>
    unfold AgentJob.submitResult AgentJob.submitResultEvents AgentJob.escalate
    dsimp only
    split
    case isTrue => exact h.finish hrunning rfl rfl rfl (by simp) .inl (by decide)
    case isFalse =>
      split
      case isTrue => exact h.finish hrunning rfl rfl rfl (by simp) (fun _ => .inr rfl) (by decide)
      case isFalse => exact h.finish hrunning rfl rfl rfl (by simp) .inl (by decide)

theorem JobInvariant.move {events : List AgentJobEventType} {job : AgentJob}
    (h : JobInvariant events job) (hmove : Move job types job') :
    JobInvariant (events ++ types) job' := by
  cases hmove with
  | idle => rwa [append_nil]
  | claim lease worker now hqueued =>
    have hgated : ¬ CreatedGated job := by
      rw [h.gated, hqueued]
      simp
    refine ⟨by simp [AgentJob.claim], h.retries, ?_, ?_, fun hrequired => ?_, ?_, nofun⟩
    · rw [count_append, h.retried]
      rfl
    · rw [count_append, h.claimed, hqueued]
      rfl
    · have happroval := h.approval hrequired
      simp [hqueued] at happroval
    · exact ⟨fun hg => absurd hg hgated, fun hs => by cases hs⟩
  | beat now hrunning =>
    rw [append_nil]
    exact ⟨h.lease, h.retries, h.retried, h.claimed, h.approval, h.gated, h.waiting⟩
  | requeue hrunning hretry =>
    have hgated : ¬ CreatedGated job := by
      rw [h.gated, hrunning]
      simp
    refine ⟨by simp [AgentJob.requeue, AgentJob.release], hretry, ?_, ?_, fun hrequired => ?_, ?_,
      nofun⟩
    · rw [count_append, h.retried]
      rfl
    · rw [count_append, h.claimed, hrunning]
      rfl
    · have happroval := h.approval hrequired
      simp [hrunning] at happroval
    · exact ⟨fun hg => absurd hg hgated, fun hs => by cases hs⟩
  | timeOut now hrunning hretry =>
    rw [AgentJob.recover, if_neg hretry]
    exact h.finish hrunning rfl rfl rfl (by simp) .inl (by decide)
  | submit raw telemetry reference now hrunning => exact h.submit hrunning raw telemetry reference now
  | fail code detail now hrunning =>
    exact h.finish hrunning rfl rfl rfl (by simp [AgentJob.failWith]) .inl (by decide)
  | decide approve hrequired hpending =>
    refine ⟨h.lease, h.retries, ?_, ?_, h.approval, h.gated, h.waiting⟩
    · rw [count_append, h.retried]
      cases approve <;> rfl
    · rw [count_append, h.claimed]
      cases approve <;> rfl

/-! ## The invariant of the tables -/

/-- Identifiers name one job each, events belong to stored jobs, and every job fits its events. -/
structure Lifecycle (db : Db) : Prop where
  unique : Table.Unique (·.id) db.jobs
  stored : ∀ e ∈ db.events, ∃ job ∈ db.jobs, job.id = e.agentJobId
  jobs : ∀ job ∈ db.jobs, JobInvariant (jobEvents db job.id) job

theorem lifecycle_empty : Lifecycle Db.empty :=
  ⟨.nil, fun _ he => absurd he not_mem_nil, fun _ hj => absurd hj not_mem_nil⟩

theorem Lifecycle.step (hinv : Lifecycle db) (h : LifecycleStep db db') : Lifecycle db' := by
  cases h with
  | create org payload id reference now hfresh hjobs hevents =>
    have hrecorded : ∀ jobId, jobEvents db' jobId =
        jobEvents db jobId ++ if id = jobId then newJobEvents payload else [] := by
      intro jobId
      rw [← jobEvents_recordEvents, jobEvents, jobEvents, hevents, recordEvents]
    refine ⟨?_, fun e he => ?_, fun job hj => ?_⟩
    · rw [hjobs]
      exact hinv.unique.append hfresh
    · rw [hjobs]
      rw [hevents, mem_append] at he
      rcases he with he | he
      · obtain ⟨job, hj, hid⟩ := hinv.stored e he
        exact ⟨job, mem_append_left _ hj, hid⟩
      · obtain ⟨t, -, rfl⟩ := mem_map.1 he
        exact ⟨_, mem_append_right _ (mem_singleton_self _), rfl⟩
    · rw [hjobs, mem_append, mem_singleton] at hj
      rcases hj with hj | rfl
      · rw [hrecorded, if_neg (hfresh job hj).symm, append_nil]
        exact hinv.jobs job hj
      · -- No event was recorded for the new identifier yet.
        have hnone : jobEvents db id = [] := by
          rw [jobEvents, map_eq_nil_iff, filter_eq_nil_iff]
          intro e he hid
          obtain ⟨job, hj, hjid⟩ := hinv.stored e he
          exact hfresh job hj (hjid.trans (of_decide_eq_true hid))
        rw [hrecorded, show (newJob org payload id reference now).id = id from rfl, if_pos rfl,
          hnone, nil_append]
        exact newJob_invariant org payload id reference now
  | moves f types hmove hjobs hevents hstored =>
    have hid : ∀ job ∈ db.jobs, (f job).id = job.id := fun job hj => (hmove job hj).id_eq.1
    refine ⟨?_, fun e he => ?_, fun job hj => ?_⟩
    · rw [hjobs, Table.Unique, map_map]
      have hsame : db.jobs.map ((·.id) ∘ f) = db.jobs.map (·.id) := map_congr_left hid
      rw [hsame]
      exact hinv.unique
    · obtain ⟨job, hj, hjid⟩ : ∃ job ∈ db.jobs, job.id = e.agentJobId := by
        rcases hstored e he with he | hnew
        · exact hinv.stored e he
        · exact hnew
      exact ⟨f job, hjobs ▸ mem_map_of_mem hj, (hid job hj).trans hjid⟩
    · rw [hjobs] at hj
      obtain ⟨old, hold, rfl⟩ := mem_map.1 hj
      rw [hid old hold, hevents old hold]
      exact (hinv.jobs old hold).move (hmove old hold)

theorem lifecycle_run (hinv : Lifecycle db) (calls : List Call) : Lifecycle (serve.run db calls) :=
  run_invariant hinv (fun hinv h => hinv.step (serve_lifecycleStep hinv.unique h)) calls

/-! ## Terminal jobs and gated jobs -/

theorem Move.eq_of_terminal {events : List AgentJobEventType} {job : AgentJob}
    (h : Move job types job') (hinv : JobInvariant events job)
    (hterminal : job.status ∈ terminalStatuses) : job' = job ∧ types = [] := by
  simp only [terminalStatuses, mem_cons, not_mem_nil, or_false] at hterminal
  cases h with
  | idle => exact ⟨rfl, rfl⟩
  | claim lease worker now hs | beat now hs | requeue hs | timeOut now hs
  | submit raw telemetry reference now hs | fail code detail now hs => simp [hs] at hterminal
  | decide approve hrequired =>
    rcases hinv.approval hrequired with hs | hs
    · simp [hs] at hterminal
    · simp [hs] at hterminal

theorem Lifecycle.terminal_run (hinv : Lifecycle db) (calls : List Call) {job : AgentJob}
    (hj : job ∈ db.jobs) (hterminal : job.status ∈ terminalStatuses) :
    job ∈ (serve.run db calls).jobs ∧
      jobEvents (serve.run db calls) job.id = jobEvents db job.id := by
  have hall : Lifecycle (serve.run db calls) ∧ job ∈ (serve.run db calls).jobs ∧
      jobEvents (serve.run db calls) job.id = jobEvents db job.id := by
    refine run_invariant (P := fun s => Lifecycle s ∧ job ∈ s.jobs ∧
      jobEvents s job.id = jobEvents db job.id) ⟨hinv, hj, rfl⟩ ?_ calls
    rintro s call s' r ⟨hinv, hj, hevents⟩ hok
    have hstep := serve_lifecycleStep hinv.unique hok
    refine ⟨hinv.step hstep, ?_⟩
    cases hstep with
    | create org payload id reference now hfresh hjobs hnew =>
      refine ⟨hjobs ▸ mem_append_left _ hj, ?_⟩
      rw [← hevents]
      have hrecorded := jobEvents_recordEvents s id job.id (newJobEvents payload)
      rw [if_neg (hfresh job hj).symm, append_nil] at hrecorded
      rw [← hrecorded, jobEvents, jobEvents, hnew, recordEvents]
    | moves f types hmove hjobs hnew hstored =>
      obtain ⟨hsame, hnone⟩ := (hmove job hj).eq_of_terminal (hinv.jobs job hj) hterminal
      refine ⟨?_, ?_⟩
      · rw [hjobs, ← hsame]
        exact mem_map_of_mem hj
      · rw [hnew job hj, hnone, append_nil, hevents]
  exact hall.2

/-- What is promised of a stored job. -/
structure LifecycleHolds (db : Db) (job : AgentJob) : Prop where
  lease : job.executionLeaseId ≠ none ↔ job.status = .running
  retries : job.retryCount ≤ 3 ∧ (jobEvents db job.id).count .retried = job.retryCount
  claims : (jobEvents db job.id).count .claimed ≤ 4
  gate : CreatedGated job → .claimed ∈ jobEvents db job.id → job.ownerApprovalStatus = .approved

theorem JobInvariant.lifecycleHolds {job : AgentJob}
    (h : JobInvariant (jobEvents db job.id) job) : LifecycleHolds db job := by
  refine ⟨?_, ⟨h.retries, h.retried⟩, ?_, fun hgated hclaimed => ?_⟩
  · rw [← h.lease, Option.isSome_iff_ne_none]
  · have hopen : openClaims job.status ≤ 1 := by
      cases job.status <;> decide
    have hretries := h.retries
    rw [h.claimed]
    omega
  · -- A gated job waits for its owner, so it has never been claimed.
    have hwaiting := h.gated.1 hgated
    have hcount := h.claimed
    rw [hwaiting, h.waiting hwaiting] at hcount
    exact absurd hclaimed (count_eq_zero.1 hcount)

/-! ## Whole runs -/

/-- In every reachable state a job has a lease exactly while it runs, its retries are counted by
its events and bounded, as are its claims, and a gated job was claimed only with approval. A
terminal job is never changed again, and a claim never returns a gated job without approval. -/
theorem lifecycleHolds_run (calls : List Call) :
    let db := serve.run Db.empty calls
    (∀ job ∈ db.jobs, LifecycleHolds db job) ∧
      (∀ later, ∀ job ∈ db.jobs, job.status ∈ terminalStatuses →
        job ∈ (serve.run db later).jobs ∧
          jobEvents (serve.run db later) job.id = jobEvents db job.id) ∧
      ∀ call db' claim, serve db call = .ok (db', .claim (some claim)) →
        ∀ job ∈ db.jobs, job.id = claim.jobId → CreatedGated job →
          job.ownerApprovalStatus = .approved := by
  intro db
  have hinv : Lifecycle db := lifecycle_run lifecycle_empty calls
  refine ⟨fun job hj => (hinv.jobs job hj).lifecycleHolds,
    fun later job hj hterminal => hinv.terminal_run later hj hterminal, ?_⟩
  intro call db' claim hok job hj hid hgated
  obtain ⟨credential, hclaim⟩ := serve_claim hok
  unfold claimNext at hclaim
  split at hclaim
  case h_1 => cases hclaim
  case h_2 next hnext =>
    obtain ⟨hmem, ⟨hqueued, -⟩, -⟩ := nextJob_some hnext
    obtain rfl := Option.some.inj hclaim
    obtain rfl := hinv.unique.eq_of_key_eq hj hmem hid
    have hwaiting := (hinv.jobs job hj).gated.1 hgated
    rw [hqueued] at hwaiting
    cases hwaiting

end Intel4Ops.AgentJobs
