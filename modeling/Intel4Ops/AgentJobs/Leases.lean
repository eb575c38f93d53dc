import Intel4Ops.AgentJobs.Sessions
import Mathlib.Data.List.Flatten
import Mathlib.Data.List.Pairwise

/-!
# Agent jobs: the lease of a submission

A submission checks its lease when it loads the job, and commits later without looking again. As
long as no sweep and no other submission has ended the attempt in the meantime, the stored row
differs from the loaded one by heartbeats only, so the lease is still the one that was checked. An
interleaved run of such submissions moves every job as requests served one at a time do.
-/

namespace Intel4Ops.AgentJobs

open Lib List

/-! ## One attempt -/

/-- The stored row is not behind the loaded one, and while it runs in the attempt that was loaded
only heartbeats have changed it. -/
structure WithinAttempt (loaded stored : AgentJob) : Prop where
  id : stored.id = loaded.id
  retries : loaded.retryCount ≤ stored.retryCount
  queued : stored.status = .queued → loaded.retryCount < stored.retryCount
  running : stored.status = .running → stored.retryCount = loaded.retryCount →
    stored = loaded.withHeartbeat stored.heartbeatAt

theorem WithinAttempt.of_running {job : AgentJob} (h : job.status = .running) :
    WithinAttempt job job :=
  ⟨rfl, le_rfl, fun hqueued => absurd (h.symm.trans hqueued) nofun, fun _ _ => rfl⟩

theorem AgentJob.submitResult_ends (raw : RawResult) (telemetry : Telemetry) (reference : String)
    (now : Instant) (job : AgentJob) :
    (job.submitResult raw telemetry reference now).retryCount = job.retryCount ∧
      (job.submitResult raw telemetry reference now).status ∈
        [AgentJobStatus.succeeded, .failed, .escalated] := by
  cases raw with
  | malformed error => exact ⟨rfl, by simp [AgentJob.submitResult, AgentJob.failWith]⟩
  | structured result =>
    unfold AgentJob.submitResult AgentJob.escalate
    dsimp only
    split
    · exact ⟨rfl, by simp⟩
    · split
      · exact ⟨rfl, by simp⟩
      · exact ⟨rfl, by simp⟩

variable {loaded : AgentJob} {db' : Db} {s : Session} {w : World} {a : Action}

theorem WithinAttempt.ended {stored stored' : AgentJob} (h : WithinAttempt loaded stored)
    (hid : stored'.id = stored.id) (hretries : stored.retryCount ≤ stored'.retryCount)
    (hstatus : stored'.status ≠ .queued ∧ stored'.status ≠ .running) :
    WithinAttempt loaded stored' :=
  ⟨hid.trans h.id, h.retries.trans hretries, fun hs => absurd hs hstatus.1,
    fun hs => absurd hs hstatus.2⟩

/-- Every move keeps a loaded row within its attempt, or ends the attempt. -/
theorem WithinAttempt.move {stored stored' : AgentJob} {events types : List AgentJobEventType}
    (h : WithinAttempt loaded stored) (hinv : JobInvariant events stored)
    (hmove : Move stored types stored') : WithinAttempt loaded stored' := by
  have hid := hmove.id_eq.1
  cases hmove with
  | idle => exact h
  | claim lease worker now hqueued =>
    -- The retry that queued the job again counts a new attempt.
    have hlt := h.queued hqueued
    exact ⟨h.id, h.retries, (fun hs => by cases hs), fun _ hsame => absurd hsame hlt.ne'⟩
  | beat now hrunning =>
    refine ⟨h.id, h.retries, h.queued, fun _ hsame => ?_⟩
    rw [AgentJob.beat, h.running hrunning hsame]
    rfl
  | requeue hrunning hretry =>
    exact ⟨h.id, h.retries.trans (Nat.le_succ _), fun _ => Nat.lt_succ_of_le h.retries,
      fun hs => by cases hs⟩
  | timeOut now hrunning hretry =>
    rw [AgentJob.recover, if_neg hretry] at hid ⊢
    exact h.ended hid le_rfl (by simp)
  | submit raw telemetry reference now hrunning =>
    obtain ⟨hretries, hstatus⟩ := AgentJob.submitResult_ends raw telemetry reference now stored
    refine h.ended hid hretries.ge ?_
    simp only [mem_cons, not_mem_nil, or_false] at hstatus
    rcases hstatus with hs | hs | hs <;> simp [hs]
  | fail code detail now hrunning => exact h.ended hid le_rfl (by simp [AgentJob.failWith])
  | decide approve hrequired hpending =>
    refine h.ended hid le_rfl ?_
    rcases hinv.approval hrequired with hs | hs <;> simp [AgentJob.ownerDecision, hs]

/-- A running job has a heartbeat. -/
def Beating (job : AgentJob) : Prop := job.status = .running → job.heartbeatAt.isSome = true

theorem Beating.move {job job' : AgentJob} {types : List AgentJobEventType} (h : Beating job)
    (hmove : Move job types job') : Beating job' := by
  cases hmove with
  | idle | decide => exact h
  | claim | beat => exact fun _ => rfl
  | requeue | fail => intro hs; cases hs
  | timeOut now hrunning hretry =>
    rw [AgentJob.recover, if_neg hretry]
    intro hs
    cases hs
  | submit raw telemetry reference now =>
    obtain ⟨-, hstatus⟩ := AgentJob.submitResult_ends raw telemetry reference now job
    intro hs
    simp [hs] at hstatus

theorem AgentJob.submitResult_heartbeatAt (raw : RawResult) (telemetry : Telemetry)
    (reference : String) (now : Instant) (job : AgentJob) (beat : Option Instant) :
    (job.submitResult raw telemetry reference now).heartbeatAt = job.heartbeatAt ∧
      (job.withHeartbeat beat).submitResult raw telemetry reference now =
        (job.submitResult raw telemetry reference now).withHeartbeat beat := by
  cases raw with
  | malformed error => exact ⟨rfl, rfl⟩
  | structured result =>
    have hdecision : (job.withHeartbeat beat).evaluate result = job.evaluate result := rfl
    simp only [AgentJob.submitResult, AgentJob.escalate, hdecision]
    by_cases haccept : (job.evaluate result).accept = true
    · simp only [if_pos haccept]
      exact ⟨rfl, rfl⟩
    · by_cases hgate : (job.evaluate result).ownerGateRequired = true
      · simp only [if_neg haccept, if_pos hgate]
        exact ⟨rfl, rfl⟩
      · simp only [if_neg haccept, if_neg hgate]
        exact ⟨rfl, rfl⟩

/-- Within the attempt that was loaded, a submission is written as if it had loaded the row at its
commit. -/
theorem flush_write {stored : AgentJob} (submission : Submission) (reference : String)
    (now : Instant) (hbeat : loaded.heartbeatAt.isSome = true)
    (h : stored = loaded.withHeartbeat stored.heartbeatAt) :
    loaded.flush (submission.write reference now loaded) stored =
      submission.write reference now stored := by
  rw [h]
  generalize stored.heartbeatAt = beat
  cases submission with
  | result raw telemetry =>
    obtain ⟨hkept, hcommutes⟩ :=
      AgentJob.submitResult_heartbeatAt raw telemetry reference now loaded beat
    exact (AgentJob.flush_of_kept hkept beat).trans hcommutes.symm
  | failure code detail retryable =>
    simp only [Submission.write, AgentJob.submitFailure]
    by_cases hretry : retryable = true ∧ loaded.retryCount < 3
    · -- Giving the job back clears the heartbeat, which the loaded row had.
      have hcleared : loaded.requeue.heartbeatAt ≠ loaded.heartbeatAt := by
        intro hnone
        simp [← hnone, AgentJob.requeue] at hbeat
      rw [if_pos hretry, AgentJob.flush_of_written hcleared]
      exact (if_pos hretry).symm
    · have hkept :
    (loaded.failWith now code (String.ofList (detail.toList.take 2000))).heartbeatAt =
          loaded.heartbeatAt := rfl
      rw [if_neg hretry, AgentJob.flush_of_kept hkept]
      exact (if_neg hretry).symm

/-! ## Coherent worlds -/

/-- What an open session can rely on. -/
def Session.Valid (jobs : List AgentJob) : Session → Prop
  | .claiming _ job => job ∈ jobs ∧ job.status = .queued
  | .recovering stale => Table.Unique (·.id) stale ∧
      ∀ job ∈ stale, job ∈ jobs ∧ job.status = .running
  | .submitting claim _ job => job.HeldBy claim ∧ job.heartbeatAt.isSome = true ∧
      ∃ stored ∈ jobs, WithinAttempt job stored

/-- Jobs fit their events, every row is locked at most once, and the sessions are valid. -/
structure Coherent (w : World) : Prop where
  lifecycle : Lifecycle w.db
  beating : ∀ job ∈ w.db.jobs, Beating job
  exclusive : (w.sessions.flatMap fun s => s.2.locked.map (·.id)).Nodup
  valid : ∀ s ∈ w.sessions, s.2.Valid w.db.jobs

theorem coherent_empty : Coherent World.empty :=
  ⟨lifecycle_empty, fun _ hj => absurd hj not_mem_nil, List.nodup_nil,
    fun _ hs => absurd hs not_mem_nil⟩

theorem LifecycleStep.beating {db : Db} (h : LifecycleStep db db')
    (hbeating : ∀ job ∈ db.jobs, Beating job) : ∀ job ∈ db'.jobs, Beating job := by
  intro job hj
  cases h with
  | create org payload id reference now hfresh hjobs hevents =>
    rw [hjobs, mem_append, mem_singleton] at hj
    rcases hj with hj | rfl
    · exact hbeating job hj
    · intro hrunning
      by_cases hgate : (route payload.riskClass).ownerGateRequired = true
      · simp [newJob, hgate] at hrunning
      · simp [newJob, hgate] at hrunning
  | moves f types hmove hjobs hevents hstored =>
    rw [hjobs] at hj
    obtain ⟨old, hold, rfl⟩ := mem_map.1 hj
    exact (hbeating old hold).move (hmove old hold)

theorem LifecycleStep.withinAttempt {db : Db} (h : LifecycleStep db db') (hinv : Lifecycle db)
    (hstored : ∃ stored ∈ db.jobs, WithinAttempt loaded stored) :
    ∃ stored ∈ db'.jobs, WithinAttempt loaded stored := by
  obtain ⟨stored, hmem, hwithin⟩ := hstored
  cases h with
  | create org payload id reference now hfresh hjobs hevents =>
    exact ⟨stored, hjobs ▸ mem_append_left _ hmem, hwithin⟩
  | moves f types hmove hjobs hevents hrows =>
    exact ⟨f stored, hjobs ▸ mem_map_of_mem hmem,
      hwithin.move (hinv.jobs stored hmem) (hmove stored hmem)⟩

/-- A step on the tables that leaves the locked rows alone keeps a session valid. -/
theorem Session.Valid.step {db : Db} (h : s.Valid db.jobs) (hinv : Lifecycle db)
    (hstep : LifecycleStep db db') (hframe : ∀ job ∈ s.locked, job ∈ db'.jobs) :
    s.Valid db'.jobs := by
  cases s with
  | claiming credential job => exact ⟨hframe job (mem_singleton_self job), h.2⟩
  | recovering stale => exact ⟨h.1, fun job hj => ⟨hframe job hj, (h.2 job hj).2⟩⟩
  | submitting claim submission job =>
    exact ⟨h.1, h.2.1, hstep.withinAttempt hinv h.2.2⟩

theorem Session.Valid.mem_of_locked {jobs : List AgentJob} (h : s.Valid jobs) {job : AgentJob}
    (hj : job ∈ s.locked) : job ∈ jobs := by
  cases s with
  | claiming credential loaded =>
    obtain rfl := mem_singleton.1 hj
    exact h.1
  | recovering stale => exact (h.2 job hj).1
  | submitting claim submission loaded => exact absurd hj not_mem_nil

/-- A step on the tables keeps the world coherent when it leaves alone what the remaining sessions
have locked. -/
theorem Coherent.tables (hc : Coherent w) {sessions' : List (TxId × Session)}
    (hstep : LifecycleStep w.db db') (hsessions : sessions'.Sublist w.sessions)
    (hframe : ∀ s ∈ sessions', ∀ job ∈ s.2.locked, job ∈ db'.jobs) : Coherent ⟨db', sessions'⟩ where
  lifecycle := hc.lifecycle.step hstep
  beating := hstep.beating hc.beating
  exclusive := hc.exclusive.sublist (hsessions.flatMap _)
  valid s hs := (hc.valid s (hsessions.subset hs)).step hc.lifecycle hstep (hframe s hs)

/-- Opening a session that locks free rows. -/
theorem Coherent.load (hc : Coherent w) (tx : TxId) (h : s.LoadedFrom w) :
    Coherent { w with sessions := w.sessions ++ [(tx, s)] } := by
  have hfree : ∀ job ∈ s.locked, ¬ w.Locked job.id := by
    cases s with
    | claiming credential job =>
      intro j hj
      rw [mem_singleton.1 hj]
      exact h.2.2
    | recovering stale => exact fun job hj => (h.2 job hj).2.2
    | submitting claim submission job => exact fun _ hj => absurd hj not_mem_nil
  have hunique : (s.locked.map (·.id)).Nodup := by
    cases s with
    | claiming credential job => exact nodup_singleton _
    | recovering stale => exact h.1
    | submitting claim submission job => exact List.nodup_nil
  have hvalid : s.Valid w.db.jobs := by
    cases s with
    | claiming credential job => exact ⟨h.1, h.2.1⟩
    | recovering stale => exact ⟨h.1, fun job hj => ⟨(h.2 job hj).1, (h.2 job hj).2.1⟩⟩
    | submitting claim submission job =>
      exact ⟨h.2, hc.beating job h.1 h.2.2.1, job, h.1, .of_running h.2.2.1⟩
  refine ⟨hc.lifecycle, hc.beating, ?_, fun t ht => ?_⟩
  · rw [flatMap_append, flatMap_singleton]
    refine hc.exclusive.append hunique fun id hid hnew => ?_
    obtain ⟨t, ht, hid⟩ := mem_flatMap.1 hid
    obtain ⟨old, hold, rfl⟩ := mem_map.1 hid
    obtain ⟨job, hj, hsame⟩ := mem_map.1 hnew
    exact hfree job hj ⟨t, ht, old, hold, hsame.symm⟩
  · rcases mem_append.1 ht with ht | ht
    · exact hc.valid t ht
    · obtain rfl := mem_singleton.1 ht
      exact hvalid

theorem Coherent.disjoint (hc : Coherent w) {s t : TxId × Session} (hs : s ∈ w.sessions)
    (ht : t ∈ w.sessions) (hne : s.1 ≠ t.1) {job job' : AgentJob} (hj : job ∈ s.2.locked)
    (hj' : job' ∈ t.2.locked) : job.id ≠ job'.id := by
  intro hid
  have hsymm : Std.Symm (Function.onFun List.Disjoint
      fun s : TxId × Session => s.2.locked.map (·.id)) := ⟨fun _ _ h _ ha hb => h hb ha⟩
  have hpairs := (nodup_flatMap.1 hc.exclusive).2
  have hdisjoint := hpairs.forall hs ht fun hst => hne (hst ▸ rfl)
  exact hdisjoint (mem_map_of_mem hj) (hid ▸ mem_map_of_mem hj')

/-! ## Commits -/

/-- A submission as it commits, with the row that its session has loaded. -/
structure SubmissionCommit where
  claim : AgentJobClaim
  submission : Submission
  reference : String
  loaded : AgentJob

def World.submits (w : World) (a : Action) : Option SubmissionCommit :=
  match a with
  | .submitCommit tx reference _ =>
    match w.session tx with
    | some (.submitting claim submission loaded) => some ⟨claim, submission, reference, loaded⟩
    | _ => none
  | _ => none

/-- The step commits a submission, its columns fit and its row is free, but the job is no longer in
the attempt that the session has loaded: a sweep or another submission has ended it. -/
def CommitsOvertaken (w : World) (a : Action) : Prop :=
  ∃ c ∈ w.submits a, c.submission.columns c.reference c.loaded = .ok () ∧ ¬ w.Locked c.loaded.id ∧
    ∃ stored ∈ w.db.jobs, stored.id = c.loaded.id ∧
      ¬ (stored.status = .running ∧ stored.retryCount = c.loaded.retryCount)

instance (w : World) (a : Action) : Decidable (CommitsOvertaken w a) :=
  inferInstanceAs (Decidable (∃ c ∈ w.submits a, _))

/-- A submission changes a job only under the lease of its claim. -/
def LeaseRespected (w : World) (a : Action) : Prop :=
  ∀ c ∈ w.submits a, ∀ job ∈ w.db.jobs, job.id = c.claim.jobId →
    job ∉ (step.next w a).db.jobs → job.executionLeaseId = some c.claim.leaseId

instance (w : World) (a : Action) : Decidable (LeaseRespected w a) :=
  inferInstanceAs (Decidable (∀ c ∈ w.submits a, ∀ job ∈ w.db.jobs, _ → _ → _))

theorem Coherent.stored_of_submission (hc : Coherent w) {tx : TxId} {claim : AgentJobClaim}
    {submission : Submission} {reference : String} {now : Instant}
    (hs : w.session tx = some (.submitting claim submission loaded))
    (hcolumns : submission.columns reference loaded = .ok ()) (hfree : ¬ w.Locked loaded.id)
    (hcondition : ¬ CommitsOvertaken w (.submitCommit tx reference now)) :
    ∃ stored ∈ w.db.jobs, stored.id = loaded.id ∧ stored.status = .running ∧
      stored = loaded.withHeartbeat stored.heartbeatAt := by
  obtain ⟨-, -, stored, hmem, hwithin⟩ := hc.valid _ (World.mem_of_session hs)
  have hattempt : stored.status = .running ∧ stored.retryCount = loaded.retryCount := by
    by_contra hended
    refine hcondition ⟨⟨claim, submission, reference, loaded⟩, ?_, hcolumns, hfree, stored, hmem,
      hwithin.id, hended⟩
    simp [World.submits, hs]
  exact ⟨stored, hmem, hwithin.id, hattempt.1, hwithin.running hattempt.1 hattempt.2⟩

theorem submission_step {db : Db} (hunique : Table.Unique (·.id) db.jobs) {stored : AgentJob}
    (hmem : stored ∈ db.jobs) (hid : stored.id = loaded.id) (hrunning : stored.status = .running)
    (hbeat : loaded.heartbeatAt.isSome = true)
    (hsame : stored = loaded.withHeartbeat stored.heartbeatAt) (submission : Submission)
    (reference : String) (now : Instant) :
    LifecycleStep db
      (writeBack db [loaded] (submission.write reference now) submission.events) := by
  have hwrite : writeBack db [loaded] (submission.write reference now) submission.events =
      writeJob db stored.id (submission.write reference now) (submission.events stored) := by
    rw [writeBack_singleton, hid]
    · have hevents : submission.events stored = submission.events loaded := by
        rw [hsame]
        rfl
      rw [hevents]
    · intro job hj hjob
      obtain rfl := hunique.eq_of_key_eq hj hmem (hjob.trans hid.symm)
      exact flush_write submission reference now hbeat hsame
  rw [hwrite]
  cases submission with
  | result raw telemetry =>
    exact writeJob_step hunique hmem (.submit raw telemetry reference now hrunning)
  | failure code detail retryable =>
    refine writeJob_step hunique hmem ?_
    simp only [Submission.write, Submission.events, AgentJob.submitFailure,
      AgentJob.submitFailureEvents]
    split
    case isTrue hretry => exact .requeue hrunning hretry.2
    case isFalse => exact .fail code _ now hrunning

/-- What the remaining sessions have locked is not what a session that ends has written. -/
theorem Coherent.frame (hc : Coherent w) {tx : TxId} {loaded : List AgentJob}
    (hother : ∀ s ∈ w.sessions, s.1 ≠ tx → ∀ job ∈ s.2.locked, ∀ row ∈ loaded, row.id ≠ job.id)
    (f : AgentJob → AgentJob) (types : AgentJob → List AgentJobEventType) :
    ∀ s ∈ (w.finish tx (writeBack w.db loaded f types)).sessions, ∀ job ∈ s.2.locked,
      job ∈ (writeBack w.db loaded f types).jobs := by
  intro s hs job hj
  obtain ⟨hs, htx⟩ := mem_filter.1 hs
  exact mem_flushRows ((hc.valid s hs).mem_of_locked hj) (hother s hs (of_decide_eq_true htx) job hj)

/-- Every step that overtakes no submission keeps the world coherent, and moves the jobs as the
service does. -/
theorem Coherent.step {w' : World} (hc : Coherent w) (hcondition : ¬ CommitsOvertaken w a)
    (h : WorldStep w a w') : Coherent w' := by
  have hunique := hc.lifecycle.unique
  cases h with
  | create org payload id reference now db job hcreate =>
    obtain ⟨hstep, hsubset⟩ := createJob_step hcreate
    refine hc.tables hstep (Sublist.refl _) fun s hs row hrow => ?_
    exact hsubset ((hc.valid s hs).mem_of_locked hrow)
  | load tx s hs => exact hc.load tx hs
  | beat claim now hfree =>
    refine hc.tables (heartbeat_step claim now) (Sublist.refl _) fun s hs row hrow => ?_
    have hstored := (hc.valid s hs).mem_of_locked hrow
    have hheld : ¬ row.HeldBy claim := fun hheld => hfree row hstored hheld ⟨s, hs, row, hrow, rfl⟩
    exact Table.mem_update_of_mem hstored (decide_eq_false hheld)
  | claim tx credential job lease now hs =>
    obtain ⟨hmem, hqueued⟩ := hc.valid _ hs
    have hstep : LifecycleStep w.db (writeBack w.db [job]
        (.claim lease credential.workerId now) fun _ => [.claimed, .started]) := by
      rw [writeBack_stored hunique hmem]
      exact writeJob_step hunique hmem (.claim lease credential.workerId now hqueued)
    refine hc.tables hstep filter_sublist (hc.frame (fun s hother htx row hrow j hj => ?_) _ _)
    exact hc.disjoint hs hother htx.symm hj hrow
  | recover tx stale now hs =>
    obtain ⟨hstale, hstored⟩ := hc.valid _ hs
    have hstep : LifecycleStep w.db
        (writeBack w.db stale (.recover now) fun job => [job.recoverEvent]) := by
      rw [writeBack_recover hunique fun job hj => (hstored job hj).1]
      exact recoverJobs_step hunique (fun job hj => (hstored job hj).1)
        (fun job hj => (hstored job hj).2) hstale now
    refine hc.tables hstep filter_sublist (hc.frame (fun s hother htx row hrow j hj => ?_) _ _)
    exact hc.disjoint hs hother htx.symm hj hrow
  | submit tx claim submission job reference now ha hs hcolumns hfree =>
    subst ha
    obtain ⟨stored, hmem, hid, hrunning, hsame⟩ :=
      hc.stored_of_submission hs hcolumns hfree hcondition
    have hbeat := (hc.valid _ (World.mem_of_session hs)).2.1
    refine hc.tables (submission_step hunique hmem hid hrunning hbeat hsame submission reference now)
      filter_sublist (hc.frame (fun s hother _ row hrow j hj hjid => ?_) _ _)
    obtain rfl := mem_singleton.1 hj
    exact hfree ⟨s, hother, row, hrow, hjid.symm⟩
  | rollback tx =>
    refine hc.tables (.same w.db) filter_sublist fun s hs row hrow => ?_
    exact (hc.valid s (mem_filter.1 hs).1).mem_of_locked hrow

/-! ## Whole runs -/

theorem World.submits_eq_some {c : SubmissionCommit} (h : w.submits a = some c) :
    ∃ tx now, a = .submitCommit tx c.reference now ∧
      w.session tx = some (.submitting c.claim c.submission c.loaded) := by
  unfold World.submits at h
  split at h
  case h_1 tx reference now =>
    split at h
    case h_1 claim submission loaded hs =>
      obtain rfl := Option.some.inj h
      exact ⟨tx, now, rfl, hs⟩
    case h_2 => cases h
  case h_2 => cases h

theorem Coherent.leaseRespected (hc : Coherent w) (hcondition : ¬ CommitsOvertaken w a) :
    LeaseRespected w a := by
  intro c hsubmits job hj hid hchanged
  obtain ⟨tx, now, rfl, hs⟩ := World.submits_eq_some hsubmits
  cases hok : AgentJobs.step w (.submitCommit tx c.reference now) with
  | error e => exact absurd (by rwa [Service.next_of_error hok]) hchanged
  | ok p =>
    obtain ⟨hcolumns, hfree, -⟩ := submitCommit_ok hs hok
    obtain ⟨stored, hmem, hstored, -, hsame⟩ := hc.stored_of_submission hs hcolumns hfree hcondition
    obtain ⟨hloaded, -, hlease⟩ := (hc.valid _ (World.mem_of_session hs)).1
    obtain rfl := hc.lifecycle.unique.eq_of_key_eq hj hmem
      (hid.trans (hloaded.symm.trans hstored.symm))
    rw [hsame]
    exact hlease

/-- In every run in which a submission commits only while its job still runs in the attempt that
the session has loaded, submissions respect the lease of the job. -/
theorem leaseRespected_run (calls : List Action)
    (h : step.AllSteps (fun w a => ¬ CommitsOvertaken w a) World.empty calls) :
    step.AllSteps LeaseRespected World.empty calls :=
  Service.allSteps_of_invariant coherent_empty
    (fun hc hcondition hok => hc.step hcondition (step_worldStep hc.lifecycle.unique hok))
    (fun hc hcondition => hc.leaseRespected hcondition) h

/-! ## A late report -/

namespace LateReport

def payload : AgentJobCreate :=
  { jobType := "summary", riskClass := .R0, evidencePlane := .production, priority := 0
    packagePlane := .production, clientIdempotencyKey := none }

def credential : AgentWorkerCredential := ⟨"worker", [.R0], []⟩

/-- A job is claimed under lease 1, and its worker reports that it failed. -/
def reported : List Action :=
  [.createJob none payload 10 "evidence" 0, .claimRead 1 credential, .claimCommit 1 1 100,
    .submitRead 2 ⟨10, 1⟩ (.failure "TIMEOUT" "too slow" false)]

/-- A heartbeat between the two steps of the report does not disturb it. -/
theorem leaseRespected_run_reported : step.AllSteps LeaseRespected World.empty
    (reported ++ [.heartbeat ⟨10, 1⟩ 200, .submitCommit 2 "result" 300]) :=
  leaseRespected_run _ (by decide +kernel)

/-- A sweep takes the job back and another session claims it under lease 2. -/
def reclaimed : List Action :=
  reported ++ [.recoverRead 3 900 60 25, .recoverCommit 3 900, .claimRead 4 credential,
    .claimCommit 4 2 950]

/-- The report of the first worker then fails the job and takes the lease of the second. -/
theorem not_leaseRespected :
    ¬ ∀ calls : List Action, step.AllSteps LeaseRespected World.empty calls := by
  intro h
  have hlate := ((Service.allSteps_append LeaseRespected World.empty reclaimed _).1
    (h (reclaimed ++ [.submitCommit 2 "result" 999]))).2.1
  revert hlate
  decide +kernel

end LateReport

end Intel4Ops.AgentJobs
