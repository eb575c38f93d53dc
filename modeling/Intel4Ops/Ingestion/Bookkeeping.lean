import Intel4Ops.Ingestion.Steps

/-!
# The bookkeeping of ingestion batches

Counts, numbers and the failure timestamp of a batch stay consistent whatever calls are made. The
completion timestamp and the failure code do not: a partially completed batch that fails keeps the
first, and a failed batch that is queued again keeps the second. These two moves are the only ones
that break the bookkeeping.
-/

namespace Intel4Ops.Ingestion

open Lib List Table Service Option

/-! ## What is claimed of a state -/

/-- A batch that got through. -/
def Batch.Done (batch : Batch) : Prop :=
  batch.status = .completed ∨ batch.status = .partiallyCompleted

/-- Completion and failure are recorded in the statuses that they belong to, and the versions of
every dataset are numbered without gaps, with one version in a batch. -/
structure Consistent (db : Db) : Prop where
  completed : ∀ b ∈ db.batches, b.completedAt.isSome ↔ b.Done
  failed : ∀ b ∈ db.batches, b.failedAt.isSome ∨ b.failureCode.isSome → b.status = .failed
  numbered : ∀ datasetId, db.numbersOf datasetId = List.range' 1 (db.numbersOf datasetId).length
  oneEach : Unique (fun v => (v.ingestionBatchId, v.datasetId)) db.versions

/-- The counts of a batch are the sums over its dataset versions. -/
structure Batch.Balanced (batch : Batch) (versions : List DatasetVersion) : Prop where
  datasets : batch.actualDatasetCount =
    (deliveredCounts versions batch.organizationId batch.id).length
  records : batch.counts.actualRecordCount =
    ((deliveredCounts versions batch.organizationId batch.id).map (·.recordCount)).sum
  accepted : batch.counts.acceptedRecordCount =
    ((deliveredCounts versions batch.organizationId batch.id).map (·.acceptedRecordCount)).sum
  rejected : batch.counts.rejectedRecordCount =
    ((deliveredCounts versions batch.organizationId batch.id).map (·.rejectedRecordCount)).sum

def BalancedAt (batchId : UUID) (db : Db) : Prop :=
  ∀ b ∈ db.batches, b.id = batchId → b.Balanced db.versions

/-- Closed batches stay closed and keep their counts. -/
def ClosedKept (db db' : Db) : Prop :=
  ∀ b ∈ db.batches, b.Closed → ∃ b' ∈ db'.batches, b'.id = b.id ∧ b'.Closed ∧
    b'.actualDatasetCount = b.actualDatasetCount ∧ b'.counts = b.counts

/-- Where the counts of a batch come from. -/
inductive CountSource
  | manual | derived

/-- What a call does to the counts of a batch, if it is served and does anything to them. -/
def touched (batchId : UUID) (db : Db) (call : Call) : Option CountSource :=
  match serve db call with
  | .error _ => none
  | .ok _ =>
    match call.request with
    | .updateCounts id _ => if id = batchId then some .manual else none
    | .recalculate id => if id = batchId then some .derived else none
    | .createVersion _ payload => if payload.ingestionBatchId = batchId then some .derived else none
    | .updateVersionCounts _ versionId _ =>
      if ∃ v ∈ db.versions, v.id = versionId ∧ v.ingestionBatchId = batchId then some .derived
      else none
    | _ => none

/-- The last operation of a list of calls that affected the counts of a batch. -/
def countSource (batchId : UUID) : Db → List Call → Option CountSource → Option CountSource
  | _, [], last => last
  | db, call :: calls, last =>
    countSource batchId (service.next db call) calls ((touched batchId db call).or last)

/-- The state that calls lead to. -/
def after (calls : List Call) : Db := service.run .empty calls

/-- The bookkeeping after a list of calls. -/
structure Bookkept (calls : List Call) : Prop where
  consistent : Consistent (after calls)
  closed : ∀ before later, calls = before ++ later → ClosedKept (after before) (after calls)
  balanced : ∀ batchId, countSource batchId .empty calls none ≠ some .manual →
    BalancedAt batchId (after calls)

/-- Nothing fails a partially completed batch, and nothing queues a batch again that failed with a
code. -/
def Careful (db : Db) (call : Call) : Prop :=
  ∀ m ∈ call.request.move?, ∀ b ∈ db.batches, b.id = m.1 → b.organizationId = call.organizationId →
    ¬ (b.status = .partiallyCompleted ∧ m.2 = .failed) ∧
      ¬ (b.status = .failed ∧ b.failureCode ≠ none ∧ m.2 = .queued)

instance (db : Db) (call : Call) : Decidable (Careful db call) :=
  inferInstanceAs (Decidable (∀ _ ∈ _, _))

/-! ## Timestamps and failures -/

variable {db db' : Db} {call : Call} {batch b : Batch} {target : BatchStatus}
  {failure : Option (String × String)} {now : Instant}

/-- What holds of the timestamps of a batch in every run. -/
structure Batch.Timed (batch : Batch) : Prop where
  failed : batch.failedAt.isSome ↔ batch.status = .failed
  done : batch.Done → batch.completedAt.isSome

/-- What careful calls keep besides. -/
structure Batch.Clean (batch : Batch) : Prop where
  completed : batch.completedAt.isSome → batch.Done
  failure : batch.failureCode.isSome → batch.status = .failed

theorem Batch.movedWith_status : (batch.movedWith target failure now).status = target := by
  cases failure <;> rfl

theorem Batch.movedWith_id : (batch.movedWith target failure now).id = batch.id := by
  cases failure <;> rfl

theorem Batch.movedWith_completedAt : (batch.movedWith target failure now).completedAt =
    if target = .completed ∨ target = .partiallyCompleted then some now
    else batch.completedAt := by
  cases failure <;> rfl

theorem Batch.movedWith_failedAt : (batch.movedWith target failure now).failedAt =
    if target = .failed then some now else if target = .queued then none else batch.failedAt := by
  cases failure <;> rfl

theorem eq_queued_of_mem (h : target ∈ BatchStatus.transitions .failed) : target = .queued :=
  mem_singleton.1 h

theorem Batch.Done.of_mem (h : batch.Done) (htarget : target ∈ batch.status.transitions) :
    batch.status = .partiallyCompleted ∧ (target = .completed ∨ target = .failed) := by
  rcases h with h | h
  · rw [h] at htarget
    exact absurd htarget not_mem_nil
  · rw [h] at htarget
    refine ⟨h, ?_⟩
    simpa [BatchStatus.transitions] using htarget

theorem Batch.Timed.moved (h : batch.Timed) (htarget : target ∈ batch.status.transitions) :
    (batch.movedWith target failure now).Timed where
  failed := by
    rw [movedWith_failedAt, movedWith_status]
    by_cases hfailed : target = .failed
    · simp [hfailed]
    · rw [if_neg hfailed]
      by_cases hqueued : target = .queued
      · simp [hqueued]
      · rw [if_neg hqueued, h.failed]
        refine ⟨fun hstatus => ?_, fun hstatus => absurd hstatus hfailed⟩
        rw [hstatus] at htarget
        exact absurd (eq_queued_of_mem htarget) hqueued
  done := by
    intro hdone
    rw [movedWith_completedAt, if_pos]
    · rfl
    · simpa only [Batch.Done, movedWith_status] using hdone

/-- A careful move leaves no completion timestamp and no failure code behind. -/
theorem Batch.Clean.moved (h : batch.Clean) (htarget : target ∈ batch.status.transitions)
    (hfailure : failure.isSome → target = .failed)
    (hcompleted : ¬ (batch.status = .partiallyCompleted ∧ target = .failed))
    (hqueued : ¬ (batch.status = .failed ∧ batch.failureCode ≠ none ∧ target = .queued)) :
    (batch.movedWith target failure now).Clean where
  completed := by
    rw [movedWith_completedAt, Done, movedWith_status]
    by_cases hdone : target = .completed ∨ target = .partiallyCompleted
    · exact fun _ => hdone
    · rw [if_neg hdone]
      intro hset
      obtain ⟨hstatus, htargets⟩ := (h.completed hset).of_mem htarget
      rcases htargets with hcomplete | hfailed
      · exact .inl hcomplete
      · exact absurd ⟨hstatus, hfailed⟩ hcompleted
  failure := by
    rw [movedWith_status]
    cases failure with
    | some _ => exact fun _ => hfailure rfl
    | none =>
      intro hcode
      have hset : batch.failureCode.isSome := hcode
      have hstatus := h.failure hset
      rw [hstatus] at htarget
      refine absurd ⟨hstatus, ?_, eq_queued_of_mem htarget⟩ hqueued
      exact isSome_iff_ne_none.1 hset

theorem timed_row (payload : BatchCreate) (organizationId id : UUID) :
    (payload.row organizationId id).Timed := by
  refine ⟨⟨fun hset => ?_, fun hstatus => ?_⟩, fun hdone => ?_⟩
  · cases hset
  · cases hstatus
  · rcases hdone with hstatus | hstatus <;> cases hstatus

theorem clean_row (payload : BatchCreate) (organizationId id : UUID) :
    (payload.row organizationId id).Clean := by
  refine ⟨fun hset => ?_, fun hset => ?_⟩
  · cases hset
  · cases hset

theorem IngestionStep.timed (hstep : IngestionStep db call db') (h : ∀ b ∈ db.batches, b.Timed) :
    ∀ b ∈ db'.batches, b.Timed :=
  hstep.forall_batches h (fun payload => timed_row payload _ _)
    (fun batch _ _ hmem _ _ hallowed _ => (h batch hmem).moved hallowed)
    (fun _ _ _ hb => ⟨hb.failed, hb.done⟩)

theorem IngestionStep.clean (hstep : IngestionStep db call db') (hcareful : Careful db call)
    (h : ∀ b ∈ db.batches, b.Clean) : ∀ b ∈ db'.batches, b.Clean := by
  refine hstep.forall_batches h (fun payload => clean_row payload _ _) ?_
    (fun _ _ _ hb => ⟨hb.completed, hb.failure⟩)
  intro batch target failure hmem horganization hrequest hallowed hfailure
  obtain ⟨hcompleted, hqueued⟩ := hcareful _ hrequest batch hmem rfl horganization
  exact (h batch hmem).moved hallowed hfailure hcompleted hqueued

/-! ## Counts -/

theorem IngestionStep.closedKept (hstep : IngestionStep db call db') (h : Delivered db) :
    ClosedKept db db' := by
  intro b hb hclosed
  -- the row of an open batch is not the row of a closed one
  have hset : ∀ {batch row : Batch} {rest : Db}, batch ∈ db.batches → ¬ batch.Closed →
      row.id = batch.id → rest.batches = db.batches → ∃ b' ∈ (rest.setBatch row).batches,
        b'.id = b.id ∧ b'.Closed ∧ b'.actualDatasetCount = b.actualDatasetCount ∧
          b'.counts = b.counts := by
    intro batch row rest hmem hopen hrow hrest
    have hother : b.id ≠ row.id := by
      intro hid
      rw [h.batchIds.eq_of_key_eq hb hmem (hid.trans hrow)] at hclosed
      exact hopen hclosed
    refine ⟨b, mem_update_of_mem ?_ (decide_eq_false hother), rfl, hclosed, rfl, rfl⟩
    rw [hrest]
    exact hb
  cases hstep with
  | replay | datasetCreated datasets => exact ⟨b, hb, rfl, hclosed, rfl, rfl⟩
  | batchCreated payload hfresh =>
    exact ⟨b, mem_append_left _ hb, rfl, hclosed, rfl, rfl⟩
  | moved batch target failure hmem horganization hrequest hallowed hfailure =>
    refine hset hmem ?_ Batch.movedWith_id rfl
    rintro (hstatus | hstatus)
    · rw [hstatus] at hallowed
      exact absurd hallowed not_mem_nil
    · rw [hstatus] at hallowed
      exact absurd hallowed not_mem_nil
  | counted batch counts hmem hopen hrequest | recalculated batch hmem hopen =>
    exact hset hmem hopen rfl rfl
  | versionCreated batch datasetId payload version hmem hopen hbatch hversion hfree
  | versionCounted batch version counts hmem hopen hversion hbatch =>
    exact hset hmem hopen rfl rfl
  | versionMoved versionId target => exact ⟨b, hb, rfl, hclosed, rfl, rfl⟩

variable {versions : List DatasetVersion} {batchId organizationId : UUID}

theorem Batch.Balanced.congr {versions' : List DatasetVersion} (h : batch.Balanced versions)
    (hsame : deliveredCounts versions' batch.organizationId batch.id =
      deliveredCounts versions batch.organizationId batch.id) : batch.Balanced versions' where
  datasets := by rw [hsame]; exact h.datasets
  records := by rw [hsame]; exact h.records
  accepted := by rw [hsame]; exact h.accepted
  rejected := by rw [hsame]; exact h.rejected

theorem Batch.applyReconciliation_balanced (batch : Batch) (versions : List DatasetVersion) :
    (batch.applyReconciliation versions batch.organizationId).Balanced versions :=
  ⟨rfl, rfl, rfl, rfl⟩

theorem Batch.Balanced.movedWith (h : batch.Balanced versions) :
    (batch.movedWith target failure now).Balanced versions := by
  cases failure <;> exact ⟨h.datasets, h.records, h.accepted, h.rejected⟩

theorem balanced_row (payload : BatchCreate) (organizationId id : UUID)
    (hfresh : ∀ v ∈ versions, v.ingestionBatchId ≠ id) :
    (payload.row organizationId id).Balanced versions := by
  have hnone : deliveredCounts versions organizationId id = [] := by
    rw [deliveredCounts, map_eq_nil_iff, filter_eq_nil_iff]
    intro v hv hselected
    exact hfresh v hv (of_decide_eq_true hselected).2
  refine ⟨?_, ?_, ?_, ?_⟩
  · show 0 = (deliveredCounts versions organizationId id).length
    rw [hnone]
    rfl
  · show 0 = ((deliveredCounts versions organizationId id).map (·.recordCount)).sum
    rw [hnone]
    rfl
  · show 0 = ((deliveredCounts versions organizationId id).map (·.acceptedRecordCount)).sum
    rw [hnone]
    rfl
  · show 0 = ((deliveredCounts versions organizationId id).map (·.rejectedRecordCount)).sum
    rw [hnone]
    rfl

theorem deliveredCounts_append_other {v : DatasetVersion} (h : v.ingestionBatchId ≠ batchId) :
    deliveredCounts (versions ++ [v]) organizationId batchId =
      deliveredCounts versions organizationId batchId := by
  rw [deliveredCounts, filter_append, filter_cons_of_neg (by simp [h])]
  exact congrArg _ (append_nil _)

theorem deliveredCounts_moved (versionId organizationId batchId : UUID) (target : VersionStatus) :
    deliveredCounts (db.setVersion versionId fun v => v.moved target now).versions organizationId
      batchId = deliveredCounts db.versions organizationId batchId :=
  map_filter_update (fun _ _ _ => rfl) (fun _ _ _ _ => rfl)

theorem deliveredCounts_setVersion_other (h : Delivered db) {version : DatasetVersion}
    (hversion : version ∈ db.versions) (counts : VersionCounts)
    (hother : version.ingestionBatchId ≠ batchId) :
    deliveredCounts (db.setVersion version.id fun v => { v with counts := counts }).versions
      organizationId batchId = deliveredCounts db.versions organizationId batchId := by
  refine map_filter_update (fun _ _ _ => rfl) (fun v hv hid hselected => ?_)
  have hsame : v = version := h.versionIds.eq_of_key_eq hv hversion (of_decide_eq_true hid)
  rw [hsame] at hselected
  exact absurd (of_decide_eq_true hselected).2 hother

theorem balancedAt_applyReconciliation (rest : Db) (batch : Batch) : BalancedAt batch.id
    (rest.setBatch (batch.applyReconciliation rest.versions batch.organizationId)) := by
  intro b hb hid
  rcases mem_setBatch hb with rfl | ⟨-, hother⟩
  · exact batch.applyReconciliation_balanced rest.versions
  · exact absurd hid hother

theorem IngestionStep.balancedAt (hstep : IngestionStep db call db') (h : Delivered db)
    (hhand : ∀ counts, call.request ≠ .updateCounts batchId counts)
    (hbalanced : BalancedAt batchId db) : BalancedAt batchId db' := by
  intro b hb hid
  cases hstep with
  | replay | datasetCreated datasets => exact hbalanced b hb hid
  | batchCreated payload hfresh =>
    rcases mem_append.1 hb with hb | hb
    · exact hbalanced b hb hid
    · rw [mem_singleton.1 hb]
      refine balanced_row payload _ _ fun v hv hbatch => ?_
      obtain ⟨owner, howner, hstored⟩ := h.stored v hv
      exact hfresh owner howner (hstored.trans hbatch)
  | moved batch target failure hmem horganization hrequest hallowed hfailure =>
    rcases mem_setBatch hb with rfl | ⟨hb, -⟩
    · rw [Batch.movedWith_id] at hid
      exact (hbalanced batch hmem hid).movedWith
    · exact hbalanced b hb hid
  | counted batch counts hmem hopen hrequest =>
    rcases mem_setBatch hb with rfl | ⟨hb, -⟩
    · have hsame : batch.id = batchId := hid
      rw [hsame] at hrequest
      exact absurd hrequest (hhand counts)
    · exact hbalanced b hb hid
  | recalculated batch hmem hopen =>
    rcases mem_setBatch hb with rfl | ⟨hb, -⟩
    · exact batch.applyReconciliation_balanced db.versions
    · exact hbalanced b hb hid
  | versionCreated batch datasetId payload version hmem hopen hbatch hversion hfree =>
    rcases mem_setBatch hb with rfl | ⟨hb, hother⟩
    · exact batch.applyReconciliation_balanced (db.versions ++ [version])
    · refine (hbalanced b hb hid).congr (deliveredCounts_append_other ?_)
      rw [hversion]
      exact fun hsame => hother (hsame.symm.trans hbatch)
  | versionCounted batch version counts hmem hopen hversion hbatch =>
    rcases mem_setBatch hb with rfl | ⟨hb, hother⟩
    · exact batch.applyReconciliation_balanced _
    · refine (hbalanced b hb hid).congr (deliveredCounts_setVersion_other h hversion counts ?_)
      exact fun hsame => hother (hsame.symm.trans hbatch)
  | versionMoved versionId target =>
    exact (hbalanced b hb hid).congr (deliveredCounts_moved versionId _ _ target)

theorem touched_ok (hserve : serve db call = .ok db') (batchId : UUID) :
    touched batchId db call = match call.request with
      | .updateCounts id _ => if id = batchId then some .manual else none
      | .recalculate id => if id = batchId then some .derived else none
      | .createVersion _ payload =>
        if payload.ingestionBatchId = batchId then some .derived else none
      | .updateVersionCounts _ versionId _ =>
        if ∃ v ∈ db.versions, v.id = versionId ∧ v.ingestionBatchId = batchId then some .derived
        else none
      | _ => none := by
  rw [touched, hserve]

theorem touched_of_updateCounts (hserve : serve db call = .ok db') {counts : BatchCounts}
    (hrequest : call.request = .updateCounts batchId counts) :
    touched batchId db call = some .manual := by
  rw [touched_ok hserve, hrequest]
  exact if_pos rfl

theorem recalculate_balanced (h : db.recalculate organizationId batchId = .ok db') :
    BalancedAt batchId db' := by
  simp only [Db.recalculate, bind_eq_ok, pure_eq_ok] at h
  obtain ⟨batch, hbatch, _, -, rfl⟩ := h
  obtain ⟨-, rfl, rfl⟩ := batch_ok hbatch
  exact balancedAt_applyReconciliation db batch

theorem createVersion_balanced {sources : List SourceSystem} {datasetId id : UUID}
    {payload : VersionCreate}
    (h : db.createVersion sources organizationId datasetId payload id = .ok db') :
    BalancedAt payload.ingestionBatchId db' := by
  simp only [Db.createVersion, bind_eq_ok, pure_eq_ok] at h
  obtain ⟨_, -, batch, hbatch, _, -, _, -, _, -, _, -, versions, -, rfl⟩ := h
  obtain ⟨-, hid, rfl⟩ := batch_ok hbatch
  rw [← hid]
  exact balancedAt_applyReconciliation { db with versions := versions } batch

theorem updateVersionCounts_balanced {datasetId versionId : UUID} {counts : VersionCounts}
    (hdelivered : Delivered db) {v : DatasetVersion} (hv : v ∈ db.versions)
    (hid : v.id = versionId)
    (h : db.updateVersionCounts organizationId datasetId versionId counts = .ok db') :
    BalancedAt v.ingestionBatchId db' := by
  simp only [Db.updateVersionCounts, bind_eq_ok, pure_eq_ok] at h
  obtain ⟨version, hversion, _, -, batch, hbatch, _, -, rfl⟩ := h
  obtain ⟨hstored, hversionId, -⟩ := version_ok hversion
  obtain ⟨-, hbatchId, rfl⟩ := batch_ok hbatch
  have hsame : v = version :=
    hdelivered.versionIds.eq_of_key_eq hv hstored (hid.trans hversionId.symm)
  rw [hsame, ← hbatchId]
  exact balancedAt_applyReconciliation (db.setVersion versionId _) batch

theorem balancedAt_of_derived (hserve : serve db call = .ok db') (h : Delivered db)
    (htouched : touched batchId db call = some .derived) : BalancedAt batchId db' := by
  rw [touched_ok hserve] at htouched
  unfold serve at hserve
  split at htouched
  case h_1 hrequest =>
    obtain ⟨-, hmanual⟩ := ite_none_right_eq_some.1 htouched
    cases hmanual
  case h_2 hrequest =>
    obtain ⟨rfl, -⟩ := ite_none_right_eq_some.1 htouched
    rw [hrequest] at hserve
    exact recalculate_balanced hserve
  case h_3 payload hrequest =>
    obtain ⟨rfl, -⟩ := ite_none_right_eq_some.1 htouched
    rw [hrequest] at hserve
    exact createVersion_balanced hserve
  case h_4 hrequest =>
    obtain ⟨⟨v, hv, hid, rfl⟩, -⟩ := ite_none_right_eq_some.1 htouched
    rw [hrequest] at hserve
    exact updateVersionCounts_balanced h hv hid hserve
  case h_5 => cases htouched

theorem balancedAt_run {last : Option CountSource} (calls : List Call) (h : Delivered db)
    (hbalanced : last ≠ some .manual → BalancedAt batchId db)
    (hlast : countSource batchId db calls last ≠ some .manual) :
    BalancedAt batchId (service.run db calls) := by
  induction calls generalizing db last with
  | nil => exact hbalanced hlast
  | cons call calls ih =>
    cases hserve : serve db call with
    | error e =>
      have hnext : service.next db call = db := by
        rw [Service.next, service, hserve]
        rfl
      have htouched : touched batchId db call = none := by rw [touched, hserve]
      rw [run_cons, hnext]
      refine ih h hbalanced ?_
      rw [countSource, hnext, htouched] at hlast
      exact hlast
    | ok db' =>
      have hnext : service.next db call = db' := by
        rw [Service.next, service, hserve]
        rfl
      have hstep := serve_step hserve
      rw [run_cons, hnext]
      rw [countSource, hnext] at hlast
      refine ih (hstep.delivered h) (fun hsource => ?_) hlast
      cases htouched : touched batchId db call with
      | some source =>
        cases source with
        | manual =>
          rw [htouched] at hsource
          exact absurd rfl hsource
        | derived => exact balancedAt_of_derived hserve h htouched
      | none =>
        rw [htouched] at hsource
        refine hstep.balancedAt h (fun counts hrequest => ?_) (hbalanced hsource)
        rw [touched_of_updateCounts hserve hrequest] at htouched
        cases htouched

/-! ## Every run -/

/-- What every call keeps. -/
structure Kept (db : Db) : Prop where
  delivered : Delivered db
  timed : ∀ b ∈ db.batches, b.Timed

theorem Kept.empty : Kept .empty where
  delivered := ⟨Unique.nil, Unique.nil, fun _ hv => absurd hv not_mem_nil, fun _ => rfl, Unique.nil⟩
  timed := fun _ hb => absurd hb not_mem_nil

theorem IngestionStep.kept (hstep : IngestionStep db call db') (h : Kept db) : Kept db' :=
  ⟨hstep.delivered h.delivered, hstep.timed h.timed⟩

theorem service_ok {u : Unit} (h : service db call = .ok (db', u)) : serve db call = .ok db' := by
  obtain ⟨_, hserve, heq⟩ := map_eq_ok.1 h
  rw [hserve]
  exact congrArg (fun p => Except.ok p.1) heq

theorem kept_after (calls : List Call) : Kept (after calls) :=
  run_invariant Kept.empty (fun h hok => (serve_step (service_ok hok)).kept h) calls

theorem after_append (before later : List Call) :
    after (before ++ later) = service.run (after before) later :=
  run_append ..

theorem ClosedKept.trans {db'' : Db} (h : ClosedKept db db') (h' : ClosedKept db' db'') :
    ClosedKept db db'' := by
  intro b hb hclosed
  obtain ⟨b', hb', hid, hclosed', hdatasets, hcounts⟩ := h b hb hclosed
  obtain ⟨b'', hb'', hid', hclosed'', hdatasets', hcounts'⟩ := h' b' hb' hclosed'
  exact ⟨b'', hb'', hid'.trans hid, hclosed'', hdatasets'.trans hdatasets, hcounts'.trans hcounts⟩

theorem closedKept_after (before later : List Call) :
    ClosedKept (after before) (after (before ++ later)) := by
  rw [after_append]
  have hboth : Kept (service.run (after before) later) ∧
      ClosedKept (after before) (service.run (after before) later) := by
    refine run_invariant (P := fun db => Kept db ∧ ClosedKept (after before) db)
      ⟨kept_after before, fun b hb hclosed => ⟨b, hb, rfl, hclosed, rfl, rfl⟩⟩ ?_ later
    intro s call s' r h hok
    have hstep := serve_step (service_ok hok)
    exact ⟨hstep.kept h.1, h.2.trans (hstep.closedKept h.1.delivered)⟩
  exact hboth.2

theorem Kept.consistent_iff (h : Kept db) : Consistent db ↔ ∀ b ∈ db.batches, b.Clean := by
  constructor
  · intro hconsistent b hb
    exact ⟨(hconsistent.completed b hb).1, fun hcode => hconsistent.failed b hb (.inr hcode)⟩
  · intro hclean
    refine ⟨fun b hb => ⟨(hclean b hb).completed, (h.timed b hb).done⟩, ?_, h.delivered.numbered,
      h.delivered.oneEach⟩
    rintro b hb (hset | hset)
    · exact (h.timed b hb).failed.1 hset
    · exact (hclean b hb).failure hset

theorem Delivered.batch_eq_ok (h : Delivered db) (hmem : batch ∈ db.batches) :
    db.batch batch.organizationId batch.id = .ok batch := by
  rw [Db.batch, orFail_eq_ok]
  refine h.batchIds.find?_eq_some hmem (decide_eq_true ⟨rfl, rfl⟩) fun b _ hb => ?_
  exact (of_decide_eq_true hb).1

theorem Batch.transition_eq_ok (htarget : target ∈ batch.status.transitions) :
    batch.transition target now = .ok (batch.moved target now) := by
  rw [transition, ensure_of htarget]
  rfl

theorem serve_move (h : Delivered db) (hmem : batch ∈ db.batches)
    (horganization : batch.organizationId = call.organizationId)
    (hrequest : call.request.move? = some (batch.id, target))
    (htarget : target ∈ batch.status.transitions) :
    ∃ failure, serve db call = .ok (db.setBatch (batch.movedWith target failure call.now)) := by
  have htransition : db.transitionBatch call.organizationId batch.id target call.now =
      .ok (db.setBatch (batch.movedWith target none call.now)) := by
    rw [Db.transitionBatch, ← horganization, h.batch_eq_ok hmem, ok_bind,
      Batch.transition_eq_ok htarget]
    rfl
  cases hcall : call.request with
  | recordFailure batchId code summary =>
    rw [hcall] at hrequest
    obtain ⟨rfl, rfl⟩ := Prod.mk.inj (some.inj hrequest)
    refine ⟨some (code, summary), ?_⟩
    rw [serve, hcall]
    show db.recordFailure _ _ _ _ _ = _
    rw [Db.recordFailure, ← horganization, h.batch_eq_ok hmem, ok_bind,
      Batch.transition_eq_ok htarget]
    rfl
  | transition batchId target' | retry batchId | quarantine batchId | release batchId
  | cancel batchId =>
    rw [hcall] at hrequest
    obtain ⟨rfl, rfl⟩ := Prod.mk.inj (some.inj hrequest)
    exact ⟨none, by rw [serve, hcall]; exact htransition⟩
  | createBatch _ | updateCounts _ _ | recalculate _ | createDataset _ | createVersion _ _
  | updateVersionCounts _ _ _ | transitionVersion _ _ _ => rw [hcall] at hrequest; cases hrequest

theorem Batch.not_clean_movedWith (failure : Option (String × String)) (now : Instant)
    (h : batch.Timed)
    (hbad : batch.status = .partiallyCompleted ∧ target = .failed ∨
      batch.status = .failed ∧ batch.failureCode ≠ none ∧ target = .queued) :
    target ∈ batch.status.transitions ∧ ¬ (batch.movedWith target failure now).Clean := by
  rcases hbad with ⟨hstatus, rfl⟩ | ⟨hstatus, hcode, rfl⟩
  · refine ⟨by rw [hstatus]; decide, fun hclean => ?_⟩
    have hset : (batch.movedWith .failed failure now).completedAt.isSome := by
      rw [movedWith_completedAt]
      exact h.done (.inr hstatus)
    rcases hclean.completed hset with hdone | hdone
    · rw [movedWith_status] at hdone
      cases hdone
    · rw [movedWith_status] at hdone
      cases hdone
  · refine ⟨by rw [hstatus]; decide, fun hclean => ?_⟩
    have hset : (batch.movedWith .queued failure now).failureCode.isSome := by
      cases failure with
      | some _ => rfl
      | none => exact isSome_iff_ne_none.2 hcode
    have hfailed := hclean.failure hset
    rw [movedWith_status] at hfailed
    cases hfailed

theorem Kept.not_consistent (h : Kept db) (hcareless : ¬ Careful db call) :
    ∃ db', serve db call = .ok db' ∧ ¬ Consistent db' := by
  simp only [Careful, not_forall] at hcareless
  obtain ⟨⟨batchId, target⟩, hrequest, b, hb, rfl, horganization, hbad⟩ := hcareless
  rw [not_and_or, not_not, not_not] at hbad
  have hmoved := fun failure => Batch.not_clean_movedWith failure call.now (h.timed b hb) hbad
  obtain ⟨failure, hserve⟩ := serve_move h.delivered hb horganization hrequest (hmoved none).1
  refine ⟨_, hserve, fun hconsistent => (hmoved failure).2 ?_⟩
  refine ((serve_step hserve).kept h).consistent_iff.1 hconsistent _ ?_
  refine mem_update_of_selected hb (decide_eq_true ?_)
  exact Batch.movedWith_id.symm

/-- The bookkeeping is right in every state of a run exactly when no call of the run fails a
partially completed batch or queues a batch again that failed with a code. -/
theorem bookkept_iff (calls : List Call) :
    (∀ before later, calls = before ++ later → Bookkept before) ↔
      service.AllSteps Careful .empty calls := by
  constructor
  · intro h
    rw [allSteps_iff]
    rintro before call later rfl
    by_contra hcareless
    obtain ⟨db', hserve, hbad⟩ := (kept_after before).not_consistent hcareless
    have hafter : after (before ++ [call]) = db' := by
      rw [after_append, run_cons, run_nil]
      exact next_of_ok (congrArg (Except.map fun db => (db, ())) hserve)
    have hkept := h (before ++ [call]) later (by rw [append_assoc]; rfl)
    rw [← hafter] at hbad
    exact hbad hkept.consistent
  · rintro h before later rfl
    have hcareful := ((allSteps_append Careful .empty before later).1 h).1
    have hclean : ∀ b ∈ (after before).batches, b.Clean :=
      run_invariant_of (P := fun db => ∀ b ∈ db.batches, b.Clean)
        (fun _ hb => absurd hb not_mem_nil)
        (fun h hcareful hok => (serve_step (service_ok hok)).clean hcareful h) hcareful
    refine ⟨(kept_after before).consistent_iff.2 hclean, ?_, fun batchId hlast => ?_⟩
    · rintro earlier rest rfl
      exact closedKept_after earlier rest
    · exact balancedAt_run before Kept.empty.delivered (fun _ _ hb => absurd hb not_mem_nil) hlast

/-! ## A retried batch -/

namespace Retried

def sources : List SourceSystem := [⟨5, 1, .active⟩]

def payload : BatchCreate where
  sourceSystemId := 5
  batchNumber := "batch-001"
  ingestionMethod := .fileUpload
  triggerType := .manual
  externalBatchId := none
  sourcePeriodStart := none
  sourcePeriodEnd := none
  idempotencyKey := none

/-- A batch that is partially completed, fails, and is queued again. -/
def calls : List Call :=
  [⟨1, sources, 0, 10, .createBatch payload⟩,
    ⟨1, sources, 1, 0, .transition 10 .validating⟩,
    ⟨1, sources, 2, 0, .transition 10 .processing⟩,
    ⟨1, sources, 3, 0, .transition 10 .partiallyCompleted⟩,
    ⟨1, sources, 4, 0, .recordFailure 10 "LATE_FAILURE" "The rest failed"⟩,
    ⟨1, sources, 5, 0, .retry 10⟩]

/-- The queued batch has a completion timestamp and a failure code. -/
theorem not_bookkept : ¬ Bookkept calls := by
  intro h
  have hleft : ∃ b ∈ (after calls).batches, b.failureCode.isSome ∧ b.status ≠ .failed := by
    decide +kernel
  obtain ⟨b, hb, hcode, hstatus⟩ := hleft
  exact hstatus (h.consistent.failed b hb (.inr hcode))

end Retried

end Intel4Ops.Ingestion
