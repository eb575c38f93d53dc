import Intel4Ops.Ingestion.Service

/-!
# What one call does to the ingestion tables

Every committed call creates a row, moves a batch or a version, or writes the counts of an open
batch. The identifiers and the numbers of versions are kept by each of these.
-/

namespace Intel4Ops.Ingestion

open Lib List Table

/-! ## What a committed call does -/

/-- The batch that a request moves, and the status that it moves to. -/
def Request.move? : Request → Option (UUID × BatchStatus)
  | transition batchId target => some (batchId, target)
  | retry batchId => some (batchId, .queued)
  | quarantine batchId => some (batchId, .quarantined)
  | release batchId => some (batchId, .queued)
  | cancel batchId => some (batchId, .cancelled)
  | recordFailure batchId _ _ => some (batchId, .failed)
  | _ => none

variable {db db' : Db} {call : Call}

/-- The row of a batch that moves, with the failure that is recorded with the move. -/
def Batch.movedWith (batch : Batch) (target : BatchStatus) (failure : Option (String × String))
    (now : Instant) : Batch :=
  match failure with
  | none => batch.moved target now
  | some (code, summary) =>
    { batch.moved target now with failureCode := some code, failureSummary := some summary }

/-- What one committed call does to the tables. -/
inductive IngestionStep (db : Db) (call : Call) : Db → Prop
  | replay : IngestionStep db call db
  | batchCreated (payload : BatchCreate) (hfresh : ∀ b ∈ db.batches, b.id ≠ call.drawn) :
      IngestionStep db call
        { db with batches := db.batches ++ [payload.row call.organizationId call.drawn] }
  | moved (batch : Batch) (target : BatchStatus) (failure : Option (String × String))
      (hmem : batch ∈ db.batches) (horganization : batch.organizationId = call.organizationId)
      (hrequest : call.request.move? = some (batch.id, target))
      (hallowed : target ∈ batch.status.transitions) (hfailure : failure.isSome → target = .failed) :
      IngestionStep db call (db.setBatch (batch.movedWith target failure call.now))
  | counted (batch : Batch) (counts : BatchCounts) (hmem : batch ∈ db.batches)
      (hopen : ¬ batch.Closed) (hrequest : call.request = .updateCounts batch.id counts) :
      IngestionStep db call (db.setBatch { batch with counts := counts })
  | recalculated (batch : Batch) (hmem : batch ∈ db.batches) (hopen : ¬ batch.Closed) :
      IngestionStep db call
        (db.setBatch (batch.applyReconciliation db.versions batch.organizationId))
  | datasetCreated (datasets : List Dataset) : IngestionStep db call { db with datasets := datasets }
  | versionCreated (batch : Batch) (datasetId : UUID) (payload : VersionCreate)
      (version : DatasetVersion) (hmem : batch ∈ db.batches) (hopen : ¬ batch.Closed)
      (hbatch : payload.ingestionBatchId = batch.id)
      (hversion : version = payload.row batch.organizationId datasetId (db.nextNumber datasetId)
        version.id) (hfree : ∀ v ∈ db.versions, ¬ v.clash version) :
      IngestionStep db call
        (Db.setBatch { db with versions := db.versions ++ [version] }
          (batch.applyReconciliation (db.versions ++ [version]) batch.organizationId))
  | versionCounted (batch : Batch) (version : DatasetVersion) (counts : VersionCounts)
      (hmem : batch ∈ db.batches) (hopen : ¬ batch.Closed) (hversion : version ∈ db.versions)
      (hbatch : version.ingestionBatchId = batch.id) :
      IngestionStep db call
        (Db.setBatch (db.setVersion version.id fun v => { v with counts := counts })
          (batch.applyReconciliation
            (db.setVersion version.id fun v => { v with counts := counts }).versions
            batch.organizationId))
  | versionMoved (versionId : UUID) (target : VersionStatus) :
      IngestionStep db call (db.setVersion versionId fun v => v.moved target call.now)

variable {batchId datasetId versionId : UUID}

variable {organizationId : UUID} {batches : List Batch} {v : DatasetVersion}

theorem batch_ok {batch : Batch} (h : db.batch organizationId batchId = .ok batch) :
    batch ∈ db.batches ∧ batch.id = batchId ∧ batch.organizationId = organizationId := by
  rw [Db.batch, orFail_eq_ok] at h
  exact find?_spec h

theorem version_ok {version : DatasetVersion}
    (h : db.version organizationId datasetId versionId = .ok version) :
    version ∈ db.versions ∧ version.id = versionId ∧ version.datasetId = datasetId ∧
      version.organizationId = organizationId := by
  rw [Db.version, orFail_eq_ok] at h
  exact find?_spec h

theorem ensureMutable_ok {batch : Batch} {u : Unit} (h : batch.ensureMutable = .ok u) :
    ¬ batch.Closed := by
  rw [Batch.ensureMutable, ensure_eq_ok] at h
  exact h

theorem createBatch_step {sources : List SourceSystem} {payload : BatchCreate}
    (h : db.createBatch sources call.organizationId payload call.drawn = .ok db') :
    IngestionStep db call db' := by
  obtain ⟨_, -, h⟩ := bind_eq_ok.1 h
  split at h
  · simp only [bind_eq_ok, ensure_eq_ok, pure_eq_ok] at h
    obtain ⟨_, -, rfl⟩ := h
    exact .replay
  · simp only [bind_eq_ok, ensure_eq_ok, orFail_eq_ok, pure_eq_ok, insert_eq_some] at h
    obtain ⟨_, -, batches, ⟨hfree, rfl⟩, rfl⟩ := h
    exact .batchCreated payload fun b hb hid => hfree b hb (.inl hid)

theorem transitionBatch_step {target : BatchStatus}
    (hrequest : call.request.move? = some (batchId, target))
    (h : db.transitionBatch call.organizationId batchId target call.now = .ok db') :
    IngestionStep db call db' := by
  simp only [Db.transitionBatch, Batch.transition, bind_eq_ok, ensure_eq_ok, pure_eq_ok] at h
  obtain ⟨batch, hbatch, moved, ⟨_, hallowed, rfl⟩, rfl⟩ := h
  obtain ⟨hmem, rfl, horganization⟩ := batch_ok hbatch
  exact .moved batch target none hmem horganization hrequest hallowed fun hnone => by cases hnone

theorem recordFailure_step {code summary : String}
    (hrequest : call.request.move? = some (batchId, .failed))
    (h : db.recordFailure call.organizationId batchId code summary call.now = .ok db') :
    IngestionStep db call db' := by
  simp only [Db.recordFailure, Batch.transition, bind_eq_ok, ensure_eq_ok, pure_eq_ok] at h
  obtain ⟨batch, hbatch, moved, ⟨_, hallowed, rfl⟩, rfl⟩ := h
  obtain ⟨hmem, rfl, horganization⟩ := batch_ok hbatch
  exact .moved batch .failed (some (code, summary)) hmem horganization hrequest hallowed fun _ => rfl

theorem updateCounts_step {counts : BatchCounts}
    (hrequest : call.request = .updateCounts batchId counts)
    (h : db.updateCounts call.organizationId batchId counts = .ok db') :
    IngestionStep db call db' := by
  simp only [Db.updateCounts, bind_eq_ok, pure_eq_ok] at h
  obtain ⟨batch, hbatch, _, hopen, rfl⟩ := h
  obtain ⟨hmem, rfl, -⟩ := batch_ok hbatch
  exact .counted batch counts hmem (ensureMutable_ok hopen) hrequest

theorem recalculate_step (h : db.recalculate call.organizationId batchId = .ok db') :
    IngestionStep db call db' := by
  simp only [Db.recalculate, bind_eq_ok, pure_eq_ok] at h
  obtain ⟨batch, hbatch, _, hopen, rfl⟩ := h
  obtain ⟨hmem, -, horganization⟩ := batch_ok hbatch
  rw [← horganization]
  exact .recalculated batch hmem (ensureMutable_ok hopen)

theorem createDataset_step {sources : List SourceSystem} {payload : DatasetCreate}
    (h : db.createDataset sources call.organizationId payload call.drawn = .ok db') :
    IngestionStep db call db' := by
  simp only [Db.createDataset, bind_eq_ok, pure_eq_ok] at h
  obtain ⟨_, -, _, -, datasets, -, rfl⟩ := h
  exact .datasetCreated datasets

theorem createVersion_step {sources : List SourceSystem} {payload : VersionCreate}
    (h : db.createVersion sources call.organizationId datasetId payload call.drawn = .ok db') :
    IngestionStep db call db' := by
  simp only [Db.createVersion, bind_eq_ok, ensure_eq_ok, orFail_eq_ok, pure_eq_ok,
    insert_eq_some] at h
  obtain ⟨dataset, -, batch, hbatch, _, hopen, _, -, _, -, _, -, versions, ⟨hfree, rfl⟩, rfl⟩ := h
  obtain ⟨hmem, hid, horganization⟩ := batch_ok hbatch
  rw [← horganization] at hfree ⊢
  exact .versionCreated batch datasetId payload _ hmem (ensureMutable_ok hopen) hid.symm rfl hfree

theorem updateVersionCounts_step {counts : VersionCounts}
    (h : db.updateVersionCounts call.organizationId datasetId versionId counts = .ok db') :
    IngestionStep db call db' := by
  simp only [Db.updateVersionCounts, bind_eq_ok, pure_eq_ok] at h
  obtain ⟨version, hversion, _, -, batch, hbatch, _, hopen, rfl⟩ := h
  obtain ⟨hstored, rfl, -⟩ := version_ok hversion
  obtain ⟨hmem, hid, horganization⟩ := batch_ok hbatch
  rw [← horganization]
  exact .versionCounted batch version counts hmem (ensureMutable_ok hopen) hstored hid.symm

theorem transitionVersion_step {target : VersionStatus}
    (h : db.transitionVersion call.organizationId datasetId versionId target call.now = .ok db') :
    IngestionStep db call db' := by
  simp only [Db.transitionVersion, bind_eq_ok, ensure_eq_ok, pure_eq_ok] at h
  obtain ⟨version, -, _, -, rfl⟩ := h
  exact .versionMoved versionId target

theorem serve_step (h : serve db call = .ok db') : IngestionStep db call db' := by
  unfold serve at h
  split at h
  case h_1 => exact createBatch_step h
  case h_2 hrequest | h_3 hrequest | h_4 hrequest | h_5 hrequest | h_6 hrequest =>
    exact transitionBatch_step (by rw [hrequest]; rfl) h
  case h_7 hrequest => exact recordFailure_step (by rw [hrequest]; rfl) h
  case h_8 hrequest => exact updateCounts_step hrequest h
  case h_9 => exact recalculate_step h
  case h_10 => exact createDataset_step h
  case h_11 => exact createVersion_step h
  case h_12 => exact updateVersionCounts_step h
  case h_13 => exact transitionVersion_step h

variable {batch b : Batch} {target : BatchStatus} {failure : Option (String × String)}
  {now : Instant}

theorem mem_setBatch (h : b ∈ (db.setBatch batch).batches) :
    b = batch ∨ b ∈ db.batches ∧ b.id ≠ batch.id := by
  obtain ⟨row, hrow, rfl⟩ := mem_update.1 h
  by_cases hid : row.id = batch.id
  · exact .inl (if_pos (decide_eq_true hid))
  · rw [if_neg (by simpa using hid)]
    exact .inr ⟨hrow, hid⟩

theorem IngestionStep.forall_batches {P : Batch → Prop} (hstep : IngestionStep db call db')
    (h : ∀ b ∈ db.batches, P b)
    (hnew : ∀ payload : BatchCreate, P (payload.row call.organizationId call.drawn))
    (hmoved : ∀ batch target failure, batch ∈ db.batches →
      batch.organizationId = call.organizationId →
      call.request.move? = some (batch.id, target) → target ∈ batch.status.transitions →
      (failure.isSome → target = .failed) → P (batch.movedWith target failure call.now))
    (hcounts : ∀ (batch : Batch) n counts, P batch →
      P { batch with actualDatasetCount := n, counts := counts }) :
    ∀ b ∈ db'.batches, P b := by
  cases hstep with
  | replay => exact h
  | batchCreated payload hfresh =>
    intro b hb
    rcases mem_append.1 hb with hb | hb
    · exact h b hb
    · rw [mem_singleton.1 hb]
      exact hnew payload
  | moved batch target failure hmem horganization hrequest hallowed hfailure =>
    intro b hb
    rcases mem_setBatch hb with rfl | ⟨hb, -⟩
    · exact hmoved batch target failure hmem horganization hrequest hallowed hfailure
    · exact h b hb
  | counted batch counts hmem hopen hrequest | recalculated batch hmem hopen =>
    intro b hb
    rcases mem_setBatch hb with rfl | ⟨hb, -⟩
    · exact hcounts batch _ _ (h batch hmem)
    · exact h b hb
  | datasetCreated datasets => exact h
  | versionCreated batch datasetId payload version hmem hopen hbatch hversion hfree
  | versionCounted batch version counts hmem hopen hversion hbatch =>
    intro b hb
    rcases mem_setBatch hb with rfl | ⟨hb, -⟩
    · exact hcounts batch _ _ (h batch hmem)
    · exact h b hb
  | versionMoved versionId target => exact h

/-! ## Numbers of versions -/

/-- What holds of the identifiers and the versions in every run. -/
structure Delivered (db : Db) : Prop where
  batchIds : Unique (·.id) db.batches
  versionIds : Unique (·.id) db.versions
  stored : ∀ v ∈ db.versions, ∃ b ∈ db.batches, b.id = v.ingestionBatchId
  numbered : ∀ datasetId, db.numbersOf datasetId = List.range' 1 (db.numbersOf datasetId).length
  oneEach : Unique (fun v => (v.ingestionBatchId, v.datasetId)) db.versions

theorem max?_range' (n : ℕ) : (List.range' 1 n).max?.getD 0 = n := by
  cases n with
  | zero => rfl
  | succ n =>
    have hmax : (List.range' 1 (n + 1)).max? = some (n + 1) := by
      rw [List.max?_eq_some_iff]
      refine ⟨mem_range'_1.2 (by omega), fun m hm => ?_⟩
      have hm := mem_range'_1.1 hm
      omega
    rw [hmax]
    rfl

theorem numbersOf_append_self {datasets : List Dataset} (h : v.datasetId = datasetId) :
    (Db.mk batches datasets (db.versions ++ [v])).numbersOf datasetId =
      db.numbersOf datasetId ++ [v.versionNumber] := by
  rw [Db.numbersOf, filter_append, filter_cons_of_pos (by simpa using h)]
  exact map_append

theorem numbersOf_append_other {datasets : List Dataset} (h : v.datasetId ≠ datasetId) :
    (Db.mk batches datasets (db.versions ++ [v])).numbersOf datasetId = db.numbersOf datasetId := by
  rw [Db.numbersOf, filter_append, filter_cons_of_neg (by simpa using h)]
  exact congrArg _ (append_nil _)

/-- A write that keeps the dataset, the batch and the number of a version. -/
structure KeepsPlace (write : DatasetVersion → DatasetVersion) : Prop where
  id : ∀ v, (write v).id = v.id
  organizationId : ∀ v, (write v).organizationId = v.organizationId
  datasetId : ∀ v, (write v).datasetId = v.datasetId
  ingestionBatchId : ∀ v, (write v).ingestionBatchId = v.ingestionBatchId
  versionNumber : ∀ v, (write v).versionNumber = v.versionNumber

theorem keepsPlace_counts (counts : VersionCounts) :
    KeepsPlace fun v => { v with counts := counts } :=
  ⟨fun _ => rfl, fun _ => rfl, fun _ => rfl, fun _ => rfl, fun _ => rfl⟩

theorem keepsPlace_moved (target : VersionStatus) (now : Instant) :
    KeepsPlace fun v => v.moved target now :=
  ⟨fun _ => rfl, fun _ => rfl, fun _ => rfl, fun _ => rfl, fun _ => rfl⟩

theorem numbersOf_setVersion {write : DatasetVersion → DatasetVersion} (hwrite : KeepsPlace write)
    (versionId datasetId : UUID) :
    (db.setVersion versionId write).numbersOf datasetId = db.numbersOf datasetId := by
  refine map_filter_update (fun v _ _ => ?_) (fun v _ _ _ => hwrite.versionNumber v)
  rw [hwrite.datasetId]

theorem Delivered.setBatch (h : Delivered db) : Delivered (db.setBatch batch) where
  batchIds := by
    refine h.batchIds.update_of_selected fun b _ hb => ?_
    exact (of_decide_eq_true hb).symm
  versionIds := h.versionIds
  stored := by
    intro v hv
    obtain ⟨b, hb, hid⟩ := h.stored v hv
    by_cases hsame : b.id = batch.id
    · exact ⟨batch, mem_update_of_selected hb (decide_eq_true hsame), hsame ▸ hid⟩
    · exact ⟨b, mem_update_of_mem hb (decide_eq_false hsame), hid⟩
  numbered := h.numbered
  oneEach := h.oneEach

theorem Delivered.setVersion (h : Delivered db) {write : DatasetVersion → DatasetVersion}
    (hwrite : KeepsPlace write) (versionId : UUID) : Delivered (db.setVersion versionId write) where
  batchIds := h.batchIds
  versionIds := h.versionIds.update hwrite.id
  stored := by
    intro v hv
    obtain ⟨row, hrow, rfl⟩ := mem_update.1 hv
    obtain ⟨b, hb, hid⟩ := h.stored row hrow
    refine ⟨b, hb, ?_⟩
    split_ifs
    · rw [hwrite.ingestionBatchId, hid]
    · exact hid
  numbered := by
    intro datasetId
    rw [numbersOf_setVersion hwrite]
    exact h.numbered datasetId
  oneEach := h.oneEach.update fun v => by rw [hwrite.ingestionBatchId, hwrite.datasetId]

theorem Delivered.versionCreated (h : Delivered db) (hmem : batch ∈ db.batches)
    {payload : VersionCreate} {version : DatasetVersion}
    (hbatch : payload.ingestionBatchId = batch.id)
    (hversion : version = payload.row batch.organizationId datasetId (db.nextNumber datasetId)
      version.id) (hfree : ∀ v ∈ db.versions, ¬ v.clash version) :
    Delivered { db with versions := db.versions ++ [version] } where
  batchIds := h.batchIds
  versionIds := h.versionIds.append fun v hv hid => hfree v hv (.inl hid)
  stored := by
    intro v hv
    rcases mem_append.1 hv with hv | hv
    · exact h.stored v hv
    · rw [mem_singleton.1 hv, hversion]
      exact ⟨batch, hmem, hbatch.symm⟩
  numbered := by
    intro other
    by_cases hsame : version.datasetId = other
    · have hdataset : datasetId = other := by
        rw [← hsame, hversion]
        rfl
      have hnumber : version.versionNumber = (db.numbersOf other).length + 1 := by
        rw [hversion, hdataset]
        show (db.numbersOf other).max?.getD 0 + 1 = _
        rw [h.numbered other, max?_range', length_range']
      rw [numbersOf_append_self hsame, length_append, length_singleton,
        List.range'_1_concat, ← h.numbered other, hnumber, Nat.add_comm 1]
    · rw [numbersOf_append_other hsame]
      exact h.numbered other
  oneEach := by
    refine h.oneEach.append fun v hv hkey => ?_
    exact hfree v hv (.inr (.inr ⟨congrArg Prod.fst hkey, congrArg Prod.snd hkey⟩))

theorem IngestionStep.delivered (hstep : IngestionStep db call db') (h : Delivered db) :
    Delivered db' := by
  cases hstep with
  | replay => exact h
  | batchCreated payload hfresh =>
    refine ⟨h.batchIds.append hfresh, h.versionIds, fun v hv => ?_, h.numbered, h.oneEach⟩
    obtain ⟨b, hb, hid⟩ := h.stored v hv
    exact ⟨b, mem_append_left _ hb, hid⟩
  | moved batch target failure hmem horganization hrequest hallowed hfailure
  | counted batch counts hmem hopen hrequest | recalculated batch hmem hopen => exact h.setBatch
  | datasetCreated datasets => exact ⟨h.batchIds, h.versionIds, h.stored, h.numbered, h.oneEach⟩
  | versionCreated batch datasetId payload version hmem hopen hbatch hversion hfree =>
    exact (h.versionCreated hmem hbatch hversion hfree).setBatch
  | versionCounted batch version counts hmem hopen hversion hbatch =>
    exact (h.setVersion (keepsPlace_counts counts) version.id).setBatch
  | versionMoved versionId target => exact h.setVersion (keepsPlace_moved target call.now) versionId

end Intel4Ops.Ingestion
