import Intel4Ops.RawLineage.Steps

/-!
# Legal hold and sealing over whole runs

Hold and lifecycle of a raw object are written by independent requests. The invariant below ties
the integrity of an object to its sealing, whatever the order of the requests. The hold itself is
checked on the way into `deletion_requested` but not on the way into `deleted_reference`, and the
runs that keep every hold are exactly those that never ask for that second move under a hold.
-/

namespace Intel4Ops.RawLineage

open Lib RawStorageObjectService List Table Service

/-! ## What is asked of a run -/

/-- The step from `db` to `db'` moves no object into deletion while it is held. -/
def HoldsRespected (db db' : Db) : Prop :=
  ∀ o ∈ db.rawStorageObjects, ∀ o' ∈ db'.rawStorageObjects, o'.id = o.id → o.legalHold = true →
    o'.status ∈ [RawObjectStatus.deletionRequested, .deletedReference] → o'.status = o.status

instance (db db' : Db) : Decidable (HoldsRespected db db') :=
  inferInstanceAs (Decidable (∀ o ∈ db.rawStorageObjects, ∀ o' ∈ db'.rawStorageObjects, _ → _))

/-- Some request of the run moved the object `id` from `sealed` to `deletion_requested`. -/
def DeletionRequestedFromSealed (context : Context) (calls : List Call) (id : UUID) : Prop :=
  ∃ as call bs, calls = as ++ call :: bs ∧
    (∃ o ∈ (serve.run (Db.empty context) as).rawStorageObjects, o.id = id ∧ o.status = .sealed) ∧
    ∃ o ∈ (serve.run (Db.empty context) (as ++ [call])).rawStorageObjects,
      o.id = id ∧ o.status = .deletionRequested

/-- Legal hold and sealing are respected over the whole run: no step moves a held object into
deletion, and in every state reached an object that is sealed, superseded, or whose deletion was
requested from `sealed` has verified integrity. -/
structure HoldAndSealRespected (context : Context) (calls : List Call) : Prop where
  hold : ∀ as call bs, calls = as ++ call :: bs →
    HoldsRespected (serve.run (Db.empty context) as)
      (serve.next (serve.run (Db.empty context) as) call)
  sealed : ∀ as bs, calls = as ++ bs →
    ∀ o ∈ (serve.run (Db.empty context) as).rawStorageObjects,
      o.status = .sealed ∨ o.status = .superseded ∨
        DeletionRequestedFromSealed context as o.id → o.integrityStatus = .verified

/-- The request deletes the reference of an object that is held and whose deletion was
requested. -/
def DeletesHeldReference (db : Db) (call : Call) : Prop :=
  ∃ o ∈ db.rawStorageObjects, o.organizationId = call.organizationId ∧ o.legalHold = true ∧
    o.status = .deletionRequested ∧
    ∃ summary, call.request = .transition o.id .deletedReference summary

/-! ## The invariant of a run -/

def sealedStatuses : List RawObjectStatus :=
  [.sealed, .superseded, .archived, .deletionRequested, .deletedReference]

/-- An object's seal fits its status and integrity. -/
structure SealFits (o : RawStorageObject) : Prop where
  sealedAt : o.status ∈ [RawObjectStatus.sealed, .superseded] → o.sealedAt.isSome = true
  kept : o.sealedAt.isSome = true → o.integrityStatus = .verified ∧ o.status ∈ sealedStatuses

/-- Identifiers name one object each, and every seal fits. -/
structure Sealing (db : Db) : Prop where
  unique : Unique (·.id) db.rawStorageObjects
  fits : ∀ o ∈ db.rawStorageObjects, SealFits o

theorem newObject_sealFits (org : UUID) (payload : RawStorageObjectCreate) (actor id : UUID) :
    SealFits (newObject org payload actor id) where
  sealedAt h := by simp [newObject] at h
  kept h := by simp [newObject] at h

variable {now : Instant} {f : RawStorageObject → RawStorageObject} {db' : Db}

/-- A move that the lifecycle allows keeps the seal fitting: `sealed` is entered with verified
integrity only, and no status behind it leads back to an unsealed one. -/
theorem moveTo_sealFits {item : RawStorageObject} {target : RawObjectStatus}
    (hfit : SealFits item) (hmove : target ∈ transitions item.status)
    (hseal : target = .sealed → item.integrityStatus = .verified) :
    SealFits (moveTo target now item) := by
  by_cases htarget : target = .sealed
  · subst htarget
    exact ⟨fun _ => rfl, fun _ => ⟨hseal rfl, by simp [moveTo, sealedStatuses]⟩⟩
  · have hsealed : (moveTo target now item).sealedAt = item.sealedAt := if_neg htarget
    refine ⟨fun hstatus => ?_, fun hat => ?_⟩
    · -- `superseded` is entered from `sealed` only.
      rw [hsealed]
      refine hfit.sealedAt ?_
      cases hs : item.status <;> simp_all [transitions, moveTo]
    · rw [hsealed] at hat
      obtain ⟨hver, hafter⟩ := hfit.kept hat
      refine ⟨hver, ?_⟩
      cases hs : item.status <;> simp_all [transitions, moveTo, sealedStatuses] <;> tauto

theorem verdict_sealFits {item : RawStorageObject} {matched : Bool} (hfit : SealFits item)
    (hstatus : item.status ∈ [RawObjectStatus.received, .verifying, .quarantined]) :
    SealFits (verdict matched now item) where
  sealedAt h := hfit.sealedAt h
  kept hat := by
    have hafter := (hfit.kept hat).2
    cases hs : item.status <;> simp_all [sealedStatuses]

theorem ObjectWrite.sealFits {call : Call} {item : RawStorageObject} (h : ObjectWrite call item f)
    (hfit : SealFits item) : SealFits (f item) := by
  cases h with
  | move target summary hreq hmove hseal hhold => exact moveTo_sealFits hfit hmove hseal
  | verify matched hstatus => exact verdict_sealFits hfit hstatus
  | hold reason | unhold => exact ⟨hfit.sealedAt, hfit.kept⟩

/-- A seal stays once it is set. -/
theorem ObjectWrite.sealedAt {call : Call} {item : RawStorageObject} (h : ObjectWrite call item f)
    (hat : item.sealedAt.isSome = true) : (f item).sealedAt.isSome = true := by
  cases h with
  | move target summary hreq hmove hseal hhold =>
    by_cases htarget : target = .sealed
    · simp [moveTo, htarget]
    · simpa [moveTo, htarget] using hat
  | verify matched hstatus | hold reason | unhold => exact hat

/-- Where the rows of the state after a request come from: a row that was stored and is
unchanged, the rewritten row, or the registered one. -/
theorem ObjectStep.mem {db : Db} {call : Call} (h : ObjectStep db call db')
    (hunique : Unique (·.id) db.rawStorageObjects) {o' : RawStorageObject}
    (ho' : o' ∈ db'.rawStorageObjects) :
    o' ∈ db.rawStorageObjects ∨
      (∃ item f, item ∈ db.rawStorageObjects ∧ item.organizationId = call.organizationId ∧
        ObjectWrite call item f ∧ o' = f item) ∨
      (∃ payload, o' = newObject call.organizationId payload call.actorUserId (call.ids 0)) ∧
        ∀ o ∈ db.rawStorageObjects, o.id ≠ o'.id := by
  cases h with
  | keep hraw => exact .inl (hraw ▸ ho')
  | register payload item hitem hfree hraw =>
    rw [hraw, mem_append, mem_singleton] at ho'
    rcases ho' with ho' | rfl
    · exact .inl ho'
    · exact .inr (.inr ⟨⟨payload, hitem⟩, fun o ho hid => hfree o ho (.inl hid)⟩)
  | write item f hmem horg hwrite hraw =>
    rw [hraw, mem_update] at ho'
    obtain ⟨o, ho, rfl⟩ := ho'
    by_cases hid : o.id = item.id
    · obtain rfl := hunique.eq_of_key_eq ho hmem hid
      exact .inr (.inl ⟨o, f, hmem, horg, hwrite, by simp⟩)
    · exact .inl (by simpa [hid] using ho)

theorem sealing_empty (context : Context) : Sealing (Db.empty context) where
  unique := Unique.nil
  fits _ ho := absurd ho not_mem_nil

theorem Sealing.step {db : Db} {call : Call} {r : Reply} (hinv : Sealing db)
    (h : serve db call = .ok (db', r)) : Sealing db' := by
  have hstep := (serve_step h).1
  refine ⟨?_, fun o' ho' => ?_⟩
  · cases hstep with
    | keep hraw => exact hraw ▸ hinv.unique
    | register payload item hitem hfree hraw =>
      rw [hraw]
      exact hinv.unique.append fun o ho hid => hfree o ho (.inl hid)
    | write item f hmem horg hwrite hraw =>
      rw [hraw]
      exact hinv.unique.update hwrite.id_eq
  · rcases hstep.mem hinv.unique ho' with ho | ⟨item, f, hmem, -, hwrite, rfl⟩ | ⟨⟨payload, rfl⟩, -⟩
    · exact hinv.fits o' ho
    · exact hwrite.sealFits (hinv.fits item hmem)
    · exact newObject_sealFits ..

theorem sealing_run (context : Context) (calls : List Call) :
    Sealing (serve.run (Db.empty context) calls) :=
  run_invariant (sealing_empty context) (fun hinv h => hinv.step h) calls

theorem sealedAt_run {db : Db} (hinv : Sealing db) {id : UUID}
    (hat : ∃ o ∈ db.rawStorageObjects, o.id = id ∧ o.sealedAt.isSome = true)
    (calls : List Call) :
    ∃ o ∈ (serve.run db calls).rawStorageObjects, o.id = id ∧ o.sealedAt.isSome = true := by
  have hboth : Sealing (serve.run db calls) ∧ ∃ o ∈ (serve.run db calls).rawStorageObjects,
      o.id = id ∧ o.sealedAt.isSome = true := by
    refine run_invariant (P := fun t => Sealing t ∧ ∃ o ∈ t.rawStorageObjects,
      o.id = id ∧ o.sealedAt.isSome = true) ⟨hinv, hat⟩ ?_ calls
    rintro s call s' r ⟨hs, o, ho, hid, hsome⟩ h
    refine ⟨hs.step h, ?_⟩
    cases (serve_step h).1 with
    | keep hraw => exact ⟨o, hraw ▸ ho, hid, hsome⟩
    | register payload item hitem hfree hraw =>
      exact ⟨o, hraw ▸ mem_append_left _ ho, hid, hsome⟩
    | write item f hmem horg hwrite hraw =>
      rw [hraw]
      by_cases heq : o.id = item.id
      · obtain rfl := hs.unique.eq_of_key_eq ho hmem heq
        exact ⟨f o, mem_update_of_selected ho (by simp), (hwrite.id_eq o).trans hid,
          hwrite.sealedAt hsome⟩
      · exact ⟨o, mem_update_of_mem ho (by simpa using heq), hid, hsome⟩
  exact hboth.2

/-- Sealed, superseded, or once asked to be deleted from `sealed`: the integrity is verified. -/
theorem integrity_verified (context : Context) (calls : List Call) {o : RawStorageObject}
    (ho : o ∈ (serve.run (Db.empty context) calls).rawStorageObjects)
    (hcase : o.status = .sealed ∨ o.status = .superseded ∨
      DeletionRequestedFromSealed context calls o.id) : o.integrityStatus = .verified := by
  have hinv := sealing_run context calls
  rcases hcase with hs | hs | ⟨as, call, bs, rfl, ⟨o0, ho0, hid, hs⟩, -⟩
  · exact ((hinv.fits o ho).kept ((hinv.fits o ho).sealedAt (by simp [hs]))).1
  · exact ((hinv.fits o ho).kept ((hinv.fits o ho).sealedAt (by simp [hs]))).1
  · -- The seal set before the deletion was requested is still there at the end of the run.
    have hinv0 := sealing_run context as
    have hat := (hinv0.fits o0 ho0).sealedAt (by simp [hs])
    obtain ⟨o1, ho1, hid1, hat1⟩ := sealedAt_run hinv0 ⟨o0, ho0, hid, hat⟩ (call :: bs)
    rw [← run_append] at ho1
    obtain rfl := hinv.unique.eq_of_key_eq ho ho1 hid1.symm
    exact ((hinv.fits o ho).kept hat1).1

/-! ## Holds -/

theorem next_of_deletesHeldReference {db : Db} (hinv : Sealing db) {call : Call}
    (h : DeletesHeldReference db call) : ¬ HoldsRespected db (serve.next db call) := by
  obtain ⟨o, ho, horg, hheld, hstatus, summary, hreq⟩ := h
  have hget : RawStorageObjectService.get db call.organizationId o.id = .ok o := by
    refine orFail_eq_ok.2 (hinv.unique.find?_eq_some ho (by simp [horg]) fun b _ hb => ?_)
    exact (of_decide_eq_true hb).1
  have hok : ∃ r, serve db call = .ok (LineageEventService.record
      (writeObject db o (moveTo .deletedReference call.now)) call.organizationId .referenceDeleted
      "raw_storage_object" o.id (some call.actorUserId) none summary, r) := by
    refine ⟨.object (moveTo .deletedReference call.now o), ?_⟩
    simp only [serve, hreq, transition, hget, ok_bind]
    rw [ensure_of (by simp [hstatus, transitions]), ok_bind, ensure_of (by simp), ok_bind,
      ensure_of (by simp), ok_bind]
    rfl
  obtain ⟨r, hok⟩ := hok
  intro hrespected
  rw [next_of_ok hok] at hrespected
  have hmoved := hrespected o ho (moveTo .deletedReference call.now o)
    (mem_update_of_selected ho (by simp)) rfl hheld (by simp [moveTo])
  rw [hstatus] at hmoved
  cases hmoved

theorem holdsRespected_next {db : Db} (hinv : Sealing db) (call : Call) :
    HoldsRespected db (serve.next db call) ↔ ¬ DeletesHeldReference db call := by
  refine ⟨fun h hdel => next_of_deletesHeldReference hinv hdel h, fun hdel => ?_⟩
  have hrefl : HoldsRespected db db := fun o ho o' ho' hid _ _ =>
    congrArg RawStorageObject.status (hinv.unique.eq_of_key_eq ho' ho hid)
  rcases next_cases serve db call with ⟨db', r, hok, hnext⟩ | ⟨e, -, hnext⟩
  · rw [hnext]
    intro o ho o' ho' hid hheld hdeletion
    rcases (serve_step hok).1.mem hinv.unique ho' with
      hold | ⟨item, f, hmem, horg, hwrite, rfl⟩ | ⟨-, hfresh⟩
    · exact hrefl o ho o' hold hid hheld hdeletion
    · obtain rfl := hinv.unique.eq_of_key_eq hmem ho ((hwrite.id_eq item).symm.trans hid)
      cases hwrite with
      | move target summary hreq hmove hseal hhold =>
        rcases mem_pair.1 hdeletion with htarget | htarget
        · -- Into `deletion_requested`: the hold is checked.
          rw [hhold htarget] at hheld
          cases hheld
        · -- Into `deleted_reference`: only from `deletion_requested`, and nothing is checked.
          obtain rfl : target = .deletedReference := htarget
          have hfrom : item.status = .deletionRequested := by
            cases hs : item.status <;> simp_all [transitions]
          exact absurd ⟨item, ho, horg, hheld, hfrom, summary, hreq⟩ hdel
      | verify matched hstatus | hold reason | unhold => rfl
    · exact absurd hid.symm (hfresh o ho)
  · rw [hnext]
    exact hrefl

/-! ## Whole runs -/

/-- Legal hold and sealing are respected over a run exactly when no request of the run deletes the
reference of a held object. -/
theorem holdAndSealRespected_iff (context : Context) (calls : List Call) :
    HoldAndSealRespected context calls ↔
      serve.AllSteps (fun db call => ¬ DeletesHeldReference db call) (Db.empty context) calls := by
  rw [allSteps_iff]
  constructor
  · intro h as call bs hcalls
    exact (holdsRespected_next (sealing_run context as) call).1 (h.hold as call bs hcalls)
  · intro h
    refine ⟨fun as call bs hcalls => ?_, fun as bs _ o ho hcase => ?_⟩
    · exact (holdsRespected_next (sealing_run context as) call).2 (h as call bs hcalls)
    · exact integrity_verified context as ho hcase

/-! ## A held reference that is deleted -/

namespace HeldReference

/-- One source system with one batch, dataset and version. -/
def context : Context where
  sourceSystems := [⟨10, 1, .active⟩]
  ingestionBatches := [⟨11, 1, 10⟩]
  datasets := [⟨12, 1, 10⟩]
  datasetVersions := [⟨13, 1, 12, 11⟩]
  rawRecordReferences := []
  processingRuns := []

/-- A request of organization 1, its identifiers drawn from 100 on. -/
def call (request : Request) : Call := ⟨1, 7, 0, (100 + ·), request⟩

def payload : RawStorageObjectCreate :=
  ⟨10, 11, 13, "RAW-1", none, "bucket/raw-1.csv", .sha256, "abc", 3, none⟩

/-- Seal the object, ask for its deletion, and only then apply the hold. -/
def prelude : List Call :=
  [call (.register payload), call (.transition 100 .received none),
    call (.transition 100 .verifying none), call (.verify 100 ⟨.sha256, "abc", true⟩),
    call (.transition 100 .sealed none), call (.transition 100 .deletionRequested none),
    call (.applyLegalHold 100 "litigation")]

/-- The reference of the held object is deleted although its hold was never released. -/
theorem not_holdAndSealRespected : ¬ ∀ (context : Context) (calls : List Call),
    HoldAndSealRespected context calls := by
  intro h
  have hstep := (h context (prelude ++ [call (.transition 100 .deletedReference none)])).hold
    prelude _ [] rfl
  revert hstep
  decide +kernel

end HeldReference

end Intel4Ops.RawLineage
