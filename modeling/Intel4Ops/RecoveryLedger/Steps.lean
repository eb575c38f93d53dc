import Intel4Ops.RecoveryLedger.Model

/-!
# Recovery ledger: what a committed request writes

`LedgerStep` lists the ways in which a committed request changes the measurements, verifications
and ledger entries, each with the guards that held. The later modules read their invariants off it
and never unfold an operation again.
-/

namespace Intel4Ops.RecoveryLedger

open Lib Lib.Decimal List Table Service

/-! ## Keys -/

/-- The identifiers of cases, executions and measurements with the organization and the parent
they belong to; a case has its currency instead of a parent. No operation rewrites them. -/
structure Keys where
  cases : List (UUID × UUID × String)
  (executions measurements : List (UUID × UUID × UUID))

/-- The keys of the stored rows. -/
def Db.keys (db : Db) : Keys where
  cases := db.cases.map fun c => (c.id, c.organizationId, c.currencyCode)
  executions := db.executions.map fun x => (x.id, x.organizationId, x.recoveryCaseId)
  measurements := db.measurements.map fun m => (m.id, m.organizationId, m.executionId)

/-- Keys identify their rows, and every parent is stored in the same organization. -/
structure Keys.Records (k : Keys) : Prop where
  caseIds : Unique (·.1) k.cases
  executionIds : Unique (·.1) k.executions
  measurementIds : Unique (·.1) k.measurements
  executionCase : ∀ x ∈ k.executions, ∃ currency, (x.2.2, x.2.1, currency) ∈ k.cases
  measurementExecution : ∀ m ∈ k.measurements, ∃ c, (m.2.2, m.2.1, c) ∈ k.executions

/-- What one request does to the keys. -/
inductive Keys.Step (k : Keys) : Keys → Prop
  | same : Step k k
  | addCase (c : UUID × UUID × String) (hfresh : ∀ c' ∈ k.cases, c'.1 ≠ c.1) :
      Step k { k with cases := k.cases ++ [c] }
  | addExecution (x : UUID × UUID × UUID) (hfresh : ∀ x' ∈ k.executions, x'.1 ≠ x.1)
      (hcase : ∃ currency, (x.2.2, x.2.1, currency) ∈ k.cases) :
      Step k { k with executions := k.executions ++ [x] }
  | addMeasurement (m : UUID × UUID × UUID) (hfresh : ∀ m' ∈ k.measurements, m'.1 ≠ m.1)
      (hexecution : ∃ c, (m.2.2, m.2.1, c) ∈ k.executions) :
      Step k { k with measurements := k.measurements ++ [m] }

namespace Keys.Step

variable {k k' : Keys}

theorem of_eq (h : k' = k) : k.Step k' := h ▸ .same

theorem cases_subset (h : k.Step k') : k.cases ⊆ k'.cases := by
  cases h with
  | addCase => exact subset_append_left _ _
  | same | addExecution | addMeasurement => exact Subset.refl _

theorem executions_subset (h : k.Step k') : k.executions ⊆ k'.executions := by
  cases h with
  | addExecution => exact subset_append_left _ _
  | same | addCase | addMeasurement => exact Subset.refl _

theorem measurements_subset (h : k.Step k') : k.measurements ⊆ k'.measurements := by
  cases h with
  | addMeasurement => exact subset_append_left _ _
  | same | addCase | addExecution => exact Subset.refl _

theorem records (h : k.Step k') (hk : k.Records) : k'.Records := by
  cases h with
  | same => exact hk
  | addCase c hfresh =>
    refine { hk with caseIds := hk.caseIds.append hfresh, executionCase := fun x hx => ?_ }
    obtain ⟨currency, hc⟩ := hk.executionCase x hx
    exact ⟨currency, mem_append_left _ hc⟩
  | addExecution x hfresh hcase =>
    refine { hk with
      executionIds := hk.executionIds.append hfresh, executionCase := fun x' hx' => ?_
      measurementExecution := fun m hm => ?_ }
    · rcases mem_append.1 hx' with hx' | hx'
      · exact hk.executionCase x' hx'
      · obtain rfl := mem_singleton.1 hx'
        exact hcase
    · obtain ⟨c, hc⟩ := hk.measurementExecution m hm
      exact ⟨c, mem_append_left _ hc⟩
  | addMeasurement m hfresh hexecution =>
    refine { hk with
      measurementIds := hk.measurementIds.append hfresh, measurementExecution := fun m' hm' => ?_ }
    rcases mem_append.1 hm' with hm' | hm'
    · exact hk.measurementExecution m' hm'
    · obtain rfl := mem_singleton.1 hm'
      exact hexecution

end Keys.Step

/-! ## The shapes of a step -/

/-- The rewrites of a measurement outside a verification. -/
inductive MeasurementWrite (db db' : Db) : Prop
  | same (h : db'.measurements = db.measurements)
  | create (row : RecoveryValueMeasurement) (hstatus : row.status = .draft)
      (h : db'.measurements = db.measurements ++ [row])
  | submit (row : RecoveryValueMeasurement) (actor : UUID) (now : Instant)
      (hmem : row ∈ db.measurements) (hstatus : row.status = .draft)
      (h : db'.measurements = update (·.id = row.id) (.submit actor now) db.measurements)

/-- The stored entry `e` answers for a key of the organization. -/
structure Stored (db db' : Db) (org : UUID) (key : String) (e : VerifiedValueLedgerEntry) :
    Prop where
  mem : e ∈ db.ledgerEntries
  org : e.organizationId = org
  key : e.idempotencyKey = key
  entries : db'.ledgerEntries = db.ledgerEntries

/-- The entry `e` is posted under a key of the organization that no stored entry carries. -/
structure Posted (db db' : Db) (org : UUID) (key : String) (caseId : UUID) (currency : String)
    (e : VerifiedValueLedgerEntry) : Prop where
  free : ∀ e' ∈ db.ledgerEntries, ¬ e'.Clash e
  org : e.organizationId = org
  key : e.idempotencyKey = key
  case : e.recoveryCaseId = caseId
  currency : e.currencyCode = currency
  nonzero : e.amount ≠ 0
  places : Rounding.HasPlaces 12 e.amount
  entries : db'.ledgerEntries = db.ledgerEntries ++ [e]

/-- What an approval posts. -/
structure IsRecovery (row : RecoveryValueMeasurement) (v : RecoveryFinanceVerification)
    (e : VerifiedValueLedgerEntry) : Prop where
  entryType : e.entryType = .verifiedRecovery
  measurementId : e.measurementId = some row.id
  verificationId : e.verificationId = some v.id
  reversalOf : e.reversalOfLedgerEntryId = none
  amount : e.amount = v.verifiedAmount

/-- What an adjustment posts. -/
structure IsAdjustment (e : VerifiedValueLedgerEntry) : Prop where
  entryType : e.entryType = .adjustmentPositive ∨ e.entryType = .adjustmentNegative
  verificationId : e.verificationId = none
  reversalOf : e.reversalOfLedgerEntryId = none

/-- What a reversal posts. -/
structure IsReversal (db : Db) (original : VerifiedValueLedgerEntry)
    (payload : LedgerMutationCreate) (e : VerifiedValueLedgerEntry) : Prop where
  entryType : e.entryType = .reversal
  verificationId : e.verificationId = none
  reversalOf : e.reversalOfLedgerEntryId = some original.id
  amount : e.amount = halfUp.places 12 (context (-payload.amount))
  headroom : payload.amount ≤ reversalHeadroom db original.organizationId original

/-- The verification of an approval can be stored: the amount fits its column, the drawn identifier
is new, and so is the key of the audit event, which fits its column too. -/
def Storable (db : Db) (call : Call) (payload : VerifyCreate) : Prop :=
  |halfUp.places 12 payload.verifiedAmount| < 10 ^ (38 - 12) ∧
    (∀ v ∈ db.verifications, v.id ≠ call.ids 0) ∧
    ("verify:" ++ payload.idempotencyKey).length ≤ 255 ∧
    ∀ event ∈ db.auditEvents, event.organizationId = call.organizationId →
      event.idempotencyKey ≠ "verify:" ++ payload.idempotencyKey

instance (db : Db) (call : Call) (payload : VerifyCreate) :
    Decidable (Storable db call payload) := inferInstanceAs (Decidable (_ ∧ _))

/-- The approval of a measurement, with the entry that carries its key: a stored one, or the one
posted for it. -/
structure Approval (db : Db) (call : Call) (db' : Db) (payload : VerifyCreate)
    (row : RecoveryValueMeasurement) (v : RecoveryFinanceVerification)
    (e : VerifiedValueLedgerEntry) (caseId : UUID) (currency : String) : Prop where
  request : call.request = .verify row.id payload
  mem : row ∈ db.measurements
  org : row.organizationId = call.organizationId
  submitted : row.status = .submitted
  actor : row.submittedByUserId ≠ some call.actor
  currencyCode : payload.currencyCode = row.currencyCode
  storable : Storable db call payload
  execution : (row.executionId, call.organizationId, caseId) ∈ db.keys.executions
  case : (caseId, call.organizationId, currency) ∈ db.keys.cases
  decision : v.decision = .approved
  measurement : v.measurementId = row.id
  verificationOrg : v.organizationId = call.organizationId
  verificationKey : v.idempotencyKey = payload.idempotencyKey
  free : ∀ v' ∈ db.verifications, ¬ v'.Clash v
  keys : db'.keys = db.keys
  measurements : db'.measurements = update (·.id = row.id) (.setStatus .verified) db.measurements
  verifications : db'.verifications = db.verifications ++ [v]
  entries : Stored db db' call.organizationId payload.idempotencyKey e ∨
    Posted db db' call.organizationId payload.idempotencyKey caseId currency e ∧ IsRecovery row v e

/-- What one committed request does to measurements, verifications and ledger entries. -/
inductive LedgerStep (db : Db) (call : Call) (db' : Db) : Prop
  | record (hkeys : db.keys.Step db'.keys) (hmeasurements : MeasurementWrite db db')
      (hverifications : db'.verifications = db.verifications)
      (hentries : db'.ledgerEntries = db.ledgerEntries)
  /-- A finance review that does not approve. -/
  | review (row : RecoveryValueMeasurement) (v : RecoveryFinanceVerification)
      (status : MeasurementStatus) (hmem : row ∈ db.measurements)
      (hsubmitted : row.status = .submitted) (hstatus : status ≠ .verified)
      (hdecision : v.decision ≠ .approved) (hmeasurement : v.measurementId = row.id)
      (hfree : ∀ v' ∈ db.verifications, ¬ v'.Clash v) (hkeys : db'.keys = db.keys)
      (hmeasurements :
        db'.measurements = update (·.id = row.id) (.setStatus status) db.measurements)
      (hverifications : db'.verifications = db.verifications ++ [v])
      (hentries : db'.ledgerEntries = db.ledgerEntries)
  | approve (payload : VerifyCreate) (row : RecoveryValueMeasurement)
      (v : RecoveryFinanceVerification) (e : VerifiedValueLedgerEntry) (caseId : UUID)
      (currency : String) (h : Approval db call db' payload row v e caseId currency)
  /-- An adjustment or a reversal whose key a stored entry already carries. -/
  | answer (hkeys : db'.keys = db.keys) (hmeasurements : db'.measurements = db.measurements)
      (hverifications : db'.verifications = db.verifications)
      (hentries : db'.ledgerEntries = db.ledgerEntries)
  /-- An adjustment or a reversal that is posted. -/
  | correct (entryId : UUID) (payload : LedgerMutationCreate)
      (original e : VerifiedValueLedgerEntry) (currency : String)
      (hmem : original ∈ db.ledgerEntries) (hid : original.id = entryId)
      (horg : original.organizationId = call.organizationId)
      (hcase : (original.recoveryCaseId, call.organizationId, currency) ∈ db.keys.cases)
      (hkeys : db'.keys = db.keys) (hmeasurements : db'.measurements = db.measurements)
      (hverifications : db'.verifications = db.verifications)
      (hposted : Posted db db' call.organizationId payload.idempotencyKey original.recoveryCaseId
        currency e)
      (hkind : call.request = .adjustment entryId payload ∧ IsAdjustment e ∨
        call.request = .reversal entryId payload ∧ IsReversal db original payload e)

/-! ## Inversion of the operations -/

variable {db db' : Db} {org actor : UUID}

theorem audit_ok {case : RecoveryCase} {eventType key reason : String}
    (h : audit db case eventType actor key reason = .ok db') :
    ∃ event, event.organizationId = case.organizationId ∧ event.idempotencyKey = key ∧
      (∀ event' ∈ db.auditEvents, ¬ event'.Clash event) ∧
      db' = { db with auditEvents := db.auditEvents ++ [event] } := by
  simp only [audit, bind_eq_ok, ensure_eq_ok, orFail_eq_ok, pure_eq_ok, insert_eq_some] at h
  obtain ⟨-, -, events, ⟨hfree, rfl⟩, rfl⟩ := h
  exact ⟨_, rfl, rfl, hfree, rfl⟩

theorem audit_length {case : RecoveryCase} {eventType key reason : String}
    (h : audit db case eventType actor key reason = .ok db') : key.length ≤ 255 := by
  simp only [audit, bind_eq_ok, ensure_eq_ok] at h
  obtain ⟨_, hlength, -⟩ := h
  exact hlength

variable {caseId executionId measurementId id : UUID} {e : VerifiedValueLedgerEntry} {now : Instant}

theorem getCase_ok {case : RecoveryCase} (h : getCase db org caseId = .ok case) :
    case ∈ db.cases ∧ case.id = caseId ∧ case.organizationId = org := by
  rw [getCase, orFail_eq_ok] at h
  exact find?_spec h

theorem getExecution_ok {row : RecoveryExecution} {case : RecoveryCase}
    (h : getExecution db org executionId = .ok (row, case)) :
    row ∈ db.executions ∧ row.id = executionId ∧ row.organizationId = org ∧
      getCase db org row.recoveryCaseId = .ok case := by
  simp only [getExecution, bind_eq_ok, orFail_eq_ok, pure_eq_ok, Prod.mk.injEq] at h
  obtain ⟨row, hrow, case, hcase, rfl, rfl⟩ := h
  obtain ⟨hmem, hid, horg⟩ := find?_spec hrow
  exact ⟨hmem, hid, horg, hcase⟩

theorem getMeasurement_ok {row : RecoveryValueMeasurement} {case : RecoveryCase}
    (h : getMeasurement db org measurementId = .ok (row, case)) :
    row ∈ db.measurements ∧ row.id = measurementId ∧ row.organizationId = org ∧
      (row.executionId, org, case.id) ∈ db.keys.executions ∧ case ∈ db.cases ∧
      case.organizationId = org := by
  simp only [getMeasurement, bind_eq_ok, orFail_eq_ok] at h
  obtain ⟨row, hrow, ⟨execution, case⟩, hexecution, h⟩ := h
  cases pure_eq_ok.1 h
  obtain ⟨hmem, hid, horg⟩ := find?_spec hrow
  obtain ⟨hxmem, hxid, hxorg, hcase⟩ := getExecution_ok hexecution
  obtain ⟨hcmem, hcid, hcorg⟩ := getCase_ok hcase
  refine ⟨hmem, hid, horg, ?_, hcmem, hcorg⟩
  rw [← hxid, ← hxorg, hcid]
  exact mem_map_of_mem hxmem

theorem amountColumn_ok {column : String} {x q : ℚ} (h : amountColumn column x = .ok q) :
    q = halfUp.places 12 x ∧ |halfUp.places 12 x| < 10 ^ (38 - 12) :=
  numeric_eq_some.1 (orFail_eq_ok.1 h)

/-- `_ledger_entry` answers with the stored entry of the key, or posts a new one. -/
theorem ledgerEntry_ok {case : RecoveryCase} {key reason : String} {entryType : LedgerEntryType}
    {amount : ℚ} {links : EntryLinks}
    (h : ledgerEntry db case actor key entryType amount reason links id = .ok (db', e)) :
    Stored db db' case.organizationId key e ∧ db' = db ∨
      Posted db db' case.organizationId key case.id case.currencyCode e ∧
        db' = { db with ledgerEntries := db.ledgerEntries ++ [e] } ∧
        amountColumn "amount" amount = .ok e.amount ∧ e.entryType = entryType ∧
        e.measurementId = links.measurementId ∧ e.verificationId = links.verificationId ∧
        e.reversalOfLedgerEntryId = links.reversalOf := by
  unfold ledgerEntry at h
  split at h
  case h_1 prior hfind =>
    cases h
    obtain ⟨hmem, horg, hkey⟩ := find?_spec hfind
    exact .inl ⟨⟨hmem, horg, hkey, rfl⟩, rfl⟩
  case h_2 hfind =>
    simp only [bind_eq_ok, ensure_eq_ok, orFail_eq_ok, pure_eq_ok, insert_eq_some,
      Prod.mk.injEq] at h
    obtain ⟨stored, hamount, -, hnonzero, entries, ⟨hfree, rfl⟩, rfl, rfl⟩ := h
    have hplaces : Rounding.HasPlaces 12 stored :=
      (amountColumn_ok hamount).1 ▸ Rounding.hasPlaces_places halfUp 12 amount
    exact .inr ⟨⟨hfree, rfl, rfl, rfl, rfl, hnonzero, hplaces, rfl⟩, rfl, hamount, rfl, rfl, rfl,
      rfl⟩

theorem case_mem_keys {case : RecoveryCase} (h : case ∈ db.cases) :
    (case.id, case.organizationId, case.currencyCode) ∈ db.keys.cases :=
  mem_map_of_mem h

theorem measurement_mem_keys {row : RecoveryValueMeasurement} (h : row ∈ db.measurements) :
    (row.id, row.organizationId, row.executionId) ∈ db.keys.measurements :=
  mem_map_of_mem h

theorem keys_of_update {p : RecoveryValueMeasurement → Bool}
    {f : RecoveryValueMeasurement → RecoveryValueMeasurement}
    (hf : ∀ r, ((f r).id, (f r).organizationId, (f r).executionId) =
      (r.id, r.organizationId, r.executionId))
    (hcases : db'.cases = db.cases) (hexecutions : db'.executions = db.executions)
    (hmeasurements : db'.measurements = update p f db.measurements) :
    db'.keys = db.keys := by
  have hmap := map_update (p := p) db.measurements
    (fun m => (m.id, m.organizationId, m.executionId)) hf
  simp only [Db.keys, hcases, hexecutions, hmeasurements, hmap]

theorem createCase_step {payload : CaseCreate} {caseCode : String} {row : RecoveryCase}
    (call : Call) (h : createCase db org payload actor id caseCode = .ok (db', row)) :
    LedgerStep db call db' ∧ db.auditEvents ⊆ db'.auditEvents := by
  unfold createCase at h
  split at h
  case h_1 prior hfind =>
    cases h
    exact ⟨.record .same (.same rfl) rfl rfl, Subset.refl _⟩
  case h_2 hfind =>
    simp only [bind_eq_ok, orFail_eq_ok, insert_eq_some, pure_eq_ok] at h
    obtain ⟨anchors, -, expected, -, cases, ⟨hfree, rfl⟩, db1, haudit, hdb⟩ := h
    obtain ⟨event, -, -, -, rfl⟩ := audit_ok haudit
    cases hdb
    refine ⟨.record ?_ (.same rfl) rfl rfl, subset_append_left _ _⟩
    simp only [Db.keys, map_append, map_cons, map_nil]
    refine .addCase _ fun c hc => ?_
    obtain ⟨c, hmem, rfl⟩ := mem_map.1 hc
    exact fun hid => hfree c hmem (.inl hid)

theorem updateCase_step {drawn : UUID} {payload : CaseUpdate} {row : RecoveryCase} (call : Call)
    (h : updateCase db org caseId payload actor drawn = .ok (db', row)) :
    LedgerStep db call db' ∧ db.auditEvents ⊆ db'.auditEvents := by
  simp only [updateCase, bind_eq_ok, ensure_eq_ok, pure_eq_ok] at h
  obtain ⟨case, -, -, -, db1, haudit, hdb⟩ := h
  obtain ⟨event, -, -, -, rfl⟩ := audit_ok haudit
  cases hdb
  refine ⟨.record ?_ (.same rfl) rfl rfl, subset_append_left _ _⟩
  have hmap := map_update (p := (·.id = case.id)) (f := RecoveryCase.set payload)
    db.cases (fun c => (c.id, c.organizationId, c.currencyCode)) fun _ => rfl
  simp only [Db.keys, hmap]
  exact .same

theorem createExecution_step {payload : ExecutionCreate} {row : RecoveryExecution} (call : Call)
    (h : createExecution db org caseId payload actor id = .ok (db', row)) :
    LedgerStep db call db' ∧ db.auditEvents ⊆ db'.auditEvents := by
  unfold createExecution at h
  obtain ⟨case, hcase, h⟩ := bind_eq_ok.1 h
  split at h
  case h_1 prior hfind =>
    cases pure_eq_ok.1 h
    exact ⟨.record .same (.same rfl) rfl rfl, Subset.refl _⟩
  case h_2 hfind =>
    simp only [bind_eq_ok, ensure_eq_ok, orFail_eq_ok, insert_eq_some, pure_eq_ok] at h
    obtain ⟨action, -, -, -, -, -, executions, ⟨hfree, rfl⟩, db1, haudit, hdb⟩ := h
    obtain ⟨event, -, -, -, rfl⟩ := audit_ok haudit
    cases hdb
    refine ⟨.record ?_ (.same rfl) rfl rfl, subset_append_left _ _⟩
    simp only [Db.keys, map_append, map_cons, map_nil]
    refine .addExecution _ (fun x hx => ?_) ?_
    · obtain ⟨x, hmem, rfl⟩ := mem_map.1 hx
      exact fun hid => hfree x hmem (.inl hid)
    · obtain ⟨hmem, -, rfl⟩ := getCase_ok hcase
      exact ⟨case.currencyCode, mem_map_of_mem hmem⟩

theorem move_key {row moved : RecoveryExecution} {transition : ExecutionTransition}
    (h : row.move transition now = some moved) :
    moved.id = row.id ∧ moved.organizationId = row.organizationId ∧
      moved.recoveryCaseId = row.recoveryCaseId := by
  unfold RecoveryExecution.move at h
  split at h
  case h_1 | h_2 =>
    obtain rfl := Option.some.inj h
    exact ⟨rfl, rfl, rfl⟩
  case h_3 => cases h

theorem transitionExecution_step {transition : ExecutionTransition} {row : RecoveryExecution}
    (call : Call) (hrecords : db.keys.Records)
    (h : transitionExecution db org executionId transition actor now = .ok (db', row)) :
    LedgerStep db call db' ∧ db.auditEvents ⊆ db'.auditEvents := by
  simp only [transitionExecution, bind_eq_ok] at h
  obtain ⟨⟨execution, case⟩, hexecution, moved, hmoved, db1, haudit, hdb⟩ := h
  obtain ⟨event, -, -, -, rfl⟩ := audit_ok haudit
  simp only [pure_eq_ok, Prod.mk.injEq] at hdb
  obtain ⟨rfl, -⟩ := hdb
  obtain ⟨hmem, -, -, -⟩ := getExecution_ok hexecution
  obtain ⟨hid, horg, hcase⟩ := move_key (orFail_eq_ok.1 hmoved)
  refine ⟨.record ?_ (.same rfl) rfl rfl, subset_append_left _ _⟩
  -- The rewritten row is the only one with its identifier, so its key is the stored one.
  have hmap : (update (fun r => r.id = execution.id) (fun _ => moved) db.executions).map
      (fun x => (x.id, x.organizationId, x.recoveryCaseId)) =
      db.executions.map fun x => (x.id, x.organizationId, x.recoveryCaseId) := by
    rw [update, map_map]
    refine map_congr_left fun r hr => ?_
    by_cases hsame : r.id = execution.id
    · have hkey := hrecords.executionIds.eq_of_key_eq (mem_map_of_mem hr)
        (mem_map_of_mem hmem) hsame
      rw [hkey]
      simp only [Function.comp_apply, hsame, decide_true, if_true, hid, horg, hcase]
    · simp only [Function.comp_apply, hsame, decide_false, Bool.false_eq_true, if_false]
  simp only [Db.keys, hmap]
  exact .same

theorem createMeasurement_step {payload : MeasurementCreate} {row : RecoveryValueMeasurement}
    (call : Call) (h : createMeasurement db org executionId payload actor id = .ok (db', row)) :
    LedgerStep db call db' ∧ db.auditEvents ⊆ db'.auditEvents := by
  unfold createMeasurement at h
  obtain ⟨⟨execution, case⟩, hexecution, h⟩ := bind_eq_ok.1 h
  dsimp only at h
  split at h
  case h_1 prior hfind =>
    cases pure_eq_ok.1 h
    exact ⟨.record .same (.same rfl) rfl rfl, Subset.refl _⟩
  case h_2 hfind =>
    simp only [createNewMeasurement, bind_eq_ok, ensure_eq_ok, orFail_eq_ok, pure_eq_ok,
      insert_eq_some] at h
    obtain ⟨-, -, -, -, days, -, rate, -, realized, -, baseline, -, actual, -, value, -,
      measurements, ⟨hfree, rfl⟩, db1, haudit, hdb⟩ := h
    obtain ⟨event, -, -, -, rfl⟩ := audit_ok haudit
    cases hdb
    obtain ⟨hmem, -, rfl, -⟩ := getExecution_ok hexecution
    refine ⟨.record ?_ (.create _ ?_ rfl) rfl rfl, subset_append_left _ _⟩
    · have hmap := map_update (p := (·.id = execution.id))
        (f := fun r : RecoveryExecution => { r with status := .measured })
        db.executions (fun x => (x.id, x.organizationId, x.recoveryCaseId))
        fun _ => rfl
      simp only [Db.keys, hmap, map_append, map_cons, map_nil]
      refine .addMeasurement _ (fun m hm => ?_) ?_
      · obtain ⟨m, hmem', rfl⟩ := mem_map.1 hm
        exact fun hid => hfree m hmem' (.inl hid)
      · exact ⟨execution.recoveryCaseId, mem_map_of_mem hmem⟩
    · rfl

theorem submitMeasurement_step {row : RecoveryValueMeasurement} (call : Call)
    (h : submitMeasurement db org measurementId actor now = .ok (db', row)) :
    LedgerStep db call db' ∧ db.auditEvents ⊆ db'.auditEvents := by
  simp only [submitMeasurement, bind_eq_ok] at h
  obtain ⟨⟨measurement, case⟩, hmeasurement, _, hstatus, db1, haudit, hdb⟩ := h
  obtain ⟨event, -, -, -, rfl⟩ := audit_ok haudit
  cases pure_eq_ok.1 hdb
  rw [ensure_eq_ok] at hstatus
  have hmem := (getMeasurement_ok hmeasurement).1
  exact ⟨.record (.of_eq (keys_of_update (f := .submit actor now) (fun _ => rfl) rfl rfl rfl))
    (.submit measurement actor now hmem hstatus.1 rfl) rfl rfl, subset_append_left _ _⟩

theorem financeReview_step {payload : FinanceReviewCreate} {row : RecoveryValueMeasurement}
    (call : Call) (h : financeReview db org measurementId payload actor id = .ok (db', row)) :
    LedgerStep db call db' ∧ db.auditEvents ⊆ db'.auditEvents := by
  simp only [financeReview, bind_eq_ok] at h
  obtain ⟨⟨measurement, case⟩, hmeasurement, _, -, _, hstatus, verifications, hinsert, db1, haudit,
    hdb⟩ := h
  obtain ⟨event, -, -, -, rfl⟩ := audit_ok haudit
  cases pure_eq_ok.1 hdb
  rw [ensure_eq_ok] at hstatus
  rw [orFail_eq_ok, insert_eq_some] at hinsert
  obtain ⟨hfree, rfl⟩ := hinsert
  refine ⟨.review measurement _ _ (getMeasurement_ok hmeasurement).1 hstatus ?_ ?_ rfl hfree
    (keys_of_update (f := .setStatus _) (fun _ => rfl) rfl rfl rfl) rfl rfl rfl,
    subset_append_left _ _⟩
  · split <;> simp
  · dsimp only
    split <;> simp

/-- A verification answers with the entry of its key, or approves the measurement. -/
theorem verify_ok {payload : VerifyCreate} {call : Call}
    (hrequest : call.request = .verify measurementId payload)
    (h : verify db call.organizationId measurementId payload call.actor call.ids = .ok (db', e)) :
    findVerified db call.organizationId payload.idempotencyKey = some e ∧ db' = db ∨
      findVerified db call.organizationId payload.idempotencyKey = none ∧
        db.auditEvents ⊆ db'.auditEvents ∧ ∃ row v caseId currency,
          Approval db call db' payload row v e caseId currency := by
  unfold verify at h
  obtain ⟨⟨row, case⟩, hmeasurement, h⟩ := bind_eq_ok.1 h
  obtain ⟨_, hseparate, h⟩ := bind_eq_ok.1 h
  split at h
  case h_1 ledger hfind =>
    cases pure_eq_ok.1 h
    exact .inl ⟨hfind, rfl⟩
  case h_2 hfind =>
    refine .inr ⟨hfind, ?_⟩
    obtain ⟨hmem, hid, horg, hexecution, hcase, hcorg⟩ := getMeasurement_ok hmeasurement
    rw [← hid] at hrequest
    simp only [verifyNew, bind_eq_ok] at h
    obtain ⟨_, hstatus, _, hcurrency, amount, hamount, verifications, hinsert, ⟨db1, e1⟩, hentry,
      db2, haudit, hdb⟩ := h
    rw [ensure_eq_ok] at hstatus hcurrency
    rw [orFail_eq_ok, insert_eq_some] at hinsert
    obtain ⟨hfree, rfl⟩ := hinsert
    have hlength := audit_length haudit
    obtain ⟨event, hevorg, hevkey, hevfree, rfl⟩ := audit_ok haudit
    cases pure_eq_ok.1 hdb
    have hkey := case_mem_keys hcase
    rw [hcorg] at hkey hevorg
    have hstorable : (∀ event' ∈ db1.auditEvents, ¬ event'.Clash event) →
        db1.auditEvents = db.auditEvents → Storable db call payload := by
      intro hclash hsame
      rw [hsame] at hclash
      exact ⟨(amountColumn_ok hamount).2, fun v hv hvid => hfree v hv (.inl hvid), hlength,
        fun event' hevent' horg' hkey' =>
          hclash event' hevent' ⟨horg'.trans hevorg.symm, hkey'.trans hevkey.symm⟩⟩
    obtain ⟨⟨hemem, heorg, hekey, -⟩, rfl⟩ | ⟨⟨hefree, heorg, hekey, hecase, hecur, hne, hplaces, -⟩,
      rfl, hstored, htype, hmid, hvid, hrev⟩ := ledgerEntry_ok hentry
    · exact ⟨subset_append_left _ _, row, _, case.id, case.currencyCode, hrequest, hmem, horg, hstatus,
        ensure_eq_ok.1 hseparate, hcurrency, hstorable hevfree rfl, hexecution, hkey, rfl, rfl, rfl,
        rfl, hfree, keys_of_update (f := .setStatus .verified) (fun _ => rfl) rfl rfl rfl, rfl, rfl,
        .inl ⟨hemem, heorg.trans hcorg, hekey, rfl⟩⟩
    · refine ⟨subset_append_left _ _, row, _, case.id, case.currencyCode, hrequest, hmem, horg, hstatus,
        ensure_eq_ok.1 hseparate, hcurrency, hstorable hevfree rfl, hexecution, hkey, rfl, rfl, rfl,
        rfl, hfree, keys_of_update (f := .setStatus .verified) (fun _ => rfl) rfl rfl rfl, rfl, rfl,
        .inr ⟨⟨hefree, heorg.trans hcorg, hekey, hecase, hecur, hne, hplaces, rfl⟩,
          htype, hmid, hvid, hrev, ?_⟩⟩
      rw [(amountColumn_ok hstored).1, (amountColumn_ok hamount).1]

theorem verify_step {payload : VerifyCreate} {call : Call}
    (hrequest : call.request = .verify measurementId payload)
    (h : verify db call.organizationId measurementId payload call.actor call.ids = .ok (db', e)) :
    LedgerStep db call db' ∧ db.auditEvents ⊆ db'.auditEvents := by
  obtain ⟨-, rfl⟩ | ⟨-, haudit, row, v, caseId, currency, happroval⟩ := verify_ok hrequest h
  · exact ⟨.record .same (.same rfl) rfl rfl, Subset.refl _⟩
  · exact ⟨.approve payload row v e caseId currency happroval, haudit⟩

theorem adjustment_step {entryId : UUID} {payload : LedgerMutationCreate} {call : Call}
    (hrequest : call.request = .adjustment entryId payload)
    (h : adjustment db call.organizationId entryId payload actor id = .ok (db', e)) :
    LedgerStep db call db' ∧ db.auditEvents ⊆ db'.auditEvents := by
  simp only [adjustment, bind_eq_ok] at h
  obtain ⟨original, horiginal, case, hcase, direction, -, ⟨db1, e1⟩, hentry, db2, haudit, hdb⟩ := h
  obtain ⟨event, -, -, -, rfl⟩ := audit_ok haudit
  cases pure_eq_ok.1 hdb
  rw [getLedger, orFail_eq_ok] at horiginal
  obtain ⟨hmem, hid, horg⟩ := find?_spec horiginal
  obtain ⟨hcmem, hcid, hcorg⟩ := getCase_ok hcase
  have hkey := case_mem_keys hcmem
  rw [hcid, hcorg] at hkey
  obtain ⟨⟨-, -, -, hsame⟩, rfl⟩ | ⟨⟨hefree, heorg, hekey, hecase, hecur, hne, hplaces, -⟩, rfl, -,
    htype,
    -, hvid, hrev⟩ := ledgerEntry_ok hentry
  · exact ⟨.answer rfl rfl rfl rfl, subset_append_left _ _⟩
  · refine ⟨.correct entryId payload original e1 case.currencyCode hmem hid horg hkey rfl rfl rfl
      ⟨hefree, heorg.trans hcorg, hekey, hecase.trans hcid, hecur, hne, hplaces, rfl⟩
      (.inl ⟨hrequest, ?_, hvid, hrev⟩), subset_append_left _ _⟩
    cases direction with
    | positive => exact .inl htype
    | negative => exact .inr htype

theorem reversal_step {entryId : UUID} {payload : LedgerMutationCreate} {call : Call}
    (hrequest : call.request = .reversal entryId payload)
    (h : reversal db call.organizationId entryId payload actor id = .ok (db', e)) :
    LedgerStep db call db' ∧ db.auditEvents ⊆ db'.auditEvents := by
  simp only [reversal, bind_eq_ok] at h
  obtain ⟨original, horiginal, _, hheadroom, case, hcase, ⟨db1, e1⟩, hentry, db2, haudit, hdb⟩ := h
  obtain ⟨event, -, -, -, rfl⟩ := audit_ok haudit
  cases pure_eq_ok.1 hdb
  rw [ensure_eq_ok, not_lt] at hheadroom
  rw [getLedger, orFail_eq_ok] at horiginal
  obtain ⟨hmem, hid, horg⟩ := find?_spec horiginal
  obtain ⟨hcmem, hcid, hcorg⟩ := getCase_ok hcase
  have hkey := case_mem_keys hcmem
  rw [hcid, hcorg] at hkey
  obtain ⟨⟨-, -, -, hsame⟩, rfl⟩ | ⟨⟨hefree, heorg, hekey, hecase, hecur, hne, hplaces, -⟩, rfl,
    hstored,
    htype, -, hvid, hrev⟩ := ledgerEntry_ok hentry
  · exact ⟨.answer rfl rfl rfl rfl, subset_append_left _ _⟩
  · exact ⟨.correct entryId payload original e1 case.currencyCode hmem hid horg hkey rfl rfl rfl
      ⟨hefree, heorg.trans hcorg, hekey, hecase.trans hcid, hecur, hne, hplaces, rfl⟩
      (.inr ⟨hrequest, htype, hvid, hrev, (amountColumn_ok hstored).1, horg ▸ hheadroom⟩),
      subset_append_left _ _⟩

/-! ## Every request -/

theorem serve_ledgerStep {call : Call} {r : Reply} (hrecords : db.keys.Records)
    (h : serve db call = .ok (db', r)) :
    LedgerStep db call db' ∧ db.auditEvents ⊆ db'.auditEvents := by
  unfold serve at h
  split at h
  case h_1 payload hreq =>
    obtain ⟨row, h, -⟩ := reply_ok h
    exact createCase_step call h
  case h_2 caseId payload hreq =>
    obtain ⟨row, h, -⟩ := reply_ok h
    exact updateCase_step call h
  case h_3 caseId payload hreq =>
    obtain ⟨row, h, -⟩ := reply_ok h
    exact createExecution_step call h
  case h_4 executionId transition hreq =>
    obtain ⟨row, h, -⟩ := reply_ok h
    exact transitionExecution_step call hrecords h
  case h_5 executionId payload hreq =>
    obtain ⟨row, h, -⟩ := reply_ok h
    exact createMeasurement_step call h
  case h_6 measurementId hreq =>
    obtain ⟨row, h, -⟩ := reply_ok h
    exact submitMeasurement_step call h
  case h_7 measurementId payload hreq =>
    obtain ⟨row, h, -⟩ := reply_ok h
    exact financeReview_step call h
  case h_8 measurementId payload hreq =>
    obtain ⟨row, h, -⟩ := reply_ok h
    exact verify_step hreq h
  case h_9 entryId payload hreq =>
    obtain ⟨row, h, -⟩ := reply_ok h
    exact adjustment_step hreq h
  case h_10 entryId payload hreq =>
    obtain ⟨row, h, -⟩ := reply_ok h
    exact reversal_step hreq h
  case h_11 external hreq =>
    cases h
    exact ⟨.record .same (.same rfl) rfl rfl, Subset.refl _⟩

end Intel4Ops.RecoveryLedger
