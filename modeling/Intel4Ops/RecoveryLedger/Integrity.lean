import Intel4Ops.RecoveryLedger.Steps

/-!
# Recovery ledger: integrity of the stored rows

What holds in every reachable state, whatever the requests: keys identify rows and parents exist,
an approval and the verified status of its measurement go together, and every ledger entry of type
`verified_recovery` belongs to exactly one approval. The converse, an entry for every approval, is
a matter of `Intel4Ops.RecoveryLedger.Books`.
-/

namespace Intel4Ops.RecoveryLedger

open Lib List Table

/-! ## Measurements -/

variable {db db' : Db} {call : Call}

def RecoveryValueMeasurement.key (m : RecoveryValueMeasurement) : UUID × UUID × UUID :=
  (m.id, m.organizationId, m.executionId)

theorem LedgerStep.measurements_cases (h : LedgerStep db call db') :
    db'.measurements = db.measurements ∨
      (∃ row, row.status = .draft ∧ db'.measurements = db.measurements ++ [row]) ∨
      ∃ row f, row ∈ db.measurements ∧ row.status ≠ .verified ∧
        (∀ r : RecoveryValueMeasurement, (f r).key = r.key) ∧
        db'.measurements = update (·.id = row.id) f db.measurements := by
  cases h with
  | record hkeys hmeasurements hverifications hentries =>
    cases hmeasurements with
    | same h => exact .inl h
    | create row hstatus h => exact .inr (.inl ⟨row, hstatus, h⟩)
    | submit row actor now hmem hstatus h =>
      exact .inr (.inr ⟨row, .submit actor now, hmem, by simp [hstatus], fun _ => rfl, h⟩)
  | review row v status hmem hsubmitted _ _ _ _ _ hmeasurements =>
    exact .inr (.inr ⟨row, .setStatus status, hmem, by simp [hsubmitted], fun _ => rfl,
      hmeasurements⟩)
  | approve payload row v e caseId currency happroval =>
    exact .inr (.inr ⟨row, .setStatus .verified, happroval.mem, by simp [happroval.submitted],
      fun _ => rfl, happroval.measurements⟩)
  | answer _ hmeasurements | correct entryId payload original e currency _ _ _ _ _ hmeasurements =>
    exact .inl hmeasurements

theorem measurementIds (hrecords : db.keys.Records) : Table.Unique (·.id) db.measurements := by
  have h := hrecords.measurementIds
  rwa [Table.Unique, Db.keys, map_map] at h

theorem executionIds (hrecords : db.keys.Records) : Table.Unique (·.id) db.executions := by
  have h := hrecords.executionIds
  rwa [Table.Unique, Db.keys, map_map] at h

theorem caseIds (hrecords : db.keys.Records) : Table.Unique (·.id) db.cases := by
  have h := hrecords.caseIds
  rwa [Table.Unique, Db.keys, map_map] at h

variable {m : RecoveryValueMeasurement} {e : VerifiedValueLedgerEntry}
  {v : RecoveryFinanceVerification} {caseId org : UUID}

/-- A stored measurement stays stored under its key, and unchanged once it is verified. -/
theorem LedgerStep.measurement (h : LedgerStep db call db') (hrecords : db.keys.Records)
    (hm : m ∈ db.measurements) :
    ∃ m' ∈ db'.measurements, m'.key = m.key ∧ (m.status = .verified → m' = m) := by
  rcases h.measurements_cases with hsame | ⟨row, -, happend⟩ | ⟨row, f, hrow, hnot, hf, hupdate⟩
  · exact ⟨m, hsame ▸ hm, rfl, fun _ => rfl⟩
  · exact ⟨m, happend ▸ mem_append_left _ hm, rfl, fun _ => rfl⟩
  · rw [hupdate]
    by_cases hid : m.id = row.id
    · obtain rfl := (measurementIds hrecords).eq_of_key_eq hm hrow hid
      exact ⟨f m, mem_update_of_selected hm (by simp), hf m, fun hv => absurd hv hnot⟩
    · exact ⟨m, mem_update_of_mem hm (by simpa using hid), rfl, fun _ => rfl⟩

/-- Outside an approval a measurement that is verified was verified before. -/
theorem mem_of_verified {row : RecoveryValueMeasurement} {status : MeasurementStatus}
    (hstatus : status ≠ .verified) (hmeasurements :
      db'.measurements = update (·.id = row.id) (.setStatus status) db.measurements)
    (hm : m ∈ db'.measurements) (hv : m.status = .verified) : m ∈ db.measurements := by
  rw [hmeasurements, mem_update] at hm
  obtain ⟨r, hr, rfl⟩ := hm
  by_cases hid : r.id = row.id
  · simp only [hid, decide_true, if_true] at hv
    exact absurd hv hstatus
  · simpa [hid] using hr

theorem MeasurementWrite.mem_of_verified (h : MeasurementWrite db db') (hm : m ∈ db'.measurements)
    (hv : m.status = .verified) : m ∈ db.measurements := by
  cases h with
  | same h => exact h ▸ hm
  | create row hstatus h =>
    rw [h, mem_append, mem_singleton] at hm
    rcases hm with hm | rfl
    · exact hm
    · rw [hstatus] at hv
      cases hv
  | submit row actor now hmem hstatus h =>
    rw [h, mem_update] at hm
    obtain ⟨r, hr, rfl⟩ := hm
    by_cases hid : r.id = row.id
    · simp only [hid, decide_true, if_true] at hv
      cases hv
    · simpa [hid] using hr

/-! ## The invariant -/

def RecoveryFinanceVerification.Approves (v : RecoveryFinanceVerification) (id : UUID) : Prop :=
  v.decision = .approved ∧ v.measurementId = id

/-- An entry that was posted for an approval, in the case of the approved measurement. -/
structure PostedFor (db : Db) (e : VerifiedValueLedgerEntry) (v : RecoveryFinanceVerification) :
    Prop where
  approved : v.decision = .approved
  verificationId : e.verificationId = some v.id
  measurementId : e.measurementId = some v.measurementId
  key : e.idempotencyKey = v.idempotencyKey
  org : e.organizationId = v.organizationId
  amount : e.amount = v.verifiedAmount
  case : ∃ x, (v.measurementId, v.organizationId, x) ∈ db.keys.measurements ∧
    (x, v.organizationId, e.recoveryCaseId) ∈ db.keys.executions

/-- The integrity of the stored rows. -/
structure Integrity (db : Db) : Prop where
  records : db.keys.Records
  verificationIds : Table.Unique (·.id) db.verifications
  verificationKeys : Table.Unique (fun v => (v.organizationId, v.idempotencyKey)) db.verifications
  entryIds : Table.Unique (·.id) db.ledgerEntries
  entryKeys : Table.Unique (fun e => (e.organizationId, e.idempotencyKey)) db.ledgerEntries
  measured : ∀ v ∈ db.verifications, ∃ m ∈ db.measurements, m.id = v.measurementId ∧
    (v.decision = .approved → m.status = .verified)
  approved : ∀ m ∈ db.measurements, m.status = .verified →
    ∃ v ∈ db.verifications, v.Approves m.id ∧ v.organizationId = m.organizationId
  single : ∀ v ∈ db.verifications, ∀ v' ∈ db.verifications, ∀ id, v.Approves id →
    v'.Approves id → v = v'
  entryCase : ∀ e ∈ db.ledgerEntries,
    (e.recoveryCaseId, e.organizationId, e.currencyCode) ∈ db.keys.cases
  recovery : ∀ e ∈ db.ledgerEntries, e.entryType = .verifiedRecovery →
    ∃ v ∈ db.verifications, PostedFor db e v
  corrections : ∀ e ∈ db.ledgerEntries, e.entryType ≠ .verifiedRecovery →
    e.verificationId = none ∧ e.entryType ∈
      [LedgerEntryType.adjustmentPositive, .adjustmentNegative, .reversal]

theorem PostedFor.mono (h : PostedFor db e v) (hkeys : db.keys.Step db'.keys) :
    PostedFor db' e v := by
  obtain ⟨x, hm, hx⟩ := h.case
  exact { h with case := ⟨x, hkeys.measurements_subset hm, hkeys.executions_subset hx⟩ }

theorem integrity_empty (external : External) : Integrity (Db.empty external) where
  records := ⟨.nil, .nil, .nil, fun _ hx => absurd hx not_mem_nil,
    fun _ hm => absurd hm not_mem_nil⟩
  verificationIds := .nil
  verificationKeys := .nil
  entryIds := .nil
  entryKeys := .nil
  measured _ hv := absurd hv not_mem_nil
  approved _ hm := absurd hm not_mem_nil
  single _ hv := absurd hv not_mem_nil
  entryCase _ he := absurd he not_mem_nil
  recovery _ he := absurd he not_mem_nil
  corrections _ he := absurd he not_mem_nil

theorem LedgerStep.keys (h : LedgerStep db call db') : db.keys.Step db'.keys := by
  cases h with
  | record hkeys => exact hkeys
  | review row v status _ _ _ _ _ _ hkeys
  | answer hkeys | correct entryId payload original e currency _ _ _ _ hkeys => exact .of_eq hkeys
  | approve payload row v e caseId currency happroval => exact .of_eq happroval.keys

/-- A verification that clashes with none keeps the verifications identified. -/
theorem Integrity.verifications_unique (hinv : Integrity db)
    (hverifications : db'.verifications = db.verifications ++ [v])
    (hfree : ∀ v' ∈ db.verifications, ¬ v'.Clash v) :
    Table.Unique (·.id) db'.verifications ∧
      Table.Unique (fun v => (v.organizationId, v.idempotencyKey)) db'.verifications := by
  rw [hverifications]
  refine ⟨hinv.verificationIds.append fun v' hv' hid => hfree v' hv' (.inl hid),
    hinv.verificationKeys.append fun v' hv' hkey => hfree v' hv' (.inr ?_)⟩
  exact ⟨congrArg Prod.fst hkey, congrArg Prod.snd hkey⟩

theorem Integrity.measured_append (hinv : Integrity db) (h : LedgerStep db call db')
    (hverifications : db'.verifications = db.verifications ++ [v])
    (hv : ∃ m ∈ db'.measurements, m.id = v.measurementId ∧
      (v.decision = .approved → m.status = .verified)) :
    ∀ v ∈ db'.verifications, ∃ m ∈ db'.measurements, m.id = v.measurementId ∧
      (v.decision = .approved → m.status = .verified) := by
  intro v' hv'
  rw [hverifications, mem_append, mem_singleton] at hv'
  rcases hv' with hv' | rfl
  · obtain ⟨m, hm, hid, hstatus⟩ := hinv.measured v' hv'
    obtain ⟨m', hm', hkey, hkeep⟩ := h.measurement hinv.records hm
    refine ⟨m', hm', (congrArg Prod.fst hkey).trans hid, fun hd => ?_⟩
    rw [hkeep (hstatus hd)]
    exact hstatus hd
  · exact hv

theorem Integrity.measured_same (hinv : Integrity db) (h : LedgerStep db call db')
    (hverifications : db'.verifications = db.verifications) :
    ∀ v ∈ db'.verifications, ∃ m ∈ db'.measurements, m.id = v.measurementId ∧
      (v.decision = .approved → m.status = .verified) := by
  intro v hv
  obtain ⟨m, hm, hid, hstatus⟩ := hinv.measured v (hverifications ▸ hv)
  obtain ⟨m', hm', hkey, hkeep⟩ := h.measurement hinv.records hm
  refine ⟨m', hm', (congrArg Prod.fst hkey).trans hid, fun hd => ?_⟩
  rw [hkeep (hstatus hd)]
  exact hstatus hd

theorem Posted.unique {key : String} {currency : String} (hinv : Integrity db)
    (h : Posted db db' org key caseId currency e) :
    Table.Unique (·.id) db'.ledgerEntries ∧
      Table.Unique (fun e => (e.organizationId, e.idempotencyKey)) db'.ledgerEntries := by
  rw [h.entries]
  refine ⟨hinv.entryIds.append fun e' he' hid => h.free e' he' (.inl hid),
    hinv.entryKeys.append fun e' he' hkey => h.free e' he' (.inr (.inl ?_))⟩
  exact ⟨congrArg Prod.fst hkey, congrArg Prod.snd hkey⟩

theorem Posted.mem {key : String} {currency : String} {e' : VerifiedValueLedgerEntry}
    (h : Posted db db' org key caseId currency e) (he' : e' ∈ db'.ledgerEntries) :
    e' ∈ db.ledgerEntries ∨ e' = e := by
  rw [h.entries, mem_append, mem_singleton] at he'
  exact he'

theorem Posted.entryCase {key : String} {currency : String}
    (h : Posted db db' org key caseId currency e) (hinv : Integrity db)
    (hkeys : db'.keys = db.keys) (hcase : (caseId, org, currency) ∈ db.keys.cases) :
    ∀ e ∈ db'.ledgerEntries,
      (e.recoveryCaseId, e.organizationId, e.currencyCode) ∈ db'.keys.cases := by
  intro e' he'
  rw [hkeys]
  rcases h.mem he' with he' | rfl
  · exact hinv.entryCase e' he'
  · rw [h.case, h.org, h.currency]
    exact hcase

/-! ## Steps keep the invariant -/

theorem Integrity.record (hinv : Integrity db) (h : LedgerStep db call db')
    (hmeasurements : MeasurementWrite db db') (hverifications : db'.verifications = db.verifications)
    (hentries : db'.ledgerEntries = db.ledgerEntries) : Integrity db' where
  records := h.keys.records hinv.records
  verificationIds := by
    rw [hverifications]
    exact hinv.verificationIds
  verificationKeys := by
    rw [hverifications]
    exact hinv.verificationKeys
  entryIds := by
    rw [hentries]
    exact hinv.entryIds
  entryKeys := by
    rw [hentries]
    exact hinv.entryKeys
  measured := hinv.measured_same h hverifications
  approved m hm hv := by
    rw [hverifications]
    exact hinv.approved m (hmeasurements.mem_of_verified hm hv) hv
  single := by
    rw [hverifications]
    exact hinv.single
  entryCase e he := by
    rw [hentries] at he
    exact h.keys.cases_subset (hinv.entryCase e he)
  recovery e he htype := by
    rw [hentries] at he
    obtain ⟨v, hv, hposted⟩ := hinv.recovery e he htype
    rw [hverifications]
    exact ⟨v, hv, hposted.mono h.keys⟩
  corrections := by
    rw [hentries]
    exact hinv.corrections

theorem Integrity.review (hinv : Integrity db) (h : LedgerStep db call db')
    {row : RecoveryValueMeasurement} {status : MeasurementStatus} (hmem : row ∈ db.measurements)
    (hstatus : status ≠ .verified) (hdecision : v.decision ≠ .approved)
    (hmeasurement : v.measurementId = row.id) (hfree : ∀ v' ∈ db.verifications, ¬ v'.Clash v)
    (hmeasurements : db'.measurements = update (·.id = row.id) (.setStatus status) db.measurements)
    (hverifications : db'.verifications = db.verifications ++ [v])
    (hentries : db'.ledgerEntries = db.ledgerEntries) : Integrity db' where
  records := h.keys.records hinv.records
  verificationIds := (hinv.verifications_unique hverifications hfree).1
  verificationKeys := (hinv.verifications_unique hverifications hfree).2
  entryIds := by
    rw [hentries]
    exact hinv.entryIds
  entryKeys := by
    rw [hentries]
    exact hinv.entryKeys
  measured := by
    obtain ⟨m', hm', hkey, -⟩ := h.measurement hinv.records hmem
    exact hinv.measured_append h hverifications
      ⟨m', hm', (congrArg Prod.fst hkey).trans hmeasurement.symm, fun hd => absurd hd hdecision⟩
  approved m hm hv := by
    obtain ⟨v', hv', hrest⟩ := hinv.approved m (mem_of_verified hstatus hmeasurements hm hv) hv
    rw [hverifications]
    exact ⟨v', mem_append_left _ hv', hrest⟩
  single v1 hv1 v2 hv2 id h1 h2 := by
    rw [hverifications, mem_append, mem_singleton] at hv1 hv2
    rcases hv1 with hv1 | rfl
    · rcases hv2 with hv2 | rfl
      · exact hinv.single v1 hv1 v2 hv2 id h1 h2
      · exact absurd h2.1 hdecision
    · exact absurd h1.1 hdecision
  entryCase e he := by
    rw [hentries] at he
    exact h.keys.cases_subset (hinv.entryCase e he)
  recovery e he htype := by
    rw [hentries] at he
    obtain ⟨v', hv', hposted⟩ := hinv.recovery e he htype
    rw [hverifications]
    exact ⟨v', mem_append_left _ hv', hposted.mono h.keys⟩
  corrections := by
    rw [hentries]
    exact hinv.corrections

theorem Integrity.not_approves (hinv : Integrity db) {row : RecoveryValueMeasurement}
    (hmem : row ∈ db.measurements) (hsubmitted : row.status = .submitted) :
    ∀ v ∈ db.verifications, ¬ v.Approves row.id := by
  intro v hv happroves
  obtain ⟨m, hm, hid, hstatus⟩ := hinv.measured v hv
  obtain rfl := (measurementIds hinv.records).eq_of_key_eq hm hmem (hid.trans happroves.2)
  rw [hstatus happroves.1] at hsubmitted
  cases hsubmitted

theorem Integrity.approve_verifications (hinv : Integrity db) (hstep : LedgerStep db call db')
    {payload : VerifyCreate} {row : RecoveryValueMeasurement} {currency : String}
    (h : Approval db call db' payload row v e caseId currency) :
    (∀ v ∈ db'.verifications, ∃ m ∈ db'.measurements, m.id = v.measurementId ∧
        (v.decision = .approved → m.status = .verified)) ∧
      (∀ m ∈ db'.measurements, m.status = .verified →
        ∃ v ∈ db'.verifications, v.Approves m.id ∧ v.organizationId = m.organizationId) ∧
      ∀ v ∈ db'.verifications, ∀ v' ∈ db'.verifications, ∀ id, v.Approves id →
        v'.Approves id → v = v' := by
  have hunapproved := hinv.not_approves h.mem h.submitted
  refine ⟨?_, fun m hm hv => ?_, fun v1 hv1 v2 hv2 id h1 h2 => ?_⟩
  · refine hinv.measured_append hstep h.verifications ⟨row.setStatus .verified, ?_,
      h.measurement.symm, fun _ => rfl⟩
    rw [h.measurements]
    exact mem_update_of_selected h.mem (by simp)
  · rw [h.measurements, mem_update] at hm
    obtain ⟨r, hr, rfl⟩ := hm
    rw [h.verifications]
    by_cases hid : r.id = row.id
    · obtain rfl := (measurementIds hinv.records).eq_of_key_eq hr h.mem hid
      simp only [decide_true, if_true]
      exact ⟨v, mem_append_right _ (mem_singleton_self v), ⟨h.decision, h.measurement⟩,
        h.verificationOrg.trans h.org.symm⟩
    · simp only [hid, decide_false, Bool.false_eq_true, if_false] at hv ⊢
      obtain ⟨v', hv', hrest⟩ := hinv.approved r hr hv
      exact ⟨v', mem_append_left _ hv', hrest⟩
  · rw [h.verifications, mem_append, mem_singleton] at hv1 hv2
    rcases hv1 with hv1 | rfl
    · rcases hv2 with hv2 | rfl
      · exact hinv.single v1 hv1 v2 hv2 id h1 h2
      · obtain rfl : row.id = id := h.measurement.symm.trans h2.2
        exact absurd h1 (hunapproved v1 hv1)
    · rcases hv2 with hv2 | rfl
      · obtain rfl : row.id = id := h.measurement.symm.trans h1.2
        exact absurd h2 (hunapproved v2 hv2)
      · rfl

theorem Approval.postedFor {payload : VerifyCreate} {row : RecoveryValueMeasurement}
    {currency : String} (h : Approval db call db' payload row v e caseId currency)
    (hposted : Posted db db' call.organizationId payload.idempotencyKey caseId currency e)
    (hrecovery : IsRecovery row v e) : PostedFor db' e v := by
  refine ⟨h.decision, hrecovery.verificationId, ?_, hposted.key.trans h.verificationKey.symm,
    hposted.org.trans h.verificationOrg.symm, hrecovery.amount, row.executionId, ?_, ?_⟩
  · rw [hrecovery.measurementId, h.measurement]
  · rw [h.keys, h.measurement, h.verificationOrg, ← h.org]
    exact measurement_mem_keys h.mem
  · rw [h.keys, h.verificationOrg, hposted.case]
    exact h.execution

/-- An approval keeps the invariant, whether it posts its entry or finds its key taken. -/
theorem Integrity.approve (hinv : Integrity db) (hstep : LedgerStep db call db')
    {payload : VerifyCreate} {row : RecoveryValueMeasurement} {currency : String}
    (h : Approval db call db' payload row v e caseId currency) : Integrity db' := by
  obtain ⟨hmeasured, happroved, hsingle⟩ := hinv.approve_verifications hstep h
  obtain ⟨hids, hvkeys⟩ := hinv.verifications_unique h.verifications h.free
  have hkept : ∀ e' ∈ db.ledgerEntries, e'.entryType = .verifiedRecovery →
      ∃ v ∈ db'.verifications, PostedFor db' e' v := by
    intro e' he' htype
    obtain ⟨v', hv', hpost⟩ := hinv.recovery e' he' htype
    rw [h.verifications]
    exact ⟨v', mem_append_left _ hv', hpost.mono hstep.keys⟩
  have hrecords := hstep.keys.records hinv.records
  rcases h.entries with hstored | ⟨hposted, hrecovery⟩
  · refine ⟨hrecords, hids, hvkeys, ?_, ?_, hmeasured, happroved, hsingle, ?_, ?_, ?_⟩
    · rw [hstored.entries]
      exact hinv.entryIds
    · rw [hstored.entries]
      exact hinv.entryKeys
    · rw [hstored.entries, h.keys]
      exact hinv.entryCase
    · rw [hstored.entries]
      exact hkept
    · rw [hstored.entries]
      exact hinv.corrections
  · refine ⟨hrecords, hids, hvkeys, (hposted.unique hinv).1, (hposted.unique hinv).2, hmeasured,
      happroved, hsingle, hposted.entryCase hinv h.keys h.case, fun e' he' htype => ?_,
      fun e' he' htype => ?_⟩
    · rcases hposted.mem he' with he' | rfl
      · exact hkept e' he' htype
      · rw [h.verifications]
        exact ⟨v, mem_append_right _ (mem_singleton_self v), h.postedFor hposted hrecovery⟩
    · rcases hposted.mem he' with he' | rfl
      · exact hinv.corrections e' he' htype
      · exact absurd hrecovery.entryType htype

/-- A posted correction keeps the invariant. -/
theorem Integrity.correct (hinv : Integrity db) (h : LedgerStep db call db') {key : String}
    {currency : String} (hcase : (caseId, call.organizationId, currency) ∈ db.keys.cases)
    (hkeys : db'.keys = db.keys) (hmeasurements : db'.measurements = db.measurements)
    (hverifications : db'.verifications = db.verifications)
    (hposted : Posted db db' call.organizationId key caseId currency e)
    (hverification : e.verificationId = none)
    (htypes : e.entryType ∈ [LedgerEntryType.adjustmentPositive, .adjustmentNegative, .reversal]) :
    Integrity db' := by
  refine ⟨h.keys.records hinv.records, ?_, ?_, (hposted.unique hinv).1, (hposted.unique hinv).2,
    hinv.measured_same h hverifications, ?_, ?_, hposted.entryCase hinv hkeys hcase,
    fun e' he' htype => ?_, fun e' he' htype => ?_⟩
  · rw [hverifications]
    exact hinv.verificationIds
  · rw [hverifications]
    exact hinv.verificationKeys
  · rw [hmeasurements, hverifications]
    exact hinv.approved
  · rw [hverifications]
    exact hinv.single
  · rcases hposted.mem he' with he' | rfl
    · obtain ⟨v, hv, hpost⟩ := hinv.recovery e' he' htype
      rw [hverifications]
      exact ⟨v, hv, hpost.mono h.keys⟩
    · rw [htype] at htypes
      simp at htypes
  · rcases hposted.mem he' with he' | rfl
    · exact hinv.corrections e' he' htype
    · exact ⟨hverification, htypes⟩

/-- The integrity of the stored rows is kept by every step. -/
theorem Integrity.step (hinv : Integrity db) (h : LedgerStep db call db') : Integrity db' := by
  have hstep := h
  cases h with
  | record hkeys hmeasurements hverifications hentries =>
    exact hinv.record hstep hmeasurements hverifications hentries
  | review row v status hmem hsubmitted hstatus hdecision hmeasurement hfree hkeys hmeasurements
      hverifications hentries =>
    exact hinv.review hstep hmem hstatus hdecision hmeasurement hfree hmeasurements hverifications
      hentries
  | approve payload row v e caseId currency happroval => exact hinv.approve hstep happroval
  | answer hkeys hmeasurements hverifications hentries =>
    exact hinv.record hstep (.same hmeasurements) hverifications hentries
  | correct entryId payload original e currency hmem hid horg hcase hkeys hmeasurements
      hverifications hposted hkind =>
    rcases hkind with ⟨-, hadjust⟩ | ⟨-, hreverse⟩
    · refine hinv.correct hstep hcase hkeys hmeasurements hverifications hposted
        hadjust.verificationId ?_
      rcases hadjust.entryType with htype | htype
      · simp [htype]
      · simp [htype]
    · exact hinv.correct hstep hcase hkeys hmeasurements hverifications hposted
        hreverse.verificationId (by simp [hreverse.entryType])

/-! ## Lookups of stored rows -/

theorem getCase_of_mem (hrecords : db.keys.Records) {case : RecoveryCase} (h : case ∈ db.cases) :
    getCase db case.organizationId case.id = .ok case := by
  rw [getCase, orFail_eq_ok]
  refine (caseIds hrecords).find?_eq_some h (by simp) fun c hc hp => ?_
  exact (of_decide_eq_true hp).1

theorem getMeasurement_of_mem (hrecords : db.keys.Records) {row : RecoveryValueMeasurement}
    (h : row ∈ db.measurements) :
    ∃ case, getMeasurement db row.organizationId row.id = .ok (row, case) := by
  obtain ⟨caseId, hx⟩ := hrecords.measurementExecution _ (measurement_mem_keys h)
  obtain ⟨currency, hc⟩ := hrecords.executionCase _ hx
  obtain ⟨x, hxmem, hxkey⟩ := mem_map.1 hx
  obtain ⟨case, hcmem, hckey⟩ := mem_map.1 hc
  simp only [Prod.mk.injEq] at hxkey hckey
  have hrow : (db.measurements.find? fun r =>
      r.id = row.id ∧ r.organizationId = row.organizationId) = some row :=
    (measurementIds hrecords).find?_eq_some h (by simp) fun _ _ hp => (of_decide_eq_true hp).1
  have hexecution : (db.executions.find? fun r =>
      r.id = row.executionId ∧ r.organizationId = row.organizationId) = some x :=
    (executionIds hrecords).find?_eq_some hxmem (by simp [hxkey]) fun _ _ hp =>
      (of_decide_eq_true hp).1.trans hxkey.1.symm
  have hcase := getCase_of_mem hrecords hcmem
  rw [hckey.1, hckey.2.1] at hcase
  refine ⟨case, ?_⟩
  simp only [getMeasurement, getExecution, hrow, hexecution, hxkey.2.2, hcase, orFail_some, ok_bind]
  rfl

/-! ## Whole runs -/

theorem integrity_run {db : Db} (hinv : Integrity db) (calls : List Call) :
    Integrity (serve.run db calls) :=
  Service.run_invariant hinv (fun hinv h => hinv.step (serve_ledgerStep hinv.records h).1) calls

/-- A state that requests reach from an empty store. -/
def Reachable (db : Db) : Prop := serve.Reachable (fun s => ∃ external, s = Db.empty external) db

theorem Reachable.integrity (h : Reachable db) : Integrity db := by
  refine Service.Reachable.induction h ?_ fun hinv h => hinv.step (serve_ledgerStep hinv.records h).1
  rintro _ ⟨external, rfl⟩
  exact integrity_empty external

end Intel4Ops.RecoveryLedger
