import Intel4Ops.RecoveryLedger.Integrity
import Mathlib.Data.List.Perm.Lattice

/-!
# Recovery ledger: the books balance

An approval and its ledger entry are committed together, unless a stored adjustment or reversal
already carries the idempotency key of the approval: then `_ledger_entry` answers with that entry
and nothing is posted. Over the runs without such an approval every verified measurement has its
one entry, and the net value of a case is its verified value with the corrections.
-/

namespace Intel4Ops.RecoveryLedger

open Lib Lib.Decimal List Table Service

/-! ## What balanced books are -/

variable {db db' : Db} {org caseId : UUID}

/-- The execution of the measurement belongs to the case. -/
def InCase (db : Db) (m : RecoveryValueMeasurement) (caseId : UUID) : Prop :=
  ∃ x ∈ db.executions, x.id = m.executionId ∧ x.recoveryCaseId = caseId

/-- A verified measurement has one approved verification and one ledger entry of type
`verified_recovery`, in its own case, for that verification and over its amount. -/
def Booked (db : Db) (m : RecoveryValueMeasurement) : Prop :=
  ∃ v ∈ db.verifications, v.Approves m.id ∧ (∀ v' ∈ db.verifications, v'.Approves m.id → v' = v) ∧
    ∃ e ∈ db.ledgerEntries, e.entryType = .verifiedRecovery ∧ e.verificationId = some v.id ∧
      e.amount = v.verifiedAmount ∧ InCase db m e.recoveryCaseId ∧
      ∀ e' ∈ db.ledgerEntries, e'.entryType = .verifiedRecovery → e'.measurementId = some m.id →
        e' = e

def caseEntries (db : Db) (org caseId : UUID) (types : List LedgerEntryType) :
    List VerifiedValueLedgerEntry :=
  db.ledgerEntries.filter fun e =>
    e.organizationId = org ∧ e.recoveryCaseId = caseId ∧ e.entryType ∈ types

/-- The summed amounts of some entries. -/
def total (entries : List VerifiedValueLedgerEntry) : ℚ := (entries.map (·.amount)).sum

/-- The books balance: verified measurements are booked, and the net verified value of a case is
its verified value plus its adjustments plus its reversals. -/
structure BooksBalance (db : Db) : Prop where
  booked : ∀ m ∈ db.measurements, m.status = .verified → Booked db m
  net : ∀ org caseId value, summary db org caseId = .ok value →
    value.netVerifiedValue = value.verifiedValue +
      total (caseEntries db org caseId [.adjustmentPositive, .adjustmentNegative]) +
      total (caseEntries db org caseId [.reversal])

/-- The request approves a submitted measurement under a key that a ledger entry already carries,
although no verification does. -/
def ApprovesUnderTakenKey (db : Db) (call : Call) : Prop :=
  match call.request with
  | .verify measurementId payload =>
    (∃ row ∈ db.measurements, row.id = measurementId ∧
      row.organizationId = call.organizationId ∧ row.status = .submitted ∧
      row.submittedByUserId ≠ some call.actor ∧ payload.currencyCode = row.currencyCode) ∧
    (∀ v ∈ db.verifications, v.organizationId = call.organizationId →
      v.idempotencyKey ≠ payload.idempotencyKey) ∧
    (∃ e ∈ db.ledgerEntries, e.organizationId = call.organizationId ∧
      e.idempotencyKey = payload.idempotencyKey) ∧ Storable db call payload
  | _ => False

instance (db : Db) : (call : Call) → Decidable (ApprovesUnderTakenKey db call)
  | ⟨_, _, _, _, _, .verify ..⟩ => inferInstanceAs (Decidable (_ ∧ _))
  | ⟨_, _, _, _, _, .createCase ..⟩ | ⟨_, _, _, _, _, .updateCase ..⟩
  | ⟨_, _, _, _, _, .createExecution ..⟩ | ⟨_, _, _, _, _, .transitionExecution ..⟩
  | ⟨_, _, _, _, _, .createMeasurement ..⟩ | ⟨_, _, _, _, _, .submitMeasurement ..⟩
  | ⟨_, _, _, _, _, .financeReview ..⟩ | ⟨_, _, _, _, _, .adjustment ..⟩
  | ⟨_, _, _, _, _, .reversal ..⟩ | ⟨_, _, _, _, _, .external ..⟩ =>
    inferInstanceAs (Decidable False)

/-! ## Every approval is posted -/

/-- Every approval has its entry. -/
def ApprovalsPosted (db : Db) : Prop :=
  ∀ v ∈ db.verifications, v.decision = .approved →
    ∃ e ∈ db.ledgerEntries, e.entryType = .verifiedRecovery ∧ PostedFor db e v

/-- Verifications and entries that stay stored keep their approvals posted. -/
theorem ApprovalsPosted.mono {call : Call} (h : ApprovalsPosted db) (hstep : LedgerStep db call db')
    (hverifications : ∀ v ∈ db'.verifications, v.decision = .approved → v ∈ db.verifications)
    (hentries : db.ledgerEntries ⊆ db'.ledgerEntries) : ApprovalsPosted db' := by
  intro v hv hd
  obtain ⟨e, he, htype, hposted⟩ := h v (hverifications v hv hd) hd
  exact ⟨e, hentries he, htype, hposted.mono hstep.keys⟩

theorem ApprovalsPosted.step {call : Call} (h : ApprovalsPosted db)
    (hkey : ¬ ApprovesUnderTakenKey db call) (hstep : LedgerStep db call db') :
    ApprovalsPosted db' := by
  have hwhole := hstep
  cases hstep with
  | record hkeys hmeasurements hverifications hentries =>
    exact h.mono hwhole (fun v hv _ => hverifications ▸ hv) (hentries ▸ Subset.refl _)
  | review row v status hmem hsubmitted hstatus hdecision hmeasurement hfree hkeys hmeasurements
      hverifications hentries =>
    refine h.mono hwhole (fun v' hv' hd => ?_) (hentries ▸ Subset.refl _)
    rw [hverifications, mem_append, mem_singleton] at hv'
    rcases hv' with hv' | rfl
    · exact hv'
    · exact absurd hd hdecision
  | approve payload row v e caseId currency happroval =>
    rcases happroval.entries with hstored | ⟨hposted, hrecovery⟩
    · -- The stored entry carries the key: this is the approval that the condition excludes.
      refine absurd ?_ hkey
      simp only [ApprovesUnderTakenKey, happroval.request]
      refine ⟨⟨row, happroval.mem, rfl, happroval.org, happroval.submitted, happroval.actor,
        happroval.currencyCode⟩, fun v' hv' hvorg' hvkey' => ?_,
        ⟨e, hstored.mem, hstored.org, hstored.key⟩, happroval.storable⟩
      exact happroval.free v' hv' (.inr ⟨hvorg'.trans happroval.verificationOrg.symm,
        hvkey'.trans happroval.verificationKey.symm⟩)
    · intro v' hv' hd
      rw [happroval.verifications, mem_append, mem_singleton] at hv'
      rw [hposted.entries]
      rcases hv' with hv' | rfl
      · obtain ⟨e', he', htype, hpost⟩ := h v' hv' hd
        exact ⟨e', mem_append_left _ he', htype, hpost.mono hwhole.keys⟩
      · exact ⟨e, mem_append_right _ (mem_singleton_self e), hrecovery.entryType,
          happroval.postedFor hposted hrecovery⟩
  | answer hkeys hmeasurements hverifications hentries =>
    exact h.mono hwhole (fun v hv _ => hverifications ▸ hv) (hentries ▸ Subset.refl _)
  | correct entryId payload original e currency hmem hid horg hcase hkeys hmeasurements
      hverifications hposted hkind =>
    refine h.mono hwhole (fun v hv _ => hverifications ▸ hv) ?_
    rw [hposted.entries]
    exact subset_append_left _ _

/-! ## Verified measurements are booked -/

theorem Integrity.booked (hinv : Integrity db) (hposted : ApprovalsPosted db)
    {m : RecoveryValueMeasurement} (hm : m ∈ db.measurements) (hv : m.status = .verified) :
    Booked db m := by
  obtain ⟨v, hvmem, happroves, -⟩ := hinv.approved m hm hv
  obtain ⟨e, he, htype, hpost⟩ := hposted v hvmem happroves.1
  refine ⟨v, hvmem, happroves, fun v' hv' h' => hinv.single v' hv' v hvmem m.id h' happroves,
    e, he, htype, hpost.verificationId, hpost.amount, ?_, fun e' he' htype' hmid => ?_⟩
  · obtain ⟨x, hmkey, hxkey⟩ := hpost.case
    obtain ⟨m', hm', hmkey⟩ := mem_map.1 hmkey
    obtain ⟨hid, -, rfl⟩ : m'.id = v.measurementId ∧ m'.organizationId = v.organizationId ∧
        m'.executionId = x := by simpa using hmkey
    obtain rfl := (measurementIds hinv.records).eq_of_key_eq hm' hm (hid.trans happroves.2)
    obtain ⟨x, hx, hxkey⟩ := mem_map.1 hxkey
    obtain ⟨hxid, -, hxcase⟩ : x.id = m'.executionId ∧ x.organizationId = v.organizationId ∧
        x.recoveryCaseId = e.recoveryCaseId := by simpa using hxkey
    exact ⟨x, hx, hxid, hxcase⟩
  · obtain ⟨v', hv', hpost'⟩ := hinv.recovery e' he' htype'
    have hmeasurement : v'.measurementId = m.id := by
      rw [hpost'.measurementId] at hmid
      exact Option.some.inj hmid
    obtain rfl := hinv.single v' hv' v hvmem m.id ⟨hpost'.approved, hmeasurement⟩ happroves
    refine hinv.entryKeys.eq_of_key_eq he' he ?_
    rw [hpost'.org, hpost'.key, hpost.org, hpost.key]

/-! ## The sums of a case -/

theorem caseMeasurements_eq (hrecords : db.keys.Records) (caseId : UUID) :
    caseMeasurements db caseId = db.measurements.filter fun m =>
      (db.executions.find? fun x => x.id = m.executionId ∧ x.recoveryCaseId = caseId).isSome := by
  rw [caseMeasurements, ← flatMap_toList_eq_filter]
  refine flatMap_congr fun m _ => ?_
  rw [(executionIds hrecords).filter_eq_toList]
  intro a b ha hb
  exact (of_decide_eq_true ha).1.trans (of_decide_eq_true hb).1.symm

theorem caseVerifications_eq (hrecords : db.keys.Records) (org caseId : UUID) :
    caseVerifications db org caseId =
      (db.verifications.filter fun v => v.organizationId = org ∧ v.decision = .approved).filter
        fun v => ((caseMeasurements db caseId).find? fun m => m.id = v.measurementId).isSome := by
  have hunique : Unique (·.id) (caseMeasurements db caseId) := by
    rw [caseMeasurements_eq hrecords]
    exact (measurementIds hrecords).filter _
  rw [caseVerifications, ← flatMap_toList_eq_filter]
  refine flatMap_congr fun v _ => ?_
  rw [hunique.filter_eq_toList]
  intro a b ha hb
  exact (of_decide_eq_true ha).trans (of_decide_eq_true hb).symm

/-- The verifications that the summary sums: the approvals of measurements of the case. -/
theorem mem_caseVerifications (hrecords : db.keys.Records) {v : RecoveryFinanceVerification} :
    v ∈ caseVerifications db org caseId ↔ v ∈ db.verifications ∧ v.organizationId = org ∧
      v.decision = .approved ∧ ∃ m ∈ db.measurements, m.id = v.measurementId ∧ InCase db m caseId := by
  simp only [caseVerifications_eq hrecords, caseMeasurements_eq hrecords, mem_filter,
    decide_eq_true_eq, List.find?_isSome, and_assoc, InCase]
  simp only [and_comm]

theorem Integrity.recoveries_perm (hinv : Integrity db) (hposted : ApprovalsPosted db)
    (org caseId : UUID) :
    ((caseEntries db org caseId [.verifiedRecovery]).map fun e => (e.verificationId, e.amount)).Perm
      ((caseVerifications db org caseId).map fun v => (some v.id, v.verifiedAmount)) := by
  -- Both sides are rows of one measurement each, so it is enough to compare their members.
  have hentries : (caseEntries db org caseId [.verifiedRecovery]).Nodup :=
    (Nodup.of_map _ hinv.entryIds).filter _
  have hverifications : (caseVerifications db org caseId).Nodup := by
    rw [caseVerifications_eq hinv.records]
    exact ((Nodup.of_map _ hinv.verificationIds).filter _).filter _
  have hentry : ∀ e ∈ caseEntries db org caseId [.verifiedRecovery],
      ∃ v ∈ caseVerifications db org caseId, PostedFor db e v := by
    intro e he
    simp only [caseEntries, mem_filter, decide_eq_true_eq, mem_singleton] at he
    obtain ⟨hmem, rfl, rfl, htype⟩ := he
    obtain ⟨v, hv, hpost⟩ := hinv.recovery e hmem htype
    refine ⟨v, (mem_caseVerifications hinv.records).2
      ⟨hv, hpost.org.symm, hpost.approved, ?_⟩, hpost⟩
    obtain ⟨x, hmkey, hxkey⟩ := hpost.case
    obtain ⟨m, hm, hmkey⟩ := mem_map.1 hmkey
    obtain ⟨x', hx', hxkey⟩ := mem_map.1 hxkey
    simp only [Prod.mk.injEq] at hmkey hxkey
    exact ⟨m, hm, hmkey.1, x', hx', hxkey.1.trans hmkey.2.2.symm, hxkey.2.2⟩
  rw [perm_ext_iff_of_nodup]
  · intro p
    simp only [mem_map]
    constructor
    · rintro ⟨e, he, rfl⟩
      obtain ⟨v, hv, hpost⟩ := hentry e he
      exact ⟨v, hv, by rw [hpost.verificationId, hpost.amount]⟩
    · rintro ⟨v, hv, rfl⟩
      obtain ⟨hmem, horg, happroved, m, hm, hid, x, hx, hxid, hcase⟩ :=
        (mem_caseVerifications hinv.records).1 hv
      obtain ⟨e, he, htype, hpost⟩ := hposted v hmem happroved
      refine ⟨e, ?_, by rw [hpost.verificationId, hpost.amount]⟩
      obtain ⟨x', hmkey, hxkey⟩ := hpost.case
      obtain ⟨m', hm', hmkey⟩ := mem_map.1 hmkey
      obtain ⟨x'', hx'', hxkey⟩ := mem_map.1 hxkey
      simp only [Prod.mk.injEq] at hmkey hxkey
      obtain rfl := (measurementIds hinv.records).eq_of_key_eq hm' hm (hmkey.1.trans hid.symm)
      obtain rfl := (executionIds hinv.records).eq_of_key_eq hx'' hx
        (hxkey.1.trans (hmkey.2.2.symm.trans hxid.symm))
      simp only [caseEntries, mem_filter, decide_eq_true_eq, mem_singleton]
      exact ⟨he, hpost.org.trans horg, hxkey.2.2.symm.trans hcase, htype⟩
  · refine hentries.map_on fun e he e' he' heq => ?_
    obtain ⟨v, hv, hpost⟩ := hentry e he
    obtain ⟨v', hv', hpost'⟩ := hentry e' he'
    have hid : v.id = v'.id := by
      have h := congrArg Prod.fst heq
      simp only [hpost.verificationId, hpost'.verificationId] at h
      exact Option.some.inj h
    obtain rfl := hinv.verificationIds.eq_of_key_eq ((mem_caseVerifications hinv.records).1 hv).1
      ((mem_caseVerifications hinv.records).1 hv').1 hid
    refine hinv.entryKeys.eq_of_key_eq (mem_of_mem_filter he) (mem_of_mem_filter he') ?_
    rw [hpost.org, hpost.key, hpost'.org, hpost'.key]
  · refine hverifications.map_on fun v hv v' hv' heq => ?_
    exact hinv.verificationIds.eq_of_key_eq ((mem_caseVerifications hinv.records).1 hv).1
      ((mem_caseVerifications hinv.records).1 hv').1 (Option.some.inj (congrArg Prod.fst heq))

theorem total_append (a b : List VerifiedValueLedgerEntry) :
    total (a ++ b) = total a + total b := by
  rw [total, map_append, sum_append, total, total]

theorem total_perm {a b : List VerifiedValueLedgerEntry} (h : a.Perm b) : total a = total b :=
  (h.map _).sum_eq

theorem Integrity.total_case (hinv : Integrity db) (org caseId : UUID) :
    total (db.ledgerEntries.filter fun e => e.organizationId = org ∧ e.recoveryCaseId = caseId) =
      total (caseEntries db org caseId [.verifiedRecovery]) +
        total (caseEntries db org caseId [.adjustmentPositive, .adjustmentNegative]) +
        total (caseEntries db org caseId [.reversal]) := by
  have hsplit : ∀ (entries : List VerifiedValueLedgerEntry) (p : VerifiedValueLedgerEntry → Bool),
      total entries = total (entries.filter p) + total (entries.filter fun e => !p e) := by
    intro entries p
    rw [← total_append]
    exact total_perm (filter_append_perm p entries).symm
  rw [hsplit _ fun e => e.entryType = .verifiedRecovery, add_assoc,
    hsplit (List.filter (fun e => !decide (e.entryType = .verifiedRecovery)) _)
      fun e => e.entryType ≠ .reversal]
  simp only [filter_filter, caseEntries]
  congr 1
  · congr 1
    refine filter_congr fun e _ => ?_
    rw [Bool.and_comm]
    simp [Bool.and_assoc]
  · congr 2
    · refine filter_congr fun e he => ?_
      have htypes := hinv.corrections e he
      cases htype : e.entryType <;> simp_all
    · refine filter_congr fun e he => ?_
      have htypes := hinv.corrections e he
      cases htype : e.entryType <;> simp_all

theorem Integrity.filter_currency (hinv : Integrity db) {case : RecoveryCase}
    (hcase : case ∈ db.cases) :
    (db.ledgerEntries.filter fun e => e.organizationId = org ∧ e.recoveryCaseId = case.id ∧
      e.currencyCode = case.currencyCode) =
      db.ledgerEntries.filter fun e => e.organizationId = org ∧ e.recoveryCaseId = case.id := by
  refine filter_congr fun e he => ?_
  have hkey := hinv.entryCase e he
  by_cases hid : e.recoveryCaseId = case.id
  · have heq := hinv.records.caseIds.eq_of_key_eq hkey (mem_map_of_mem hcase) hid
    simp only [Prod.mk.injEq] at heq
    simp [hid, heq.2.2]
  · simp [hid]

theorem Integrity.net (hinv : Integrity db) (hposted : ApprovalsPosted db) {value : CurrencyValue}
    (h : summary db org caseId = .ok value) :
    value.netVerifiedValue = value.verifiedValue +
      total (caseEntries db org caseId [.adjustmentPositive, .adjustmentNegative]) +
      total (caseEntries db org caseId [.reversal]) := by
  simp only [summary, bind_eq_ok, pure_eq_ok] at h
  obtain ⟨case, hcase, rfl⟩ := h
  obtain ⟨hmem, rfl, -⟩ := getCase_ok hcase
  have hrecoveries : total (caseEntries db org case.id [.verifiedRecovery]) =
      ((caseVerifications db org case.id).map (·.verifiedAmount)).sum := by
    have hsum := ((hinv.recoveries_perm hposted org case.id).map Prod.snd).sum_eq
    simpa only [total, map_map, Function.comp_def] using hsum
  have htotal := hinv.total_case org case.id
  rw [hrecoveries] at htotal
  simp only [hinv.filter_currency hmem]
  exact htotal

theorem Integrity.booksBalance (hinv : Integrity db) (hposted : ApprovalsPosted db) :
    BooksBalance db where
  booked _ hm hv := hinv.booked hposted hm hv
  net _ _ _ h := hinv.net hposted h

/-! ## An approval under a taken key -/

theorem findVerified_eq_none {key : String}
    (h : ∀ v ∈ db.verifications, v.organizationId = org → v.idempotencyKey ≠ key) :
    findVerified db org key = none := by
  have hnone : (db.verifications.find? fun v =>
      v.organizationId = org ∧ v.idempotencyKey = key) = none := by
    rw [List.find?_eq_none]
    intro v hv hp
    obtain ⟨hvorg, hvkey⟩ := of_decide_eq_true hp
    exact h v hv hvorg hvkey
  rw [findVerified, hnone]
  rfl

theorem amountColumn_of {column : String} {x : ℚ} (h : |halfUp.places 12 x| < 10 ^ (38 - 12)) :
    amountColumn column x = .ok (halfUp.places 12 x) := by
  rw [amountColumn, orFail_eq_ok, numeric_eq_some]
  exact ⟨rfl, h⟩

theorem audit_of (case : RecoveryCase) (eventType : String) {key : String} (reason : String)
    (actor : UUID) (hlength : key.length ≤ 255) (hfree : ∀ event ∈ db.auditEvents,
      event.organizationId = case.organizationId → event.idempotencyKey ≠ key) :
    ∃ event, audit db case eventType actor key reason =
      .ok { db with auditEvents := db.auditEvents ++ [event] } := by
  let event : RecoveryAuditEvent :=
    { organizationId := case.organizationId, recoveryCaseId := case.id, eventType
      actorUserId := actor, idempotencyKey := key, reason }
  refine ⟨event, ?_⟩
  rw [audit, ensure_of hlength, ok_bind, orFail_eq_ok.2 (insert_eq_some.2 ⟨?_, rfl⟩), ok_bind]
  · rfl
  · exact fun event hevent hclash => hfree event hevent hclash.1 hclash.2

theorem serve_taken {call : Call} (hinv : Integrity db) (h : ApprovesUnderTakenKey db call) :
    ∃ row v e db', serve db call = .ok (db', .entry e) ∧ row ∈ db.measurements ∧
      row.status = .submitted ∧ (∀ v' ∈ db.verifications, v'.id ≠ v.id) ∧
      db'.verifications = db.verifications ++ [v] ∧ db'.ledgerEntries = db.ledgerEntries ∧
      db'.measurements = update (·.id = row.id) (.setStatus .verified) db.measurements := by
  unfold ApprovesUnderTakenKey at h
  split at h
  case h_2 => exact absurd h not_false
  case h_1 measurementId payload hrequest =>
    obtain ⟨⟨row, hmem, rfl, horg, hsubmitted, hactor, hcurrency⟩, hunverified, hentry,
      hamount, hid, hlength, haudit⟩ := h
    obtain ⟨case, hmeasurement⟩ := getMeasurement_of_mem hinv.records hmem
    have hcorg := (getMeasurement_ok hmeasurement).2.2.2.2.2
    rw [horg] at hmeasurement hcorg
    obtain ⟨e, hfind⟩ : ∃ e, findEntry db case.organizationId payload.idempotencyKey = some e := by
      rw [← Option.isSome_iff_exists, findEntry, List.find?_isSome]
      obtain ⟨e, he, heorg, hekey⟩ := hentry
      exact ⟨e, he, by simp [heorg, hekey, hcorg]⟩
    let v : RecoveryFinanceVerification :=
      { id := call.ids 0, organizationId := call.organizationId, measurementId := row.id
        idempotencyKey := payload.idempotencyKey, decision := .approved
        verifiedAmount := halfUp.places 12 payload.verifiedAmount
        currencyCode := payload.currencyCode, rationale := payload.rationale
        reviewerUserId := call.actor }
    have hinsert : insert RecoveryFinanceVerification.Clash v db.verifications =
        some (db.verifications ++ [v]) := by
      refine insert_eq_some.2 ⟨fun v' hv' hclash => ?_, rfl⟩
      rcases hclash with hsame | ⟨hvorg, hvkey⟩
      · exact hid v' hv' hsame
      · exact hunverified v' hv' hvorg hvkey
    let verified := { db with verifications := db.verifications ++ [v] }
    have hledger : ledgerEntry verified case call.actor payload.idempotencyKey .verifiedRecovery
        payload.verifiedAmount payload.rationale
        { measurementId := some row.id, verificationId := some v.id } (call.ids 1) =
        .ok (verified, e) := by
      have hsame : findEntry verified case.organizationId payload.idempotencyKey = some e := hfind
      rw [ledgerEntry, hsame]
    obtain ⟨event, haudited⟩ :=
      audit_of case "value_verified" payload.rationale call.actor hlength
        fun event (hevent : event ∈ (writeMeasurement verified row (.setStatus .verified)).auditEvents)
          horg' => haudit event hevent (horg'.trans hcorg)
    refine ⟨row, v, e, { writeMeasurement verified row (.setStatus .verified) with
      auditEvents := db.auditEvents ++ [event] }, ?_, hmem, hsubmitted, hid, rfl, rfl, rfl⟩
    have hverify : verify db call.organizationId row.id payload call.actor call.ids =
        .ok ({ writeMeasurement verified row (.setStatus .verified) with
          auditEvents := db.auditEvents ++ [event] }, e) := by
      rw [verify, hmeasurement, ok_bind]
      simp only [requireSeparateReviewer, ensure_of hactor, ok_bind,
        findVerified_eq_none hunverified, verifyNew, ensure_of hsubmitted, ensure_of hcurrency,
        amountColumn_of hamount]
      rw [hinsert]
      simp only [orFail_some, ok_bind]
      rw [hledger, ok_bind, haudited]
      rfl
    simp only [serve, hrequest, hverify]
    rfl

theorem not_booksBalance_of_taken {call : Call} (hinv : Integrity db)
    (h : ApprovesUnderTakenKey db call) : ¬ BooksBalance (serve.next db call) := by
  obtain ⟨row, v, e, db', hserve, hmem, hsubmitted, hfree, hverifications, hentries,
    hmeasurements⟩ := serve_taken hinv h
  rw [next_of_ok hserve]
  intro hbooks
  have hverified : row.setStatus .verified ∈ db'.measurements := by
    rw [hmeasurements]
    exact mem_update_of_selected hmem (by simp)
  obtain ⟨v', hv', happroves, -, e', he', htype, hvid, -⟩ := hbooks.booked _ hverified rfl
  -- The approval is the new verification, and the stored entries are those of older ones.
  rw [hverifications, mem_append, mem_singleton] at hv'
  rcases hv' with hv' | rfl
  · exact hinv.not_approves hmem hsubmitted v' hv' happroves
  · rw [hentries] at he'
    obtain ⟨v1, hv1, hpost⟩ := hinv.recovery e' he' htype
    rw [hpost.verificationId] at hvid
    exact hfree v1 hv1 (Option.some.inj hvid)

/-! ## Whole runs -/

/-- The books balance in every state of a run exactly when no approval of the run uses a key that
a ledger entry carries already. -/
theorem booksBalance_iff (external : External) (calls : List Call) :
    (∀ as bs, calls = as ++ bs → BooksBalance (serve.run (Db.empty external) as)) ↔
      serve.AllSteps (fun db call => ¬ ApprovesUnderTakenKey db call) (Db.empty external) calls := by
  have hinv := integrity_run (integrity_empty external)
  constructor
  · intro h
    rw [allSteps_iff]
    rintro as call bs rfl htaken
    have hbooks := h (as ++ [call]) bs (by simp)
    rw [run_append] at hbooks
    exact not_booksBalance_of_taken (hinv as) htaken hbooks
  · rintro h as bs rfl
    have hprefix := ((allSteps_append _ _ as bs).1 h).1
    have hboth : Integrity (serve.run (Db.empty external) as) ∧
        ApprovalsPosted (serve.run (Db.empty external) as) := by
      refine run_invariant_of (P := fun db => Integrity db ∧ ApprovalsPosted db)
        ⟨integrity_empty external, fun _ hv => absurd hv not_mem_nil⟩ ?_ hprefix
      rintro s call s' r ⟨hinv, hposted⟩ hkey hok
      obtain ⟨hstep, -⟩ := serve_ledgerStep hinv.records hok
      exact ⟨hinv.step hstep, hposted.step hkey hstep⟩
    exact hboth.1.booksBalance hboth.2

/-! ## Two approvals and one key -/

namespace TakenKey

open Sample

/-- The first measurement is verified by user 8 and adjusted under the key of the next approval. -/
def prelude : List Call :=
  submitted ++ [send 60 8 (.verify 108 (verification "first")),
    send 61 8 (.adjustment 121 (correction "second" (some .positive)))]

/-- The second measurement is verified although no entry is posted for it, and the net value of
the case is not the verified value with the adjustment. -/
theorem not_booksBalance : ¬ ∀ (external : External) (calls : List Call),
    BooksBalance (serve.run (Db.empty external) calls) := by
  intro h
  have hnet := (h external (prelude ++ [send 62 8 (.verify 110 (verification "second"))])).net 1 100
    ⟨"EUR", 500, 200, 200, 105⟩ (by decide +kernel)
  revert hnet
  decide +kernel

end TakenKey

end Intel4Ops.RecoveryLedger
