import Intel4Ops.RecoveryLedger.Books

/-!
# Recovery ledger: replayed requests

A verification, an adjustment or a reversal that succeeded is sent again after any further
requests. An adjustment or a reversal finds its entry, but then its audit event repeats a unique
key, so it always fails. A verification answers with its entry unless its key belonged to a stored
entry when it first succeeded, or the measurement has since been submitted by the same user.
-/

namespace Intel4Ops.RecoveryLedger

open Lib List Prod

variable {db db' : Db} {org actor : UUID}

/-! ## What stays stored -/

/-- Rows of the append-only tables that are stored stay stored. -/
structure Extends (db db' : Db) : Prop where
  verifications : db.verifications ⊆ db'.verifications
  entries : db.ledgerEntries ⊆ db'.ledgerEntries
  auditEvents : db.auditEvents ⊆ db'.auditEvents

theorem Extends.refl (db : Db) : Extends db db := ⟨Subset.refl _, Subset.refl _, Subset.refl _⟩

theorem Extends.trans {db'' : Db} (h : Extends db db') (h' : Extends db' db'') : Extends db db'' :=
  ⟨Subset.trans h.verifications h'.verifications, Subset.trans h.entries h'.entries,
    Subset.trans h.auditEvents h'.auditEvents⟩

theorem ledgerEntry_auditEvents {case : RecoveryCase} {key reason : String}
    {entryType : LedgerEntryType} {amount : ℚ} {links : EntryLinks} {id : UUID}
    {p : Db × VerifiedValueLedgerEntry}
    (h : ledgerEntry db case actor key entryType amount reason links id = .ok p) :
    p.1.auditEvents = db.auditEvents := by
  obtain ⟨db', e⟩ := p
  obtain ⟨-, rfl⟩ | ⟨-, rfl, -⟩ := ledgerEntry_ok h
  · rfl
  · rfl

theorem LedgerStep.verifications_subset {call : Call} (h : LedgerStep db call db') :
    db.verifications ⊆ db'.verifications := by
  cases h with
  | record _ _ hverifications _ | answer _ _ hverifications _ =>
    exact hverifications ▸ Subset.refl _
  | review row v status _ _ _ _ _ _ _ _ hverifications =>
    exact hverifications ▸ subset_append_left _ _
  | approve payload row v e caseId currency happroval =>
    exact happroval.verifications ▸ subset_append_left _ _
  | correct entryId payload original e currency _ _ _ _ _ _ hverifications =>
    exact hverifications ▸ Subset.refl _

theorem LedgerStep.entries_subset {call : Call} (h : LedgerStep db call db') :
    db.ledgerEntries ⊆ db'.ledgerEntries := by
  cases h with
  | record _ _ _ hentries | review row v status _ _ _ _ _ _ _ _ _ hentries =>
    exact hentries ▸ Subset.refl _
  | approve payload row v e caseId currency happroval =>
    rcases happroval.entries with hstored | ⟨hposted, -⟩
    · exact hstored.entries ▸ Subset.refl _
    · exact hposted.entries ▸ subset_append_left _ _
  | answer _ _ _ hentries => exact hentries ▸ Subset.refl _
  | correct entryId payload original e currency _ _ _ _ _ _ _ hposted =>
    exact hposted.entries ▸ subset_append_left _ _

theorem Integrity.run_extends (hinv : Integrity db) (calls : List Call) :
    Extends db (serve.run db calls) ∧
      ∀ m ∈ db.measurements, ∃ m' ∈ (serve.run db calls).measurements, m'.key = m.key ∧
        (m.status = .verified → m' = m) := by
  have hall : Integrity (serve.run db calls) ∧ Extends db (serve.run db calls) ∧
      ∀ m ∈ db.measurements, ∃ m' ∈ (serve.run db calls).measurements, m'.key = m.key ∧
        (m.status = .verified → m' = m) := by
    refine Service.run_invariant (P := fun s => Integrity s ∧ Extends db s ∧
      ∀ m ∈ db.measurements, ∃ m' ∈ s.measurements, m'.key = m.key ∧
        (m.status = .verified → m' = m))
      ⟨hinv, .refl db, fun m hm => ⟨m, hm, rfl, fun _ => rfl⟩⟩ ?_ calls
    rintro s call s' r ⟨hinv, hextends, hmeasurements⟩ hok
    obtain ⟨hstep, haudit⟩ := serve_ledgerStep hinv.records hok
    refine ⟨hinv.step hstep,
      hextends.trans ⟨hstep.verifications_subset, hstep.entries_subset, haudit⟩, fun m hm => ?_⟩
    obtain ⟨m', hm', hkey, hsame⟩ := hmeasurements m hm
    obtain ⟨m'', hm'', hkey', hsame'⟩ := hstep.measurement hinv.records hm'
    refine ⟨m'', hm'', hkey'.trans hkey, fun hv => ?_⟩
    obtain rfl := hsame hv
    exact hsame' hv
  exact hall.2

/-! ## Corrections repeat their audit key -/

/-- The audit key of the organization is not recorded before, and recorded after. -/
def RecordsKey (db db' : Db) (org : UUID) (key : String) : Prop :=
  (∀ event ∈ db.auditEvents, event.organizationId = org → event.idempotencyKey ≠ key) ∧
    ∃ event ∈ db'.auditEvents, event.organizationId = org ∧ event.idempotencyKey = key

theorem audit_recordsKey {case : RecoveryCase} {eventType key reason : String}
    (h : audit db case eventType actor key reason = .ok db') :
    RecordsKey db db' case.organizationId key := by
  obtain ⟨event, horg, hkey, hfree, rfl⟩ := audit_ok h
  refine ⟨fun event' hevent' horg' hkey' => ?_, event,
    mem_append_right _ (mem_singleton_self event), horg, hkey⟩
  exact hfree event' hevent' ⟨horg'.trans horg.symm, hkey'.trans hkey.symm⟩

theorem adjustment_recordsKey {entryId id : UUID} {payload : LedgerMutationCreate}
    {e : VerifiedValueLedgerEntry}
    (h : adjustment db org entryId payload actor id = .ok (db', e)) :
    RecordsKey db db' org ("adjust:" ++ payload.idempotencyKey) := by
  simp only [adjustment, bind_eq_ok, pure_eq_ok, mk.injEq] at h
  obtain ⟨original, -, case, hcase, direction, -, p, hentry, db1, haudit, rfl, -⟩ := h
  have hrecords := audit_recordsKey haudit
  rw [(getCase_ok hcase).2.2] at hrecords
  rwa [RecordsKey, ledgerEntry_auditEvents hentry] at hrecords

theorem reversal_recordsKey {entryId id : UUID} {payload : LedgerMutationCreate}
    {e : VerifiedValueLedgerEntry}
    (h : reversal db org entryId payload actor id = .ok (db', e)) :
    RecordsKey db db' org ("reverse:" ++ payload.idempotencyKey) := by
  simp only [reversal, bind_eq_ok, pure_eq_ok, mk.injEq] at h
  obtain ⟨original, -, _, -, case, hcase, p, hentry, db1, haudit, rfl, -⟩ := h
  have hrecords := audit_recordsKey haudit
  rw [(getCase_ok hcase).2.2] at hrecords
  rwa [RecordsKey, ledgerEntry_auditEvents hentry] at hrecords

theorem RecordsKey.not_again {db1 db2 db3 : Db} {key : String} (h : RecordsKey db db1 org key)
    (hextends : Extends db1 db2) : ¬ RecordsKey db2 db3 org key := by
  rintro ⟨hfree, -⟩
  obtain ⟨event, hevent, horg, hkey⟩ := h.2
  exact hfree event (hextends.auditEvents hevent) horg hkey

/-! ## Verifications find their entry -/

theorem Integrity.postedFor (hinv : Integrity db) {e : VerifiedValueLedgerEntry}
    {v : RecoveryFinanceVerification} (he : e ∈ db.ledgerEntries) (hv : v ∈ db.verifications)
    (hid : e.verificationId = some v.id) : PostedFor db e v := by
  have htype : e.entryType = .verifiedRecovery := by
    by_contra htype
    rw [(hinv.corrections e he htype).1] at hid
    cases hid
  obtain ⟨v', hv', hpost⟩ := hinv.recovery e he htype
  rw [hpost.verificationId] at hid
  obtain rfl := hinv.verificationIds.eq_of_key_eq hv' hv (Option.some.inj hid)
  exact hpost

/-- The lookup of a key finds the verification with that key and the entry that names it. -/
theorem Integrity.findVerified_iff (hinv : Integrity db) {key : String}
    {e : VerifiedValueLedgerEntry} :
    findVerified db org key = some e ↔
      ∃ v ∈ db.verifications, v.organizationId = org ∧ v.idempotencyKey = key ∧
        e ∈ db.ledgerEntries ∧ e.verificationId = some v.id := by
  simp only [findVerified, Option.bind_eq_bind, Option.bind_eq_some_iff]
  constructor
  · rintro ⟨v, hv, he⟩
    obtain ⟨hvmem, hvorg, hvkey⟩ := Table.find?_spec hv
    obtain ⟨hemem, heid, -⟩ := Table.find?_spec he
    exact ⟨v, hvmem, hvorg, hvkey, hemem, heid⟩
  · rintro ⟨v, hv, rfl, rfl, he, hid⟩
    have hpost := hinv.postedFor he hv hid
    refine ⟨v, hinv.verificationKeys.find?_eq_some hv (by simp) fun v' _ hp => ?_,
      hinv.entryKeys.find?_eq_some he (by simp [hid, hpost.org]) fun e' he' hp => ?_⟩
    · obtain ⟨horg, hkey⟩ := of_decide_eq_true hp
      rw [horg, hkey]
    · have hpost' := hinv.postedFor he' hv (of_decide_eq_true hp).1
      rw [hpost.org, hpost.key, hpost'.org, hpost'.key]

theorem verify_replay_iff (actor : UUID) (ids : Nat → UUID) (hinv : Integrity db)
    {m : RecoveryValueMeasurement}
    (hm : m ∈ db.measurements) (horg : m.organizationId = org) {payload : VerifyCreate}
    {e : VerifiedValueLedgerEntry}
    (hfind : findVerified db org payload.idempotencyKey = some e) :
    verify db org m.id payload actor ids = .ok (db, e) ↔ m.submittedByUserId ≠ some actor := by
  obtain ⟨case, hmeasurement⟩ := getMeasurement_of_mem hinv.records hm
  rw [horg] at hmeasurement
  simp only [verify, hmeasurement, ok_bind, hfind]
  by_cases hactor : m.submittedByUserId ≠ some actor
  · rw [requireSeparateReviewer, ensure_of hactor, ok_bind]
    simp [hactor]
  · rw [requireSeparateReviewer, ensure_of_not hactor, error_bind]
    simp [hactor]

/-! ## Replays -/

/-- The same request of the same actor; the time and the drawn values may differ. -/
structure SameRequest (call call' : Call) : Prop where
  org : call'.organizationId = call.organizationId
  actor : call'.actor = call.actor
  request : call'.request = call.request

/-- A request served in `db` can be replayed in `later`: it is a verification whose key belonged to
no stored entry without verification, and its actor is not the submitter of the measurement. -/
def ReplaysCleanly (db later : Db) (call : Call) : Prop :=
  match call.request with
  | .verify measurementId _ => ¬ ApprovesUnderTakenKey db call ∧
      ∀ row ∈ later.measurements, row.id = measurementId → row.submittedByUserId ≠ some call.actor
  | _ => False

instance (db later : Db) : (call : Call) → Decidable (ReplaysCleanly db later call)
  | ⟨_, _, _, _, _, .verify ..⟩ => inferInstanceAs (Decidable (_ ∧ _))
  | ⟨_, _, _, _, _, .createCase ..⟩ | ⟨_, _, _, _, _, .updateCase ..⟩
  | ⟨_, _, _, _, _, .createExecution ..⟩ | ⟨_, _, _, _, _, .transitionExecution ..⟩
  | ⟨_, _, _, _, _, .createMeasurement ..⟩ | ⟨_, _, _, _, _, .submitMeasurement ..⟩
  | ⟨_, _, _, _, _, .financeReview ..⟩ | ⟨_, _, _, _, _, .adjustment ..⟩
  | ⟨_, _, _, _, _, .reversal ..⟩ | ⟨_, _, _, _, _, .external ..⟩ =>
    inferInstanceAs (Decidable False)

theorem verify_measurement {measurementId : UUID} {payload : VerifyCreate} {ids : Nat → UUID}
    {e : VerifiedValueLedgerEntry}
    (h : verify db org measurementId payload actor ids = .ok (db', e)) :
    ∃ row ∈ db.measurements, row.id = measurementId ∧ row.organizationId = org := by
  unfold verify at h
  obtain ⟨⟨row, case⟩, hmeasurement, -⟩ := bind_eq_ok.1 h
  obtain ⟨hmem, hid, horg, -⟩ := getMeasurement_ok hmeasurement
  exact ⟨row, hmem, hid, horg⟩

theorem forall_row_iff (actor : UUID) (hinv : Integrity db) {m : RecoveryValueMeasurement}
    (hm : m ∈ db.measurements) :
    (∀ row ∈ db.measurements, row.id = m.id → row.submittedByUserId ≠ some actor) ↔
      m.submittedByUserId ≠ some actor := by
  constructor
  · exact fun h => h m hm rfl
  · intro h row hrow hid
    obtain rfl := (measurementIds hinv.records).eq_of_key_eq hrow hm hid
    exact h

theorem answered_replay_iff {later : Db} {call : Call} {measurementId : UUID}
    {payload : VerifyCreate} {e : VerifiedValueLedgerEntry} {ids : Nat → UUID}
    (hinv : Integrity db) (hlater : Integrity later) (hextends : Extends db later)
    {m : RecoveryValueMeasurement} (hm : m ∈ later.measurements) (hid : m.id = measurementId)
    (horg : m.organizationId = call.organizationId)
    (hrequest : call.request = .verify measurementId payload)
    (hfind : findVerified db call.organizationId payload.idempotencyKey = some e) :
    verify later call.organizationId measurementId payload call.actor ids = .ok (later, e) ↔
      ReplaysCleanly db later call := by
  obtain ⟨v, hv, hvorg, hvkey, he, heid⟩ := hinv.findVerified_iff.1 hfind
  have hfind' : findVerified later call.organizationId payload.idempotencyKey = some e :=
    hlater.findVerified_iff.2 ⟨v, hextends.verifications hv, hvorg, hvkey, hextends.entries he, heid⟩
  have hfree : ¬ ApprovesUnderTakenKey db call := by
    simp only [ApprovesUnderTakenKey, hrequest]
    rintro ⟨-, hunverified, -⟩
    exact hunverified v hv hvorg hvkey
  simp only [ReplaysCleanly, hrequest, hfree, not_false_eq_true, true_and]
  subst hid
  rw [verify_replay_iff _ _ hlater hm horg hfind', forall_row_iff _ hlater hm]

theorem approval_replay_iff {later : Db} {call call' : Call} {payload : VerifyCreate}
    {row : RecoveryValueMeasurement} {v : RecoveryFinanceVerification}
    {e : VerifiedValueLedgerEntry} {caseId : UUID} {currency : String} (hinv : Integrity db)
    (hlater : Integrity later) (hextends : Extends db' later)
    (hkept : ∀ m ∈ db'.measurements, m.status = .verified → m ∈ later.measurements)
    (h : Approval db call db' payload row v e caseId currency) (hsame : SameRequest call call') :
    verify later call.organizationId row.id payload call.actor call'.ids = .ok (later, e) ↔
      ReplaysCleanly db later call := by
  have hv : v ∈ db'.verifications := by
    rw [h.verifications]
    exact mem_append_right _ (mem_singleton_self v)
  have hrow : row.setStatus .verified ∈ later.measurements := by
    refine hkept _ ?_ rfl
    rw [h.measurements]
    exact Table.mem_update_of_selected h.mem (by simp)
  rcases h.entries with hstored | ⟨hposted, hrecovery⟩
  · have htaken : ApprovesUnderTakenKey db call := by
      simp only [ApprovesUnderTakenKey, h.request]
      refine ⟨⟨row, h.mem, rfl, h.org, h.submitted, h.actor, h.currencyCode⟩,
        fun v' hv' hvorg' hvkey' => ?_, ⟨e, hstored.mem, hstored.org, hstored.key⟩, h.storable⟩
      exact h.free v' hv' (.inr ⟨hvorg'.trans h.verificationOrg.symm,
        hvkey'.trans h.verificationKey.symm⟩)
    simp only [ReplaysCleanly, h.request, htaken, not_true_eq_false, false_and, iff_false]
    intro hok
    have hrequest' : call'.request = .verify row.id payload := hsame.request.trans h.request
    rw [← hsame.org, ← hsame.actor] at hok
    obtain ⟨hfind, -⟩ | ⟨-, -, row', v', caseId', currency', happroval⟩ := verify_ok hrequest' hok
    · -- The stored entry belongs to no verification, so the lookup cannot have found it.
      obtain ⟨v', hv', hvorg', hvkey', -, heid⟩ := hlater.findVerified_iff.1 hfind
      obtain rfl := hlater.verificationKeys.eq_of_key_eq hv' (hextends.verifications hv) (by
        rw [hvorg', hvkey', h.verificationOrg, h.verificationKey, hsame.org])
      by_cases htype : e.entryType = .verifiedRecovery
      · obtain ⟨v1, hv1, hpost⟩ := hinv.recovery e hstored.mem htype
        rw [hpost.verificationId] at heid
        exact h.free v1 hv1 (.inl (Option.some.inj heid))
      · rw [(hinv.corrections e hstored.mem htype).1] at heid
        cases heid
    · have hlength := congrArg List.length happroval.verifications
      simp at hlength
  · have hfree : ¬ ApprovesUnderTakenKey db call := by
      simp only [ApprovesUnderTakenKey, h.request]
      rintro ⟨-, -, ⟨e', he', heorg, hekey⟩, -⟩
      exact hposted.free e' he' (.inr (.inl ⟨heorg.trans hposted.org.symm,
        hekey.trans hposted.key.symm⟩))
    have he : e ∈ db'.ledgerEntries := by
      rw [hposted.entries]
      exact mem_append_right _ (mem_singleton_self e)
    have hfind : findVerified later call.organizationId payload.idempotencyKey = some e :=
      hlater.findVerified_iff.2 ⟨v, hextends.verifications hv, h.verificationOrg,
        h.verificationKey, hextends.entries he, hrecovery.verificationId⟩
    have hreplay := verify_replay_iff call.actor call'.ids hlater hrow h.org hfind
    have hall := forall_row_iff call.actor hlater hrow
    simp only [ReplaysCleanly, h.request, hfree, not_false_eq_true, true_and]
    exact hreplay.trans hall.symm

theorem map_entry_eq_ok {x : Except RecoveryLedgerError (Db × VerifiedValueLedgerEntry)}
    {e : VerifiedValueLedgerEntry} :
    x.map (map id Reply.entry) = .ok (db, .entry e) ↔ x = .ok (db, e) := by
  constructor
  · intro h
    obtain ⟨e', rfl, he⟩ := Service.reply_ok h
    rw [Reply.entry.inj he]
  · rintro rfl
    rfl

/-- A verification, an adjustment or a reversal that has succeeded is answered with its entry, and
nothing is written, exactly when it can be replayed cleanly. -/
theorem replay_iff {call call' : Call} {e : VerifiedValueLedgerEntry} (hreach : Reachable db)
    (hok : serve db call = .ok (db', .entry e)) (calls : List Call)
    (hsame : SameRequest call call') :
    serve (serve.run db' calls) call' = .ok (serve.run db' calls, .entry e) ↔
      ReplaysCleanly db (serve.run db' calls) call := by
  have hinv := hreach.integrity
  have hinv' := hinv.step (serve_ledgerStep hinv.records hok).1
  have hlater := integrity_run hinv' calls
  obtain ⟨hextends, hmeasurements⟩ := hinv'.run_extends calls
  have hrequest' := hsame.request
  cases hrequest : call.request with
  | verify measurementId payload =>
    rw [hrequest] at hrequest'
    simp only [serve, hrequest, map_entry_eq_ok] at hok
    simp only [serve, hrequest', map_entry_eq_ok, hsame.org, hsame.actor]
    obtain ⟨hfind, rfl⟩ | ⟨-, -, row, v, caseId, currency, happroval⟩ := verify_ok hrequest hok
    · obtain ⟨row, hrow, hid, horg⟩ := verify_measurement hok
      obtain ⟨m, hm, hkey, -⟩ := hmeasurements row hrow
      simp only [RecoveryValueMeasurement.key, mk.injEq] at hkey
      exact answered_replay_iff hinv' hlater hextends hm (hkey.1.trans hid)
        (hkey.2.1.trans horg) hrequest hfind
    · have heq := happroval.request
      rw [hrequest] at heq
      cases heq
      refine approval_replay_iff hinv hlater hextends (fun m hm hv => ?_) happroval hsame
      obtain ⟨m', hm', -, hkept⟩ := hmeasurements m hm
      rwa [← hkept hv]
  | adjustment entryId payload =>
    rw [hrequest] at hrequest'
    simp only [serve, hrequest, map_entry_eq_ok] at hok
    simp only [serve, hrequest', map_entry_eq_ok, ReplaysCleanly, hrequest, iff_false, hsame.org]
    intro hagain
    exact (adjustment_recordsKey hok).not_again hextends (adjustment_recordsKey hagain)
  | reversal entryId payload =>
    rw [hrequest] at hrequest'
    simp only [serve, hrequest, map_entry_eq_ok] at hok
    simp only [serve, hrequest', map_entry_eq_ok, ReplaysCleanly, hrequest, iff_false, hsame.org]
    intro hagain
    exact (reversal_recordsKey hok).not_again hextends (reversal_recordsKey hagain)
  | createCase | updateCase | createExecution | transitionExecution | createMeasurement
  | submitMeasurement | financeReview =>
    -- These requests do not reply with an entry.
    simp only [serve, hrequest] at hok
    obtain ⟨row, -, hrow⟩ := Service.reply_ok hok
    cases hrow
  | external tables =>
    simp only [serve, hrequest, Except.ok.injEq, mk.injEq] at hok
    cases hok.2

/-! ## The entries of a run -/

theorem LedgerStep.entries_append {call : Call} (h : LedgerStep db call db') :
    ∃ new, db'.ledgerEntries = db.ledgerEntries ++ new ∧
      ∀ e ∈ new, e.organizationId = call.organizationId := by
  cases h with
  | record _ _ _ hentries | review row v status _ _ _ _ _ _ _ _ _ hentries
  | answer _ _ _ hentries =>
    exact ⟨[], by rw [hentries, append_nil], fun _ he => absurd he not_mem_nil⟩
  | approve payload row v e caseId currency happroval =>
    rcases happroval.entries with hstored | ⟨hposted, -⟩
    · exact ⟨[], by rw [hstored.entries, append_nil], fun _ he => absurd he not_mem_nil⟩
    · exact ⟨[e], hposted.entries, by simpa using hposted.org⟩
  | correct entryId payload original e currency _ _ _ _ _ _ _ hposted =>
    exact ⟨[e], hposted.entries, by simpa using hposted.org⟩

/-- No call of a run rewrites or removes a ledger entry, and none posts one for another
organization than its own. -/
theorem entries_isolated (external : External) (calls : List Call) :
    serve.AllSteps (fun db call => db.ledgerEntries <+: (serve.next db call).ledgerEntries ∧
      ∀ org ≠ call.organizationId,
        (serve.next db call).ledgerEntries.filter (·.organizationId = org) =
          db.ledgerEntries.filter (·.organizationId = org)) (Db.empty external) calls := by
  refine Service.allSteps_of_invariant (integrity_empty external)
    (fun hinv _ hok => hinv.step (serve_ledgerStep hinv.records hok).1) (fun {db call} hinv _ => ?_)
    (Service.allSteps_true _ _)
  rcases Service.next_cases serve db call with ⟨db', r, hok, hnext⟩ | ⟨e, -, hnext⟩
  · obtain ⟨new, hentries, hnew⟩ := (serve_ledgerStep hinv.records hok).1.entries_append
    rw [hnext, hentries]
    refine ⟨prefix_append _ _, fun org horg => ?_⟩
    have hnone : new.filter (·.organizationId = org) = [] := filter_eq_nil_iff.2 fun e he heq =>
      horg ((of_decide_eq_true heq).symm.trans (hnew e he))
    rw [filter_append, hnone, append_nil]
  · rw [hnext]
    exact ⟨prefix_rfl, fun _ _ => rfl⟩

/-! ## Replays of a verification and of an adjustment -/

namespace Replay

open Sample

/-- The first measurement is verified. -/
def verified : Db := serve.run (Db.empty external) submitted

def verifyCall : Call := send 60 8 (.verify 108 (verification "first"))

def adjustCall : Call := send 61 8 (.adjustment 121 (correction "adjust" (some .positive)))

theorem reachable_verified : Reachable verified := ⟨_, submitted, ⟨external, rfl⟩, rfl⟩

def verifiedEntry : VerifiedValueLedgerEntry :=
  { id := 121, organizationId := 1, recoveryCaseId := 100, measurementId := some 108
    verificationId := some 120, reversalOfLedgerEntryId := none, adjustmentOfLedgerEntryId := none
    entrySequence := 1, entryType := .verifiedRecovery, amount := 100, currencyCode := "EUR"
    idempotencyKey := "first", reason := "checked", postedByUserId := 8 }

/-- The verification is answered again after an adjustment, at a later time. -/
theorem replay_verified :
    serve (serve.run (serve.next verified verifyCall) [adjustCall]) { verifyCall with now := 99 } =
      .ok (serve.run (serve.next verified verifyCall) [adjustCall], .entry verifiedEntry) :=
  (replay_iff reachable_verified
    (show serve verified verifyCall = .ok (serve.next verified verifyCall, .entry verifiedEntry) by
      decide +kernel) [adjustCall] ⟨rfl, rfl, rfl⟩).2 (by decide +kernel)

def adjustedEntry : VerifiedValueLedgerEntry :=
  { id := 122, organizationId := 1, recoveryCaseId := 100, measurementId := some 108
    verificationId := none, reversalOfLedgerEntryId := none, adjustmentOfLedgerEntryId := some 121
    entrySequence := 2, entryType := .adjustmentPositive, amount := 5, currencyCode := "EUR"
    idempotencyKey := "adjust", reason := "late invoice", postedByUserId := 8 }

/-- An adjustment that is sent again at once fails on its audit key. -/
theorem not_replay_adjusted : ¬ ∀ (db db' : Db) (call call' : Call) (e : VerifiedValueLedgerEntry)
    (calls : List Call), Reachable db → serve db call = .ok (db', .entry e) →
      SameRequest call call' →
      serve (serve.run db' calls) call' = .ok (serve.run db' calls, .entry e) := by
  intro h
  have hreplay := h (serve.next verified verifyCall)
    (serve.next (serve.next verified verifyCall) adjustCall) adjustCall adjustCall adjustedEntry []
    (reachable_verified.run [verifyCall]) (by decide +kernel) ⟨rfl, rfl, rfl⟩
  revert hreplay
  decide +kernel

end Replay

end Intel4Ops.RecoveryLedger
