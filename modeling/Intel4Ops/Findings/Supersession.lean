import Intel4Ops.Findings.Lifecycle
import Intel4Ops.Lib.Graph

/-!
# Supersession and the history of findings

Every change of a status goes along the table and leaves one row, so the rows of a finding replay to
its status; listed by time they do so too unless a clock went back. A finding is superseded at most
once, so a supersession adds one arc from it. Only a finding is kept from superseding itself: the
supersessions stay acyclic exactly when no request closes a longer cycle.
-/

namespace Intel4Ops.FindingLifecycle

open Lib Intel4Ops.Findings List Table Service

section Runs

variable {env : Env} {s s' s'' : Store}

/-! ## Replay -/

/-- Follow recorded changes along the table from a status. -/
def replay : FindingStatus → List FindingStatusHistory → Option FindingStatus
  | status, [] => some status
  | status, row :: rows =>
    if row.previousStatus = status ∧ row.newStatus ∈ transitions status then
      replay row.newStatus rows
    else none

theorem replay_append {status : FindingStatus} {rows rows' : List FindingStatusHistory} :
    replay status (rows ++ rows') = (replay status rows).bind (replay · rows') := by
  induction rows generalizing status with
  | nil => rfl
  | cons row rows ih =>
    rw [cons_append, replay, replay]
    split
    · exact ih
    · rfl

theorem replay_singleton {status : FindingStatus} {row : FindingStatusHistory}
    (hprevious : row.previousStatus = status) (hnew : row.newStatus ∈ transitions status) :
    replay status [row] = some row.newStatus := by
  rw [replay, if_pos ⟨hprevious, hnew⟩, replay]

theorem historyRank_lt {a b : FindingStatus} (h : b ∈ transitions a) (ha : a ≠ .draft) :
    historyRank a < historyRank b := by
  revert h ha
  cases a <;> cases b <;> decide

theorem pairwise_rank_of_replay {status final : FindingStatus} {rows : List FindingStatusHistory}
    (h : replay status rows = some final) :
    rows.Pairwise (fun a b => historyRank a.newStatus < historyRank b.newStatus) ∧
      (status ≠ .draft → ∀ row ∈ rows, historyRank status < historyRank row.newStatus) := by
  induction rows generalizing status with
  | nil => exact ⟨Pairwise.nil, fun _ row hrow => absurd hrow not_mem_nil⟩
  | cons row rows ih =>
    rw [replay] at h
    split at h
    case isFalse => cases h
    case isTrue hrow =>
      obtain ⟨hpairwise, habove⟩ := ih h
      have hdraft : row.newStatus ≠ .draft := by
        intro hdraft
        have hmem := hrow.2
        rw [hdraft] at hmem
        revert hmem
        cases status <;> decide
      refine ⟨pairwise_cons.2 ⟨habove hdraft, hpairwise⟩, fun hstatus => ?_⟩
      have hfirst := historyRank_lt hrow.2 hstatus
      intro other hother
      rcases mem_cons.1 hother with rfl | hother
      · exact hfirst
      · exact hfirst.trans (habove hdraft other hother)

variable {findingId org actor historyId u v : UUID} {command : LifecycleCommand}
  {newStatus : FindingStatus} {now : Instant}

theorem listHistory_eq {status final : FindingStatus}
    (h : replay status (rowsOf s findingId) = some final)
    (htimes : (rowsOf s findingId).Pairwise fun a b => a.changedAt ≤ b.changedAt) :
    listHistory s findingId = rowsOf s findingId := by
  refine Pairwise.insertionSort_eq ?_
  refine Pairwise.imp₂ (fun a b htime hrank => ?_) htimes (pairwise_rank_of_replay h).1
  rcases lt_or_eq_of_le htime with hlt | heq
  · exact .inl hlt
  · exact .inr ⟨heq, .inl hrank⟩

/-! ## Steps -/

def Governed (s : Store) (org findingId : UUID) : Prop :=
  ∃ f ∈ s.findings, f.id = findingId ∧ f.organizationId = org ∧ f.findingCode ≠ none

theorem get_ok {f : FindingRow} (h : get s org findingId = .ok f) :
    f ∈ s.findings ∧ f.id = findingId ∧ f.organizationId = org ∧ f.findingCode ≠ none := by
  rw [get, orFail_eq_ok] at h
  exact find?_spec h

theorem get_of_mem (hids : Unique (·.id) s.findings) {f : FindingRow} (hf : f ∈ s.findings)
    (hcode : f.findingCode ≠ none) : get s f.organizationId f.id = .ok f := by
  rw [get, orFail_eq_ok]
  refine hids.find?_eq_some hf (decide_eq_true ⟨rfl, rfl, hcode⟩) fun b _ hb => ?_
  rw [decide_eq_true_eq] at hb
  exact hb.1

/-- One transition of one finding: what it writes, and where a supersession points. -/
structure Moves (s : Store) (finding : FindingRow) (newStatus : FindingStatus)
    (command : LifecycleCommand) (s' : Store) : Prop where
  mem : finding ∈ s.findings
  allowed : newStatus ∈ transitions finding.status
  replacement : newStatus = .superseded →
    ∃ r, command.supersedingFindingId = some r ∧ r ≠ finding.id ∧
      Governed s finding.organizationId r
  findings : ∃ actor now, s'.findings =
    update (·.id = finding.id) (.moveTo newStatus command actor now) s.findings
  history : ∃ org actor id now,
    s'.history = s.history ++ [transitionRow finding newStatus command org actor id now]

theorem checkReplacement_ok {finding : FindingRow}
    (h : checkReplacement s org finding newStatus command = .ok ())
    (hnew : newStatus = .superseded) :
    ∃ r, command.supersedingFindingId = some r ∧ r ≠ finding.id ∧ Governed s org r := by
  rw [checkReplacement, if_pos hnew] at h
  split at h
  · cases h
  · next r hr =>
    obtain ⟨_, hne, h⟩ := bind_eq_ok.1 h
    obtain ⟨g, hget, -⟩ := bind_eq_ok.1 h
    exact ⟨r, hr, ensure_eq_ok.1 hne, g, get_ok hget⟩

theorem transition_ok
    (h : transition s org findingId newStatus command actor historyId now = .ok s') :
    ∃ finding, Moves s finding newStatus command s' ∧ finding.id = findingId ∧
      finding.organizationId = org ∧ finding.findingCode ≠ none := by
  obtain ⟨finding, hget, h⟩ := bind_eq_ok.1 h
  obtain ⟨hmem, hid, horg, hcode⟩ := get_ok hget
  obtain ⟨_, hallowed, h⟩ := bind_eq_ok.1 h
  obtain ⟨_, hreplacement, h⟩ := bind_eq_ok.1 h
  obtain rfl := pure_eq_ok.1 h
  refine ⟨finding, ⟨hmem, ensure_eq_ok.1 hallowed, fun hnew => ?_, ⟨actor, now, rfl⟩,
    ⟨org, actor, historyId, now, rfl⟩⟩, hid, horg, hcode⟩
  rw [horg]
  exact checkReplacement_ok hreplacement hnew

/-- A part of a request that supersedes nothing. -/
inductive PlainStep (s : Store) : Store → Prop
  | publish (published : List Finding) (row : FindingRow) (change : FindingStatusHistory)
      (hfresh : ∀ f ∈ s.findings, f.id ≠ row.id) (hstatus : row.status = .published)
      (hpointer : row.supersededByFindingId = none) (hid : change.findingId = row.id)
      (hprevious : change.previousStatus = .draft) (hnew : change.newStatus = .published) :
      PlainStep s { s with
        published, findings := s.findings ++ [row], history := s.history ++ [change] }
  | move {s' : Store} (finding : FindingRow) (newStatus : FindingStatus)
      (command : LifecycleCommand) (h : Moves s finding newStatus command s')
      (hplain : newStatus ≠ .superseded) : PlainStep s s'
  | reviews (reviews : List FindingReview) : PlainStep s { s with reviews }

/-- The request asks for the supersession of a finding by another one. -/
def Supersedes (call : Call) (findingId replacement : UUID) : Prop :=
  (∃ reason, call.request = .transition findingId .superseded ⟨reason, some replacement⟩) ∨
    ∃ reason, call.request = .review findingId ⟨.markSuperseded, reason, some replacement⟩

/-- What a request does: plain steps, or one supersession, which a review may record. -/
inductive RequestStep (s : Store) (call : Call) (s' : Store) : Prop
  | plain (h : Relation.ReflTransGen PlainStep s s')
  | supersede (finding : FindingRow) (command : LifecycleCommand) (replacement : UUID)
      (s₁ : Store) (hrequest : Supersedes call finding.id replacement)
      (hcommand : command.supersedingFindingId = some replacement)
      (horg : finding.organizationId = call.organizationId) (hcode : finding.findingCode ≠ none)
      (h : Moves s finding .superseded command s₁) (hrest : Relation.ReflTransGen PlainStep s₁ s')

theorem publishCandidate_step {context : Db} {payload : CandidateFindingCreate}
    (h : publishCandidate env context s org payload actor findingId historyId now = .ok s') :
    Relation.ReflTransGen PlainStep s s' := by
  unfold publishCandidate at h
  split at h
  · cases h
  · next db finding hpublished =>
    split at h
    · obtain rfl := Except.ok.inj h
      exact .refl
    · obtain ⟨findings, hinsert, h⟩ := bind_eq_ok.1 h
      obtain rfl := pure_eq_ok.1 h
      rw [orFail_eq_ok, insert_eq_some] at hinsert
      obtain ⟨hfresh, rfl⟩ := hinsert
      exact .single (.publish db.findings _ _ hfresh rfl rfl rfl rfl rfl)

theorem startReview_step {finding : FindingRow} {target : FindingStatus}
    (h : startReview s org finding target actor historyId now = .ok s') :
    Relation.ReflTransGen PlainStep s s' := by
  unfold startReview at h
  split at h
  · obtain ⟨f, hmove, -⟩ := transition_ok h
    exact .single (.move f _ _ hmove (by decide))
  · obtain rfl := Except.ok.inj h
    exact .refl

theorem reviewTransitions_step {call : Call} {finding : FindingRow} {payload : ReviewCreate}
    {historyIds : Fin 2 → UUID} {times : Fin 2 → Instant}
    (hrequest : call.request = .review findingId payload) (hid : finding.id = findingId)
    (h : reviewTransitions s call.organizationId finding payload actor historyIds times = .ok s') :
    RequestStep s call s' := by
  have hplain : ∀ target : FindingStatus, target ≠ .superseded →
      (startReview s call.organizationId finding target actor (historyIds 0) (times 0) >>= fun s =>
        transition s call.organizationId finding.id target ⟨payload.reasonCode, none⟩ actor
          (historyIds 1) (times 1)) = .ok s' → RequestStep s call s' := by
    intro target htarget h
    obtain ⟨s₁, hstart, hmove⟩ := bind_eq_ok.1 h
    obtain ⟨f, hmove, -⟩ := transition_ok hmove
    exact .plain ((startReview_step hstart).tail (.move f _ _ hmove htarget))
  obtain ⟨decision, reason, superseding⟩ := payload
  cases decision with
  | returnToDraft => cases h
  | markSuperseded =>
    obtain ⟨f, hmove, hf, horg, hcode⟩ := transition_ok h
    obtain ⟨r, hr, -⟩ := hmove.replacement rfl
    obtain rfl : superseding = some r := hr
    exact .supersede f _ r s' (.inr ⟨reason, by rw [hrequest, hf, hid]⟩) rfl horg hcode hmove .refl
  | confirm => exact hplain .confirmed (by decide) h
  | dismiss => exact hplain .dismissed (by decide) h
  | requestMoreEvidence => exact hplain .underReview (by decide) h

theorem RequestStep.tail {call : Call} (h : RequestStep s call s') (hstep : PlainStep s' s'') :
    RequestStep s call s'' := by
  cases h with
  | plain h => exact .plain (h.tail hstep)
  | supersede finding command replacement s₁ hrequest hcommand horg hcode h hrest =>
    exact .supersede finding command replacement s₁ hrequest hcommand horg hcode h
      (hrest.tail hstep)

theorem serve_step {call : Call} {reply : Unit} (h : serve env s call = .ok (s', reply)) :
    RequestStep s call s' := by
  obtain ⟨_, hresult, heq⟩ := map_eq_ok.1 h
  obtain rfl := congrArg Prod.fst heq
  cases hrequest : call.request with
  | publish context payload findingId =>
    rw [hrequest] at hresult
    exact .plain (publishCandidate_step hresult)
  | transition findingId newStatus command =>
    rw [hrequest] at hresult
    obtain ⟨f, hmove, rfl, horg, hcode⟩ := transition_ok hresult
    by_cases hnew : newStatus = .superseded
    · subst hnew
      obtain ⟨r, hr, -⟩ := hmove.replacement rfl
      obtain ⟨reason, superseding⟩ := command
      obtain rfl : superseding = some r := hr
      exact .supersede f _ r _ (.inl ⟨reason, hrequest⟩) rfl horg hcode hmove .refl
    · exact .plain (.single (.move f newStatus command hmove hnew))
  | review findingId payload =>
    rw [hrequest] at hresult
    obtain ⟨finding, hget, hresult⟩ := bind_eq_ok.1 hresult
    obtain ⟨s₁, htransitions, hresult⟩ := bind_eq_ok.1 hresult
    obtain rfl := pure_eq_ok.1 hresult
    exact (reviewTransitions_step hrequest (get_ok hget).2.1 htransitions).tail (.reviews _)

/-! ## Every change leaves one row -/

@[simp] theorem moveTo_id (newStatus : FindingStatus) (command : LifecycleCommand) (actor : UUID)
    (now : Instant) (f : FindingRow) : (f.moveTo newStatus command actor now).id = f.id := by
  cases newStatus <;> rfl

@[simp] theorem moveTo_status (newStatus : FindingStatus) (command : LifecycleCommand)
    (actor : UUID) (now : Instant) (f : FindingRow) :
    (f.moveTo newStatus command actor now).status = newStatus := by
  cases newStatus <;> rfl

theorem moveTo_pointer (h : newStatus ≠ .superseded) (command : LifecycleCommand) (actor : UUID)
    (now : Instant) (f : FindingRow) :
    (f.moveTo newStatus command actor now).supersededByFindingId = f.supersededByFindingId := by
  cases newStatus <;> first | rfl | exact absurd rfl h

/-- A stored finding after a transition: the moved one, or an untouched one. -/
theorem Moves.mem_findings {finding : FindingRow} (hids : Unique (·.id) s.findings)
    (h : Moves s finding newStatus command s') :
    ∃ actor now, ∀ f', f' ∈ s'.findings ↔
      f' = finding.moveTo newStatus command actor now ∨ f' ∈ s.findings ∧ f'.id ≠ finding.id := by
  obtain ⟨actor, now, hfindings⟩ := h.findings
  refine ⟨actor, now, fun f' => ?_⟩
  rw [hfindings, mem_update]
  constructor
  · rintro ⟨f, hf, rfl⟩
    by_cases hid : f.id = finding.id
    · obtain rfl := hids.eq_of_key_eq hf h.mem hid
      exact .inl (by simp)
    · exact .inr (by simp [hid, hf])
  · rintro (rfl | ⟨hf, hid⟩)
    · exact ⟨finding, h.mem, by simp⟩
    · exact ⟨f', hf, by simp [hid]⟩

theorem rowsOf_append {row : FindingStatusHistory} (h : s'.history = s.history ++ [row]) (id : UUID) :
    rowsOf s' id = rowsOf s id ++ if row.findingId = id then [row] else [] := by
  rw [rowsOf, h, filter_append, filter_singleton, Bool.cond_decide, rowsOf]

theorem Moves.rowsOf_eq {finding : FindingRow} (h : Moves s finding newStatus command s') :
    ∃ row : FindingStatusHistory, row.previousStatus = finding.status ∧ row.newStatus = newStatus ∧
      row.findingId = finding.id ∧ s'.history = s.history ++ [row] ∧
      ∀ id, rowsOf s' id = rowsOf s id ++ if finding.id = id then [row] else [] := by
  obtain ⟨org, actor, historyId, now, hhistory⟩ := h.history
  exact ⟨_, rfl, rfl, rfl, hhistory, rowsOf_append hhistory⟩

/-- From one store to a later one, each finding has new rows that replay the change of its
status. -/
def Recorded (s s' : Store) : Prop :=
  ∀ f ∈ s.findings, ∃ f' ∈ s'.findings, f'.id = f.id ∧
    ∃ rows, rowsOf s' f.id = rowsOf s f.id ++ rows ∧ replay f.status rows = some f'.status

theorem Recorded.refl (s : Store) : Recorded s s :=
  fun f hf => ⟨f, hf, rfl, [], (append_nil _).symm, rfl⟩

theorem Recorded.trans (h : Recorded s s') (h' : Recorded s' s'') : Recorded s s'' := by
  intro f hf
  obtain ⟨f', hf', hid', rows, hrows, hreplay⟩ := h f hf
  obtain ⟨f'', hf'', hid'', rows', hrows', hreplay'⟩ := h' f' hf'
  refine ⟨f'', hf'', hid''.trans hid', rows ++ rows', ?_, ?_⟩
  · rw [← hid', hrows', hid', hrows, append_assoc]
  · rw [replay_append, hreplay]
    exact hreplay'

theorem Moves.recorded {finding : FindingRow} (hids : Unique (·.id) s.findings)
    (h : Moves s finding newStatus command s') : Recorded s s' := by
  obtain ⟨actor, now, hmem⟩ := h.mem_findings hids
  obtain ⟨row, hprevious, hnew, -, -, hrows⟩ := h.rowsOf_eq
  intro f hf
  by_cases hid : f.id = finding.id
  · obtain rfl := hids.eq_of_key_eq hf h.mem hid
    refine ⟨_, (hmem _).2 (.inl rfl), moveTo_id .., [row], ?_, ?_⟩
    · rw [hrows, if_pos rfl]
    · rw [replay_singleton hprevious (hnew ▸ h.allowed), moveTo_status, hnew]
  · refine ⟨f, (hmem f).2 (.inr ⟨hf, hid⟩), rfl, [], ?_, rfl⟩
    rw [hrows, if_neg (Ne.symm hid)]

/-! ## The invariant -/

/-- The status of a finding before the run; a finding that the run publishes starts as a draft. -/
def initialStatus (s : Store) (findingId : UUID) : FindingStatus :=
  ((s.findings.find? (·.id = findingId)).map (·.status)).getD .draft

/-- A store before the run: no finding is superseded, and nothing is recorded. -/
structure Initial (s : Store) : Prop where
  ids : Unique (·.id) s.findings
  pointers : ∀ f ∈ s.findings, f.supersededByFindingId = none
  history : s.history = []

/-- The invariant of a run from the statuses `start`. -/
structure Consistent (start : UUID → FindingStatus) (s : Store) : Prop where
  ids : Unique (·.id) s.findings
  pointer : ∀ f ∈ s.findings, f.supersededByFindingId ≠ none →
    f.status = .superseded ∨ f.status = .archived
  replayed : ∀ f ∈ s.findings, replay (start f.id) (rowsOf s f.id) = some f.status
  owned : ∀ row ∈ s.history, ∃ f ∈ s.findings, f.id = row.findingId
  drafts : ∀ id, (∀ f ∈ s.findings, f.id ≠ id) → start id = .draft

theorem Initial.consistent (h : Initial s) : Consistent (initialStatus s) s := by
  refine ⟨h.ids, ?_, ?_, ?_, ?_⟩
  · intro f hf hpointer
    exact absurd (h.pointers f hf) hpointer
  · intro f hf
    have hfind : s.findings.find? (·.id = f.id) = some f :=
      h.ids.find?_eq_some hf (decide_eq_true rfl) fun b _ hb => of_decide_eq_true hb
    rw [rowsOf, h.history, initialStatus, hfind]
    rfl
  · intro row hrow
    rw [h.history] at hrow
    exact absurd hrow not_mem_nil
  · intro id hfree
    have hnone : s.findings.find? (·.id = id) = none := by
      rw [List.find?_eq_none]
      intro f hf
      simpa using hfree f hf
    rw [initialStatus, hnone]
    rfl

theorem rowsOf_eq_nil {start : UUID → FindingStatus} (h : Consistent start s) {id : UUID}
    (hfree : ∀ f ∈ s.findings, f.id ≠ id) : rowsOf s id = [] := by
  rw [rowsOf, filter_eq_nil_iff]
  intro row hrow hid
  obtain ⟨f, hf, hfid⟩ := h.owned row hrow
  exact hfree f hf (hfid.trans (of_decide_eq_true hid))

theorem Consistent.move {start : UUID → FindingStatus} {finding : FindingRow}
    (h : Consistent start s) (hmove : Moves s finding newStatus command s') :
    Consistent start s' := by
  obtain ⟨actor, now, hmem⟩ := hmove.mem_findings h.ids
  obtain ⟨row, hprevious, hnew, hrow, hhistory, hrows⟩ := hmove.rowsOf_eq
  have hids : Unique (·.id) s'.findings := by
    obtain ⟨actor, now, hfindings⟩ := hmove.findings
    rw [hfindings]
    exact h.ids.update fun f => moveTo_id ..
  refine ⟨hids, ?_, ?_, ?_, ?_⟩
  · intro f' hf' hpointer
    rcases (hmem f').1 hf' with rfl | ⟨hf, -⟩
    · rw [moveTo_status]
      by_cases hsuperseded : newStatus = .superseded
      · exact .inl hsuperseded
      · rw [moveTo_pointer hsuperseded] at hpointer
        have hallowed := hmove.allowed
        rcases h.pointer finding hmove.mem hpointer with hstatus | hstatus
        · rw [hstatus] at hallowed
          exact .inr (mem_singleton.1 hallowed)
        · rw [hstatus] at hallowed
          exact absurd hallowed not_mem_nil
    · exact h.pointer f' hf hpointer
  · intro f' hf'
    obtain ⟨f, hf, hid, rows, hrows', hreplay⟩ : ∃ f ∈ s.findings, f.id = f'.id ∧
        ∃ rows, rowsOf s' f.id = rowsOf s f.id ++ rows ∧ replay f.status rows = some f'.status := by
      rcases (hmem f').1 hf' with rfl | ⟨hf, hid⟩
      · refine ⟨finding, hmove.mem, (moveTo_id ..).symm, [row], ?_, ?_⟩
        · rw [hrows, if_pos rfl]
        · rw [replay_singleton hprevious (hnew ▸ hmove.allowed), moveTo_status, hnew]
      · refine ⟨f', hf, rfl, [], ?_, rfl⟩
        rw [hrows, if_neg (Ne.symm hid)]
    rw [← hid, hrows', replay_append, h.replayed f hf]
    exact hreplay
  · intro row' hrow'
    have hkept : ∀ f ∈ s.findings, ∃ f' ∈ s'.findings, f'.id = f.id := by
      intro f hf
      obtain ⟨f', hf', hid, -⟩ := hmove.recorded h.ids f hf
      exact ⟨f', hf', hid⟩
    rw [hhistory, mem_append, mem_singleton] at hrow'
    rcases hrow' with hrow' | rfl
    · obtain ⟨f, hf, hid⟩ := h.owned row' hrow'
      obtain ⟨f', hf', hid'⟩ := hkept f hf
      exact ⟨f', hf', hid'.trans hid⟩
    · obtain ⟨f', hf', hid'⟩ := hkept finding hmove.mem
      exact ⟨f', hf', hid'.trans hrow.symm⟩
  · intro id hfree
    refine h.drafts id fun f hf => ?_
    obtain ⟨f', hf', hid, -⟩ := hmove.recorded h.ids f hf
    rw [← hid]
    exact hfree f' hf'

theorem Consistent.publish {start : UUID → FindingStatus} {published : List Finding}
    {row : FindingRow} {change : FindingStatusHistory} (h : Consistent start s)
    (hfresh : ∀ f ∈ s.findings, f.id ≠ row.id) (hstatus : row.status = .published)
    (hpointer : row.supersededByFindingId = none) (hid : change.findingId = row.id)
    (hprevious : change.previousStatus = .draft) (hnew : change.newStatus = .published) :
    Consistent start { s with
      published, findings := s.findings ++ [row], history := s.history ++ [change] } := by
  have hrows : ∀ id, rowsOf { s with
      published, findings := s.findings ++ [row], history := s.history ++ [change] } id =
      rowsOf s id ++ if change.findingId = id then [change] else [] := rowsOf_append rfl
  refine ⟨h.ids.append hfresh, ?_, ?_, ?_, ?_⟩
  · intro f hf hsuperseded
    rcases mem_append.1 hf with hf | hf
    · exact h.pointer f hf hsuperseded
    · obtain rfl := mem_singleton.1 hf
      exact absurd hpointer hsuperseded
  · intro f hf
    rw [hrows, hid]
    rcases mem_append.1 hf with hf | hf
    · rw [if_neg (Ne.symm (hfresh f hf)), append_nil]
      exact h.replayed f hf
    · obtain rfl := mem_singleton.1 hf
      rw [if_pos rfl, rowsOf_eq_nil h hfresh, nil_append, h.drafts f.id hfresh, hstatus, ← hnew]
      refine replay_singleton hprevious ?_
      rw [hnew]
      exact mem_singleton_self _
  · intro row' hrow'
    rcases mem_append.1 hrow' with hrow' | hrow'
    · obtain ⟨f, hf, hfid⟩ := h.owned row' hrow'
      exact ⟨f, mem_append_left _ hf, hfid⟩
    · obtain rfl := mem_singleton.1 hrow'
      exact ⟨row, mem_append_right _ (mem_singleton_self _), hid.symm⟩
  · intro id hfree
    exact h.drafts id fun f hf => hfree f (mem_append_left _ hf)

theorem Consistent.plain {start : UUID → FindingStatus} (h : Consistent start s)
    (hstep : PlainStep s s') : Consistent start s' := by
  cases hstep with
  | publish published row change hfresh hstatus hpointer hid hprevious hnew =>
    exact h.publish hfresh hstatus hpointer hid hprevious hnew
  | move finding newStatus command hmove => exact h.move hmove
  | reviews => exact ⟨h.ids, h.pointer, h.replayed, h.owned, h.drafts⟩

theorem Consistent.plains {start : UUID → FindingStatus} (h : Consistent start s)
    (hsteps : Relation.ReflTransGen PlainStep s s') : Consistent start s' := by
  induction hsteps with
  | refl => exact h
  | tail _ hstep ih => exact ih.plain hstep

theorem Consistent.step {start : UUID → FindingStatus} {call : Call} (h : Consistent start s)
    (hstep : RequestStep s call s') : Consistent start s' := by
  cases hstep with
  | plain hsteps => exact h.plains hsteps
  | supersede finding command replacement s₁ _ _ _ _ hmove hrest => exact (h.move hmove).plains hrest

theorem PlainStep.recorded {start : UUID → FindingStatus} (h : Consistent start s)
    (hstep : PlainStep s s') : Recorded s s' := by
  cases hstep with
  | publish published row change hfresh hstatus hpointer hid hprevious hnew =>
    intro f hf
    refine ⟨f, mem_append_left _ hf, rfl, [], ?_, rfl⟩
    rw [rowsOf_append (s := s) rfl, hid, if_neg (Ne.symm (hfresh f hf))]
  | move finding newStatus command hmove => exact hmove.recorded h.ids
  | reviews => exact .refl s

theorem recorded_of_plains {start : UUID → FindingStatus} (h : Consistent start s)
    (hsteps : Relation.ReflTransGen PlainStep s s') : Recorded s s' := by
  induction hsteps with
  | refl => exact .refl s
  | tail hsteps hstep ih => exact ih.trans (hstep.recorded (h.plains hsteps))

theorem RequestStep.recorded {start : UUID → FindingStatus} {call : Call}
    (h : Consistent start s) (hstep : RequestStep s call s') : Recorded s s' := by
  cases hstep with
  | plain hsteps => exact recorded_of_plains h hsteps
  | supersede finding command replacement s₁ _ _ _ _ hmove hrest =>
    exact (hmove.recorded h.ids).trans (recorded_of_plains (h.move hmove) hrest)

/-! ## Cycles of supersessions -/

/-- The supersessions as arcs from a finding to the one that supersedes it. -/
def supersessionArcs (s : Store) : List (UUID × UUID) :=
  s.findings.filterMap fun f => f.supersededByFindingId.map fun replacement => (f.id, replacement)

theorem mem_supersessionArcs : (u, v) ∈ supersessionArcs s ↔
      ∃ f ∈ s.findings, f.id = u ∧ f.supersededByFindingId = some v := by
  simp only [supersessionArcs, mem_filterMap, Option.map_eq_some_iff, Prod.mk.injEq]
  constructor
  · rintro ⟨f, hf, replacement, hpointer, hid, rfl⟩
    exact ⟨f, hf, hid, hpointer⟩
  · rintro ⟨f, hf, hid, hpointer⟩
    exact ⟨f, hf, v, hpointer, hid, rfl⟩

/-- The request supersedes a finding by one whose supersessions lead back to it. -/
def ClosesCycle (s : Store) (call : Call) : Prop :=
  ∃ findingId replacement n, Supersedes call findingId replacement ∧
    (∃ f ∈ s.findings, f.id = findingId ∧ f.organizationId = call.organizationId ∧
      f.findingCode ≠ none ∧ .superseded ∈ transitions f.status) ∧
    Governed s call.organizationId replacement ∧ replacement ≠ findingId ∧
    Graph.Walk (supersessionArcs s) (n + 1) replacement findingId

theorem PlainStep.mem_arcs {start : UUID → FindingStatus} (h : Consistent start s)
    (hstep : PlainStep s s') : (u, v) ∈ supersessionArcs s' ↔ (u, v) ∈ supersessionArcs s := by
  rw [mem_supersessionArcs, mem_supersessionArcs]
  cases hstep with
  | publish published row change hfresh hstatus hpointer =>
    constructor
    · rintro ⟨f, hf, hid, hsuperseded⟩
      rcases mem_append.1 hf with hf | hf
      · exact ⟨f, hf, hid, hsuperseded⟩
      · obtain rfl := mem_singleton.1 hf
        rw [hpointer] at hsuperseded
        cases hsuperseded
    · rintro ⟨f, hf, hid, hsuperseded⟩
      exact ⟨f, mem_append_left _ hf, hid, hsuperseded⟩
  | move finding newStatus command hmove hplain =>
    obtain ⟨actor, now, hmem⟩ := hmove.mem_findings h.ids
    constructor
    · rintro ⟨f', hf', hid, hsuperseded⟩
      rcases (hmem f').1 hf' with rfl | ⟨hf, -⟩
      · rw [moveTo_pointer hplain] at hsuperseded
        exact ⟨finding, hmove.mem, (moveTo_id ..).symm.trans hid, hsuperseded⟩
      · exact ⟨f', hf, hid, hsuperseded⟩
    · rintro ⟨f, hf, hid, hsuperseded⟩
      by_cases hsame : f.id = finding.id
      · obtain rfl := h.ids.eq_of_key_eq hf hmove.mem hsame
        refine ⟨_, (hmem _).2 (.inl rfl), (moveTo_id ..).trans hid, ?_⟩
        rw [moveTo_pointer hplain]
        exact hsuperseded
      · exact ⟨f, (hmem f).2 (.inr ⟨hf, hsame⟩), hid, hsuperseded⟩
  | reviews => exact Iff.rfl

theorem mem_arcs_of_plains {start : UUID → FindingStatus} (h : Consistent start s)
    (hsteps : Relation.ReflTransGen PlainStep s s') :
    (u, v) ∈ supersessionArcs s' ↔ (u, v) ∈ supersessionArcs s := by
  induction hsteps with
  | refl => exact Iff.rfl
  | tail hsteps hstep ih => exact (hstep.mem_arcs (h.plains hsteps)).trans ih

/-- A supersession adds the arc from the superseded finding, which had none. -/
theorem mem_arcs_of_supersede {start : UUID → FindingStatus} {finding : FindingRow}
    {replacement : UUID} (h : Consistent start s) (hmove : Moves s finding .superseded command s')
    (hcommand : command.supersedingFindingId = some replacement) :
    (u, v) ∈ supersessionArcs s' ↔
      (u, v) ∈ supersessionArcs s ++ [(finding.id, replacement)] := by
  obtain ⟨actor, now, hmem⟩ := hmove.mem_findings h.ids
  have hnone : finding.supersededByFindingId = none := by
    by_contra hpointer
    have hallowed := hmove.allowed
    rcases h.pointer finding hmove.mem hpointer with hstatus | hstatus
    · rw [hstatus] at hallowed
      exact absurd hallowed (by decide)
    · rw [hstatus] at hallowed
      exact absurd hallowed (by decide)
  rw [mem_append, mem_supersessionArcs, mem_supersessionArcs, mem_singleton, Prod.mk.injEq]
  constructor
  · rintro ⟨f', hf', hid, hsuperseded⟩
    rcases (hmem f').1 hf' with rfl | ⟨hf, -⟩
    · exact .inr ⟨hid.symm, Option.some.inj (hsuperseded.symm.trans hcommand)⟩
    · exact .inl ⟨f', hf, hid, hsuperseded⟩
  · rintro (⟨f, hf, hid, hsuperseded⟩ | ⟨rfl, rfl⟩)
    · refine ⟨f, (hmem f).2 (.inr ⟨hf, fun hsame => ?_⟩), hid, hsuperseded⟩
      obtain rfl := h.ids.eq_of_key_eq hf hmove.mem hsame
      rw [hnone] at hsuperseded
      cases hsuperseded
    · exact ⟨_, (hmem _).2 (.inl rfl), moveTo_id .., hcommand⟩

theorem acyclic_step {start : UUID → FindingStatus} {call : Call} (h : Consistent start s)
    (hacyclic : Graph.Acyclic (supersessionArcs s)) (hcondition : ¬ ClosesCycle s call)
    (hstep : RequestStep s call s') : Graph.Acyclic (supersessionArcs s') := by
  intro n a hcycle
  cases hstep with
  | plain hsteps => exact hacyclic n a (hcycle.mono fun e he => (mem_arcs_of_plains h hsteps).1 he)
  | supersede finding command replacement s₁ hrequest hcommand horg hcode hmove hrest =>
    have hcycle' : Graph.Walk (supersessionArcs s ++ [(finding.id, replacement)]) (n + 1) a a :=
      hcycle.mono fun e he => (mem_arcs_of_supersede h hmove hcommand).1
        ((mem_arcs_of_plains (h.move hmove) hrest).1 he)
    obtain ⟨r, hr, hne, hgoverned⟩ := hmove.replacement rfl
    obtain rfl : r = replacement := Option.some.inj (hr.symm.trans hcommand)
    rcases hcycle'.closed_of_snoc_arc with hold | ⟨i, j, k, -, -, -, -, hback⟩
    · exact hacyclic n a hold
    · cases k with
      | zero =>
        cases hback
        exact hne rfl
      | succ k =>
        exact hcondition ⟨finding.id, r, k, hrequest, ⟨finding, hmove.mem, rfl, horg, hcode,
          hmove.allowed⟩, horg ▸ hgoverned, hne, hback⟩

theorem transition_of_checks {replacement : UUID} {finding : FindingRow}
    (hids : Unique (·.id) s.findings) (hf : finding ∈ s.findings)
    (horg : finding.organizationId = org) (hcode : finding.findingCode ≠ none)
    (hallowed : .superseded ∈ transitions finding.status) (hgoverned : Governed s org replacement)
    (hne : replacement ≠ finding.id) (reason : String) (actor historyId : UUID) (now : Instant) :
    ∃ s', transition s org finding.id .superseded ⟨reason, some replacement⟩ actor historyId now =
      .ok s' ∧ Moves s finding .superseded ⟨reason, some replacement⟩ s' := by
  have hget : get s org finding.id = .ok finding := horg ▸ get_of_mem hids hf hcode
  obtain ⟨g, hg, rfl, hgorg, hgcode⟩ := hgoverned
  have hreplacement : get s org g.id = .ok g := hgorg ▸ get_of_mem hids hg hgcode
  have hok : ∃ s', transition s org finding.id .superseded ⟨reason, some g.id⟩ actor historyId now =
      .ok s' := by
    rw [transition, hget, ok_bind, ensure_of hallowed, ok_bind, checkReplacement, if_pos rfl]
    dsimp only
    rw [ensure_of hne, ok_bind, hreplacement]
    exact ⟨_, rfl⟩
  obtain ⟨s', hs'⟩ := hok
  obtain ⟨f, hmove, hid, -⟩ := transition_ok hs'
  obtain rfl := hids.eq_of_key_eq hmove.mem hf hid
  exact ⟨s', hs', hmove⟩

theorem not_acyclic_of_closesCycle {start : UUID → FindingStatus} {call : Call}
    (h : Consistent start s) (hcloses : ClosesCycle s call) :
    ¬ Graph.Acyclic (supersessionArcs ((serve env).next s call)) := by
  obtain ⟨_, replacement, n, hrequest, ⟨f, hf, rfl, horg, hcode, hallowed⟩, hgoverned, hne, hwalk⟩ :=
    hcloses
  obtain ⟨s', s₁, reason, hok, hmove, harcs⟩ : ∃ s' s₁ reason, serve env s call = .ok (s', ()) ∧
      Moves s f .superseded ⟨reason, some replacement⟩ s₁ ∧
      supersessionArcs s' = supersessionArcs s₁ := by
    rcases hrequest with ⟨reason, hrequest⟩ | ⟨reason, hrequest⟩
    · obtain ⟨s₁, htransition, hmove⟩ := transition_of_checks h.ids hf horg hcode hallowed hgoverned
        hne reason call.actor (call.historyIds 0) call.now
      refine ⟨s₁, s₁, reason, ?_, hmove, rfl⟩
      simp only [serve, hrequest, htransition]
      rfl
    · obtain ⟨s₁, htransition, hmove⟩ := transition_of_checks h.ids hf horg hcode hallowed hgoverned
        hne reason call.actor (call.historyIds 0) (call.times 0)
      have hget : get s call.organizationId f.id = .ok f := horg ▸ get_of_mem h.ids hf hcode
      refine ⟨{ s₁ with reviews := s₁.reviews ++ [⟨call.organizationId, f.id, .markSuperseded,
        call.actor, reason, call.now⟩] }, s₁, reason, ?_, hmove, rfl⟩
      simp only [serve, hrequest, createReview, hget, ok_bind, reviewTransitions, htransition]
      rfl
  rw [next_of_ok hok, harcs]
  intro hacyclic
  refine hacyclic (n + 1) replacement (Graph.Walk.snoc (hwalk.mono fun e he => ?_) ?_)
  · exact (mem_arcs_of_supersede h hmove rfl).2 (mem_append_left _ he)
  · exact (mem_arcs_of_supersede h hmove rfl).2 (mem_append_right _ (mem_singleton_self _))

/-! ## Whole runs -/

/-- What is promised of a run from a store. -/
structure SupersessionSound (env : Env) (s : Store) (calls : List Call) : Prop where
  acyclic : ∀ bs cs, calls = bs ++ cs → Graph.Acyclic (supersessionArcs ((serve env).run s bs))
  replayed : ∀ bs cs, calls = bs ++ cs → ∀ f ∈ ((serve env).run s bs).findings,
    replay (initialStatus s f.id) (rowsOf ((serve env).run s bs) f.id) = some f.status
  listed : ∀ bs cs, calls = bs ++ cs → ∀ f ∈ ((serve env).run s bs).findings,
    (rowsOf ((serve env).run s bs) f.id).Pairwise (fun a b => a.changedAt ≤ b.changedAt) →
    replay (initialStatus s f.id) (listHistory ((serve env).run s bs) f.id) = some f.status
  recorded : (serve env).AllSteps (fun s call => Recorded s ((serve env).next s call)) s calls

theorem consistent_run (hinit : Initial s) (calls : List Call) :
    Consistent (initialStatus s) ((serve env).run s calls) :=
  run_invariant hinit.consistent (fun h hok => h.step (serve_step hok)) calls

theorem acyclic_run (hinit : Initial s) {calls : List Call}
    (h : (serve env).AllSteps (fun s call => ¬ ClosesCycle s call) s calls) :
    Graph.Acyclic (supersessionArcs ((serve env).run s calls)) := by
  have hstart : Graph.Acyclic (supersessionArcs s) := by
    intro n a hcycle
    cases hcycle with
    | cons harc =>
      obtain ⟨f, hf, -, hpointer⟩ := mem_supersessionArcs.1 harc
      rw [hinit.pointers f hf] at hpointer
      cases hpointer
  have hboth := run_invariant_of
    (P := fun t => Consistent (initialStatus s) t ∧ Graph.Acyclic (supersessionArcs t))
    ⟨hinit.consistent, hstart⟩ (fun hP hcondition hok => ⟨hP.1.step (serve_step hok),
      acyclic_step hP.1 hP.2 hcondition (serve_step hok)⟩) h
  exact hboth.2

theorem recorded_next {start : UUID → FindingStatus} (h : Consistent start s) (call : Call) :
    Recorded s ((serve env).next s call) := by
  rcases next_cases (serve env) s call with ⟨s', r, hok, hnext⟩ | ⟨e, -, hnext⟩
  · rw [hnext]
    exact (serve_step hok).recorded h
  · rw [hnext]
    exact .refl s

/-- In a run the supersessions stay acyclic and every finding's history replays to its status, in
every state, if and only if no request supersedes a finding by one that leads back to it. -/
theorem supersessionSound_iff (hinit : Initial s) (calls : List Call) :
    SupersessionSound env s calls ↔
      (serve env).AllSteps (fun s call => ¬ ClosesCycle s call) s calls := by
  constructor
  · intro h
    rw [allSteps_iff]
    rintro bs call cs hcalls hcloses
    have hacyclic := h.acyclic (bs ++ [call]) cs (by rw [hcalls, append_assoc]; rfl)
    rw [run_append] at hacyclic
    exact not_acyclic_of_closesCycle (consistent_run hinit bs) hcloses hacyclic
  · intro h
    constructor
    · rintro bs cs rfl
      exact acyclic_run hinit ((allSteps_append _ s bs cs).1 h).1
    · rintro bs cs - f hf
      exact (consistent_run hinit bs).replayed f hf
    · rintro bs cs - f hf htimes
      have hreplayed := (consistent_run hinit bs).replayed f hf
      rw [listHistory_eq hreplayed htimes]
      exact hreplayed
    · refine allSteps_iff.2 fun bs call cs _ => ?_
      exact recorded_next (consistent_run hinit bs) call

end Runs

/-! ## Two findings that supersede each other -/

namespace Mutual

def env : Env where
  strip s := s
  upper s := s
  rule _ _ := some true
  digest content := content.definitionCode

def execution (id : UUID) (code : String) : IntelligenceExecution where
  id
  organizationId := 1
  datasetId := 4
  trustAssessmentId := 2
  readinessDecisionId := 3
  definitionCode := code
  definitionVersion := "1.0"
  resultValue := 3
  unit := none
  currency := none
  breached := true
  checkedRecordCount := 3
  affectedRecordCount := 3
  exposureValue := none
  exposureCurrency := none

/-- What the other tables hold: a ready assessment and two executions. -/
def context : Db where
  organizations := [⟨1, true⟩]
  trustAssessments := [⟨2, 1, .completed⟩]
  readinessDecisions := [⟨3, 1, 2, .arithmetic, .ready, [], []⟩]
  evidenceRows := [⟨.dataset, 4, 1⟩]
  executions := [execution 11 "repeat_visit", execution 12 "schedule_completion"]
  findings := []
  findingSourceDatasets := []

def payload (executionId : UUID) : CandidateFindingCreate where
  executionId
  resultId := executionId
  findingType := .exception
  title := "Repeat visits"
  summary := "Three repeat visits"
  domainCode := "maintenance"
  measuredValue := 3
  measuredValueType := .count
  measuredUnit := none
  measuredCurrency := none
  exposureValue := none
  exposureValueType := none
  exposureCurrency := none
  severity := .medium
  severityBasis := "repeat_visits"
  affectedRecordCount := 3
  datasetReference := 4
  evidence := []
  warnings := []
  limitations := []

def call (historyId : UUID) (now : Instant) (request : Request) : Call :=
  ⟨1, 7, fun _ => historyId, fun _ => now, now, request⟩

def empty : Store := ⟨[], [], [], []⟩

/-- Two findings are published, and the first is superseded by the second. -/
def superseded : List Call :=
  [call 1 100 (.publish context (payload 11) 20), call 2 200 (.publish context (payload 12) 21),
    call 3 300 (.transition 20 .superseded ⟨"REPLACED", some 21⟩)]

theorem initial : Initial empty where
  ids := Unique.nil
  pointers _ hf := absurd hf not_mem_nil
  history := rfl

theorem supersessionSound_iff_superseded : SupersessionSound env empty superseded ↔
    (serve env).AllSteps (fun s call => ¬ ClosesCycle s call) empty superseded :=
  supersessionSound_iff initial superseded

/-- The second is then superseded by the first. -/
def back : Call := call 4 400 (.transition 21 .superseded ⟨"REPLACED", some 20⟩)

theorem supersessionArcs_run :
    supersessionArcs ((serve env).run empty (superseded ++ [back])) = [(20, 21), (21, 20)] := by
  decide +kernel

/-- Following the supersessions never ends. -/
theorem not_supersessionSound : ¬ ∀ (env : Env) (s : Store) (calls : List Call),
    Initial s → SupersessionSound env s calls := by
  intro h
  have hacyclic := (h env empty (superseded ++ [back]) initial).acyclic _ [] (append_nil _).symm
  rw [supersessionArcs_run] at hacyclic
  exact hacyclic 1 20 (.cons (b := 21) (by decide) (.cons (by decide) (.nil 20)))

end Mutual

end Intel4Ops.FindingLifecycle
