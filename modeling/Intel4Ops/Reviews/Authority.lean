import Intel4Ops.Reviews.Transactions

/-!
# The authority of review

However calls overlap, the versions of a decision stay one chain and the latest review alone says
what is in effect. A machine decision without a proposal can be confirmed as well, and then leaves
the queue with nothing in effect.
-/

namespace Intel4Ops.Reviews

open Lib Overlap List Service Option

/-! ## What is claimed of a run -/

/-- The reviews of a decision, in the order in which they were committed. -/
def Db.reviewsOf (db : Db) (organizationId decisionId : UUID) : List SemanticReview :=
  db.reviews.filter fun r => r.organizationId = organizationId ∧ r.decisionId = decisionId

/-- The versions of a decision count from one, each superseding the one before it, and each of them
belongs to one review of its own. -/
structure Numbered (db : Db) (organizationId decisionId : UUID) : Prop where
  numbers : (db.versionsOf organizationId decisionId).map (·.versionNumber) =
    List.range' 1 (db.versionsOf organizationId decisionId).length
  first : ∀ v ∈ (db.versionsOf organizationId decisionId).head?, v.supersedesVersionId = none
  supersedes : (db.versionsOf organizationId decisionId).IsChain fun v w =>
    w.supersedesVersionId = some v.id
  reviews : (db.versionsOf organizationId decisionId).map (·.reviewId) =
    (db.reviewsOf organizationId decisionId).map (·.id)
  distinct : ((db.reviewsOf organizationId decisionId).map (·.id)).Nodup

/-- The effective decision is that of the latest review, and of the machine only without reviews. -/
structure Determined (db : Db) (decision : SemanticInterpretationDecision) : Prop where
  unreviewed : db.reviewsOf decision.organizationId decision.id = [] →
    db.effective decision = resolveEffectiveDecision decision.status decision.selectedConcept
      decision.confidence none
  reviewed : ∀ r ∈ (db.reviewsOf decision.organizationId decision.id).getLast?,
    (db.effective decision).effectiveStatus =
        .human (effectiveStatusAndSourceForAction r.action).1 ∧
      (db.effective decision).effectiveConcept =
        effectiveConcept r.action decision r.correctedConcept ∧
      (db.effective decision).effectiveConfidence = effectiveConfidence r.action decision

/-- A reviewer has confirmed or corrected the decision. -/
def EffectiveDecision.Accepted (effective : EffectiveDecision) : Prop :=
  effective.effectiveStatus = .human .humanConfirmed ∨
    effective.effectiveStatus = .human .humanCorrected

def Db.Places (db : Db) (organizationId caseId : UUID) (runId : Option UUID)
    (decision : SemanticInterpretationDecision) (group : ReviewGroup) : Prop :=
  ∃ items, db.listReviewQueue organizationId caseId runId (some "all") = .ok items ∧
    ∃ item ∈ items, item.decision = decision ∧ item.group = group

/-- What holds in a state in which review is authoritative. -/
structure Authoritative (env : Env) (s : State Db Call Phase) : Prop where
  numbered : ∀ organizationId decisionId, Numbered s.db organizationId decisionId
  refused : ∀ t ∈ s.inflight,
    (versionNumber (s.db.latestVersion t.call.organizationId t.call.decisionId) : ℤ) ≠
        t.call.expectedVersion →
      ((protocol env).service.next s (.advance t.id)).db = s.db
  determined : ∀ d ∈ s.db.decisions, Determined s.db d
  interpreted : ∀ d ∈ s.db.decisions, (s.db.effective d).Accepted →
    (s.db.effective d).effectiveConcept ≠ none
  placed : ∀ organizationId caseId runId, ∀ d ∈ s.db.reviewScope organizationId caseId runId,
    s.db.Places organizationId caseId runId d .resolved ↔
      (s.db.effective d).Accepted ∧ (s.db.effective d).effectiveConcept ≠ none

/-- Review is authoritative in every state of a run, and of the calls from one version of a decision
one commits at most. -/
structure Reviewed (env : Env) (db : Db) (events : List (Event Call)) : Prop where
  authoritative : ∀ before later, events = before ++ later →
    Authoritative env (overlapped env db before)
  single : ((protocol env).commits ⟨db, []⟩ events).Pairwise fun a b =>
    a.organizationId = b.organizationId → a.decisionId = b.decisionId →
      a.expectedVersion ≠ b.expectedVersion

/-- The rows that a call is about to add have new identifiers. -/
def Call.Fresh (call : Call) (db : Db) : Prop :=
  (∀ r ∈ db.reviews, r.id ≠ call.reviewId) ∧ ∀ v ∈ db.versions, v.id ≠ call.versionId

/-- A call that is about to commit a confirmation confirms a proposal. -/
def Founded (db : Db) (call : Call) : Phase → Prop
  | .checked .confirm decision _ => call.Fresh db → decision.selectedConcept ≠ none
  | _ => True

/-! ## Reviews and versions side by side -/

section

variable {env : Env} {db db' : Db} {call : Call} {phase : Phase} {reply : Reply}

theorem Ordered.recordsOf (h : Ordered db) (organizationId decisionId : UUID) :
    List.Forall₂ (Records db.decisions) (db.reviewsOf organizationId decisionId)
      (db.versionsOf organizationId decisionId) := by
  refine rel_filter ?_ h.records
  intro r v hrecords
  simp only [hrecords.organization, hrecords.decision]

theorem getLast?_of_forall₂ {α β : Type*} {R : α → β → Prop} {l : List α} {m : List β}
    (h : List.Forall₂ R l m) {b : β} (hb : m.getLast? = some b) :
    ∃ a, l.getLast? = some a ∧ R a b := by
  have hreverse := forall₂_reverse_iff.2 h
  rw [← List.head?_reverse] at hb
  rw [← List.head?_reverse]
  generalize l.reverse = l' at hreverse ⊢
  generalize m.reverse = m' at hreverse hb
  cases hreverse with
  | nil => cases hb
  | @cons a b' _ _ hab _ =>
    obtain rfl : b' = b := some.inj hb
    exact ⟨a, rfl, hab⟩

theorem map_eq_of_forall₂ {α β γ : Type*} {R : α → β → Prop} {l : List α} {m : List β} {f : α → γ}
    {g : β → γ} (h : List.Forall₂ R l m) (hR : ∀ a b, R a b → g b = f a) : m.map g = l.map f := by
  induction h with
  | nil => rfl
  | cons hab _ ih => rw [map_cons, map_cons, hR _ _ hab, ih]

variable {organizationId : UUID} {d : SemanticInterpretationDecision}

variable {decisionId caseId : UUID} {runId : Option UUID}

theorem Ordered.latest (h : Ordered db) {v : SemanticDecisionVersion}
    (hv : db.latestVersion organizationId decisionId = some v) :
    ∃ r, (db.reviewsOf organizationId decisionId).getLast? = some r ∧ Records db.decisions r v ∧
      v ∈ db.versions := by
  rw [h.latestVersion] at hv
  obtain ⟨r, hr, hrecords⟩ := getLast?_of_forall₂ (h.recordsOf organizationId decisionId) hv
  exact ⟨r, hr, hrecords, mem_of_mem_filter (mem_of_getLast? hv)⟩

theorem Ordered.latestVersion_eq_none (h : Ordered db) :
    db.latestVersion organizationId decisionId = none ↔
      db.reviewsOf organizationId decisionId = [] := by
  rw [h.latestVersion, List.getLast?_eq_none_iff, ← length_eq_zero_iff,
    ← length_eq_zero_iff, (h.recordsOf organizationId decisionId).length_eq]

theorem Ordered.numbered (h : Ordered db) (organizationId decisionId : UUID) :
    Numbered db organizationId decisionId where
  numbers := h.numbers organizationId decisionId
  first v hv := (h.first organizationId decisionId v hv).2
  supersedes := (h.chain organizationId decisionId).imp fun _ _ hlink => hlink.2
  reviews := map_eq_of_forall₂ (h.recordsOf organizationId decisionId) fun _ _ hr => hr.review
  distinct := h.reviewIds.sublist (filter_sublist.map _)

theorem Ordered.determined (h : Ordered db) (hd : d ∈ db.decisions) : Determined db d where
  unreviewed hnone := by
    rw [Db.effective, h.latestVersion_eq_none.2 hnone]
    rfl
  reviewed r hr := by
    cases hlatest : db.latestVersion d.organizationId d.id with
    | none =>
      rw [h.latestVersion_eq_none.1 hlatest] at hr
      cases hr
    | some v =>
      obtain ⟨r', hr', hrecords, -⟩ := h.latest hlatest
      obtain rfl : r' = r := some.inj (hr'.symm.trans hr)
      have hmem := mem_of_getLast? hr'
      obtain ⟨-, hkey⟩ := mem_filter.1 hmem
      obtain ⟨horg, hid⟩ := of_decide_eq_true hkey
      obtain ⟨hconcept, hconfidence⟩ := hrecords.outcome d hd horg.symm hid.symm
      have hstatus := hrecords.status
      rw [Db.effective, hlatest, map_some]
      -- Each action leaves a status of its own.
      cases haction : r'.action with
      | confirm =>
        rw [haction] at hstatus hconcept hconfidence
        simp only [resolveEffectiveDecision, SemanticDecisionVersion.toView, hstatus,
          effectiveStatusAndSourceForAction, hconfidence]
        exact ⟨trivial, rfl, trivial⟩
      | correct =>
        rw [haction] at hstatus hconcept hconfidence
        simp only [resolveEffectiveDecision, SemanticDecisionVersion.toView, hstatus,
          effectiveStatusAndSourceForAction, hconfidence, hconcept]
        exact ⟨trivial, trivial, trivial⟩
      | reject | markUnresolved =>
        rw [haction] at hstatus
        simp only [resolveEffectiveDecision, SemanticDecisionVersion.toView, hstatus,
          effectiveStatusAndSourceForAction]
        exact ⟨trivial, rfl, rfl⟩

/-! ## The queue -/

theorem classifyReviewGroup_resolved {machineStatus : MachineStatus}
    {concept : Option String} {confidence : ℚ} {latest : Option StoredVersionView} :
    classifyReviewGroup machineStatus latest = some .resolved ↔
      (resolveEffectiveDecision machineStatus concept confidence latest).Accepted := by
  cases latest with
  | none => cases machineStatus <;> simp [classifyReviewGroup, resolveEffectiveDecision,
      EffectiveDecision.Accepted]
  | some version =>
    obtain ⟨number, status, effective, effectiveConfidence⟩ := version
    cases status <;> simp [classifyReviewGroup, resolveEffectiveDecision,
      EffectiveDecision.Accepted]

theorem mem_firstOfFields {decisions : List SemanticInterpretationDecision}
    (h : d ∈ firstOfFields decisions) : d ∈ decisions := by
  have hfold : ∀ (rest kept : List SemanticInterpretationDecision),
      d ∈ rest.foldl (fun kept d =>
        if ∃ e ∈ kept, e.analysisCaseDatasetId = d.analysisCaseDatasetId ∧
          e.sourceField = d.sourceField then kept else kept ++ [d]) kept → d ∈ kept ∨ d ∈ rest := by
    intro rest
    induction rest with
    | nil => exact fun kept h => .inl h
    | cons e rest ih =>
      intro kept h
      rcases ih _ h with h | h
      · dsimp only at h
        split at h
        · exact .inl h
        · rcases mem_append.1 h with h | h
          · exact .inl h
          · exact .inr (mem_cons.2 (.inl (mem_singleton.1 h)))
      · exact .inr (mem_cons_of_mem e h)
  rcases hfold decisions [] h with h | h
  · cases h
  · exact h

theorem mem_reviewScope (h : d ∈ db.reviewScope organizationId caseId runId) :
    d ∈ db.decisions ∧ d.organizationId = organizationId ∧
      db.caseDatasets organizationId caseId ≠ [] := by
  have hmem : d ∈ db.decisions.filter fun d => d.organizationId = organizationId ∧
      ∃ dataset ∈ db.caseDatasets organizationId caseId,
        dataset.id = d.analysisCaseDatasetId := by
    cases runId with
    | some runId => exact mem_of_mem_filter h
    | none => exact (mem_insertionSort _).1 (mem_firstOfFields h)
  obtain ⟨hd, hkey⟩ := mem_filter.1 hmem
  obtain ⟨horg, dataset, hdataset, -⟩ := of_decide_eq_true hkey
  exact ⟨hd, horg, ne_nil_of_mem hdataset⟩

theorem places_resolved (h : d ∈ db.reviewScope organizationId caseId runId) :
    db.Places organizationId caseId runId d .resolved ↔ (db.effective d).Accepted := by
  obtain ⟨-, rfl, hcase⟩ := mem_reviewScope h
  have hqueue : db.listReviewQueue d.organizationId caseId runId (some "all") =
      .ok (((db.reviewScope d.organizationId caseId runId).filterMap
        (db.queueItem d.organizationId caseId none)).insertionSort
          fun a b => a.decision.confidence ≤ b.decision.confidence) := by
    rw [Db.listReviewQueue, if_neg hcase]
    rfl
  rw [Db.effective, ← classifyReviewGroup_resolved]
  constructor
  · rintro ⟨items, hitems, item, hitem, hdecision, hgroup⟩
    obtain rfl := Except.ok.inj (hqueue.symm.trans hitems)
    rw [mem_insertionSort, mem_filterMap] at hitem
    obtain ⟨e, -, he⟩ := hitem
    simp only [Db.queueItem] at he
    split at he
    · cases he
    · rename_i group hclass
      rw [if_pos (by simp)] at he
      obtain rfl := some.inj he
      dsimp only at hdecision hgroup
      subst hdecision
      rw [← hgroup]
      exact hclass
  · intro hclass
    obtain ⟨item, hitem, hdecision, hgroup⟩ : ∃ item,
        db.queueItem d.organizationId caseId none d = some item ∧ item.decision = d ∧
          item.group = .resolved := by
      simp only [Db.queueItem, hclass]
      rw [if_pos (by simp)]
      exact ⟨_, rfl, rfl, rfl⟩
    refine ⟨_, hqueue, item, ?_, hdecision, hgroup⟩
    rw [mem_insertionSort, mem_filterMap]
    exact ⟨d, h, hitem⟩

/-! ## What transactions know -/

def Knows (env : Env) (db : Db) (call : Call) : Phase → Prop
  | .begun => True
  | .locked action decision =>
    checkRequest env call = .ok action ∧
      db.decision call.organizationId call.decisionId = .ok decision
  | .checked action decision latest =>
    checkRequest env call = .ok action ∧
      db.decision call.organizationId call.decisionId = .ok decision ∧
      latest = db.latestVersion call.organizationId call.decisionId ∧
      (versionNumber latest : ℤ) = call.expectedVersion

theorem statement_committed (h : statement env db call phase = .committed db' reply) :
    ∃ action decision latest, phase = .checked action decision latest ∧
      db.record call action decision latest = .ok (db', reply) := by
  cases phase with
  | begun =>
    simp only [statement] at h
    split at h
    · cases h
    · split at h <;> cases h
  | locked action decision =>
    simp only [statement] at h
    split at h <;> cases h
  | checked action decision latest =>
    simp only [statement] at h
    split at h
    · cases h
    · rename_i hrecord
      simp only [Outcome.committed.injEq] at h
      obtain ⟨rfl, rfl⟩ := h
      exact ⟨action, decision, latest, rfl, hrecord⟩

theorem statement_moved {phase' : Phase} (hknows : Knows env db call phase)
    (h : statement env db call phase = .moved phase') : Knows env db call phase' := by
  cases phase with
  | begun =>
    simp only [statement] at h
    split at h
    · cases h
    · rename_i action haction
      split at h
      · cases h
      · rename_i decision hdecision
        obtain rfl := Outcome.moved.inj h
        exact ⟨haction, hdecision⟩
  | locked action decision =>
    simp only [statement] at h
    split at h
    · cases h
    · rename_i latest hlatest
      obtain rfl := Outcome.moved.inj h
      simp only [Db.expectedVersion, bind_eq_ok, ensure_eq_ok, pure_eq_ok] at hlatest
      obtain ⟨-, hnumber, rfl⟩ := hlatest
      exact ⟨hknows.1, hknows.2, rfl, hnumber⟩
  | checked action decision latest =>
    simp only [statement] at h
    split at h <;> cases h

theorem record_frame {action : SemanticReviewAction} {decision : SemanticInterpretationDecision}
    {latest : Option SemanticDecisionVersion}
    (h : db.record call action decision latest = .ok (db', reply)) (organizationId decisionId : UUID)
    (hother : call.decisionId ≠ decisionId) :
    db'.latestVersion organizationId decisionId = db.latestVersion organizationId decisionId := by
  obtain ⟨-, -, rfl, -⟩ := record_eq_ok.1 h
  rw [Db.latestVersion, versionsOf_append rfl,
    if_neg (fun hkey => hother hkey.2), append_nil]
  rfl

/-- However calls overlap, the tables stay in order. -/
theorem keeps (env : Env) : (protocol env).Keeps (fun _ _ _ => True) Ordered (Knows env) where
  begun _ _ := trivial
  unlocked _ := rfl
  moved _ hknows h := statement_moved hknows h
  committed hordered hknows _ h := by
    obtain ⟨action, decision, latest, rfl, hrecord⟩ := statement_committed h
    obtain ⟨haction, hdecision, hlatest, -⟩ := hknows
    exact hordered.record haction hdecision hlatest hrecord
  frame _ _ h call' phase' hknows hlock := by
    obtain ⟨action, decision, latest, rfl, hrecord⟩ := statement_committed h
    have hframe := record_frame hrecord
    obtain ⟨-, -, rfl, -⟩ := record_eq_ok.1 hrecord
    cases phase' with
    | begun => trivial
    | locked action' decision' => exact hknows
    | checked action' decision' latest' =>
      obtain ⟨haction, hdecision, hlatest, hnumber⟩ := hknows
      refine ⟨haction, hdecision, ?_, hnumber⟩
      rw [hframe, hlatest]
      intro hsame
      exact hlock _ rfl (congrArg some hsame.symm)

/-- Confirmed versions confirm a proposal. -/
def Proposed (db : Db) : Prop :=
  ∀ v ∈ db.versions, v.effectiveStatus = .humanConfirmed → ∀ d ∈ db.decisions,
    d.organizationId = v.organizationId → d.id = v.decisionId → d.selectedConcept ≠ none

theorem keeps_proposed (env : Env) :
    (protocol env).Keeps Founded (fun db => Ordered db ∧ Proposed db) (Knows env) where
  begun := (keeps env).begun
  unlocked := (keeps env).unlocked
  moved h hknows hmoved := (keeps env).moved h.1 hknows hmoved
  committed h hknows hfounded hcommitted := by
    refine ⟨(keeps env).committed h.1 hknows trivial hcommitted, ?_⟩
    obtain ⟨action, decision, latest, rfl, hrecord⟩ := statement_committed hcommitted
    obtain ⟨haction, hdecision, hlatest, -⟩ := hknows
    obtain ⟨hreview, hversion, rfl, -⟩ := record_eq_ok.1 hrecord
    intro v hv hstatus d hd horg hid
    rcases mem_append.1 hv with hv | hv
    · exact h.2 v hv hstatus d hd horg hid
    · obtain rfl := mem_singleton.1 hv
      obtain ⟨hmem, -, hdid⟩ := decision_ok hdecision
      obtain rfl : d = decision := inj_on_of_nodup_map h.1.keys hd hmem (hid.trans hdid.symm)
      cases action with
      | confirm => exact hfounded ⟨hreview, fun v hv hid => hversion v hv (.inl hid)⟩
      | correct | reject | markUnresolved => cases hstatus
  frame h := (keeps env).frame h.1

/-! ## One commit for each version -/

/-- The current version number of the decision of a call. -/
def Db.current (db : Db) (call : Call) : ℕ :=
  versionNumber (db.latestVersion call.organizationId call.decisionId)

/-- A commit is from the current version, and raises its number by one; other decisions keep
theirs. -/
theorem current_commit (h : Ordered db) (hknows : Knows env db call phase)
    (hcommitted : statement env db call phase = .committed db' reply) :
    (db.current call : ℤ) = call.expectedVersion ∧ ∀ other : Call,
      db'.current other = db.current other +
        if call.organizationId = other.organizationId ∧ call.decisionId = other.decisionId then 1
        else 0 := by
  have hordered := (keeps env).committed h hknows trivial hcommitted
  obtain ⟨action, decision, latest, rfl, hrecord⟩ := statement_committed hcommitted
  obtain ⟨-, -, hlatest, hnumber⟩ := hknows
  obtain ⟨-, -, rfl, -⟩ := record_eq_ok.1 hrecord
  rw [hlatest] at hnumber
  refine ⟨hnumber, fun other => ?_⟩
  rw [Db.current, Db.current, hordered.versionNumber_latest, h.versionNumber_latest,
    versionsOf_append rfl, length_append]
  by_cases hkey : call.organizationId = other.organizationId ∧ call.decisionId = other.decisionId
  · rw [if_pos hkey, if_pos hkey]
    rfl
  · rw [if_neg hkey, if_neg hkey]
    rfl

variable {s s' : State Db Call Phase} {event : Event Call}

section

variable (h : Sound (protocol env) Ordered (Knows env) s)
include h

theorem current_step {committed : Option (Call × Reply)}
    (hok : (protocol env).service s event = .ok (s', committed)) :
    (∀ other, s.db.current other ≤ s'.db.current other) ∧
      ∀ c ∈ committed, (s.db.current c.1 : ℤ) = c.1.expectedVersion ∧
        ∀ other : Call, c.1.organizationId = other.organizationId →
          c.1.decisionId = other.decisionId → s'.db.current other = s.db.current other + 1 := by
  cases happens hok with
  | committed t db' reply ht hcommitted =>
    obtain ⟨hcurrent, hnext⟩ := current_commit h.db (h.knows t ht) hcommitted
    refine ⟨fun other => ?_, fun c hc => ?_⟩
    · show s.db.current other ≤ db'.current other
      rw [hnext]
      exact Nat.le_add_right _ _
    · obtain rfl := some.inj hc
      refine ⟨hcurrent, fun other horg hid => ?_⟩
      show db'.current other = _
      rw [hnext, if_pos ⟨horg, hid⟩]
  | begun id call hnew | moved t phase ht hmoved hfree | failed t e ht hfailed | rolledBack id =>
    exact ⟨fun _ => le_rfl, fun _ hc => by cases hc⟩

theorem Sound.next (event : Event Call) :
    Sound (protocol env) Ordered (Knows env) ((protocol env).service.next s event) :=
  h.run_always (keeps env) [event]

theorem current_le_expected (events : List (Event Call)) :
    ∀ c ∈ (protocol env).commits s events, (s.db.current c : ℤ) ≤ c.expectedVersion := by
  induction events generalizing s with
  | nil => exact fun c hc => by cases hc
  | cons event events ih =>
    intro c hc
    have hlater := ih (Sound.next h event) c
    rw [Protocol.commits] at hc
    cases hok : (protocol env).service s event with
    | error e =>
      rw [hok, next_of_error hok] at hc
      rw [next_of_error hok] at hlater
      exact hlater hc
    | ok result =>
      obtain ⟨s', committed⟩ := result
      obtain ⟨hgrows, hcommitted⟩ := current_step h hok
      rw [hok, next_of_ok hok] at hc
      rw [next_of_ok hok] at hlater
      have hle : (s.db.current c : ℤ) ≤ s'.db.current c := by exact_mod_cast hgrows c
      cases committed with
      | none => exact hle.trans (hlater hc)
      | some first =>
        rcases mem_append.1 hc with hc | hc
        · obtain rfl := mem_singleton.1 hc
          exact (hcommitted first rfl).1.le
        · exact hle.trans (hlater hc)

theorem commits_single (events : List (Event Call)) :
    ((protocol env).commits s events).Pairwise fun a b =>
      a.organizationId = b.organizationId → a.decisionId = b.decisionId →
        a.expectedVersion ≠ b.expectedVersion := by
  induction events generalizing s with
  | nil => exact .nil
  | cons event events ih =>
    have hrest := ih (Sound.next h event)
    have hlater := current_le_expected (Sound.next h event) events
    rw [Protocol.commits]
    cases hok : (protocol env).service s event with
    | error e => simpa using hrest
    | ok result =>
      obtain ⟨s', committed⟩ := result
      obtain ⟨-, hcommitted⟩ := current_step h hok
      cases committed with
      | none => simpa using hrest
      | some first =>
        rw [next_of_ok hok] at hlater hrest ⊢
        refine pairwise_cons.2 ⟨fun c hc horg hid heq => ?_, hrest⟩
        obtain ⟨hexpected, hraised⟩ := hcommitted first rfl
        have hsame : s.db.current c = s.db.current first.1 := by
          rw [Db.current, Db.current, horg, hid]
        have hle := hlater c hc
        rw [hraised c horg hid, hsame] at hle
        push_cast at hle
        omega

end

/-! ## Runs -/

theorem unexpected_unchanged (h : Sound (protocol env) Ordered (Knows env) s)
    {t : Transaction Call Phase} (ht : t ∈ s.inflight)
    (hne : (s.db.current t.call : ℤ) ≠ t.call.expectedVersion) :
    ((protocol env).service.next s (.advance t.id)).db = s.db := by
  have hstep := h.service_advance ht
  cases houtcome : (protocol env).statement s.db t.call t.phase with
  | committed db' reply => exact absurd (current_commit h.db (h.knows t ht) houtcome).1 hne
  | moved phase =>
    rw [houtcome] at hstep
    dsimp only at hstep
    split at hstep
    · rw [next_of_ok hstep]
      rfl
    · rw [next_of_error hstep]
  | failed e =>
    rw [houtcome] at hstep
    rw [next_of_ok hstep]
    rfl

theorem accepted_concept (h : Ordered db) (hproposed : Proposed db) (hd : d ∈ db.decisions)
    (haccepted : (db.effective d).Accepted) : (db.effective d).effectiveConcept ≠ none := by
  unfold Db.effective at haccepted ⊢
  cases hlatest : db.latestVersion d.organizationId d.id with
  | none =>
    rw [hlatest] at haccepted
    cases hstatus : d.status <;> rw [hstatus] at haccepted <;>
      simp [resolveEffectiveDecision, EffectiveDecision.Accepted] at haccepted
  | some v =>
    obtain ⟨r, hr, hrecords, hv⟩ := h.latest hlatest
    obtain ⟨-, hkey⟩ := mem_filter.1 (mem_of_getLast? hr)
    obtain ⟨horg, hid⟩ := of_decide_eq_true hkey
    rw [hlatest] at haccepted
    cases hstatus : v.effectiveStatus with
    | humanConfirmed =>
      have hconcept : d.selectedConcept ≠ none := hproposed v hv hstatus d hd
        (horg.symm.trans hrecords.organization.symm) (hid.symm.trans hrecords.decision.symm)
      simpa [resolveEffectiveDecision, SemanticDecisionVersion.toView, hstatus] using hconcept
    | humanCorrected =>
      -- Only a correction leaves this status, and it brings its concept.
      have haction : r.action = .correct := by
        have hmade := hrecords.status
        rw [hstatus] at hmade
        cases haction : r.action <;> rw [haction] at hmade <;> cases hmade
      obtain ⟨hconcept, -⟩ := hrecords.outcome d hd horg.symm hid.symm
      rw [haction, effectiveConcept] at hconcept
      have hcorrected := hrecords.corrected haction
      simpa [resolveEffectiveDecision, SemanticDecisionVersion.toView, hstatus, hconcept]
        using hcorrected
    | humanRejected | humanUnresolved =>
      simp [resolveEffectiveDecision, SemanticDecisionVersion.toView, hstatus,
        EffectiveDecision.Accepted] at haccepted

theorem authoritative
    (h : Sound (protocol env) (fun db => Ordered db ∧ Proposed db) (Knows env) s) :
    Authoritative env s where
  numbered := h.db.1.numbered
  refused _ ht hne := unexpected_unchanged (h.imp And.left) ht hne
  determined _ hd := h.db.1.determined hd
  interpreted _ hd := accepted_concept h.db.1 h.db.2 hd
  placed _ _ _ d hd := by
    rw [places_resolved hd]
    constructor
    · intro haccepted
      exact ⟨haccepted, accepted_concept h.db.1 h.db.2 (mem_reviewScope hd).1 haccepted⟩
    · exact And.left

theorem record_fresh (h : Ordered db) (action : SemanticReviewAction)
    (decision : SemanticInterpretationDecision) {latest : Option SemanticDecisionVersion}
    (hlatest : latest = db.latestVersion call.organizationId call.decisionId)
    (hfresh : call.Fresh db) :
    ∃ db' reply, db.record call action decision latest = .ok (db', reply) ∧
      db'.decisions = db.decisions ∧
      (db'.reviewsOf call.organizationId call.decisionId).getLast? = some (call.review action) := by
  have hclash : ∀ v ∈ db.versions, ¬ v.Clash (call.version action decision latest) := by
    rintro v hv (hid | ⟨horg, hdid, hnumber⟩)
    · exact hfresh.2 v hv hid
    · have hmem : v ∈ db.versionsOf call.organizationId call.decisionId :=
        mem_filter.2 ⟨hv, decide_eq_true ⟨horg, hdid⟩⟩
      have hrange : v.versionNumber ∈
          List.range' 1 (db.versionsOf call.organizationId call.decisionId).length := by
        rw [← h.numbers]
        exact mem_map_of_mem hmem
      have hcount := h.versionNumber_latest call.organizationId call.decisionId
      rw [← hlatest] at hcount
      have hnext : v.versionNumber = versionNumber latest + 1 := hnumber
      rw [mem_range'_1] at hrange
      omega
  refine ⟨_, _, record_eq_ok.2 ⟨hfresh.1, hclash, rfl, rfl⟩, rfl, ?_⟩
  rw [Db.reviewsOf, filter_append,
    filter_cons_of_pos (by exact decide_eq_true ⟨rfl, rfl⟩), filter_nil,
    List.getLast?_append, List.getLast?_singleton, some_or]

/-- However calls overlap on decisions that have no reviews at the start, review is authoritative
throughout exactly when every confirmation that commits confirms a proposal. -/
theorem reviewed_iff (h : Unreviewed db) (events : List (Event Call)) : Reviewed env db events ↔
      (protocol env).service.AllSteps (Meets Founded) ⟨db, []⟩ events := by
  have hstart : Sound (protocol env) Ordered (Knows env) ⟨db, []⟩ := sound_start h.ordered
  have hrun : ∀ before, Sound (protocol env) Ordered (Knows env) (overlapped env db before) :=
    hstart.run_always (keeps env)
  constructor
  · rintro ⟨hauthoritative, -⟩
    rw [allSteps_iff]
    rintro before event later rfl t ht rfl
    have hsound := hrun before
    have hknows := hsound.knows t ht
    cases hphase : t.phase with
    | begun | locked action decision => trivial
    | checked action decision latest =>
      cases action with
      | correct | reject | markUnresolved => trivial
      | confirm =>
        intro hfresh hnone
        rw [hphase] at hknows
        obtain ⟨-, hdecision, hlatest, -⟩ := hknows
        obtain ⟨hmem, horg, hid⟩ := decision_ok hdecision
        obtain ⟨db', reply, hrecord, hdecisions, hreview⟩ :=
          record_fresh hsound.db .confirm decision hlatest hfresh
        -- The confirmation commits, and the next state has it in effect without a concept.
        have hstatement : (protocol env).statement (overlapped env db before).db t.call t.phase =
            .committed db' reply := by
          rw [hphase]
          simp only [protocol, statement, hrecord]
        have hstep := hsound.service_advance ht
        rw [hstatement] at hstep
        have hnext : (overlapped env db (before ++ [.advance t.id])).db = db' := by
          rw [overlapped, run_append, run_cons, run_nil, ← overlapped, next_of_ok hstep]
        have hafter := hauthoritative (before ++ [.advance t.id]) later (by simp)
        rw [← horg, ← hid] at hreview
        rw [← hdecisions, ← hnext] at hmem
        rw [← hnext] at hreview
        obtain ⟨hstatus, hconcept, -⟩ := (hafter.determined decision hmem).reviewed _ hreview
        exact hafter.interpreted decision hmem (.inl hstatus) (hconcept.trans hnone)
  · intro hfounded
    refine ⟨?_, commits_single hstart events⟩
    rintro before later rfl
    obtain ⟨hbefore, -⟩ := (allSteps_append _ _ before later).1 hfounded
    have hproposed : Proposed db := by
      intro v hv
      rw [h.versions] at hv
      cases hv
    exact authoritative ((sound_start ⟨h.ordered, hproposed⟩).run (keeps_proposed env) hbefore)

end

/-- However reviews overlap, the calls that commit succeed in `submit_review` one after the other,
and leave the same tables. -/
theorem serializable {env : Env} {db : Db} (h : Unreviewed db) (events : List (Event Call)) :
    ((protocol env).commits ⟨db, []⟩ events).foldlM
        (fun db call => (db.submitReview env call).map Prod.fst) db =
      .ok (overlapped env db events).db := by
  refine (sound_start h.ordered).serial (keeps env) (fun hknows hcommitted => ?_) events
  obtain ⟨action, decision, latest, rfl, hrecord⟩ := statement_committed hcommitted
  obtain ⟨haction, hdecision, rfl, hnumber⟩ := hknows
  rw [Db.submitReview, haction, ok_bind, hdecision, ok_bind, Db.expectedVersion,
    ensure_of hnumber]
  exact hrecord

/-! ## A confirmation of nothing -/

namespace Proposal

def env : Env where
  concept _ := true

/-- A field with a proposal or without one. -/
def db (selectedConcept : Option String) : Db where
  datasets := [⟨2, 1, 4, "Work orders"⟩]
  decisions := [⟨5, 1, 2, 3, "col_7", selectedConcept, 0, .unresolved, 0⟩]
  reviews := []
  versions := []

def confirm : Call where
  organizationId := 1
  decisionId := 5
  action := "confirm"
  correctedConcept := none
  notes := none
  expectedVersion := 0
  reviewerUserId := 9
  reviewerRole := "organization_admin"
  reviewId := 6
  versionId := 7

def events : List (Event Call) := [.begin 0 confirm, .advance 0, .advance 0, .advance 0]

theorem unreviewed (selectedConcept : Option String) : Unreviewed (db selectedConcept) where
  keys := nodup_singleton _
  reviews := rfl
  versions := rfl

theorem reviewed_iff_proposed : Reviewed env (db (some "asset_id")) events ↔
      (protocol env).service.AllSteps (Meets Founded) ⟨db (some "asset_id"), []⟩ events :=
  reviewed_iff (unreviewed _) events

theorem serializable_confirm : ((protocol env).commits ⟨db none, []⟩ events).foldlM
    (fun db call => (db.submitReview env call).map Prod.fst) (db none) =
      .ok (overlapped env (db none) events).db :=
  serializable (unreviewed none) events

/-- A field for which the machine has no proposal is confirmed, and leaves the queue with no concept
in effect. -/
theorem not_reviewed : ¬ Reviewed env (db none) events := by
  intro h
  have hafter := h.authoritative events [] rfl
  have hdecision : ∃ d ∈ (overlapped env (db none) events).db.decisions,
      ((overlapped env (db none) events).db.effective d).effectiveStatus = .human .humanConfirmed ∧
        ((overlapped env (db none) events).db.effective d).effectiveConcept = none := by
    decide +kernel
  obtain ⟨d, hd, hstatus, hconcept⟩ := hdecision
  exact hafter.interpreted d hd (.inl hstatus) hconcept

end Proposal

end Intel4Ops.Reviews
