import Intel4Ops.ValidationProgram.Misses

/-!
# Exact accounting of a batch

A decision package clusters the finished jobs of the organization, which are those of the batch
only where no other job is finished. A batch that is prepared again keeps its scored items only
where no further item is imported or the registration reports all of them. Together with the jobs
of the misses this says when a batch is accounted for.
-/

namespace Intel4Ops.ValidationProgram

open Lib List

variable {env : Env} {store store' : Store} {item : SimulationBatchItem} {batchId : UUID}
  {batch : SimulationBatch} {jobs : List AgentJob} {prep : Preparation}
  {items : List SimulationBatchItem}

/-! ## The decision package -/

def AgentJob.BelongsTo (job : AgentJob) (env : Env) (item : SimulationBatchItem) : Prop :=
  job.organizationId = some item.organizationId ∧
    ∃ key ∈ job.clientIdempotencyKey, (env.itemKey item.id).toList <+: key.toList

instance (job : AgentJob) (item : SimulationBatchItem) : Decidable (job.BelongsTo env item) :=
  inferInstanceAs (Decidable (_ ∧ ∃ _ ∈ _, _))

/-- The finished classification jobs of the items of a batch. -/
def Store.finishedJobs (store : Store) (env : Env) (batch : SimulationBatch) : List AgentJob :=
  store.jobs.filter fun job => job.Finished batch.organizationId ∧ job.result ≠ none ∧
    ∃ item ∈ store.itemsOf batch.id, job.BelongsTo env item

def DecisionPackage.jobIds (package : DecisionPackage) : List UUID :=
  package.gapClusters.flatMap (·.jobIds)

/-- What is claimed of a decision package. -/
def Store.Packages (store : Store) (env : Env) (batch : SimulationBatch) : Prop :=
  ∃ store' package, store.buildDecisionPackage batch.id = .ok (store', package) ∧
    package.jobIds.Perm ((store.finishedJobs env batch).map (·.id))

/-- Every finished classification job of the organization is one of the batch. -/
def Store.OwnJobs (store : Store) (env : Env) (batch : SimulationBatch) : Prop :=
  ∀ job ∈ store.jobs, job.Finished batch.organizationId → job.result ≠ none →
    ∃ item ∈ store.itemsOf batch.id, job.BelongsTo env item

instance (batch : SimulationBatch) : Decidable (store.OwnJobs env batch) :=
  inferInstanceAs (Decidable (∀ _ ∈ _, _))

theorem gapClusters_perm (jobs : List AgentJob) : ((gapClusters jobs).flatMap (·.jobIds)).Perm
      ((jobs.filter (·.result ≠ none)).map (·.id)) := by
  have hgroups := (flatMap_group_perm AgentJob.gapClass (jobs.filter (·.result ≠ none))).map
    AgentJob.id
  rw [map_flatMap] at hgroups
  rw [gapClusters, flatMap_map]
  exact hgroups

theorem getBatch_eq (h : Sound store) (hbatch : batch ∈ store.batches) :
    store.getBatch batch.id = .ok batch := by
  rw [Store.getBatch, h.batchIds.find?_eq_some hbatch (decide_eq_true rfl)
    fun other _ hother => of_decide_eq_true hother]
  rfl

theorem packages_iff (h : Sound store) (hbatch : batch ∈ store.batches) :
    store.Packages env batch ↔ store.OwnJobs env batch := by
  have hread : (store.jobs.filter fun job => job.Finished batch.organizationId).filter
      (fun job => job.result ≠ none) =
        store.jobs.filter fun job => job.Finished batch.organizationId ∧ job.result ≠ none := by
    rw [filter_filter]
    refine filter_congr fun job _ => ?_
    rw [← Bool.decide_and, decide_eq_decide]
    exact and_comm
  have hbuild : ∃ store' package, store.buildDecisionPackage batch.id = .ok (store', package) ∧
      package.jobIds.Perm ((store.jobs.filter fun job =>
        job.Finished batch.organizationId ∧ job.result ≠ none).map (·.id)) := by
    rw [Store.buildDecisionPackage, getBatch_eq h hbatch, ← hread]
    exact ⟨_, _, rfl, gapClusters_perm _⟩
  obtain ⟨store', package, hok, hall⟩ := hbuild
  constructor
  · rintro ⟨store'', package', hok', hperm⟩ job hjob hfinished hresult
    obtain ⟨rfl, rfl⟩ := Prod.mk.inj (Except.ok.inj (hok.symm.trans hok'))
    have hnarrow : store.finishedJobs env batch = (store.jobs.filter fun job =>
        job.Finished batch.organizationId ∧ job.result ≠ none).filter fun job =>
          ∃ item ∈ store.itemsOf batch.id, job.BelongsTo env item := by
      rw [Store.finishedJobs, filter_filter]
      refine filter_congr fun job _ => ?_
      rw [← Bool.decide_and, decide_eq_decide]
      exact ⟨fun h => ⟨h.2.2, h.1, h.2.1⟩, fun h => ⟨h.2.1, h.2.2, h.1⟩⟩
    have hlength := (hall.symm.trans hperm).length_eq
    rw [length_map, length_map, hnarrow] at hlength
    have hevery := length_filter_eq_length_iff.1 hlength.symm
    have hmem : job ∈ store.jobs.filter fun job =>
        job.Finished batch.organizationId ∧ job.result ≠ none :=
      mem_filter.2 ⟨hjob, decide_eq_true ⟨hfinished, hresult⟩⟩
    exact of_decide_eq_true (hevery job hmem)
  · intro hown
    refine ⟨store', package, hok, ?_⟩
    have hsame : store.finishedJobs env batch = store.jobs.filter fun job =>
        job.Finished batch.organizationId ∧ job.result ≠ none := by
      refine filter_congr fun job hjob => ?_
      rw [decide_eq_decide]
      constructor
      · rintro ⟨hfinished, hresult, -⟩
        exact ⟨hfinished, hresult⟩
      · rintro ⟨hfinished, hresult⟩
        exact ⟨hfinished, hresult, hown job hjob hfinished hresult⟩
    rw [hsame]
    exact hall

/-! ## Preparing again -/

/-- What is claimed of a call that prepares a batch: a scored item is not changed. -/
def Store.Leaves (store : Store) (batchId : UUID) (prep : Preparation) : Prop :=
  ∀ store' raised, store.prepareBatch batchId prep = .ok (store', raised) →
    ∀ item ∈ store.items, item.state.ReachedScored → item ∈ store'.items

/-- Where an item is imported and the corpus is registered, every item of the batch that reached
its score is reported as registered. -/
def Store.Reregisters (store : Store) (batch : SimulationBatch) (prep : Preparation) : Prop :=
  ∀ s, store.importItems batch.id prep = .ok s → s.cases ≠ [] →
    ∀ validation outcomes, store.validation.registerCorpus batch.organizationId prep s.cases
      prep.corpus = .ok (validation, outcomes) →
        ∀ item ∈ store.itemsOf batch.id, item.state.ReachedScored → item.analysisCaseId ≠ none →
          item.simulationId ∈ registeredOk outcomes

/-- The row is in the session as it was. -/
structure Session.Holds (s : Session) (item : SimulationBatchItem) : Prop where
  committed : item ∈ s.committed
  current : item ∈ s.current

theorem mem_setItem_of_ne {id : UUID} {f : SimulationBatchItem → SimulationBatchItem}
    (hitem : item ∈ items) (hid : item.id ≠ id) : item ∈ setItem items id f :=
  Table.mem_update_of_mem hitem (decide_eq_false hid)

/-- The row is as it was behind an import, also where it fails. -/
def Survives (item : SimulationBatchItem) : Except (List SimulationBatchItem) Session → Prop
  | .ok s => s.Holds item
  | .error committed => item ∈ committed

theorem importItem_survives (prep : Preparation) {s : Session} {other : SimulationBatchItem}
    (h : s.Holds item) (hother : other.state = .selected → item.id ≠ other.id) :
    Survives item (s.importItem prep other) := by
  unfold Session.importItem
  by_cases hstate : other.state ≠ .selected
  · rw [if_pos hstate]
    exact h
  · have hid := hother (not_not.1 hstate)
    rw [if_neg hstate]
    have himporting : item ∈ setItem s.current other.id (·.moveTo .importing) :=
      mem_setItem_of_ne h.current hid
    split
    · exact ⟨h.committed, mem_setItem_of_ne h.current hid⟩
    · dsimp only
      split
      · exact h.committed
      · exact himporting
      · exact mem_setItem_of_ne himporting hid
      · refine ⟨?_, mem_setItem_of_ne himporting hid⟩
        dsimp only
        split
        · exact mem_setItem_of_ne himporting hid
        · exact himporting

theorem importItems_survive (batchId : UUID) (prep : Preparation) (h : Sound store)
    (hitem : item ∈ store.items) (hstate : item.state ≠ .selected) :
    Survives item (store.importItems batchId prep) := by
  have hothers : ∀ other ∈ store.itemsOf batchId, other.state = .selected → item.id ≠ other.id := by
    intro other hother hselected hid
    obtain rfl := h.itemIds.eq_of_key_eq hitem (mem_itemsOf.1 hother).1 hid
    exact hstate hselected
  unfold Store.importItems
  have hstart : (Session.mk store.items store.items []).Holds item := ⟨hitem, hitem⟩
  generalize Session.mk store.items store.items [] = s at hstart
  generalize store.itemsOf batchId = others at hothers
  induction others generalizing s with
  | nil => exact hstart
  | cons other others ih =>
    obtain ⟨hfirst, hrest⟩ := forall_mem_cons.1 hothers
    have hnext := importItem_survives prep hstart hfirst
    rw [foldlM_cons]
    cases himport : s.importItem prep other with
    | ok s' =>
      rw [himport] at hnext
      exact ih s' hnext hrest
    | error committed =>
      rw [himport] at hnext
      exact hnext

theorem reachedScored_ne {state : SimulationBatchItemState} (h : state.ReachedScored) :
    state ≠ .selected ∧ state ≠ .blocked := by
  refine ⟨?_, ?_⟩ <;> rintro rfl <;> revert h <;> decide

theorem mem_blockUnregistered (hitem : item ∈ items) (hstate : item.state ≠ .blocked)
    {ok : List String} :
    item ∈ blockUnregistered batchId ok items ↔
      (item.batchId = batchId → item.analysisCaseId ≠ none → item.simulationId ∈ ok) := by
  constructor
  · intro hmem hbatch hcase
    by_contra hmissing
    obtain ⟨old, hold, heq⟩ := Table.mem_update.1 hmem
    split_ifs at heq with hselected
    · rw [heq] at hstate
      exact hstate rfl
    · rw [← heq] at hselected
      exact hselected (decide_eq_true ⟨hbatch, hcase, hmissing⟩)
  · intro hreported
    refine Table.mem_update_of_mem hitem (decide_eq_false ?_)
    rintro ⟨hbatch, hcase, hmissing⟩
    exact hmissing (hreported hbatch hcase)

theorem importItems_current (h : Sound store) {s : Session}
    (hs : store.importItems batchId prep = .ok s) (hitem : item ∈ store.items)
    (hstate : item.state.ReachedScored) : item ∈ s.current := by
  have hsurvives := importItems_survive batchId prep h hitem (reachedScored_ne hstate).1
  rw [hs] at hsurvives
  exact hsurvives.current

theorem leaves_iff (h : Sound store) (hbatch : batch ∈ store.batches) :
    store.Leaves batch.id prep ↔ store.Reregisters batch prep := by
  have hget := getBatch_eq h hbatch
  constructor
  · intro hleaves s hs hcases validation outcomes hregister item hitem hstate hcase
    obtain ⟨hmem, hitemBatch⟩ := mem_itemsOf.1 hitem
    have hok : store.prepareBatch batch.id prep = .ok (⟨store.batches,
        blockUnregistered batch.id (registeredOk outcomes) s.current, store.jobs, validation⟩,
          none) := by
      rw [Store.prepareBatch, hget, ok_bind, hs]
      show Except.ok (store.registerImported batch prep s) = _
      rw [Store.registerImported, if_neg hcases, hregister]
    have hleft := hleaves _ _ hok item hmem hstate
    exact (mem_blockUnregistered (importItems_current h hs hmem hstate)
      (reachedScored_ne hstate).2).1 hleft hitemBatch hcase
  · intro hreregisters store' raised hok item hitem hstate
    rw [Store.prepareBatch, hget, ok_bind] at hok
    split at hok
    case h_1 committed himport =>
      obtain rfl := congrArg Prod.fst (pure_eq_ok.1 hok)
      have hsurvives := importItems_survive batch.id prep h hitem (reachedScored_ne hstate).1
      rw [himport] at hsurvives
      exact hsurvives
    case h_2 s hs =>
      have hcurrent := importItems_current h hs hitem hstate
      have hstore : (store.registerImported batch prep s).1 = store' :=
        congrArg Prod.fst (pure_eq_ok.1 hok)
      rw [← hstore, Store.registerImported]
      split
      · exact hcurrent
      case isFalse hcases =>
        dsimp only
        split
        · exact hcurrent
        case h_2 validation outcomes hregister =>
          refine (mem_blockUnregistered hcurrent (reachedScored_ne hstate).2).2 ?_
          intro hitemBatch hcase
          exact hreregisters s hs hcases validation outcomes hregister item
            (mem_itemsOf.2 ⟨hitem, hitemBatch⟩) hstate hcase

/-! ## The batch -/

/-- What is claimed of a batch and the calls for it. -/
structure Store.Exact (store : Store) (env : Env) (batch : SimulationBatch)
    (newId : UUID → String → UUID) (prep : Preparation) : Prop where
  classified : store.Classifies env batch.id newId
  packaged : store.Packages env batch
  prepared : store.Leaves batch.id prep

/-- When the claim holds. -/
structure Store.Careful (store : Store) (env : Env) (batch : SimulationBatch)
    (newId : UUID → String → UUID) (prep : Preparation) : Prop where
  accountable : store.Accountable env batch.id newId
  ownJobs : store.OwnJobs env batch
  reregisters : store.Reregisters batch prep

/-- In every state, a batch is accounted for exactly when the jobs that are stored account for
their families and the other families can be counted, no other finished job is in the
organization, and a further import reports the scored items as registered. -/
theorem exact_iff (env : Env) (calls : List Call) (batch : SimulationBatch)
    (newId : UUID → String → UUID) (prep : Preparation)
    (hbatch : batch ∈ ((service env).run .empty calls).batches) :
    ((service env).run .empty calls).Exact env batch newId prep ↔
      ((service env).run .empty calls).Careful env batch newId prep := by
  have h := sound_run env calls
  constructor
  · intro hexact
    exact ⟨(classifies_iff h).1 hexact.classified, (packages_iff h hbatch).1 hexact.packaged,
      (leaves_iff h hbatch).1 hexact.prepared⟩
  · intro hcareful
    exact ⟨(classifies_iff h).2 hcareful.accountable, (packages_iff h hbatch).2 hcareful.ownJobs,
      (leaves_iff h hbatch).2 hcareful.reregisters⟩

/-! ## A scenario that is missed as a finding and as a leakage -/

namespace BothDimensions

/-- Identifiers are written in decimal. -/
def decimal : Env where
  text := Nat.repr
  text_injective id other h := by
    have hdigits := congrArg (fun text => Nat.ofDigitChars 10 text.toList 0) h
    rwa [Nat.toList_repr, Nat.toList_repr, Nat.ofDigitChars_ten_toDigits,
      Nat.ofDigitChars_ten_toDigits] at hdigits
  text_colon id h := by
    rw [Nat.toList_repr] at h
    exact absurd (Nat.isDigit_of_mem_toDigits (by decide) (by decide) h) (by decide)

def corpus : List Package := [⟨"SIM-1", true, "sum", true⟩]

/-- The truth of the simulation expects one leakage, as a finding that is linked to it too. -/
def validated (matches' : List ValidationFindingMatch) : Validation where
  simulations := [⟨30, 1, "SIM-1", 20⟩]
  groundTruths := [⟨30, 1, "sum"⟩]
  runs := [⟨50, 1, 30, 0⟩]
  scores := [⟨50, 0, 0, matches'.length⟩]
  findingMatches := matches'
  expectedFindings := [⟨70, some 5000, none, some "MAINTENANCE_ECONOMICS", some "LK-1"⟩]
  leakageTruths := [⟨80, "LK-1", some 5000, none, some "MAINTENANCE_ECONOMICS"⟩]

def finding : ValidationFindingMatch := ⟨60, 50, .falseNegative, some 70, none⟩

def leakage : ValidationFindingMatch := ⟨61, 50, .falseNegative, none, some 80⟩

/-- A batch of one simulation is prepared and scored. -/
def calls (matches' : List ValidationFindingMatch) : List Call :=
  [.selectBatch 1 corpus "batch" 5 10 [11],
    .prepareBatch 10 ⟨corpus, fun _ => .imported 20 true, fun _ => 30⟩,
    .runBatch 10 ⟨fun _ => ⟨some 40, .scored, "validated"⟩, validated matches'⟩ 0]

def final (matches' : List ValidationFindingMatch) : Store :=
  (service decimal).run .empty (calls matches')

def onlyBatch : SimulationBatch := ⟨10, 1, "batch", .active, none, none⟩

/-- The item behind the wave. -/
def scored (missed : ℕ) : SimulationBatchItem where
  id := 11
  batchId := 10
  organizationId := 1
  simulationId := "SIM-1"
  state := .scored
  analysisCaseId := some 20
  runId := some 40
  validationSimulationId := some 30
  frozenAt := some 0
  truthAccessedAt := some 0
  scoredAt := some 0
  truePositiveCount := some 0
  falsePositiveCount := some 0
  falseNegativeCount := some missed
  blockReason := none

def newId (itemId : UUID) (_family : String) : UUID := itemId + 100

def again : Preparation := ⟨corpus, fun _ => .imported 20 true, fun _ => 30⟩

theorem unreported : storedJob (final [finding, leakage]).jobs ((scored 2).job decimal newId
    "MAINTENANCE_ECONOMICS" (((final [finding, leakage]).validation.missesIn [finding, leakage]
      "MAINTENANCE_ECONOMICS").map (final [finding, leakage]).validation.resolve)) = none := by
  decide +kernel

/-- The amount of the leakage is counted twice. -/
theorem not_exact : ¬ (final [finding, leakage]).Exact decimal onlyBatch newId again := by
  intro h
  have haccountable :=
    (classifies_iff (sound_run decimal (calls [finding, leakage]))).1 h.classified
  have hfamily := haccountable (scored 2) (by decide +kernel) [finding, leakage] (by decide +kernel)
    "MAINTENANCE_ECONOMICS" (by decide +kernel)
  dsimp only at hfamily
  have hnone := unreported
  rw [final] at hnone
  rw [hnone] at hfamily
  have honce := hfamily.nodup (by decide +kernel)
  revert honce
  decide +kernel

theorem careful_finding : (final [finding]).Careful decimal onlyBatch newId again where
  accountable := by
    intro item hitem misses hmisses family hfamily
    have hitems : (final [finding]).scoredItems onlyBatch.id = [scored 1] := by decide +kernel
    rw [hitems, mem_singleton] at hitem
    subst hitem
    have hfinding : (final [finding]).validation.missesOf (scored 1) = .ok [finding] := by
      decide +kernel
    obtain rfl := Except.ok.inj (hfinding.symm.trans hmisses)
    have hfamilies : (final [finding]).validation.families [finding] =
        ["MAINTENANCE_ECONOMICS"] := by
      decide +kernel
    rw [hfamilies, mem_singleton] at hfamily
    subst hfamily
    have hnone : storedJob (final [finding]).jobs ((scored 1).job decimal newId
        "MAINTENANCE_ECONOMICS" (((final [finding]).validation.missesIn [finding]
          "MAINTENANCE_ECONOMICS").map (final [finding]).validation.resolve)) = none := by
      decide +kernel
    dsimp only
    rw [hnone]
    refine ⟨by decide +kernel, [finding], [], ⟨?_, ?_, ?_⟩, rfl⟩
    · decide +kernel
    · exact nodup_singleton _
    · intro miss hmiss
      exact absurd hmiss not_mem_nil
  ownJobs := by decide +kernel
  reregisters := by
    intro s hs hcases
    have himport : (final [finding]).importItems onlyBatch.id again =
        .ok ⟨(final [finding]).items, (final [finding]).items, []⟩ := by
      decide +kernel
    obtain rfl := Except.ok.inj (himport.symm.trans hs)
    exact absurd rfl hcases

/-- Where the truth is missed as a finding only, the batch is accounted for. -/
theorem exact_finding : (final [finding]).Exact decimal onlyBatch newId again :=
  (exact_iff decimal (calls [finding]) onlyBatch newId again (by decide +kernel)).2 careful_finding

end BothDimensions

end Intel4Ops.ValidationProgram
