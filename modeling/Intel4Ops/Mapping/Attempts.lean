import Intel4Ops.Lib.Chain
import Intel4Ops.Mapping.Leases

/-!
# Attempts of a run

What interleaved sessions keep of a run and its retries. `Chained` is the invariant of the tables:
every root has a linear chain of attempts, each of them a retry of a failed one with its inputs.
`exactlyOnce_run` proves the promises of runs in which no commit of `fail` comes after the run that
it names has ended.
-/

namespace Intel4Ops.Mapping

open Lib List

instance (run : MappingRun) : Decidable run.Pending := inferInstanceAs (Decidable (_ ∨ _))

/-! ## What is to hold -/

/-- The run has completed, at least in part. -/
def MappingRun.Finished (run : MappingRun) : Prop :=
  run.status = .completed ∨ run.status = .partiallyCompleted

def MappingRun.counts (run : MappingRun) : ℕ × ℕ × ℕ :=
  (run.mappedCount, run.exceptionCount, run.rejectedCount)

/-- The record results, with what belongs to them, and the canonical targets are the same. -/
structure SameTargets (db db' : Db) : Prop where
  results : db'.results = db.results
  links : db'.links = db.links
  candidates : db'.candidates = db.candidates
  exceptions : db'.exceptions = db.exceptions
  entities : db'.entities = db.entities
  events : db'.events = db.events
  metrics : db'.metrics = db.metrics

/-- Neither results and targets nor the counters of a run change, and no run finishes. -/
structure Quiet (db db' : Db) : Prop where
  targets : SameTargets db db'
  counts : ∀ r' ∈ db'.runs, ∀ r ∈ db.runs, r'.id = r.id → r'.counts = r.counts
  finished : ∀ r' ∈ db'.runs, r'.Finished → r' ∈ db.runs

/-- The run of the claim finishes, which was running under the claim's lease: results are added for
it only, and no other run changes. -/
structure Settles (db db' : Db) (claim : MappingExecutionClaim) : Prop where
  held : ∃ r ∈ db.runs, r.HeldBy claim
  finished : ∀ r' ∈ db'.runs, r'.id = claim.runId → r'.Finished
  others : ∀ r' ∈ db'.runs, r'.id ≠ claim.runId → r' ∈ db.runs
  results : ∃ rs, db'.results = db.results ++ rs ∧ ∀ r ∈ rs, r.mappingRunId = claim.runId

/-- Results, targets and counters change only when a session commits that holds the current lease of
its run, and then the run finishes. -/
def CommittedTogether (env : Env) (w : World) (a : Action) : Prop :=
  Quiet w.db ((step env).next w a).db ∨
    ∃ tx now claim counted work, a = .commit tx now ∧
      w.session tx = some (.finishing claim counted work) ∧
      Settles w.db ((step env).next w a).db claim

/-- Finished runs keep their status. -/
def FinishedKept (db db' : Db) : Prop :=
  ∀ r ∈ db.runs, r.Finished → ∃ r' ∈ db'.runs, r'.id = r.id ∧ r'.status = r.status

/-- The attempts under a root, oldest first. -/
def attemptsOf (db : Db) (root : UUID) : List MappingRun := db.runs.filter (·.rootRunId = some root)

def attemptInputs (db : Db) (run : MappingRun) : List (ℕ × MappingInputRecord) :=
  (inputRows db run.organizationId run.id).map fun i => (i.recordSequence, i.record)

/-- The attempts under a root form a linear chain: they are numbered from one and have the same
inputs, each one retries the one before, all but the last are failed and may be retried, and at most
one is finished. -/
structure Linear (db : Db) (root : UUID) : Prop where
  numbers : (attemptsOf db root).map (·.attemptNumber) = List.range' 1 (attemptsOf db root).length
  predecessors : (attemptsOf db root).IsChain fun a b => b.retryOfRunId = some a.id
  first : ∀ a ∈ (attemptsOf db root).head?, a.id = root
  inputs : ∀ a ∈ attemptsOf db root, ∀ b ∈ attemptsOf db root,
    attemptInputs db a = attemptInputs db b
  retried : ∀ a ∈ (attemptsOf db root).dropLast, a.status = .failed ∧ a.failureRetryable = some true
  once : ∀ a ∈ attemptsOf db root, ∀ b ∈ attemptsOf db root, a.Finished → b.Finished → a = b

/-- One step keeps the promises about runs and their attempts. -/
structure ExactlyOnce (env : Env) (w : World) (a : Action) : Prop where
  together : CommittedTogether env w a
  kept : FinishedKept w.db ((step env).next w a).db
  linear : ∀ root, Linear ((step env).next w a).db root

/-- The run that a commit of `fail` writes. -/
def World.failure (w : World) : Action → Option UUID
  | .commit tx _ =>
    match w.session tx with
    | some (.failing runId _ _) => some runId
    | _ => none
  | _ => none

/-- The action commits a `fail` after its run has ended. -/
def CommitsLate (w : World) (a : Action) : Prop :=
  ∃ runId ∈ w.failure a, ∃ run ∈ w.db.runs, run.id = runId ∧ ¬ run.Pending

instance (w : World) (a : Action) : Decidable (CommitsLate w a) :=
  inferInstanceAs (Decidable (∃ runId ∈ w.failure a, ∃ run ∈ w.db.runs, _))

/-! ## The invariant -/

/-- The second attempt retries the first one, which failed and may be retried, with its inputs. -/
structure Follows (db : Db) (a b : MappingRun) : Prop where
  retries : b.retryOfRunId = some a.id
  organization : b.organizationId = a.organizationId
  number : b.attemptNumber = a.attemptNumber + 1
  failed : a.status = .failed
  retryable : a.failureRetryable = some true
  inputs : attemptInputs db a = attemptInputs db b

/-- Every run has a drawn root, and the attempts under a root follow each other. -/
structure Chained (db : Db) : Prop where
  runIds : Table.Unique (·.id) db.runs
  drawn : ∀ r ∈ db.runs, r.id < db.nextId
  inputDrawn : ∀ i ∈ db.inputs, i.mappingRunId < db.nextId
  root : ∀ r ∈ db.runs, ∃ root, r.rootRunId = some root ∧ root < db.nextId
  follows : ∀ root, (attemptsOf db root).IsChain (Follows db)
  first : ∀ root, ∀ a ∈ (attemptsOf db root).head?, a.attemptNumber = 1 ∧ a.id = root

/-- Attempts that follow each other form a linear chain. -/
theorem Chained.linear {db : Db} (h : Chained db) (root : UUID) : Linear db root := by
  have hchain := h.follows root
  have hretried : ∀ a ∈ (attemptsOf db root).dropLast,
      a.status = .failed ∧ a.failureRetryable = some true :=
    Chain.forall_mem_dropLast hchain fun a b hab => ⟨hab.failed, hab.retryable⟩
  -- A finished attempt is the last one.
  have hlast : ∀ a ∈ attemptsOf db root, a.Finished → (attemptsOf db root).getLast? = some a := by
    intro a ha hfinished
    obtain ⟨before, after, hsplit⟩ := append_of_mem ha
    cases after with
    | nil => rw [hsplit, List.getLast?_concat]
    | cons b after =>
      have hmem : a ∈ (attemptsOf db root).dropLast := by
        rw [hsplit, dropLast_append_cons, dropLast_cons_cons]
        simp
      have hfailed := (hretried a hmem).1
      rcases hfinished with hstatus | hstatus
      · rw [hstatus] at hfailed
        cases hfailed
      · rw [hstatus] at hfailed
        cases hfailed
  exact {
    numbers := Chain.map_eq_range' hchain (fun a b hab => hab.number) fun a ha =>
      (h.first root a ha).1
    predecessors := hchain.imp fun a b hab => hab.retries
    first := fun a ha => (h.first root a ha).2
    inputs := Chain.eq_of_mem hchain fun a b hab => hab.inputs
    retried := hretried
    once := fun a ha b hb hfa hfb =>
      Option.some.inj ((hlast a ha hfa).symm.trans (hlast b hb hfb)) }

/-! ## Runs change, and runs are added -/

/-- The run is the same attempt, in another state. -/
structure MappingRun.SameAttempt (run' run : MappingRun) : Prop where
  id : run'.id = run.id
  organizationId : run'.organizationId = run.organizationId
  retryOfRunId : run'.retryOfRunId = run.retryOfRunId
  rootRunId : run'.rootRunId = run.rootRunId
  attemptNumber : run'.attemptNumber = run.attemptNumber

theorem MappingRun.SameAttempt.refl (run : MappingRun) : run.SameAttempt run :=
  ⟨rfl, rfl, rfl, rfl, rfl⟩

section Tables

variable {db db' : Db}

variable {root : UUID} {g : MappingRun → MappingRun}

theorem mem_attemptsOf {run : MappingRun} :
    run ∈ attemptsOf db root ↔ run ∈ db.runs ∧ run.rootRunId = some root := by
  simp [attemptsOf]

theorem attemptInputs_congr {a b : MappingRun}
    (h : inputRows db' b.organizationId b.id = inputRows db a.organizationId a.id) :
    attemptInputs db' b = attemptInputs db a := by
  rw [attemptInputs, attemptInputs, h]

theorem attemptsOf_map (hruns : db'.runs = db.runs.map g)
    (hsame : ∀ r ∈ db.runs, (g r).SameAttempt r) (root : UUID) :
    attemptsOf db' root = (attemptsOf db root).map g := by
  rw [attemptsOf, attemptsOf, hruns, filter_map]
  refine congrArg _ (filter_congr fun r hr => ?_)
  show decide ((g r).rootRunId = some root) = _
  rw [(hsame r hr).rootRunId]

/-- Runs that change, but for the failed ones, keep their attempts chained. -/
theorem Chained.rewrite (h : Chained db) (hruns : db'.runs = db.runs.map g)
    (hinputs : db'.inputs = db.inputs) (hsupply : db.nextId ≤ db'.nextId)
    (hsame : ∀ r ∈ db.runs, (g r).SameAttempt r)
    (hfailed : ∀ r ∈ db.runs, r.status = .failed → g r = r) : Chained db' := by
  have hattempts := attemptsOf_map hruns hsame
  have hrows : ∀ r ∈ db.runs, attemptInputs db' (g r) = attemptInputs db r := by
    intro r hr
    apply attemptInputs_congr
    rw [(hsame r hr).id, (hsame r hr).organizationId, inputRows, inputRows, hinputs]
  have hmem : ∀ {r'}, r' ∈ db'.runs → ∃ r ∈ db.runs, r' = g r := by
    intro r' hr'
    rw [hruns] at hr'
    obtain ⟨r, hr, rfl⟩ := mem_map.1 hr'
    exact ⟨r, hr, rfl⟩
  refine {
    runIds := ?_
    drawn := fun r' hr' => ?_
    inputDrawn := fun i hi => (h.inputDrawn i (hinputs ▸ hi)).trans_le hsupply
    root := fun r' hr' => ?_
    follows := fun root => ?_
    first := fun root a ha => ?_ }
  · have hids : db'.runs.map (·.id) = db.runs.map (·.id) := by
      rw [hruns, map_map]
      exact map_congr_left fun r hr => (hsame r hr).id
    rw [Table.Unique, hids]
    exact h.runIds
  · obtain ⟨r, hr, rfl⟩ := hmem hr'
    rw [(hsame r hr).id]
    exact (h.drawn r hr).trans_le hsupply
  · obtain ⟨r, hr, rfl⟩ := hmem hr'
    obtain ⟨root, hroot, hlt⟩ := h.root r hr
    exact ⟨root, (hsame r hr).rootRunId.trans hroot, hlt.trans_le hsupply⟩
  · rw [hattempts, isChain_map]
    refine (h.follows root).imp_of_mem_imp fun a b ha hb hab => ?_
    have ha := (mem_attemptsOf.1 ha).1
    have hb := (mem_attemptsOf.1 hb).1
    have hkept := hfailed a ha hab.failed
    exact {
      retries := by rw [(hsame b hb).retryOfRunId, hkept, hab.retries]
      organization := by rw [(hsame b hb).organizationId, hkept, hab.organization]
      number := by rw [(hsame b hb).attemptNumber, hkept, hab.number]
      failed := by rw [hkept, hab.failed]
      retryable := by rw [hkept, hab.retryable]
      inputs := by rw [hrows a ha, hrows b hb, hab.inputs] }
  · rw [hattempts, List.head?_map] at ha
    obtain ⟨a₀, ha₀, rfl⟩ := Option.map_eq_some_iff.1 ha
    have hrun := (mem_attemptsOf.1 (mem_of_mem_head? ha₀)).1
    rw [(hsame a₀ hrun).attemptNumber, (hsame a₀ hrun).id]
    exact h.first root a₀ ha₀

/-- The tables with a new run and its inputs. -/
def addRun (db : Db) (run : MappingRun) (rows : List MappingRunInput) : Db :=
  { db with
    runs := db.runs ++ [run]
    inputs := db.inputs ++ rows
    nextId := db.nextId + 1 }

variable {run : MappingRun} {rows : List MappingRunInput}

theorem Chained.inputRows_addRun (h : Chained db) (hrows : ∀ i ∈ rows, i.mappingRunId = db.nextId)
    {r : MappingRun} (hr : r ∈ db.runs) :
    inputRows (addRun db run rows) r.organizationId r.id = inputRows db r.organizationId r.id :=
  inputRows_append hrows rfl (h.drawn r hr).ne

theorem attemptsOf_addRun_self (hroot : run.rootRunId = some root) :
    attemptsOf (addRun db run rows) root = attemptsOf db root ++ [run] := by
  rw [attemptsOf, attemptsOf, addRun, filter_append, filter_singleton]
  simp [hroot]

theorem attemptsOf_addRun_of_ne (hroot : run.rootRunId ≠ some root) :
    attemptsOf (addRun db run rows) root = attemptsOf db root := by
  rw [attemptsOf, attemptsOf, addRun, filter_append, filter_singleton]
  simp [hroot]

/-- A new run that starts a chain, or follows the last attempt of its chain, keeps the attempts
chained. -/
theorem Chained.addRun (h : Chained db) (hid : run.id = db.nextId)
    (hroot : run.rootRunId = some root) (hdrawn : root ≤ db.nextId)
    (hrows : ∀ i ∈ rows, i.mappingRunId = db.nextId)
    (hfollows : ∀ a ∈ (attemptsOf db root).getLast?, Follows (addRun db run rows) a run)
    (hfirst : attemptsOf db root = [] → run.attemptNumber = 1 ∧ run.id = root) :
    Chained (addRun db run rows) := by
  have hkept : ∀ root, ∀ a ∈ attemptsOf db root,
      attemptInputs (Mapping.addRun db run rows) a = attemptInputs db a := by
    intro root a ha
    exact attemptInputs_congr (h.inputRows_addRun hrows (mem_attemptsOf.1 ha).1)
  have hold : ∀ root, (attemptsOf db root).IsChain (Follows (Mapping.addRun db run rows)) := by
    intro root
    refine (h.follows root).imp_of_mem_imp fun a b ha hb hab => ?_
    exact { hab with inputs := by rw [hkept root a ha, hkept root b hb, hab.inputs] }
  refine {
    runIds := h.runIds.append fun r hr => hid ▸ (h.drawn r hr).ne
    drawn := fun r hr => ?_
    inputDrawn := fun i hi => ?_
    root := fun r hr => ?_
    follows := fun other => ?_
    first := fun other a ha => ?_ }
  · show r.id < db.nextId + 1
    rcases mem_append.1 hr with hr | hr
    · exact (h.drawn r hr).trans (Nat.lt_succ_self _)
    · rw [mem_singleton.1 hr, hid]
      exact Nat.lt_succ_self _
  · show i.mappingRunId < db.nextId + 1
    rcases mem_append.1 hi with hi | hi
    · exact (h.inputDrawn i hi).trans (Nat.lt_succ_self _)
    · rw [hrows i hi]
      exact Nat.lt_succ_self _
  · rcases mem_append.1 hr with hr | hr
    · obtain ⟨other, hother, hlt⟩ := h.root r hr
      exact ⟨other, hother, hlt.trans (Nat.lt_succ_self _)⟩
    · obtain rfl := mem_singleton.1 hr
      exact ⟨root, hroot, Nat.lt_succ_of_le hdrawn⟩
  · by_cases hother : run.rootRunId = some other
    · obtain rfl : root = other := Option.some.inj (hroot.symm.trans hother)
      rw [attemptsOf_addRun_self hroot]
      refine (hold root).append (isChain_singleton _) fun a ha b hb => ?_
      obtain rfl : run = b := by simpa using hb
      exact hfollows a ha
    · rw [attemptsOf_addRun_of_ne hother]
      exact hold other
  · by_cases hother : run.rootRunId = some other
    · obtain rfl : root = other := Option.some.inj (hroot.symm.trans hother)
      rw [attemptsOf_addRun_self hroot] at ha
      by_cases hempty : attemptsOf db root = []
      · rw [hempty] at ha
        obtain rfl : run = a := by simpa using ha
        exact hfirst hempty
      · rw [List.head?_append_of_ne_nil _ hempty] at ha
        exact h.first root a ha
    · rw [attemptsOf_addRun_of_ne hother] at ha
      exact h.first other a ha

theorem Chained.submitted (h : Chained db) (hid : run.id = db.nextId)
    (hroot : run.rootRunId = some run.id) (hnumber : run.attemptNumber = 1)
    (hrows : ∀ i ∈ rows, i.mappingRunId = db.nextId) : Chained (Mapping.addRun db run rows) := by
  have hnone : attemptsOf db run.id = [] := by
    rw [eq_nil_iff_forall_not_mem]
    intro r hr
    obtain ⟨hr, heq⟩ := mem_attemptsOf.1 hr
    obtain ⟨root, hother, hlt⟩ := h.root r hr
    obtain rfl : run.id = root := Option.some.inj (heq.symm.trans hother)
    rw [hid] at hlt
    exact lt_irrefl _ hlt
  refine h.addRun hid hroot (le_of_eq hid) hrows ?_ fun _ => ⟨hnumber, rfl⟩
  intro a ha
  rw [hnone] at ha
  cases ha

theorem Chained.inputRows_copies (h : Chained db) {org runId : UUID} {run : MappingRun}
    {rows : List MappingRunInput}
    (hrows : rows = (inputRows db org runId).map fun i => { i with mappingRunId := db.nextId }) :
    inputRows (Mapping.addRun db run rows) org db.nextId = rows := by
  have hnone : db.inputs.filter (fun i => i.organizationId = org ∧ i.mappingRunId = db.nextId) =
      [] := by
    rw [filter_eq_nil_iff]
    intro i hi hof
    exact (h.inputDrawn i hi).ne (of_decide_eq_true hof).2
  have hall : rows.filter (fun i => i.organizationId = org ∧ i.mappingRunId = db.nextId) = rows := by
    rw [filter_eq_self, hrows]
    intro i hi
    obtain ⟨i₀, hi₀, rfl⟩ := mem_map.1 hi
    rw [inputRows, (perm_insertionSort _ _).mem_iff, mem_filter] at hi₀
    exact decide_eq_true ⟨(of_decide_eq_true hi₀.2).1, rfl⟩
  have hsorted : rows.Pairwise fun a b => a.recordSequence ≤ b.recordSequence := by
    rw [hrows, pairwise_map]
    exact pairwise_insertionSort _ _
  rw [inputRows, Mapping.addRun, filter_append, hnone, hall, nil_append]
  exact hsorted.insertionSort_eq

/-- A retry follows the attempt that it retries, which is the last one as long as no other run
retries it. -/
theorem Chained.retried (h : Chained db) {predecessor : MappingRun} {key : String} {now : Instant}
    (hmem : predecessor ∈ db.runs) (hfailed : predecessor.status = .failed)
    (hretryable : predecessor.failureRetryable = some true)
    (hfree : ∀ r ∈ db.runs, ¬ r.Clashes (retryChild predecessor db.nextId key now)) :
    Chained (Mapping.addRun db (retryChild predecessor db.nextId key now)
      ((inputRows db predecessor.organizationId predecessor.id).map
        fun i => { i with mappingRunId := db.nextId })) := by
  obtain ⟨root, hroot, hlt⟩ := h.root predecessor hmem
  have hlast : ∀ b ∈ attemptsOf db root, ¬ Follows db predecessor b := by
    intro b hb hfollows
    have hretries := hfollows.retries
    refine hfree b (mem_attemptsOf.1 hb).1 ⟨hfollows.organization, .inr ⟨?_, hretries⟩⟩
    rw [hretries]
    rfl
  obtain ⟨before, hbefore⟩ := Chain.exists_eq_append (h.follows root)
    (mem_attemptsOf.2 ⟨hmem, hroot⟩) hlast
  have hrows : ∀ i ∈ (inputRows db predecessor.organizationId predecessor.id).map
      (fun i => { i with mappingRunId := db.nextId }), i.mappingRunId = db.nextId := by
    intro i hi
    obtain ⟨i₀, -, rfl⟩ := mem_map.1 hi
    rfl
  have hchild : (retryChild predecessor db.nextId key now).rootRunId = some root := by
    show some (predecessor.rootRunId.getD predecessor.id) = some root
    rw [hroot]
    rfl
  refine h.addRun rfl hchild hlt.le hrows ?_ ?_
  · intro a ha
    rw [hbefore, List.getLast?_concat] at ha
    obtain rfl : predecessor = a := Option.some.inj ha
    refine ⟨rfl, rfl, rfl, hfailed, hretryable, ?_⟩
    rw [attemptInputs, attemptInputs, h.inputRows_addRun hrows hmem]
    show _ = (inputRows _ predecessor.organizationId db.nextId).map _
    rw [h.inputRows_copies rfl, map_map]
    rfl
  · intro hempty
    rw [hempty] at hbefore
    exact absurd hbefore (by simp)

end Tables

end Intel4Ops.Mapping
