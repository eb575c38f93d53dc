import Intel4Ops.ValidationProgram.Batches
import Mathlib.Algebra.Order.BigOperators.Group.List
import Mathlib.Tactic.Linarith

/-!
# Accounting for misses

Every miss of a scored item is in the job of its family, and no further job is created for it. The
amount of a job adds up all of its matches: it is that of the missed scenarios only where their
currency is one and no scenario is matched twice, once as a finding and once as a leakage. The
decision package takes the jobs of the whole organization, and a batch that is prepared again
blocks items whose registration it does not find.
-/

namespace Intel4Ops.ValidationProgram

open Lib List

/-! ## What is claimed of a job -/

/-- What was missed: a leakage, a finding that is linked to none, or neither. -/
inductive Scenario
  | leakage (truthLeakageId : String)
  | finding (expectedFindingId : UUID)
  | unresolved (matchId : UUID)
  deriving DecidableEq

/-- The scenario of a match: a finding and the leakage that it is linked to are one. -/
def Validation.scenario (v : Validation) (miss : ValidationFindingMatch) : Scenario :=
  match v.expectedFinding miss with
  | some expected => expected.linkedLeakageId.elim (.finding expected.id) .leakage
  | none => (v.leakageTruth miss).elim (.unresolved miss.id) fun leakage =>
    .leakage leakage.truthLeakageId

/-- The matches that have an amount. -/
def Validation.valued (v : Validation) (misses : List ValidationFindingMatch) :
    List ValidationFindingMatch :=
  misses.filter fun miss => (v.resolve miss).value ≠ none

def Validation.amount (v : Validation) (miss : ValidationFindingMatch) : ℚ :=
  (v.resolve miss).value.getD 0

def Validation.currency (v : Validation) (miss : ValidationFindingMatch) : Option String :=
  (v.resolve miss).currency

/-- One match of every scenario with an amount, and the other matches. -/
structure Validation.Picks (v : Validation) (misses counted rest : List ValidationFindingMatch) :
    Prop where
  all : (v.valued misses).Perm (counted ++ rest)
  once : (counted.map v.scenario).Nodup
  every : ∀ miss ∈ rest, v.scenario miss ∈ counted.map v.scenario

/-- The impact counts the misses, and the amount of every scenario once in one currency. -/
structure Validation.Accounts (v : Validation) (misses : List ValidationFindingMatch)
    (impact : EvidenceImpact) : Prop where
  affectedItems : impact.affectedItems = misses.length
  currency : ∀ miss ∈ v.valued misses, v.currency miss = impact.currency
  value : ∃ counted rest, v.Picks misses counted rest ∧
    impact.affectedEconomicValue.getD 0 = (counted.map v.amount).sum

/-- The misses are in one currency, and what is matched beyond one match of every scenario adds up
to nothing. -/
structure Validation.Countable (v : Validation) (misses : List ValidationFindingMatch) : Prop where
  currency : ∀ miss ∈ v.valued misses, ∀ other ∈ v.valued misses, v.currency miss = v.currency other
  rest : ∃ counted rest, v.Picks misses counted rest ∧ (rest.map v.amount).sum = 0

/-- What is claimed of the jobs that are reported for an item. -/
structure Covers (v : Validation) (env : Env) (item : SimulationBatchItem)
    (misses : List ValidationFindingMatch) (jobs : List AgentJob) : Prop where
  once : ∀ miss ∈ misses, (jobs.filter fun job =>
    job.clientIdempotencyKey = some (env.familyKey item.id (v.family miss))).length = 1
  accounted : ∀ job ∈ jobs, ∃ family ∈ v.families misses,
    job.clientIdempotencyKey = some (env.familyKey item.id family) ∧
      v.Accounts (v.missesIn misses family) job.impact
  total : (jobs.map (·.impact.affectedItems)).sum = misses.length

/-- What is claimed of a call that classifies the misses of a batch. -/
def Store.Classifies (store : Store) (env : Env) (batchId : UUID)
    (newId : UUID → String → UUID) : Prop :=
  ∃ store' classified,
    store.createMissClassificationJobs env batchId newId = .ok (store', classified) ∧
      classified.map (·.1) = store.scoredItems batchId ∧
      (∀ entry ∈ classified, ∃ misses, store.validation.missesOf entry.1 = .ok misses ∧
        Covers store.validation env entry.1 misses entry.2 ∧ entry.2 ⊆ store'.jobs) ∧
      ∀ newId', ∃ store'' again,
        store'.createMissClassificationJobs env batchId newId' = .ok (store'', again) ∧
          again.flatMap (·.2) = [] ∧ store''.jobs = store'.jobs

/-- The stored job with the organization and the key of a new one. -/
def storedJob (jobs : List AgentJob) (job : AgentJob) : Option AgentJob :=
  jobs.find? fun j => j.organizationId = job.organizationId ∧
    j.clientIdempotencyKey = job.clientIdempotencyKey

/-- A job that is stored under the key of a family accounts for it, and where there is none the
family can be counted. -/
def Store.Accountable (store : Store) (env : Env) (batchId : UUID)
    (newId : UUID → String → UUID) : Prop :=
  ∀ item ∈ store.scoredItems batchId, ∀ misses, store.validation.missesOf item = .ok misses →
    ∀ family ∈ store.validation.families misses,
      let missed := store.validation.missesIn misses family
      match storedJob store.jobs (item.job env newId family
        (missed.map store.validation.resolve)) with
      | some job => store.validation.Accounts missed job.impact
      | none => store.validation.Countable missed

/-! ## Adding up -/

variable {env : Env} {store store' : Store} {item : SimulationBatchItem} {batchId : UUID}
  {v : Validation} {misses : List ValidationFindingMatch} {newId : UUID → String → UUID}
  {jobs : List AgentJob}

/-- One round of the loop of `addUp`. -/
def addOne (sum : ℚ × Option String) (miss : Resolved) : ℚ × Option String :=
  match miss.value with
  | some value => (sum.1 + value, orCurrency sum.2 miss.currency)
  | none => sum

theorem addUp_eq (misses : List Resolved) : addUp misses = misses.foldl addOne (0, none) := rfl

theorem addOne_total (v : Validation) (misses : List ValidationFindingMatch)
    (sum : ℚ × Option String) :
    ((misses.map v.resolve).foldl addOne sum).1 =
      sum.1 + ((v.valued misses).map v.amount).sum := by
  induction misses generalizing sum with
  | nil => simp [Validation.valued]
  | cons miss misses ih =>
    rw [map_cons, foldl_cons, ih]
    cases hvalue : (v.resolve miss).value with
    | none =>
      have hsame : addOne sum (v.resolve miss) = sum := by rw [addOne, hvalue]
      have hvalued : v.valued (miss :: misses) = v.valued misses :=
        filter_cons_of_neg (by simp [hvalue])
      rw [hsame, hvalued]
    | some value =>
      have hadd : (addOne sum (v.resolve miss)).1 = sum.1 + value := by rw [addOne, hvalue]
      have hvalued : v.valued (miss :: misses) = miss :: v.valued misses :=
        filter_cons_of_pos (by simp [hvalue])
      have hamount : v.amount miss = value := by rw [Validation.amount, hvalue, Option.getD_some]
      rw [hadd, hvalued, map_cons, sum_cons, hamount, add_assoc]

theorem orCurrency_self (currency : Option String) : orCurrency currency currency = currency := by
  unfold orCurrency
  split <;> rfl

theorem addOne_currency (v : Validation) (misses : List ValidationFindingMatch)
    {currency : Option String} (h : ∀ miss ∈ v.valued misses, v.currency miss = currency) (total : ℚ) :
    ((misses.map v.resolve).foldl addOne (total, currency)).2 = currency := by
  induction misses generalizing total with
  | nil => rfl
  | cons miss misses ih =>
    rw [map_cons, foldl_cons]
    cases hvalue : (v.resolve miss).value with
    | none =>
      have hsame : addOne (total, currency) (v.resolve miss) = (total, currency) := by
        rw [addOne, hvalue]
      have hvalued : v.valued (miss :: misses) = v.valued misses :=
        filter_cons_of_neg (by simp [hvalue])
      rw [hvalued] at h
      rw [hsame]
      exact ih h total
    | some value =>
      have hvalued : v.valued (miss :: misses) = miss :: v.valued misses :=
        filter_cons_of_pos (by simp [hvalue])
      rw [hvalued] at h
      obtain ⟨hmiss, hrest⟩ := forall_mem_cons.1 h
      have hadd : addOne (total, currency) (v.resolve miss) = (total + value, currency) := by
        have hcurrency : (v.resolve miss).currency = currency := hmiss
        rw [addOne, hvalue, hcurrency]
        show (total + value, orCurrency currency currency) = _
        rw [orCurrency_self]
      rw [hadd]
      exact ih hrest _

theorem addUp_currency (v : Validation) (misses : List ValidationFindingMatch)
    {currency : Option String} (h : ∀ miss ∈ v.valued misses, v.currency miss = currency)
    (hsome : v.valued misses ≠ []) (total : ℚ) :
    ((misses.map v.resolve).foldl addOne (total, none)).2 = currency := by
  induction misses with
  | nil => exact absurd rfl hsome
  | cons miss misses ih =>
    rw [map_cons, foldl_cons]
    cases hvalue : (v.resolve miss).value with
    | none =>
      have hsame : addOne (total, none) (v.resolve miss) = (total, none) := by
        rw [addOne, hvalue]
      have hvalued : v.valued (miss :: misses) = v.valued misses :=
        filter_cons_of_neg (by simp [hvalue])
      rw [hvalued] at h hsome
      rw [hsame]
      exact ih h hsome
    | some value =>
      have hvalued : v.valued (miss :: misses) = miss :: v.valued misses :=
        filter_cons_of_pos (by simp [hvalue])
      rw [hvalued] at h
      obtain ⟨hmiss, hrest⟩ := forall_mem_cons.1 h
      have hadd : addOne (total, none) (v.resolve miss) = (total + value, currency) := by
        have hcurrency : (v.resolve miss).currency = currency := hmiss
        rw [addOne, hvalue, hcurrency]
        rfl
      rw [hadd]
      exact addOne_currency v misses hrest _

theorem getD_nonzero (value : ℚ) : (nonzero (some value)).getD 0 = value := by
  unfold nonzero
  by_cases hvalue : value = 0 <;> simp [hvalue, Option.filter]

theorem impactOf_value (v : Validation) (misses : List ValidationFindingMatch) :
    (impactOf (misses.map v.resolve)).affectedEconomicValue.getD 0 =
      ((v.valued misses).map v.amount).sum := by
  show (nonzero (some (addUp _).1)).getD 0 = _
  rw [getD_nonzero, addUp_eq, addOne_total, zero_add]

theorem Validation.Picks.sum {counted rest : List ValidationFindingMatch}
    (h : v.Picks misses counted rest) : ((v.valued misses).map v.amount).sum =
      (counted.map v.amount).sum + (rest.map v.amount).sum := by
  rw [(h.all.map v.amount).sum_eq, map_append, sum_append]

theorem accounts_impactOf : v.Accounts misses (impactOf (misses.map v.resolve)) ↔
    v.Countable misses := by
  constructor
  · intro h
    refine ⟨fun miss hmiss other hother => ?_, ?_⟩
    · rw [h.currency miss hmiss, h.currency other hother]
    · obtain ⟨counted, rest, hpicks, hvalue⟩ := h.value
      refine ⟨counted, rest, hpicks, ?_⟩
      rw [impactOf_value, hpicks.sum] at hvalue
      exact left_eq_add.1 hvalue.symm
  · intro h
    refine ⟨by rw [impactOf, length_map], ?_, ?_⟩
    · intro miss hmiss
      have hsome : v.valued misses ≠ [] := ne_nil_of_mem hmiss
      exact (addUp_currency v misses (fun other hother => h.currency other hother miss hmiss)
        hsome 0).symm
    · obtain ⟨counted, rest, hpicks, hrest⟩ := h.rest
      refine ⟨counted, rest, hpicks, ?_⟩
      rw [impactOf_value, hpicks.sum, hrest, add_zero]

/-- Where all amounts are positive, they can be counted only where no scenario is matched twice. -/
theorem Validation.Countable.nodup (h : v.Countable misses)
    (hpositive : ∀ miss ∈ v.valued misses, 0 < v.amount miss) :
    ((v.valued misses).map v.scenario).Nodup := by
  obtain ⟨counted, rest, hpicks, hrest⟩ := h.rest
  have hmem : ∀ miss ∈ rest, miss ∈ v.valued misses := fun miss hmiss =>
    hpicks.all.mem_iff.2 (mem_append_right _ hmiss)
  have hnone : rest = [] := by
    cases rest with
    | nil => rfl
    | cons miss others =>
      have hfirst : 0 < v.amount miss := hpositive miss (hmem miss mem_cons_self)
      have hothers : 0 ≤ (others.map v.amount).sum := by
        apply sum_nonneg
        intro amount hamount
        obtain ⟨other, hother, rfl⟩ := mem_map.1 hamount
        exact (hpositive other (hmem other (mem_cons_of_mem _ hother))).le
      rw [map_cons, sum_cons] at hrest
      linarith
  have hall := hpicks.all
  rw [hnone, append_nil] at hall
  exact (hall.map v.scenario).nodup_iff.2 hpicks.once

/-! ## Keys -/

theorem familyKey_family {id : UUID} {family family' : String}
    (h : env.familyKey id family = env.familyKey id family') : family = family' := by
  have hlist := congrArg String.toList h
  simp only [Env.familyKey, String.toList_append] at hlist
  exact String.toList_inj.1 (append_cancel_left hlist)

theorem prefix_colon {xs ys us ws : List Char} (hx : ':' ∉ xs) (hy : ':' ∉ ys)
    (h : xs ++ ':' :: us = ys ++ ':' :: ws) : xs = ys := by
  induction xs generalizing ys with
  | nil =>
    cases ys with
    | nil => rfl
    | cons y ys =>
      obtain ⟨rfl, -⟩ := List.cons.inj h
      exact absurd mem_cons_self hy
  | cons x xs ih =>
    cases ys with
    | nil =>
      obtain ⟨rfl, -⟩ := List.cons.inj h
      exact absurd mem_cons_self hx
    | cons y ys =>
      obtain ⟨rfl, hrest⟩ := List.cons.inj h
      rw [ih (fun hmem => hx (mem_cons_of_mem _ hmem))
        (fun hmem => hy (mem_cons_of_mem _ hmem)) hrest]

theorem familyKey_id {id id' : UUID} {family family' : String}
    (h : env.familyKey id family = env.familyKey id' family') : id = id' := by
  have hlist := congrArg String.toList h
  simp only [Env.familyKey, Env.itemKey, String.toList_append, append_assoc] at hlist
  have htext := append_cancel_left hlist
  exact env.text_injective (String.toList_inj.1
    (prefix_colon (env.text_colon id) (env.text_colon id') htext))

/-! ## Creating jobs -/

/-- Two jobs are one for `create_job`. -/
def SameKey (a b : AgentJob) : Prop :=
  a.organizationId = b.organizationId ∧ a.clientIdempotencyKey = b.clientIdempotencyKey

instance (a b : AgentJob) : Decidable (SameKey a b) := inferInstanceAs (Decidable (_ ∧ _))

theorem storedJob_append {new : List AgentJob} {job : AgentJob}
    (h : ∀ other ∈ new, ¬ SameKey other job) :
    storedJob (jobs ++ new) job = storedJob jobs job := by
  have hnone : new.find? (fun j => j.organizationId = job.organizationId ∧
      j.clientIdempotencyKey = job.clientIdempotencyKey) = none := by
    rw [List.find?_eq_none]
    intro other hother hsame
    exact h other hother (of_decide_eq_true hsame)
  rw [storedJob, List.find?_append, hnone, Option.or_none, storedJob]

def reported (jobs : List AgentJob) (job : AgentJob) : AgentJob := (storedJob jobs job).getD job

theorem createJobs_append (jobs ps qs : List AgentJob) :
    createJobs jobs (ps ++ qs) = ((createJobs (createJobs jobs ps).1 qs).1,
      (createJobs jobs ps).2 ++ (createJobs (createJobs jobs ps).1 qs).2) := by
  induction ps generalizing jobs with
  | nil => rfl
  | cons p ps ih =>
    rw [cons_append, createJobs, createJobs, ih]
    rfl

theorem createJobs_eq {ps : List AgentJob} (h : ps.Pairwise fun a b => ¬ SameKey a b)
    (jobs : List AgentJob) :
    createJobs jobs ps =
      (jobs ++ ps.filter (fun p => storedJob jobs p = none), ps.map (reported jobs)) := by
  induction ps generalizing jobs with
  | nil => simp [createJobs]
  | cons p ps ih =>
    obtain ⟨hp, hps⟩ := pairwise_cons.1 h
    rw [createJobs]
    cases hstored : storedJob jobs p with
    | some existing =>
      have hfirst : createJob jobs p = (jobs, existing) := by
        unfold storedJob at hstored
        rw [createJob, hstored]
      have hreported : reported jobs p = existing := by rw [reported, hstored, Option.getD_some]
      rw [hfirst, ih hps, map_cons, hreported, filter_cons_of_neg (by simp [hstored])]
    | none =>
      have hfirst : createJob jobs p = (jobs ++ [p], p) := by
        unfold storedJob at hstored
        rw [createJob, hstored]
      have hreported : reported jobs p = p := by rw [reported, hstored, Option.getD_none]
      have hlater : ∀ q ∈ ps, storedJob (jobs ++ [p]) q = storedJob jobs q := by
        intro q hq
        apply storedJob_append
        intro other hother
        rw [mem_singleton.1 hother]
        exact hp q hq
      rw [hfirst, ih hps, map_cons, hreported, filter_cons_of_pos (by simp [hstored]),
        append_assoc, singleton_append]
      have hfilter : ps.filter (fun q => storedJob (jobs ++ [p]) q = none) =
          ps.filter fun q => storedJob jobs q = none :=
        filter_congr fun q hq => by rw [hlater q hq]
      have hmap : ps.map (reported (jobs ++ [p])) = ps.map (reported jobs) :=
        map_congr_left fun q hq => by rw [reported, hlater q hq, reported]
      rw [hfilter, hmap]

def Validation.missed (v : Validation) (item : SimulationBatchItem) : List ValidationFindingMatch :=
  (v.missesOf item).toOption.getD []

theorem missesOf_eq (h : ∃ misses, v.missesOf item = .ok misses) :
    v.missesOf item = .ok (v.missed item) := by
  obtain ⟨misses, h⟩ := h
  rw [Validation.missed, h]
  rfl

def Validation.newJobs (v : Validation) (env : Env) (newId : UUID → String → UUID)
    (item : SimulationBatchItem) : List AgentJob :=
  v.wanted env newId item (v.missed item)

theorem classify_eq {items : List SimulationBatchItem}
    (hitems : ∀ item ∈ items, ∃ misses, v.missesOf item = .ok misses)
    (hkeys : (items.flatMap (v.newJobs env newId)).Pairwise fun a b => ¬ SameKey a b)
    (jobs : List AgentJob) :
    v.classify env newId items jobs =
      .ok ((createJobs jobs (items.flatMap (v.newJobs env newId))).1,
        items.map fun item => (item, (v.newJobs env newId item).map (reported jobs))) := by
  induction items generalizing jobs with
  | nil => rfl
  | cons item items ih =>
    obtain ⟨hitem, hrest⟩ := forall_mem_cons.1 hitems
    rw [flatMap_cons] at hkeys
    obtain ⟨hfirst, hothers, hbetween⟩ := pairwise_append.1 hkeys
    rw [Validation.classify, missesOf_eq hitem, ok_bind]
    show (v.classify env newId items (createJobs jobs (v.newJobs env newId item)).1 >>= _) = _
    rw [ih hrest hothers, ok_bind, flatMap_cons, createJobs_append, map_cons]
    have hsame : ∀ q ∈ items.flatMap (v.newJobs env newId),
        reported (createJobs jobs (v.newJobs env newId item)).1 q = reported jobs q := by
      intro q hq
      rw [createJobs_eq hfirst, reported, storedJob_append, reported]
      exact fun other hother => hbetween other (mem_of_mem_filter hother) q hq
    have hcreated : (createJobs jobs (v.newJobs env newId item)).2 =
        (v.newJobs env newId item).map (reported jobs) := by
      rw [createJobs_eq hfirst]
    have hlater : (items.map fun later => (later, (v.newJobs env newId later).map
        (reported (createJobs jobs (v.newJobs env newId item)).1))) =
          items.map fun later => (later, (v.newJobs env newId later).map (reported jobs)) := by
      refine map_congr_left fun later hlater => ?_
      rw [map_congr_left fun q hq => hsame q (mem_flatMap.2 ⟨later, hlater, hq⟩)]
    rw [hlater, ← hcreated]
    rfl

/-! ## Classifying -/

theorem mem_scoredItems : item ∈ store.scoredItems batchId ↔
    item ∈ store.items ∧ item.batchId = batchId ∧ item.state = .scored := by
  simp only [Store.scoredItems, Store.itemsOf, mem_filter, decide_eq_true_iff, and_assoc]

theorem Sound.readable (h : Sound store) (hitem : item ∈ store.scoredItems batchId) :
    ∃ misses, store.validation.missesOf item = .ok misses := by
  obtain ⟨hmem, -, hstate⟩ := mem_scoredItems.1 hitem
  obtain ⟨hfrozen, s, hs, hlink, horganization⟩ := h.linked item hmem hstate
  have hfound : ∃ t ∈ store.validation.simulations, t.organizationId = item.organizationId ∧
      t.id = s.id := ⟨s, hs, horganization, rfl⟩
  rw [Validation.missesOf, ensure_of hfrozen, ok_bind, hlink, orFail_some, ok_bind,
    Validation.getResults, ensure_of hfound]
  exact ⟨_, rfl⟩

theorem mem_newJobs {job : AgentJob} : job ∈ v.newJobs env newId item ↔
    ∃ family ∈ v.families (v.missed item), job = item.job env newId family
      ((v.missesIn (v.missed item) family).map v.resolve) := by
  simp only [Validation.newJobs, Validation.wanted, mem_map, eq_comm]

theorem newJobs_keys (v : Validation) (env : Env) (newId : UUID → String → UUID)
    (item : SimulationBatchItem) :
    (v.newJobs env newId item).Pairwise fun a b => ¬ SameKey a b := by
  rw [Validation.newJobs, Validation.wanted, pairwise_map]
  refine (nodup_firsts _).imp ?_
  intro family family' hne hsame
  exact hne (familyKey_family (Option.some.inj hsame.2))

theorem scored_keys (h : Sound store) (env : Env) (batchId : UUID)
    (newId : UUID → String → UUID) :
    ((store.scoredItems batchId).flatMap (store.validation.newJobs env newId)).Pairwise
      fun a b => ¬ SameKey a b := by
  rw [pairwise_flatMap]
  refine ⟨fun item _ => newJobs_keys _ env newId item, ?_⟩
  have hids : (store.scoredItems batchId).Pairwise fun a b => a.id ≠ b.id :=
    pairwise_map.1 ((h.itemIds.filter _).filter _)
  refine hids.imp ?_
  intro item other hne a ha b hb hsame
  obtain ⟨family, -, rfl⟩ := mem_newJobs.1 ha
  obtain ⟨family', -, rfl⟩ := mem_newJobs.1 hb
  exact hne (familyKey_id (Option.some.inj hsame.2))

/-- The jobs that the call reports. -/
def Store.classified (store : Store) (env : Env) (batchId : UUID) (newId : UUID → String → UUID) :
    List (SimulationBatchItem × List AgentJob) :=
  (store.scoredItems batchId).map fun item =>
    (item, (store.validation.newJobs env newId item).map (reported store.jobs))

/-- The items whose misses the call classifies. -/
def Store.marked (store : Store) (env : Env) (batchId : UUID) (newId : UUID → String → UUID) :
    List UUID :=
  ((store.classified env batchId newId).filter fun entry => entry.2 ≠ []).map
    fun entry => entry.1.id

/-- The store that the call leaves. -/
def Store.afterClassification (store : Store) (env : Env) (batchId : UUID)
    (newId : UUID → String → UUID) : Store where
  batches := store.batches
  items := Table.update (fun item => item.id ∈ store.marked env batchId newId)
    (·.moveTo .missClassification) store.items
  jobs := (createJobs store.jobs
    ((store.scoredItems batchId).flatMap (store.validation.newJobs env newId))).1
  validation := store.validation

theorem classification_eq (h : Sound store) (env : Env) (batchId : UUID)
    (newId : UUID → String → UUID) :
    store.createMissClassificationJobs env batchId newId =
      .ok (store.afterClassification env batchId newId, store.classified env batchId newId) := by
  rw [Store.createMissClassificationJobs,
    classify_eq (fun _ hitem => h.readable hitem) (scored_keys h env batchId newId)]
  rfl

theorem newJobs_after (newId' : UUID → String → UUID)
    (hitem : item ∈ (store.afterClassification env batchId newId).scoredItems batchId) :
    store.validation.newJobs env newId' item = [] := by
  obtain ⟨hmem, hbatch, hstate⟩ := mem_scoredItems.1 hitem
  obtain ⟨old, hold, hupdate⟩ := Table.mem_update.1 hmem
  split_ifs at hupdate with hmarked
  · rw [hupdate] at hstate
    cases hstate
  · rw [hupdate] at hbatch hstate ⊢
    have hscored : old ∈ store.scoredItems batchId := mem_scoredItems.2 ⟨hold, hbatch, hstate⟩
    have hnone : store.validation.newJobs env newId old = [] := by
      by_contra hsome
      apply hmarked
      apply decide_eq_true
      refine mem_map.2 ⟨(old, (store.validation.newJobs env newId old).map
        (reported store.jobs)), mem_filter.2 ⟨mem_map_of_mem hscored, ?_⟩, rfl⟩
      exact decide_eq_true fun hempty => hsome (map_eq_nil_iff.1 hempty)
    rw [Validation.newJobs, Validation.wanted, map_eq_nil_iff] at hnone ⊢
    exact hnone

theorem newJobs_all_after (newId' : UUID → String → UUID) :
    ((store.afterClassification env batchId newId).scoredItems batchId).flatMap
      (store.validation.newJobs env newId') = [] := by
  rw [flatMap_eq_nil_iff]
  exact fun item hitem => newJobs_after newId' hitem

theorem classification_again (h : Sound store) (newId' : UUID → String → UUID) :
    ∃ store'' again, (store.afterClassification env batchId newId).createMissClassificationJobs env
        batchId newId' = .ok (store'', again) ∧
      again.flatMap (·.2) = [] ∧
        store''.jobs = (store.afterClassification env batchId newId).jobs := by
  have hsound := createMissClassificationJobs_sound h (classification_eq h env batchId newId)
  refine ⟨_, _, classification_eq hsound env batchId newId', ?_, ?_⟩
  · rw [flatMap_eq_nil_iff]
    intro entry hentry
    obtain ⟨item, hitem, rfl⟩ := mem_map.1 hentry
    have hnone := newJobs_after newId' hitem
    show (store.validation.newJobs env newId' item).map _ = []
    rw [hnone]
    rfl
  · have hnone : ((store.afterClassification env batchId newId).scoredItems batchId).flatMap
        (store.validation.newJobs env newId') = [] := newJobs_all_after newId'
    show (createJobs (store.afterClassification env batchId newId).jobs
      (((store.afterClassification env batchId newId).scoredItems batchId).flatMap
        (store.validation.newJobs env newId'))).1 = _
    rw [hnone, createJobs]

/-! ## Coverage -/

def Validation.reportedJob (v : Validation) (env : Env) (newId : UUID → String → UUID)
    (jobs : List AgentJob) (item : SimulationBatchItem) (family : String) : AgentJob :=
  reported jobs (item.job env newId family ((v.missesIn (v.missed item) family).map v.resolve))

theorem reportedJobs_eq : (v.newJobs env newId item).map (reported jobs) =
    (v.families (v.missed item)).map (v.reportedJob env newId jobs item) := by
  rw [Validation.newJobs, Validation.wanted, map_map]
  rfl

theorem reported_key (jobs : List AgentJob) (job : AgentJob) :
    (reported jobs job).clientIdempotencyKey = job.clientIdempotencyKey := by
  rw [reported]
  cases hstored : storedJob jobs job with
  | none => rfl
  | some existing => exact (Table.find?_spec hstored).2.2

/-- A job that is reported accounts for its family exactly when the stored one does, or the family
can be counted. -/
theorem reportedJob_accounts {family : String} : v.Accounts (v.missesIn (v.missed item) family)
        (v.reportedJob env newId jobs item family).impact ↔
      match storedJob jobs (item.job env newId family
        ((v.missesIn (v.missed item) family).map v.resolve)) with
      | some job => v.Accounts (v.missesIn (v.missed item) family) job.impact
      | none => v.Countable (v.missesIn (v.missed item) family) := by
  rw [Validation.reportedJob, reported]
  split
  case h_1 job hstored => rw [hstored, Option.getD_some]
  case h_2 hstored =>
    rw [hstored, Option.getD_none]
    exact accounts_impactOf

theorem covers_once (jobs : List AgentJob) {miss : ValidationFindingMatch}
    (hmiss : miss ∈ v.missed item) :
    (((v.families (v.missed item)).map (v.reportedJob env newId jobs item)).filter fun job =>
      job.clientIdempotencyKey = some (env.familyKey item.id (v.family miss))).length = 1 := by
  rw [← countP_eq_length_filter, countP_map]
  have hfamily : v.family miss ∈ v.families (v.missed item) := mem_firsts.2 (mem_map_of_mem hmiss)
  have hcount := count_eq_one_of_mem (nodup_firsts ((v.missed item).map v.family)) hfamily
  rw [List.count] at hcount
  rw [← hcount]
  refine countP_congr fun family _ => ?_
  rw [Function.comp_apply, decide_eq_true_iff, beq_iff_eq, Validation.reportedJob, reported_key]
  constructor
  · intro hkey
    exact familyKey_family (Option.some.inj hkey)
  · rintro rfl
    rfl

theorem covers_total {affected : String → ℕ}
    (h : ∀ family ∈ v.families misses, affected family = (v.missesIn misses family).length) :
    ((v.families misses).map affected).sum = misses.length := by
  have hgroups := (flatMap_group_perm v.family misses).length_eq
  rw [length_flatMap] at hgroups
  rw [← hgroups]
  exact congrArg List.sum (map_congr_left h)

/-- The jobs that are reported for an item cover its misses exactly when each accounts for its
family. -/
theorem covers_iff : Covers v env item (v.missed item)
      ((v.families (v.missed item)).map (v.reportedJob env newId jobs item)) ↔
    ∀ family ∈ v.families (v.missed item), v.Accounts (v.missesIn (v.missed item) family)
      (v.reportedJob env newId jobs item family).impact := by
  constructor
  · intro h family hfamily
    obtain ⟨family', -, hkey, haccounts⟩ := h.accounted _ (mem_map_of_mem hfamily)
    rw [Validation.reportedJob, reported_key] at hkey
    obtain rfl := familyKey_family (Option.some.inj hkey)
    exact haccounts
  · intro h
    refine ⟨fun miss hmiss => covers_once jobs hmiss, ?_, ?_⟩
    · intro job hjob
      obtain ⟨family, hfamily, rfl⟩ := mem_map.1 hjob
      refine ⟨family, hfamily, ?_, h family hfamily⟩
      rw [Validation.reportedJob, reported_key]
      rfl
    · rw [map_map]
      exact covers_total fun family hfamily => (h family hfamily).affectedItems

theorem reported_stored (hjobs : jobs.Pairwise fun a b => ¬ SameKey a b) {stored : List AgentJob}
    {job : AgentJob} (hjob : job ∈ jobs) : reported stored job ∈ (createJobs stored jobs).1 := by
  rw [createJobs_eq hjobs, reported]
  cases hstored : storedJob stored job with
  | some existing => exact mem_append_left _ (Table.find?_spec hstored).1
  | none => exact mem_append_right _ (mem_filter.2 ⟨hjob, decide_eq_true hstored⟩)

/-- Misses are classified as claimed exactly when the jobs that are stored account for their
families and the other families can be counted. -/
theorem classifies_iff (h : Sound store) :
    store.Classifies env batchId newId ↔ store.Accountable env batchId newId := by
  constructor
  · rintro ⟨store', classified, hcall, -, hcovers, -⟩ item hitem misses hmisses family hfamily
    rw [classification_eq h] at hcall
    obtain ⟨-, rfl⟩ := Prod.mk.inj (Except.ok.inj hcall)
    obtain ⟨misses', hmisses', hitemCovers, -⟩ := hcovers _ (mem_map_of_mem hitem)
    obtain rfl : misses = store.validation.missed item :=
      Except.ok.inj (hmisses.symm.trans (missesOf_eq ⟨misses, hmisses⟩))
    obtain rfl : misses' = store.validation.missed item :=
      Except.ok.inj (hmisses'.symm.trans hmisses)
    rw [reportedJobs_eq] at hitemCovers
    exact reportedJob_accounts.1 (covers_iff.1 hitemCovers family hfamily)
  · intro haccountable
    refine ⟨_, _, classification_eq h env batchId newId, ?_, ?_, classification_again h⟩
    · rw [Store.classified, map_map]
      exact map_id _
    · intro entry hentry
      obtain ⟨item, hitem, rfl⟩ := mem_map.1 hentry
      have hmisses := missesOf_eq (h.readable hitem)
      refine ⟨_, hmisses, ?_, ?_⟩
      · rw [reportedJobs_eq]
        refine covers_iff.2 fun family hfamily => reportedJob_accounts.2 ?_
        exact haccountable item hitem _ hmisses family hfamily
      · intro job hjob
        obtain ⟨new, hnew, rfl⟩ := mem_map.1 hjob
        exact reported_stored (scored_keys h env batchId newId) (mem_flatMap.2 ⟨item, hitem, hnew⟩)

end Intel4Ops.ValidationProgram
