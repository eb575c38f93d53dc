import Intel4Ops.Economics.Baselines

/-!
# Recovery economics: the portfolio

`portfolio` weighs the latest calculation of every open opportunity with the allocation of one
overlap membership and adds the included values by currency. Nothing bounds the allocations of a
group together, so what a group contributes is bounded by its allocations, not by its largest claim;
an opportunity whose memberships disagree takes the one that the query happens to return last.
-/

namespace Intel4Ops.Economics

open Lib Lib.Decimal List

variable {db db' : Db}

/-! ## The queries -/

def latestCalculation (db : Db) (opportunityId : UUID) : Option EconomicCalculation :=
  ((db.calculations.filter (·.opportunityId = opportunityId)).insertionSort fun a b =>
    b.calculatedAt < a.calculatedAt ∨ b.calculatedAt = a.calculatedAt ∧ b.id ≤ a.id).head?

def latestPriority (db : Db) (opportunityId : UUID) : Option PrioritizationAssessment :=
  ((db.prioritizations.filter (·.opportunityId = opportunityId)).insertionSort fun a b =>
    b.calculatedAt < a.calculatedAt ∨ b.calculatedAt = a.calculatedAt ∧ b.id ≤ a.id).head?

def portfolioOpportunities (db : Db) (org : UUID) : List RecoveryOpportunity :=
  db.opportunities.filter fun o =>
    o.organizationId = org ∧ o.status ∉ [OpportunityStatus.rejected, .superseded, .cancelled]

def portfolioMembers (db : Db) (org : UUID) : List OpportunityOverlapMember :=
  db.overlapMembers.filter (·.organizationId = org)

/-! ## The summary -/

/-- One bucket of the totals. -/
structure CurrencyTotals where
  (grossExposure addressableExposure expectedRecoverableValue probabilityAdjustedValue recoveryCost
    expectedNetBenefit : ℚ)
  opportunityCount : ℕ

def CurrencyTotals.zero : CurrencyTotals := ⟨0, 0, 0, 0, 0, 0, 0⟩

structure RankingItem where
  opportunity : RecoveryOpportunity
  (priorityScore includedProbabilityAdjustedValue : Option ℚ)

structure PortfolioSummary where
  currencies : List (String × CurrencyTotals)
  byPriority : List (String × ℕ)
  byStatus : List (OpportunityStatus × ℕ)

def PriorityCategory.value : PriorityCategory → String
  | critical => "critical"
  | high => "high"
  | medium => "medium"
  | low => "low"
  | monitor => "monitor"
  | notEconomic => "not_economic"
  | blocked => "blocked"
  | insufficientEvidence => "insufficient_evidence"

/-- `allocation_by_opportunity`: of the memberships of an opportunity the last one read counts, and
an opportunity without one is included in full. -/
def allocationOf (members : List OpportunityOverlapMember) (opportunityId : UUID) :
    ℚ × InclusionStatus :=
  match (members.filter (·.opportunityId = opportunityId)).getLast? with
  | some m => (m.allocationPercentage, m.inclusionStatus)
  | none => (1, .included)

def includedValue (members : List OpportunityOverlapMember) (calculation : EconomicCalculation) :
    Except EconomicsError ℚ :=
  portfolioIncludedValue context calculation.result.probabilityAdjustedValue
    (allocationOf members calculation.opportunityId).1
    (allocationOf members calculation.opportunityId).2

/-- A calculation of the portfolio with its included value. -/
structure Included where
  calculation : EconomicCalculation
  value : ℚ

def CurrencyTotals.add (members : List OpportunityOverlapMember) (bucket : CurrencyTotals)
    (row : Included) : CurrencyTotals :=
  let (allocation, inclusion) := allocationOf members row.calculation.opportunityId
  let weighted (x : ℚ) : ℚ := if inclusion = .included then context (x * allocation) else 0
  let result := row.calculation.result
  { grossExposure := context (bucket.grossExposure + weighted result.grossExposure)
    addressableExposure :=
      context (bucket.addressableExposure + weighted result.addressableExposure)
    expectedRecoverableValue :=
      context (bucket.expectedRecoverableValue + weighted result.expectedRecoverableValue)
    probabilityAdjustedValue := context (bucket.probabilityAdjustedValue + row.value)
    recoveryCost := context (bucket.recoveryCost + weighted result.recoveryCost)
    expectedNetBenefit := context (bucket.expectedNetBenefit + weighted result.expectedNetBenefit)
    opportunityCount := bucket.opportunityCount + 1 }

/-- The calculation of an opportunity with its included value, if it has one. -/
def includedOf (db : Db) (members : List OpportunityOverlapMember) (o : RecoveryOpportunity) :
    Except EconomicsServiceError (Option Included) :=
  match latestCalculation db o.id with
  | none => .ok none
  | some calculation => do
    let value ← computed (includedValue members calculation)
    return some { calculation, value }

/-- `Counter`: every key with its number of occurrences, in the order of their first ones. -/
def counter {α : Type} [BEq α] (keys : List α) : List (α × ℕ) :=
  keys.eraseDups.map fun k => (k, keys.count k)

/-- The key of the ranking; a missing score and a zero score rank last. -/
def rankingKey (item : RankingItem) : ℚ :=
  match item.priorityScore with
  | some score => if score = 0 then -1 else score
  | none => -1

/-- The bucket of a currency. -/
def totalsOf (members : List OpportunityOverlapMember) (rows : List Included) (currency : String) :
    CurrencyTotals :=
  (rows.filter (·.calculation.currencyCode = currency)).foldl (CurrencyTotals.add members) .zero

/-- `portfolio`, over the opportunities and memberships in the order in which they are read. -/
def portfolio (db : Db) (opportunities : List RecoveryOpportunity)
    (members : List OpportunityOverlapMember) :
    Except EconomicsServiceError (PortfolioSummary × List RankingItem) := do
  let included ← opportunities.mapM (includedOf db members)
  let rows := included.filterMap id
  let currencies := (rows.map (·.calculation.currencyCode)).eraseDups.insertionSort (· ≤ ·)
  let ranking := opportunities.zipWith (fun o row =>
    { opportunity := o, priorityScore := (latestPriority db o.id).map (·.result.score)
      includedProbabilityAdjustedValue := row.map (·.value) }) included
  return (
    { currencies := currencies.map fun currency => (currency, totalsOf members rows currency)
      byPriority := counter (opportunities.map fun o =>
        (o.priorityCategory.map (·.value)).getD "unscored")
      byStatus := counter (opportunities.map (·.status)) },
    ranking.insertionSort fun a b => rankingKey b ≤ rankingKey a)

/-! ## Amounts -/

/-- An amount as the engine quantizes it: twelve places, and at most 28 digits in all. -/
structure IsAmount (x : ℚ) : Prop where
  nonneg : 0 ≤ x
  places : Rounding.HasPlaces 12 x
  lt : x < 10 ^ 16

variable {x y : ℚ} {c : EconomicCalculation}

theorem IsAmount.exact (h : IsAmount x) : Exact x := by
  refine exact_of_hasPlaces h.places ?_
  rw [abs_of_nonneg h.nonneg]
  exact h.lt

theorem money_ok (hx : 0 ≤ x) (h : money x = .ok y) : IsAmount y := by
  rw [money, orFail_eq_ok, quantize_eq_some] at h
  obtain ⟨rfl, hlt⟩ := h
  rw [abs_of_nonneg (halfUp.places_nonneg hx)] at hlt
  exact ⟨halfUp.places_nonneg hx, halfUp.hasPlaces_places 12 x, hlt⟩

theorem money_of_le (hx : 0 ≤ x) (hy : IsAmount y) (hxy : x ≤ y) :
    money x = .ok (halfUp.places 12 x) ∧ halfUp.places 12 x ≤ y := by
  have hle : halfUp.places 12 x ≤ y := by
    rw [← halfUp.places_of_hasPlaces hy.places]
    exact halfUp.places_mono hxy
  refine ⟨?_, hle⟩
  rw [money, orFail_eq_ok, quantize_eq_some]
  refine ⟨rfl, ?_⟩
  rw [abs_of_nonneg (halfUp.places_nonneg hx)]
  exact hle.trans_lt hy.lt

theorem rate_ok {name : String} (h : rate name x = .ok y) : y = x ∧ 0 ≤ x ∧ x ≤ 1 := by
  simp only [rate, bind_eq_ok, ensure_eq_ok, pure_eq_ok] at h
  obtain ⟨_, hx, rfl⟩ := h
  exact ⟨rfl, hx⟩

theorem calculateEconomics_ok {values : EconomicInput} {result : EconomicResult}
    (h : calculateEconomics context values = .ok result) :
    IsAmount result.probabilityAdjustedValue := by
  simp only [calculateEconomics, bind_eq_ok, ensure_eq_ok] at h
  obtain ⟨_, hpositive, addressability, haddressability, recoverability, hrecoverability, success,
    hsuccess, addressable, haddressable, recoverable, hrecoverable, adjusted, hadjusted, _, -, h⟩ := h
  obtain ⟨rfl, hrate, -⟩ := rate_ok haddressability
  obtain ⟨rfl, hrate', -⟩ := rate_ok hrecoverability
  obtain ⟨rfl, hrate'', -⟩ := rate_ok hsuccess
  have hgross : 0 ≤ values.grossExposure := not_lt.1 fun hlt => hpositive (.inl hlt)
  have h1 := money_ok (context_nonneg (mul_nonneg hgross hrate)) haddressable
  have h2 := money_ok (context_nonneg (mul_nonneg h1.nonneg hrate')) hrecoverable
  have h3 := money_ok (context_nonneg (mul_nonneg h2.nonneg hrate'')) hadjusted
  split at h
  case isTrue | isFalse =>
    simp only [bind_eq_ok, pure_eq_ok] at h
    obtain ⟨_, -, _, -, _, -, _, -, rfl⟩ := h
    exact h3

theorem computed_ok {α : Type} {x : Except EconomicsError α} {a : α} (h : computed x = .ok a) :
    x = .ok a := by
  cases x with
  | ok b => rw [Except.ok.inj h]
  | error e => cases h

theorem numericColumn_ok {column : String} {digits scale : ℕ} (hx : Rounding.HasPlaces scale x)
    (h : numericColumn column digits scale x = .ok y) : y = x := by
  rw [numericColumn, orFail_eq_ok, numeric_eq_some, halfUp.places_of_hasPlaces hx] at h
  exact h.1

theorem scenarioEconomics_ok {scenario : EconomicScenario} {result : EconomicResult}
    (h : scenarioEconomics scenario = .ok result) : IsAmount result.probabilityAdjustedValue := by
  simp only [scenarioEconomics, bind_eq_ok, pure_eq_ok] at h
  obtain ⟨computed, hcomputed, _, -, _, -, _, -, adjusted, hadjusted, _, -, _, -, _, -, _, -, rfl⟩ := h
  have hamount := calculateEconomics_ok (computed_ok hcomputed)
  rw [numericColumn_ok hamount.places hadjusted]
  exact hamount

/-! ## What holds of the weighted rows in every run -/

/-- An opportunity is in a group at most once, allocations are parts of one, and the values that
they weigh are amounts. -/
structure Weighed (db : Db) : Prop where
  members : Table.Unique (fun m => (m.overlapGroupId, m.opportunityId)) db.overlapMembers
  allocations : ∀ m ∈ db.overlapMembers, 0 ≤ m.allocationPercentage ∧ m.allocationPercentage ≤ 1
  amounts : ∀ c ∈ db.calculations, IsAmount c.result.probabilityAdjustedValue

theorem weighed_empty : Weighed Db.empty :=
  ⟨.nil, fun _ h => absurd h not_mem_nil, fun _ h => absurd h not_mem_nil⟩

theorem Weighed.step (h : Weighed db) {call : Call} (hstep : EconomicsStep db call db') :
    Weighed db' := by
  cases hstep with
  | same => exact h
  | aside | create | assume | prioritize | decide | approve =>
    exact ⟨h.members, h.allocations, h.amounts⟩
  | calculate o payload row auditEvents hcalculates =>
    refine ⟨h.members, h.allocations, fun c hc => ?_⟩
    rcases mem_append.1 hc with hc | hc
    · exact h.amounts c hc
    · rw [mem_singleton.1 hc]
      obtain ⟨scenario, -, hresult⟩ := hcalculates.economics
      exact scenarioEconomics_ok hresult
  | addMember row auditEvents hallocation hfresh =>
    refine ⟨?_, fun m hm => ?_, h.amounts⟩
    · refine Table.Unique.append h.members fun m hm hkey => hfresh m hm ?_
      exact Prod.mk.inj hkey
    · rcases mem_append.1 hm with hm | hm
      · exact h.allocations m hm
      · rw [mem_singleton.1 hm]
        exact hallocation

theorem weighed_run (calls : List Call) : Weighed (serve.run Db.empty calls) :=
  Service.run_invariant weighed_empty (fun h hok => h.step (serve_economicsStep hok)) calls

/-! ## Contributions -/

/-- The currency in which an opportunity contributes, once it is calculated. -/
def currencyOf (db : Db) (o : RecoveryOpportunity) : Option String :=
  (latestCalculation db o.id).map (·.currencyCode)

/-- What an opportunity contributes to the probability adjusted value of its currency. -/
def contribution (db : Db) (members : List OpportunityOverlapMember) (o : RecoveryOpportunity) :
    ℚ :=
  match latestCalculation db o.id with
  | some calculation => (includedValue members calculation).toOption.getD 0
  | none => 0

variable {opportunityId : UUID} {o : RecoveryOpportunity} {bound : ℚ}

theorem latestCalculation_some (h : latestCalculation db opportunityId = some c) :
    c ∈ db.calculations ∧ c.opportunityId = opportunityId := by
  have hmem := mem_of_mem_head? (Option.mem_def.2 h)
  rw [mem_insertionSort, mem_filter, decide_eq_true_eq] at hmem
  exact hmem

/-- The allocation of an opportunity is that of one of its memberships, or all of it. -/
theorem allocationOf_cases (members : List OpportunityOverlapMember) (opportunityId : UUID) :
    (∃ m ∈ members, m.opportunityId = opportunityId ∧
      allocationOf members opportunityId = (m.allocationPercentage, m.inclusionStatus)) ∨
    (∀ m ∈ members, m.opportunityId ≠ opportunityId) ∧
      allocationOf members opportunityId = (1, .included) := by
  unfold allocationOf
  split
  case h_1 m hlast =>
    have hmem := mem_of_getLast? hlast
    rw [mem_filter, decide_eq_true_eq] at hmem
    exact .inl ⟨m, hmem.1, hmem.2, rfl⟩
  case h_2 hnone =>
    refine .inr ⟨fun m hm ho => ?_, rfl⟩
    rw [List.getLast?_eq_none_iff, filter_eq_nil_iff] at hnone
    exact hnone m hm (decide_eq_true ho)

theorem allocationOf_eq {members : List OpportunityOverlapMember} {m : OpportunityOverlapMember}
    (hm : m ∈ members) (ho : m.opportunityId = opportunityId)
    (hagree : ∀ m' ∈ members, m'.opportunityId = opportunityId →
      m'.allocationPercentage = m.allocationPercentage ∧ m'.inclusionStatus = m.inclusionStatus) :
    allocationOf members opportunityId = (m.allocationPercentage, m.inclusionStatus) := by
  rcases allocationOf_cases members opportunityId with ⟨m', hm', ho', halloc⟩ | ⟨hnone, -⟩
  · rw [halloc, (hagree m' hm' ho').1, (hagree m' hm' ho').2]
  · exact absurd ho (hnone m hm)

/-- An included value is the weighted amount up to one unit of the last place, and not above the
amount. -/
theorem portfolioIncludedValue_bounds {amount allocation : ℚ} {inclusion : InclusionStatus}
    (hamount : IsAmount amount) (hlow : 0 ≤ allocation) (hhigh : allocation ≤ 1) :
    ∃ value, portfolioIncludedValue context amount allocation inclusion = .ok value ∧
      0 ≤ value ∧ value ≤ amount ∧
        value ≤ (if inclusion = .included then allocation else 0) * amount + 1 / 10 ^ 12 := by
  unfold portfolioIncludedValue
  by_cases hincluded : inclusion = .included
  · have hproduct : 0 ≤ amount * allocation := mul_nonneg hamount.nonneg hlow
    have hle : amount * allocation ≤ amount := mul_le_of_le_one_right hamount.nonneg hhigh
    have hctx := context_le_of_exact hproduct hamount.exact hle
    obtain ⟨hmoney, hplaces⟩ := money_of_le (context_nonneg hproduct) hamount hctx
    refine ⟨halfUp.places 12 (context (amount * allocation)), ?_,
      halfUp.places_nonneg (context_nonneg hproduct), hplaces, ?_⟩
    · rw [if_neg (not_not.2 hincluded), rate, ensure_of ⟨hlow, hhigh⟩]
      exact hmoney
    · rw [if_pos hincluded]
      have hquantized := (abs_le.1 (halfUp.places_near 12 (context (amount * allocation)))).2
      rcases hproduct.eq_or_lt with hzero | hpos
      · rw [← hzero, context_zero] at hquantized ⊢
        linarith
      · have hcontext := (abs_le.1 (context_near (amount * allocation))).2
        have hulp := ulp_le (k := 16) hpos (hle.trans_lt (by exact_mod_cast hamount.lt))
        norm_num at hulp hquantized ⊢
        linarith
  · refine ⟨0, if_pos hincluded, le_rfl, hamount.nonneg, ?_⟩
    rw [if_neg hincluded]
    norm_num

/-! ## The portfolio is served -/

variable {members : List OpportunityOverlapMember} {opportunities : List RecoveryOpportunity}

theorem Weighed.allocationOf_bounds (h : Weighed db) (hread : ∀ m ∈ members, m ∈ db.overlapMembers)
    (opportunityId : UUID) :
    0 ≤ (allocationOf members opportunityId).1 ∧ (allocationOf members opportunityId).1 ≤ 1 := by
  rcases allocationOf_cases members opportunityId with ⟨m, hm, -, halloc⟩ | ⟨-, halloc⟩
  · rw [halloc]
    exact h.allocations m (hread m hm)
  · rw [halloc]
    exact ⟨zero_le_one, le_rfl⟩

/-- The contribution of a calculated opportunity is its included value. -/
theorem Weighed.includedValue_eq (h : Weighed db) (hread : ∀ m ∈ members, m ∈ db.overlapMembers)
    (hc : latestCalculation db o.id = some c) :
    includedValue members c = .ok (contribution db members o) := by
  have hmem := (latestCalculation_some hc).1
  have halloc := h.allocationOf_bounds hread c.opportunityId
  obtain ⟨value, hvalue, -⟩ := @portfolioIncludedValue_bounds _ _
    (allocationOf members c.opportunityId).2 (h.amounts c hmem) halloc.1 halloc.2
  have hincluded : includedValue members c = .ok value := hvalue
  simp only [contribution, hc, hincluded]
  rfl

theorem mapM_eq_ok {α β ε : Type} {f : α → Except ε β} {g : α → β} {xs : List α}
    (h : ∀ x ∈ xs, f x = .ok (g x)) : xs.mapM f = .ok (xs.map g) := by
  induction xs with
  | nil => rfl
  | cons x xs ih =>
    rw [mapM_cons, h x mem_cons_self, ih fun y hy => h y (mem_cons_of_mem _ hy)]
    rfl

def rowOf (db : Db) (members : List OpportunityOverlapMember) (o : RecoveryOpportunity) :
    Option Included :=
  (latestCalculation db o.id).map fun c => ⟨c, contribution db members o⟩

theorem Weighed.mapM_includedOf (h : Weighed db) (hread : ∀ m ∈ members, m ∈ db.overlapMembers) :
    opportunities.mapM (includedOf db members) = .ok (opportunities.map (rowOf db members)) := by
  refine mapM_eq_ok fun o _ => ?_
  unfold includedOf rowOf
  cases hc : latestCalculation db o.id with
  | none => rfl
  | some c =>
    simp only [h.includedValue_eq hread hc]
    rfl

theorem totalsOf_probabilityAdjustedValue (rows : List Included) (bucket : CurrencyTotals) :
    (rows.foldl (CurrencyTotals.add members) bucket).probabilityAdjustedValue =
      (rows.map (·.value)).foldl (fun sum x => context (sum + x)) bucket.probabilityAdjustedValue := by
  induction rows generalizing bucket with
  | nil => rfl
  | cons row rows ih => exact ih (bucket.add members row)

theorem rows_of_currency (currency : String) :
    ((((opportunities.map (rowOf db members)).filterMap id).filter
      (·.calculation.currencyCode = currency)).map (·.value)) =
      (opportunities.filter (currencyOf db · = some currency)).map (contribution db members) := by
  induction opportunities with
  | nil => rfl
  | cons o opportunities ih =>
    cases hc : latestCalculation db o.id with
    | none => simpa [rowOf, currencyOf, hc] using ih
    | some c =>
      by_cases hcurrency : c.currencyCode = currency
      · simpa [rowOf, currencyOf, hc, hcurrency] using ih
      · simpa [rowOf, currencyOf, hc, hcurrency] using ih

/-! ## Groups -/

def includedAllocations (db : Db) (org groupId : UUID) : List ℚ :=
  ((portfolioMembers db org).filter fun m =>
    m.overlapGroupId = groupId ∧ m.inclusionStatus = .included).map (·.allocationPercentage)

def InGroup (db : Db) (org groupId : UUID) (o : RecoveryOpportunity) : Prop :=
  ∃ m ∈ portfolioMembers db org, m.opportunityId = o.id ∧ m.overlapGroupId = groupId

instance (org groupId : UUID) (o : RecoveryOpportunity) : Decidable (InGroup db org groupId o) :=
  inferInstanceAs (Decidable (∃ m ∈ portfolioMembers db org, _))

def OnlyInGroup (db : Db) (org groupId : UUID) (o : RecoveryOpportunity) : Prop :=
  InGroup db org groupId o ∧
    ∀ m ∈ portfolioMembers db org, m.opportunityId = o.id → m.overlapGroupId = groupId

instance (org groupId : UUID) (o : RecoveryOpportunity) :
    Decidable (OnlyInGroup db org groupId o) :=
  inferInstanceAs (Decidable (_ ∧ _))

def OpportunityOverlapMember.weight (m : OpportunityOverlapMember) : ℚ :=
  if m.inclusionStatus = .included then m.allocationPercentage else 0

theorem sum_weight_eq (rows : List OpportunityOverlapMember) (groupId : UUID) :
    ((rows.filter (·.overlapGroupId = groupId)).map (·.weight)).sum =
      ((rows.filter fun m => m.overlapGroupId = groupId ∧ m.inclusionStatus = .included).map
        (·.allocationPercentage)).sum := by
  induction rows with
  | nil => rfl
  | cons m rows ih =>
    by_cases hgroup : m.overlapGroupId = groupId
    · by_cases hincluded : m.inclusionStatus = .included
      · simpa [hgroup, hincluded, OpportunityOverlapMember.weight] using ih
      · simpa [hgroup, hincluded, OpportunityOverlapMember.weight] using ih
    · simpa [hgroup] using ih

theorem Weighed.contribution_le (h : Weighed db) {org groupId : UUID}
    (hread : members.Perm (portfolioMembers db org)) (ho : OnlyInGroup db org groupId o)
    (hc : latestCalculation db o.id = some c) (hbound : c.result.probabilityAdjustedValue ≤ bound) :
    ∃ m ∈ (portfolioMembers db org).filter (·.overlapGroupId = groupId), m.opportunityId = o.id ∧
      contribution db members o ≤ m.weight * bound + 1 / 10 ^ 12 := by
  obtain ⟨⟨m, hm, hmo, hmg⟩, honly⟩ := ho
  have hstored : ∀ m' ∈ portfolioMembers db org, m' ∈ db.overlapMembers :=
    fun m' hm' => mem_of_mem_filter hm'
  refine ⟨m, mem_filter.2 ⟨hm, decide_eq_true hmg⟩, hmo, ?_⟩
  obtain ⟨hmem, hco⟩ := latestCalculation_some hc
  have halloc : allocationOf members c.opportunityId =
      (m.allocationPercentage, m.inclusionStatus) := by
    refine allocationOf_eq (hread.mem_iff.2 hm) (hmo.trans hco.symm) fun m' hm' hmo' => ?_
    have hm' := hread.mem_iff.1 hm'
    have hkey : (m'.overlapGroupId, m'.opportunityId) = (m.overlapGroupId, m.opportunityId) := by
      rw [honly m' hm' (hmo'.trans hco), hmg, hmo', hmo, hco]
    obtain rfl := h.members.eq_of_key_eq (hstored m' hm') (hstored m hm) hkey
    exact ⟨rfl, rfl⟩
  obtain ⟨hlow, hhigh⟩ := h.allocations m (hstored m hm)
  obtain ⟨value, hvalue, -, -, hle⟩ := @portfolioIncludedValue_bounds _ _ m.inclusionStatus
    (h.amounts c hmem) hlow hhigh
  have hincluded := h.includedValue_eq (fun m' hm' => hstored m' (hread.mem_iff.1 hm')) hc
  rw [includedValue, halloc] at hincluded
  obtain rfl := Except.ok.inj (hvalue.symm.trans hincluded)
  have hweight : 0 ≤ m.weight := by
    unfold OpportunityOverlapMember.weight
    split
    · exact hlow
    · exact le_rfl
  refine hle.trans (add_le_add_left ?_ _)
  exact mul_le_mul_of_nonneg_left hbound hweight

/-- When every item is charged to a row of its own, up to a slack, the items together are charged to
the rows. -/
theorem sum_le_of_charged {ι ρ κ : Type} [DecidableEq ρ] {key : ρ → κ} {name : ι → κ} {w : ρ → ℚ}
    {f : ι → ℚ} {slack : ℚ} (hbound : 0 ≤ bound) {items : List ι} {rows : List ρ}
    (hnames : (items.map name).Nodup) (hw : ∀ m ∈ rows, 0 ≤ w m)
    (h : ∀ i ∈ items, ∃ m ∈ rows, key m = name i ∧ f i ≤ w m * bound + slack) :
    (items.map f).sum ≤ (rows.map w).sum * bound + items.length * slack := by
  induction items generalizing rows with
  | nil =>
    have hsum : 0 ≤ (rows.map w).sum := sum_nonneg fun x hx => by
      obtain ⟨m, hm, rfl⟩ := mem_map.1 hx
      exact hw m hm
    simpa using mul_nonneg hsum hbound
  | cons i items ih =>
    rw [map_cons, nodup_cons] at hnames
    obtain ⟨m, hm, hkey, hle⟩ := h i mem_cons_self
    -- The other items are charged to the other rows.
    have hrest := @ih (rows.erase m) hnames.2
      (fun m' hm' => hw m' (mem_of_mem_erase hm')) fun j hj => by
        obtain ⟨m', hm', hkey', hle'⟩ := h j (mem_cons_of_mem _ hj)
        refine ⟨m', (mem_erase_of_ne fun heq => hnames.1 ?_).2 hm', hkey', hle'⟩
        rw [← hkey, ← heq, hkey']
        exact mem_map_of_mem hj
    rw [← sum_map_erase w hm, map_cons, sum_cons, length_cons]
    push_cast
    linarith

/-! ## What a portfolio counts -/

/-- What holds of a portfolio that reads the opportunities and the memberships in these orders. -/
structure Counted (db : Db) (org : UUID) (opportunities : List RecoveryOpportunity)
    (members : List OpportunityOverlapMember) (summary : PortfolioSummary) : Prop where
  totals : ∀ row ∈ summary.currencies, row.2.probabilityAdjustedValue =
    ((opportunities.filter (currencyOf db · = some row.1)).map (contribution db members)).foldl
      (fun sum x => context (sum + x)) 0
  listed : ∀ o ∈ opportunities, ∀ currency ∈ currencyOf db o,
    currency ∈ summary.currencies.map (·.1)
  weighted : ∀ o ∈ opportunities, ∀ c ∈ latestCalculation db o.id,
    0 ≤ contribution db members o ∧
      contribution db members o ≤ c.result.probabilityAdjustedValue ∧
      ∃ allocation inclusion,
        ((∀ m ∈ portfolioMembers db org, m.opportunityId ≠ o.id) ∧
          allocation = 1 ∧ inclusion = .included ∨
        ∃ m ∈ portfolioMembers db org, m.opportunityId = o.id ∧
          allocation = m.allocationPercentage ∧ inclusion = m.inclusionStatus) ∧
        portfolioIncludedValue context c.result.probabilityAdjustedValue allocation inclusion =
          .ok (contribution db members o)
  ordered : ∀ o ∈ opportunities,
    (∀ m ∈ portfolioMembers db org, ∀ m' ∈ portfolioMembers db org, m.opportunityId = o.id →
      m'.opportunityId = o.id → m'.allocationPercentage = m.allocationPercentage ∧
        m'.inclusionStatus = m.inclusionStatus) →
    ∀ members' : List OpportunityOverlapMember, members'.Perm (portfolioMembers db org) →
      contribution db members' o = contribution db members o
  group : ∀ groupId currency bound, 0 ≤ bound →
    let only := opportunities.filter fun o =>
      currencyOf db o = some currency ∧ OnlyInGroup db org groupId o
    (∀ o ∈ only, ∀ c ∈ latestCalculation db o.id, c.result.probabilityAdjustedValue ≤ bound) →
    (only.map (contribution db members)).sum ≤
      (includedAllocations db org groupId).sum * bound + only.length / 10 ^ 12

/-- The portfolio of the organization is served, and counts every opportunity once. -/
def CountsOnce (db : Db) (org : UUID) : Prop :=
  (∀ m ∈ portfolioMembers db org, 0 ≤ m.allocationPercentage ∧ m.allocationPercentage ≤ 1) ∧
  ∀ opportunities members, opportunities.Perm (portfolioOpportunities db org) →
    members.Perm (portfolioMembers db org) → ∃ summary ranking,
      portfolio db opportunities members = .ok (summary, ranking) ∧
        Counted db org opportunities members summary

theorem Weighed.countsOnce (h : Weighed db) (hids : Table.Unique (·.id) db.opportunities)
    (org : UUID) : CountsOnce db org := by
  have hstored : ∀ m ∈ portfolioMembers db org, m ∈ db.overlapMembers :=
    fun m hm => mem_of_mem_filter hm
  refine ⟨fun m hm => h.allocations m (hstored m hm), fun opportunities members hos hms => ?_⟩
  have hread : ∀ m ∈ members, m ∈ db.overlapMembers := fun m hm => hstored m (hms.mem_iff.1 hm)
  simp only [portfolio, h.mapM_includedOf hread]
  refine ⟨_, _, rfl, ?_, ?_, ?_, ?_, ?_⟩
  · intro row hrow
    obtain ⟨currency, -, rfl⟩ := mem_map.1 hrow
    rw [totalsOf, totalsOf_probabilityAdjustedValue, rows_of_currency]
    rfl
  · intro o ho currency hcurrency
    simp only [map_map, mem_map, mem_insertionSort, mem_eraseDups]
    obtain ⟨c, hc, rfl⟩ := Option.map_eq_some_iff.1 (Option.mem_def.1 hcurrency)
    refine ⟨c.currencyCode, ⟨⟨c, contribution db members o⟩, ?_, rfl⟩, rfl⟩
    refine mem_filterMap.2 ⟨some ⟨c, contribution db members o⟩, ?_, rfl⟩
    exact mem_map.2 ⟨o, ho, by rw [rowOf, hc]; rfl⟩
  · intro o ho c hc
    have hc := Option.mem_def.1 hc
    obtain ⟨hmem, hco⟩ := latestCalculation_some hc
    have hincluded := h.includedValue_eq hread hc
    have halloc := h.allocationOf_bounds hread c.opportunityId
    obtain ⟨value, hvalue, hnonneg, hle, -⟩ := @portfolioIncludedValue_bounds _ _
      (allocationOf members c.opportunityId).2 (h.amounts c hmem) halloc.1 halloc.2
    have hsame : value = contribution db members o := Except.ok.inj (hvalue.symm.trans hincluded)
    rw [hsame] at hvalue hnonneg hle
    refine ⟨hnonneg, hle, _, _, ?_, hvalue⟩
    rcases allocationOf_cases members c.opportunityId with ⟨m, hm, hmo, hm'⟩ | ⟨hnone, hm'⟩
    · rw [hm']
      exact .inr ⟨m, hms.mem_iff.1 hm, hmo.trans hco, rfl, rfl⟩
    · rw [hm']
      exact .inl ⟨fun m hm hmo => hnone m (hms.mem_iff.2 hm) (hmo.trans hco.symm), rfl, rfl⟩
  · intro o ho hagree members' hms'
    unfold contribution
    cases hc : latestCalculation db o.id with
    | none => rfl
    | some c =>
      have hco := (latestCalculation_some hc).2
      have hsame : allocationOf members' c.opportunityId = allocationOf members c.opportunityId := by
        rcases allocationOf_cases members c.opportunityId with ⟨m, hm, hmo, halloc⟩ | ⟨hnone, halloc⟩
        · have hm := hms.mem_iff.1 hm
          rw [halloc]
          refine allocationOf_eq (hms'.mem_iff.2 hm) hmo fun m' hm' hmo' => ?_
          exact hagree m hm m' (hms'.mem_iff.1 hm') (hmo.trans hco) (hmo'.trans hco)
        · rcases allocationOf_cases members' c.opportunityId with ⟨m, hm, hmo, -⟩ | ⟨-, halloc'⟩
          · exact absurd hmo (hnone m (hms.mem_iff.2 (hms'.mem_iff.1 hm)))
          · rw [halloc, halloc']
      simp only [includedValue, hsame]
  · intro groupId currency bound hbound only hclaims
    have hnames : (only.map (·.id)).Nodup := by
      have hunique : ((portfolioOpportunities db org).map (·.id)).Nodup := hids.filter _
      exact (((hos.map _).nodup_iff.2 hunique).sublist (filter_sublist.map _))
    have hweights : ∀ m ∈ (portfolioMembers db org).filter (·.overlapGroupId = groupId),
        0 ≤ m.weight := by
      intro m hm
      unfold OpportunityOverlapMember.weight
      split
      · exact (h.allocations m (hstored m (mem_of_mem_filter hm))).1
      · exact le_rfl
    have hcharged := sum_le_of_charged hbound hnames hweights fun o ho => by
      obtain ⟨hmem, hcond⟩ := mem_filter.1 ho
      obtain ⟨hcurrency, honly⟩ := of_decide_eq_true hcond
      obtain ⟨c, hc, -⟩ := Option.map_eq_some_iff.1 hcurrency
      exact h.contribution_le hms honly hc (hclaims o ho c hc)
    rw [sum_weight_eq] at hcharged
    calc (only.map (contribution db members)).sum ≤ _ := hcharged
      _ = (includedAllocations db org groupId).sum * bound + only.length / 10 ^ 12 := by
        rw [includedAllocations, mul_one_div]

/-- In every state of a run the portfolio counts every opportunity once. -/
theorem countsOnce_run (calls : List Call) (org : UUID) :
    CountsOnce (serve.run Db.empty calls) org :=
  (weighed_run calls).countsOnce (versioned_run calls).opportunityIds org

/-! ## Two full claims on one group -/

/-- The portfolio never double counts: the included allocations of a group are parts of one, the
opportunities of a group contribute at most the largest of their values in each currency, and no
contribution depends on the order in which the memberships are read. -/
structure NoDoubleCount (db : Db) (org : UUID) : Prop where
  allocations : ∀ groupId, (includedAllocations db org groupId).sum ≤ 1
  group : ∀ groupId currency members bound, members.Perm (portfolioMembers db org) → 0 ≤ bound →
    let inGroup := (portfolioOpportunities db org).filter fun o =>
      currencyOf db o = some currency ∧ InGroup db org groupId o
    (∀ o ∈ inGroup, ∀ c ∈ latestCalculation db o.id, c.result.probabilityAdjustedValue ≤ bound) →
    (inGroup.map (contribution db members)).sum ≤ bound
  ordered : ∀ members members' : List OpportunityOverlapMember,
    members.Perm (portfolioMembers db org) → members'.Perm (portfolioMembers db org) →
    ∀ o ∈ portfolioOpportunities db org, contribution db members o = contribution db members' o

namespace FullClaims

open Recalculated

def member (opportunityId : UUID) (allocation : UnitInterval) : OverlapMemberCreate :=
  { opportunityId, parentOpportunityId := none, allocationPercentage := allocation
    inclusionStatus := .included }

theorem one_unit : (0 : ℚ) ≤ 1 ∧ (1 : ℚ) ≤ 1 := by norm_num

/-- Two opportunities of 12.5 each, and both are included in group 70 in full. -/
def calls : List Call :=
  [send 1 (.create ⟨"first", "source 1", "EUR"⟩),
    send 2 (.create ⟨"second", "source 2", "EUR"⟩),
    send 3 (.createScenario 10 (scenario "base")),
    send 4 (.createScenario 20 (scenario "base")),
    send 5 (.calculate 10 ⟨30, "base"⟩),
    send 6 (.calculate 20 ⟨40, "base"⟩),
    send 7 (.createOverlapGroup "downtime"),
    send 8 (.addOverlapMember 70 (member 10 ⟨1, one_unit⟩)),
    send 9 (.addOverlapMember 70 (member 20 ⟨1, one_unit⟩))]

/-- The group contributes twice the value that both opportunities claim. -/
theorem not_noDoubleCount : ¬ ∀ (calls : List Call) (org : UUID),
    NoDoubleCount (serve.run Db.empty calls) org := by
  intro h
  have hgroup := (h calls 1).group 70 "EUR" _ (25 / 2) (List.Perm.refl _) (by norm_num)
    (by decide +kernel)
  revert hgroup
  decide +kernel

end FullClaims

end Intel4Ops.Economics
