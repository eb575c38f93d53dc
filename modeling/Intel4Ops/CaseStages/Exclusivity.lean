import Intel4Ops.CaseStages.RateStage
import Intel4Ops.CaseStages.Units
import Intel4Ops.Revenue.Soundness

/-!
# Bills of two subjects

A work order and its contract stand in one row of a bill, so both stages keep a row from being
reported for both. In the revenue variance stage every dataset that is looked at is claimed. In the
rate compliance stage only a dataset with an explicit applied rate is claimed, so a bill without one
may be reported twice: once for its work order and once for its contract.
-/

namespace Intel4Ops.CaseStages

open Lib List Option
open Revenue (AppliedRateDatasetFields CompliancePass RateFinding Raised VarianceRequest
  complianceOutcomes runRevenueAmountVariance sourceRows expectedLines actualLine)

variable {Cell : Type} {env : Env Cell} {case : Case Cell}

/-! ## Sources -/

variable {tier : SubjectType} {datasetId : UUID}

theorem of_mem_rateSources {claimed : List UUID} {source : RateSource Cell}
    (h : source ∈ rateSources env case tier claimed) :
    (∃ subject, source.fields = (rateSource source.dataset subject).fields) ∧
      source.dataset ∈ case.datasets ∧ ¬ (source.dataset.id ∈ claimed ∧ Claims source.dataset) := by
  obtain ⟨cd, hcd, h⟩ := mem_filterMap.1 h
  obtain ⟨df, -, h⟩ := bind_eq_some_iff.1 h
  obtain ⟨_, hguard, h⟩ := bind_eq_some_iff.1 h
  obtain ⟨subject, -, h⟩ := bind_eq_some_iff.1 h
  obtain rfl := some.inj h
  exact ⟨⟨subject, rfl⟩, hcd, (guard_eq_some' ()).1 hguard⟩

theorem dataset_swapped (source : Source Cell) : source.swapped.dataset = source.dataset ∧
      source.swapped.fields.datasetId = source.fields.datasetId := by
  rw [Source.swapped]
  split
  · exact ⟨rfl, rfl⟩
  · exact ⟨rfl, rfl⟩

theorem of_mem_revenueSources {claimed : List UUID} {source : Source Cell}
    (h : source ∈ revenueSources env case tier claimed) :
    source.fields.datasetId = source.dataset.datasetId ∧ source.dataset ∈ case.datasets ∧
      source.dataset.id ∉ claimed := by
  have hsources : ∀ source ∈ (case.datasets.filterMap fun cd => do
      let df ← cd.canonicalFrame
      guard (cd.id ∉ claimed)
      let subject ← resolveSubjectField env case cd df tier.concept (!isRateCardShaped cd)
      return revenueSource env cd subject),
      source.fields.datasetId = source.dataset.datasetId ∧ source.dataset ∈ case.datasets ∧
        source.dataset.id ∉ claimed := by
    intro source h
    obtain ⟨cd, hcd, h⟩ := mem_filterMap.1 h
    obtain ⟨df, -, h⟩ := bind_eq_some_iff.1 h
    obtain ⟨_, hguard, h⟩ := bind_eq_some_iff.1 h
    obtain ⟨subject, -, h⟩ := bind_eq_some_iff.1 h
    obtain rfl := some.inj h
    exact ⟨rfl, hcd, (guard_eq_some' ()).1 hguard⟩
  rw [revenueSources] at h
  split at h
  · obtain ⟨source, hsource, rfl⟩ := mem_map.1 h
    rw [(dataset_swapped source).1, (dataset_swapped source).2]
    exact hsources source hsource
  · exact hsources source h

theorem not_claims_of_shared {pass pass' : RatePass Cell} (hpass : pass ∈ rateStage env case)
    (hpass' : pass' ∈ rateStage env case) (htier : pass.tier ≠ pass'.tier)
    {source source' : RateSource Cell} (hsource : source ∈ pass.sources)
    (hsource' : source' ∈ pass'.sources) (hsame : source.dataset = source'.dataset) :
    ¬ Claims source.dataset := by
  intro hclaims
  rw [rateStage, ratePasses_eq] at hpass hpass'
  obtain ⟨p, hp, rfl⟩ := mem_map.1 hpass
  obtain ⟨p', hp', rfl⟩ := mem_map.1 hpass'
  have htake : ∀ tier claimed, ∀ source ∈ rateSources env case tier claimed,
      ∀ id ∈ rateClaims source, id ∉ claimed := by
    intro tier claimed source hsource id hid hclaimed
    rw [rateClaims] at hid
    split at hid
    case isTrue h =>
      obtain rfl := mem_singleton.1 hid
      exact (of_mem_rateSources hsource).2.2 ⟨hclaimed, h⟩
    case isFalse => cases hid
  have hdisjoint := Claiming.disjoint_of_ne htake hp hp' htier source hsource source' hsource'
    source.dataset.id
  rw [rateClaims, rateClaims, ← hsame, if_pos hclaims] at hdisjoint
  exact hdisjoint mem_cons_self mem_cons_self

theorem tier_eq_of_shared {pass pass' : StagePass Cell} (hpass : pass ∈ revenueStage env case)
    (hpass' : pass' ∈ revenueStage env case) {source source' : Source Cell}
    (hsource : source ∈ pass.sources) (hsource' : source' ∈ pass'.sources)
    (hsame : source.dataset = source'.dataset) : pass.tier = pass'.tier := by
  rw [revenueStage, revenuePasses_eq] at hpass hpass'
  obtain ⟨p, hp, rfl⟩ := mem_map.1 hpass
  obtain ⟨p', hp', rfl⟩ := mem_map.1 hpass'
  have htake : ∀ tier claimed, ∀ source ∈ revenueSources env case tier claimed,
      ∀ id ∈ [source.dataset.id], id ∉ claimed := by
    intro tier claimed source hsource id hid
    rw [mem_singleton.1 hid]
    exact (of_mem_revenueSources hsource).2.2
  by_contra htier
  refine Claiming.disjoint_of_ne htake hp hp' htier source hsource source' hsource'
    source.dataset.id mem_cons_self ?_
  rw [hsame]
  exact mem_cons_self

/-! ## Where findings come from -/

section Origins

variable {env : Revenue.Env Cell} {pass : CompliancePass Cell}

variable {c : Revenue.RateComparison} {s : Revenue.AppliedRow Cell}

theorem comparisonFinding_source {f : RateFinding}
    (h : Revenue.comparisonFinding env pass c = .ok (some f)) :
    f.primaryDatasetId = c.datasetId ∧ f.sourceRow = c.sourceRow := by
  rw [Revenue.comparisonFinding] at h
  obtain ⟨variance, -, h⟩ := bind_eq_ok.1 h
  split at h
  case isTrue => exact absurd (pure_eq_ok.1 h) (some_ne_none f).symm
  case isFalse =>
    rw [Revenue.varianceFinding] at h
    iterate 3 obtain ⟨_, -, h⟩ := bind_eq_ok.1 h
    obtain ⟨trustAssessmentId, -, rfl⟩ := map_eq_some_iff.1 (pure_eq_ok.1 h)
    exact ⟨rfl, rfl⟩

theorem datasetId_of_mem_appliedRows {ds : AppliedRateDatasetFields Cell}
    (h : s ∈ Revenue.appliedRows env pass ds) : s.dataset.datasetId = ds.datasetId := by
  rw [Revenue.appliedRows] at h
  split at h
  · cases h
  · obtain ⟨row, -, h⟩ := mem_filterMap.1 h
    obtain ⟨subject, -, rfl⟩ := map_eq_some_iff.1 h
    rfl

theorem source_of_mem_explicitComparisons (h : c ∈ Revenue.explicitComparisons env pass) :
    ∃ ds ∈ pass.datasets, ds.actualRateField.isSome = true ∧ c.datasetId = ds.datasetId := by
  obtain ⟨ds, hds, h⟩ := mem_flatMap.1 h
  refine ⟨ds, hds, ?_⟩
  rw [Revenue.explicitComparisonsOf] at h
  split at h
  case h_1 actualField unitField currencyField hactual _ _ =>
    obtain ⟨s, hs, h⟩ := mem_filterMap.1 h
    rw [Revenue.explicitComparison] at h
    iterate 8 obtain ⟨_, -, h⟩ := bind_eq_some_iff.1 h
    obtain rfl := some.inj h
    refine ⟨?_, datasetId_of_mem_appliedRows hs⟩
    obtain ⟨hfield, -⟩ := filter_eq_some_iff.1 hactual
    rw [hfield]
    rfl
  case h_2 => cases h

theorem source_billingReading {line : Revenue.DerivedInputLine Cell}
    (h : (Revenue.billingReading env s).toOption = some line) : line.source = s := by
  rw [Revenue.billingReading] at h
  split at h
  · cases h
  · rw [Revenue.toOption_ofOption] at h
    obtain ⟨value, -, h⟩ := bind_eq_some_iff.1 h
    obtain ⟨currency, -, h⟩ := bind_eq_some_iff.1 h
    obtain rfl := some.inj h
    rfl

theorem source_of_mem_rates {rates : List (Revenue.DerivedRate Cell)}
    (h : Revenue.deriveActualAppliedRates env pass = .ok rates) {d : Revenue.DerivedRate Cell}
    (hd : d ∈ rates) : ∃ ds ∈ pass.datasets, d.billing.source.dataset.datasetId = ds.datasetId := by
  have hbilled := (Revenue.soundRate h hd).billed
  have hmem : d.billing ∈ (Revenue.subjectReadings env pass d.subjectKey).filterMap
      (·.billing.toOption) := hbilled ▸ mem_cons_self
  obtain ⟨r, hr, hbilling⟩ := mem_filterMap.1 hmem
  obtain ⟨s, hs, hread⟩ := mem_filterMap.1 hr
  have hok : Revenue.readRow env s = .ok r := by
    cases hresult : Revenue.readRow env s with
    | error e =>
      rw [hresult] at hread
      cases hread
    | ok found =>
      rw [hresult] at hread
      exact congrArg _ (some.inj hread)
  have hsource : d.billing.source = s := by
    rw [Revenue.readRow] at hok
    split at hok
    · obtain rfl := Except.ok.inj hok
      cases hbilling
    · obtain ⟨component, -, rfl⟩ := map_eq_ok.1 hok
      exact source_billingReading hbilling
  obtain ⟨ds, hds, hrow⟩ := mem_flatMap.1 (mem_filter.1 hs).1
  split at hrow
  · exact ⟨ds, hds, hsource ▸ datasetId_of_mem_appliedRows hrow⟩
  · cases hrow

end Origins

theorem mem_of_mem_published {α : Type} {publish : α → Except Raised Unit} {a : α}
    {outcomes : List (Except Raised (Option α))} (h : a ∈ published publish outcomes) :
    .ok (some a) ∈ outcomes := by
  induction outcomes with
  | nil => cases h
  | cons outcome outcomes ih =>
    match outcome with
    | .error _ => cases h
    | .ok none => exact mem_cons_of_mem _ (ih h)
    | .ok (some b) =>
      rw [published] at h
      split at h
      · cases h
      · rcases mem_cons.1 h with rfl | h
        · exact mem_cons_self
        · exact mem_cons_of_mem _ (ih h)

variable {publish : SubjectType × RateFinding → Except Raised Unit}

theorem exists_comparison {f : RateFinding} (h : (tier, f) ∈ rateFindings env publish case) :
    ∃ pass ∈ rateStage env case, pass.tier = tier ∧ ∃ c,
      Revenue.comparisonFinding env.toEnv (pass.compliancePass case) c = .ok (some f) ∧
        (c ∈ Revenue.explicitComparisons env.toEnv (pass.compliancePass case) ∨
          ∃ rates, Revenue.deriveActualAppliedRates env.toEnv (pass.compliancePass case) =
            .ok rates ∧ ∃ d ∈ rates,
              Revenue.derivedComparison env.toEnv (pass.compliancePass case) d = some c) := by
  obtain ⟨pass, hpass, hmem⟩ := mem_flatMap.1 (mem_of_mem_published h)
  obtain ⟨outcome, houtcome, hmap⟩ := mem_map.1 hmem
  obtain ⟨finding, rfl, hfinding⟩ := map_eq_ok.1 hmap
  obtain ⟨g, rfl, hg⟩ := map_eq_some_iff.1 hfinding
  obtain ⟨rfl, rfl⟩ := Prod.mk.inj hg
  refine ⟨pass, hpass, rfl, ?_⟩
  rw [complianceOutcomes] at houtcome
  split at houtcome
  case isTrue => cases houtcome
  case isFalse =>
    rcases mem_append.1 houtcome with hexplicit | hderived
    · obtain ⟨c, hc, hfinding⟩ := mem_map.1 hexplicit
      exact ⟨c, hfinding, .inl hc⟩
    · split at hderived
      case h_1 => exact absurd (mem_singleton.1 hderived) (by rintro ⟨⟩)
      case h_2 comparisons hcomparisons =>
        obtain ⟨c, hc, hfinding⟩ := mem_map.1 hderived
        obtain ⟨rates, hrates, rfl⟩ := map_eq_ok.1 hcomparisons
        obtain ⟨d, hd, hdc⟩ := mem_filterMap.1 hc
        exact ⟨c, hfinding, .inr ⟨rates, hrates, d, (mem_filter.1 hd).1, hdc⟩⟩

theorem derivedComparison_source {env : Revenue.Env Cell} {pass : CompliancePass Cell}
    {d : Revenue.DerivedRate Cell} {c : Revenue.RateComparison}
    (h : Revenue.derivedComparison env pass d = some c) :
    c.datasetId = d.billing.source.dataset.datasetId ∧
      c.sourceRow = d.billing.source.row.index := by
  rw [Revenue.derivedComparison] at h
  iterate 3 obtain ⟨_, -, h⟩ := bind_eq_some_iff.1 h
  obtain rfl := some.inj h
  exact ⟨rfl, rfl⟩

/-! ## Rows that are reported once -/

/-- A case whose datasets are different ones, as the store demands. -/
structure DistinctCase (Cell : Type) extends Case Cell where
  distinctDatasets : (datasets.map (·.datasetId)).Nodup

theorem DistinctCase.eq_of_datasetId (case : DistinctCase Cell) {cd cd' : CaseDataset Cell}
    (hcd : cd ∈ case.datasets) (hcd' : cd' ∈ case.datasets) (h : cd.datasetId = cd'.datasetId) :
    cd = cd' :=
  inj_on_of_nodup_map case.distinctDatasets hcd hcd' h

/-- A row stands on the actual side of a rate finding for a subject type. -/
def RateRow (env : Env Cell) (publish : SubjectType × RateFinding → Except Raised Unit)
    (case : Case Cell) (tier : SubjectType) (datasetId : UUID) (index : String) : Prop :=
  ∃ f, (tier, f) ∈ rateFindings env publish case ∧ f.primaryDatasetId = datasetId ∧
    f.sourceRow = index

/-- A row contributes lines to a variance finding for a subject type. -/
def AmountRow (env : Env Cell) (publish : VarianceRequest → Except Raised Unit)
    (case : Case Cell) (tier : SubjectType) (datasetId : UUID) (index : String) : Prop :=
  ∃ pass ∈ revenueStage env case, pass.tier = tier ∧
    ∃ s ∈ sourceRows env.toEnv (pass.revenuePass case),
      s.dataset.datasetId = datasetId ∧ s.row.index = index ∧
        ((∃ lines, expectedLines env.toEnv (pass.revenuePass case) s = .ok lines ∧ lines ≠ []) ∨
          (actualLine env.toEnv s).isSome = true) ∧
            ∃ request ∈ runRevenueAmountVariance env.toEnv publish (pass.revenuePass case),
              request.subjectKey = s.subject

/-- In neither stage a row is reported for two subject types. -/
structure ReportedOnce (env : Env Cell)
    (publishRate : SubjectType × RateFinding → Except Raised Unit)
    (publishAmount : VarianceRequest → Except Raised Unit) (case : Case Cell) : Prop where
  rate : ∀ tier tier' datasetId index, RateRow env publishRate case tier datasetId index →
    RateRow env publishRate case tier' datasetId index → tier = tier'
  amount : ∀ tier tier' datasetId index, AmountRow env publishAmount case tier datasetId index →
    AmountRow env publishAmount case tier' datasetId index → tier = tier'

/-- The rate that is derived from the bill in a row is published for a subject of the type. -/
def DerivedRow (env : Env Cell) (publish : SubjectType × RateFinding → Except Raised Unit)
    (case : Case Cell) (tier : SubjectType) (datasetId : UUID) (index : String) : Prop :=
  ∃ pass ∈ rateStage env case, pass.tier = tier ∧
    ∃ rates, Revenue.deriveActualAppliedRates env.toEnv (pass.compliancePass case) = .ok rates ∧
      ∃ d ∈ rates, d.billing.source.dataset.datasetId = datasetId ∧
        d.billing.source.row.index = index ∧
          ∃ c f, Revenue.derivedComparison env.toEnv (pass.compliancePass case) d = some c ∧
            Revenue.comparisonFinding env.toEnv (pass.compliancePass case) c = .ok (some f) ∧
              (tier, f) ∈ rateFindings env publish case

theorem tier_of_amountRow (case : DistinctCase Cell)
    {publish : VarianceRequest → Except Raised Unit} {tier' : SubjectType} {index : String}
    (h : AmountRow env publish case.toCase tier datasetId index)
    (h' : AmountRow env publish case.toCase tier' datasetId index) : tier = tier' := by
  have hsource : ∀ {pass : StagePass Cell} {s}, pass ∈ revenueStage env case.toCase →
      s ∈ sourceRows env.toEnv (pass.revenuePass case.toCase) → ∃ source ∈ pass.sources,
        source.dataset ∈ case.datasets ∧ source.dataset.datasetId = s.dataset.datasetId := by
    intro pass s hpass hs
    obtain ⟨source, hsource, hfields⟩ := mem_map.1 (Revenue.mem_sourceRows.1 hs).1
    obtain ⟨claimed, hclaimed⟩ := exists_revenueSources hpass
    obtain ⟨hid, hmem, -⟩ := of_mem_revenueSources (hclaimed ▸ hsource)
    exact ⟨source, hsource, hmem, by rw [← hid, hfields]⟩
  obtain ⟨pass, hpass, rfl, s, hs, hid, -⟩ := h
  obtain ⟨pass', hpass', rfl, s', hs', hid', -⟩ := h'
  obtain ⟨source, hsrc, hmem, hdataset⟩ := hsource hpass hs
  obtain ⟨source', hsrc', hmem', hdataset'⟩ := hsource hpass' hs'
  refine tier_eq_of_shared hpass hpass' hsrc hsrc' (case.eq_of_datasetId hmem hmem' ?_)
  rw [hdataset, hdataset', hid, hid']

theorem exists_source_of_rateRow {publish : SubjectType × RateFinding → Except Raised Unit}
    {index : String} (h : RateRow env publish case tier datasetId index) :
    ∃ pass ∈ rateStage env case, pass.tier = tier ∧ ∃ source ∈ pass.sources,
      source.dataset ∈ case.datasets ∧ source.dataset.datasetId = datasetId ∧
        (¬ Claims source.dataset → DerivedRow env publish case tier datasetId index) := by
  obtain ⟨f, hf, rfl, rfl⟩ := h
  obtain ⟨pass, hpass, rfl, c, hfinding, horigin⟩ := exists_comparison hf
  obtain ⟨hdataset, hrow⟩ := comparisonFinding_source hfinding
  obtain ⟨claimed, hclaimed⟩ := exists_rateSources hpass
  rcases horigin with hexplicit | ⟨rates, hrates, d, hd, hcomparison⟩
  · obtain ⟨ds, hds, hactual, hid⟩ := source_of_mem_explicitComparisons hexplicit
    obtain ⟨source, hsource, rfl⟩ := mem_map.1 hds
    obtain ⟨⟨subject, hfields⟩, hmem, -⟩ := of_mem_rateSources (hclaimed ▸ hsource)
    rw [hfields] at hactual hid
    exact ⟨pass, hpass, rfl, source, hsource, hmem, (hdataset.trans hid).symm,
      fun hnot => absurd hactual hnot⟩
  · obtain ⟨ds, hds, hid⟩ := source_of_mem_rates hrates hd
    obtain ⟨source, hsource, rfl⟩ := mem_map.1 hds
    obtain ⟨⟨subject, hfields⟩, hmem, -⟩ := of_mem_rateSources (hclaimed ▸ hsource)
    obtain ⟨hcomparisonDataset, hcomparisonRow⟩ := derivedComparison_source hcomparison
    rw [hfields] at hid
    refine ⟨pass, hpass, rfl, source, hsource, hmem,
      ((hdataset.trans hcomparisonDataset).trans hid).symm, fun _ => ?_⟩
    exact ⟨pass, hpass, rfl, rates, hrates, d, hd, (hdataset.trans hcomparisonDataset).symm,
      (hrow.trans hcomparisonRow).symm, c, f, hcomparison, hfinding, hf⟩

theorem DerivedRow.rateRow {publish : SubjectType × RateFinding → Except Raised Unit}
    {index : String} (h : DerivedRow env publish case tier datasetId index) :
    RateRow env publish case tier datasetId index := by
  obtain ⟨pass, -, -, rates, -, d, -, rfl, rfl, c, f, hcomparison, hfinding, hf⟩ := h
  obtain ⟨hdataset, hrow⟩ := comparisonFinding_source hfinding
  obtain ⟨hcomparisonDataset, hcomparisonRow⟩ := derivedComparison_source hcomparison
  exact ⟨f, hf, hdataset.trans hcomparisonDataset, hrow.trans hcomparisonRow⟩

namespace SharedBill

open PiecesAndHours (plain accepted)
open Revenue (PlainCell Row)

/-- A hundred for ten hours of a work order, under a contract. -/
def invoiceRow : Row PlainCell :=
  ⟨"0", fun field =>
    if field = "operational_event_id" then .text "A" else if field = "customer_id" then .text "K"
    else if field = "transaction_amount" then .integer 100
    else if field = "depot_id" then .text "USD" else .integer 10⟩

def invoices : CaseDataset PlainCell where
  id := 1
  datasetId := 11
  sourceLabel := "invoices"
  canonicalFrame := some ⟨["operational_event_id", "customer_id", "transaction_amount", "depot_id",
    "labor_hours"], [invoiceRow]⟩
  trustAssessmentId := some 21
  decisions := [accepted "operational_event_id" "work_order_id",
    accepted "customer_id" "contract_id", accepted "transaction_amount" "invoice_amount",
    accepted "depot_id" "currency_code", accepted "labor_hours" "duration_hours"]

/-- The contract has a rate of five. -/
def rateRow : Row PlainCell :=
  ⟨"0", fun field =>
    if field = "customer_id" then .text "K" else if field = "unit_rate" then .integer 5
    else .text "USD"⟩

def rates : CaseDataset PlainCell where
  id := 2
  datasetId := 12
  sourceLabel := "rates"
  canonicalFrame := some ⟨["customer_id", "unit_rate", "depot_id"], [rateRow]⟩
  trustAssessmentId := some 22
  decisions := [accepted "customer_id" "contract_id", accepted "unit_rate" "hourly_rate",
    accepted "depot_id" "currency_code"]

def observed (type key : String) : Entities.EntityCandidate :=
  Entities.candidateOf ⟨"1", type, key, key, 1⟩ [⟨"2", type, key, key, 1⟩]

theorem distinct_ids : ([invoices, rates].map (·.id)).Nodup := by decide

theorem distinct_datasets : ([invoices, rates].map (·.datasetId)).Nodup := by decide

def billed : DistinctCase PlainCell where
  organizationId := 9
  datasets := [invoices, rates]
  distinct := distinct_ids
  candidates := [observed "WORK_ORDER" "A", observed "CONTRACT" "K"]
  distinctDatasets := distinct_datasets

end SharedBill

end Intel4Ops.CaseStages
