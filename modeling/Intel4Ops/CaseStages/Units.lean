import Intel4Ops.CaseStages.RevenueStage
import Intel4Ops.Revenue.Billing

/-!
# Units of quantities

A rate applies to a quantity of its own unit. The unit of a recorded quantity is that of its row,
and a duration is in hours or in days. `unitConsistent_iff` says on which cases every expected line
of the stage keeps to this: where a dataset has both a quantity and recorded hours, the quantity is
taken for hours; and where it has neither, its prices are multiplied by derived durations.
-/

namespace Intel4Ops.CaseStages

open Lib List Option
open Revenue (AmountLine GovernedRateEvidence SourceRow costLine expectedLines orElse pricedQuantity
  quantityLine rateOf sourceRows)

section Units

variable {Cell : Type} (env : Env Cell)

/-! ## What is to hold -/

/-- The quantity comes from a recorded column: a quantity, or hours. -/
def Source.Recorded (source : Source Cell) : Prop :=
  (source.dataset.field "quantity").isSome = true ∨
    (source.dataset.field "duration_hours").isSome = true

def rowUnit (s : SourceRow Cell) : Option String :=
  ((s.dataset.dataframe.present s.dataset.unitField).filter
    fun field => env.notna (s.row.cell field)).map fun field => env.str (s.row.cell field)

/-- The column holds derived days. -/
def IsDaysColumn (column : Option String) : Prop :=
  ∃ pair ∈ declaredIntervalPairs, column = some (daysColumn pair)

/-- The governed unit of a quantity: that of the row for a quantity column, else hours or days. -/
inductive GovernedUnit (source : Source Cell) (s : SourceRow Cell) : Option String → Prop
  | quantity (h : (source.dataset.field "quantity").isSome = true) :
      GovernedUnit source s (rowUnit env s)
  | hours (hquantity : source.dataset.field "quantity" = none)
      (h : (source.dataset.field "duration_hours").isSome = true) :
      GovernedUnit source s (some "hour")
  | derivedHours (h : ¬ source.Recorded) (hcolumn : ¬ IsDaysColumn s.dataset.quantity) :
      GovernedUnit source s (some "hour")
  | derivedDays (h : ¬ source.Recorded) (hcolumn : IsDaysColumn s.dataset.quantity) :
      GovernedUnit source s (some "day")

/-- A line multiplies a quantity by a price of its row, and then the quantity is recorded, or by a
rate of the unit of the quantity. -/
structure LineConsistent (case : Case Cell) (pass : StagePass Cell) (source : Source Cell)
    (s : SourceRow Cell) (line : AmountLine) : Prop where
  price : line.basis = .quantityXUnitPrice → source.Recorded
  rate : line.basis = .quantityXCrossDatasetRate →
    ∃ rate ∈ rateOf env.toEnv (pass.revenuePass case) s, ∃ unit, GovernedUnit env source s unit ∧
      unit.map env.normalizedUnit = some rate.unit

/-- Every expected line of the stage is consistent. -/
def UnitConsistent (case : Case Cell) : Prop :=
  ∀ pass ∈ revenueStage env case, ∀ source ∈ pass.sources,
    ∀ s ∈ sourceRows env.toEnv (pass.revenuePass case), s.dataset = source.fields →
      ∀ lines, expectedLines env.toEnv (pass.revenuePass case) s = .ok lines →
        ∀ line ∈ lines, LineConsistent env case pass source s line

variable {env} {case : Case Cell} {pass : StagePass Cell} {source : Source Cell}

/-! ## The fields of a source -/

/-- How a source takes its quantity and the unit that it gives to it. -/
structure Source.Shape (source : Source Cell) : Prop where
  recorded : source.Recorded → source.fields.implicitQuantityUnit =
    if (source.dataset.field "duration_hours").isSome then some "hour" else none
  derived : ¬ source.Recorded → source.fields.quantityField = none ∨
    ∃ pair ∈ declaredIntervalPairs,
      source.fields.quantityField = some (hoursColumn pair) ∧
          source.fields.implicitQuantityUnit = some "hour" ∨
        source.fields.quantityField = some (daysColumn pair) ∧
          source.fields.implicitQuantityUnit = some "day"

variable {cd : CaseDataset Cell} {df : Revenue.DataFrame Cell}

theorem resolveDerivedDurationField_spec {d : DerivedDuration}
    (h : (resolveDerivedDurationField env cd df).2 = some d) :
    ∃ pair ∈ declaredIntervalPairs, d.hoursField = hoursColumn pair ∧
      d.daysField = daysColumn pair := by
  simp only [resolveDerivedDurationField] at h
  split at h
  · cases h
  · rename_i first others hcomputed
    have hfirst : first ∈ resolvedPairs cd df := by
      have hmem : first ∈ first :: others := mem_cons_self
      rw [← hcomputed] at hmem
      exact (mem_filter.1 hmem).1
    obtain ⟨pair, hpair, hresolved⟩ := mem_filterMap.1 hfirst
    simp only [Option.bind_eq_bind, Option.bind_eq_some_iff, Option.pure_def,
      Option.some.injEq] at hresolved
    obtain ⟨start, -, stop, -, rfl⟩ := hresolved
    split at h
    · cases h
    · cases h
      exact ⟨pair, hpair, rfl, rfl⟩

theorem withDuration_recorded
    (h : (cd.field "quantity").isSome = true ∨ (cd.field "duration_hours").isSome = true) :
    withDuration env cd df = (df, none) := by
  refine if_neg ?_
  rintro ⟨hquantity, hduration⟩
  rw [isNone_iff_eq_none] at hquantity hduration
  rw [hquantity, hduration] at h
  rcases h with h | h <;> cases h

section Fields

variable {cd : CaseDataset Cell} {subject : SubjectField Cell}

/-- The derived quantity of a dataset that a subject has a column in. -/
def derivedOf (env : Env Cell) (cd : CaseDataset Cell) (subject : SubjectField Cell) :
    Option (String × String) :=
  derivedQuantity env cd (withDuration env cd subject.dataframe).1
    (withDuration env cd subject.dataframe).2

theorem revenueSource_quantityField (env : Env Cell) (cd : CaseDataset Cell)
    (subject : SubjectField Cell) : (revenueSource env cd subject).fields.quantityField =
    orElse (cd.field "quantity") (orElse (cd.field "duration_hours")
      ((derivedOf env cd subject).map (·.1))) := rfl

theorem revenueSource_implicitQuantityUnit (env : Env Cell) (cd : CaseDataset Cell)
    (subject : SubjectField Cell) :
    (revenueSource env cd subject).fields.implicitQuantityUnit =
      if (cd.field "duration_hours").isSome then some "hour"
      else (derivedOf env cd subject).map (·.2) := rfl

theorem revenueSource_pendingDays (env : Env Cell) (cd : CaseDataset Cell)
    (subject : SubjectField Cell) : (revenueSource env cd subject).pendingDays =
    if (derivedOf env cd subject).map (·.2) = some "hour" then
      (withDuration env cd subject.dataframe).2.map (·.daysField)
    else none := rfl

theorem derivedOf_recorded
    (h : (cd.field "quantity").isSome = true ∨ (cd.field "duration_hours").isSome = true) :
    derivedOf env cd subject = none := by
  unfold derivedOf
  rw [withDuration_recorded h]
  rfl

theorem Source.swapped_of_none {source : Source Cell} (h : source.pendingDays = none) :
    source.swapped = source := by
  unfold Source.swapped
  rw [h]

theorem Source.swapped_of_some {source : Source Cell} {days : String}
    (h : source.pendingDays = some days) :
    source.swapped.dataset = source.dataset ∧ source.swapped.fields.quantityField = some days ∧
      source.swapped.fields.implicitQuantityUnit = some "day" := by
  unfold Source.swapped
  rw [h]
  exact ⟨rfl, rfl, rfl⟩

theorem revenueSource_shape_recorded (h : (revenueSource env cd subject).Recorded) :
    (revenueSource env cd subject).Shape ∧
      (revenueSource env cd subject).swapped = revenueSource env cd subject := by
  have hderived : derivedOf env cd subject = none := derivedOf_recorded h
  constructor
  · refine ⟨fun _ => ?_, fun hnot => absurd h hnot⟩
    rw [revenueSource_implicitQuantityUnit, hderived]
    rfl
  · apply Source.swapped_of_none
    rw [revenueSource_pendingDays, hderived]
    rfl

theorem revenueSource_shape_derived (h : ¬ (revenueSource env cd subject).Recorded) :
    (revenueSource env cd subject).Shape ∧ (revenueSource env cd subject).swapped.Shape := by
  obtain ⟨hquantity, hduration⟩ := not_or.1 h
  change ¬ (cd.field "quantity").isSome = true at hquantity
  change ¬ (cd.field "duration_hours").isSome = true at hduration
  rw [not_isSome_iff_eq_none] at hquantity hduration
  have hfield := revenueSource_quantityField env cd subject
  have himplicit := revenueSource_implicitQuantityUnit env cd subject
  have hpending := revenueSource_pendingDays env cd subject
  rw [hquantity, hduration] at hfield
  rw [hduration] at himplicit
  cases hd : (withDuration env cd subject.dataframe).2 with
  | none =>
    have hderived : derivedOf env cd subject = none := by
      unfold derivedOf
      rw [hd]
      rfl
    rw [hderived] at hfield hpending
    have hshape : (revenueSource env cd subject).Shape :=
      ⟨fun hrecorded => absurd hrecorded h, fun _ => .inl hfield⟩
    rw [Source.swapped_of_none hpending]
    exact ⟨hshape, hshape⟩
  | some d =>
    have hresolved : (resolveDerivedDurationField env cd subject.dataframe).2 = some d := by
      rw [← hd]
      unfold withDuration
      rw [if_pos (by rw [hquantity, hduration]; exact ⟨rfl, rfl⟩)]
    obtain ⟨pair, hpair, hhours, hdays⟩ := resolveDerivedDurationField_spec hresolved
    have hderived : derivedOf env cd subject =
        some (if declaresDay env (withDuration env cd subject.dataframe).1
          (cd.field "unit_of_measure") then (d.daysField, "day") else (d.hoursField, "hour")) := by
      unfold derivedOf
      rw [hd]
      rfl
    by_cases hday : declaresDay env (withDuration env cd subject.dataframe).1
        (cd.field "unit_of_measure") = true
    · -- The dataset itself declares days.
      rw [if_pos hday] at hderived
      rw [hderived] at hfield himplicit hpending
      have hshape : (revenueSource env cd subject).Shape :=
        ⟨fun hrecorded => absurd hrecorded h,
          fun _ => .inr ⟨pair, hpair, .inr ⟨hfield.trans (congrArg some hdays), himplicit⟩⟩⟩
      have hnone : (revenueSource env cd subject).pendingDays = none := hpending
      rw [Source.swapped_of_none hnone]
      exact ⟨hshape, hshape⟩
    · -- Its hours may give way to days.
      rw [if_neg hday] at hderived
      rw [hderived] at hfield himplicit hpending
      have hsome : (revenueSource env cd subject).pendingDays = some d.daysField := by
        rw [hpending, hd]
        rfl
      obtain ⟨hdataset, hquantityField, hunit⟩ := Source.swapped_of_some hsome
      constructor
      · exact ⟨fun hrecorded => absurd hrecorded h,
          fun _ => .inr ⟨pair, hpair, .inl ⟨hfield.trans (congrArg some hhours), himplicit⟩⟩⟩
      · refine ⟨fun hrecorded => absurd ?_ h, fun _ => .inr ⟨pair, hpair, .inr ⟨?_, hunit⟩⟩⟩
        · unfold Source.Recorded at hrecorded ⊢
          rw [← hdataset]
          exact hrecorded
        · rw [hquantityField, hdays]

end Fields

/-! ## The sources of a pass -/

theorem shape_of_mem_revenueSources {tier : SubjectType} {claimed : List UUID}
    (h : source ∈ revenueSources env case tier claimed) : source.Shape := by
  have hshape : ∀ source ∈ case.datasets.filterMap (fun cd => do
      let df ← cd.canonicalFrame
      guard (cd.id ∉ claimed)
      let subject ← resolveSubjectField env case cd df tier.concept (!isRateCardShaped cd)
      return revenueSource env cd subject), source.Shape ∧ source.swapped.Shape := by
    intro source hsource
    obtain ⟨cd, -, hcd⟩ := mem_filterMap.1 hsource
    simp only [Option.bind_eq_bind, Option.bind_eq_some_iff, Option.pure_def,
      Option.some.injEq] at hcd
    obtain ⟨df, -, -, -, subject, -, rfl⟩ := hcd
    by_cases hrecorded : (revenueSource env cd subject).Recorded
    · obtain ⟨hshape, hswapped⟩ := revenueSource_shape_recorded hrecorded
      rw [hswapped]
      exact ⟨hshape, hshape⟩
    · exact revenueSource_shape_derived hrecorded
  simp only [revenueSources] at h
  split at h
  · obtain ⟨original, horiginal, rfl⟩ := mem_map.1 h
    exact (hshape original horiginal).2
  · exact (hshape source h).1

theorem shape_of_mem_sources (hpass : pass ∈ revenueStage env case)
    (hsource : source ∈ pass.sources) : source.Shape := by
  obtain ⟨claimed, hsources⟩ := exists_revenueSources hpass
  rw [hsources] at hsource
  exact shape_of_mem_revenueSources hsource

/-! ## Lines -/

/-- A row has a priced quantity, and their product is defined. -/
def HasPricedQuantity (env : Env Cell) (case : Case Cell) (pass : StagePass Cell)
    (s : SourceRow Cell) : Prop :=
  ∃ p ∈ pricedQuantity env.toEnv (pass.revenuePass case) s, (p.1.mul p.2).isSome = true

/-- What keeps the lines of a row consistent: next to recorded hours, a quantity that is priced by
another dataset is in hours too; and no derived duration has a price. -/
structure RowSeparated (env : Env Cell) (case : Case Cell) (pass : StagePass Cell)
    (source : Source Cell) (s : SourceRow Cell) : Prop where
  hours : (source.dataset.field "quantity").isSome = true →
    (source.dataset.field "duration_hours").isSome = true → s.dataset.unitPrice = none →
      HasPricedQuantity env case pass s →
        (rowUnit env s).map env.normalizedUnit = some (env.normalizedUnit "hour")
  derived : ¬ source.Recorded → s.dataset.unitPrice.isSome = true →
    ¬ HasPricedQuantity env case pass s

/-- Every row of the stage is separated. -/
def Separated (env : Env Cell) (case : Case Cell) : Prop :=
  ∀ pass ∈ revenueStage env case, ∀ source ∈ pass.sources,
    ∀ s ∈ sourceRows env.toEnv (pass.revenuePass case), s.dataset = source.fields →
      RowSeparated env case pass source s

variable {s : SourceRow Cell}

theorem hoursColumn_ne_daysColumn : ∀ pair ∈ declaredIntervalPairs, ∀ pair' ∈ declaredIntervalPairs,
      hoursColumn pair ≠ daysColumn pair' := by
  decide

theorem HasPricedQuantity.column (h : HasPricedQuantity env case pass s) :
    ∃ column, s.dataset.quantity = some column ∧ s.dataset.quantityField = some column := by
  obtain ⟨p, hp, -⟩ := h
  cases hquantity : s.dataset.quantity with
  | none =>
    simp only [pricedQuantity, hquantity, bind_none, Option.bind_eq_bind] at hp
    cases hp
  | some column => exact ⟨column, rfl, (filter_eq_some_iff.1 hquantity).1⟩

theorem Source.Shape.quantityUnit_hours (h : source.Shape) (hs : s.dataset = source.fields)
    (hduration : (source.dataset.field "duration_hours").isSome = true) :
    s.quantityUnit env.toEnv = some "hour" := by
  have himplicit := h.recorded (.inr hduration)
  rw [if_pos hduration, ← hs] at himplicit
  unfold SourceRow.quantityUnit
  rw [himplicit]
  rfl

/-- The unit in which a rate is looked up is the governed one, except for a quantity beside recorded
hours. -/
theorem Source.Shape.governedUnit (h : source.Shape) (hs : s.dataset = source.fields)
    (hpriced : HasPricedQuantity env case pass s)
    (hunit : (source.dataset.field "quantity").isSome = true →
      (source.dataset.field "duration_hours").isSome = true →
        (rowUnit env s).map env.normalizedUnit = some (env.normalizedUnit "hour")) :
    ∃ unit, GovernedUnit env source s unit ∧
      unit.map env.normalizedUnit = (s.quantityUnit env.toEnv).map env.normalizedUnit := by
  by_cases hquantity : (source.dataset.field "quantity").isSome = true
  · refine ⟨_, .quantity hquantity, ?_⟩
    by_cases hduration : (source.dataset.field "duration_hours").isSome = true
    · rw [h.quantityUnit_hours hs hduration, hunit hquantity hduration]
      rfl
    · have himplicit := h.recorded (.inl hquantity)
      rw [if_neg hduration, ← hs] at himplicit
      unfold SourceRow.quantityUnit
      rw [himplicit]
      rfl
  · by_cases hduration : (source.dataset.field "duration_hours").isSome = true
    · refine ⟨_, .hours (not_isSome_iff_eq_none.1 hquantity) hduration, ?_⟩
      rw [h.quantityUnit_hours hs hduration]
    · have hnot : ¬ source.Recorded := fun hrecorded =>
        hrecorded.elim hquantity hduration
      obtain ⟨column, hcolumn, hfield⟩ := hpriced.column
      rw [hs] at hfield
      unfold SourceRow.quantityUnit
      rcases h.derived hnot with hnone | ⟨pair, hpair, ⟨hhours, himplicit⟩ | ⟨hdays, himplicit⟩⟩
      · rw [hnone] at hfield
        cases hfield
      · refine ⟨_, .derivedHours hnot ?_, ?_⟩
        · rintro ⟨pair', hpair', hdays⟩
          rw [hcolumn, ← hfield, hhours] at hdays
          exact hoursColumn_ne_daysColumn pair hpair pair' hpair' (some.inj hdays)
        · rw [hs, himplicit]
          rfl
      · refine ⟨_, .derivedDays hnot ⟨pair, hpair, ?_⟩, ?_⟩
        · rw [hcolumn, ← hfield, hdays]
        · rw [hs, himplicit]
          rfl

theorem lineConsistent_iff (h : source.Shape) (hs : s.dataset = source.fields) :
    (∀ lines, expectedLines env.toEnv (pass.revenuePass case) s = .ok lines →
        ∀ line ∈ lines, LineConsistent env case pass source s line) ↔
      RowSeparated env case pass source s := by
  constructor
  · intro hlines
    -- A priced quantity gives a line, which is consistent.
    have hline : HasPricedQuantity env case pass s → ∃ line,
        quantityLine env.toEnv (pass.revenuePass case) s = .ok (some line) ∧
          LineConsistent env case pass source s line := by
      intro hpriced
      obtain ⟨line, hline⟩ := Revenue.exists_quantityLine_iff.2 hpriced
      refine ⟨line, hline, hlines _ (map_eq_ok.2 ⟨_, hline, rfl⟩) line ?_⟩
      exact mem_append_left _ mem_cons_self
    constructor
    · intro hquantity hduration hprice hpriced
      obtain ⟨line, hline, hconsistent⟩ := hline hpriced
      rcases Revenue.quantityLine_basis hline with ⟨hsome, -⟩ | ⟨-, hbasis, -⟩
      · rw [hprice] at hsome
        cases hsome
      · obtain ⟨rate, hrate, unit, hgoverned, hunit⟩ := hconsistent.rate hbasis
        have hhour := Revenue.rateOf_unit hrate
        rw [h.quantityUnit_hours hs hduration, map_some] at hhour
        cases hgoverned with
        | quantity => exact hunit.trans hhour.symm
        | hours hnone => rw [hnone] at hquantity; cases hquantity
        | derivedHours hnot | derivedDays hnot => exact absurd (.inl hquantity) hnot
    · intro hnot hprice hpriced
      obtain ⟨line, hline, hconsistent⟩ := hline hpriced
      rcases Revenue.quantityLine_basis hline with ⟨-, hbasis⟩ | ⟨hnone, -⟩
      · exact hnot (hconsistent.price hbasis)
      · rw [hnone] at hprice
        cases hprice
  · intro hseparated lines hexpected line hline
    obtain ⟨quantity, hquantity, rfl⟩ := map_eq_ok.1 hexpected
    rcases mem_append.1 hline with hline | hcost
    · obtain rfl := mem_toList.1 hline
      have hpriced : HasPricedQuantity env case pass s :=
        Revenue.exists_quantityLine_iff.1 ⟨line, hquantity⟩
      rcases Revenue.quantityLine_basis hquantity with ⟨hprice, hbasis⟩ | ⟨hprice, hbasis, rate, hrate⟩
      · refine ⟨fun _ => ?_, fun hrate => ?_⟩
        · by_contra hnot
          exact hseparated.derived hnot hprice hpriced
        · rw [hbasis] at hrate
          cases hrate
      · refine ⟨fun hunitPrice => ?_, fun _ => ⟨rate, hrate, ?_⟩⟩
        · rw [hbasis] at hunitPrice
          cases hunitPrice
        · obtain ⟨unit, hgoverned, hunit⟩ := h.governedUnit hs hpriced fun hquantity hduration =>
            hseparated.hours hquantity hduration hprice hpriced
          exact ⟨unit, hgoverned, hunit.trans (Revenue.rateOf_unit hrate)⟩
    · have hbasis := Revenue.costLine_basis (mem_toList.1 hcost)
      constructor
      · intro hprice
        rw [hbasis] at hprice
        cases hprice
      · intro hrate
        rw [hbasis] at hrate
        cases hrate

/-- Expected amounts are unit consistent exactly where every row is separated. -/
theorem unitConsistent_iff (env : Env Cell) (case : Case Cell) :
    UnitConsistent env case ↔ Separated env case := by
  constructor
  · intro h pass hpass source hsource s hs hdataset
    exact (lineConsistent_iff (shape_of_mem_sources hpass hsource) hdataset).1
      (h pass hpass source hsource s hs hdataset)
  · intro h pass hpass source hsource s hs hdataset
    exact (lineConsistent_iff (shape_of_mem_sources hpass hsource) hdataset).2
      (h pass hpass source hsource s hs hdataset)

end Units

/-! ## A quantity beside recorded hours -/

namespace PiecesAndHours

open Revenue (DataFrame PlainCell Row)

/-- The standard library on texts and integers, without instants. -/
def plain : Env PlainCell where
  toEnv := Revenue.Env.plain
  missing := .missing
  textCell := .text
  floatCell
    | .finite value => .integer value.floor
    | .infinite _ => .missing
  toTimestamp _ := none

def accepted (sourceField concept : String) : InterpretationDecision :=
  ⟨sourceField, .autoAccepted, some concept, 1⟩

/-- Ten pieces and two hours of a work order under the contract of a customer. -/
def usageRow : Row PlainCell :=
  ⟨"0", fun field =>
    if field = "operational_event_id" then .text "A" else if field = "customer_id" then .text "K"
    else if field = "quantity" then .integer 10 else .integer 2⟩

def usageFrame : DataFrame PlainCell where
  columns := ["operational_event_id", "customer_id", "quantity", "labor_hours"]
  rows := [usageRow]

def usage : CaseDataset PlainCell where
  id := 1
  datasetId := 11
  sourceLabel := "usage"
  canonicalFrame := some usageFrame
  trustAssessmentId := some 21
  decisions := [accepted "operational_event_id" "work_order_id",
    accepted "customer_id" "contract_id", accepted "quantity" "quantity",
    accepted "labor_hours" "duration_hours"]

/-- The contract has a rate by the hour. -/
def rateRow : Row PlainCell :=
  ⟨"0", fun field => if field = "customer_id" then .text "K" else .integer 5⟩

def rateFrame : DataFrame PlainCell where
  columns := ["customer_id", "unit_rate"]
  rows := [rateRow]

def rates : CaseDataset PlainCell where
  id := 2
  datasetId := 12
  sourceLabel := "rates"
  canonicalFrame := some rateFrame
  trustAssessmentId := some 22
  decisions := [accepted "customer_id" "contract_id", accepted "unit_rate" "hourly_rate"]

/-- The work order is observed in two datasets. -/
def workOrder : Entities.EntityCandidate :=
  Entities.candidateOf ⟨"1", "WORK_ORDER", "A", "a", 1⟩ [⟨"3", "WORK_ORDER", "A", "a", 1⟩]

theorem distinct_ids : ([usage, rates].map (·.id)).Nodup := by decide

def case : Case PlainCell where
  organizationId := 9
  datasets := [usage, rates]
  distinct := distinct_ids
  candidates := [workOrder]

theorem eligible : case.eligibleSubjects .workOrder = ["A"] := by
  decide +kernel

/-- The pass over work orders. -/
def pass : StagePass PlainCell := ⟨.workOrder, revenueSources plain case .workOrder []⟩

theorem pass_mem : pass ∈ revenueStage plain case := by
  unfold revenueStage SubjectType.declared
  rw [revenuePasses, eligible, if_neg (cons_ne_nil _ _)]
  exact mem_cons_self

/-- The subject of the usage stands in its own column. -/
def subject : SubjectField PlainCell := ⟨usageFrame, "operational_event_id", "work_order_id"⟩

/-- The source that the usage becomes. -/
def source : Source PlainCell := revenueSource plain usage subject

theorem source_mem : source ∈ pass.sources := mem_singleton.2 rfl

/-- The row of the work order. -/
def row : SourceRow PlainCell := ⟨source.fields, usageRow, "A"⟩

theorem row_mem : row ∈ sourceRows plain.toEnv (pass.revenuePass case) := by
  refine Revenue.mem_sourceRows.2 ⟨mem_map_of_mem source_mem, by decide +kernel,
    ⟨mem_singleton_self _, "operational_event_id", by decide +kernel, rfl, rfl⟩, ?_⟩
  show "A" ∈ case.eligibleSubjects .workOrder
  rw [eligible]
  exact mem_singleton_self _

theorem priced :
    pricedQuantity plain.toEnv (pass.revenuePass case) row = some (.finite 10, .finite 5) := by
  decide +kernel

/-- The pieces are multiplied by the rate of an hour. -/
theorem pieces_at_hours : ¬ UnitConsistent plain case := by
  intro h
  have hseparated := (lineConsistent_iff (shape_of_mem_sources pass_mem source_mem) rfl).1
    (h pass pass_mem source source_mem row row_mem rfl)
  have hhour := hseparated.hours (by decide +kernel) (by decide +kernel) (by decide +kernel)
    ⟨_, priced, by decide +kernel⟩
  revert hhour
  decide +kernel

end PiecesAndHours

end Intel4Ops.CaseStages
