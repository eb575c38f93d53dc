import Intel4Ops.Revenue.Currency

/-!
# Rows behind a zero

An actual side without lines is taken for zero, whether no dataset has a row for the subject or its
rows have amounts that do not parse; and a row with a priced quantity and a reference cost stands on
the expected side twice. `zeroConfirmed_iff` says on which datasets neither happens.
-/

namespace Intel4Ops.Revenue

open Lib Lib.Decimal List Option

section Billing

variable {Cell : Type} (env : Env Cell) (pass : Pass Cell)

/-! ## What is to hold -/

/-- The row of the dataset is one of the subject. -/
structure RowOf (ds : DatasetConceptFields Cell) (subject : String) (row : Row Cell) : Prop where
  stored : row ∈ ds.dataframe.rows
  subject : ∃ field ∈ ds.subject, env.blank (row.cell field) = false ∧
    env.str (row.cell field) = subject

/-- The row bills the subject: its dataset supplies governed evidence of billed amounts. -/
structure Bills (ds : DatasetConceptFields Cell) (subject : String) (row : Row Cell) : Prop where
  dataset : ds ∈ pass.datasets
  supplies : ds.SuppliesActual
  row : RowOf env ds subject row

/-- The billed amount of a row, unless it is missing or does not parse. -/
def billedAmount (ds : DatasetConceptFields Cell) (row : Row Cell) : Option Extended :=
  ds.billed.bind fun p => env.toDecimal (row.cell p.1)

/-- The request takes the actual side for zero only where no row bills its subject, and is made only
where all rows that bill it have an amount. -/
structure ZeroConfirmed (r : VarianceRequest) : Prop where
  zero : ∀ collected, collectLines env pass = .ok collected →
    collected.actualOf r.subjectKey = [] → ∀ ds row, ¬ Bills env pass ds r.subjectKey row
  parsed : ∀ ds row, Bills env pass ds r.subjectKey row → (billedAmount env ds row).isSome = true

/-- Every row contributes at most one line to the expected side. -/
def ExpectedOnce : Prop :=
  ∀ s ∈ sourceRows env pass, ∀ lines, expectedLines env pass s = .ok lines → lines.length ≤ 1

/-- The quantity of a row, and its unit price or the rate of another dataset. -/
def pricedQuantity (s : SourceRow Cell) : Option (Extended × Extended) := do
  let qty ← s.dataset.quantity.bind (s.decimal env)
  let price ← match s.dataset.unitPrice with
    | some field => s.decimal env field
    | none => (rateOf env pass s).map (·.amount)
  return (qty, price)

def referenceCost (s : SourceRow Cell) : Option Extended :=
  s.dataset.costAmount.bind (s.decimal env)

/-- The row has a reference cost next to a quantity with a price, whose product is defined. -/
def PricedTwice (s : SourceRow Cell) : Prop :=
  (∃ p ∈ pricedQuantity env pass s, (p.1.mul p.2).isSome = true) ∧
    (referenceCost env s).isSome = true

variable {env pass} {s : SourceRow Cell} {subject : String}

/-! ## Rows -/

theorem eligibleSubject_eq_some {value : Cell} : eligibleSubject env pass value = some subject ↔
      env.blank value = false ∧ env.str value = subject ∧ subject ∈ pass.eligibleSubjectKeys := by
  unfold eligibleSubject
  split
  · rename_i hblank
    simp [hblank]
  · rename_i hblank
    split
    · rename_i heligible
      rw [some.injEq]
      constructor
      · rintro rfl
        exact ⟨by simpa using hblank, rfl, heligible⟩
      · exact fun h => h.2.1
    · rename_i heligible
      constructor
      · intro h
        cases h
      · rintro ⟨-, rfl, h⟩
        exact absurd h heligible

theorem mem_sourceRows : s ∈ sourceRows env pass ↔ s.dataset ∈ pass.datasets ∧
      (s.dataset.SuppliesExpected pass.rateDatasets ∨ s.dataset.SuppliesActual) ∧
      RowOf env s.dataset s.subject s.row ∧ s.subject ∈ pass.eligibleSubjectKeys := by
  simp only [sourceRows, mem_flatMap]
  constructor
  · rintro ⟨ds, hds, hs⟩
    split at hs
    · cases hs
    · rename_i field hfield
      split at hs
      · rename_i hsupplies
        obtain ⟨row, hrow, heq⟩ := mem_filterMap.1 hs
        obtain ⟨subject, hsubject, rfl⟩ := map_eq_some_iff.1 heq
        obtain ⟨hblank, hstr, heligible⟩ := eligibleSubject_eq_some.1 hsubject
        exact ⟨hds, hsupplies, ⟨hrow, field, hfield, hblank, hstr⟩, heligible⟩
      · cases hs
  · rintro ⟨hds, hsupplies, ⟨hrow, field, hfield, hblank, hstr⟩, heligible⟩
    refine ⟨s.dataset, hds, ?_⟩
    rw [mem_def.1 hfield]
    show s ∈ if _ then _ else _
    rw [if_pos hsupplies]
    refine mem_filterMap.2 ⟨s.row, hrow, map_eq_some_iff.2 ⟨s.subject, ?_, rfl⟩⟩
    exact eligibleSubject_eq_some.2 ⟨hblank, hstr, heligible⟩

theorem actualLine_isSome :
    (actualLine env s).isSome = (billedAmount env s.dataset s.row).isSome := by
  unfold actualLine billedAmount
  cases s.dataset.billed with
  | none => rfl
  | some p =>
    show ((s.decimal env p.1).map _).isSome = _
    rw [isSome_map]
    rfl

theorem exists_map_product_iff {a b : Extended} {f : Extended → AmountLine} :
    (∃ line, (product a b).map (fun amount => some (f amount)) = .ok (some line)) ↔
      (a.mul b).isSome = true := by
  unfold product
  cases a.mul b with
  | none | some amount => simp [orFail, Except.map]

theorem exists_quantityLine_iff : (∃ line, quantityLine env pass s = .ok (some line)) ↔
      ∃ p ∈ pricedQuantity env pass s, (p.1.mul p.2).isSome = true := by
  unfold quantityLine pricedQuantity
  cases s.dataset.quantity with
  | none => simp
  | some quantityField =>
    cases s.dataset.unitPrice with
    | some priceField =>
      cases hqty : s.decimal env quantityField with
      | none => simp [hqty]
      | some qty =>
        cases hprice : s.decimal env priceField with
        | none => simp [hqty, hprice]
        | some price => simpa [hqty, hprice] using exists_map_product_iff
    | none =>
      cases hqty : s.decimal env quantityField with
      | none => simp [hqty]
      | some qty =>
        cases hrate : rateOf env pass s with
        | none => simp [hqty]
        | some rate => simpa [hqty, hrate] using exists_map_product_iff

theorem quantityLine_basis {line : AmountLine} (h : quantityLine env pass s = .ok (some line)) :
    s.dataset.unitPrice.isSome = true ∧ line.basis = .quantityXUnitPrice ∨
      s.dataset.unitPrice = none ∧ line.basis = .quantityXCrossDatasetRate ∧
        ∃ rate, rateOf env pass s = some rate := by
  unfold quantityLine at h
  split at h
  · rename_i hprice
    left
    rw [hprice]
    split at h
    · obtain ⟨amount, -, hline⟩ := map_eq_ok.1 h
      cases hline
      exact ⟨rfl, rfl⟩
    · cases h
  · rename_i hprice
    right
    rw [hprice]
    split at h
    · rename_i rate _ hrate
      obtain ⟨amount, -, hline⟩ := map_eq_ok.1 h
      cases hline
      exact ⟨rfl, rfl, rate, hrate⟩
    · cases h
  · cases h

theorem costLine_basis {line : AmountLine} (h : costLine env s = some line) :
    line.basis = .referenceCostAmount := by
  obtain ⟨field, -, hfield⟩ := bind_eq_some_iff.1 h
  obtain ⟨cost, -, rfl⟩ := map_eq_some_iff.1 hfield
  rfl

theorem costLine_isSome : (costLine env s).isSome = (referenceCost env s).isSome := by
  unfold costLine referenceCost
  cases s.dataset.costAmount with
  | none => rfl
  | some field =>
    show ((s.decimal env field).map _).isSome = _
    rw [isSome_map]
    rfl

theorem expectedLines_length : (∀ lines, expectedLines env pass s = .ok lines → lines.length ≤ 1) ↔
      ¬ PricedTwice env pass s := by
  unfold PricedTwice
  rw [← exists_quantityLine_iff, ← costLine_isSome]
  constructor
  · rintro honce ⟨⟨line, hline⟩, hcost⟩
    obtain ⟨cost, hcost⟩ := isSome_iff_exists.1 hcost
    have hlength := honce [line, cost] (by rw [expectedLines, hline, hcost]; rfl)
    exact absurd hlength (by simp)
  · intro htwice lines hlines
    obtain ⟨quantity, hquantity, rfl⟩ := map_eq_ok.1 hlines
    cases quantity with
    | none =>
      cases costLine env s <;> simp
    | some line =>
      cases hcost : costLine env s with
      | none => simp
      | some cost => exact absurd ⟨⟨line, hquantity⟩, by rw [hcost]; rfl⟩ htwice

theorem expectedOnce_iff :
    ExpectedOnce env pass ↔ ∀ s ∈ sourceRows env pass, ¬ PricedTwice env pass s :=
  forall₂_congr fun _ _ => expectedLines_length

/-! ## Zeros -/

theorem Compares.eligible {expected actual : List AmountLine}
    (h : Compares env pass subject expected actual) : subject ∈ pass.eligibleSubjectKeys := by
  obtain ⟨-, collected, hcollected, -, -, hsubject, -, -⟩ := h
  have hmem := (takeWhile_sublist _).subset hsubject
  rw [CollectedLines.subjects, (perm_insertionSort _ _).mem_iff, mem_dedup] at hmem
  obtain ⟨⟨subject', line⟩, hline, rfl⟩ := mem_map.1 hmem
  obtain ⟨s, hs, rfl, -⟩ := (mem_expectedOf hcollected).1 (mem_linesOf.2 hline)
  exact (mem_sourceRows.1 hs).2.2.2

theorem Bills.actualOf_ne_nil {collected : CollectedLines}
    (hcollected : collectLines env pass = .ok collected) {ds : DatasetConceptFields Cell}
    {row : Row Cell} (h : Bills env pass ds subject row)
    (heligible : subject ∈ pass.eligibleSubjectKeys)
    (hparsed : (billedAmount env ds row).isSome = true) : collected.actualOf subject ≠ [] := by
  have hs : (⟨ds, row, subject⟩ : SourceRow Cell) ∈ sourceRows env pass :=
    mem_sourceRows.2 ⟨h.dataset, .inr h.supplies, h.row, heligible⟩
  have hline : (actualLine env ⟨ds, row, subject⟩).isSome = true := by
    rw [actualLine_isSome]
    exact hparsed
  obtain ⟨line, hline⟩ := isSome_iff_exists.1 hline
  exact ne_nil_of_mem ((mem_actualOf hcollected).2 ⟨_, hs, rfl, hline⟩)

theorem Compares.zeroConfirmed {expected actual : List AmountLine} {r : VarianceRequest}
    (h : Compares env pass subject expected actual)
    (hrequest : requestFor env pass subject expected actual = .ok (some r)) :
    ZeroConfirmed env pass r ↔
      ∀ ds row, Bills env pass ds subject row → (billedAmount env ds row).isSome = true := by
  obtain ⟨-, e, a, amounts, -, -, -, hbuilt⟩ := requestFor_iff.1 hrequest
  obtain ⟨rfl, -⟩ := shortfallRequest_some hbuilt
  constructor
  · exact fun hconfirmed => hconfirmed.parsed
  · intro hparsed
    refine ⟨fun collected hcollected hzero ds row hbills => ?_, hparsed⟩
    exact hbills.actualOf_ne_nil hcollected h.eligible (hparsed ds row hbills) hzero

end Billing

/-- Zeros are confirmed and no row is expected twice, exactly when every row that bills a
publishable subject has an amount, and no row has a reference cost next to a priced quantity. -/
theorem zeroConfirmed_iff {Cell : Type} (env : Env Cell) (pass : Pass Cell) :
    ((∀ publish, ∀ r ∈ runRevenueAmountVariance env publish pass, ZeroConfirmed env pass r) ∧
        ExpectedOnce env pass) ↔
      (∀ subject expected actual, Compares env pass subject expected actual →
        Publishable env expected actual →
        ∀ ds row, Bills env pass ds subject row → (billedAmount env ds row).isSome = true) ∧
      ∀ s ∈ sourceRows env pass, ¬ PricedTwice env pass s := by
  rw [expectedOnce_iff]
  refine and_congr_left fun _ => ?_
  constructor
  · intro h subject expected actual hcompares hpublishable
    obtain ⟨r, hrequest⟩ := exists_requestFor_iff.2 hpublishable
    obtain ⟨publish, hr⟩ := mem_reached_iff.2 ⟨subject, expected, actual, hcompares, hrequest⟩
    exact (hcompares.zeroConfirmed hrequest).1 (h publish r hr)
  · intro h publish r hr
    obtain ⟨subject, expected, actual, hcompares, hrequest⟩ := mem_reached_iff.1 ⟨publish, hr⟩
    have hpublishable := exists_requestFor_iff.1 ⟨r, hrequest⟩
    exact (hcompares.zeroConfirmed hrequest).2 (h subject expected actual hcompares hpublishable)

/-! ## A row without an amount -/

namespace MissingAmount

/-- The invoice row of the subject, whose amount is missing. -/
def unbilled : Row PlainCell :=
  ⟨"0", fun field => if field = "wo" then .text "A" else if field = "amount" then .missing
    else .text "USD"⟩

/-- The two quantities are in one currency here. -/
def usage : DatasetConceptFields PlainCell := { MixedSide.usage with currencyField := none }

def invoices : DatasetConceptFields PlainCell :=
  { MixedSide.invoices [unbilled] with currencyField := none }

def pass : Pass PlainCell where
  organizationId := 9
  datasets := [usage, invoices]
  eligibleSubjectKeys := ["A"]

theorem bills : Bills Env.plain pass invoices "A" unbilled where
  dataset := by simp [pass]
  supplies := .inl (by decide)
  row := ⟨mem_singleton_self _, "wo", by decide, by decide, by decide⟩

/-- The row of the invoice is there, and a full billing shortfall is published. -/
theorem not_zeroConfirmed : ¬ ((∀ publish, ∀ r ∈ runRevenueAmountVariance Env.plain publish pass,
      ZeroConfirmed Env.plain pass r) ∧ ExpectedOnce Env.plain pass) := by
  rintro ⟨h, -⟩
  have hpublished : ∃ r ∈ runRevenueAmountVariance Env.plain (fun _ => .ok ()) pass,
      r.subjectKey = "A" ∧ r.ruleConditionCode = "full_billing_shortfall" := by
    decide +kernel
  obtain ⟨r, hr, hsubject, -⟩ := hpublished
  have hparsed := (h _ r hr).parsed invoices unbilled (hsubject ▸ bills)
  revert hparsed
  decide

end MissingAmount

end Intel4Ops.Revenue
