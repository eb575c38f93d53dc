import Intel4Ops.Lib.ExactSum
import Intel4Ops.Revenue.Isolation

/-!
# Inputs of a derived rate

What the inputs of a subject say about its rows, and that they do not depend on the order of the
rows, up to the order of their lines, where the sums need no rounding.
-/

namespace Intel4Ops.Revenue

open Lib Lib.Decimal List Except

variable {Cell : Type} {env : Env Cell} {pass pass' : CompliancePass Cell}

/-! ## Order -/

/-- The same pass with the datasets and their rows in another order. -/
def CompliancePass.Reordered (pass pass' : CompliancePass Cell) : Prop :=
  ∃ shuffled, List.Forall₂ (fun ds ds' => ∃ rows, ds.dataframe.rows.Perm rows ∧
    ds' = ds.withRows rows) pass.datasets shuffled ∧ shuffled.Perm pass'.datasets ∧
      pass' = { pass with datasets := pass'.datasets }

theorem CompliancePass.Reordered.rows (h : pass.Reordered pass') :
    (derivationRows env pass).Perm (derivationRows env pass') := by
  obtain ⟨shuffled, hrows, hperm, hpass⟩ := h
  rw [derivationRows, derivationRows]
  refine List.Perm.trans (flatMap_perm ?_ hrows) (hperm.flatMap_right _)
  rintro ds _ ⟨rows, hrows, rfl⟩
  have heligible : pass'.eligibleSubjectKeys = pass.eligibleSubjectKeys := by rw [hpass]
  have happlied : (appliedRows env pass ds).Perm (appliedRows env pass' (ds.withRows rows)) := by
    have hfield : (ds.withRows rows).dataframe.present (ds.withRows rows).subjectIdField =
        ds.dataframe.present ds.subjectIdField := rfl
    rw [appliedRows, appliedRows, heligible, hfield]
    cases ds.dataframe.present ds.subjectIdField with
    | none => exact List.Perm.refl _
    | some field => exact hrows.filterMap _
  exact ite_perm happlied

theorem CompliancePass.Reordered.contract (h : pass.Reordered pass') (subject : String) :
    contractOfSubject env pass subject = contractOfSubject env pass' subject := by
  obtain ⟨shuffled, hrows, hperm, hpass⟩ := h
  have htype : pass'.subjectEntityType = pass.subjectEntityType := by rw [hpass]
  have hcontracts : (pass.datasets.flatMap (contractsOf env subject)).Perm
      (pass'.datasets.flatMap (contractsOf env subject)) := by
    refine List.Perm.trans (flatMap_perm ?_ hrows) (hperm.flatMap_right _)
    rintro ds _ ⟨rows, hrows, rfl⟩
    have hfield : (ds.withRows rows).dataframe.present (ds.withRows rows).contractIdField =
        ds.dataframe.present ds.contractIdField := rfl
    rw [contractsOf, contractsOf, hfield]
    cases ds.dataframe.present ds.contractIdField with
    | none => exact List.Perm.refl _
    | some field => exact (hrows.filter _).filterMap _
  rw [contractOfSubject, contractOfSubject, htype, subjectContractMap, subjectContractMap,
    contracts_of_subject, contracts_of_subject]
  congr 1
  exact only_perm hcontracts.dedup

theorem CompliancePass.Reordered.readings (h : pass.Reordered pass') (subject : String) :
    (subjectReadings env pass subject).Perm (subjectReadings env pass' subject) :=
  (h.rows.filter _).filterMap _

/-! ## Sums of a subject -/

def quantityLines (rows : List (RowReadings Cell)) : List (DerivedInputLine Cell) :=
  rows.filterMap (·.quantity.toOption)

def componentLines (rows : List (RowReadings Cell)) : List (DerivedInputLine Cell) :=
  rows.filterMap (·.component.toOption)

/-- The numbers of the lines are not negative. -/
structure RowReadings.Valued (r : RowReadings Cell) : Prop where
  quantity : ∀ line ∈ r.quantity.toOption, line.value.isNegative = false
  component : ∀ line ∈ r.component.toOption, ∀ amount ∈ line.componentAmount,
    amount.isNegative = false

theorem isNegative_product {a b amount : Extended} (ha : a.isNegative = false)
    (hb : b.isNegative = false) (h : product a b = .ok amount) : amount.isNegative = false := by
  rw [product, orFail_eq_ok] at h
  cases a with
  | finite x =>
    have hx : 0 ≤ x := Extended.finitePart_nonneg ha
    cases b with
    | finite y =>
      have hy : 0 ≤ y := Extended.finitePart_nonneg hb
      obtain rfl := Option.some.inj h
      exact decide_eq_false (not_lt.2 (context_nonneg (mul_nonneg hx hy)))
    | infinite s =>
      rw [Extended.mul] at h
      · split at h
        · exact absurd h (Option.some_ne_none amount).symm
        · obtain rfl := Option.some.inj h
          rw [ha]
          exact (Bool.xor_false s).trans hb
      · simp
  | infinite s =>
    rw [Extended.mul] at h
    split at h
    · exact absurd h (Option.some_ne_none amount).symm
    · obtain rfl := Option.some.inj h
      rw [hb]
      exact (Bool.xor_false s).trans ha

theorem nonNegative_eq_some {value : Cell} {a : Extended} (h : nonNegative env value = some a) :
    a.isNegative = false := by
  rw [nonNegative, Option.filter_eq_some_iff] at h
  exact of_decide_eq_true h.2

theorem toOption_ofOption {α : Type} (o : Option α) : (Reading.ofOption o).toOption = o := by
  cases o with
  | none | some value => rfl

variable {s : AppliedRow Cell} {lines lines' : List (DerivedInputLine Cell)}

theorem value_quantityReading {line : DerivedInputLine Cell}
    (h : (quantityReading env s).toOption = some line) : line.value.isNegative = false := by
  rw [quantityReading] at h
  split at h
  case h_1 => exact absurd h (Option.some_ne_none line).symm
  case h_2 field _ =>
    rw [toOption_ofOption, Option.bind_eq_bind, Option.bind_eq_some_iff] at h
    obtain ⟨value, hvalue, h⟩ := h
    obtain ⟨unit, -, h⟩ := Option.bind_eq_some_iff.1 h
    obtain rfl := Option.some.inj h
    exact nonNegative_eq_some hvalue

theorem amount_componentReading {reading : Reading (DerivedInputLine Cell)}
    (h : componentReading env s = .ok reading) {line : DerivedInputLine Cell}
    (hline : reading.toOption = some line) {amount : Extended}
    (hamount : line.componentAmount = some amount) : amount.isNegative = false := by
  rw [componentReading] at h
  split at h
  case h_1 =>
    obtain rfl := ok.inj h
    exact absurd hline (Option.some_ne_none line).symm
  case h_2 priceField _ =>
    split at h
    case h_1 =>
      obtain rfl := ok.inj h
      exact absurd hline (Option.some_ne_none line).symm
    case h_2 quantityField _ =>
      split at h
      case h_1 quantity price currency hquantity hprice _ =>
        obtain ⟨found, hfound, rfl⟩ := map_eq_ok.1 h
        obtain rfl := Option.some.inj hline
        obtain rfl := Option.some.inj hamount
        exact isNegative_product (nonNegative_eq_some hquantity) (nonNegative_eq_some hprice) hfound
      case h_2 =>
        obtain rfl := ok.inj h
        exact absurd hline (Option.some_ne_none line).symm

theorem valued_readRow {r : RowReadings Cell} (h : readRow env s = .ok r) : r.Valued := by
  rw [readRow] at h
  split at h
  case isTrue =>
    obtain rfl := ok.inj h
    exact ⟨fun line hline => absurd hline (Option.some_ne_none line).symm,
      fun line hline => absurd hline (Option.some_ne_none line).symm⟩
  case isFalse =>
    obtain ⟨component, hcomponent, rfl⟩ := map_eq_ok.1 h
    exact ⟨fun line hline => value_quantityReading hline,
      fun line hline amount hamount => amount_componentReading hcomponent hline hamount⟩

/-- The sums of a subject need no rounding: the quantities of each dataset and the components. -/
structure SumsFit (rows : List (RowReadings Cell)) : Prop where
  quantities : ∀ id, Extended.Fits
    ((group (·.source.dataset.datasetId) (quantityLines rows) id).map (·.value))
  components : Extended.Fits ((componentLines rows).filterMap (·.componentAmount))

/-! ## Inputs in another order -/

/-- A quantity summary whose sum fits. -/
def summaryOf (lines : List (DerivedInputLine Cell)) : Option (Extended × String) :=
  (only (lines.filterMap (·.unit)).dedup).map fun unit =>
    (Extended.total (lines.map (·.value)), unit)

theorem summaryOf_perm (h : lines.Perm lines') : summaryOf lines = summaryOf lines' := by
  rw [summaryOf, summaryOf, only_perm (h.filterMap _).dedup, Extended.total_perm (h.map _)]

theorem quantitySummary_eq (h : ∀ line ∈ lines, line.value.isNegative = false)
    (hfits : Extended.Fits (lines.map (·.value))) :
    quantitySummary lines = .ok (summaryOf lines) := by
  have hsum : Extended.sum (lines.map (·.value)) = some (Extended.total (lines.map (·.value))) := by
    refine Extended.sum_of_fits (fun v hv => ?_) hfits
    obtain ⟨line, hline, rfl⟩ := mem_map.1 hv
    exact h line hline
  rw [quantitySummary, summaryOf]
  cases only (lines.filterMap (·.unit)).dedup with
  | none => rfl
  | some unit =>
    dsimp only
    rw [hsum]
    rfl

/-- What the datasets agree on, where the sums fit. -/
def agreedOf (lines : List (DerivedInputLine Cell)) : Option (Extended × String) :=
  let summaries := (linesByDataset lines).map summaryOf
  if summaries.any Option.isNone then none else only (summaries.filterMap id).dedup

theorem agreedQuantity_eq (h : ∀ line ∈ lines, line.value.isNegative = false)
    (hfits : ∀ id, Extended.Fits ((group (·.source.dataset.datasetId) lines id).map (·.value))) :
    agreedQuantity (linesByDataset lines) = .ok (agreedOf lines) := by
  have hsummaries : (linesByDataset lines).mapM quantitySummary =
      .ok ((linesByDataset lines).map summaryOf) := by
    refine mapM_eq_map fun lines' hlines' => ?_
    obtain ⟨id, -, rfl⟩ := mem_map.1 hlines'
    exact quantitySummary_eq (fun line hline => h line (mem_group.1 hline).1) (hfits id)
  rw [agreedQuantity, hsummaries]
  rfl

theorem agreedOf_perm (h : lines.Perm lines') : agreedOf lines = agreedOf lines' := by
  have hsummaries : ((linesByDataset lines).map summaryOf).Perm
      ((linesByDataset lines').map summaryOf) := by
    rw [linesByDataset, linesByDataset, map_map, map_map]
    have hgroup : ∀ id, summaryOf (group (·.source.dataset.datasetId) lines id) =
        summaryOf (group (·.source.dataset.datasetId) lines' id) :=
      fun id => summaryOf_perm (h.filter _)
    refine ((firsts_perm (h.map _)).map _).trans ?_
    exact List.Perm.of_eq (map_congr_left fun id _ => hgroup id)
  rw [agreedOf, agreedOf]
  rw [only_perm (hsummaries.filterMap id).dedup, hsummaries.any_eq]

theorem flatten_linesByDataset (lines : List (DerivedInputLine Cell)) :
    (linesByDataset lines).flatten.Perm lines := by
  rw [linesByDataset, ← flatMap_def]
  exact flatMap_group_perm (·.source.dataset.datasetId) lines

theorem length_linesByDataset_perm (h : lines.Perm lines') :
    (linesByDataset lines).length = (linesByDataset lines').length := by
  rw [linesByDataset, linesByDataset, length_map, length_map]
  exact (firsts_perm (h.map _)).length_eq

theorem head_linesByDataset (h : (linesByDataset lines).length ≤ 1) :
    (linesByDataset lines).head?.getD [] = lines := by
  have hflatten := flatten_linesByDataset lines
  cases hgroups : linesByDataset lines with
  | nil =>
    rw [hgroups] at hflatten
    exact hflatten.nil_eq
  | cons lines' groups =>
    rw [hgroups, length_cons] at h
    obtain rfl := length_eq_zero_iff.1 (show groups.length = 0 by omega)
    rw [hgroups, flatten_cons, flatten_nil, append_nil] at hflatten
    have hmem : lines' ∈ linesByDataset lines := hgroups ▸ mem_cons_self
    obtain ⟨id, -, rfl⟩ := mem_map.1 hmem
    exact filter_sublist.eq_of_length hflatten.length_eq

/-- The same inputs with the lines in another order. -/
structure RateInputs.Alike (i i' : RateInputs Cell) : Prop where
  billing : i.billing = i'.billing
  quantities : i.quantities.Perm i'.quantities
  components : i.components.Perm i'.components
  quantity : i.quantity = i'.quantity
  unit : i.unit = i'.unit
  currency : i.currency = i'.currency

theorem sharedCurrency_perm (billing : DerivedInputLine Cell)
    {components components' : List (DerivedInputLine Cell)} (h : components.Perm components') :
    sharedCurrency billing components = sharedCurrency billing components' := by
  rw [sharedCurrency, sharedCurrency, only_perm ((h.map _).cons _).dedup]

theorem rateInputs_perm {rows rows' : List (RowReadings Cell)} (h : rows.Perm rows')
    (hvalued : ∀ r ∈ rows, r.Valued) (hfits : SumsFit rows) :
    ∃ o o', rateInputs rows = .ok o ∧ rateInputs rows' = .ok o' ∧
      Option.Rel RateInputs.Alike o o' := by
  have hquantities : (quantityLines rows).Perm (quantityLines rows') := h.filterMap _
  have hcomponents : (componentLines rows).Perm (componentLines rows') := h.filterMap _
  have hbilling := only_perm (h.filterMap (·.billing.toOption))
  have hspoils : rows.any (·.spoils) = rows'.any (·.spoils) := h.any_eq
  have hnonneg : ∀ line ∈ quantityLines rows, line.value.isNegative = false := by
    intro line hline
    obtain ⟨r, hr, hline⟩ := mem_filterMap.1 hline
    exact (hvalued r hr).quantity line hline
  have hlengthQ := length_linesByDataset_perm hquantities
  have hlengthC := length_linesByDataset_perm hcomponents
  have hempty : (linesByDataset (quantityLines rows)).isEmpty =
      (linesByDataset (quantityLines rows')).isEmpty := by
    rw [Bool.eq_iff_iff, isEmpty_iff_length_eq_zero, isEmpty_iff_length_eq_zero, hlengthQ]
  have hagreed := agreedQuantity_eq hnonneg hfits.quantities
  have hagreed' := agreedQuantity_eq
    (fun line hline => hnonneg line (hquantities.mem_iff.2 hline))
    (fun id => (hfits.quantities id).perm ((hquantities.filter _).map _))
  rw [← agreedOf_perm hquantities] at hagreed'
  simp only [quantityLines, componentLines] at *
  rw [rateInputs, rateInputs, hbilling]
  cases only (rows'.filterMap (·.billing.toOption)) with
  | none => exact ⟨none, none, rfl, rfl, .none⟩
  | some billing =>
    dsimp only
    rw [hspoils, hempty, hlengthC]
    split
    case isTrue => exact ⟨none, none, rfl, rfl, .none⟩
    case isFalse hnot =>
      have hone : (linesByDataset (rows'.filterMap (·.component.toOption))).length ≤ 1 := by
        by_contra hmany
        exact hnot (.inr (.inr (by omega)))
      have hhead : ((linesByDataset (rows.filterMap (·.component.toOption))).head?.getD []).Perm
          ((linesByDataset (rows'.filterMap (·.component.toOption))).head?.getD []) := by
        rw [head_linesByDataset hone, head_linesByDataset (hlengthC ▸ hone)]
        exact hcomponents
      have hflatten := (flatten_linesByDataset (rows.filterMap (·.quantity.toOption))).trans
        (hquantities.trans (flatten_linesByDataset (rows'.filterMap (·.quantity.toOption))).symm)
      rw [hagreed, hagreed']
      refine ⟨_, _, rfl, rfl, ?_⟩
      cases agreedOf (rows.filterMap (·.quantity.toOption)) with
      | none => exact .none
      | some agreed =>
        simp only [Option.bind_eq_bind, Option.bind_some]
        by_cases hpos : agreed.1.le (.finite 0) = false
        · simp only [hpos, guard, if_true, ← sharedCurrency_perm billing hhead]
          cases sharedCurrency billing
            ((linesByDataset (rows.filterMap (·.component.toOption))).head?.getD []) with
          | none => exact .none
          | some currency => exact .some ⟨rfl, hflatten, hhead, rfl, rfl, rfl⟩
        · simp only [hpos, guard]
          exact .none

/-! ## What inputs say -/

/-- The inputs of a subject are those that its rows state. -/
structure RateInputs.Of (rows : List (RowReadings Cell)) (i : RateInputs Cell) : Prop where
  unspoiled : rows.any (·.spoils) = false
  billing : rows.filterMap (·.billing.toOption) = [i.billing]
  quantities : quantityLines rows ≠ []
  components : i.components = componentLines rows
  agreed : agreedQuantity (linesByDataset (quantityLines rows)) = .ok (some (i.quantity, i.unit))
  positive : i.quantity.le (.finite 0) = false
  currency : sharedCurrency i.billing i.components = some i.currency

theorem of_rateInputs {rows : List (RowReadings Cell)} {i : RateInputs Cell}
    (h : rateInputs rows = .ok (some i)) : i.Of rows := by
  rw [rateInputs] at h
  cases hbilling : only (rows.filterMap (·.billing.toOption)) with
  | none =>
    rw [hbilling] at h
    exact absurd (ok.inj h) (Option.some_ne_none i).symm
  | some billing =>
    rw [hbilling] at h
    dsimp only at h
    split at h
    case isTrue => exact absurd (ok.inj h) (Option.some_ne_none i).symm
    case isFalse hnot =>
      obtain ⟨agreed, hagreed, h⟩ := map_eq_ok.1 h
      rw [Option.bind_eq_bind, Option.bind_eq_some_iff] at h
      obtain ⟨⟨quantity, unit⟩, rfl, h⟩ := h
      obtain ⟨_, hpositive, h⟩ := Option.bind_eq_some_iff.1 h
      obtain ⟨currency, hcurrency, h⟩ := Option.bind_eq_some_iff.1 h
      obtain rfl := Option.some.inj h
      have hone : (linesByDataset (componentLines rows)).length ≤ 1 := by
        by_contra hmany
        exact hnot (.inr (.inr (not_le.1 hmany)))
      refine ⟨?_, only_eq_some.1 hbilling, ?_, head_linesByDataset hone, hagreed, ?_, hcurrency⟩
      · exact Bool.not_eq_true _ ▸ fun hspoils => hnot (.inl hspoils)
      · intro hnone
        refine hnot (.inr (.inl ?_))
        show (linesByDataset (quantityLines rows)).isEmpty = true
        rw [hnone]
        rfl
      · exact (Option.guard_eq_some' _).1 hpositive

theorem of_agreedQuantity {groups : List (List (DerivedInputLine Cell))} {quantity : Extended}
    {unit : String} (h : agreedQuantity groups = .ok (some (quantity, unit)))
    (hlines : lines ∈ groups) :
    Extended.sum (lines.map (·.value)) = some quantity ∧
      ∀ line ∈ lines, ∀ u ∈ line.unit, u = unit := by
  rw [agreedQuantity, bind_eq_ok] at h
  obtain ⟨summaries, hsummaries, h⟩ := h
  have honly := pure_eq_ok.1 h
  split at honly
  case isTrue => exact absurd honly (Option.some_ne_none _).symm
  case isFalse hall =>
    obtain ⟨hok, -⟩ := mapM_eq_ok_iff.1 hsummaries
    obtain ⟨summary, hsummary⟩ := hok lines hlines
    have hmem := (mem_of_mapM_eq_ok hsummaries).2 ⟨lines, hlines, hsummary⟩
    cases summary with
    | none => exact absurd (any_eq_true.2 ⟨none, hmem, rfl⟩) hall
    | some found =>
      have hfound : found ∈ (summaries.filterMap id).dedup :=
        mem_dedup.2 (mem_filterMap.2 ⟨some found, hmem, rfl⟩)
      rw [only_eq_some.1 honly, mem_singleton] at hfound
      subst hfound
      rw [quantitySummary] at hsummary
      cases hunit : only (lines.filterMap (·.unit)).dedup with
      | none =>
        rw [hunit] at hsummary
        exact absurd (ok.inj hsummary) (Option.some_ne_none _).symm
      | some found =>
        rw [hunit] at hsummary
        obtain ⟨total, htotal, hsummary⟩ := bind_eq_ok.1 hsummary
        obtain ⟨rfl, rfl⟩ := Prod.mk.inj (Option.some.inj (pure_eq_ok.1 hsummary))
        refine ⟨orFail_eq_ok.1 htotal, fun line hline u hu => ?_⟩
        have hmem : u ∈ (lines.filterMap (·.unit)).dedup :=
          mem_dedup.2 (mem_filterMap.2 ⟨line, hline, hu⟩)
        rwa [only_eq_some.1 hunit, mem_singleton] at hmem

theorem of_sharedCurrency {billing : DerivedInputLine Cell}
    {components : List (DerivedInputLine Cell)} {currency : String}
    (h : sharedCurrency billing components = some currency) :
    billing.currency = some currency ∧ ∀ line ∈ components, line.currency = some currency := by
  have hfound := Option.join_eq_some_iff.1 h
  have hall : ∀ c ∈ billing.currency :: components.map (·.currency), c = some currency := by
    intro c hc
    have hmem := mem_dedup.2 hc
    rwa [only_eq_some.1 hfound, mem_singleton] at hmem
  exact ⟨hall _ mem_cons_self, fun line hline =>
    hall _ (mem_cons_of_mem _ (mem_map.2 ⟨line, hline, rfl⟩))⟩

theorem targetAmount_eq_some {inputs : RateInputs Cell} {target : Extended} :
    targetAmount inputs = .ok (some target) ↔
      ∃ amount, Extended.sum (inputs.components.filterMap (·.componentAmount)) = some amount ∧
        inputs.billing.value.sub amount = some target ∧ target.isNegative = false := by
  simp only [targetAmount, bind_eq_ok, orFail_eq_ok, pure_eq_ok]
  constructor
  · rintro ⟨amount, hamount, found, hfound, h⟩
    split at h
    case isTrue => exact absurd h (Option.some_ne_none target).symm
    case isFalse hnonneg =>
      obtain rfl := Option.some.inj h
      exact ⟨amount, hamount, hfound, Bool.not_eq_true _ ▸ hnonneg⟩
  · rintro ⟨amount, hamount, hfound, hnonneg⟩
    exact ⟨amount, hamount, target, hfound, if_neg (by rw [hnonneg]; exact Bool.false_ne_true)⟩

end Intel4Ops.Revenue
