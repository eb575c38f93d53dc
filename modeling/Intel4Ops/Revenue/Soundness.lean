import Intel4Ops.Revenue.RateInputs

/-!
# Derived rates are sound

A derived rate is the quotient of its target amount and its quantity, to 28 digits, and both are
those of its subject. The derivation does not depend on the order of datasets and rows, where the
sums need no rounding, and the rate of a subject does not depend on the rows of other subjects.
-/

namespace Intel4Ops.Revenue

open Lib Lib.Decimal List Option

variable {Cell : Type} {env : Env Cell} {pass pass' : CompliancePass Cell}

/-! ## Sound rates -/

/-- What a derived rate says about the rows of its subject. Sums, differences and quotients are
those of decimals with 28 digits. -/
structure SoundRate (env : Env Cell) (pass : CompliancePass Cell) (d : DerivedRate Cell) :
    Prop where
  eligible : d.subjectKey ∈ pass.eligibleSubjectKeys
  contract : contractOfSubject env pass d.subjectKey = some d.contractKey
  /-- The bill is the only one of the subject. -/
  billed : (subjectReadings env pass d.subjectKey).filterMap (·.billing.toOption) = [d.billing]
  /-- The target amount is the billed one less the components. -/
  target : ∃ amount, Extended.sum ((componentLines (subjectReadings env pass d.subjectKey)).filterMap
    (·.componentAmount)) = some amount ∧ d.billing.value.sub amount = some d.targetAmount
  notNegative : d.targetAmount.isNegative = false
  /-- The rate is the quotient of the target amount and the quantity. -/
  rate : d.targetAmount.div d.quantity = some d.actualRate
  exact : ∀ t q r, d.targetAmount = .finite t → d.quantity = .finite q → d.actualRate = .finite r →
    Exact (t / q) → r * q = t
  positive : d.quantity.le (.finite 0) = false
  measured : quantityLines (subjectReadings env pass d.subjectKey) ≠ []
  /-- Every dataset with quantities of the subject has this total, in one unit. -/
  quantity : ∀ line ∈ quantityLines (subjectReadings env pass d.subjectKey),
    Extended.sum ((group (·.source.dataset.datasetId)
      (quantityLines (subjectReadings env pass d.subjectKey))
        line.source.dataset.datasetId).map (·.value)) = some d.quantity
  unit : ∀ line ∈ quantityLines (subjectReadings env pass d.subjectKey), ∀ u ∈ line.unit, u = d.unit
  currency : d.billing.currency = some d.currency
  componentCurrency : ∀ line ∈ componentLines (subjectReadings env pass d.subjectKey),
    line.currency = some d.currency

theorem mul_of_div {target quantity rate : Extended} (hrate : target.div quantity = some rate)
    (t q r : ℚ) (ht : target = .finite t) (hq : quantity = .finite q) (hr : rate = .finite r)
    (hexact : Exact (t / q)) : r * q = t := by
  subst ht hq hr
  rw [Extended.div] at hrate
  split at hrate
  case isTrue => exact absurd hrate (some_ne_none _).symm
  case isFalse hzero =>
    obtain rfl := Extended.finite.inj (some.inj hrate)
    rw [hexact]
    exact div_mul_cancel₀ t hzero

theorem soundRate {rates : List (DerivedRate Cell)} (h : deriveActualAppliedRates env pass = .ok rates)
    {d : DerivedRate Cell} (hd : d ∈ rates) : SoundRate env pass d := by
  obtain ⟨heligible, hrate⟩ := (mem_rates h).1 hd
  obtain ⟨inputs, target, contractKey, hinputs, htarget, hcontract, hrate⟩ :=
    derivedRate_eq_some.1 hrate
  obtain ⟨rate, evidence, hdiv, -, hd⟩ := rateFrom_eq_ok.1 hrate
  have hof := of_rateInputs hinputs
  obtain ⟨amount, hamount, hsub, hnonneg⟩ := targetAmount_eq_some.1 htarget
  obtain ⟨hbill, hcomponents⟩ := of_sharedCurrency hof.currency
  rw [hof.components] at hamount hcomponents
  have hgroup : ∀ line ∈ quantityLines (subjectReadings env pass d.subjectKey),
      group (·.source.dataset.datasetId) (quantityLines (subjectReadings env pass d.subjectKey))
        line.source.dataset.datasetId ∈
          linesByDataset (quantityLines (subjectReadings env pass d.subjectKey)) := by
    intro line hline
    exact mem_map.2 ⟨_, mem_firsts.2 (mem_map.2 ⟨line, hline, rfl⟩), rfl⟩
  have hquantity : d.quantity = inputs.quantity := by rw [← hd]
  have hunit : d.unit = inputs.unit := by rw [← hd]
  have hcurrency : d.currency = inputs.currency := by rw [← hd]
  have hbilling : d.billing = inputs.billing := by rw [← hd]
  have htargetAmount : d.targetAmount = target := by rw [← hd]
  have hactual : d.actualRate = rate := by rw [← hd]
  have hkey : d.contractKey = contractKey := by rw [← hd]
  constructor
  case eligible => exact heligible
  case contract => rw [hcontract, hkey]
  case billed => rw [hbilling, hof.billing]
  case target => exact ⟨amount, hamount, by rw [hbilling, htargetAmount, hsub]⟩
  case notNegative => rw [htargetAmount, hnonneg]
  case rate => rw [htargetAmount, hquantity, hactual, hdiv]
  case exact =>
    rw [htargetAmount, hquantity, hactual]
    exact mul_of_div hdiv
  case positive => rw [hquantity, hof.positive]
  case measured => exact hof.quantities
  case quantity =>
    intro line hline
    rw [hquantity]
    exact (of_agreedQuantity hof.agreed (hgroup line hline)).1
  case unit =>
    intro line hline
    rw [hunit]
    exact (of_agreedQuantity hof.agreed (hgroup line hline)).2 line (mem_group.2 ⟨hline, rfl⟩)
  case currency => rw [hbilling, hcurrency, hbill]
  case componentCurrency =>
    intro line hline
    rw [hcurrency, hcomponents line hline]

/-! ## Rates in another order -/

/-- The same rate with its evidence in another order. -/
structure DerivedRate.Alike (d d' : DerivedRate Cell) : Prop where
  same : d' = { d with evidence := d'.evidence }
  evidence : d.evidence.Perm d'.evidence

theorem derivedEvidence_perm {subject : String} {billing : DerivedInputLine Cell}
    {quantities quantities' components components' : List (DerivedInputLine Cell)}
    {target rate : Extended} {unit currency : String} {evidence : List RateEvidence}
    (hquantities : quantities.Perm quantities') (hcomponents : components.Perm components')
    (h : derivedEvidence env subject billing quantities components target rate unit currency =
      .ok evidence) :
    ∃ evidence', derivedEvidence env subject billing quantities' components' target rate unit
      currency = .ok evidence' ∧ evidence.Perm evidence' := by
  rw [derivedEvidence] at h ⊢
  refine exists_mapM_perm ?_ h
  exact ((((hquantities.map _).cons _).append (hcomponents.filterMap _)).append_right _)

theorem rateFrom_alike {contractKey subject : String} {i i' : RateInputs Cell} {target : Extended}
    {d : DerivedRate Cell} (halike : i.Alike i')
    (h : rateFrom env contractKey subject i target = .ok d) :
    ∃ d', rateFrom env contractKey subject i' target = .ok d' ∧ d.Alike d' := by
  obtain ⟨rate, evidence, hdiv, hevidence, rfl⟩ := rateFrom_eq_ok.1 h
  obtain ⟨evidence', hevidence', hperm⟩ :=
    derivedEvidence_perm halike.quantities halike.components hevidence
  rw [halike.billing, halike.unit, halike.currency] at hevidence'
  rw [halike.quantity] at hdiv
  refine ⟨_, rateFrom_eq_ok.2 ⟨rate, evidence', hdiv, hevidence', rfl⟩, ?_, hperm⟩
  have hids := toFinset_eq_of_perm _ _ ((halike.quantities.append halike.components).map
    (·.source.dataset.datasetId))
  rw [halike.billing, halike.quantity, halike.unit, halike.currency, hids]

theorem derivedRate_perm {contract : Option String} {subject : String}
    {rows rows' : List (RowReadings Cell)} (h : rows.Perm rows')
    (hvalued : ∀ r ∈ rows, r.Valued) (hfits : SumsFit rows) {o : Option (DerivedRate Cell)}
    (ho : derivedRate env contract subject rows = .ok o) :
    ∃ o', derivedRate env contract subject rows' = .ok o' ∧ Rel DerivedRate.Alike o o' := by
  obtain ⟨inputs, inputs', hinputs, hinputs', hrel⟩ := rateInputs_perm h hvalued hfits
  have hamounts : ∀ amount ∈ (componentLines rows).filterMap (·.componentAmount),
      amount.isNegative = false := by
    intro amount hamount
    obtain ⟨line, hline, hamount⟩ := mem_filterMap.1 hamount
    obtain ⟨r, hr, hline⟩ := mem_filterMap.1 hline
    exact (hvalued r hr).component line hline amount hamount
  rw [derivedRate, hinputs, ok_bind] at ho
  rw [derivedRate, hinputs', ok_bind]
  cases hrel with
  | none => exact ⟨none, rfl, (pure_eq_ok.1 ho) ▸ .none⟩
  | @some i i' halike =>
    have htargets : targetAmount i' = targetAmount i := by
      have hsum : Extended.sum ((componentLines rows).filterMap (·.componentAmount)) =
          Extended.sum ((componentLines rows').filterMap (·.componentAmount)) :=
        Extended.sum_perm ((h.filterMap _).filterMap _) hamounts hfits.components
      rw [targetAmount, targetAmount, ← halike.billing, (of_rateInputs hinputs').components,
        (of_rateInputs hinputs).components, hsum]
    dsimp only at ho ⊢
    rw [htargets]
    obtain ⟨target, htarget, ho⟩ := bind_eq_ok.1 ho
    rw [htarget, ok_bind]
    cases target with
    | none => exact ⟨none, rfl, (pure_eq_ok.1 ho) ▸ .none⟩
    | some target =>
      cases contract with
      | none => exact ⟨none, rfl, (pure_eq_ok.1 ho) ▸ .none⟩
      | some contractKey =>
        obtain ⟨d, hd, rfl⟩ := map_eq_ok.1 ho
        obtain ⟨d', hd', hdd⟩ := rateFrom_alike halike hd
        exact ⟨some d', map_eq_ok.2 ⟨d', hd', rfl⟩, .some hdd⟩

theorem exists_rates_reordered {rates : List (DerivedRate Cell)}
    (h : deriveActualAppliedRates env pass = .ok rates) (hreordered : pass.Reordered pass')
    (hfits : ∀ subject ∈ pass.eligibleSubjectKeys, SumsFit (subjectReadings env pass subject)) :
    ∃ rates', deriveActualAppliedRates env pass' = .ok rates' ∧
      List.Forall₂ DerivedRate.Alike rates rates' := by
  obtain ⟨hrows, hsubjects, rfl⟩ := derive_eq_ok.1 h
  have heligible : pass'.eligibleSubjectKeys = pass.eligibleSubjectKeys := by
    obtain ⟨-, -, -, hpass⟩ := hreordered
    rw [hpass]
  have hvalued : ∀ subject, ∀ r ∈ subjectReadings env pass subject, r.Valued := by
    intro subject r hr
    obtain ⟨s, -, hs⟩ := mem_filterMap.1 hr
    cases hread : readRow env s with
    | error e =>
      rw [hread] at hs
      exact absurd hs (some_ne_none r).symm
    | ok found =>
      rw [hread] at hs
      obtain rfl := some.inj hs
      exact valued_readRow hread
  have hrate : ∀ subject ∈ pass.eligibleSubjectKeys, ∃ o o', subjectRate env pass subject = .ok o ∧
      subjectRate env pass' subject = .ok o' ∧ Rel DerivedRate.Alike o o' := by
    intro subject hsubject
    obtain ⟨o, ho⟩ := hsubjects subject hsubject
    obtain ⟨o', ho', hrel⟩ := derivedRate_perm (hreordered.readings subject) (hvalued subject)
      (hfits subject hsubject) ho
    exact ⟨o, o', ho, by rw [subjectRate, ← hreordered.contract, ho'], hrel⟩
  refine ⟨_, derive_eq_ok.2 ⟨fun s hs => hrows s (hreordered.rows.mem_iff.2 hs),
    fun subject hsubject => ?_, rfl⟩, ?_⟩
  · obtain ⟨-, o', -, ho', -⟩ := hrate subject (heligible ▸ hsubject)
    exact ⟨o', ho'⟩
  · rw [heligible]
    have hmem : ∀ subject ∈ pass.eligibleSubjectKeys.sort (· ≤ ·),
        subject ∈ pass.eligibleSubjectKeys := fun subject => (Finset.mem_sort _).1
    generalize pass.eligibleSubjectKeys.sort (· ≤ ·) = subjects at hmem
    induction subjects with
    | nil => exact .nil
    | cons subject subjects ih =>
      obtain ⟨o, o', ho, ho', hrel⟩ := hrate subject (hmem subject mem_cons_self)
      have hrest := ih fun s hs => hmem s (mem_cons_of_mem _ hs)
      rw [filterMap_cons, filterMap_cons, ho, ho']
      cases hrel with
      | none => exact hrest
      | some halike => exact .cons halike hrest

/-! ## Derived rates are sound and isolated -/

/-- Derived rates are sound, single for their subjects, independent of the order of datasets and
rows where the sums fit, and independent of the rows of other subjects. -/
structure DerivesSoundly (env : Env Cell) (pass : CompliancePass Cell) : Prop where
  sound : ∀ rates, deriveActualAppliedRates env pass = .ok rates → ∀ d ∈ rates, SoundRate env pass d
  single : ∀ rates, deriveActualAppliedRates env pass = .ok rates → (rates.map (·.subjectKey)).Nodup
  unordered : ∀ rates pass', deriveActualAppliedRates env pass = .ok rates → pass.Reordered pass' →
    (∀ subject ∈ pass.eligibleSubjectKeys, SumsFit (subjectReadings env pass subject)) →
      ∃ rates', deriveActualAppliedRates env pass' = .ok rates' ∧
        List.Forall₂ DerivedRate.Alike rates rates'
  isolated : ∀ rates pass' rates' subject, deriveActualAppliedRates env pass = .ok rates →
    SameFor env subject pass pass' → deriveActualAppliedRates env pass' = .ok rates' →
      ∀ d : DerivedRate Cell, d.subjectKey = subject → (d ∈ rates ↔ d ∈ rates')

theorem derivesSoundly (env : Env Cell) (pass : CompliancePass Cell) : DerivesSoundly env pass where
  sound _ h _ hd := soundRate h hd
  single _ h := nodup_subjectKeys h
  unordered _ _ h hreordered hfits := exists_rates_reordered h hreordered hfits
  isolated := by
    rintro rates pass' rates' _ h hsame h' d rfl
    rw [mem_rates h, mem_rates h', hsame.eligible, hsame.rate]

/-! ## Rounding and undefined products -/

namespace WorkOrder

/-- A bill of 100 for work order A. -/
def billed : AppliedRateDatasetFields PlainCell where
  datasetId := 1
  datasetLabel := "invoices"
  dataframe := ⟨["wo", "amount", "currency", "contract"], [
    ⟨"0", fun field => if field = "wo" then .text "A" else if field = "amount" then .integer 100
      else if field = "currency" then .text "USD" else .text "C"⟩]⟩
  trustAssessmentId := none
  subjectIdField := some "wo"
  actualRateField := none
  contractIdField := some "contract"
  unitField := none
  currencyField := some "currency"
  invoiceAmountField := some "amount"

def hoursRow (amount : ℤ) : Row PlainCell :=
  ⟨"0", fun field => if field = "wo" then .text "A" else .integer amount⟩

/-- Hours of the work order. -/
def hours (amounts : List ℤ) : AppliedRateDatasetFields PlainCell where
  datasetId := 2
  datasetLabel := "hours"
  dataframe := ⟨["wo", "quantity"], amounts.map hoursRow⟩
  trustAssessmentId := none
  subjectIdField := some "wo"
  actualRateField := none
  contractIdField := none
  unitField := none
  currencyField := none
  quantityField := some "quantity"
  implicitQuantityUnit := some "hour"

/-- Priced components of work order B: none, at an infinite price. -/
def components (rows : List (Row PlainCell)) : AppliedRateDatasetFields PlainCell where
  datasetId := 3
  datasetLabel := "components"
  dataframe := ⟨["wo", "quantity", "price", "currency"], rows⟩
  trustAssessmentId := none
  subjectIdField := some "wo"
  actualRateField := none
  contractIdField := none
  unitField := none
  currencyField := some "currency"
  quantityField := some "quantity"
  componentUnitPriceField := some "price"

def infinitePrice : Row PlainCell :=
  ⟨"0", fun field => if field = "wo" then .text "B" else if field = "quantity" then .integer 0
    else if field = "price" then .text "Infinity" else .text "USD"⟩

/-- The standard library, with the text of an infinity. -/
def withInfinity : Env PlainCell :=
  { Env.plain with
    toNumeric
      | .text value => if value = "Infinity" then some (.infinite false) else none
      | value => Env.plain.toNumeric value }

def passOf (eligible : Finset String) (datasets : List (AppliedRateDatasetFields PlainCell)) :
    CompliancePass PlainCell where
  organizationId := 9
  datasets
  eligibleSubjectKeys := eligible
  rateDatasets := []

/-- What is read off the rates of a derivation that goes through. -/
def observed {β : Type} (read : DerivedRate PlainCell → β)
    (rates : Except Raised (List (DerivedRate PlainCell))) : Option (List β) :=
  rates.toOption.map (List.map read)

theorem exists_rates {β : Type} {read : DerivedRate PlainCell → β} {seen : List β}
    {pass : CompliancePass PlainCell}
    (h : observed read (deriveActualAppliedRates Env.plain pass) = some seen) :
    ∃ rates, deriveActualAppliedRates Env.plain pass = .ok rates ∧ rates.map read = seen := by
  cases hrates : deriveActualAppliedRates Env.plain pass with
  | error e =>
    rw [hrates] at h
    exact absurd h (some_ne_none seen).symm
  | ok rates =>
    rw [hrates] at h
    exact ⟨rates, rfl, some.inj h⟩

/-- The rational product of a rate and its quantity, less its target amount. -/
def remainder (d : DerivedRate PlainCell) : ℚ :=
  d.actualRate.finitePart * d.quantity.finitePart - d.targetAmount.finitePart

theorem rate_inexact : ∃ rates,
    deriveActualAppliedRates Env.plain (passOf {"A"} [billed, hours [3]]) = .ok rates ∧
      rates.map remainder = [-1 / 10 ^ 26] :=
  exists_rates (by decide +kernel)

theorem quantity_first : ∃ rates,
    deriveActualAppliedRates Env.plain (passOf {"A"} [billed, hours [10 ^ 28, 4, 4]]) = .ok rates ∧
      rates.map (·.quantity) = [.finite (10 ^ 28)] :=
  exists_rates (by decide +kernel)

theorem quantity_last : ∃ rates,
    deriveActualAppliedRates Env.plain (passOf {"A"} [billed, hours [4, 4, 10 ^ 28]]) = .ok rates ∧
      rates.map (·.quantity) = [.finite (10 ^ 28 + 10)] :=
  exists_rates (by decide +kernel)

theorem reordered : (passOf {"A"} [billed, hours [10 ^ 28, 4, 4]]).Reordered
    (passOf {"A"} [billed, hours [4, 4, 10 ^ 28]]) := by
  have hrotate : ([10 ^ 28, 4, 4] : List ℤ).Perm [4, 4, 10 ^ 28] :=
    (List.Perm.swap _ _ _).trans ((List.Perm.swap _ _ _).cons _)
  have hhours : (hours [10 ^ 28, 4, 4]).dataframe.rows.Perm
      (hours [4, 4, 10 ^ 28]).dataframe.rows := hrotate.map hoursRow
  refine ⟨[billed, hours [4, 4, 10 ^ 28]], ?_, List.Perm.refl _, rfl⟩
  exact .cons ⟨_, List.Perm.refl _, rfl⟩ (.cons ⟨_, hhours, rfl⟩ .nil)

/-- The pass of work order A with the component rows of work order B. -/
def beside (rows : List (Row PlainCell)) : CompliancePass PlainCell :=
  passOf {"A", "B"} [billed, hours [3], components rows]

theorem beside_sameFor : SameFor withInfinity "A" (beside []) (beside [infinitePrice]) where
  datasets := .cons ⟨_, rfl, rfl⟩ (.cons ⟨_, rfl, rfl⟩ (.cons ⟨[infinitePrice], rfl, rfl⟩ .nil))
  eligible := Iff.rfl
  subjectEntityType := rfl

theorem beside_nil : ∃ rates, deriveActualAppliedRates withInfinity (beside []) = .ok rates := by
  have hrows : ((derivationRows withInfinity (beside [])).all fun s =>
      (readRow withInfinity s).toOption.isSome) = true := by
    decide +kernel
  have hsubjects : ∀ subject ∈ ({"A", "B"} : Finset String),
      (subjectRate withInfinity (beside []) subject).toOption.isSome = true := by
    decide +kernel
  have hok : ∀ {α : Type} {o : Except Raised α}, o.toOption.isSome = true → ∃ a, o = .ok a := by
    intro α o ho
    cases o with
    | error e => exact absurd ho Bool.false_ne_true
    | ok a => exact ⟨a, rfl⟩
  exact ⟨_, derive_eq_ok.2 ⟨fun s hs => hok (all_eq_true.1 hrows s hs),
    fun subject hsubject => hok (hsubjects subject hsubject), rfl⟩⟩

theorem beside_infinitePrice :
    (deriveActualAppliedRates withInfinity (beside [infinitePrice])).toOption = none := by
  decide +kernel

/-- The rate is not exact, it depends on the order of the rows, and a row of another work order may
take it away. -/
theorem rates_not_exact :
    (¬ ∀ rates, deriveActualAppliedRates Env.plain (passOf {"A"} [billed, hours [3]]) = .ok rates →
      ∀ d ∈ rates, remainder d = 0) ∧
    (¬ ∀ pass', (passOf {"A"} [billed, hours [10 ^ 28, 4, 4]]).Reordered pass' →
      ∀ rates rates', deriveActualAppliedRates Env.plain
          (passOf {"A"} [billed, hours [10 ^ 28, 4, 4]]) = .ok rates →
        deriveActualAppliedRates Env.plain pass' = .ok rates' →
          List.Forall₂ DerivedRate.Alike rates rates') ∧
    ¬ ∀ pass', SameFor withInfinity "A" (beside []) pass' →
      ∀ rates, deriveActualAppliedRates withInfinity (beside []) = .ok rates →
        ∃ rates', deriveActualAppliedRates withInfinity pass' = .ok rates' := by
  refine ⟨fun h => ?_, fun h => ?_, fun h => ?_⟩
  · obtain ⟨rates, hrates, hseen⟩ := rate_inexact
    obtain ⟨d, hd, hremainder⟩ := mem_map.1 (hseen ▸ mem_singleton.2 rfl)
    rw [h rates hrates d hd] at hremainder
    exact absurd hremainder (by norm_num)
  · obtain ⟨rates, hrates, hseen⟩ := quantity_first
    obtain ⟨rates', hrates', hseen'⟩ := quantity_last
    have halike := h _ reordered rates rates' hrates hrates'
    have hsame : rates.map (·.quantity) = rates'.map (·.quantity) := by
      clear hrates hrates' hseen hseen'
      induction halike with
      | nil => rfl
      | cons hhead _ ih =>
        rw [map_cons, map_cons, ih, hhead.same]
    rw [hseen, hseen'] at hsame
    have hfinite := Extended.finite.inj (singleton_inj.1 hsame)
    exact absurd hfinite (by norm_num)
  · obtain ⟨rates, hrates⟩ := beside_nil
    obtain ⟨rates', hrates'⟩ := h _ beside_sameFor rates hrates
    have hinfinite := beside_infinitePrice
    rw [hrates'] at hinfinite
    exact absurd hinfinite (some_ne_none _)

end WorkOrder

end Intel4Ops.Revenue
