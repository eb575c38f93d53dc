import Intel4Ops.Revenue.Derived

/-!
# Derived rates of one subject

Three accumulators are filled in one pass over all rows. Here it is shown that the rate derived for
a subject is that of its own rows, read one by one, so the rows of other subjects do not change it.

An exception ends the derivation for all subjects. What is shown is about the derivations that go
through.
-/

namespace Intel4Ops.Revenue

open Lib Lib.Decimal List Option

variable {Cell : Type} {env : Env Cell} {pass pass' : CompliancePass Cell}

/-! ## The rows of a subject -/

def subjectReadings (env : Env Cell) (pass : CompliancePass Cell) (subject : String) :
    List (RowReadings Cell) :=
  ((derivationRows env pass).filter (·.subject = subject)).filterMap fun s =>
    (readRow env s).toOption

def subjectRate (env : Env Cell) (pass : CompliancePass Cell) (subject : String) :
    Except Raised (Option (DerivedRate Cell)) :=
  derivedRate env (contractOfSubject env pass subject) subject (subjectReadings env pass subject)

theorem source_readRow {s : AppliedRow Cell} {r : RowReadings Cell} (h : readRow env s = .ok r) :
    r.source = s := by
  rw [readRow] at h
  split at h
  · obtain rfl := Except.ok.inj h
    rfl
  · obtain ⟨component, -, rfl⟩ := map_eq_ok.1 h
    rfl

theorem group_readings (rows : List (AppliedRow Cell)) (subject : String) :
    group (·.source.subject) (rows.filterMap fun s => (readRow env s).toOption) subject =
      (rows.filter (·.subject = subject)).filterMap fun s => (readRow env s).toOption := by
  rw [group, filter_filterMap, filterMap_filter]
  refine filterMap_congr fun s _ => ?_
  cases h : readRow env s with
  | error e => simp [Except.toOption]
  | ok r =>
    have hsource := source_readRow h
    simp only [Except.toOption, filter_some, hsource]

/-- The derivation goes through just when every row can be read and every subject be treated, and
then its rates are those of the subjects. -/
theorem derive_eq_ok {rates : List (DerivedRate Cell)} :
    deriveActualAppliedRates env pass = .ok rates ↔
      (∀ s ∈ derivationRows env pass, ∃ r, readRow env s = .ok r) ∧
        (∀ subject ∈ pass.eligibleSubjectKeys, ∃ d, subjectRate env pass subject = .ok d) ∧
          rates = (pass.eligibleSubjectKeys.sort (· ≤ ·)).filterMap fun subject =>
            (subjectRate env pass subject).toOption.join := by
  have hjoin : ∀ subjects : List String,
      (subjects.filterMap fun subject => (subjectRate env pass subject).toOption).filterMap id =
        subjects.filterMap fun subject => (subjectRate env pass subject).toOption.join := by
    intro subjects
    rw [filterMap_filterMap]
    refine filterMap_congr fun subject _ => ?_
    cases subjectRate env pass subject with
    | error e | ok d => rfl
  rw [deriveActualAppliedRates, bind_eq_ok]
  constructor
  · rintro ⟨readings, hreadings, h⟩
    obtain ⟨hrows, rfl⟩ := mapM_eq_ok_iff.1 hreadings
    obtain ⟨found, hfound, h⟩ := bind_eq_ok.1 h
    obtain rfl := pure_eq_ok.1 h
    simp only [group_readings] at hfound
    obtain ⟨hsubjects, rfl⟩ := mapM_eq_ok_iff.1 hfound
    exact ⟨hrows, fun subject hsubject => hsubjects subject ((Finset.mem_sort _).2 hsubject),
      hjoin _⟩
  · rintro ⟨hrows, hsubjects, rfl⟩
    refine ⟨_, mapM_eq_filterMap hrows, ?_⟩
    simp only [group_readings]
    exact bind_eq_ok.2 ⟨_, mapM_eq_filterMap fun subject hsubject =>
      hsubjects subject ((Finset.mem_sort _).1 hsubject), pure_eq_ok.2 (hjoin _)⟩

variable {d : DerivedRate Cell}

theorem derivedRate_eq_some {contract : Option String} {subject : String}
    {rows : List (RowReadings Cell)} :
    derivedRate env contract subject rows = .ok (some d) ↔
      ∃ inputs target contractKey, rateInputs rows = .ok (some inputs) ∧
        targetAmount inputs = .ok (some target) ∧ contract = some contractKey ∧
          rateFrom env contractKey subject inputs target = .ok d := by
  rw [derivedRate, bind_eq_ok]
  constructor
  · rintro ⟨inputs, hinputs, h⟩
    cases inputs with
    | none => exact absurd (pure_eq_ok.1 h) (some_ne_none d).symm
    | some inputs =>
      obtain ⟨target, htarget, h⟩ := bind_eq_ok.1 h
      cases target with
      | none => exact absurd (pure_eq_ok.1 h) (some_ne_none d).symm
      | some target =>
        cases contract with
        | none => exact absurd (pure_eq_ok.1 h) (some_ne_none d).symm
        | some contractKey =>
          obtain ⟨rate, hrate, hd⟩ := map_eq_ok.1 h
          obtain rfl := some.inj hd
          exact ⟨inputs, target, contractKey, hinputs, htarget, rfl, hrate⟩
  · rintro ⟨inputs, target, contractKey, hinputs, htarget, rfl, hrate⟩
    refine ⟨some inputs, hinputs, bind_eq_ok.2 ⟨some target, htarget, ?_⟩⟩
    exact map_eq_ok.2 ⟨d, hrate, rfl⟩

theorem rateFrom_eq_ok {contractKey subject : String} {inputs : RateInputs Cell}
    {target : Extended} :
    rateFrom env contractKey subject inputs target = .ok d ↔
      ∃ rate evidence, target.div inputs.quantity = some rate ∧
        derivedEvidence env subject inputs.billing inputs.quantities inputs.components target rate
          inputs.unit inputs.currency = .ok evidence ∧
            { billing := inputs.billing, subjectKey := subject, contractKey, actualRate := rate
              targetAmount := target, quantity := inputs.quantity, unit := inputs.unit
              currency := inputs.currency, evidence
              contributingDatasetIds := ((inputs.quantities ++ inputs.components).map
                (·.source.dataset.datasetId)).toFinset.erase
                  inputs.billing.source.dataset.datasetId } = d := by
  simp only [rateFrom, bind_eq_ok, orFail_eq_ok, pure_eq_ok, exists_and_left]

theorem subjectKey_derivedRate {contract : Option String} {subject : String}
    {rows : List (RowReadings Cell)} (h : derivedRate env contract subject rows = .ok (some d)) :
    d.subjectKey = subject := by
  obtain ⟨inputs, target, contractKey, -, -, -, hrate⟩ := derivedRate_eq_some.1 h
  obtain ⟨rate, evidence, -, -, rfl⟩ := rateFrom_eq_ok.1 hrate
  rfl

theorem mem_rates {rates : List (DerivedRate Cell)}
    (h : deriveActualAppliedRates env pass = .ok rates) :
    d ∈ rates ↔
      d.subjectKey ∈ pass.eligibleSubjectKeys ∧ subjectRate env pass d.subjectKey = .ok (some d) := by
  obtain ⟨-, hsubjects, rfl⟩ := derive_eq_ok.1 h
  rw [mem_filterMap]
  constructor
  · rintro ⟨subject, hsubject, hd⟩
    rw [Finset.mem_sort] at hsubject
    obtain ⟨d', hd'⟩ := hsubjects subject hsubject
    rw [hd'] at hd
    obtain rfl : d' = some d := hd
    obtain rfl := subjectKey_derivedRate hd'
    exact ⟨hsubject, hd'⟩
  · rintro ⟨hsubject, hd⟩
    exact ⟨d.subjectKey, (Finset.mem_sort _).2 hsubject, by rw [hd]; rfl⟩

theorem nodup_subjectKeys {rates : List (DerivedRate Cell)}
    (h : deriveActualAppliedRates env pass = .ok rates) : (rates.map (·.subjectKey)).Nodup := by
  obtain ⟨-, -, rfl⟩ := derive_eq_ok.1 h
  have hkey : ∀ subject (d : DerivedRate Cell),
      (subjectRate env pass subject).toOption.join = some d → d.subjectKey = subject := by
    intro subject d hd
    cases hrate : subjectRate env pass subject with
    | error e =>
      rw [hrate] at hd
      exact absurd hd (some_ne_none d).symm
    | ok found =>
      rw [hrate] at hd
      obtain rfl : found = some d := hd
      exact subjectKey_derivedRate hrate
  exact (map_filterMap_sublist hkey _).nodup (Finset.sort_nodup _ _)

/-! ## Other subjects -/

def rowOf (env : Env Cell) (subject : String) (ds : AppliedRateDatasetFields Cell) (row : Row Cell) :
    Bool :=
  match ds.dataframe.present ds.subjectIdField with
  | none => false
  | some field => env.text (row.cell field) = some subject

/-- Two passes over the same datasets that differ in rows of other subjects only. -/
structure SameFor (env : Env Cell) (subject : String) (pass pass' : CompliancePass Cell) :
    Prop where
  datasets : List.Forall₂ (fun ds ds' => ∃ rows, ds' = ds.withRows rows ∧
    rows.filter (rowOf env subject ds) = ds.dataframe.rows.filter (rowOf env subject ds))
      pass.datasets pass'.datasets
  eligible : subject ∈ pass.eligibleSubjectKeys ↔ subject ∈ pass'.eligibleSubjectKeys
  subjectEntityType : pass.subjectEntityType = pass'.subjectEntityType

theorem filter_appliedRows (ds : AppliedRateDatasetFields Cell) (subject : String) :
    (appliedRows env pass ds).filter (·.subject = subject) =
      if subject ∈ pass.eligibleSubjectKeys then
        (ds.dataframe.rows.filter (rowOf env subject ds)).map fun row =>
          ⟨ds.withRows [], row, subject⟩
      else [] := by
  rw [appliedRows]
  cases hfield : ds.dataframe.present ds.subjectIdField with
  | none =>
    have hnone : rowOf env subject ds = fun _ => false := by
      funext row
      rw [rowOf, hfield]
    simp [hnone]
  | some field =>
    have hrow : ∀ row, rowOf env subject ds row =
        decide (env.text (row.cell field) = some subject) := by
      intro row
      rw [rowOf, hfield]
    -- one row of the dataset is taken just when it is one of the subject
    have hopt : ∀ row, (((env.text (row.cell field)).filter
        (· ∈ pass.eligibleSubjectKeys)).map fun key =>
          (⟨ds.withRows [], row, key⟩ : AppliedRow Cell)).filter (·.subject = subject) =
        if rowOf env subject ds row = true ∧ subject ∈ pass.eligibleSubjectKeys then
          some ⟨ds.withRows [], row, subject⟩
        else none := by
      intro row
      simp only [hrow, decide_eq_true_eq]
      cases env.text (row.cell field) with
      | none => simp
      | some key =>
        by_cases hkey : key = subject
        · subst hkey
          by_cases heligible : key ∈ pass.eligibleSubjectKeys
          · simp [heligible]
          · simp [heligible]
        · by_cases heligible : key ∈ pass.eligibleSubjectKeys
          · simp [heligible, hkey]
          · simp [heligible, hkey]
    simp only [filter_filterMap, hopt]
    by_cases heligible : subject ∈ pass.eligibleSubjectKeys
    · simp only [heligible, and_true, if_true]
      induction ds.dataframe.rows with
      | nil => rfl
      | cons row rows ih =>
        by_cases hsubject : rowOf env subject ds row = true
        · rw [filterMap_cons, if_pos hsubject, filter_cons_of_pos hsubject, ih]
          rfl
        · rw [filterMap_cons, if_neg hsubject, filter_cons_of_neg hsubject, ih]
    · simp [heligible]

theorem filter_derivationRows (pass : CompliancePass Cell) (subject : String) :
    (derivationRows env pass).filter (·.subject = subject) = pass.datasets.flatMap fun ds =>
      if ds.isRateCardShaped = false ∧ ((ds.dataframe.present ds.invoiceAmountField).isSome ∨
          (ds.dataframe.present ds.componentUnitPriceField).isSome ∨
            (targetQuantityField ds).isSome) then
        (appliedRows env pass ds).filter (·.subject = subject)
      else [] := by
  rw [derivationRows, filter_flatMap]
  congr 1
  funext ds
  split
  · rfl
  · rfl

theorem SameFor.rows {subject : String} (h : SameFor env subject pass pass') :
    (derivationRows env pass).filter (·.subject = subject) =
      (derivationRows env pass').filter (·.subject = subject) := by
  have heligible := h.eligible
  have hdatasets := h.datasets
  rw [filter_derivationRows, filter_derivationRows]
  simp only [filter_appliedRows]
  generalize pass.datasets = datasets at hdatasets
  generalize pass'.datasets = datasets' at hdatasets
  induction hdatasets with
  | nil => rfl
  | @cons ds ds' datasets datasets' hds _ ih =>
    obtain ⟨rows, rfl, hrows⟩ := hds
    have hrows' : (ds.withRows rows).dataframe.rows.filter (rowOf env subject (ds.withRows rows)) =
        ds.dataframe.rows.filter (rowOf env subject ds) := hrows
    rw [flatMap_cons, flatMap_cons, ih, hrows']
    simp only [heligible]
    rfl

/-- The contracts that stand in the rows of a subject. -/
def contractsOf (env : Env Cell) (subject : String) (ds : AppliedRateDatasetFields Cell) :
    List String :=
  match ds.dataframe.present ds.contractIdField with
  | none => []
  | some field => (ds.dataframe.rows.filter (rowOf env subject ds)).filterMap fun row =>
      env.text (row.cell field)

theorem contracts_of_subject (pass : CompliancePass Cell) (subject : String) :
    (group (·.1) (subjectContracts env pass) subject).map (·.2) =
      pass.datasets.flatMap (contractsOf env subject) := by
  rw [group, subjectContracts, filter_flatMap, map_flatMap]
  congr 1
  funext ds
  rw [contractsOf]
  cases hfield : ds.dataframe.present ds.subjectIdField with
  | none =>
    have hnone : rowOf env subject ds = fun _ => false := by
      funext row
      rw [rowOf, hfield]
    cases ds.dataframe.present ds.contractIdField with
    | none => rfl
    | some field => simp [hnone]
  | some subjectField =>
    cases ds.dataframe.present ds.contractIdField with
    | none => rfl
    | some field =>
      dsimp only
      induction ds.dataframe.rows with
      | nil => rfl
      | cons row rows ih =>
        have hrow : rowOf env subject ds row =
            decide (env.text (row.cell subjectField) = some subject) := by
          rw [rowOf, hfield]
        rw [filterMap_cons, filter_cons]
        simp only [hrow, decide_eq_true_eq]
        cases htext : env.text (row.cell subjectField) with
        | none => simpa using ih
        | some key =>
          cases hcontract : env.text (row.cell field) with
          | none | some contract =>
            by_cases hkey : key = subject
            · simpa [hkey, hcontract] using ih
            · simpa [hkey] using ih

theorem SameFor.contract {subject : String} (h : SameFor env subject pass pass') :
    contractOfSubject env pass subject = contractOfSubject env pass' subject := by
  have hdatasets := h.datasets
  have hcontracts : pass.datasets.flatMap (contractsOf env subject) =
      pass'.datasets.flatMap (contractsOf env subject) := by
    generalize pass.datasets = datasets at hdatasets
    generalize pass'.datasets = datasets' at hdatasets
    induction hdatasets with
    | nil => rfl
    | @cons ds ds' datasets datasets' hds _ ih =>
      obtain ⟨rows, rfl, hrows⟩ := hds
      have hhead : contractsOf env subject (ds.withRows rows) = contractsOf env subject ds := by
        have hrows' : (ds.withRows rows).dataframe.rows.filter
            (rowOf env subject (ds.withRows rows)) =
              ds.dataframe.rows.filter (rowOf env subject ds) := hrows
        rw [contractsOf, hrows']
        rfl
      rw [flatMap_cons, flatMap_cons, hhead, ih]
  rw [contractOfSubject, contractOfSubject, subjectContractMap, subjectContractMap,
    contracts_of_subject, contracts_of_subject, hcontracts, h.subjectEntityType]

theorem SameFor.rate {subject : String} (h : SameFor env subject pass pass') :
    subjectRate env pass subject = subjectRate env pass' subject := by
  rw [subjectRate, subjectRate, subjectReadings, subjectReadings, h.rows, h.contract]

end Intel4Ops.Revenue
