import Intel4Ops.Revenue.Rates

/-!
# Unique rates

A rate is returned when exactly one row passes the filters of `resolve_applicable_rate`. A row that
declares from when or until when it is in force should pass only if that boundary can be read. The
filters take a boundary that cannot be read for no boundary at all.

What is returned does not depend on any order, and one more row that passes makes the rates
ambiguous. So the answer is right just where the rows with unreadable boundaries do not change
whether exactly one row passes.
-/

namespace Intel4Ops.Revenue

open Lib List Option

/-! ## Readable boundaries -/

/-- What a rate is asked for. -/
structure RateQuery where
  contractKey : String
  instant : Option Instant
  (quantityUnit quantityCurrency : Option String)

def RateDatasetFields.withRows {Cell : Type} (dataset : RateDatasetFields Cell)
    (rows : List (Row Cell)) : RateDatasetFields Cell :=
  { dataset with dataframe := { dataset.dataframe with rows } }

section Readable

variable {Cell : Type} (env : Env Cell)

/-- The row states a boundary. -/
def Env.declares (value : Cell) : Bool := env.notna value && (env.text value).isSome

/-- The row leaves the boundary open, or states one that can be read. -/
def boundaryParses (frame : DataFrame Cell) (field : Option String) (row : Row Cell) : Bool :=
  match frame.present field with
  | none => true
  | some f => !env.declares (row.cell f) || (env.timestamp (row.cell f)).isSome

def wellDated (dataset : RateDatasetFields Cell) (row : Row Cell) : Bool :=
  boundaryParses env dataset.dataframe dataset.effectiveFromField row &&
    boundaryParses env dataset.dataframe dataset.effectiveToField row

/-- The dataset's rows are looked at. -/
def RateDatasetFields.Usable (dataset : RateDatasetFields Cell) : Prop :=
  dataset.temporalAuthorityUnresolved = false ∧
    dataset.contractIdField ∈ dataset.dataframe.columns ∧
      dataset.rateField ∈ dataset.dataframe.columns

/-- The rates of the rows of a kind that pass the filters. -/
def ratesWhere (kind : RateDatasetFields Cell → Row Cell → Bool) (query : RateQuery)
    (datasets : List (RateDatasetFields Cell)) : List GovernedRateEvidence :=
  datasets.flatMap fun dataset =>
    rateMatches env query.contractKey query.instant query.quantityUnit query.quantityCurrency
      (dataset.withRows (dataset.dataframe.rows.filter (kind dataset)))

/-- The rates of the applicable rows: those that pass the filters and whose boundaries can be
read. -/
def applicableRates (query : RateQuery) (datasets : List (RateDatasetFields Cell)) :
    List GovernedRateEvidence :=
  ratesWhere env (wellDated env) query datasets

/-- The rates of the rows that pass the filters although a boundary cannot be read. -/
def misdatedRates (query : RateQuery) (datasets : List (RateDatasetFields Cell)) :
    List GovernedRateEvidence :=
  ratesWhere env (fun dataset row => !wellDated env dataset row) query datasets

def resolveRate (query : RateQuery) (datasets : List (RateDatasetFields Cell)) :
    Option GovernedRateEvidence :=
  resolveApplicableRate env datasets query.contractKey query.instant query.quantityUnit
    query.quantityCurrency

end Readable

variable {Cell : Type} {env : Env Cell} {query : RateQuery}

/-! ## Rows that pass -/

/-- The rates of all rows that pass the filters. -/
def passingRates (env : Env Cell) (query : RateQuery) (datasets : List (RateDatasetFields Cell)) :
    List GovernedRateEvidence :=
  datasets.flatMap
    (rateMatches env query.contractKey query.instant query.quantityUnit query.quantityCurrency)

theorem resolveRate_eq_some {datasets : List (RateDatasetFields Cell)}
    {rate : GovernedRateEvidence} :
    resolveRate env query datasets = some rate ↔ passingRates env query datasets = [rate] := by
  rw [resolveRate, resolveApplicableRate, ← passingRates]
  split
  case h_1 found hfound =>
    rw [hfound, some.injEq, List.cons.injEq]
    exact ⟨fun h => ⟨h, rfl⟩, fun h => h.1⟩
  case h_2 hnot => exact iff_of_false (some_ne_none rate).symm fun h => hnot rate h

theorem rateMatches_withRows (dataset : RateDatasetFields Cell) (rows : List (Row Cell)) :
    rateMatches env query.contractKey query.instant query.quantityUnit query.quantityCurrency
        (dataset.withRows rows) =
      if dataset.temporalAuthorityUnresolved ∨
          dataset.contractIdField ∉ dataset.dataframe.columns ∨
            dataset.rateField ∉ dataset.dataframe.columns then []
      else rows.filterMap (rateMatch env dataset query.contractKey query.instant
        query.quantityUnit query.quantityCurrency) := rfl

theorem rateMatches_perm (dataset : RateDatasetFields Cell) {rows rows' : List (Row Cell)}
    (h : rows.Perm rows') :
    (rateMatches env query.contractKey query.instant query.quantityUnit query.quantityCurrency
      (dataset.withRows rows)).Perm
        (rateMatches env query.contractKey query.instant query.quantityUnit query.quantityCurrency
          (dataset.withRows rows')) := by
  rw [rateMatches_withRows, rateMatches_withRows]
  split
  · exact List.Perm.refl _
  · exact h.filterMap _

theorem rateMatches_append (dataset : RateDatasetFields Cell) (rows rows' : List (Row Cell)) :
    rateMatches env query.contractKey query.instant query.quantityUnit query.quantityCurrency
        (dataset.withRows (rows ++ rows')) =
      rateMatches env query.contractKey query.instant query.quantityUnit query.quantityCurrency
          (dataset.withRows rows) ++
        rateMatches env query.contractKey query.instant query.quantityUnit query.quantityCurrency
          (dataset.withRows rows') := by
  rw [rateMatches_withRows, rateMatches_withRows, rateMatches_withRows]
  split
  · rfl
  · exact filterMap_append

theorem passingRates_perm (env : Env Cell) (query : RateQuery)
    (datasets : List (RateDatasetFields Cell)) :
    (applicableRates env query datasets ++ misdatedRates env query datasets).Perm
      (passingRates env query datasets) := by
  rw [applicableRates, misdatedRates, ratesWhere, ratesWhere, passingRates]
  refine (flatMap_append_perm datasets _ _).trans ?_
  refine List.Perm.flatMap_left datasets fun dataset _ => ?_
  rw [← rateMatches_append]
  exact rateMatches_perm dataset (filter_append_perm _ _)

/-! ## Order and further rows -/

/-- The same datasets with their rows in another order, in another order. -/
def Reordered (datasets datasets' : List (RateDatasetFields Cell)) : Prop :=
  ∃ shuffled, List.Forall₂ (fun dataset dataset' => ∃ rows, dataset.dataframe.rows.Perm rows ∧
    dataset' = dataset.withRows rows) datasets shuffled ∧ shuffled.Perm datasets'

theorem passingRates_reordered {datasets datasets' : List (RateDatasetFields Cell)}
    (h : Reordered datasets datasets') :
    (passingRates env query datasets).Perm (passingRates env query datasets') := by
  obtain ⟨shuffled, hrows, hperm⟩ := h
  refine List.Perm.trans ?_ (hperm.flatMap_right _)
  clear hperm
  induction hrows with
  | nil => exact List.Perm.refl _
  | @cons dataset dataset' datasets shuffled hhead _ ih =>
    obtain ⟨rows, hrows, rfl⟩ := hhead
    rw [flatMap_cons]
    exact (rateMatches_perm dataset hrows).append ih

theorem resolveRate_perm {datasets datasets' : List (RateDatasetFields Cell)}
    (h : (passingRates env query datasets).Perm (passingRates env query datasets')) :
    resolveRate env query datasets' = resolveRate env query datasets := by
  apply ext
  intro rate
  rw [resolveRate_eq_some, resolveRate_eq_some]
  constructor
  · intro hrate
    rw [hrate] at h
    exact perm_singleton.1 h
  · intro hrate
    rw [hrate] at h
    exact perm_singleton.1 h.symm

theorem resolveRate_insert {front back : List (RateDatasetFields Cell)}
    {dataset : RateDatasetFields Cell} {rows rows' : List (Row Cell)} {row : Row Cell}
    {rate : GovernedRateEvidence} (hrows : dataset.dataframe.rows = rows ++ rows')
    (husable : dataset.Usable)
    (hmatch : (rateMatch env dataset query.contractKey query.instant query.quantityUnit
      query.quantityCurrency row).isSome = true)
    (hrate : resolveRate env query (front ++ dataset :: back) = some rate) :
    resolveRate env query (front ++ dataset.withRows (rows ++ row :: rows') :: back) = none := by
  rw [resolveRate_eq_some] at hrate
  have hlength := congrArg List.length hrate
  rw [← not_isSome_iff_eq_none, isSome_iff_exists]
  rintro ⟨rate', hrate'⟩
  rw [resolveRate_eq_some] at hrate'
  have hlength' := congrArg List.length hrate'
  obtain ⟨found, hfound⟩ := isSome_iff_exists.1 hmatch
  have hnot : ¬ (dataset.temporalAuthorityUnresolved ∨
      dataset.contractIdField ∉ dataset.dataframe.columns ∨
        dataset.rateField ∉ dataset.dataframe.columns) := by
    rintro (h | h | h)
    · exact Bool.false_ne_true (husable.1.symm.trans h)
    · exact h husable.2.1
    · exact h husable.2.2
  have hself : dataset = dataset.withRows (rows ++ rows') := by
    rw [RateDatasetFields.withRows, ← hrows]
  rw [hself] at hlength
  simp only [passingRates, flatMap_append, flatMap_cons, length_append,
    rateMatches_withRows, if_neg hnot, filterMap_append, filterMap_cons, hfound,
    length_cons] at hlength hlength'
  omega

/-! ## Unique, ordered and safe -/

/-- A rate is returned just when one row is applicable, whatever the order, and none any more once
a further row is applicable. -/
structure UniquelyResolved (env : Env Cell) (query : RateQuery)
    (datasets : List (RateDatasetFields Cell)) : Prop where
  unique : ∀ rate, resolveRate env query datasets = some rate ↔
    applicableRates env query datasets = [rate]
  unordered : ∀ datasets', Reordered datasets datasets' →
    resolveRate env query datasets' = resolveRate env query datasets
  further : ∀ front back dataset rows rows' row rate, datasets = front ++ dataset :: back →
    dataset.dataframe.rows = rows ++ rows' → dataset.Usable → wellDated env dataset row = true →
      (rateMatch env dataset query.contractKey query.instant query.quantityUnit
        query.quantityCurrency row).isSome = true →
          resolveRate env query datasets = some rate →
            resolveRate env query (front ++ dataset.withRows (rows ++ row :: rows') :: back) = none

/-- The rows that pass with an unreadable boundary do not change whether exactly one row passes:
there are none, or two rows are applicable anyway, or none is and they are two or more. -/
def MisdatedHarmless (env : Env Cell) (query : RateQuery)
    (datasets : List (RateDatasetFields Cell)) : Prop :=
  misdatedRates env query datasets = [] ∨ 2 ≤ (applicableRates env query datasets).length ∨
    applicableRates env query datasets = [] ∧ 2 ≤ (misdatedRates env query datasets).length

/-- The resolution is right just where rows with unreadable boundaries do no harm. -/
theorem uniquelyResolved_iff (env : Env Cell) (query : RateQuery)
    (datasets : List (RateDatasetFields Cell)) :
    UniquelyResolved env query datasets ↔ MisdatedHarmless env query datasets := by
  have hperm := passingRates_perm env query datasets
  have hlength := hperm.length_eq
  rw [length_append] at hlength
  constructor
  · intro h
    have hlengths : (passingRates env query datasets).length = 1 ↔
        (applicableRates env query datasets).length = 1 := by
      rw [length_eq_one_iff, length_eq_one_iff]
      exact exists_congr fun rate => resolveRate_eq_some.symm.trans (h.unique rate)
    rw [MisdatedHarmless, ← length_eq_zero_iff, ← length_eq_zero_iff]
    omega
  · intro h
    refine ⟨fun rate => ?_, fun datasets' hreordered => ?_, ?_⟩
    · rw [resolveRate_eq_some]
      obtain hnone | hmany | ⟨hnone, hmany⟩ := h
      · rw [hnone, append_nil] at hperm
        constructor
        · intro hrate
          exact perm_singleton.1 (hrate ▸ hperm)
        · intro hrate
          rw [hrate] at hperm
          exact perm_singleton.1 hperm.symm
      · refine iff_of_false (fun hrate => ?_) fun hrate => ?_
        · rw [hrate, length_singleton] at hlength
          omega
        · rw [hrate, length_singleton] at hmany
          omega
      · refine iff_of_false (fun hrate => ?_) fun hrate => ?_
        · rw [hrate, length_singleton] at hlength
          omega
        · exact absurd (hnone.symm.trans hrate) (cons_ne_nil _ _).symm
    · exact resolveRate_perm (passingRates_reordered hreordered)
    · rintro front back dataset rows rows' row rate rfl hrows husable - hmatch hrate
      exact resolveRate_insert hrows husable hmatch hrate

/-! ## An hourly rate from an unreadable day on -/

namespace UnreadableDay

/-- A rate that is in force from a day that cannot be read. -/
def rates : RateDatasetFields PlainCell where
  datasetId := 1
  datasetLabel := "rates"
  dataframe := ⟨["agreement", "price", "valid_from"], [
    ⟨"0", fun field => if field = "agreement" then .text "C-1" else if field = "price" then
      .integer 125 else .text "2026-13-45"⟩]⟩
  contractIdField := "agreement"
  rateField := "price"
  effectiveFromField := some "valid_from"
  implicitUnit := some "hour"

def hour : RateQuery where
  contractKey := "C-1"
  instant := some 0
  quantityUnit := some "hour"
  quantityCurrency := none

/-- The rate is returned as if it had always been in force. -/
theorem not_uniquelyResolved : ¬ UniquelyResolved Env.plain hour [rates] := by
  intro h
  have hreturned : (resolveRate Env.plain hour [rates]).isSome = true := by decide +kernel
  have hnone : applicableRates Env.plain hour [rates] = [] := by
    rw [← length_eq_zero_iff]
    decide +kernel
  obtain ⟨rate, hrate⟩ := isSome_iff_exists.1 hreturned
  exact absurd (hnone.symm.trans ((h.unique rate).1 hrate)) (cons_ne_nil _ _).symm

end UnreadableDay

end Intel4Ops.Revenue
