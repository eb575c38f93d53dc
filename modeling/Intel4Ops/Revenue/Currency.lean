import Intel4Ops.Revenue.Variance

/-!
# Currencies of the sides

A side is summed when its known currencies are one; lines without a currency are not asked. So the
sums are of one currency state exactly when no published subject has, on one side, rows with and
rows without a recognised currency (`addsComparable_iff`).
-/

namespace Intel4Ops.Revenue

open Lib Lib.Decimal List

/-! ## Sides that compare -/

def Known (currency : String) (lines : List AmountLine) : Prop :=
  ∃ line ∈ lines, line.currency = some currency

/-- At most one currency is known on the side. -/
def OneKnown (lines : List AmountLine) : Prop := ∀ c c', Known c lines → Known c' lines → c = c'

/-- Each side has at most one known currency, and they are the same ones, unless the actual side has
no lines. -/
structure ComparableSides (expected actual : List AmountLine) : Prop where
  expectedKnown : OneKnown expected
  actualKnown : OneKnown actual
  same : actual = [] ∨ ∀ c, Known c expected ↔ Known c actual

variable {lines : List AmountLine}

theorem mem_dedup_currencies {c : String} :
    c ∈ (lines.filterMap (·.currency)).dedup ↔ Known c lines := by
  simp [Known, mem_filterMap]

/-- What `_side_currency` says of a side. -/
theorem sideCurrency_spec (lines : List AmountLine) :
    ((sideCurrency lines).2 = true ↔ OneKnown lines) ∧
      (OneKnown lines → ∀ c, (sideCurrency lines).1 = some c ↔ Known c lines) := by
  have hnodup := nodup_dedup (lines.filterMap (·.currency))
  have hmem : ∀ c, c ∈ (lines.filterMap (·.currency)).dedup ↔ Known c lines :=
    fun c => mem_dedup_currencies
  unfold sideCurrency
  generalize (lines.filterMap (·.currency)).dedup = known at hnodup hmem
  match known with
  | [] =>
    have hnone : ∀ c, ¬ Known c lines := fun c hc => by simpa using (hmem c).2 hc
    refine ⟨⟨fun _ c c' hc => absurd hc (hnone c), fun _ => rfl⟩, fun _ c => ?_⟩
    exact ⟨fun h => (by cases h), fun h => absurd h (hnone c)⟩
  | [currency] =>
    have hone : ∀ c, Known c lines ↔ c = currency := fun c => by
      rw [← hmem, mem_singleton]
    refine ⟨⟨fun _ c c' hc hc' => ?_, fun _ => rfl⟩, fun _ c => ?_⟩
    · rw [(hone c).1 hc, (hone c').1 hc']
    · rw [hone, Option.some.injEq]
      exact eq_comm
  | first :: second :: rest =>
    have hmany : ¬ OneKnown lines := by
      intro hone
      have heq := hone first second ((hmem first).1 (by simp)) ((hmem second).1 (by simp))
      rw [heq] at hnodup
      exact (nodup_cons.1 hnodup).1 (by simp)
    exact ⟨⟨fun h => (by cases h), fun h => absurd h hmany⟩, fun h => absurd h hmany⟩

theorem sideCurrency_ok : (sideCurrency lines).2 = true ↔ OneKnown lines :=
  (sideCurrency_spec lines).1

theorem classify_isComparable {expected actual : Option String} :
    (classifyCurrencyComparability expected actual).isComparable = true ↔ expected = actual := by
  cases expected with
  | none => cases actual <;> simp [classifyCurrencyComparability, CurrencyComparability.isComparable]
  | some e =>
    cases actual with
    | none => simp [classifyCurrencyComparability, CurrencyComparability.isComparable]
    | some a =>
      by_cases heq : e = a <;>
        simp [classifyCurrencyComparability, CurrencyComparability.isComparable, heq]

theorem comparability_isComparable {expected actual : Option String} :
    (comparability expected actual lines).isComparable = true ↔ lines = [] ∨ expected = actual := by
  unfold comparability
  cases lines with
  | nil =>
    rw [isEmpty_nil, if_pos rfl]
    cases orElse expected none <;> simp [CurrencyComparability.isComparable]
  | cons line lines =>
    rw [isEmpty_cons, if_neg (by simp), classify_isComparable]
    simp

theorem gates_iff (expected actual : List AmountLine) :
    ¬ ((sideCurrency expected).2 = false ∨ (sideCurrency actual).2 = false ∨
      (comparability (sideCurrency expected).1 (sideCurrency actual).1 actual).isComparable =
        false) ↔ ComparableSides expected actual := by
  simp only [not_or, Bool.not_eq_false, sideCurrency_ok, comparability_isComparable]
  constructor
  · rintro ⟨hexpected, hactual, hsame⟩
    refine ⟨hexpected, hactual, hsame.imp_right ?_⟩
    intro heq c
    rw [← (sideCurrency_spec expected).2 hexpected, heq, (sideCurrency_spec actual).2 hactual]
  · rintro ⟨hexpected, hactual, hsame⟩
    refine ⟨hexpected, hactual, hsame.imp_right fun hiff => Option.ext fun c => ?_⟩
    rw [(sideCurrency_spec expected).2 hexpected, (sideCurrency_spec actual).2 hactual]
    exact hiff c

/-! ## Requests that reach the publisher -/

section Reached

variable {Cell : Type} (env : Env Cell) (pass : Pass Cell)

/-- The sides compare and are short by a material amount, the schema accepts their evidence, and the
first expected line has a trust assessment. -/
structure Publishable (expected actual : List AmountLine) : Prop where
  sides : ComparableSides expected actual
  short : ∃ e a amounts, sideSum expected = .ok e ∧ sideSum actual = .ok a ∧
    materialShortfall e a = .ok (some amounts)
  evidence : (lineEvidence env .expected expected).isOk = true ∧
    (lineEvidence env .actual actual).isOk = true
  trusted : ∃ primary ∈ expected.head?, primary.trustAssessmentId.isSome = true

/-- The loop comes to the subject: both sides have governed evidence, and no subject before has
raised. -/
structure Compares (subject : String) (expected actual : List AmountLine) : Prop where
  asked : pass.datasets.isEmpty = false ∧ pass.eligibleSubjectKeys.isEmpty = false
  collected : ∃ collected, collectLines env pass = .ok collected ∧
    collected.expectedSideHasGovernedSource = true ∧
    collected.actualSideHasGovernedSource = true ∧
    subject ∈ collected.subjects.takeWhile (fun s => (collected.requestFor env pass s).isOk) ∧
    expected = collected.expectedOf subject ∧ actual = collected.actualOf subject

variable {env pass} {subject : String} {expected actual : List AmountLine} {r : VarianceRequest}

variable {amounts : Amounts}

theorem materialShortfall_some {e a : Extended} (h : materialShortfall e a = .ok (some amounts)) :
    amounts.expected = e ∧ amounts.actual = a ∧ e.sub a = some amounts.variance := by
  unfold materialShortfall at h
  split at h
  · cases h
  · simp only [bind_eq_ok, orFail_eq_ok] at h
    obtain ⟨relative, -, variance, hvariance, h⟩ := h
    split at h
    · cases h
    · simp only [bind_eq_ok, orFail_eq_ok, pure_eq_ok, Option.some.injEq] at h
      obtain ⟨ratio, -, rfl⟩ := h
      exact ⟨rfl, rfl, hvariance⟩

theorem shortfallRequest_some {comparability : CurrencyComparability}
    (h : shortfallRequest env pass subject expected actual comparability amounts = .ok (some r)) :
    r.subjectKey = subject ∧ r.exposureValue = amounts.variance := by
  simp only [shortfallRequest, bind_eq_ok, pure_eq_ok] at h
  obtain ⟨expectedEvidence, -, actualEvidence, -, h⟩ := h
  obtain ⟨primary, -, hprimary⟩ := Option.bind_eq_some_iff.1 h
  obtain ⟨trust, -, rfl⟩ := Option.map_eq_some_iff.1 hprimary
  exact ⟨rfl, rfl⟩

theorem exists_shortfallRequest_iff {comparability : CurrencyComparability} :
    (∃ r, shortfallRequest env pass subject expected actual comparability amounts = .ok (some r)) ↔
      ((lineEvidence env .expected expected).isOk = true ∧
        (lineEvidence env .actual actual).isOk = true) ∧
      ∃ primary ∈ expected.head?, primary.trustAssessmentId.isSome = true := by
  unfold shortfallRequest
  cases lineEvidence env .expected expected with
  | error e => simp [Except.isOk, Except.toBool]
  | ok expectedEvidence =>
    cases lineEvidence env .actual actual with
    | error e => simp [Except.isOk, Except.toBool]
    | ok actualEvidence =>
      simp only [ok_bind, pure_eq_ok, Option.bind_eq_some_iff, Option.map_eq_some_iff,
        Except.isOk, Except.toBool, and_self, true_and, Option.isSome_iff_exists]
      constructor
      · rintro ⟨r, primary, hprimary, trust, htrust, -⟩
        exact ⟨primary, hprimary, trust, htrust⟩
      · rintro ⟨primary, hprimary, trust, htrust⟩
        exact ⟨_, primary, hprimary, trust, htrust, rfl⟩

theorem requestFor_iff : requestFor env pass subject expected actual = .ok (some r) ↔
      ComparableSides expected actual ∧ ∃ e a amounts, sideSum expected = .ok e ∧
        sideSum actual = .ok a ∧ materialShortfall e a = .ok (some amounts) ∧
        shortfallRequest env pass subject expected actual
          (comparability (sideCurrency expected).1 (sideCurrency actual).1 actual) amounts =
            .ok (some r) := by
  rw [← gates_iff]
  simp only [requestFor]
  split
  · rename_i hgate
    exact ⟨fun h => (by cases h), fun h => absurd hgate h.1⟩
  · rename_i hgate
    rw [and_iff_right hgate]
    simp only [bind_eq_ok]
    refine exists_congr fun e => ?_
    constructor
    · rintro ⟨he, a, ha, outcome, hshort, h⟩
      cases outcome with
      | none => cases h
      | some amounts => exact ⟨a, amounts, he, ha, hshort, h⟩
    · rintro ⟨a, amounts, he, ha, hshort, h⟩
      exact ⟨he, a, ha, some amounts, hshort, h⟩

theorem exists_requestFor_iff : (∃ r, requestFor env pass subject expected actual = .ok (some r)) ↔
      Publishable env expected actual := by
  simp only [requestFor_iff]
  constructor
  · rintro ⟨r, hsides, e, a, amounts, he, ha, hshort, h⟩
    obtain ⟨hevidence, htrusted⟩ := exists_shortfallRequest_iff.1 ⟨r, h⟩
    exact ⟨hsides, ⟨e, a, amounts, he, ha, hshort⟩, hevidence, htrusted⟩
  · rintro ⟨hsides, ⟨e, a, amounts, he, ha, hshort⟩, hevidence, htrusted⟩
    obtain ⟨r, h⟩ := exists_shortfallRequest_iff.2 ⟨hevidence, htrusted⟩
    exact ⟨r, hsides, e, a, amounts, he, ha, hshort, h⟩

/-- The requests that some publisher is handed are those of the subjects before the first
exception. -/
theorem mem_publishAll_iff {f : String → Except Raised (Option VarianceRequest)}
    {subjects : List String} :
    (∃ publish, r ∈ publishAll publish f subjects) ↔
      ∃ s ∈ subjects.takeWhile (fun s => (f s).isOk), f s = .ok (some r) := by
  constructor
  · rintro ⟨publish, h⟩
    induction subjects with
    | nil => cases h
    | cons s subjects ih =>
      unfold publishAll at h
      split at h
      · cases h
      · rename_i hf
        rw [takeWhile_cons_of_pos (by rw [hf]; rfl)]
        obtain ⟨s', hs', hrequest⟩ := ih h
        exact ⟨s', mem_cons_of_mem _ hs', hrequest⟩
      · rename_i request hf
        rw [takeWhile_cons_of_pos (by rw [hf]; rfl)]
        rcases mem_cons.1 h with rfl | h
        · exact ⟨s, mem_cons_self, hf⟩
        · split at h
          · cases h
          · obtain ⟨s', hs', hrequest⟩ := ih h
            exact ⟨s', mem_cons_of_mem _ hs', hrequest⟩
  · -- A publisher that answers every request sees all of them.
    rintro ⟨s, hs, hrequest⟩
    refine ⟨fun _ => .ok (), ?_⟩
    induction subjects with
    | nil => cases hs
    | cons s' subjects ih =>
      rw [takeWhile_cons] at hs
      split at hs
      · rename_i hok
        unfold publishAll
        rcases mem_cons.1 hs with rfl | hs
        · rw [hrequest]
          exact mem_cons_self
        · have hrest := ih hs
          split
          · rename_i hf
            rw [hf] at hok
            cases hok
          · exact hrest
          · exact mem_cons_of_mem _ hrest
      · cases hs

/-- The requests that can reach the publisher are those of the subjects that the loop comes to. -/
theorem mem_reached_iff : (∃ publish, r ∈ runRevenueAmountVariance env publish pass) ↔
      ∃ subject expected actual, Compares env pass subject expected actual ∧
        requestFor env pass subject expected actual = .ok (some r) := by
  constructor
  · rintro ⟨publish, h⟩
    unfold runRevenueAmountVariance at h
    split at h
    · cases h
    · rename_i hasked
      split at h
      · cases h
      · rename_i collected hcollected
        split at h
        · cases h
        · rename_i hgoverned
          simp only [not_or, Bool.not_eq_false, Bool.not_eq_true] at hasked hgoverned
          obtain ⟨subject, hsubject, hrequest⟩ := mem_publishAll_iff.1 ⟨publish, h⟩
          exact ⟨subject, _, _, ⟨hasked, collected, hcollected, hgoverned.1, hgoverned.2, hsubject,
            rfl, rfl⟩, hrequest⟩
  · rintro ⟨subject, expected, actual, ⟨hasked, collected, hcollected, hexpected, hactual, hsubject,
      rfl, rfl⟩, hrequest⟩
    obtain ⟨publish, h⟩ := mem_publishAll_iff.2 ⟨subject, hsubject, hrequest⟩
    refine ⟨publish, ?_⟩
    unfold runRevenueAmountVariance
    rw [if_neg (by simp [hasked]), hcollected]
    show r ∈ if _ then _ else _
    rw [if_neg (by simp [hexpected, hactual])]
    exact h

end Reached

/-! ## Rows behind the lines -/

section Rows

variable {Cell : Type} (env : Env Cell) (pass : Pass Cell)

/-- The rows that contribute a line to the expected side of the subject. -/
def ContributesExpected (subject : String) (s : SourceRow Cell) : Prop :=
  s ∈ sourceRows env pass ∧ s.subject = subject ∧
    ∃ lines, expectedLines env pass s = .ok lines ∧ lines ≠ []

def ContributesActual (subject : String) (s : SourceRow Cell) : Prop :=
  s ∈ sourceRows env pass ∧ s.subject = subject ∧ actualLine env s ≠ none

/-- Some of the rows have a recognised currency, and some have none. -/
def MixesCurrencies (rows : SourceRow Cell → Prop) : Prop :=
  (∃ s, rows s ∧ (s.currency env).isSome = true) ∧ ∃ s, rows s ∧ (s.currency env).isSome = false

variable {env pass} {subject : String} {s : SourceRow Cell}

theorem mem_linesOf {line : AmountLine} {lines : List (String × AmountLine)} :
    line ∈ linesOf subject lines ↔ (subject, line) ∈ lines := by
  simp only [linesOf, mem_map, mem_filter, decide_eq_true_eq]
  constructor
  · rintro ⟨⟨s, l⟩, ⟨hmem, rfl⟩, rfl⟩
    exact hmem
  · intro hmem
    exact ⟨(subject, line), ⟨hmem, rfl⟩, rfl⟩

theorem mem_expectedOf {collected : CollectedLines} (h : collectLines env pass = .ok collected)
    {line : AmountLine} :
    line ∈ collected.expectedOf subject ↔ ∃ s ∈ sourceRows env pass, s.subject = subject ∧
      ∃ lines, expectedLines env pass s = .ok lines ∧ line ∈ lines := by
  simp only [collectLines, bind_eq_ok, pure_eq_ok] at h
  obtain ⟨parts, hparts, rfl⟩ := h
  show line ∈ linesOf subject parts.flatten ↔ _
  rw [mem_linesOf, mem_flatten]
  constructor
  · rintro ⟨part, hpart, hline⟩
    obtain ⟨s, hs, hrow⟩ := (mem_of_mapM_eq_ok hparts).1 hpart
    obtain ⟨lines, hlines, rfl⟩ := map_eq_ok.1 hrow
    obtain ⟨l, hl, heq⟩ := mem_map.1 hline
    obtain ⟨rfl, rfl⟩ := Prod.mk.inj heq
    exact ⟨s, hs, rfl, lines, hlines, hl⟩
  · rintro ⟨s, hs, rfl, lines, hlines, hl⟩
    refine ⟨lines.map fun l => (s.subject, l), ?_, mem_map.2 ⟨line, hl, rfl⟩⟩
    exact (mem_of_mapM_eq_ok hparts).2 ⟨s, hs, map_eq_ok.2 ⟨lines, hlines, rfl⟩⟩

theorem mem_actualOf {collected : CollectedLines} (h : collectLines env pass = .ok collected)
    {line : AmountLine} :
    line ∈ collected.actualOf subject ↔ ∃ s ∈ sourceRows env pass, s.subject = subject ∧
      actualLine env s = some line := by
  simp only [collectLines, bind_eq_ok, pure_eq_ok] at h
  obtain ⟨parts, -, rfl⟩ := h
  show line ∈ linesOf subject (List.flatMap _ _) ↔ _
  rw [mem_linesOf, mem_flatMap]
  refine exists_congr fun s => and_congr_right fun _ => ?_
  simp only [mem_map, Option.mem_toList, Prod.mk.injEq]
  constructor
  · rintro ⟨l, hl, hsubject, rfl⟩
    exact ⟨hsubject, hl⟩
  · rintro ⟨hsubject, hl⟩
    exact ⟨line, hl, hsubject, rfl⟩

/-! ## The currency of a line is that of its row -/

theorem rateMatch_currency {dataset : RateDatasetFields Cell} {key : String}
    {instant : Option Instant} {unit currency : Option String} {row : Row Cell}
    {rate : GovernedRateEvidence}
    (h : rateMatch env dataset key instant unit currency row = some rate) :
    rate.currency = currency.map env.upper := by
  simp only [rateMatch, Option.bind_eq_bind, Option.bind_eq_some_iff, Option.guard_eq_some',
    Option.pure_def, Option.some.injEq] at h
  obtain ⟨-, -, -, -, -, -, -, -, -, -, -, hcurrency, -, -, -, -, rfl⟩ := h
  exact hcurrency.symm

theorem exists_rateMatch {rate : GovernedRateEvidence} (h : rateOf env pass s = some rate) :
    ∃ dataset ∈ pass.rateDatasets, ∃ row ∈ dataset.dataframe.rows,
      rateMatch env dataset (contractKey env pass s) (s.eventAt env) (s.quantityUnit env)
        (s.currency env) row = some rate := by
  unfold rateOf resolveApplicableRate at h
  split at h
  · rename_i found hmatches
    obtain rfl := Option.some.inj h
    have hmem : found ∈ pass.rateDatasets.flatMap (rateMatches env (contractKey env pass s)
        (s.eventAt env) (s.quantityUnit env) (s.currency env)) := by
      rw [hmatches]
      exact mem_singleton_self found
    obtain ⟨dataset, hdataset, hfound⟩ := mem_flatMap.1 hmem
    unfold rateMatches at hfound
    split at hfound
    · cases hfound
    · obtain ⟨row, hrow, hmatch⟩ := mem_filterMap.1 hfound
      exact ⟨dataset, hdataset, row, hrow, hmatch⟩
  · cases h

theorem rateOf_currency {rate : GovernedRateEvidence} (h : rateOf env pass s = some rate) :
    rate.currency = (s.currency env).map env.upper := by
  obtain ⟨_, -, _, -, hmatch⟩ := exists_rateMatch h
  exact rateMatch_currency hmatch

theorem rateMatch_unit {dataset : RateDatasetFields Cell} {key : String}
    {instant : Option Instant} {unit currency : Option String} {row : Row Cell}
    {rate : GovernedRateEvidence}
    (h : rateMatch env dataset key instant unit currency row = some rate) :
    unit.map env.normalizedUnit = some rate.unit := by
  simp only [rateMatch, Option.bind_eq_bind, Option.bind_eq_some_iff, Option.guard_eq_some',
    Option.pure_def, Option.some.injEq] at h
  obtain ⟨-, -, -, -, expected, hexpected, rateUnit, -, -, hunit, -, -, -, -, -, -, rfl⟩ := h
  rw [hexpected, hunit]

theorem rateOf_unit {rate : GovernedRateEvidence} (h : rateOf env pass s = some rate) :
    (s.quantityUnit env).map env.normalizedUnit = some rate.unit := by
  obtain ⟨_, -, _, -, hmatch⟩ := exists_rateMatch h
  exact rateMatch_unit hmatch

theorem rateLine_currency {rate : GovernedRateEvidence} {amount : Extended}
    (h : rateOf env pass s = some rate) :
    (s.rateLine env rate amount).currency.isSome = (s.currency env).isSome := by
  show (orElse rate.currency (s.currency env)).isSome = _
  rw [rateOf_currency h]
  cases hcurrency : s.currency env with
  | none => rfl
  | some c =>
    show (if env.upper c = "" then some c else some (env.upper c)).isSome = true
    split <;> rfl

theorem quantityLine_currency {line : AmountLine}
    (h : quantityLine env pass s = .ok (some line)) :
    line.currency.isSome = (s.currency env).isSome := by
  unfold quantityLine at h
  split at h
  · split at h
    · obtain ⟨amount, -, heq⟩ := map_eq_ok.1 h
      obtain rfl := Option.some.inj heq
      rfl
    · cases h
  · split at h
    · rename_i qty rate hqty hrate
      obtain ⟨amount, -, heq⟩ := map_eq_ok.1 h
      obtain rfl := Option.some.inj heq
      exact rateLine_currency hrate
    · cases h
  · cases h

theorem expectedLines_currency {lines : List AmountLine}
    (h : expectedLines env pass s = .ok lines) {line : AmountLine} (hline : line ∈ lines) :
    line.currency.isSome = (s.currency env).isSome := by
  obtain ⟨quantity, hquantity, rfl⟩ := map_eq_ok.1 h
  rcases mem_append.1 hline with hline | hline
  · obtain rfl := Option.mem_toList.1 hline
    exact quantityLine_currency hquantity
  · obtain ⟨field, -, hcost⟩ := Option.bind_eq_some_iff.1 (Option.mem_toList.1 hline)
    obtain ⟨cost, -, rfl⟩ := Option.map_eq_some_iff.1 hcost
    rfl

theorem actualLine_currency {line : AmountLine} (h : actualLine env s = some line) :
    line.currency = s.currency env := by
  obtain ⟨⟨field, basis⟩, -, hline⟩ := Option.bind_eq_some_iff.1 h
  obtain ⟨billed, -, rfl⟩ := Option.map_eq_some_iff.1 hline
  rfl

theorem exists_contributesExpected {collected : CollectedLines}
    (h : collectLines env pass = .ok collected) (known : Bool) :
    (∃ s, ContributesExpected env pass subject s ∧ (s.currency env).isSome = known) ↔
      ∃ l ∈ collected.expectedOf subject, l.currency.isSome = known := by
  constructor
  · rintro ⟨s, ⟨hs, hsubject, lines, hlines, hne⟩, hknown⟩
    obtain ⟨l, hl⟩ := exists_mem_of_ne_nil lines hne
    refine ⟨l, (mem_expectedOf h).2 ⟨s, hs, hsubject, lines, hlines, hl⟩, ?_⟩
    rw [expectedLines_currency hlines hl, hknown]
  · rintro ⟨l, hl, hknown⟩
    obtain ⟨s, hs, hsubject, lines, hlines, hl⟩ := (mem_expectedOf h).1 hl
    refine ⟨s, ⟨hs, hsubject, lines, hlines, ne_nil_of_mem hl⟩, ?_⟩
    rw [← expectedLines_currency hlines hl, hknown]

theorem exists_contributesActual {collected : CollectedLines}
    (h : collectLines env pass = .ok collected) (known : Bool) :
    (∃ s, ContributesActual env pass subject s ∧ (s.currency env).isSome = known) ↔
      ∃ l ∈ collected.actualOf subject, l.currency.isSome = known := by
  constructor
  · rintro ⟨s, ⟨hs, hsubject, hne⟩, hknown⟩
    obtain ⟨l, hl⟩ := Option.ne_none_iff_exists'.1 hne
    refine ⟨l, (mem_actualOf h).2 ⟨s, hs, hsubject, hl⟩, ?_⟩
    rw [actualLine_currency hl, hknown]
  · rintro ⟨l, hl, hknown⟩
    obtain ⟨s, hs, hsubject, hl⟩ := (mem_actualOf h).1 hl
    refine ⟨s, ⟨hs, hsubject, by rw [hl]; exact Option.some_ne_none l⟩, ?_⟩
    rw [← actualLine_currency hl, hknown]

/-! ## One currency state -/

/-- Every line has the same currency, or none of them has one. -/
def OneState (lines : List AmountLine) : Prop := ∃ state, ∀ line ∈ lines, line.currency = state

/-- Some of the lines have a currency, and some have none. -/
def MixedLines (lines : List AmountLine) : Prop :=
  (∃ l ∈ lines, l.currency.isSome = true) ∧ ∃ l ∈ lines, l.currency.isSome = false

theorem oneState_iff {lines : List AmountLine} (h : OneKnown lines) :
    OneState lines ↔ ¬ MixedLines lines := by
  constructor
  · rintro ⟨state, hstate⟩ ⟨⟨l, hl, hsome⟩, l', hl', hnone⟩
    rw [hstate l hl] at hsome
    rw [hstate l' hl', hsome] at hnone
    cases hnone
  · intro hmix
    by_cases hknown : ∃ l ∈ lines, l.currency.isSome = true
    · obtain ⟨l, hl, hsome⟩ := hknown
      obtain ⟨c, hc⟩ := Option.isSome_iff_exists.1 hsome
      refine ⟨some c, fun l' hl' => ?_⟩
      cases hc' : l'.currency with
      | none => exact absurd ⟨⟨l, hl, hsome⟩, l', hl', by rw [hc']; rfl⟩ hmix
      | some c' => rw [h c' c ⟨l', hl', hc'⟩ ⟨l, hl, hc⟩]
    · refine ⟨none, fun l hl => ?_⟩
      cases hc : l.currency with
      | none => rfl
      | some c => exact absurd ⟨l, hl, by rw [hc]; rfl⟩ hknown

theorem ComparableSides.oneState {expected actual : List AmountLine}
    (h : ComparableSides expected actual) (hexpected : OneState expected)
    (hactual : OneState actual) : OneState (expected ++ actual) := by
  obtain ⟨state, hstate⟩ := hexpected
  obtain ⟨state', hstate'⟩ := hactual
  rcases h.same with rfl | hsame
  · exact ⟨state, fun l hl => hstate l (by simpa using hl)⟩
  · -- A line without a currency on the one side has no counterpart on the other.
    have heq : ∀ l ∈ expected, ∀ l' ∈ actual, state = state' := by
      intro l hl l' hl'
      cases state with
      | some c =>
        obtain ⟨l₀, hl₀, hc⟩ := (hsame c).1 ⟨l, hl, hstate l hl⟩
        rw [← hstate' l₀ hl₀, hc]
      | none =>
        cases state' with
        | none => rfl
        | some c =>
          obtain ⟨l₀, hl₀, hc⟩ := (hsame c).2 ⟨l', hl', hstate' l' hl'⟩
          rw [← hc, hstate l₀ hl₀]
    cases actual with
    | nil => exact ⟨state, fun l hl => hstate l (by simpa using hl)⟩
    | cons l' actual =>
      refine ⟨state', fun l hl => ?_⟩
      rcases mem_append.1 hl with hl | hl
      · rw [hstate l hl, heq l hl l' mem_cons_self]
      · exact hstate' l hl

variable (env pass) in
/-- The lines of the request's subject are in one currency state, on both sides together, and the
exposure is the expected sum minus the actual one. -/
def AddsComparable (r : VarianceRequest) : Prop :=
  ∃ collected, collectLines env pass = .ok collected ∧
    OneState (collected.expectedOf r.subjectKey ++ collected.actualOf r.subjectKey) ∧
    ∃ e a, sideSum (collected.expectedOf r.subjectKey) = .ok e ∧
      sideSum (collected.actualOf r.subjectKey) = .ok a ∧ e.sub a = some r.exposureValue

theorem Compares.adds_iff {expected actual : List AmountLine} {r : VarianceRequest}
    (h : Compares env pass subject expected actual)
    (hrequest : requestFor env pass subject expected actual = .ok (some r)) :
    AddsComparable env pass r ↔
      ¬ MixesCurrencies env (ContributesExpected env pass subject) ∧
        ¬ MixesCurrencies env (ContributesActual env pass subject) := by
  obtain ⟨-, collected, hcollected, -, -, -, rfl, rfl⟩ := h
  obtain ⟨hsides, e, a, amounts, he, ha, hshort, hbuilt⟩ := requestFor_iff.1 hrequest
  obtain ⟨rfl, hexposure⟩ := shortfallRequest_some hbuilt
  have hmixes : MixesCurrencies env (ContributesExpected env pass r.subjectKey) ↔
      MixedLines (collected.expectedOf r.subjectKey) :=
    and_congr (exists_contributesExpected hcollected true)
      (exists_contributesExpected hcollected false)
  have hmixes' : MixesCurrencies env (ContributesActual env pass r.subjectKey) ↔
      MixedLines (collected.actualOf r.subjectKey) :=
    and_congr (exists_contributesActual hcollected true) (exists_contributesActual hcollected false)
  rw [hmixes, hmixes', ← oneState_iff hsides.expectedKnown, ← oneState_iff hsides.actualKnown]
  constructor
  · rintro ⟨collected', hcollected', ⟨state, hstate⟩, -⟩
    obtain rfl : collected = collected' := Except.ok.inj (hcollected.symm.trans hcollected')
    exact ⟨⟨state, fun l hl => hstate l (mem_append_left _ hl)⟩,
      ⟨state, fun l hl => hstate l (mem_append_right _ hl)⟩⟩
  · rintro ⟨hexpected, hactual⟩
    refine ⟨collected, hcollected, hsides.oneState hexpected hactual, e, a, he, ha, ?_⟩
    rw [hexposure]
    exact (materialShortfall_some hshort).2.2

end Rows

/-- Only comparable money is added for the requests that reach the publisher, exactly when no
publishable subject that the loop comes to has, on one side, rows with and rows without a recognised
currency. -/
theorem addsComparable_iff {Cell : Type} (env : Env Cell) (pass : Pass Cell) :
    (∀ publish, ∀ r ∈ runRevenueAmountVariance env publish pass, AddsComparable env pass r) ↔
      ∀ subject expected actual, Compares env pass subject expected actual →
        Publishable env expected actual →
        ¬ MixesCurrencies env (ContributesExpected env pass subject) ∧
          ¬ MixesCurrencies env (ContributesActual env pass subject) := by
  constructor
  · intro h subject expected actual hcompares hpublishable
    obtain ⟨r, hrequest⟩ := exists_requestFor_iff.2 hpublishable
    obtain ⟨publish, hr⟩ := mem_reached_iff.2 ⟨subject, expected, actual, hcompares, hrequest⟩
    exact (hcompares.adds_iff hrequest).1 (h publish r hr)
  · intro h publish r hr
    obtain ⟨subject, expected, actual, hcompares, hrequest⟩ := mem_reached_iff.1 ⟨publish, hr⟩
    have hpublishable := exists_requestFor_iff.1 ⟨r, hrequest⟩
    exact (hcompares.adds_iff hrequest).2 (h subject expected actual hcompares hpublishable)

/-! ## A side that mixes -/

namespace MixedSide

/-- Two quantities at a price, of which only the first one has a currency. -/
def usage : DatasetConceptFields PlainCell where
  datasetId := 1
  datasetLabel := "usage"
  dataframe := ⟨["wo", "quantity", "price", "currency"], [
    ⟨"0", fun field => if field = "wo" then .text "A" else if field = "quantity" then .integer 10
      else if field = "price" then .integer 100 else .text "USD"⟩,
    ⟨"1", fun field => if field = "wo" then .text "A" else if field = "quantity" then .integer 10
      else if field = "price" then .integer 100 else .missing⟩]⟩
  trustAssessmentId := some 3
  subjectIdField := some "wo"
  quantityField := some "quantity"
  unitPriceField := some "price"
  invoiceAmountField := none
  costAmountField := none
  currencyField := some "currency"

def invoices (rows : List (Row PlainCell)) : DatasetConceptFields PlainCell where
  datasetId := 2
  datasetLabel := "invoices"
  dataframe := ⟨["wo", "amount", "currency"], rows⟩
  trustAssessmentId := some 3
  subjectIdField := some "wo"
  quantityField := none
  unitPriceField := none
  invoiceAmountField := some "amount"
  costAmountField := none
  currencyField := some "currency"

/-- A billed amount in the currency of the first quantity. -/
def billed : Row PlainCell :=
  ⟨"0", fun field => if field = "wo" then .text "A" else if field = "amount" then .integer 800
    else .text "USD"⟩

def pass : Pass PlainCell where
  organizationId := 9
  datasets := [usage, invoices [billed]]
  eligibleSubjectKeys := ["A"]

/-- The quantities are added up, and the shortfall is published in the known currency. -/
theorem not_addsComparable : ¬ ∀ publish, ∀ r ∈ runRevenueAmountVariance Env.plain publish pass,
      AddsComparable Env.plain pass r := by
  intro h
  have hpublished : ∃ r ∈ runRevenueAmountVariance Env.plain (fun _ => .ok ()) pass,
      r.subjectKey = "A" := by
    decide +kernel
  have hmixed : (match collectLines Env.plain pass with
      | .ok collected => (collected.expectedOf "A").map (·.currency)
      | .error _ => []) = [some "USD", none] := by
    decide +kernel
  obtain ⟨r, hr, hsubject⟩ := hpublished
  obtain ⟨collected, hcollected, ⟨state, hstate⟩, -⟩ := h _ r hr
  rw [hcollected] at hmixed
  rw [hsubject] at hstate
  have hall : ∀ c ∈ (collected.expectedOf "A").map (·.currency), c = state := by
    intro c hc
    obtain ⟨l, hl, rfl⟩ := mem_map.1 hc
    exact hstate l (mem_append_left _ hl)
  have hlists : (collected.expectedOf "A").map (·.currency) = [some "USD", none] := hmixed
  rw [hlists] at hall
  have hknown := hall (some "USD") (by simp)
  have hunknown := hall none (by simp)
  rw [← hunknown] at hknown
  cases hknown

end MixedSide

end Intel4Ops.Revenue
