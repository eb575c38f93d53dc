import Intel4Ops.Forecasting.Model
import Intel4Ops.Lib.Statistics

/-!
# Preparation of a time series

A request's observations are put in the order of time, partial periods may be dropped, missing
values are imputed over the whole series, and observations that are confirmed errors may be dropped
after that. How far an imputed value looks ahead is what the last two sections are about.
-/

namespace Intel4Ops.Forecasting

open Lib List

/-! ## The algorithm -/

/-- The observations in the order of time. -/
def sortByTimestamp (observations : List Observation) : List Observation :=
  observations.insertionSort (·.timestamp ≤ ·.timestamp)

/-- The periods that the policy for partial periods leaves. -/
def periods (payload : ExecutionCreate) : List Observation :=
  (sortByTimestamp payload.observations).filter fun item =>
    ¬ (payload.partialPeriodPolicy = "EXCLUDE" ∧ item.status = .partialPeriod)

/-- The values that some of the periods have. -/
def available (items : List Observation) : List ℚ := items.filterMap (·.value)

/-- A missing value as the policy fills it, from all available values, from the value before it
and from the periods after it. -/
def fill (policy : String) (values : List ℚ) (last : Option ℚ) (rest : List Observation) :
    Except Failure ℚ :=
  let gap := serviceError "INVALID_TIME_SERIES" "Configured imputation cannot resolve the gap"
  if policy = "ZERO_FILL" then .ok 0
  else if policy = "FORWARD_FILL" then orFail last gap
  else if policy = "HISTORICAL_MEDIAN_FILL" then
    if values = [] then .error gap else .ok (median values)
  else if policy = "LINEAR_INTERPOLATION" then
    (orFail last gap).map fun previous =>
      (previous + (rest.findSome? (·.value)).getD previous) / 2
  else .error gap

/-- The imputation loop, with the last of the values so far. -/
def impute (policy : String) (values : List ℚ) :
    Option ℚ → List Observation → Except Failure (List ℚ)
  | _, [] => .ok []
  | last, item :: rest => do
    let value ← item.value.elim (fill policy values last rest) .ok
    let following ← impute policy values (some value) rest
    return value :: following

/-- `PreparedSeries`, less its fingerprint. -/
structure PreparedSeries where
  timestamps : List Instant
  values : List ℚ
  (imputedCount partialCount lateCount : ℕ)
  warnings : List String
  deriving DecidableEq

/-- The observation stays in the series under the policy for outliers. -/
def retains (payload : ExecutionCreate) (item : Observation) : Bool :=
  ¬ (payload.outlierPolicy = "EXCLUDE_CONFIRMED_ERROR" ∧ item.confirmedDataError)

/-- The number of periods without a value. -/
def imputedCount (items : List Observation) : ℕ := items.countP (·.value = none)

def seriesOf (payload : ExecutionCreate) (values : List ℚ) : PreparedSeries :=
  let items := periods payload
  let retained := (items.zip values).filter fun entry => retains payload entry.1
  { timestamps := retained.map (·.1.timestamp)
    values := retained.map (·.2)
    imputedCount := imputedCount items
    partialCount := payload.observations.countP (·.status = .partialPeriod)
    lateCount := items.countP (·.status = .late)
    warnings := if imputedCount items = 0 then []
      else ["Imputed periods are excluded from accuracy evaluation"] }

/-- No period occurs twice. -/
def DistinctPeriods (payload : ExecutionCreate) : Prop :=
  (payload.observations.map (·.timestamp)).Nodup ∧
    ∀ item ∈ payload.observations, item.status ≠ .duplicate

instance (payload : ExecutionCreate) : Decidable (DistinctPeriods payload) :=
  inferInstanceAs (Decidable (_ ∧ _))

/-- A partial period awaits an approval. -/
def AwaitsApproval (payload : ExecutionCreate) : Prop :=
  payload.partialPeriodPolicy = "REQUIRE_MANUAL_APPROVAL" ∧
    ∃ item ∈ payload.observations, item.status = .partialPeriod

instance (payload : ExecutionCreate) : Decidable (AwaitsApproval payload) :=
  inferInstanceAs (Decidable (_ ∧ _))

def BlocksMissing (payload : ExecutionCreate) : Prop :=
  payload.missingPeriodPolicy = "BLOCK" ∧
    ∃ item ∈ periods payload, item.value = none ∨ item.status = .missing

instance (payload : ExecutionCreate) : Decidable (BlocksMissing payload) :=
  inferInstanceAs (Decidable (_ ∧ _))

/-- The share of imputed periods, in percent. -/
def imputedPercentage (items : List Observation) : ℚ :=
  imputedCount items / (max items.length 1 : ℕ) * 100

/-- `TimeSeriesPreparationService.prepare`; all values are finite here. -/
def prepare (payload : ExecutionCreate) : Except Failure PreparedSeries := do
  let items := periods payload
  ensure (DistinctPeriods payload)
    (serviceError "INVALID_TIME_SERIES" "Duplicate periods are blocked")
  ensure (¬ AwaitsApproval payload) (serviceError "NOT_READY" "Partial periods require approval")
  ensure (¬ BlocksMissing payload)
    (serviceError "INVALID_TIME_SERIES" "Missing periods are blocked")
  let values ← impute payload.missingPeriodPolicy (available items) none items
  ensure (imputedPercentage items ≤ payload.maximumImputedPercentage)
    (serviceError "NOT_READY" "Imputation threshold exceeded")
  return seriesOf payload values

/-- The periods that the prepared series consists of. -/
def retained (payload : ExecutionCreate) : List Observation :=
  (periods payload).filter (retains payload ·)

/-! ## What preparation returns -/

/-- A prepared series: the checks that it passed and the values that were imputed. -/
structure Prepared (payload : ExecutionCreate) (values : List ℚ) : Prop where
  distinct : DistinctPeriods payload
  approved : ¬ AwaitsApproval payload
  complete : ¬ BlocksMissing payload
  imputed : impute payload.missingPeriodPolicy (available (periods payload)) none
    (periods payload) = .ok values
  percentage : imputedPercentage (periods payload) ≤ payload.maximumImputedPercentage

theorem prepare_eq_ok {payload : ExecutionCreate} {series : PreparedSeries} :
    prepare payload = .ok series ↔
      ∃ values, Prepared payload values ∧ series = seriesOf payload values := by
  simp only [prepare, bind_eq_ok, ensure_eq_ok, pure_eq_ok, exists_const]
  constructor
  · rintro ⟨hdistinct, happroved, hcomplete, values, himputed, hpercentage, rfl⟩
    exact ⟨values, ⟨hdistinct, happroved, hcomplete, himputed, hpercentage⟩, rfl⟩
  · rintro ⟨values, h, rfl⟩
    exact ⟨h.distinct, h.approved, h.complete, values, h.imputed, h.percentage, rfl⟩

variable {last : Option ℚ} {policy : String} {values : List ℚ} {rest : List Observation}
  {o : Observation}

theorem impute_length {given : List ℚ} {items : List Observation}
    (h : impute policy given last items = .ok values) : values.length = items.length := by
  induction items generalizing last values with
  | nil =>
    obtain rfl : [] = values := Except.ok.inj h
    rfl
  | cons item rest ih =>
    obtain ⟨value, -, h⟩ := bind_eq_ok.1 h
    obtain ⟨following, hrest, h⟩ := bind_eq_ok.1 h
    obtain rfl := pure_eq_ok.1 h
    rw [length_cons, length_cons, ih hrest]

/-- The values of the periods that stay in the series. -/
def keptValues (payload : ExecutionCreate) (items : List Observation) (values : List ℚ) : List ℚ :=
  ((items.zip values).filter fun entry => retains payload entry.1).map (·.2)

theorem seriesOf_values (payload : ExecutionCreate) (values : List ℚ) :
    (seriesOf payload values).values = keptValues payload (periods payload) values := rfl

theorem map_fst_filter_zip {α β : Type*} (p : α → Bool) {as : List α} {bs : List β}
    (h : bs.length = as.length) :
    ((as.zip bs).filter fun entry => p entry.1).map (·.1) = as.filter p := by
  induction as generalizing bs with
  | nil => rfl
  | cons a as ih =>
    obtain ⟨b, bs, rfl⟩ := exists_cons_of_length_eq_add_one h
    have ih := ih (Nat.succ.inj h)
    by_cases hp : p a = true
    · simp [zip_cons_cons, hp, ih]
    · simp [zip_cons_cons, hp, ih]

theorem seriesOf_timestamps {payload : ExecutionCreate} (h : Prepared payload values) :
    (seriesOf payload values).timestamps = (retained payload).map (·.timestamp) := by
  rw [retained, ← map_fst_filter_zip (retains payload ·) (impute_length h.imputed), map_map]
  rfl

theorem keptValues_length {payload : ExecutionCreate} {items : List Observation}
    (h : values.length = items.length) :
    (keptValues payload items values).length = (items.filter (retains payload ·)).length := by
  rw [← map_fst_filter_zip (retains payload ·) h]
  simp only [keptValues, length_map]

theorem keptValues_append (payload : ExecutionCreate) {items : List Observation}
    {following : List ℚ} (h : values.length = items.length) :
    keptValues payload (items ++ rest) (values ++ following) =
      keptValues payload items values ++ keptValues payload rest following := by
  rw [keptValues, zip_append h.symm, filter_append, map_append]
  rfl

theorem keptValues_map (payload : ExecutionCreate) (f : Observation → ℚ)
    (items : List Observation) :
    keptValues payload items (items.map f) = (items.filter (retains payload ·)).map f := by
  induction items with
  | nil => rfl
  | cons item items ih =>
    rw [keptValues] at ih ⊢
    by_cases hretains : retains payload item = true
    · simp [hretains, ih]
    · simp [hretains, ih]

theorem seriesOf_values_length {payload : ExecutionCreate} (h : Prepared payload values) :
    (seriesOf payload values).values.length = (retained payload).length :=
  keptValues_length (impute_length h.imputed)

/-! ## One other value

Another value at one period leaves the periods and the checks on them as they are.
-/

section
variable (payload : ExecutionCreate) (k : Instant) (v : Option ℚ)

theorem sortByTimestamp_withValue (observations : List Observation) :
    sortByTimestamp (observations.map (Observation.withValue k v)) =
      (sortByTimestamp observations).map (Observation.withValue k v) := by
  refine (map_insertionSort _ _ _ _ ?_).symm
  intro a _ b _
  rw [Observation.withValue_timestamp, Observation.withValue_timestamp]

theorem periods_withValue :
    periods (payload.withValue k v) = (periods payload).map (Observation.withValue k v) := by
  simp only [periods, ExecutionCreate.withValue, sortByTimestamp_withValue, filter_map]
  congr 2
  funext item
  simp only [Function.comp_apply, Observation.withValue_status]

theorem retained_withValue :
    retained (payload.withValue k v) = (retained payload).map (Observation.withValue k v) := by
  simp only [retained, periods_withValue, filter_map]
  congr 2
  funext item
  simp only [Function.comp_apply, retains, ExecutionCreate.withValue,
    Observation.withValue_confirmedDataError]

end

theorem periods_sorted {payload : ExecutionCreate} (h : DistinctPeriods payload) :
    (periods payload).Pairwise (·.timestamp < ·.timestamp) := by
  refine Pairwise.filter _ ?_
  have hle : (sortByTimestamp payload.observations).Pairwise (·.timestamp ≤ ·.timestamp) := by
    have : Std.Total (fun a b : Observation => a.timestamp ≤ b.timestamp) :=
      ⟨fun a b => le_total a.timestamp b.timestamp⟩
    have : IsTrans Observation (fun a b => a.timestamp ≤ b.timestamp) :=
      ⟨fun a b c hab hbc => le_trans hab hbc⟩
    exact pairwise_insertionSort _ _
  have hne : (sortByTimestamp payload.observations).Pairwise (·.timestamp ≠ ·.timestamp) := by
    rw [← pairwise_map (f := Observation.timestamp) (R := (· ≠ ·))]
    exact ((perm_insertionSort _ _).map _).nodup_iff.2 h.1
  exact hle.imp₂ (fun _ _ hle hne => lt_of_le_of_ne hle hne) hne

theorem retained_sorted {payload : ExecutionCreate} (h : DistinctPeriods payload) :
    (retained payload).Pairwise (·.timestamp < ·.timestamp) := (periods_sorted h).filter _

theorem mem_observations_of_mem_retained {payload : ExecutionCreate} (h : o ∈ retained payload) :
    o ∈ payload.observations := by
  have hperiod := mem_of_mem_filter h
  exact (mem_insertionSort _).1 (mem_of_mem_filter hperiod)

/-! ## How far an imputed value looks ahead -/

theorem fill_append {given : List ℚ} {items : List Observation}
    (h : policy = "LINEAR_INTERPOLATION" → ∃ o ∈ items, o.value ≠ none) :
    fill policy given last (items ++ rest) = fill policy given last items := by
  unfold fill
  by_cases hpolicy : policy = "LINEAR_INTERPOLATION"
  · obtain ⟨o, ho, hvalue⟩ := h hpolicy
    have hsome : (items.findSome? (·.value)).isSome := by
      rw [isSome_findSome?]
      exact any_eq_true.2 ⟨o, ho, Option.isSome_iff_ne_none.2 hvalue⟩
    simp only [List.findSome?_append, Option.or_of_isSome hsome]
  · simp only [if_neg hpolicy]

def lastAfter (last : Option ℚ) (values : List ℚ) : Option ℚ :=
  values.foldl (fun _ value => some value) last

/-- Periods that end in a value are imputed without a look at the periods after them. -/
theorem impute_append {given : List ℚ} {items : List Observation}
    (h : policy = "LINEAR_INTERPOLATION" → ∀ o ∈ items.getLast?, o.value ≠ none) :
    impute policy given last (items ++ rest) = (do
      let values ← impute policy given last items
      let following ← impute policy given (lastAfter last values) rest
      return values ++ following) := by
  induction items generalizing last with
  | nil =>
    cases hrest : impute policy given last rest <;> simp [impute, lastAfter, hrest]
  | cons item items ih =>
    have hitems : policy = "LINEAR_INTERPOLATION" → ∀ o ∈ items.getLast?, o.value ≠ none := by
      intro hpolicy o ho
      refine h hpolicy o ?_
      rw [Option.mem_def] at ho ⊢
      rw [List.getLast?_cons, ho, Option.getD_some]
    have hvalue : item.value.elim (fill policy given last (items ++ rest)) .ok =
        item.value.elim (fill policy given last items) (.ok : ℚ → Except Failure ℚ) := by
      cases hitem : item.value with
      | some x => rfl
      | none =>
        refine fill_append ?_
        intro hpolicy
        -- the last period has a value and this one has none, so it is among the others
        cases hlast : items.getLast? with
        | none =>
          refine absurd hitem (h hpolicy item ?_)
          rw [List.getLast?_eq_none_iff.1 hlast]
          rfl
        | some o => exact ⟨o, mem_of_getLast? hlast, hitems hpolicy o hlast⟩
    rw [cons_append, impute, impute, hvalue]
    simp only [ih hitems, bind_assoc, pure_bind]
    rfl

theorem impute_available (h : policy ≠ "HISTORICAL_MEDIAN_FILL") (given given' : List ℚ)
    (last : Option ℚ) (items : List Observation) :
    impute policy given last items = impute policy given' last items := by
  have hfill : fill policy given = fill policy given' := by
    funext last rest
    simp only [fill, if_neg h]
  induction items generalizing last with
  | nil => rfl
  | cons item items ih =>
    rw [impute, impute, hfill]
    simp only [ih]

theorem impute_median {given : List ℚ} {items : List Observation}
    (h : impute "HISTORICAL_MEDIAN_FILL" given last items = .ok values) :
    values = items.map (·.value.getD (median given)) := by
  induction items generalizing last values with
  | nil => exact (Except.ok.inj h).symm
  | cons item items ih =>
    obtain ⟨value, hvalue, h⟩ := bind_eq_ok.1 h
    obtain ⟨following, hrest, h⟩ := bind_eq_ok.1 h
    obtain rfl := pure_eq_ok.1 h
    rw [map_cons, ← ih hrest]
    congr 1
    cases hitem : item.value with
    | some x =>
      rw [hitem] at hvalue
      exact (Except.ok.inj hvalue).symm
    | none =>
      rw [hitem] at hvalue
      have hfill : fill "HISTORICAL_MEDIAN_FILL" given last items = .ok value := hvalue
      by_cases hgiven : given = []
      · simp [fill, hgiven] at hfill
      · simpa [fill, hgiven] using hfill.symm

/-! ## What the history before an origin depends on -/

theorem split_at {items : List Observation} (h : items.Pairwise (·.timestamp < ·.timestamp))
    (τ : Instant) :
    items = items.filter (·.timestamp ≤ τ) ++ items.filter (τ < ·.timestamp) := by
  induction items with
  | nil => rfl
  | cons item items ih =>
    obtain ⟨hitem, hitems⟩ := pairwise_cons.1 h
    by_cases hle : item.timestamp ≤ τ
    · rw [filter_cons_of_pos (by simpa using hle),
        filter_cons_of_neg (by simpa using hle), cons_append, ← ih hitems]
    · -- the instant lies before all of them
      have hlate : ∀ o ∈ item :: items, τ < o.timestamp := by
        intro o ho
        rcases mem_cons.1 ho with rfl | ho
        · exact not_le.1 hle
        · exact (not_le.1 hle).trans (hitem o ho)
      rw [filter_eq_nil_iff.2 (fun o ho => by simpa using hlate o ho),
        filter_eq_self.2 (fun o ho => by simpa using hlate o ho), nil_append]

/-- The periods up to the one at `index` are the first `index + 1`. -/
theorem filter_le_getElem {items : List Observation}
    (h : items.Pairwise (·.timestamp < ·.timestamp)) {index : ℕ} (ho : items[index]? = some o) :
    items.filter (·.timestamp ≤ o.timestamp) = items.take (index + 1) := by
  obtain ⟨hindex, ho⟩ := List.getElem?_eq_some_iff.1 ho
  have hlt := pairwise_iff_getElem.1 h
  conv_lhs => rw [← take_append_drop (index + 1) items]
  rw [filter_append, filter_eq_self.2, filter_eq_nil_iff.2, append_nil]
  · intro p hp
    obtain ⟨i, hi, rfl⟩ := mem_drop_iff_getElem.1 hp
    have hlater := hlt index (index + 1 + i) hindex (by omega) (by omega)
    simpa [← ho] using hlater
  · intro p hp
    obtain ⟨i, hi, rfl⟩ := mem_take_iff_getElem.1 hp
    rcases (show i ≤ index by omega).eq_or_lt with rfl | hlt'
    · simp [← ho]
    · simpa [← ho] using (hlt i index (by omega) hindex hlt').le

/-- Another value at a later period leaves the periods up to an instant alone. -/
theorem filter_le_withValue {items : List Observation} {τ k : Instant} (h : τ < k)
    (v : Option ℚ) :
    (items.map (Observation.withValue k v)).filter (·.timestamp ≤ τ) =
      items.filter (·.timestamp ≤ τ) := by
  induction items with
  | nil => rfl
  | cons item items ih =>
    rw [map_cons]
    by_cases hle : item.timestamp ≤ τ
    · rw [filter_cons_of_pos (by simpa using hle), filter_cons_of_pos (by simpa using hle),
        ih, Observation.withValue_of_ne (ne_of_lt (lt_of_le_of_lt hle h))]
    · rw [filter_cons_of_neg (by simpa using hle), filter_cons_of_neg (by simpa using hle), ih]

theorem getLast?_filter_le {items : List Observation}
    (h : items.Pairwise (·.timestamp < ·.timestamp)) (ho : o ∈ items) :
    (items.filter (·.timestamp ≤ o.timestamp)).getLast? = some o := by
  obtain ⟨i, hi, rfl⟩ := getElem_of_mem ho
  rw [filter_le_getElem h (List.getElem?_eq_getElem hi), List.getLast?_take,
    if_neg (Nat.succ_ne_zero i), Nat.add_sub_cancel, List.getElem?_eq_getElem hi]
  rfl

/-- The history up to a retained period is imputed without a look at what follows it, except that
an interpolated value at that period looks at the next value. -/
theorem history_local {payload : ExecutionCreate} (h : Prepared payload values) {index : ℕ}
    (ho : (retained payload)[index]? = some o)
    (hlinear : payload.missingPeriodPolicy = "LINEAR_INTERPOLATION" → o.value ≠ none) :
    ∃ past, impute payload.missingPeriodPolicy (available (periods payload)) none
        ((periods payload).filter (·.timestamp ≤ o.timestamp)) = .ok past ∧
      (seriesOf payload values).values.take (index + 1) =
        keptValues payload ((periods payload).filter (·.timestamp ≤ o.timestamp)) past := by
  have hsorted := periods_sorted h.distinct
  have hmem : o ∈ periods payload := mem_of_mem_filter (mem_of_getElem? ho)
  have hsplit := split_at hsorted o.timestamp
  have himputed := h.imputed
  conv at himputed => lhs; arg 4; rw [hsplit]
  rw [impute_append] at himputed
  · obtain ⟨past, hpast, hrest⟩ := bind_eq_ok.1 himputed
    obtain ⟨following, -, hvalues⟩ := bind_eq_ok.1 hrest
    obtain rfl := pure_eq_ok.1 hvalues
    have hlen := impute_length hpast
    refine ⟨past, hpast, ?_⟩
    have hcount : (keptValues payload
        ((periods payload).filter (·.timestamp ≤ o.timestamp)) past).length = index + 1 := by
      rw [keptValues_length hlen, filter_comm,
        show (periods payload).filter (retains payload ·) = retained payload from rfl,
        filter_le_getElem (retained_sorted h.distinct) ho, length_take]
      have := (List.getElem?_eq_some_iff.1 ho).1
      omega
    rw [seriesOf_values]
    conv_lhs => rw [hsplit]
    rw [keptValues_append payload hlen, take_left' hcount]
  · intro hpolicy last hlast
    rw [getLast?_filter_le hsorted hmem] at hlast
    obtain rfl := Option.some.inj hlast
    exact hlinear hpolicy

theorem seriesOf_median {payload : ExecutionCreate} (h : Prepared payload values)
    (hpolicy : payload.missingPeriodPolicy = "HISTORICAL_MEDIAN_FILL") :
    (seriesOf payload values).values =
      (retained payload).map (·.value.getD (median (available (periods payload)))) := by
  have himputed := h.imputed
  rw [hpolicy] at himputed
  rw [seriesOf_values, impute_median himputed, keptValues_map]
  rfl

/-- Another value at a later period leaves the history up to an origin as it was, where the origin
is not interpolated and no missing value before it takes a median that moves. -/
theorem history_blind {payload : ExecutionCreate} {k : Instant} {v : Option ℚ} {values' : List ℚ}
    (h : Prepared payload values) (h' : Prepared (payload.withValue k v) values') {index : ℕ}
    (ho : (retained payload)[index]? = some o) (hk : o.timestamp < k)
    (hlinear : payload.missingPeriodPolicy = "LINEAR_INTERPOLATION" → o.value ≠ none)
    (hmedian : payload.missingPeriodPolicy = "HISTORICAL_MEDIAN_FILL" →
      (∀ p ∈ (retained payload).take (index + 1), p.value ≠ none) ∨
        median (available (periods payload)) =
          median (available (periods (payload.withValue k v)))) :
    (seriesOf (payload.withValue k v) values').values.take (index + 1) =
      (seriesOf payload values).values.take (index + 1) := by
  have hearlier : ∀ p ∈ (retained payload).take (index + 1), p.timestamp ≠ k := by
    intro p hp
    rw [← filter_le_getElem (retained_sorted h.distinct) ho] at hp
    have hle : p.timestamp ≤ o.timestamp := by simpa using (mem_filter.1 hp).2
    exact ne_of_lt (lt_of_le_of_lt hle hk)
  by_cases hpolicy : payload.missingPeriodPolicy = "HISTORICAL_MEDIAN_FILL"
  · rw [seriesOf_median h hpolicy, seriesOf_median h' hpolicy, retained_withValue,
      ← map_take, ← map_take, ← map_take, map_map]
    refine map_congr_left ?_
    intro p hp
    rw [Function.comp_apply, Observation.withValue_of_ne (hearlier p hp)]
    rcases hmedian hpolicy with hvalued | hsame
    · obtain ⟨x, hx⟩ := Option.ne_none_iff_exists'.1 (hvalued p hp)
      rw [hx, Option.getD_some, Option.getD_some]
    · rw [hsame]
  · have ho' : (retained (payload.withValue k v))[index]? = some o := by
      rw [retained_withValue, List.getElem?_map, ho, Option.map_some,
        Observation.withValue_of_ne (ne_of_lt hk)]
    obtain ⟨past, hpast, htake⟩ := history_local h ho hlinear
    obtain ⟨past', hpast', htake'⟩ := history_local h' ho' hlinear
    rw [periods_withValue, filter_le_withValue hk] at hpast' htake'
    -- both runs impute the same periods by a policy that does not look at all values
    have hsame : (.ok past' : Except Failure (List ℚ)) = .ok past := by
      rw [← hpast, ← hpast']
      exact impute_available hpolicy _ _ _ _
    rw [htake, htake', Except.ok.inj hsame]
    rfl

end Intel4Ops.Forecasting
