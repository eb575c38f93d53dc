import Intel4Ops.Reliability.Survival
import Mathlib.Analysis.SpecialFunctions.Pow.Real

/-!
# Preview and execution

A preview leaves out the fields that a client did not send, a governed execution fills in the
defaults of its schema, and the engine has defaults of its own: a missing repair count is the
failure count. The two agree unless that default, or the one of `event_observed`, is read.
-/

namespace Intel4Ops.Reliability

open Lib List Except

/-! ## Requests -/

/-- An observation that both request schemas accept, less the texts about the asset. -/
structure ObservationInput where
  (duration exposure downtime repairDuration : Option ℚ)
  (failureCount repairCount : Option ℕ)
  eventObserved : Option Bool
  (normalizedValue weight : Option ℚ)
  duration_nonneg : ∀ x ∈ duration, 0 ≤ x
  repair_nonneg : 0 ≤ repairDuration.getD 0
  downtime_nonneg : 0 ≤ downtime.getD 0
  downtime_le : downtime.getD 0 ≤ exposure.getD 0
  value_bounds : ∀ x ∈ normalizedValue, 0 ≤ x ∧ x ≤ 1
  weight_bounds : ∀ x ∈ weight, 0 ≤ x ∧ x ≤ 1

namespace ObservationInput

/-- `model_dump(exclude_none=True)` of the evaluate schema -/
def previewInput (o : ObservationInput) : Observation
  | "duration" => o.duration.map .number
  | "exposure" => o.exposure.map .number
  | "downtime" => o.downtime.map .number
  | "repair_duration" => o.repairDuration.map .number
  | "failure_count" => o.failureCount.map fun (n : ℕ) => .number n
  | "repair_count" => o.repairCount.map fun (n : ℕ) => .number n
  | "event_observed" => o.eventObserved.map .boolean
  | "normalized_value" => o.normalizedValue.map .number
  | "weight" => o.weight.map .number
  | _ => none

/-- `model_dump` of the execute schema: a null is no number. -/
def executeInput (o : ObservationInput) : Observation
  | "duration" => some ((o.duration.map .number).getD .other)
  | "exposure" => some (.number (o.exposure.getD 0))
  | "downtime" => some (.number (o.downtime.getD 0))
  | "repair_duration" => some (.number (o.repairDuration.getD 0))
  | "failure_count" => some (.number (o.failureCount.getD 0))
  | "repair_count" => some (.number (o.repairCount.getD 0))
  | "event_observed" => some (.boolean (o.eventObserved.getD false))
  | "normalized_value" => some ((o.normalizedValue.map .number).getD .other)
  | "weight" => some ((o.weight.map .number).getD .other)
  | _ => none

end ObservationInput

/-! ## The other methods -/

/-- `any(not _strict_boolean(...))` -/
def anyCensored : List Observation → Except Raised Bool
  | [] => .ok false
  | item :: observations => do
    let observed ← strictBoolean ((item "event_observed").getD .other) "event_observed"
    if observed then anyCensored observations else .ok true

structure WeibullValues where
  (shape scale b10 b50 : ℝ)

/-- The least-squares fit of sorted failure times on a probability plot. -/
noncomputable def weibullFit (failures : List ℚ) : Except Raised WeibullValues := do
  ensure (3 ≤ failures.length) (.reliabilityMethod "Insufficient failures for Weibull fit")
  ensure (¬ (failures.headD 0 ≤ 0 ∨ failures.headD 0 = failures.getLastD 0))
    (.reliabilityMethod "Positive non-constant failure times are required")
  let n := failures.length
  let xs := failures.map fun value : ℚ => Real.log value
  let ys := (List.range n).map fun i =>
    Real.log (-Real.log ((1 - ((i + 1 : ℕ) - 3 / 10) / (n + 4 / 10) : ℚ) : ℝ))
  let xMean := xs.sum / n
  let yMean := ys.sum / n
  let denominator := (xs.map fun x => (x - xMean) * (x - xMean)).sum
  let shape := ((xs.zip ys).map fun p => (p.1 - xMean) * (p.2 - yMean)).sum / denominator
  ensure (¬ shape ≤ 0) (.reliabilityMethod "Invalid Weibull shape")
  let scale := Real.exp (-(yMean - shape * xMean) / shape)
  return ⟨shape, scale, scale * (-Real.log ((9 / 10 : ℚ) : ℝ)) ^ (1 / shape),
    scale * Real.log ((2 : ℚ) : ℝ) ^ (1 / shape)⟩

/-- `WeibullTwoParameterMethod.execute` -/
noncomputable def weibull (observations : List Observation) : Except Raised WeibullValues := do
  let censored ← anyCensored observations
  ensure (censored = false)
    (.reliabilityMethod "WEIBULL_TWO_PARAMETER does not support censored observations")
  let failures ← observations.mapM fun item => finite ((item "duration").getD .other) "duration"
  weibullFit (failures.insertionSort (· ≤ ·))

/-- The contribution of a component. -/
def contribution (item : Observation) : Except Raised ℚ := do
  let value ← finite ((item "normalized_value").getD .other) "normalized_value"
  let weight ← finite ((item "weight").getD .other) "weight"
  ensure ((0 ≤ value ∧ value ≤ 1) ∧ 0 ≤ weight)
    (.reliabilityMethod "Components and weights must be bounded")
  return value * weight

/-- `CompositeScoreMethod.execute`: the risk and the health. -/
def compositeScore (observations : List Observation) : Except Raised (ℚ × ℚ) := do
  ensure (observations ≠ []) (.reliabilityMethod "At least one component is required")
  let contributions ← observations.mapM contribution
  let weights ← observations.mapM fun item => finite ((item "weight").getD .other) "weight"
  ensure (|weights.sum - 1| ≤ max (max |weights.sum| 1 / 1000000000) (1 / 1000000))
    (.reliabilityMethod "Component weights must sum to one")
  let risk := max 0 (min 100 (contributions.sum * 100))
  return (risk, 100 - risk)

/-! ## The service -/

/-- The classes of the registered methods. -/
inductive Method
  | basic
  | kaplanMeier
  | weibull
  | composite

def Method.Values : Method → Type
  | basic => BasicValues
  | kaplanMeier => Option ℚ × ℚ
  | weibull => WeibullValues
  | composite => ℚ × ℚ

noncomputable def Method.values : (m : Method) → List Observation → Except Raised m.Values
  | basic, observations => basicExecute observations
  | kaplanMeier, observations =>
    (Reliability.kaplanMeier observations).map fun r => (r.medianSurvival, r.finalSurvival)
  | weibull, observations => Reliability.weibull observations
  | composite, observations => compositeScore observations

def Method.minimumFailureCount : Method → ℕ
  | weibull => 3
  | basic | kaplanMeier | composite => 0

/-- `ReliabilityExecutionService.evaluate`; the error of a method is `METHOD_REJECTED`. -/
noncomputable def evaluate (m : Method) (inputs : List ObservationInput) :
    Except Raised m.Values :=
  m.values (inputs.map (·.previewInput))

/-- The minimum checks of `ReliabilityExecutionService.execute`, with their codes. -/
def minimumChecks (m : Method) (inputs : List ObservationInput) : Except String Unit := do
  ensure (1 ≤ inputs.length) "INSUFFICIENT_ASSETS"
  ensure (m.minimumFailureCount ≤ (inputs.map (·.failureCount.getD 0)).sum)
    "INSUFFICIENT_FAILURES"
  ensure (0 ≤ (inputs.map (·.exposure.getD 0)).sum) "INSUFFICIENT_EXPOSURE"

/-- The metric values that `execute` stores past its minimum checks, or `METHOD_REJECTED`. -/
noncomputable def execute (m : Method) (inputs : List ObservationInput) :
    Except Raised m.Values :=
  m.values (inputs.map (·.executeInput))

/-! ## Agreement -/

/-- The method rejects what it is given. -/
def Rejects {α : Type} (result : Except Raised α) : Prop :=
  ∃ message, result = .error (.reliabilityMethod message)

/-- Past the minimum checks the preview has the values of the execution, and is rejected with it. -/
def Agrees (m : Method) (inputs : List ObservationInput) : Prop :=
  minimumChecks m inputs = .ok () →
    (∀ values, evaluate m inputs = .ok values ↔ execute m inputs = .ok values) ∧
      (Rejects (evaluate m inputs) ↔ Rejects (execute m inputs))

/-- The failures of the observations without a repair count. -/
def uncountedRepairs (inputs : List ObservationInput) : ℕ :=
  (inputs.map fun o => if o.repairCount = none then o.failureCount.getD 0 else 0).sum

/-- No default makes a difference. -/
def DefaultsAgree : Method → List ObservationInput → Prop
  | .basic, inputs => uncountedRepairs inputs = 0 ∨
    (inputs.map (·.repairDuration.getD 0)).sum = 0 ∧
      0 < (inputs.map (·.repairCount.getD 0)).sum
  | .kaplanMeier, inputs =>
    (∀ o ∈ inputs, o.eventObserved ≠ none) ∨ ∃ o ∈ inputs, o.duration = none
  | .weibull, _ | .composite, _ => True

variable {m : Method} {inputs : List ObservationInput} {items : List Observation}
  {item : Observation}

theorem agrees_of_eq (h : evaluate m inputs = execute m inputs) :
    Agrees m inputs := by
  rw [Agrees, h]
  exact fun _ => ⟨fun _ => Iff.rfl, Iff.rfl⟩

theorem agrees_of_rejects (hpreview : Rejects (evaluate m inputs))
    (hexecute : Rejects (execute m inputs)) : Agrees m inputs := by
  refine fun _ => ⟨fun values => ?_, iff_of_true hpreview hexecute⟩
  obtain ⟨message, hpreview⟩ := hpreview
  obtain ⟨message', hexecute⟩ := hexecute
  rw [hpreview, hexecute]
  exact iff_of_false nofun nofun

/-! ## Methods that read no default -/

theorem mapM_inputs {α : Type} {read : Observation → Except Raised α}
    (h : ∀ o ∈ inputs, read o.previewInput = read o.executeInput) :
    (inputs.map (·.previewInput)).mapM read =
      (inputs.map (·.executeInput)).mapM read := by
  induction inputs with
  | nil => rfl
  | cons o inputs ih =>
    obtain ⟨ho, hrest⟩ := forall_mem_cons.1 h
    rw [map_cons, map_cons, mapM_cons, mapM_cons, ho, ih hrest]

theorem compositeScore_agrees : Agrees .composite inputs := by
  refine agrees_of_eq ?_
  show compositeScore _ = compositeScore _
  have hne : inputs.map (·.previewInput) ≠ [] ↔ inputs.map (·.executeInput) ≠ [] := by
    simp
  simp only [compositeScore, hne]
  rw [mapM_inputs (fun _ _ => rfl : ∀ o ∈ inputs, contribution o.previewInput = _),
    mapM_inputs fun _ _ => rfl]

/-- Where an event is left out, the preview fails and the execution finds the list censored. -/
theorem anyCensored_inputs (inputs : List ObservationInput) :
    anyCensored (inputs.map (·.previewInput)) =
        anyCensored (inputs.map (·.executeInput)) ∨
      Rejects (anyCensored (inputs.map (·.previewInput))) ∧
        anyCensored (inputs.map (·.executeInput)) = .ok true := by
  induction inputs with
  | nil => exact .inl rfl
  | cons o inputs ih =>
    simp only [map_cons, anyCensored, ObservationInput.previewInput, ObservationInput.executeInput]
    cases o.eventObserved with
    | none => exact .inr ⟨⟨_, rfl⟩, rfl⟩
    | some b =>
      cases b with
      | false => exact .inl rfl
      | true => exact ih

theorem weibull_agrees : Agrees .weibull inputs := by
  rcases anyCensored_inputs inputs with hsame | ⟨⟨message, hpreview⟩, hexecute⟩
  · refine agrees_of_eq ?_
    show weibull _ = weibull _
    rw [weibull, weibull, hsame, mapM_inputs fun _ _ => rfl]
  · have hpreview' : Rejects (weibull _) := ⟨message, by rw [weibull, hpreview]; rfl⟩
    have hexecute' : Rejects (weibull _) := ⟨_, by rw [weibull, hexecute]; rfl⟩
    exact agrees_of_rejects hpreview' hexecute'

/-! ## Survival -/

theorem prepare_error {e : Raised} (h : prepare item = .error e) :
    ∃ message, e = .reliabilityMethod message := by
  rcases bind_eq_error.1 h with h | ⟨duration, -, h⟩
  · cases hvalue : (item "duration").getD .other <;> rw [hvalue] at h <;> cases h <;> exact ⟨_, rfl⟩
  rcases bind_eq_error.1 h with h | ⟨_, -, h⟩
  · exact ⟨_, (ensure_eq_error.1 h).2.symm⟩
  rcases bind_eq_error.1 h with h | ⟨_, -, h⟩
  · cases hvalue : (item "event_observed").getD .other <;> rw [hvalue] at h <;> cases h <;>
      exact ⟨_, rfl⟩
  · exact absurd h pure_ne_error

theorem mapM_prepare_rejects (hitem : item ∈ items) (h : Rejects (prepare item)) :
    Rejects (items.mapM prepare) := by
  induction items with
  | nil => cases hitem
  | cons first items ih =>
    rw [mapM_cons]
    cases hfirst : prepare first with
    | error e =>
      obtain ⟨message, rfl⟩ := prepare_error hfirst
      exact ⟨message, rfl⟩
    | ok a =>
      rcases mem_cons.1 hitem with rfl | hitem
      · obtain ⟨message, h⟩ := h
        cases h.symm.trans hfirst
      · obtain ⟨message, hrest⟩ := ih hitem
        exact ⟨message, by rw [ok_bind, hrest]; rfl⟩

theorem kaplanMeier_rejects (hitem : item ∈ items) (h : Rejects (prepare item)) :
    Rejects (Method.kaplanMeier.values items) := by
  obtain ⟨message, h⟩ := mapM_prepare_rejects hitem h
  refine ⟨message, ?_⟩
  have hfails : Reliability.kaplanMeier items = .error (.reliabilityMethod message) := by
    rw [Reliability.kaplanMeier, h]
    rfl
  exact congrArg (Except.map _) hfails

theorem prepare_of_no_duration (h : (item "duration").getD .other = .other) :
    Rejects (prepare item) := by
  rw [prepare, h]
  exact ⟨_, rfl⟩

theorem minimumChecks_of_nonempty {o : ObservationInput} (ho : o ∈ inputs)
    (hm : m.minimumFailureCount = 0) : minimumChecks m inputs = .ok () := by
  have hexposure : 0 ≤ (inputs.map (·.exposure.getD 0)).sum :=
    sum_nonneg (forall_mem_map.2 fun o _ => o.downtime_nonneg.trans o.downtime_le)
  rw [minimumChecks, ensure_of (Nat.succ_le_of_lt (length_pos_of_mem ho)), ok_bind,
    ensure_of (hm.trans_le (Nat.zero_le _)), ok_bind, ensure_of hexposure]

theorem kaplanMeier_agrees_iff :
    Agrees .kaplanMeier inputs ↔ DefaultsAgree .kaplanMeier inputs := by
  constructor
  · intro h
    by_contra hnot
    rw [DefaultsAgree, not_or] at hnot
    push Not at hnot
    obtain ⟨⟨o, ho, hevent⟩, hduration⟩ := hnot
    obtain ⟨hvalues, -⟩ := h (minimumChecks_of_nonempty ho rfl)
    -- The execution takes the observation for a censored one.
    have hprepare : ∀ item ∈ inputs.map (·.executeInput), ∃ s, prepare item = .ok s := by
      refine forall_mem_map.2 fun o ho => ?_
      obtain ⟨x, hx⟩ := Option.ne_none_iff_exists'.1 (hduration o ho)
      refine ⟨(x, o.eventObserved.getD false), prepare_of_says ⟨?_, rfl⟩ (o.duration_nonneg x hx)⟩
      simp [ObservationInput.executeInput, hx]
    obtain ⟨prepared, hprepared⟩ := exists_mapM_eq_ok hprepare
    have hne : prepared ≠ [] := by
      rintro rfl
      obtain ⟨s, hs⟩ := hprepare _ (mem_map_of_mem ho)
      exact absurd ((mem_of_mapM_eq_ok hprepared).2 ⟨_, mem_map_of_mem ho, hs⟩) not_mem_nil
    have hexecute := congrArg (Except.map fun r => (r.medianSurvival, r.finalSurvival))
      (kaplanMeier_of_prepared hprepared hne)
    have hmissing : Rejects (prepare o.previewInput) := by
      obtain ⟨x, hx⟩ := Option.ne_none_iff_exists'.1 (hduration o ho)
      have hx0 := o.duration_nonneg x hx
      exact ⟨_, by simp [prepare, ObservationInput.previewInput, hevent, hx, finite, ensure, hx0,
        strictBoolean]; rfl⟩
    obtain ⟨message, hpreview⟩ := kaplanMeier_rejects (mem_map_of_mem ho) hmissing
    cases hpreview.symm.trans ((hvalues _).2 hexecute)
  · rintro (hevents | ⟨o, ho, hduration⟩)
    · have hsame : Reliability.kaplanMeier (inputs.map (·.previewInput)) =
          Reliability.kaplanMeier (inputs.map (·.executeInput)) := by
        rw [Reliability.kaplanMeier, Reliability.kaplanMeier, mapM_inputs fun o ho => ?_]
        obtain ⟨b, hb⟩ := Option.ne_none_iff_exists'.1 (hevents o ho)
        simp [prepare, ObservationInput.previewInput, ObservationInput.executeInput, hb]
      exact agrees_of_eq (congrArg (Except.map _) hsame)
    · refine agrees_of_rejects (kaplanMeier_rejects (mem_map_of_mem ho) ?_)
        (kaplanMeier_rejects (mem_map_of_mem ho) ?_)
      · exact prepare_of_no_duration (by simp [ObservationInput.previewInput, hduration])
      · exact prepare_of_no_duration (by simp [ObservationInput.executeInput, hduration])

/-! ## Totals -/

/-- The amounts of an observation, with a count of repairs. -/
def ObservationInput.amounts (o : ObservationInput) (repairs : ℕ) : Amounts :=
  ⟨o.exposure.getD 0, o.downtime.getD 0, o.repairDuration.getD 0, o.failureCount.getD 0, repairs⟩

theorem ObservationInput.admissible (o : ObservationInput) (repairs : ℕ) :
    (o.amounts repairs).Admissible where
  exposure := o.downtime_nonneg.trans o.downtime_le
  downtime := o.downtime_nonneg
  repair := o.repair_nonneg
  failures := Nat.cast_nonneg _
  repairs := Nat.cast_nonneg _
  downtime_le := o.downtime_le

/-- The totals of a list, with a count of repairs for every observation. -/
def inputTotals (inputs : List ObservationInput) (repairs : ObservationInput → ℕ) : Amounts :=
  ⟨(inputs.map (·.exposure.getD 0)).sum, (inputs.map (·.downtime.getD 0)).sum,
    (inputs.map (·.repairDuration.getD 0)).sum,
    (inputs.map (·.failureCount.getD 0)).sum, (inputs.map repairs).sum⟩

/-- The numbers that the basic method reads in an observation. -/
structure Reads (item : Observation) (a : Amounts) : Prop where
  exposure : item.get "exposure" = .number a.exposure
  downtime : item.get "downtime" = .number a.downtime
  repair : item.get "repair_duration" = .number a.repair
  failures : item.get "failure_count" = .number a.failures
  repairs : item.repairCount = .number a.repairs

theorem basicExecute_inputs (inputs : List ObservationInput) {input : ObservationInput → Observation}
    {repairs : ObservationInput → ℕ} (h : ∀ o, Reads (input o) (o.amounts (repairs o))) :
    basicExecute (inputs.map input) = .ok (basicValues (inputTotals inputs repairs)) := by
  have hread (o : ObservationInput) : (input o).Readable := by
    constructor <;> simp [(h o).exposure, (h o).downtime, (h o).repair, (h o).failures,
      (h o).repairs, Value.isNumber, Value.amount]
  have hamounts (o : ObservationInput) : (input o).amounts = o.amounts (repairs o) := by
    simp [Observation.amounts, (h o).exposure, (h o).downtime, (h o).repair, (h o).failures,
      (h o).repairs, Value.amount]
  rw [basicExecute_of_admissible (forall_mem_map.2 fun o _ => hread o)
    (forall_mem_map.2 fun o _ => hamounts o ▸ o.admissible _), total_amounts]
  simp only [map_map, Function.comp_def, hamounts, ObservationInput.amounts, inputTotals,
    Nat.cast_list_sum]

theorem number_getD {x : Option ℚ} :
    (x.map Value.number).getD (.number 0) = .number (x.getD 0) := by
  cases x <;> rfl

theorem count_getD {n : Option ℕ} {k : ℕ} : (n.map fun (n : ℕ) => Value.number n).getD (.number k) =
    .number ((n.getD k : ℕ) : ℤ) := by
  cases n <;> simp

theorem previewInput_reads (o : ObservationInput) :
    Reads o.previewInput (o.amounts (o.repairCount.getD (o.failureCount.getD 0))) where
  exposure := number_getD
  downtime := number_getD
  repair := number_getD
  failures := by exact_mod_cast count_getD (n := o.failureCount) (k := 0)
  repairs := by
    have hfailures : o.previewInput.get "failure_count" = .number (o.failureCount.getD 0 : ℕ) := by
      exact_mod_cast count_getD (n := o.failureCount) (k := 0)
    rw [Observation.repairCount, hfailures]
    exact count_getD

theorem executeInput_reads (o : ObservationInput) :
    Reads o.executeInput (o.amounts (o.repairCount.getD 0)) := by
  constructor <;> simp [Observation.get, Observation.repairCount, ObservationInput.executeInput,
    ObservationInput.amounts]

theorem sum_repairs (inputs : List ObservationInput) :
    (inputs.map fun o => o.repairCount.getD (o.failureCount.getD 0)).sum =
      (inputs.map (·.repairCount.getD 0)).sum + uncountedRepairs inputs := by
  rw [uncountedRepairs, ← sum_map_add]
  congr 2
  funext o
  cases o.repairCount <;> simp

/-- More repairs change the rates unless nothing was repaired in any time. -/
theorem basicValues_eq_iff {a : Amounts} (ha : 0 ≤ a.repair) (q n : ℕ) :
    basicValues { a with repairs := (q + n : ℕ) } = basicValues { a with repairs := q } ↔
      n = 0 ∨ a.repair = 0 ∧ 0 < q := by
  constructor
  · intro h
    by_contra hnot
    obtain ⟨hn, hrest⟩ := not_or.1 hnot
    have hrate := congrArg BasicValues.repairRate h
    have hmttr := congrArg BasicValues.mttr h
    rcases ha.eq_or_lt with hzero | hpos
    · obtain rfl : q = 0 := by simpa [← hzero] using hrest
      simp [basicValues, ratio, hn] at hmttr
    · simp [basicValues, ratio, hpos, hpos.ne', div_left_inj', hn] at hrate
  · rintro (rfl | ⟨hzero, hq⟩)
    · rfl
    · have hsum : (q : ℤ) + n ≠ 0 := by omega
      simp [basicValues, ratio, hq.ne', hsum, hzero]

theorem basic_agrees_iff : Agrees .basic inputs ↔ DefaultsAgree .basic inputs := by
  have hpreview := basicExecute_inputs inputs previewInput_reads
  have hexecute := basicExecute_inputs inputs executeInput_reads
  rw [inputTotals, sum_repairs] at hpreview
  have hrepair : 0 ≤ (inputs.map (·.repairDuration.getD 0)).sum :=
    sum_nonneg (forall_mem_map.2 fun o _ => o.repair_nonneg)
  refine Iff.trans ?_ (basicValues_eq_iff (a := inputTotals inputs fun _ => 0) hrepair
    (inputs.map (·.repairCount.getD 0)).sum (uncountedRepairs inputs))
  constructor
  · intro h
    rcases eq_or_ne inputs [] with rfl | hne
    · rfl
    obtain ⟨o, ho⟩ := exists_mem_of_ne_nil _ hne
    have heq := ((h (minimumChecks_of_nonempty ho rfl)).1 _).1 hpreview
    exact ok.inj (heq.symm.trans hexecute)
  · intro h
    exact agrees_of_eq (hpreview.trans ((congrArg ok h).trans hexecute.symm))

end Intel4Ops.Reliability
