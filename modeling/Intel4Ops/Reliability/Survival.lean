import Intel4Ops.Reliability.Engine
import Mathlib.Algebra.BigOperators.Group.List.Lemmas
import Mathlib.Algebra.BigOperators.Ring.List
import Mathlib.Data.List.MinMax
import Mathlib.Data.List.Sort

/-!
# The survival estimate

`KaplanMeierMethod` of the reliability engine. The loop over the distinct durations keeps a count of
the observations that are still at risk and a running product; both are functions of the whole list
(`survivalPoints_eq`), and the product is the product-limit estimator.
-/

namespace Intel4Ops.Reliability

open Lib

/-- `_strict_boolean` -/
def strictBoolean (value : Value) (field : String) : Except Raised Bool :=
  match value with
  | .boolean b => .ok b
  | _ => .error (.reliabilityMethod (field ++ " must be boolean"))

/-- A duration, with whether it ended in the event or was censored. -/
abbrev Survival := ℚ × Bool

structure SurvivalPoint where
  time : ℚ
  atRisk : ℤ
  (events censored : ℕ)
  survivalProbability : ℚ
  deriving DecidableEq

structure SurvivalResult where
  medianSurvival : Option ℚ
  finalSurvival : ℚ
  survivalPoints : List SurvivalPoint
  deriving DecidableEq

/-- The entry of `prepared` that an observation makes. -/
def prepare (item : Observation) : Except Raised Survival := do
  let duration ← finite ((item "duration").getD .other) "duration"
  ensure (¬ duration < 0) (.reliabilityMethod "duration cannot be negative")
  let observed ← strictBoolean ((item "event_observed").getD .other) "event_observed"
  return (duration, observed)

def eventsAt (prepared : List Survival) (time : ℚ) : ℕ := prepared.countP fun o => o.1 = time ∧ o.2

def censoredAt (prepared : List Survival) (time : ℚ) : ℕ :=
  prepared.countP fun o => o.1 = time ∧ ¬ o.2

/-- `a / b` -/
def divide (a b : ℚ) : Except Raised ℚ := do
  ensure (b ≠ 0) .zeroDivision
  return a / b

/-- The survival after a time: the events take their share of those at risk. -/
def survive (events : ℕ) (atRisk : ℤ) (survival : ℚ) : Except Raised ℚ :=
  if events = 0 then .ok survival
  else (divide events atRisk).map fun share => survival * (1 - share)

/-- The loop over the times: the points, and the last survival. -/
def survivalPoints (prepared : List Survival) :
    List ℚ → ℤ → ℚ → Except Raised (List SurvivalPoint × ℚ)
  | [], _, survival => .ok ([], survival)
  | time :: times, atRisk, survival => do
    let events := eventsAt prepared time
    let censored := censoredAt prepared time
    let survival ← survive events atRisk survival
    let (points, final) ← survivalPoints prepared times (atRisk - (events + censored)) survival
    return (⟨time, atRisk, events, censored, survival⟩ :: points, final)

/-- `sorted({item[0] for item in prepared})` -/
def times (prepared : List Survival) : List ℚ := (prepared.map (·.1)).dedup.insertionSort (· ≤ ·)

/-- `KaplanMeierMethod.execute` -/
def kaplanMeier (observations : List Observation) : Except Raised SurvivalResult := do
  let prepared ← observations.mapM prepare
  ensure (prepared ≠ []) (.reliabilityMethod "At least one survival observation is required")
  let (points, survival) ← survivalPoints prepared (times prepared) prepared.length 1
  return {
    medianSurvival := (points.find? (·.survivalProbability ≤ 1 / 2)).map (·.time)
    finalSurvival := survival
    survivalPoints := points }

/-! ## The estimator -/

def atRiskAt (prepared : List Survival) (time : ℚ) : ℕ := prepared.countP (time ≤ ·.1)

/-- The share of those at risk that a time leaves. -/
def factor (prepared : List Survival) (time : ℚ) : ℚ :=
  1 - eventsAt prepared time / atRiskAt prepared time

/-- The product-limit estimator: the product over the times of events up to a time. -/
def productLimit (prepared : List Survival) (time : ℚ) : ℚ :=
  (((times prepared).filter fun s => eventsAt prepared s ≠ 0 ∧ s ≤ time).map (factor prepared)).prod

/-- The point of a time, by the whole list. -/
def pointAt (prepared : List Survival) (time : ℚ) : SurvivalPoint :=
  ⟨time, atRiskAt prepared time, eventsAt prepared time, censoredAt prepared time,
    productLimit prepared time⟩

variable {prepared prepared' : List Survival} {t : ℚ} {done rest : List ℚ} {o : Survival}

theorem mem_times : t ∈ times prepared ↔ ∃ o ∈ prepared, o.1 = t := by
  simp [times, List.mem_insertionSort]

theorem times_sorted (prepared : List Survival) : (times prepared).Pairwise (· < ·) := by
  have hnodup : (times prepared).Nodup :=
    (List.perm_insertionSort _ _).nodup_iff.2 (List.nodup_dedup _)
  exact (List.pairwise_insertionSort _ _).imp₂ (fun _ _ hle hne => lt_of_le_of_ne hle hne) hnodup

section

variable (h : prepared.Perm prepared')
include h

theorem times_perm : times prepared = times prepared' :=
  List.Perm.eq_of_pairwise' (List.pairwise_insertionSort _ _) (List.pairwise_insertionSort _ _)
    (((List.perm_insertionSort _ _).trans ((h.map _).dedup)).trans
      (List.perm_insertionSort _ _).symm)

theorem eventsAt_perm : eventsAt prepared = eventsAt prepared' := funext fun _ => h.countP_eq _

theorem factor_perm : factor prepared = factor prepared' := by
  funext s
  rw [factor, factor, eventsAt_perm h, atRiskAt, h.countP_eq, ← atRiskAt]

theorem pointAt_perm : pointAt prepared = pointAt prepared' := by
  funext s
  rw [pointAt, pointAt, productLimit, productLimit, eventsAt_perm h, factor_perm h, times_perm h,
    atRiskAt, h.countP_eq, ← atRiskAt, censoredAt, h.countP_eq, ← censoredAt]

end

/-! ## The loop -/

theorem countP_split {α : Type} {p q : α → Bool} (h : ∀ a, p a = true → q a = true) (l : List α) :
    l.countP q = l.countP p + l.countP fun a => q a && !p a := by
  induction l with
  | nil => rfl
  | cons a l ih =>
    have ha := h a
    simp only [List.countP_cons, ih]
    cases hp : p a <;> cases hq : q a <;> simp_all <;> omega

theorem events_add_censored (prepared : List Survival) (t : ℚ) :
    eventsAt prepared t + censoredAt prepared t = prepared.countP (·.1 = t) := by
  rw [eventsAt, censoredAt, countP_split (p := fun o : Survival => o.1 = t ∧ o.2)
    (q := fun o : Survival => o.1 = t) (by simp +contextual)]
  congr 2
  funext o
  cases o.2 <;> simp

/-- What the loop counts down: the observations whose durations are still to come. -/
theorem countP_rest (h : t ∉ rest) : (prepared.countP (·.1 ∈ t :: rest) : ℤ) -
    (eventsAt prepared t + censoredAt prepared t : ℕ) = prepared.countP (·.1 ∈ rest) := by
  rw [events_add_censored, countP_split (p := fun o : Survival => o.1 = t)
    (q := fun o : Survival => o.1 ∈ t :: rest) (by simp +contextual), Nat.cast_add,
    add_sub_cancel_left]
  congr 2
  funext o
  by_cases ho : o.1 = t
  · simp [ho, h]
  · simp [ho]

theorem atRisk_eq (h : times prepared = done ++ t :: rest) :
    prepared.countP (·.1 ∈ t :: rest) = atRiskAt prepared t := by
  have hsorted := times_sorted prepared
  rw [h, List.pairwise_append, List.pairwise_cons] at hsorted
  refine List.countP_congr fun o ho => ?_
  have hmem : o.1 ∈ done ++ t :: rest := h ▸ mem_times.2 ⟨o, ho, rfl⟩
  simp only [decide_eq_true_eq]
  constructor
  · rw [List.mem_cons]
    rintro (heq | hrest)
    · exact heq.ge
    · exact (hsorted.2.1.1 _ hrest).le
  · intro hle
    refine (List.mem_append.1 hmem).resolve_left fun hdone => ?_
    exact absurd (hsorted.2.2 _ hdone t (List.mem_cons_self ..)) hle.not_gt

theorem eventsAt_le (prepared : List Survival) (t : ℚ) :
    eventsAt prepared t ≤ atRiskAt prepared t :=
  List.countP_mono_left fun o _ h => by simp_all

theorem atRiskAt_pos (h : t ∈ times prepared) : 0 < atRiskAt prepared t :=
  let ⟨o, ho, heq⟩ := mem_times.1 h
  List.countP_pos_iff.2 ⟨o, ho, by simp [heq]⟩

theorem factor_of_no_events (h : eventsAt prepared t = 0) : factor prepared t = 1 := by
  simp [factor, h]

theorem productLimit_eq (prepared : List Survival) (t : ℚ) : productLimit prepared t =
    (((times prepared).filter (· ≤ t)).map (factor prepared)).prod := by
  rw [productLimit]
  induction times prepared with
  | nil => rfl
  | cons s l ih =>
    by_cases hs : s ≤ t <;> by_cases he : eventsAt prepared s = 0 <;>
      simp [hs, he, factor_of_no_events, ← ih]

theorem productLimit_at (h : times prepared = done ++ t :: rest) :
    productLimit prepared t = (done.map (factor prepared)).prod * factor prepared t := by
  have hsorted := times_sorted prepared
  rw [h, List.pairwise_append, List.pairwise_cons] at hsorted
  have hdone : done.filter (· ≤ t) = done := List.filter_eq_self.2 fun s hs =>
    decide_eq_true (hsorted.2.2 s hs t (List.mem_cons_self ..)).le
  have hrest : rest.filter (· ≤ t) = [] := List.filter_eq_nil_iff.2 fun s hs =>
    by simpa using hsorted.2.1.1 s hs
  rw [productLimit_eq, h, List.filter_append, hdone, List.filter_cons_of_pos (by simp), hrest]
  simp

theorem survive_eq (h : t ∈ times prepared) (survival : ℚ) :
    survive (eventsAt prepared t) (atRiskAt prepared t) survival =
      .ok (survival * factor prepared t) := by
  unfold survive
  split
  · rename_i hevents
    rw [factor_of_no_events hevents, mul_one]
  · rw [divide, ensure_of (by exact_mod_cast (atRiskAt_pos h).ne')]
    simp [factor, Except.map]

theorem survivalPoints_eq (h : times prepared = done ++ rest) :
    survivalPoints prepared rest (prepared.countP (·.1 ∈ rest)) (done.map (factor prepared)).prod =
      .ok (rest.map (pointAt prepared), ((times prepared).map (factor prepared)).prod) := by
  induction rest generalizing done with
  | nil => rw [h, List.append_nil]; rfl
  | cons t rest ih =>
    have hmem : t ∈ times prepared := h ▸ List.mem_append_right _ (List.mem_cons_self ..)
    have hfresh : t ∉ rest := by
      have hsorted := times_sorted prepared
      rw [h, List.pairwise_append, List.pairwise_cons] at hsorted
      exact fun hrest => lt_irrefl _ (hsorted.2.1.1 t hrest)
    have hsplit : times prepared = done ++ [t] ++ rest := by rw [h, List.append_assoc]; rfl
    have hnext := ih hsplit
    rw [List.map_append, List.prod_append, List.map_singleton, List.prod_singleton,
      ← countP_rest hfresh, Nat.cast_add] at hnext
    rw [survivalPoints]
    dsimp only
    rw [atRisk_eq h, survive_eq hmem, ok_bind, ← atRisk_eq h, hnext, ok_bind, atRisk_eq h,
      ← productLimit_at h]
    rfl

/-! ## The whole estimate -/

theorem factor_nonneg (prepared : List Survival) (t : ℚ) : 0 ≤ factor prepared t :=
  sub_nonneg.2 (div_le_one_of_le₀ (by exact_mod_cast eventsAt_le prepared t) (Nat.cast_nonneg _))

theorem factor_le_one (prepared : List Survival) (t : ℚ) : factor prepared t ≤ 1 :=
  sub_le_self _ (div_nonneg (Nat.cast_nonneg _) (Nat.cast_nonneg _))

theorem prod_factor_bounds (prepared : List Survival) (l : List ℚ) :
    0 ≤ (l.map (factor prepared)).prod ∧ (l.map (factor prepared)).prod ≤ 1 := by
  induction l with
  | nil => simp
  | cons s l ih =>
    rw [List.map_cons, List.prod_cons]
    exact ⟨mul_nonneg (factor_nonneg prepared s) ih.1,
      mul_le_one₀ (factor_le_one prepared s) ih.1 ih.2⟩

theorem productLimit_antitone {s : ℚ} (h : t ≤ s) :
    productLimit prepared s ≤ productLimit prepared t := by
  rw [productLimit_eq, productLimit_eq]
  induction times prepared with
  | nil => rfl
  | cons u l ih =>
    have hl := (prod_factor_bounds prepared (l.filter (· ≤ s))).1
    by_cases hu : u ≤ t
    · simpa [hu, hu.trans h] using mul_le_mul_of_nonneg_left ih (factor_nonneg prepared u)
    · by_cases hus : u ≤ s
      · simpa [hu, hus] using (mul_le_of_le_one_left hl (factor_le_one prepared u)).trans ih
      · simpa [hu, hus] using ih

/-- Nobody is left after a time just where all who were at risk had the event then. -/
theorem factor_eq_zero (h : t ∈ times prepared) : factor prepared t = 0 ↔
    ∀ o ∈ prepared, t ≤ o.1 → o.1 = t ∧ o.2 = true := by
  have hpos : (atRiskAt prepared t : ℚ) ≠ 0 := by exact_mod_cast (atRiskAt_pos h).ne'
  have hsplit := countP_split (p := fun o : Survival => o.1 = t ∧ o.2)
    (q := fun o : Survival => t ≤ o.1) (fun o ho => by simp_all) prepared
  rw [factor, sub_eq_zero, eq_div_iff hpos, one_mul, Nat.cast_inj]
  change atRiskAt prepared t = eventsAt prepared t + _ at hsplit
  rw [hsplit, Nat.add_eq_left, List.countP_eq_zero]
  simp [Decidable.or_iff_not_imp_left]

theorem prod_factor_eq_zero : ((times prepared).map (factor prepared)).prod = 0 ↔
    ∃ t ∈ times prepared, ∀ o ∈ prepared, t ≤ o.1 → o.1 = t ∧ o.2 = true := by
  rw [List.prod_eq_zero_iff, List.mem_map]
  exact exists_congr fun t => and_congr_right fun h => factor_eq_zero h

/-- The observation has a longest duration. -/
def Longest (prepared : List Survival) (o : Survival) : Prop := ∀ o' ∈ prepared, o'.1 ≤ o.1

theorem exists_longest (h : prepared ≠ []) : ∃ o ∈ prepared, Longest prepared o := by
  cases hmax : prepared.argmax Prod.fst with
  | none => exact absurd (List.argmax_eq_none.1 hmax) h
  | some o => exact ⟨o, List.argmax_mem hmax, fun o' ho' => List.le_of_mem_argmax ho' hmax⟩

theorem final_eq_zero (hne : prepared ≠ []) : ((times prepared).map (factor prepared)).prod = 0 ↔
    ∀ o ∈ prepared, Longest prepared o → o.2 = true := by
  rw [prod_factor_eq_zero]
  constructor
  · rintro ⟨t, ht, hall⟩ o ho hlongest
    obtain ⟨o', ho', rfl⟩ := mem_times.1 ht
    exact (hall o ho (hlongest o' ho')).2
  · intro hall
    obtain ⟨o, ho, hlongest⟩ := exists_longest hne
    refine ⟨o.1, mem_times.2 ⟨o, ho, rfl⟩, fun o' ho' hle => ?_⟩
    have heq := (hlongest o' ho').antisymm hle
    exact ⟨heq, hall o' ho' fun o'' ho'' => heq ▸ hlongest o'' ho''⟩

/-- What an estimate says about the observations it is made of. -/
structure ProductLimit (prepared : List Survival) (result : SurvivalResult) : Prop where
  ascending : (result.survivalPoints.map (·.time)).Pairwise (· < ·)
  times : ∀ t, t ∈ result.survivalPoints.map (·.time) ↔ ∃ o ∈ prepared, o.1 = t
  point : ∀ p ∈ result.survivalPoints, p = pointAt prepared p.time
  total : (result.survivalPoints.map fun p => p.events + p.censored).sum = prepared.length
  bounds : ∀ p ∈ result.survivalPoints, 0 ≤ p.survivalProbability ∧ p.survivalProbability ≤ 1
  nonincreasing :
    result.survivalPoints.Pairwise fun p q => q.survivalProbability ≤ p.survivalProbability
  final : result.finalSurvival = 0 ↔ ∀ o ∈ prepared, Longest prepared o → o.2 = true
  median : ∀ t, result.medianSurvival = some t ↔
    IsLeast {s | ∃ p ∈ result.survivalPoints, p.time = s ∧ p.survivalProbability ≤ 1 / 2} t

/-- The estimate of a list, in closed form. -/
def estimate (prepared : List Survival) : SurvivalResult :=
  let points := (Reliability.times prepared).map (pointAt prepared)
  { medianSurvival := (points.find? (·.survivalProbability ≤ 1 / 2)).map (·.time)
    finalSurvival := ((Reliability.times prepared).map (factor prepared)).prod
    survivalPoints := points }

theorem survivalPoints_start (prepared : List Survival) :
    survivalPoints prepared (times prepared) prepared.length 1 =
      .ok ((times prepared).map (pointAt prepared),
        ((times prepared).map (factor prepared)).prod) := by
  have hall : prepared.countP (·.1 ∈ times prepared) = prepared.length :=
    List.countP_eq_length.2 fun o ho => decide_eq_true (mem_times.2 ⟨o, ho, rfl⟩)
  rw [← hall]
  exact @survivalPoints_eq prepared [] _ rfl

theorem sum_counts (h : rest.Nodup) : (rest.map fun t => eventsAt prepared t +
    censoredAt prepared t).sum = prepared.countP (·.1 ∈ rest) := by
  induction rest with
  | nil => simp
  | cons t rest ih =>
    obtain ⟨hfresh, hrest⟩ := List.nodup_cons.1 h
    have hstep := @countP_rest prepared _ _ hfresh
    rw [List.map_cons, List.sum_cons, ih hrest]
    omega

theorem median_isLeast (hsorted : rest.Pairwise (· < ·)) :
    ((rest.map (pointAt prepared)).find? (·.survivalProbability ≤ 1 / 2)).map (·.time) = some t ↔
      IsLeast {s | ∃ p ∈ rest.map (pointAt prepared), p.time = s ∧ p.survivalProbability ≤ 1 / 2}
        t := by
  rw [List.find?_map, Option.map_map, show (SurvivalPoint.time ∘ pointAt prepared) = id from rfl,
    Option.map_id_fun, id_eq, List.find?_eq_some_iff_append]
  constructor
  · rintro ⟨hlow, before, after, rfl, hbefore⟩
    rw [List.pairwise_append, List.pairwise_cons] at hsorted
    refine ⟨⟨_, List.mem_map_of_mem (by simp), rfl, by simpa using hlow⟩, ?_⟩
    rintro _ ⟨p, hp, rfl, hplow⟩
    obtain ⟨s, hs, rfl⟩ := List.mem_map.1 hp
    rcases List.mem_append.1 hs with hs | hs
    · exact absurd hplow (by simpa using hbefore s hs)
    · rcases List.mem_cons.1 hs with rfl | hs
      · exact le_rfl
      · exact (hsorted.2.1.1 s hs).le
  · rintro ⟨⟨p, hp, htime, hlow⟩, hleast⟩
    obtain ⟨s, hs, rfl⟩ := List.mem_map.1 hp
    obtain rfl : s = t := htime
    obtain ⟨before, after, rfl⟩ := List.append_of_mem hs
    rw [List.pairwise_append] at hsorted
    refine ⟨by simpa using hlow, before, after, rfl, fun u hu => ?_⟩
    have hlt : u < s := hsorted.2.2 u hu s (List.mem_cons_self ..)
    have hhigh : ¬ (pointAt prepared u).survivalProbability ≤ 1 / 2 := fun hulow =>
      absurd (hleast ⟨_, List.mem_map_of_mem (List.mem_append_left _ hu), rfl, hulow⟩) hlt.not_ge
    simpa using hhigh

theorem estimate_productLimit (hne : prepared ≠ []) :
    ProductLimit prepared (estimate prepared) := by
  have hsorted := times_sorted prepared
  have htimes : (estimate prepared).survivalPoints.map (·.time) = Reliability.times prepared := by
    rw [estimate, List.map_map]
    exact List.map_id _
  refine ⟨htimes ▸ hsorted, fun t => htimes ▸ mem_times, ?_, ?_, ?_, ?_, final_eq_zero hne,
    fun t => median_isLeast hsorted⟩
  · exact List.forall_mem_map.2 fun t _ => rfl
  · rw [estimate, List.map_map]
    refine (sum_counts (hsorted.imp ne_of_lt)).trans (List.countP_eq_length.2 fun o ho => ?_)
    exact decide_eq_true (mem_times.2 ⟨o, ho, rfl⟩)
  · exact List.forall_mem_map.2 fun t _ => prod_factor_bounds prepared _
  · exact List.pairwise_map.2 (hsorted.imp fun h => productLimit_antitone h.le)

/-- The observation says so much and no less. -/
def Says (item : Observation) (o : Survival) : Prop :=
  item "duration" = some (.number o.1) ∧ item "event_observed" = some (.boolean o.2)

theorem prepare_of_says {item : Observation} (h : Says item o) (hduration : 0 ≤ o.1) :
    prepare item = .ok o := by
  rw [prepare, h.1, h.2]
  simp [finite, strictBoolean, ensure, hduration]

theorem mapM_prepare {observations : List Observation}
    (h : List.Forall₂ Says observations prepared) (hdurations : ∀ o ∈ prepared, 0 ≤ o.1) :
    observations.mapM prepare = .ok prepared := by
  induction h with
  | nil => rfl
  | cons hsays _ ih =>
    obtain ⟨ho, hrest⟩ := List.forall_mem_cons.1 hdurations
    rw [List.mapM_cons, prepare_of_says hsays ho, ok_bind, ih hrest, ok_bind]
    rfl

theorem kaplanMeier_of_prepared {observations : List Observation}
    (h : observations.mapM prepare = .ok prepared) (hne : prepared ≠ []) :
    kaplanMeier observations = .ok (estimate prepared) := by
  rw [kaplanMeier, h, ok_bind, ensure_of hne, ok_bind, survivalPoints_start]
  rfl

theorem estimate_perm (h : prepared.Perm prepared') : estimate prepared = estimate prepared' := by
  rw [estimate, estimate, times_perm h, pointAt_perm h, factor_perm h]

/-- The method estimates by the product limit, in whatever order the observations come. -/
theorem kaplanMeier_productLimit {observations : List Observation}
    (h : List.Forall₂ Says observations prepared) (hdurations : ∀ o ∈ prepared, 0 ≤ o.1)
    (hne : prepared ≠ []) : ∃ result, kaplanMeier observations = .ok result ∧
      ProductLimit prepared result ∧
        ∀ observations', observations.Perm observations' → kaplanMeier observations' = .ok result := by
  have hprepared := mapM_prepare h hdurations
  refine ⟨_, kaplanMeier_of_prepared hprepared hne, estimate_productLimit hne,
    fun observations' hperm => ?_⟩
  obtain ⟨prepared', hprepared', hperm'⟩ := exists_mapM_perm hperm hprepared
  rw [kaplanMeier_of_prepared hprepared' fun hnil => hne (hnil ▸ hperm').eq_nil,
    estimate_perm hperm']

/-- An observation of a duration that ended in the event or not. -/
def observed (o : Survival) : Observation := fun field =>
  if field = "duration" then some (.number o.1)
  else if field = "event_observed" then some (.boolean o.2) else none

theorem kaplanMeier_productLimit_observed : ∃ result,
    kaplanMeier [observed (2, true), observed (1, false)] = .ok result ∧
      ProductLimit [(2, true), (1, false)] result ∧
        ∀ observations', [observed (2, true), observed (1, false)].Perm observations' →
          kaplanMeier observations' = .ok result :=
  kaplanMeier_productLimit (.cons ⟨rfl, rfl⟩ (.cons ⟨rfl, rfl⟩ .nil)) (by decide) (by decide)

end Intel4Ops.Reliability
