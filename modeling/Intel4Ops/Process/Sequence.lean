import Intel4Ops.Lib.Ident
import Intel4Ops.Lib.Totals
import Mathlib.Algebra.BigOperators.Group.List.Lemmas
import Mathlib.Algebra.Order.Field.Rat
import Mathlib.Data.String.Basic

/-!
# Pairwise precedence tallies

For every two distinct activity types of one anchor entity it is counted how often the one was seen
before the other. The tallies of all anchor entities of a case are then added up, and the strength
of the temporal evidence of a pair is read off the sum.
-/

namespace Intel4Ops.Process

open Lib List

/-! ## Data -/

/-- How two activity types were observed together. The types are the key a tally stands under. -/
@[ext] structure PairTally where
  aBeforeBCount : ℕ := 0
  bBeforeACount : ℕ := 0
  sameTimeCount : ℕ := 0
  unknownOrderCount : ℕ := 0
  sameRowRepeatCount : ℕ := 0
  crossDatasetSupportCount : ℕ := 0
  observationCount : ℕ := 0

/-- One activity of one anchor entity. The instants of an entity all have a zone or all have none,
as a comparison of the two kinds raises. -/
structure TimedActivity where
  index : ℕ
  activityType : String
  occurredAt : Option Instant
  analysisCaseDatasetId : String
  isExplicitEvent : Bool

inductive TemporalEvidenceTier
  | strong | moderate | weak | none
  deriving DecidableEq

namespace PairTally

def supportCount (tally : PairTally) : ℕ :=
  tally.aBeforeBCount + tally.bBeforeACount + tally.sameTimeCount

/-! ## Adding tallies -/

instance : Zero PairTally := ⟨{}⟩

instance : Add PairTally where
  add s t :=
    { aBeforeBCount := s.aBeforeBCount + t.aBeforeBCount
      bBeforeACount := s.bBeforeACount + t.bBeforeACount
      sameTimeCount := s.sameTimeCount + t.sameTimeCount
      unknownOrderCount := s.unknownOrderCount + t.unknownOrderCount
      sameRowRepeatCount := s.sameRowRepeatCount + t.sameRowRepeatCount
      crossDatasetSupportCount := s.crossDatasetSupportCount + t.crossDatasetSupportCount
      observationCount := s.observationCount + t.observationCount }

theorem add_assoc_tally (s t u : PairTally) : s + t + u = s + (t + u) := by
  apply PairTally.ext <;> exact Nat.add_assoc ..

theorem add_comm_tally (s t : PairTally) : s + t = t + s := by
  apply PairTally.ext <;> exact Nat.add_comm ..

theorem zero_add_tally (t : PairTally) : 0 + t = t := by
  apply PairTally.ext <;> exact Nat.zero_add _

theorem add_zero_tally (t : PairTally) : t + 0 = t := by
  apply PairTally.ext <;> exact Nat.add_zero _

theorem nsmulRec_zero (t : PairTally) : nsmulRec 0 t = 0 := rfl

theorem nsmulRec_succ (n : ℕ) (t : PairTally) : nsmulRec (n + 1) t = nsmulRec n t + t := rfl

instance : AddCommMonoid PairTally where
  add_assoc := add_assoc_tally
  add_comm := add_comm_tally
  zero_add := zero_add_tally
  add_zero := add_zero_tally
  nsmul := nsmulRec
  nsmul_zero := nsmulRec_zero
  nsmul_succ := nsmulRec_succ

theorem sum_apply {f : PairTally → ℕ} (hzero : f 0 = 0) (hadd : ∀ s t, f (s + t) = f s + f t)
    (ts : List PairTally) : f ts.sum = (ts.map f).sum := by
  induction ts with
  | nil => exact hzero
  | cons t ts ih => rw [sum_cons, hadd, ih, map_cons, sum_cons]

/-- Every observation fell into one of the four outcomes. -/
def Partitioned (tally : PairTally) : Prop :=
  tally.observationCount = tally.aBeforeBCount + tally.bBeforeACount + tally.sameTimeCount +
    tally.unknownOrderCount

theorem Partitioned.zero : Partitioned 0 := rfl

theorem Partitioned.add {s t : PairTally} (hs : s.Partitioned) (ht : t.Partitioned) :
    (s + t).Partitioned := by
  show s.observationCount + t.observationCount = s.aBeforeBCount + t.aBeforeBCount +
    (s.bBeforeACount + t.bBeforeACount) + (s.sameTimeCount + t.sameTimeCount) +
      (s.unknownOrderCount + t.unknownOrderCount)
  rw [Partitioned] at hs ht
  omega

theorem Partitioned.sum {ts : List PairTally} (h : ∀ t ∈ ts, t.Partitioned) :
    ts.sum.Partitioned := by
  induction ts with
  | nil => exact Partitioned.zero
  | cons t ts ih =>
    rw [sum_cons]
    exact (h t mem_cons_self).add (ih fun t ht => h t (mem_cons_of_mem _ ht))

end PairTally

/-- The tallies of the pairs of activity types, the smaller type first. -/
abbrev PairTallies := Totals (String × String) PairTally

/-! ## Tallying one entity -/

/-- The two types of a pair of activities in alphabetical order. -/
def pairKey (left right : TimedActivity) : String × String :=
  if left.activityType ≤ right.activityType then (left.activityType, right.activityType)
  else (right.activityType, left.activityType)

/-- Whether the two instants come from the same dataset. -/
def datasetCounts (left right : TimedActivity) : PairTally :=
  if left.analysisCaseDatasetId = right.analysisCaseDatasetId then { sameRowRepeatCount := 1 }
  else { crossDatasetSupportCount := 1 }

/-- Which of the two instants comes first. -/
def orderCounts (aTime bTime : Instant) : PairTally :=
  if aTime = bTime then { sameTimeCount := 1 }
  else if aTime < bTime then { aBeforeBCount := 1 }
  else { bBeforeACount := 1 }

/-- What one pair of activities adds to the tally of its types. -/
def observation (left right : TimedActivity) : PairTally :=
  { observationCount := 1 } +
    match left.occurredAt, right.occurredAt with
    | some leftTime, some rightTime =>
      datasetCounts left right +
        if left.activityType = (pairKey left right).1 then orderCounts leftTime rightTime
        else orderCounts rightTime leftTime
    | _, _ => { unknownOrderCount := 1 }

/-- One round of the double loop. Two activities of one type are passed over. -/
def tallyPair (tallies : PairTallies) (left right : TimedActivity) : PairTallies :=
  if left.activityType = right.activityType then tallies
  else tallies.add (pairKey left right) (observation left right)

/-- The tallies of the activities of one anchor entity. -/
def tallyPairwisePrecedence (activities : List TimedActivity) : PairTallies :=
  (pairs activities).foldl (fun tallies p => tallyPair tallies p.1 p.2) Totals.empty

/-- The tallies of all anchor entities, added up. -/
def mergePairTallies (perEntityTallies : List PairTallies) : PairTallies :=
  perEntityTallies.foldl
    (fun aggregate tallies => tallies.entries.foldl (fun agg e => agg.add e.1 e.2) aggregate)
    Totals.empty

/-! ## Tiers -/

def classifyTemporalTier (sameRowRepeatCount crossDatasetSupportCount : ℕ)
    (crossDatasetConsistencyRatio : ℚ) (hasStructuralEvidenceOnly : Bool) : TemporalEvidenceTier :=
  if 3 ≤ sameRowRepeatCount then .strong
  else if 0 < crossDatasetSupportCount ∧ 3 / 4 ≤ crossDatasetConsistencyRatio then .moderate
  else if hasStructuralEvidenceOnly then .weak
  else .none

def tallyTemporalEvidenceTier (tally : PairTally) : TemporalEvidenceTier :=
  let consistencyRatio : ℚ :=
    if 0 < tally.supportCount then
      (max tally.aBeforeBCount tally.bBeforeACount : ℕ) / tally.supportCount
    else 0
  classifyTemporalTier tally.sameRowRepeatCount tally.crossDatasetSupportCount consistencyRatio
    (tally.supportCount == 0)

theorem classifyTemporalTier_eq_strong {repeats support : ℕ} {ratio : ℚ} {structural : Bool} :
    classifyTemporalTier repeats support ratio structural = .strong ↔ 3 ≤ repeats := by
  rw [classifyTemporalTier]
  by_cases h : 3 ≤ repeats
  · exact iff_of_true (if_pos h) h
  · rw [if_neg h]
    refine iff_of_false ?_ h
    split
    · simp
    · cases structural <;> simp

theorem tier_eq_strong {tally : PairTally} :
    tallyTemporalEvidenceTier tally = .strong ↔ 3 ≤ tally.sameRowRepeatCount :=
  classifyTemporalTier_eq_strong

/-! ## Tallies as dictionaries of totals -/

/-- What a pair of activities enters into the dictionary of tallies. -/
def pairEntry (left right : TimedActivity) : Option ((String × String) × PairTally) :=
  if left.activityType = right.activityType then none
  else some (pairKey left right, observation left right)

theorem tallyPairwisePrecedence_eq (activities : List TimedActivity) :
    tallyPairwisePrecedence activities =
      Totals.collect ((pairs activities).filterMap fun p => pairEntry p.1 p.2) := by
  rw [tallyPairwisePrecedence, Totals.collect, foldl_filterMap]
  congr 1
  funext tallies p
  rw [tallyPair, pairEntry]
  by_cases h : p.1.activityType = p.2.activityType
  · rw [if_pos h, if_pos h]
  · rw [if_neg h, if_neg h]

theorem mergePairTallies_eq (perEntityTallies : List PairTallies) :
    mergePairTallies perEntityTallies = Totals.merge perEntityTallies := by
  rw [mergePairTallies, Totals.merge, Totals.collect, foldl_flatMap]

theorem pairKey_comm (left right : TimedActivity) : pairKey left right = pairKey right left := by
  rw [pairKey, pairKey]
  rcases lt_trichotomy left.activityType right.activityType with h | h | h
  · rw [if_pos h.le, if_neg h.not_ge]
  · rw [h]
  · rw [if_neg h.not_ge, if_pos h.le]

theorem observation_comm {left right : TimedActivity} (h : left.activityType ≠ right.activityType) :
    observation left right = observation right left := by
  have hdatasets : datasetCounts left right = datasetCounts right left := by
    rw [datasetCounts, datasetCounts]
    simp only [eq_comm]
  have hkey : left.activityType = (pairKey left right).1 ↔
      ¬ right.activityType = (pairKey right left).1 := by
    rw [pairKey_comm right left, pairKey]
    split
    · simp [h.symm]
    · simp [h]
  rw [observation, observation, hdatasets]
  congr 1
  cases left.occurredAt with
  | none => cases right.occurredAt <;> rfl
  | some leftTime =>
    cases right.occurredAt with
    | none => rfl
    | some rightTime =>
      dsimp only
      congr 1
      by_cases hleft : left.activityType = (pairKey left right).1
      · rw [if_pos hleft, if_neg (hkey.1 hleft)]
      · rw [if_neg hleft, if_pos (not_not.1 fun hright => hleft (hkey.2 hright))]

theorem pairEntry_comm (left right : TimedActivity) :
    pairEntry left right = pairEntry right left := by
  rw [pairEntry, pairEntry]
  by_cases h : left.activityType = right.activityType
  · rw [if_pos h, if_pos h.symm]
  · rw [if_neg h, if_neg (Ne.symm h), pairKey_comm, observation_comm h]

theorem get?_tally_perm {activities activities' : List TimedActivity}
    (h : activities.Perm activities') (key : String × String) :
    (tallyPairwisePrecedence activities).get? key =
      (tallyPairwisePrecedence activities').get? key := by
  rw [tallyPairwisePrecedence_eq, tallyPairwisePrecedence_eq]
  exact Totals.get?_collect_perm (filterMap_pairs_perm pairEntry_comm h) key

variable {typeA typeB : String} {rel : Instant → Instant → Bool}

theorem pairKey_eq {left right : TimedActivity} (hlt : typeA < typeB) :
    left.activityType ≠ right.activityType ∧ pairKey left right = (typeA, typeB) ↔
      left.activityType = typeA ∧ right.activityType = typeB ∨
        left.activityType = typeB ∧ right.activityType = typeA := by
  rw [pairKey]
  constructor
  · rintro ⟨-, hkey⟩
    split at hkey
    · exact .inl (Prod.mk.inj hkey)
    · exact .inr (Prod.mk.inj hkey).symm
  · rintro (⟨rfl, rfl⟩ | ⟨rfl, rfl⟩)
    · exact ⟨hlt.ne, if_pos hlt.le⟩
    · exact ⟨hlt.ne', if_neg hlt.not_ge⟩

theorem lt_of_get?_tally {activities : List TimedActivity} {key : String × String}
    (h : ((tallyPairwisePrecedence activities).get? key).isSome = true) : key.1 < key.2 := by
  rw [tallyPairwisePrecedence_eq, Totals.get?_isSome_collect, mem_map] at h
  obtain ⟨e, he, rfl⟩ := h
  obtain ⟨p, -, hp⟩ := mem_filterMap.1 he
  rw [pairEntry] at hp
  split at hp
  case isTrue => exact absurd hp (Option.some_ne_none e).symm
  case isFalse hne =>
    obtain rfl := Option.some.inj hp
    show (pairKey p.1 p.2).1 < (pairKey p.1 p.2).2
    rw [pairKey]
    split
    case isTrue hle => exact lt_of_le_of_ne hle hne
    case isFalse hle => exact lt_of_not_ge hle

/-! ## Counting -/

/-- A pair is either of unknown order or compared, and then it is counted for its datasets. -/
theorem observation_cases (left right : TimedActivity) :
    (left.occurredAt.isSome && right.occurredAt.isSome) = false ∧
        observation left right = { observationCount := 1 } + { unknownOrderCount := 1 } ∨
      (left.occurredAt.isSome && right.occurredAt.isSome) = true ∧
        ∃ aTime bTime, observation left right =
          { observationCount := 1 } + (datasetCounts left right + orderCounts aTime bTime) := by
  rw [observation]
  cases left.occurredAt with
  | none => exact .inl ⟨rfl, rfl⟩
  | some leftTime =>
    cases right.occurredAt with
    | none => exact .inl ⟨rfl, rfl⟩
    | some rightTime =>
      refine .inr ⟨rfl, ?_⟩
      dsimp only
      split
      · exact ⟨leftTime, rightTime, rfl⟩
      · exact ⟨rightTime, leftTime, rfl⟩

theorem observationCount_observation (left right : TimedActivity) :
    (observation left right).observationCount = 1 := by
  obtain ⟨-, h⟩ | ⟨-, aTime, bTime, h⟩ := observation_cases left right
  · rw [h]
    rfl
  · rw [h]
    show 1 + ((datasetCounts left right).observationCount +
      (orderCounts aTime bTime).observationCount) = 1
    rw [datasetCounts, orderCounts]
    split_ifs <;> rfl

theorem partitioned_observation (left right : TimedActivity) :
    (observation left right).Partitioned := by
  obtain ⟨-, h⟩ | ⟨-, aTime, bTime, h⟩ := observation_cases left right
  · rw [h]
    exact rfl
  · rw [h, datasetCounts, orderCounts]
    split_ifs <;> exact rfl

/-- A count of a tally is the number of the pairs of activities that raise it. -/
theorem count_tally {f : PairTally → ℕ} (hzero : f 0 = 0) (hadd : ∀ s t, f (s + t) = f s + f t)
    {g : TimedActivity → TimedActivity → Bool} (hg : ∀ l r, g l r = g r l)
    (hf : ∀ l r, l.activityType ≠ r.activityType →
      f (observation l r) = if g l r = true then 1 else 0) (hlt : typeA < typeB)
    (activities : List TimedActivity) :
    f ((tallyPairwisePrecedence activities).get (typeA, typeB)) =
      ((activities.filter (·.activityType = typeA)).map fun a =>
        activities.countP fun b => decide (b.activityType = typeB) && g a b).sum := by
  have hpq : ∀ a : TimedActivity, ¬ (decide (a.activityType = typeA) = true ∧
      decide (a.activityType = typeB) = true) := by
    intro a
    simp only [decide_eq_true_eq]
    rintro ⟨rfl, h⟩
    exact hlt.ne h
  rw [← countP_pairs hpq hg, tallyPairwisePrecedence_eq, Totals.get_collect,
    PairTally.sum_apply hzero hadd]
  induction pairs activities with
  | nil => rfl
  | cons p ps ih =>
    have hkey : p.1.activityType ≠ p.2.activityType ∧ pairKey p.1 p.2 = (typeA, typeB) ↔
        (decide (p.1.activityType = typeA) && decide (p.2.activityType = typeB) ||
          decide (p.1.activityType = typeB) && decide (p.2.activityType = typeA)) = true := by
      rw [pairKey_eq hlt, Bool.or_eq_true, Bool.and_eq_true, Bool.and_eq_true]
      simp only [decide_eq_true_eq]
    rw [filterMap_cons, countP_cons, ← ih, pairEntry]
    by_cases heq : p.1.activityType = p.2.activityType
    · rw [if_pos heq, if_neg fun h => (hkey.2 (Bool.and_eq_true_iff.1 h).1).1 heq, Nat.add_zero]
    · rw [if_neg heq, group, filter_cons]
      -- the pair is counted under its own key, and there if it raises the count
      by_cases hpair : pairKey p.1 p.2 = (typeA, typeB)
      · rw [if_pos (decide_eq_true hpair), map_cons, map_cons, sum_cons, hf _ _ heq,
          hkey.1 ⟨heq, hpair⟩, Bool.true_and, Nat.add_comm]
        rfl
      · rw [if_neg (by simpa using hpair),
          if_neg fun h => hpair (hkey.2 (Bool.and_eq_true_iff.1 h).1).2, Nat.add_zero]
        rfl

theorem observationCount_tally (hlt : typeA < typeB) (activities : List TimedActivity) :
    ((tallyPairwisePrecedence activities).get (typeA, typeB)).observationCount =
      activities.countP (·.activityType = typeA) * activities.countP (·.activityType = typeB) := by
  have h := count_tally (f := PairTally.observationCount) (g := fun _ _ => true) rfl
    (fun _ _ => rfl) (fun _ _ => rfl) (fun l r _ => observationCount_observation l r) hlt activities
  simp only [Bool.and_true] at h
  rw [h, map_const', sum_replicate_nat, ← countP_eq_length_filter]

theorem partitioned_tally (activities : List TimedActivity) (key : String × String) :
    ((tallyPairwisePrecedence activities).get key).Partitioned := by
  rw [tallyPairwisePrecedence_eq, Totals.get_collect]
  apply PairTally.Partitioned.sum
  intro t ht
  obtain ⟨e, he, rfl⟩ := mem_map.1 ht
  obtain ⟨p, -, hp⟩ := mem_filterMap.1 (mem_group.1 he).1
  rw [pairEntry] at hp
  split at hp
  case isTrue => exact absurd hp (Option.some_ne_none e).symm
  case isFalse =>
    obtain rfl := Option.some.inj hp
    exact partitioned_observation p.1 p.2

def sameDataset (a b : TimedActivity) : Bool :=
  a.occurredAt.isSome && b.occurredAt.isSome &&
    decide (a.analysisCaseDatasetId = b.analysisCaseDatasetId)

/-- How often an entity shows the two types with instants from one dataset. -/
def sameDatasetObservations (typeA typeB : String) (activities : List TimedActivity) : ℕ :=
  ((activities.filter (·.activityType = typeA)).map fun a =>
    activities.countP fun b => decide (b.activityType = typeB) && sameDataset a b).sum

theorem sameDataset_comm (a b : TimedActivity) : sameDataset a b = sameDataset b a := by
  rw [sameDataset, sameDataset, Bool.and_comm a.occurredAt.isSome]
  simp only [eq_comm]

theorem sameRowRepeatCount_observation (l r : TimedActivity) :
    (observation l r).sameRowRepeatCount = if sameDataset l r = true then 1 else 0 := by
  obtain ⟨htimes, h⟩ | ⟨htimes, aTime, bTime, h⟩ := observation_cases l r
  · rw [h, sameDataset, htimes]
    rfl
  · rw [h, sameDataset, htimes, Bool.true_and]
    simp only [decide_eq_true_eq]
    show 0 + ((datasetCounts l r).sameRowRepeatCount +
      (orderCounts aTime bTime).sameRowRepeatCount) = _
    rw [datasetCounts, orderCounts]
    split_ifs <;> rfl

theorem sameRowRepeatCount_tally (hlt : typeA < typeB) (activities : List TimedActivity) :
    ((tallyPairwisePrecedence activities).get (typeA, typeB)).sameRowRepeatCount =
      sameDatasetObservations typeA typeB activities :=
  count_tally rfl (fun _ _ => rfl) sameDataset_comm
    (fun l r _ => sameRowRepeatCount_observation l r) hlt activities

/-! ## Comparing instants -/

/-- Whether two activities have related instants. -/
def compared (rel : Instant → Instant → Bool) (a b : TimedActivity) : Bool :=
  match a.occurredAt, b.occurredAt with
  | some s, some t => rel s t
  | _, _ => false

/-- How often an entity shows the two types at related instants. -/
def comparisons (rel : Instant → Instant → Bool) (typeA typeB : String)
    (activities : List TimedActivity) : ℕ :=
  ((activities.filter (·.activityType = typeA)).map fun a =>
    activities.countP fun b => decide (b.activityType = typeB) && compared rel a b).sum

/-- Two activities compared from the alphabetically smaller type to the other. -/
def comparedByType (rel : Instant → Instant → Bool) (l r : TimedActivity) : Bool :=
  if l.activityType < r.activityType then compared rel l r
  else if r.activityType < l.activityType then compared rel r l
  else false

theorem comparedByType_comm (rel : Instant → Instant → Bool) (l r : TimedActivity) :
    comparedByType rel l r = comparedByType rel r l := by
  rw [comparedByType, comparedByType]
  rcases lt_trichotomy l.activityType r.activityType with h | h | h
  · rw [if_pos h, if_neg h.not_gt, if_pos h]
  · rw [h, if_neg (lt_irrefl _), if_neg (lt_irrefl _), if_neg (lt_irrefl _),
      if_neg (lt_irrefl _)]
  · rw [if_neg h.not_gt, if_pos h, if_pos h]

theorem timed_of_compared {a b : TimedActivity} (h : compared rel a b = true) :
    (a.occurredAt.isSome && b.occurredAt.isSome) = true := by
  rw [compared] at h
  split at h
  case h_1 ha hb =>
    rw [ha, hb]
    rfl
  case h_2 => exact absurd h Bool.false_ne_true

theorem timed_of_comparedByType {l r : TimedActivity} (h : comparedByType rel l r = true) :
    (l.occurredAt.isSome && r.occurredAt.isSome) = true := by
  rw [comparedByType] at h
  split_ifs at h
  · exact timed_of_compared h
  · rw [Bool.and_comm]
    exact timed_of_compared h

/-- A count that only the order of the instants raises. -/
structure OrderCount (f : PairTally → ℕ) (rel : Instant → Instant → Bool) : Prop where
  zero : f 0 = 0
  add : ∀ s t, f (s + t) = f s + f t
  observed : f { observationCount := 1 } = 0
  unknown : f { unknownOrderCount := 1 } = 0
  repeated : f { sameRowRepeatCount := 1 } = 0
  supported : f { crossDatasetSupportCount := 1 } = 0
  order : ∀ s t, f (orderCounts s t) = if rel s t = true then 1 else 0

theorem orderCount_aBeforeB : OrderCount (·.aBeforeBCount) (fun s t => decide (s < t)) where
  zero := rfl
  add _ _ := rfl
  observed := rfl
  unknown := rfl
  repeated := rfl
  supported := rfl
  order s t := by
    rw [orderCounts]
    simp only [decide_eq_true_eq]
    rcases lt_trichotomy s t with h | h | h
    · rw [if_neg h.ne, if_pos h, if_pos h]
    · rw [if_pos h, if_neg h.not_lt]
    · rw [if_neg h.ne', if_neg h.not_gt, if_neg h.not_gt]

theorem orderCount_bBeforeA : OrderCount (·.bBeforeACount) (fun s t => decide (t < s)) where
  zero := rfl
  add _ _ := rfl
  observed := rfl
  unknown := rfl
  repeated := rfl
  supported := rfl
  order s t := by
    rw [orderCounts]
    simp only [decide_eq_true_eq]
    rcases lt_trichotomy s t with h | h | h
    · rw [if_neg h.ne, if_pos h, if_neg h.not_gt]
    · rw [if_pos h, if_neg h.not_gt]
    · rw [if_neg h.ne', if_neg h.not_gt, if_pos h]

theorem orderCount_sameTime : OrderCount (·.sameTimeCount) (fun s t => decide (s = t)) where
  zero := rfl
  add _ _ := rfl
  observed := rfl
  unknown := rfl
  repeated := rfl
  supported := rfl
  order s t := by
    rw [orderCounts]
    simp only [decide_eq_true_eq]
    split_ifs <;> rfl

namespace OrderCount

variable {f : PairTally → ℕ} {rel : Instant → Instant → Bool}

theorem datasets (h : OrderCount f rel) (l r : TimedActivity) : f (datasetCounts l r) = 0 := by
  rw [datasetCounts]
  split
  · exact h.repeated
  · exact h.supported

theorem observation (h : OrderCount f rel) (l r : TimedActivity)
    (hne : l.activityType ≠ r.activityType) :
    f (Process.observation l r) = if comparedByType rel l r = true then 1 else 0 := by
  by_cases htimes : (l.occurredAt.isSome && r.occurredAt.isSome) = true
  · obtain ⟨hl, hr⟩ := Bool.and_eq_true_iff.1 htimes
    obtain ⟨s, hl⟩ := Option.isSome_iff_exists.1 hl
    obtain ⟨t, hr⟩ := Option.isSome_iff_exists.1 hr
    rw [Process.observation, h.add, h.observed, Nat.zero_add, comparedByType, compared, compared,
      pairKey, hl, hr]
    dsimp only
    rw [h.add, h.datasets, Nat.zero_add]
    rcases lt_or_gt_of_ne hne with hlt | hgt
    · rw [if_pos hlt, if_pos hlt.le, if_pos rfl, h.order]
    · rw [if_neg hgt.not_gt, if_pos hgt, if_neg hgt.not_ge, if_neg hne, h.order]
  · obtain ⟨-, hobs⟩ | ⟨htimes', -⟩ := observation_cases l r
    · rw [hobs, h.add, h.observed, h.unknown, if_neg (mt timed_of_comparedByType htimes)]
    · exact absurd htimes' htimes

/-- The count of a pair of types is the number of its comparisons. -/
theorem tally (h : OrderCount f rel) {typeA typeB : String} (hlt : typeA < typeB)
    (activities : List TimedActivity) :
    f ((tallyPairwisePrecedence activities).get (typeA, typeB)) =
      comparisons rel typeA typeB activities := by
  rw [count_tally h.zero h.add (comparedByType_comm rel) h.observation hlt, comparisons]
  refine congrArg List.sum (map_congr_left fun a ha => ?_)
  refine countP_congr fun b _ => ?_
  have ha := of_decide_eq_true (mem_filter.1 ha).2
  rw [Bool.and_eq_true, Bool.and_eq_true, decide_eq_true_eq]
  refine and_congr_right fun hb => ?_
  rw [comparedByType, ha, hb, if_pos hlt]

end OrderCount

/-! ## Merging -/

theorem get_mergePairTallies (perEntityTallies : List PairTallies) (key : String × String) :
    (mergePairTallies perEntityTallies).get key = (perEntityTallies.map (·.get key)).sum := by
  rw [mergePairTallies_eq, Totals.get_merge]

theorem lt_of_get?_merge {entities : List (List TimedActivity)} {key : String × String}
    (h : ((mergePairTallies (entities.map tallyPairwisePrecedence)).get? key).isSome = true) :
    key.1 < key.2 := by
  rw [mergePairTallies_eq, Totals.get?_isSome_merge] at h
  obtain ⟨t, ht, h⟩ := h
  obtain ⟨activities, -, rfl⟩ := mem_map.1 ht
  exact lt_of_get?_tally h

theorem sameRowRepeatCount_merge (hlt : typeA < typeB) (entities : List (List TimedActivity)) :
    ((mergePairTallies (entities.map tallyPairwisePrecedence)).get
      (typeA, typeB)).sameRowRepeatCount =
        (entities.map (sameDatasetObservations typeA typeB)).sum := by
  rw [get_mergePairTallies, PairTally.sum_apply (f := PairTally.sameRowRepeatCount) rfl
    (fun _ _ => rfl), map_map, map_map]
  exact congrArg List.sum (map_congr_left fun activities _ =>
    sameRowRepeatCount_tally hlt activities)

theorem OrderCount.merge {f : PairTally → ℕ} (h : OrderCount f rel) (hlt : typeA < typeB)
    (entities : List (List TimedActivity)) :
    f ((mergePairTallies (entities.map tallyPairwisePrecedence)).get (typeA, typeB)) =
      (entities.map (comparisons rel typeA typeB)).sum := by
  rw [get_mergePairTallies, PairTally.sum_apply h.zero h.add, map_map, map_map]
  exact congrArg List.sum (map_congr_left fun activities _ => h.tally hlt activities)

/-! ## Three anchor entities -/

/-- The pairwise tallies of a case count what they say and do not depend on any order, and the
evidence is strong only where three anchor entities contributed to it. -/
structure TalliesLawful (entities : List (List TimedActivity)) : Prop where
  unordered : ∀ activities ∈ entities, ∀ activities', activities'.Perm activities → ∀ key,
    (tallyPairwisePrecedence activities').get? key = (tallyPairwisePrecedence activities).get? key
  observations : ∀ activities ∈ entities, ∀ typeA typeB, typeA < typeB →
    ((tallyPairwisePrecedence activities).get (typeA, typeB)).observationCount =
      activities.countP (·.activityType = typeA) * activities.countP (·.activityType = typeB)
  partitioned : ∀ activities ∈ entities, ∀ key,
    ((tallyPairwisePrecedence activities).get key).Partitioned
  merged : ∀ key, (mergePairTallies (entities.map tallyPairwisePrecedence)).get key =
    (entities.map fun activities => (tallyPairwisePrecedence activities).get key).sum
  mergedPartitioned : ∀ key,
    ((mergePairTallies (entities.map tallyPairwisePrecedence)).get key).Partitioned
  commutative : ∀ entities' : List (List TimedActivity), entities'.Perm entities → ∀ key,
    (mergePairTallies (entities'.map tallyPairwisePrecedence)).get? key =
      (mergePairTallies (entities.map tallyPairwisePrecedence)).get? key
  associative : ∀ front back : List (List TimedActivity), entities = front ++ back → ∀ key,
    (mergePairTallies [mergePairTallies (front.map tallyPairwisePrecedence),
      mergePairTallies (back.map tallyPairwisePrecedence)]).get? key =
        (mergePairTallies (entities.map tallyPairwisePrecedence)).get? key
  strong : ∀ typeA typeB tally,
    (mergePairTallies (entities.map tallyPairwisePrecedence)).get? (typeA, typeB) = some tally →
      tallyTemporalEvidenceTier tally = .strong →
        3 ≤ entities.countP fun activities => 0 < sameDatasetObservations typeA typeB activities

/-- No two types were seen in one dataset by one or two entities only, but three or more times. -/
def SpreadOut (entities : List (List TimedActivity)) : Prop :=
  ∀ typeA typeB, typeA < typeB →
    (entities.countP fun activities => 0 < sameDatasetObservations typeA typeB activities) ≤ 2 →
      (entities.map (sameDatasetObservations typeA typeB)).sum ≤ 2

/-- The evidence is strong from three same-dataset observations on, whoever contributed them. -/
theorem strong_iff (hlt : typeA < typeB) (entities : List (List TimedActivity)) :
    (∃ tally, (mergePairTallies (entities.map tallyPairwisePrecedence)).get? (typeA, typeB) =
        some tally ∧ tallyTemporalEvidenceTier tally = .strong) ↔
      3 ≤ (entities.map (sameDatasetObservations typeA typeB)).sum := by
  rw [← sameRowRepeatCount_merge hlt, Totals.get]
  cases h : (mergePairTallies (entities.map tallyPairwisePrecedence)).get? (typeA, typeB) with
  | none =>
    refine iff_of_false ?_ (by show ¬ 3 ≤ 0; omega)
    rintro ⟨tally, htally, -⟩
    exact Option.some_ne_none tally htally.symm
  | some tally =>
    rw [Option.getD_some, ← tier_eq_strong]
    constructor
    · rintro ⟨tally', htally, hstrong⟩
      rwa [Option.some.inj htally]
    · exact fun hstrong => ⟨tally, rfl, hstrong⟩

/-- Everything but the number of the entities behind strong evidence holds of every case. -/
theorem talliesLawful_iff_spreadOut (entities : List (List TimedActivity)) :
    TalliesLawful entities ↔ SpreadOut entities := by
  constructor
  · intro h typeA typeB hlt hcount
    by_contra hsum
    obtain ⟨tally, htally, hstrong⟩ := (strong_iff hlt entities).2 (by omega)
    have := h.strong typeA typeB tally htally hstrong
    omega
  · intro h
    refine
      { unordered := fun activities _ activities' hperm key => get?_tally_perm hperm key
        observations := fun activities _ typeA typeB hlt => observationCount_tally hlt activities
        partitioned := fun activities _ => partitioned_tally activities
        merged := ?_
        mergedPartitioned := ?_
        commutative := ?_
        associative := ?_
        strong := ?_ }
    · intro key
      rw [get_mergePairTallies, map_map]
      rfl
    · intro key
      rw [get_mergePairTallies]
      apply PairTally.Partitioned.sum
      intro t ht
      rw [map_map] at ht
      obtain ⟨activities, -, rfl⟩ := mem_map.1 ht
      exact partitioned_tally activities key
    · intro entities' hperm key
      rw [mergePairTallies_eq, mergePairTallies_eq]
      exact Totals.get?_merge_perm (hperm.map _) key
    · rintro front back rfl key
      simp only [mergePairTallies_eq]
      rw [Totals.get?_merge_append, map_append]
    · intro typeA typeB tally htally hstrong
      have hsome : ((mergePairTallies (entities.map tallyPairwisePrecedence)).get?
          (typeA, typeB)).isSome = true := by
        rw [htally]
        rfl
      have hlt : typeA < typeB := lt_of_get?_merge hsome
      have hsum := (strong_iff hlt entities).1 ⟨tally, htally, hstrong⟩
      by_contra hcount
      have := h typeA typeB hlt (by omega)
      omega

/-! ## A case with one work order -/

/-- A work order that was started three times and completed once, all in one dataset. -/
def restartedWorkOrder : List TimedActivity :=
  [{ index := 0, activityType := "START", occurredAt := some 0,
     analysisCaseDatasetId := "jobs", isExplicitEvent := true },
   { index := 1, activityType := "START", occurredAt := some 1,
     analysisCaseDatasetId := "jobs", isExplicitEvent := true },
   { index := 2, activityType := "START", occurredAt := some 2,
     analysisCaseDatasetId := "jobs", isExplicitEvent := true },
   { index := 3, activityType := "COMPLETE", occurredAt := some 3,
     analysisCaseDatasetId := "jobs", isExplicitEvent := true }]

theorem restartedWorkOrder_not_lawful : ¬ TalliesLawful [restartedWorkOrder] := by
  intro h
  have hlt : "COMPLETE" < "START" := by decide
  have hcount : sameDatasetObservations "COMPLETE" "START" restartedWorkOrder = 3 := by decide
  obtain ⟨tally, htally, hstrong⟩ := (strong_iff hlt [restartedWorkOrder]).2 (by
    rw [map_singleton, sum_singleton, hcount])
  have hthree := h.strong "COMPLETE" "START" tally htally hstrong
  have hone := countP_le_length (l := [restartedWorkOrder])
    (p := fun activities => 0 < sameDatasetObservations "COMPLETE" "START" activities)
  exact absurd (hthree.trans hone) (by decide)

end Intel4Ops.Process
