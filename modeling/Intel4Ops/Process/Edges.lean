import Intel4Ops.Process.Precedence

/-!
# Edges between activity types

The tallies of all anchor entities of a case decide once what the edge of a pair of activity types
looks like. The edge is then drawn on every process instance that shows both types, from the first
activity of the alphabetically smaller type to the first activity of the other.

An edge of type `precedes` reads as "the left type comes first". The tallies can say the opposite.
-/

namespace Intel4Ops.Process

open Lib List

/-! ## Activities -/

structure ActivityObservation where
  analysisCaseDatasetId : String

structure ActivityCandidate where
  activityType : String
  occurredAt : Option Instant
  observations : List ActivityObservation
  activityTypeConfidence : ℚ
  isExplicitEvent : Bool

def timedActivities (activities : List ActivityCandidate) : List TimedActivity :=
  activities.zipIdx.map fun a =>
    { index := a.2
      activityType := a.1.activityType
      occurredAt := a.1.occurredAt
      analysisCaseDatasetId := (a.1.observations.head?.map (·.analysisCaseDatasetId)).getD ""
      isExplicitEvent := a.1.isExplicitEvent }

/-- The strongest confidence in an activity type over a case. -/
def typeConfidence (activities : List ActivityCandidate) (type : String) : ℚ :=
  (activities.filter (·.activityType = type)).foldl (fun c a => max c a.activityTypeConfidence) 0

/-- The confidence that the subject of an activity takes part in it. -/
def subjectParticipationConfidence : ℚ := 8 / 10

/-- What a case says about one pair of types. -/
structure PairResult where
  types : String × String
  result : PrecedenceConfidenceResult
  tally : PairTally

/-- The tallies of every anchor entity, pooled. -/
def caseLevelTallies (perEntityActivities : List (List ActivityCandidate)) : PairTallies :=
  mergePairTallies ((perEntityActivities.map timedActivities).map tallyPairwisePrecedence)

/-- Every pair of types that some anchor entity showed together. -/
def caseLevelPairResults (perEntityActivities : List (List ActivityCandidate)) : List PairResult :=
  let confidence := typeConfidence perEntityActivities.flatten
  (caseLevelTallies perEntityActivities).entries.map fun e =>
    { types := e.1
      result := composePrecedenceConfidence e.2 (min (confidence e.1.1) (confidence e.1.2))
        subjectParticipationConfidence
      tally := e.2 }

/-! ## Edges -/

structure ProcessEdgeCandidate where
  (leftIndex rightIndex : ℕ)
  edgeType : ProcessEdgeType
  (supportCount aBeforeBCount bBeforeACount sameTimeCount unknownOrderCount observationCount : ℕ)
  temporalEvidenceTier : TemporalEvidenceTier
  (semanticConfidence entityParticipationConfidence temporalConfidence repetitionConfidence
    consistencyConfidence conflictPenalty precedenceConfidence : ℚ)
  contradictionCount : ℕ
  status : ProcessStatus

def firstIndexByType (activities : List ActivityCandidate) (type : String) : ℕ :=
  activities.findIdx (·.activityType = type)

def pairEdge (activities : List ActivityCandidate) (pair : PairResult) : ProcessEdgeCandidate :=
  { leftIndex := firstIndexByType activities pair.types.1
    rightIndex := firstIndexByType activities pair.types.2
    edgeType := resolveEdgeType pair.tally pair.result.status
    supportCount := pair.tally.supportCount
    aBeforeBCount := pair.tally.aBeforeBCount
    bBeforeACount := pair.tally.bBeforeACount
    sameTimeCount := pair.tally.sameTimeCount
    unknownOrderCount := pair.tally.unknownOrderCount
    observationCount := pair.tally.observationCount
    temporalEvidenceTier := pair.result.temporalEvidenceTier
    semanticConfidence := pair.result.semanticConfidence
    entityParticipationConfidence := pair.result.entityParticipationConfidence
    temporalConfidence := pair.result.temporalConfidence
    repetitionConfidence := pair.result.repetitionConfidence
    consistencyConfidence := pair.result.consistencyConfidence
    conflictPenalty := pair.result.conflictPenalty
    precedenceConfidence := pair.result.precedenceConfidence
    contradictionCount := if pair.result.status = .conflicted then 1 else 0
    status := pair.result.status }

/-- The edges between activity types of one process instance. A pair is drawn only where the
instance shows both types. -/
def buildPairEdges (activities : List ActivityCandidate) (pairResults : List PairResult) :
    List ProcessEdgeCandidate :=
  (pairResults.filter fun pair =>
    pair.types.1 ∈ activities.map (·.activityType) ∧
      pair.types.2 ∈ activities.map (·.activityType)).map (pairEdge activities)

theorem activityType_firstIndex {activities : List ActivityCandidate} {type : String}
    (h : type ∈ activities.map (·.activityType)) :
    (activities[firstIndexByType activities type]?).map (·.activityType) = some type := by
  obtain ⟨a, ha, rfl⟩ := mem_map.1 h
  have hlt : firstIndexByType activities a.activityType < activities.length :=
    findIdx_lt_length_of_exists ⟨a, ha, decide_eq_true rfl⟩
  rw [List.getElem?_eq_getElem hlt]
  have hfound := findIdx_getElem
    (p := fun b : ActivityCandidate => decide (b.activityType = a.activityType)) (w := hlt)
  rw [decide_eq_true_eq] at hfound
  exact congrArg some hfound

/-! ## Directions -/

/-- How often the pooled tallies saw the first type before the second. -/
def observedBefore (tallies : PairTallies) (first second : String) : ℕ :=
  if first < second then (tallies.get (first, second)).aBeforeBCount
  else (tallies.get (second, first)).bBeforeACount

/-- The directed edges of an instance point from the type that was first more often to the other,
and no contradictory pair is directed. -/
structure PointsForward (perEntityActivities : List (List ActivityCandidate))
    (activities : List ActivityCandidate) : Prop where
  forward : ∀ edge ∈ buildPairEdges activities (caseLevelPairResults perEntityActivities),
    edge.edgeType = .precedes → ∃ left right,
      (activities[edge.leftIndex]?).map (·.activityType) = some left ∧
        (activities[edge.rightIndex]?).map (·.activityType) = some right ∧
          observedBefore (caseLevelTallies perEntityActivities) right left <
            observedBefore (caseLevelTallies perEntityActivities) left right
  undirected : ∀ edge ∈ buildPairEdges activities (caseLevelPairResults perEntityActivities),
    edge.edgeType = .precedes → ¬ (2 ≤ edge.supportCount ∧
      3 * edge.supportCount ≤ 10 * edge.aBeforeBCount ∧
        3 * edge.supportCount ≤ 10 * edge.bBeforeACount)

/-- How often the activities of a case stand in a relation of time. -/
def pooled (rel : Instant → Instant → Bool) (perEntityActivities : List (List ActivityCandidate))
    (typeA typeB : String) : ℕ :=
  ((perEntityActivities.map timedActivities).map (comparisons rel typeA typeB)).sum

/-- Of every two types of an instance the alphabetically smaller one was first at least as often as
the other, or both happened at one time at least as often as the other was first, or the smaller
one was first in at least 30% of the comparisons. -/
def Alphabetical (perEntityActivities : List (List ActivityCandidate))
    (activities : List ActivityCandidate) : Prop :=
  ∀ typeA typeB, typeA < typeB → typeA ∈ activities.map (·.activityType) →
    typeB ∈ activities.map (·.activityType) →
      let aFirst := pooled (fun s t => decide (s < t)) perEntityActivities typeA typeB
      let bFirst := pooled (fun s t => decide (t < s)) perEntityActivities typeA typeB
      let same := pooled (fun s t => decide (s = t)) perEntityActivities typeA typeB
      bFirst ≤ aFirst ∨ bFirst ≤ same ∨ 3 * (aFirst + bFirst + same) ≤ 10 * aFirst

variable {perEntityActivities : List (List ActivityCandidate)} {activities : List ActivityCandidate}

/-- The edges of an instance: one for each pooled pair of types that the instance shows. -/
theorem mem_buildPairEdges {edge : ProcessEdgeCandidate} :
    edge ∈ buildPairEdges activities (caseLevelPairResults perEntityActivities) ↔
      ∃ pair ∈ caseLevelPairResults perEntityActivities,
        (pair.types.1 ∈ activities.map (·.activityType) ∧
          pair.types.2 ∈ activities.map (·.activityType)) ∧ pairEdge activities pair = edge := by
  rw [buildPairEdges, mem_map]
  simp only [mem_filter, decide_eq_true_eq, and_assoc]

variable {pair : PairResult} {typeA typeB : String}

/-- A pooled pair has a tally, and its result is composed from the tally. -/
theorem spec_caseLevelPairResults (h : pair ∈ caseLevelPairResults perEntityActivities) :
    pair.types.1 < pair.types.2 ∧
      (caseLevelTallies perEntityActivities).get? pair.types = some pair.tally ∧
        ∃ weaker, pair.result = composePrecedenceConfidence pair.tally weaker
          subjectParticipationConfidence := by
  obtain ⟨⟨types, tally⟩, he, rfl⟩ := mem_map.1 h
  have hget := Totals.mem_entries.1 he
  have hsome : ((mergePairTallies ((perEntityActivities.map timedActivities).map
      tallyPairwisePrecedence)).get? types).isSome = true := by
    rw [← caseLevelTallies, hget]
    rfl
  exact ⟨lt_of_get?_merge hsome, hget, _, rfl⟩

theorem exists_caseLevelPairResults {types : String × String} {tally : PairTally}
    (h : (caseLevelTallies perEntityActivities).get? types = some tally) :
    ∃ pair ∈ caseLevelPairResults perEntityActivities, pair.types = types ∧ pair.tally = tally :=
  ⟨_, mem_map.2 ⟨(types, tally), Totals.mem_entries.2 h, rfl⟩, rfl, rfl⟩

theorem counts_caseLevelTallies (hlt : typeA < typeB) :
    ((caseLevelTallies perEntityActivities).get (typeA, typeB)).aBeforeBCount =
        pooled (fun s t => decide (s < t)) perEntityActivities typeA typeB ∧
      ((caseLevelTallies perEntityActivities).get (typeA, typeB)).bBeforeACount =
          pooled (fun s t => decide (t < s)) perEntityActivities typeA typeB ∧
        ((caseLevelTallies perEntityActivities).get (typeA, typeB)).sameTimeCount =
          pooled (fun s t => decide (s = t)) perEntityActivities typeA typeB :=
  ⟨orderCount_aBeforeB.merge hlt _, orderCount_bBeforeA.merge hlt _,
    orderCount_sameTime.merge hlt _⟩

theorem get?_of_pos
    (h : 0 < ((caseLevelTallies perEntityActivities).get (typeA, typeB)).bBeforeACount) :
    (caseLevelTallies perEntityActivities).get? (typeA, typeB) =
      some ((caseLevelTallies perEntityActivities).get (typeA, typeB)) := by
  rw [Totals.get] at h ⊢
  cases hget : (caseLevelTallies perEntityActivities).get? (typeA, typeB) with
  | none =>
    rw [hget] at h
    exact absurd h (lt_irrefl 0)
  | some tally => rfl

theorem forward_pairEdge (hpair : pair ∈ caseLevelPairResults perEntityActivities)
    (hleft : pair.types.1 ∈ activities.map (·.activityType))
    (hright : pair.types.2 ∈ activities.map (·.activityType)) :
    (∃ left right,
      (activities[(pairEdge activities pair).leftIndex]?).map (·.activityType) = some left ∧
        (activities[(pairEdge activities pair).rightIndex]?).map (·.activityType) = some right ∧
          observedBefore (caseLevelTallies perEntityActivities) right left <
            observedBefore (caseLevelTallies perEntityActivities) left right) ↔
      pair.tally.bBeforeACount < pair.tally.aBeforeBCount := by
  obtain ⟨hlt, hget, -⟩ := spec_caseLevelPairResults hpair
  have hcounts : observedBefore (caseLevelTallies perEntityActivities) pair.types.2 pair.types.1 =
        pair.tally.bBeforeACount ∧
      observedBefore (caseLevelTallies perEntityActivities) pair.types.1 pair.types.2 =
        pair.tally.aBeforeBCount := by
    rw [observedBefore, observedBefore, if_neg hlt.not_gt, if_pos hlt, Totals.get, hget]
    exact ⟨rfl, rfl⟩
  rw [← hcounts.1, ← hcounts.2]
  constructor
  · rintro ⟨left, right, hl, hr, hbefore⟩
    obtain rfl := Option.some.inj (hl.symm.trans (activityType_firstIndex hleft))
    obtain rfl := Option.some.inj (hr.symm.trans (activityType_firstIndex hright))
    exact hbefore
  · intro hbefore
    exact ⟨_, _, activityType_firstIndex hleft, activityType_firstIndex hright, hbefore⟩

theorem exists_edge_against (hlt : typeA < typeB) (hA : typeA ∈ activities.map (·.activityType))
    (hB : typeB ∈ activities.map (·.activityType))
    (hbefore : pooled (fun s t => decide (s < t)) perEntityActivities typeA typeB <
      pooled (fun s t => decide (t < s)) perEntityActivities typeA typeB)
    (hsame : pooled (fun s t => decide (s = t)) perEntityActivities typeA typeB <
      pooled (fun s t => decide (t < s)) perEntityActivities typeA typeB)
    (hweak : 10 * pooled (fun s t => decide (s < t)) perEntityActivities typeA typeB <
      3 * (pooled (fun s t => decide (s < t)) perEntityActivities typeA typeB +
        pooled (fun s t => decide (t < s)) perEntityActivities typeA typeB +
          pooled (fun s t => decide (s = t)) perEntityActivities typeA typeB)) :
    ¬ PointsForward perEntityActivities activities := by
  intro h
  obtain ⟨ha, hb, hs⟩ := @counts_caseLevelTallies perEntityActivities _ _ hlt
  rw [← ha, ← hb] at hbefore
  rw [← hs, ← hb] at hsame
  rw [← ha, ← hb, ← hs] at hweak
  obtain ⟨pair, hpair, htypes, htally⟩ :=
    exists_caseLevelPairResults (get?_of_pos (Nat.zero_lt_of_lt hbefore))
  obtain ⟨-, -, weaker, hresult⟩ := spec_caseLevelPairResults hpair
  have hagainst := (precedes_against_iff pair.tally weaker subjectParticipationConfidence).2 (by
    rw [htally, PairTally.supportCount]
    exact ⟨hbefore, hsame, hweak⟩)
  have hleft : pair.types.1 ∈ activities.map (·.activityType) := by rwa [htypes]
  have hright : pair.types.2 ∈ activities.map (·.activityType) := by rwa [htypes]
  have hedge := h.forward (pairEdge activities pair)
    (mem_buildPairEdges.2 ⟨pair, hpair, ⟨hleft, hright⟩, rfl⟩) (by
      show resolveEdgeType pair.tally pair.result.status = .precedes
      rw [hresult]
      exact hagainst.1)
  have hforward := (forward_pairEdge hpair hleft hright).1 hedge
  omega

/-- Directed edges point forward just where the alphabet agrees with the observed order. -/
theorem pointsForward_iff_alphabetical (perEntityActivities : List (List ActivityCandidate))
    (activities : List ActivityCandidate) :
    PointsForward perEntityActivities activities ↔
      Alphabetical perEntityActivities activities := by
  constructor
  · intro h typeA typeB hlt hA hB
    dsimp only
    by_contra hnot
    exact exists_edge_against hlt hA hB (by omega) (by omega) (by omega) h
  · intro h
    constructor
    · intro edge hedge hprecedes
      obtain ⟨pair, hpair, ⟨hleft, hright⟩, rfl⟩ := mem_buildPairEdges.1 hedge
      obtain ⟨hlt, hget, weaker, hresult⟩ := spec_caseLevelPairResults hpair
      rw [forward_pairEdge hpair hleft hright]
      by_contra hnot
      have hagainst := (precedes_against_iff pair.tally weaker subjectParticipationConfidence).1
        ⟨by rw [← hresult]; exact hprecedes, by omega⟩
      obtain ⟨ha, hb, hs⟩ := @counts_caseLevelTallies perEntityActivities _ _ hlt
      have halpha := h _ _ hlt hleft hright
      dsimp only at halpha
      rw [← ha, ← hb, ← hs, Totals.get, hget, Option.getD_some] at halpha
      rw [PairTally.supportCount] at hagainst
      omega
    · intro edge hedge hprecedes
      obtain ⟨pair, hpair, -, rfl⟩ := mem_buildPairEdges.1 hedge
      obtain ⟨-, -, weaker, hresult⟩ := spec_caseLevelPairResults hpair
      have hnot := (resolveEdgeType_eq_precedes pair.tally weaker
        subjectParticipationConfidence).1 (by rw [← hresult]; exact hprecedes)
      exact hnot.1

/-! ## A work order that was scheduled and completed -/

/-- The work order was scheduled before it was completed, which the alphabet has the other way. -/
def scheduledWorkOrder : List ActivityCandidate :=
  [{ activityType := "SCHEDULE", occurredAt := some 0, observations := [⟨"jobs"⟩],
     activityTypeConfidence := 9 / 10, isExplicitEvent := false },
   { activityType := "COMPLETE", occurredAt := some 1, observations := [⟨"jobs"⟩],
     activityTypeConfidence := 9 / 10, isExplicitEvent := false }]

theorem scheduledWorkOrder_not_forward :
    ¬ PointsForward [scheduledWorkOrder] scheduledWorkOrder := by
  have hlt : "COMPLETE" < "SCHEDULE" := by decide
  refine exists_edge_against hlt ?_ ?_ ?_ ?_ ?_
  · decide
  · decide
  · decide
  · decide
  · decide

end Intel4Ops.Process
