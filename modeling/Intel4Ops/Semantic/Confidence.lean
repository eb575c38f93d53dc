import Intel4Ops.Lib.Group
import Mathlib.Algebra.BigOperators.Group.List.Basic
import Mathlib.Data.List.Sort
import Mathlib.Tactic.Linarith

/-!
# Interpretation confidence

The candidates for the concept of a field are merged by concept, ranked by confidence, and the best
one is accepted or left to a review. Where a concept has evidence of its own, the number that an
artificial-intelligence provider gives never enters its confidence.
-/

namespace Intel4Ops.Semantic

open Lib

/-! ## Candidates -/

/-- `EvidenceComponentType` -/
inductive ComponentType
  | fieldNameAliasMatch
  | valuePatternMatch
  | datatypeCompatibility
  | datasetRoleCompatibility
  | neighborFieldContext
  | crossDatasetOverlap
  | siblingConceptCorroboration
  | semanticMemory
  | aiProposal
  | deterministicCoroboration
  deriving DecidableEq

/-- `InterpretationEvidence` -/
structure Evidence where
  componentType : ComponentType
  weight : ℚ
  (description supportsConcept : String)

/-- `SemanticCandidate`, less the time of its generation. -/
structure Candidate where
  (sourceDatasetId sourceField concept : String)
  confidence : ℚ
  evidence : List Evidence
  rank : ℕ
  generatedBy : String

/-- `_is_ai_evidence` -/
def Evidence.isAi (e : Evidence) : Bool := e.componentType = .aiProposal

/-- `InterpretationDecisionStatus`, as far as the engine sets it. -/
inductive DecisionStatus
  | autoAccepted
  | acceptedWithFlag
  | reviewRequired
  | unresolved
  deriving DecidableEq

/-- `ConfidenceThresholds` -/
structure Thresholds where
  version : String
  (autoAcceptMin acceptedWithFlagMin reviewRequiredMin : ℚ)

/-- `default_confidence_thresholds` -/
def defaultThresholds : Thresholds := ⟨"v1", 90 / 100, 70 / 100, 40 / 100⟩

/-- `status_for` -/
def Thresholds.statusFor (thresholds : Thresholds) (confidence : ℚ) : DecisionStatus :=
  if thresholds.autoAcceptMin ≤ confidence then .autoAccepted
  else if thresholds.acceptedWithFlagMin ≤ confidence then .acceptedWithFlag
  else if thresholds.reviewRequiredMin ≤ confidence then .reviewRequired
  else .unresolved

/-! ## Merging by concept -/

/-- `best_weight_by_type`, summed up: the strongest weight of each type of evidence. -/
def bestWeights (evidence : List Evidence) : ℚ :=
  ((firsts (evidence.map (·.componentType))).map fun type =>
    ((group (·.componentType) evidence type).map (·.weight)).foldl max 0).sum

/-- The confidence of several candidates for one concept. -/
def mergedConfidence (candidates : List Candidate) : ℚ :=
  let independent := (candidates.flatMap (·.evidence)).filter (!·.isAi)
  if independent ≠ [] then min (98 / 100) (bestWeights independent)
  else min (98 / 100) ((candidates.map (·.confidence)).max?.getD 0)

def mergeGroup (concept : String) (candidates : List Candidate) : Candidate :=
  match candidates with
  | [candidate] => candidate
  | _ =>
    { sourceDatasetId := (candidates.head?.map (·.sourceDatasetId)).getD ""
      sourceField := (candidates.head?.map (·.sourceField)).getD ""
      concept := concept
      confidence := mergedConfidence candidates
      evidence := candidates.flatMap (·.evidence)
      rank := ((candidates.map (·.rank)).min?).getD 0
      generatedBy := "+".intercalate
        ((firsts (candidates.map (·.generatedBy))).insertionSort (· ≤ ·)) }

def candidatesFor (candidates : List Candidate) (concept : String) : List Candidate :=
  group (·.concept) candidates concept

def concepts (candidates : List Candidate) : List String := firsts (candidates.map (·.concept))

/-- `_merge_candidates_by_concept` -/
def mergeCandidates (candidates : List Candidate) : List Candidate :=
  (concepts candidates).map fun concept => mergeGroup concept (candidatesFor candidates concept)

/-! ## Reconciliation -/

/-- `InterpretationDecision` -/
structure Decision where
  (sourceDatasetId sourceField : String)
  selectedConcept : Option String
  confidence : ℚ
  status : DecisionStatus
  evidenceSummary : List String
  alternativeCandidates : List Candidate
  (decisionSource decisionVersion : String)
  aiProvenance : Option (Option (String × String))

/-- The candidates from the most to the least confident, in their order where they are equal. -/
def rankCandidates (candidates : List Candidate) : List Candidate :=
  candidates.insertionSort fun a b => b.confidence ≤ a.confidence

/-- `_ai_provenance_for`: whether a provider contributed, and its code and version if known. -/
def aiProvenanceFor (candidate : Candidate) : Option (Option (String × String)) :=
  if candidate.evidence.any (·.isAi) then
    some (((candidate.generatedBy.splitOn "+").find? fun source => source.contains ':').map
      fun source => ((source.splitOn ":").headD "", ":".intercalate (source.splitOn ":").tail))
  else none

/-- A candidate for which only a provider speaks. -/
def isAiOnly (candidate : Candidate) : Bool :=
  candidate.evidence ≠ [] && candidate.evidence.all (·.isAi)

/-- The status of the best candidate, capped where the next one is close and where only a provider
speaks for it. -/
def reconciledStatus (thresholds : Thresholds) (best : Candidate) (others : List Candidate) :
    DecisionStatus :=
  let status := thresholds.statusFor best.confidence
  let ambiguous := others.head?.any fun next => best.confidence - next.confidence < 1 / 10
  if status = .autoAccepted ∧ (ambiguous ∨ isAiOnly best) then .acceptedWithFlag else status

/-- `reconcile` -/
def reconcile (sourceDatasetId sourceField : String) (candidates : List Candidate)
    (thresholds : Thresholds) : Decision :=
  match rankCandidates (mergeCandidates candidates) with
  | [] =>
    { sourceDatasetId, sourceField
      selectedConcept := none
      confidence := 0
      status := .unresolved
      evidenceSummary := ["no candidate concept was proposed by any generator"]
      alternativeCandidates := []
      decisionSource := "deterministic_confidence_engine"
      decisionVersion := "v1"
      aiProvenance := none }
  | best :: others =>
    { sourceDatasetId, sourceField
      selectedConcept := some best.concept
      confidence := best.confidence
      status := reconciledStatus thresholds best others
      evidenceSummary := best.evidence.map (·.description)
      alternativeCandidates := others.take 4
      decisionSource := "deterministic_confidence_engine"
      decisionVersion := "v1+thresholds:" ++ thresholds.version
      aiProvenance := aiProvenanceFor best }

/-! ## What the generators propose -/

/-- The evidence of `generate_candidates` for an alias match, by what else was observed. -/
def aliasEvidence (concept : String) (describe : ComponentType → String)
    (patterns roles datatypes : Bool) : List Evidence :=
  let evidence := fun type weight => Evidence.mk type weight (describe type) concept
  evidence .fieldNameAliasMatch (50 / 100) ::
    (if patterns then [evidence .valuePatternMatch (20 / 100)] else []) ++
    (if roles then [evidence .datasetRoleCompatibility (15 / 100)] else []) ++
    if datatypes then [evidence .datatypeCompatibility (10 / 100)] else []

/-- A candidate of `generate_candidates`. -/
def aliasCandidate (dataset field concept : String) (describe : ComponentType → String)
    (patterns roles datatypes : Bool) (rank : ℕ) : Candidate where
  sourceDatasetId := dataset
  sourceField := field
  concept := concept
  confidence := min (50 / 100 + (if patterns then 20 / 100 else 0) +
    (if roles then 15 / 100 else 0) + if datatypes then 10 / 100 else 0) (98 / 100)
  evidence := aliasEvidence concept describe patterns roles datatypes
  rank := rank
  generatedBy := "deterministic_evidence_v1"

/-- A candidate with one component of evidence, whose weight is its confidence. -/
def singleCandidate (type : ComponentType) (weight : ℚ) (rank : ℕ) (generatedBy dataset field
    concept description : String) : Candidate where
  sourceDatasetId := dataset
  sourceField := field
  concept := concept
  confidence := weight
  evidence := [⟨type, weight, description, concept⟩]
  rank := rank
  generatedBy := generatedBy

/-- A candidate of `generate_neighbor_context_evidence`. -/
def neighborCandidate : String → String → String → String → Candidate :=
  singleCandidate .neighborFieldContext (10 / 100) 60 "neighbor_context_v1"

/-- A candidate of `generate_sibling_concept_corroboration_evidence`. -/
def siblingCandidate : String → String → String → String → Candidate :=
  singleCandidate .siblingConceptCorroboration (25 / 100) 61 "sibling_concept_corroboration_v1"

/-- A candidate of `generate_cross_dataset_evidence`. -/
def crossDatasetCandidate : String → String → String → String → Candidate :=
  singleCandidate .crossDatasetOverlap (15 / 100) 50 "cross_dataset_context_v1"

/-- A candidate that `interpret_dataset` builds from the proposal of a provider. -/
def aiCandidate (generatedBy dataset field concept description : String) (confidence : ℚ) :
    Candidate :=
  singleCandidate .aiProposal confidence 99 generatedBy dataset field concept description

/-- A candidate with evidence that no provider gave. -/
inductive Independent : Candidate → Prop
  | aliasMatch (dataset field concept describe patterns roles datatypes rank) :
    Independent (aliasCandidate dataset field concept describe patterns roles datatypes rank)
  | neighbor (dataset field concept description) :
    Independent (neighborCandidate dataset field concept description)
  | sibling (dataset field concept description) :
    Independent (siblingCandidate dataset field concept description)
  | crossDataset (dataset field concept description) :
    Independent (crossDatasetCandidate dataset field concept description)

/-- A proposal of a provider, with a confidence between zero and one. -/
inductive AiProposed : Candidate → Prop
  | proposal (generatedBy dataset field concept description confidence) (h₀ : 0 ≤ confidence)
      (h₁ : confidence ≤ 1) :
    AiProposed (aiCandidate generatedBy dataset field concept description confidence)

end Intel4Ops.Semantic
