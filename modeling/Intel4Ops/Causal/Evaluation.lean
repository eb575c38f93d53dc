import Intel4Ops.Causal.Model

/-!
# Evaluating a hypothesis

The hard gates and the confidence of `CausalEvaluationService.evaluate`, as functions of the
hypothesis, of its supporting evidence and of what the other tables hold.
-/

namespace Intel4Ops.Causal

open Lib Lib.Decimal

/-- `BLOCKING_MAPPING_STATUSES`. -/
def blockingMappingStatuses : List String :=
  ["unresolved", "ambiguous", "conflicting", "missing_required_field", "rejected", "superseded"]

/-- `MINIMUM_MAPPING_CONFIDENCE_THRESHOLD`. -/
def minimumMappingConfidenceThreshold : ℚ := 1 / 2

/-- `PROBABLE_CONFIDENCE_THRESHOLD`. -/
def probableConfidenceThreshold : ℚ := 3 / 5

/-- `TEMPORAL_PRECISION_SECONDS`, and zero for any other precision. -/
def temporalPrecisionSeconds (precision : String) : ℤ :=
  if precision = "second" then 1
  else if precision = "minute" then 60
  else if precision = "hour" then 3600
  else if precision = "day" ∨ precision = "period" then 86400
  else 0

/-- `_resolve_mapping_confidence`. -/
def resolveMapping (context : Context) (link : CausalEvidenceLink) : Option Mapping :=
  match link.evidenceKind with
  | .canonicalRecord =>
    ((context.canonicalEvents link.evidenceId) <|>
      (context.canonicalMetrics link.evidenceId)).map (·.toMapping)
  | .sourceCanonicalLink => context.sourceCanonicalLinks link.evidenceId
  | _ => none

/-- `_resolve_occurrence`; a node without a record has no occurrence. -/
def resolveOccurrence (context : Context) (node : CausalNode) : Option CanonicalRecord :=
  match node.target with
  | .canonicalEvent id => context.canonicalEvents id
  | .canonicalMetric id => context.canonicalMetrics id
  | .other => none

def mappingConfidences (context : Context) (links : List CausalEvidenceLink) : List ℚ :=
  links.filterMap fun link =>
    ((resolveMapping context link).bind (·.mappingConfidenceScore)).map (·.value)

def minimumMappingConfidence (context : Context) (links : List CausalEvidenceLink) : Option ℚ :=
  (mappingConfidences context links).min?

/-- What the supporting evidence is blocked for. -/
def evidenceReasons (context : Context) (links : List CausalEvidenceLink) : List GateReason :=
  (if links.isEmpty then [.missingRequiredEvidence] else []) ++
    (links.filterMap fun link => (resolveMapping context link).bind fun mapping =>
      if mapping.mappingStatus ∈ blockingMappingStatuses then
        some (.blockingMappingStatus mapping.mappingStatus) else none) ++
    match minimumMappingConfidence context links with
    | some minimum => if minimum < minimumMappingConfidenceThreshold then
        [.insufficientMappingConfidence minimum] else []
    | none => []

/-- The start of the source and the target, with the precision of the comparison, when the records
of both nodes say when they occurred. -/
def occurrences (context : Context) (hypothesis : CausalHypothesis) :
    Option (CanonicalRecord × CanonicalRecord) := do
  let source ← context.nodes.find? (·.id = hypothesis.sourceNodeId)
  let target ← context.nodes.find? (·.id = hypothesis.targetNodeId)
  let source ← resolveOccurrence context source
  let target ← resolveOccurrence context target
  if source.occurrenceStart.isSome ∧ target.occurrenceStart.isSome then some (source, target)
  else none

def evaluatedPrecision (context : Context) (hypothesis : CausalHypothesis) : Option String :=
  (occurrences context hypothesis).bind fun (source, target) =>
    source.occurrencePrecision <|> target.occurrencePrecision

/-- What the order of the occurrences is blocked for. -/
def temporalReasons (context : Context) (hypothesis : CausalHypothesis) : List GateReason :=
  match occurrences context hypothesis with
  | none => []
  | some (source, target) =>
    (if hypothesis.proposedEdgeType ∈ nonOverlapEdgeTypes ∧
        ∃ boundary ∈ (source.occurrenceEnd <|> source.occurrenceStart),
          ∃ start ∈ target.occurrenceStart, start < boundary then
        [.temporalPrecedenceViolation] else []) ++
      match evaluatedPrecision context hypothesis, hypothesis.temporalLagSeconds with
      | some precision, some lag => if lag < temporalPrecisionSeconds precision then
          [.insufficientTemporalPrecision precision lag] else []
      | _, _ => []

/-- All reasons for which the hard gates block. -/
def gateReasons (context : Context) (hypothesis : CausalHypothesis)
    (links : List CausalEvidenceLink) : List GateReason :=
  evidenceReasons context links ++ temporalReasons context hypothesis ++
    if context.readinessBlocked then [.readinessBlocked] else []

/-! ## Confidence -/

def methodWeight (env : Env) (hypothesis : CausalHypothesis) : ℚ :=
  match env.methods hypothesis.methodId with
  | some method => method.defaultConfidenceWeight.value
  | none => 1 / 2

/-- The weight, capped by the least mapping confidence of the supporting evidence. -/
def cappedWeight (weight : ℚ) (minimum : Option ℚ) : ℚ :=
  match minimum with
  | some m => min weight m
  | none => weight

/-- The confidence of a hypothesis: contradicting evidence divides it. -/
def confidence (weight : ℚ) (minimum : Option ℚ) (contradictionCount : ℕ) : ℚ :=
  if contradictionCount = 0 then cappedWeight weight minimum
  else Decimal.context (cappedWeight weight minimum / (1 + contradictionCount))

end Intel4Ops.Causal
