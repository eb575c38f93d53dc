import Intel4Ops.Lib.Decimal
import Intel4Ops.Lib.Group

/-!
# Entity candidates

The identifiers that a case's datasets show are grouped into candidates by the type of the entity
and the normalized identifier. A candidate is the better identified the more datasets show it. Rules
take the candidates of their subject type that are identified well enough, under the spelling that
was seen first.
-/

namespace Intel4Ops.Entities

open Lib List

/-! ## Observations -/

/-- `EntityObservation`, less its field, its concept and its source. -/
structure EntityObservation where
  (analysisCaseDatasetId entityType rawValue normalizedValue : String)
  semanticConfidence : ℚ

def EntityObservation.key (o : EntityObservation) : String × String :=
  (o.entityType, o.normalizedValue)

/-- `ResolutionTier` -/
inductive ResolutionTier
  | exact
  | normalized
  | composite

/-- `EntityCandidate`, less its evidence. It stands on some observation. -/
structure EntityCandidate where
  (entityType normalizedKey displayLabel : String)
  resolutionMethod : ResolutionTier
  observations : List EntityObservation
  (entityTypeConfidence entityIdentityConfidence : ℚ)
  observed : observations ≠ []
  confident : 0 ≤ entityIdentityConfidence

/-! ## Deduplication -/

/-- `_TIER_BASE_IDENTITY_CONFIDENCE` -/
def ResolutionTier.base : ResolutionTier → ℚ
  | exact => 65 / 100
  | normalized => 55 / 100
  | composite => 45 / 100

/-- `_TIER_CORROBORATION_STEP` -/
def ResolutionTier.step : ResolutionTier → ℚ
  | exact => 85 / 1000
  | normalized => 8 / 100
  | composite => 7 / 100

/-- `_TIER_IDENTITY_CONFIDENCE_CAP` -/
def ResolutionTier.cap : ResolutionTier → ℚ
  | exact => 99 / 100
  | normalized => 95 / 100
  | composite => 90 / 100

/-- The confidence in an identity that a number of datasets show. -/
def ResolutionTier.identityConfidence (tier : ResolutionTier) (datasets : ℕ) : ℚ :=
  Decimal.halfEven.places 4 (min (tier.base + tier.step * (datasets - 1 : ℕ)) tier.cap)

theorem ResolutionTier.identityConfidence_nonneg (tier : ResolutionTier) (datasets : ℕ) :
    0 ≤ tier.identityConfidence datasets := by
  have hbase : 0 ≤ tier.base := by cases tier <;> norm_num [base]
  have hstep : 0 ≤ tier.step := by cases tier <;> norm_num [step]
  have hcap : 0 ≤ tier.cap := by cases tier <;> norm_num [cap]
  apply Decimal.Rounding.places_nonneg
  exact le_min (add_nonneg hbase (mul_nonneg hstep (Nat.cast_nonneg _))) hcap

/-- `_resolution_method_for_group`: the observations after the first one repeat its spelling. -/
def resolutionMethodForGroup (first : EntityObservation) (rest : List EntityObservation) :
    ResolutionTier :=
  if ∀ o ∈ rest, o.rawValue = first.rawValue then .exact else .normalized

def candidateOf (first : EntityObservation) (rest : List EntityObservation) : EntityCandidate :=
  let observations := first :: rest
  let method := resolutionMethodForGroup first rest
  let datasets := firsts (observations.map (·.analysisCaseDatasetId))
  { entityType := first.entityType
    normalizedKey := first.normalizedValue
    displayLabel := first.rawValue
    resolutionMethod := method
    observations := observations
    entityTypeConfidence := Decimal.halfEven.places 4
      ((observations.map (·.semanticConfidence)).sum / observations.length)
    entityIdentityConfidence := method.identityConfidence datasets.length
    observed := cons_ne_nil _ _
    confident := method.identityConfidence_nonneg _ }

/-- `deduplicate`: one candidate for each type and normalized identifier, in the order in which they
are first observed. -/
def deduplicate (observations : List EntityObservation) : List EntityCandidate :=
  let valid := observations.filter (·.normalizedValue ≠ "")
  (firsts (valid.map (·.key))).filterMap fun key =>
    match group (·.key) valid key with
    | [] => none
    | first :: rest => some (candidateOf first rest)

/-! ## Eligible entities -/

/-- A candidate that a rule takes. -/
def EntityCandidate.Eligible (c : EntityCandidate) (entityType : String) (minimum : ℚ) : Prop :=
  c.entityType = entityType ∧ minimum ≤ c.entityIdentityConfidence ∧ c.observations ≠ []

instance (c : EntityCandidate) (entityType : String) (minimum : ℚ) :
    Decidable (c.Eligible entityType minimum) :=
  inferInstanceAs (Decidable (_ ∧ _ ∧ _))

/-- `eligible_entity_keys` -/
def eligibleEntityKeys (candidates : List EntityCandidate) (entityType : String) (minimum : ℚ) :
    Finset String :=
  ((candidates.filter fun c => c.Eligible entityType minimum).map (·.displayLabel)).toFinset

theorem eligibleEntityKeys_nonempty {candidates : List EntityCandidate} {entityType : String}
    {minimum : ℚ} :
    (eligibleEntityKeys candidates entityType minimum).Nonempty ↔
      ∃ c ∈ candidates, c.entityType = entityType ∧ minimum ≤ c.entityIdentityConfidence := by
  constructor
  · rintro ⟨label, hlabel⟩
    obtain ⟨c, hc, -⟩ := mem_map.1 (mem_toFinset.1 hlabel)
    obtain ⟨hmem, heligible⟩ := mem_filter.1 hc
    obtain ⟨htype, hminimum, -⟩ := of_decide_eq_true heligible
    exact ⟨c, hmem, htype, hminimum⟩
  · rintro ⟨c, hmem, htype, hminimum⟩
    have heligible : c ∈ candidates.filter fun c => c.Eligible entityType minimum :=
      mem_filter.2 ⟨hmem, decide_eq_true ⟨htype, hminimum, c.observed⟩⟩
    exact ⟨c.displayLabel, mem_toFinset.2 (mem_map.2 ⟨c, heligible, rfl⟩)⟩

end Intel4Ops.Entities
