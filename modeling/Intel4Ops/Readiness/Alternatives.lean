import Intel4Ops.Readiness.Floors

/-!
# Readiness and declared alternatives

A pack with alternatives is meant to be ready when some alternative entity set is present at the
confidence floor and some alternative measure set is accepted. The evaluator takes the first entity
set that is present, whatever its confidence, and every measure that some decision selects. This
module states the criterion, and finds the packs and cases on which the evaluator meets it.
-/

namespace Intel4Ops.Readiness

open Lib Entities List

variable {pack : IntelligencePackDefinition} {case : CaseEvidence}

/-! ## The criterion -/

def IntelligencePackDefinition.entitySets (pack : IntelligencePackDefinition) :
    List (Finset String) :=
  if pack.alternativeCanonicalEntitySets = [] then [pack.requiredCanonicalEntities]
  else pack.alternativeCanonicalEntitySets

def IntelligencePackDefinition.measureSets (pack : IntelligencePackDefinition) :
    List (Finset String) :=
  if pack.alternativeCanonicalMeasureSets = [] then [pack.requiredCanonicalMeasures]
  else pack.alternativeCanonicalMeasureSets

/-- A population meets what the pack asks for. -/
abbrev IntelligencePackDefinition.Meets (pack : IntelligencePackDefinition) (minimum : ℚ)
    (distribution : ConfidenceDistribution) : Prop :=
  meetsConfidence distribution minimum pack.confidenceAggregationPolicy pack.minimumCoverageRatio

/-- The entities of a type are there. -/
abbrev CaseEvidence.Present (case : CaseEvidence) (type : String) : Prop :=
  type ∈ case.index.canonicalEntityTypesPresent

/-- The entities of a type meet the confidence floor of the pack. -/
abbrev Clears (pack : IntelligencePackDefinition) (case : CaseEvidence) (type : String) : Prop :=
  pack.Meets pack.minimumEntityIdentityConfidence
    (case.index.canonicalEntityIdentityConfidenceByType type)

/-- An entity set is present and every type of it meets the confidence floor. -/
def Confident (pack : IntelligencePackDefinition) (case : CaseEvidence)
    (entitySet : Finset String) : Prop :=
  ∀ type ∈ entitySet, case.Present type ∧ Clears pack case type

/-- A measure set is available, and an accepted decision stands behind every measure. -/
def Accepted (case : CaseEvidence) (measureSet : Finset String) : Prop :=
  measureSet ⊆ case.index.availableMeasureCodes ∧
    ∀ code ∈ measureSet, ∃ dataset ∈ case.datasets, ∃ decision ∈ dataset.decisions,
      decision.selectedConcept = some code ∧ decision.status = .autoAccepted

/-- Everything that a pack requires but entities and measures. -/
structure Base (pack : IntelligencePackDefinition) (case : CaseEvidence) : Prop where
  enabled : pack.isDisabled = false
  domains : pack.requiredDomains ⊆ case.index.availableDomains
  fields : pack.requiredCanonicalFields ⊆ case.index.availableCanonicalFields
  entities : pack.requiredEntities ⊆ case.index.resolvedEntityTypes
  relationships : pack.requiredRelationships ⊆ case.index.canonicalRelationshipTypesPresent
  activities : pack.requiredActivities ⊆ case.index.activityTypesPresent
  sequences : pack.requiredActivitySequences ⊆ case.index.precedesPairsPresent
  states : pack.requiredStates ⊆ case.index.namedStatesPresent
  trust : pack.requiredResolvedTrustDomains ⊆ case.index.domainsWithResolvedTrust
  currency : ¬ currencyViolation pack case.index
  unit : ¬ unitViolation pack case.index

/-- A pack can execute. -/
structure Criterion (pack : IntelligencePackDefinition) (case : CaseEvidence) : Prop where
  base : Base pack case
  measures : ∃ measureSet ∈ pack.measureSets, Accepted case measureSet
  entities : ∃ entitySet ∈ pack.entitySets, Confident pack case entitySet

/-! ## What the evaluator asks for -/

/-- The confidence of the required relationships, activities, sequences and states. -/
structure Floors (pack : IntelligencePackDefinition) (case : CaseEvidence) : Prop where
  relationships : ∀ type ∈ pack.requiredRelationships,
    pack.Meets pack.minimumRelationshipConfidence
      (case.index.canonicalRelationshipConfidenceByType type)
  activities : ∀ type ∈ pack.requiredActivities,
    pack.Meets pack.minimumActivityConfidence (case.index.activityTypeConfidenceByType type)
  sequences : ∀ pair ∈ pack.requiredActivitySequences,
    pack.Meets pack.minimumProcessConfidence (case.index.precedesPairConfidence pair)
  states : ∀ state ∈ pack.requiredStates,
    pack.Meets pack.minimumProcessConfidence (case.index.stateMeaningConfidenceByState state)

/-- The entity set that the evaluator looks at: the first alternative that is present, and else the
required set. -/
def consideredSet (pack : IntelligencePackDefinition) (case : CaseEvidence) : Finset String :=
  (presentAlternative pack case.index).getD pack.requiredCanonicalEntities

/-- Some declared measure set is available, or else the required one. -/
def MeasuresAvailable (pack : IntelligencePackDefinition) (case : CaseEvidence) : Prop :=
  (∃ measureSet ∈ pack.alternativeCanonicalMeasureSets,
    measureSet ⊆ case.index.availableMeasureCodes) ∨
  pack.requiredCanonicalMeasures ⊆ case.index.availableMeasureCodes

/-- All that the evaluator asks for. -/
structure Passes (pack : IntelligencePackDefinition) (case : CaseEvidence) : Prop where
  base : Base pack case
  floors : Floors pack case
  measures : MeasuresAvailable pack case
  entities : Confident pack case (consideredSet pack case)

theorem below_eq_empty {κ : Type*} [DecidableEq κ] {minimum : ℚ}
    {distribution : κ → ConfidenceDistribution} {types : Finset κ} :
    below pack minimum distribution types = ∅ ↔
      ∀ type ∈ types, pack.Meets minimum (distribution type) := by
  simp only [below, Finset.filter_eq_empty_iff, not_not]

theorem missingMeasures_eq_empty :
    missingMeasures pack case.index = ∅ ↔ MeasuresAvailable pack case := by
  unfold missingMeasures MeasuresAvailable
  split
  · rename_i h
    exact iff_of_true rfl (.inl h)
  · rename_i h
    rw [Finset.sdiff_eq_empty_iff_subset, or_iff_right h]

theorem canonicalEntities_missing :
    (canonicalEntities pack case.index).1 = ∅ ↔
      ∀ type ∈ consideredSet pack case, case.Present type := by
  unfold canonicalEntities consideredSet
  cases hfirst : presentAlternative pack case.index with
  | none => exact Finset.sdiff_eq_empty_iff_subset
  | some entitySet =>
    have hsubset := List.find?_some hfirst
    exact iff_of_true rfl (of_decide_eq_true hsubset)

theorem canonicalEntities_satisfied (h : ∀ type ∈ consideredSet pack case, case.Present type) :
    (canonicalEntities pack case.index).2 = consideredSet pack case := by
  unfold canonicalEntities consideredSet at *
  cases hfirst : presentAlternative pack case.index with
  | none =>
    rw [hfirst] at h
    exact Finset.inter_eq_left.2 h
  | some entitySet => rfl

/-- Nothing is missing. -/
structure Complete (pack : IntelligencePackDefinition) (case : CaseEvidence) : Prop where
  base : Base pack case
  measures : MeasuresAvailable pack case
  entities : ∀ type ∈ consideredSet pack case, case.Present type

theorem complete_iff : Complete pack case ↔
      pack.isDisabled = false ∧ ¬ (evaluateReadiness pack case.index).Blocking := by
  have hmissing : ∀ {κ : Type} [DecidableEq κ] {required available : Finset κ},
      ¬ (required \ available ≠ ∅) ↔ required ⊆ available := by
    intro κ _ required available
    rw [not_not, Finset.sdiff_eq_empty_iff_subset]
  have hcurrency : (pack.currencyRequired && case.index.currencyUnresolved) = false :=
    Bool.and_false _
  simp only [evaluateReadiness, IntelligenceReadinessResult.Blocking, not_or, hmissing,
    hcurrency, decide_eq_true_eq, not_not, missingMeasures_eq_empty, canonicalEntities_missing]
  constructor
  · rintro ⟨hbase, hmeasures, hentities⟩
    exact ⟨hbase.enabled, hbase.domains, hbase.fields, hbase.entities, hentities,
      hbase.relationships, hbase.activities, hbase.sequences, hbase.states, hmeasures,
      Bool.false_ne_true, hbase.currency, hbase.unit, hbase.trust⟩
  · rintro ⟨henabled, hdomains, hfields, hlinks, hentities, hrelationships, hactivities, hsequences,
      hstates, hmeasures, -, hcurrency, hunit, htrust⟩
    exact ⟨⟨henabled, hdomains, hfields, hlinks, hrelationships, hactivities, hsequences, hstates,
      htrust, hcurrency, hunit⟩, hmeasures, hentities⟩

theorem belowConfidenceThreshold_eq_empty (h : Complete pack case) :
    belowConfidenceThreshold pack case.index = ∅ ↔
      Floors pack case ∧ ∀ type ∈ consideredSet pack case, Clears pack case type := by
  simp only [belowConfidenceThreshold, Finset.union_eq_empty, Finset.image_eq_empty, below_eq_empty,
    canonicalEntities_satisfied h.entities, Finset.inter_eq_left.2 h.base.relationships,
    Finset.inter_eq_left.2 h.base.activities, Finset.inter_eq_left.2 h.base.sequences,
    Finset.inter_eq_left.2 h.base.states]
  constructor
  · rintro ⟨⟨⟨⟨hentities, hrelationships⟩, hactivities⟩, hsequences⟩, hstates⟩
    exact ⟨⟨hrelationships, hactivities, hsequences, hstates⟩, hentities⟩
  · rintro ⟨hfloors, hentities⟩
    exact ⟨⟨⟨⟨hentities, hfloors.relationships⟩, hfloors.activities⟩, hfloors.sequences⟩,
      hfloors.states⟩

theorem status_eq (pack : IntelligencePackDefinition) (index : CaseCapabilityIndex) :
    (evaluateReadiness pack index).status =
      if pack.isDisabled then .disabled
      else if (evaluateReadiness pack index).Blocking then .blocked
      else if belowConfidenceThreshold pack index ≠ ∅ then .partially
      else .ready := rfl

theorem status_of_complete (h : Complete pack case) : (evaluateReadiness pack case.index).status =
      if belowConfidenceThreshold pack case.index ≠ ∅ then .partially else .ready := by
  obtain ⟨henabled, hblocking⟩ := complete_iff.1 h
  rw [status_eq, henabled, if_neg Bool.false_ne_true, if_neg hblocking]

theorem status_of_not_complete (h : ¬ Complete pack case) :
    (evaluateReadiness pack case.index).status = .disabled ∨
      (evaluateReadiness pack case.index).status = .blocked := by
  rw [complete_iff, not_and_or] at h
  rw [status_eq]
  cases henabled : pack.isDisabled with
  | true => exact .inl (if_pos rfl)
  | false =>
    have hblocking := h.resolve_left fun hne => hne henabled
    rw [if_neg Bool.false_ne_true, if_pos (not_not.1 hblocking)]
    exact .inr rfl

/-- The evaluator returns READY exactly if all that it asks for is there. -/
theorem ready_iff : (evaluateReadiness pack case.index).status = .ready ↔ Passes pack case := by
  by_cases hcomplete : Complete pack case
  · rw [status_of_complete hcomplete, ite_not]
    have hbelow := belowConfidenceThreshold_eq_empty hcomplete
    constructor
    · intro hready
      by_cases hempty : belowConfidenceThreshold pack case.index = ∅
      · obtain ⟨hfloors, hclears⟩ := hbelow.1 hempty
        exact ⟨hcomplete.base, hfloors, hcomplete.measures,
          fun type htype => ⟨hcomplete.entities type htype, hclears type htype⟩⟩
      · rw [if_neg hempty] at hready
        cases hready
    · intro hpasses
      exact if_pos (hbelow.2 ⟨hpasses.floors, fun type htype => (hpasses.entities type htype).2⟩)
  · constructor
    · intro hready
      rcases status_of_not_complete hcomplete with h | h <;> rw [h] at hready <;> cases hready
    · intro hpasses
      exact absurd ⟨hpasses.base, hpasses.measures,
        fun type htype => (hpasses.entities type htype).1⟩ hcomplete

theorem partially_iff : (evaluateReadiness pack case.index).status = .partially ↔
      Complete pack case ∧ ¬ Passes pack case := by
  by_cases hcomplete : Complete pack case
  · rw [← ready_iff, status_of_complete hcomplete, and_iff_right hcomplete]
    split <;> simp
  · rw [iff_false_right (fun h => hcomplete h.1)]
    intro h
    rcases status_of_not_complete hcomplete with h' | h' <;> rw [h'] at h <;> cases h

/-! ## Declared sets -/

variable {entitySet : Finset String} {type : String}

theorem mem_entitySets :
    entitySet ∈ pack.entitySets ↔ entitySet ∈ pack.alternativeCanonicalEntitySets ∨
      pack.alternativeCanonicalEntitySets = [] ∧ entitySet = pack.requiredCanonicalEntities := by
  unfold IntelligencePackDefinition.entitySets
  split
  · rename_i hnone
    simp [hnone]
  · rename_i hsome
    simp [hsome]

theorem Accepted.measuresAvailable {measureSet : Finset String}
    (hmem : measureSet ∈ pack.measureSets) (h : Accepted case measureSet) :
    MeasuresAvailable pack case := by
  unfold IntelligencePackDefinition.measureSets at hmem
  split at hmem
  · obtain rfl := mem_singleton.1 hmem
    exact .inr h.1
  · exact .inl ⟨measureSet, hmem, h.1⟩

theorem presentAlternative_isSome : (presentAlternative pack case.index).isSome ↔
      ∃ entitySet ∈ pack.alternativeCanonicalEntitySets,
        entitySet ⊆ case.index.canonicalEntityTypesPresent := by
  unfold presentAlternative
  simp only [List.find?_isSome, decide_eq_true_eq]

theorem Confident.present (h : Confident pack case entitySet) :
    entitySet ⊆ case.index.canonicalEntityTypesPresent :=
  fun type htype => (h type htype).1

theorem consideredSet_of_some (h : presentAlternative pack case.index = some entitySet) :
    consideredSet pack case = entitySet := by
  rw [consideredSet, h, Option.getD_some]

/-- Where some declared set is at the floor, the evaluator looks at a set that is at the floor if
the first alternative that is present is. -/
theorem confident_consideredSet (hmem : entitySet ∈ pack.entitySets)
    (hconfident : Confident pack case entitySet) :
    Confident pack case (consideredSet pack case) ↔
      ∀ first ∈ presentAlternative pack case.index, Confident pack case first := by
  cases hfirst : presentAlternative pack case.index with
  | some first =>
    rw [consideredSet_of_some hfirst]
    simp
  | none =>
    have hnone : ¬ (presentAlternative pack case.index).isSome := by
      rw [hfirst]
      exact Bool.false_ne_true
    refine iff_of_true ?_ fun first h => absurd h (Option.not_mem_none first)
    rcases mem_entitySets.1 hmem with hmem | ⟨-, rfl⟩
    · exact absurd (presentAlternative_isSome.2 ⟨entitySet, hmem, hconfident.present⟩) hnone
    · rw [consideredSet, hfirst]
      exact hconfident

/-! ## Further entities -/

def CaseEvidence.add (case : CaseEvidence) (further : List EntityCandidate) : CaseEvidence :=
  { case with candidates := case.candidates ++ further }

variable {further : List EntityCandidate}

theorem Base.add (h : Base pack case) : Base pack (case.add further) :=
  ⟨h.enabled, h.domains, h.fields, h.entities, h.relationships, h.activities, h.sequences, h.states,
    h.trust, h.currency, h.unit⟩

theorem Floors.add (h : Floors pack case) : Floors pack (case.add further) :=
  ⟨h.relationships, h.activities, h.sequences, h.states⟩

theorem MeasuresAvailable.add (h : MeasuresAvailable pack case) :
    MeasuresAvailable pack (case.add further) := h

def confidencesOf (candidates : List EntityCandidate) (type : String) : List ℚ :=
  (candidates.filter (·.entityType = type)).map (·.entityIdentityConfidence)

theorem present_iff : case.Present type ↔ ∃ c ∈ case.candidates, c.entityType = type := by
  show type ∈ (case.entityRows.map (·.1)).toFinset ↔ _
  rw [mem_toFinset, CaseEvidence.entityRows, map_map, mem_map]
  rfl

theorem values_eq (type : String) :
    (case.index.canonicalEntityIdentityConfidenceByType type).values =
      confidencesOf case.candidates type := by
  show (group (·.1) case.entityRows type).map (·.2) = _
  rw [CaseEvidence.entityRows, group, filter_map, map_map]
  rfl

theorem distribution_add (type : String) :
    (case.add further).index.canonicalEntityIdentityConfidenceByType type =
      ⟨(case.index.canonicalEntityIdentityConfidenceByType type).values ++
        confidencesOf further type⟩ := by
  have happend : confidencesOf (case.candidates ++ further) type =
      confidencesOf case.candidates type ++ confidencesOf further type := by
    rw [confidencesOf, filter_append, map_append]
    rfl
  have hvalues : ((case.add further).index.canonicalEntityIdentityConfidenceByType type).values =
      confidencesOf (case.candidates ++ further) type := values_eq type
  rw [values_eq, ← happend, ← hvalues]

theorem CaseEvidence.Present.add (h : case.Present type) : (case.add further).Present type := by
  rw [present_iff] at h ⊢
  obtain ⟨c, hc, htype⟩ := h
  exact ⟨c, mem_append_left _ hc, htype⟩

/-- Entities of other types do not count. -/
theorem Confident.add (h : Confident pack case entitySet)
    (hother : ∀ c ∈ further, c.entityType ∉ entitySet) :
    Confident pack (case.add further) entitySet := by
  intro type htype
  obtain ⟨hpresent, hclears⟩ := h type htype
  refine ⟨hpresent.add, ?_⟩
  have hnone : confidencesOf further type = [] := by
    rw [confidencesOf, map_eq_nil_iff, filter_eq_nil_iff]
    intro c hc heq
    exact hother c hc (of_decide_eq_true heq ▸ htype)
  rw [Clears, distribution_add, hnone, append_nil]
  exact hclears

theorem Confident.add_of_max (h : Confident pack case entitySet)
    (hmax : pack.confidenceAggregationPolicy = .max) :
    Confident pack (case.add further) entitySet := by
  intro type htype
  obtain ⟨hpresent, hclears⟩ := h type htype
  refine ⟨hpresent.add, ?_⟩
  rw [Clears, IntelligencePackDefinition.Meets, hmax] at hclears ⊢
  rw [distribution_add]
  exact meetsConfidence_max_append hclears _

theorem consideredSet_of_head {first : Finset String}
    (hfirst : first ∈ pack.alternativeCanonicalEntitySets.head?)
    (hpresent : first ⊆ case.index.canonicalEntityTypesPresent) :
    consideredSet pack case = first := by
  apply consideredSet_of_some
  obtain ⟨rest, hrest⟩ := List.head?_eq_some_iff.1 hfirst
  rw [presentAlternative, hrest]
  exact List.find?_cons_of_pos (decide_eq_true hpresent)

/-! ## Undisturbed cases -/

/-- Further entities are all of a declared type that a set does not have. -/
def OfOtherTypes (pack : IntelligencePackDefinition) (entitySet : Finset String)
    (further : List EntityCandidate) : Prop :=
  ∀ c ∈ further, c.entityType ∉ entitySet ∧ ∃ other ∈ pack.entitySets, c.entityType ∈ other

/-- No entities of other declared types can disturb a case: every population meets the floor, or the
first alternative is at the floor by the highest confidence, or it is part of all that is. -/
def Undisturbed (pack : IntelligencePackDefinition) (case : CaseEvidence) : Prop :=
  TrivialFloor pack.minimumEntityIdentityConfidence pack.confidenceAggregationPolicy
    pack.minimumCoverageRatio ∨
  ∀ first ∈ pack.alternativeCanonicalEntitySets.head?,
    pack.confidenceAggregationPolicy = .max ∧ Confident pack case first ∨
    ∀ entitySet ∈ pack.entitySets, Confident pack case entitySet → first ⊆ entitySet

theorem Undisturbed.not_partially (h : Undisturbed pack case) (hpasses : Passes pack case)
    (hmem : entitySet ∈ pack.entitySets) (hconfident : Confident pack case entitySet)
    (hother : OfOtherTypes pack entitySet further) :
    (evaluateReadiness pack (case.add further).index).status ≠ .partially := by
  intro hpartially
  obtain ⟨hcomplete, hfails⟩ := partially_iff.1 hpartially
  refine hfails ⟨hcomplete.base, hpasses.floors.add, hcomplete.measures, ?_⟩
  rcases h with htrivial | h
  · exact fun type htype => ⟨hcomplete.entities type htype, htrivial.meets _⟩
  · have hkept := hconfident.add fun c hc => (hother c hc).1
    cases hhead : pack.alternativeCanonicalEntitySets.head? with
    | none =>
      -- Only the required set is declared.
      have hnil := List.head?_eq_none_iff.1 hhead
      have hrequired : entitySet = pack.requiredCanonicalEntities := by
        rcases mem_entitySets.1 hmem with hmem | ⟨-, rfl⟩
        · rw [hnil] at hmem
          cases hmem
        · rfl
      rw [consideredSet, presentAlternative, hnil, ← hrequired]
      exact hkept
    | some first =>
      have hfirst : Confident pack (case.add further) first := by
        rcases h first hhead with ⟨hmax, hconfident⟩ | hsubset
        · exact hconfident.add_of_max hmax
        · exact fun type htype => hkept type (hsubset entitySet hmem hconfident htype)
      rw [consideredSet_of_head hhead hfirst.present]
      exact hfirst

theorem no_confidence : (0 : ℚ) ≤ 0 := le_refl 0

theorem single_observation (type : String) :
    [(⟨"", type, "", "", 0⟩ : EntityObservation)] ≠ [] := cons_ne_nil _ _

/-- An entity that one observation shows, with no confidence in its identity. -/
def faint (type : String) : EntityCandidate where
  entityType := type
  normalizedKey := ""
  displayLabel := ""
  resolutionMethod := .normalized
  observations := [⟨"", type, "", "", 0⟩]
  entityTypeConfidence := 0
  entityIdentityConfidence := 0
  observed := single_observation type
  confident := no_confidence

/-- Many faint entities of one type, and one of each other type of a set. -/
def faintOf (types : List String) (type : String) (n : ℕ) : List EntityCandidate :=
  List.replicate n (faint type) ++ (types.filter (· ≠ type)).map faint

theorem mem_faintOf {types : List String} {n : ℕ} {c : EntityCandidate} (hmem : type ∈ types)
    (h : c ∈ faintOf types type n) : c.entityType ∈ types := by
  rcases mem_append.1 h with h | h
  · rw [eq_of_mem_replicate h]
    exact hmem
  · obtain ⟨other, hother, rfl⟩ := mem_map.1 h
    exact (mem_filter.1 hother).1

theorem exists_mem_faintOf {types : List String} {other : String} {n : ℕ} (hn : 0 < n)
    (hmem : other ∈ types) : ∃ c ∈ faintOf types type n, c.entityType = other := by
  by_cases heq : other = type
  · rw [heq]
    exact ⟨faint type, mem_append_left _ (mem_replicate.2 ⟨hn.ne', rfl⟩), rfl⟩
  · refine ⟨faint other, mem_append_right _ (mem_map_of_mem ?_), rfl⟩
    exact mem_filter.2 ⟨hmem, decide_eq_true heq⟩

theorem confidencesOf_faintOf (types : List String) (type : String) (n : ℕ) :
    confidencesOf (faintOf types type n) type = List.replicate n 0 := by
  have hothers : ((types.filter (· ≠ type)).map faint).filter (·.entityType = type) = [] := by
    rw [filter_eq_nil_iff]
    intro c hc heq
    obtain ⟨other, hother, rfl⟩ := mem_map.1 hc
    exact of_decide_eq_true (mem_filter.1 hother).2 (of_decide_eq_true heq)
  have hown : (List.replicate n (faint type)).filter (·.entityType = type) =
      List.replicate n (faint type) := by
    rw [filter_eq_self]
    intro c hc
    rw [eq_of_mem_replicate hc]
    exact decide_eq_true rfl
  rw [confidencesOf, faintOf, filter_append, hothers, hown, append_nil, map_replicate]
  rfl

theorem exists_dilutable {first : Finset String}
    (hfloor : 0 < pack.minimumEntityIdentityConfidence)
    (hmax : ¬ (pack.confidenceAggregationPolicy = .max ∧ Confident pack case first))
    (hconfident : Confident pack case entitySet) (hsubset : ¬ first ⊆ entitySet) :
    ∃ type ∈ first, type ∉ entitySet ∧ (pack.confidenceAggregationPolicy = .max →
      ¬ meetsConfidence (case.index.canonicalEntityIdentityConfidenceByType type)
        pack.minimumEntityIdentityConfidence .max pack.minimumCoverageRatio) := by
  by_cases hpolicy : pack.confidenceAggregationPolicy = .max
  · have hfirst : ¬ Confident pack case first := fun h => hmax ⟨hpolicy, h⟩
    simp only [Confident, not_forall] at hfirst
    obtain ⟨type, htype, hfails⟩ := hfirst
    refine ⟨type, htype, fun h => hfails (hconfident type h), fun _ hmeets => ?_⟩
    have hclears : Clears pack case type := by
      rw [Clears, IntelligencePackDefinition.Meets, hpolicy]
      exact hmeets
    refine hfails ⟨?_, hclears⟩
    obtain ⟨v, hv, -⟩ := (meetsConfidence_max.1 hmeets).resolve_left (not_le.2 hfloor)
    rw [values_eq] at hv
    obtain ⟨c, hc, -⟩ := mem_map.1 hv
    obtain ⟨hmem, heq⟩ := mem_filter.1 hc
    exact present_iff.2 ⟨c, hmem, of_decide_eq_true heq⟩
  · obtain ⟨type, htype, hother⟩ := Finset.not_subset.1 hsubset
    exact ⟨type, htype, hother, fun h => absurd h hpolicy⟩

theorem exists_partially (hpasses : Passes pack case) (h : ¬ Undisturbed pack case) :
    ∃ entitySet ∈ pack.entitySets, Confident pack case entitySet ∧
      ∃ further, OfOtherTypes pack entitySet further ∧
        (evaluateReadiness pack (case.add further).index).status = .partially := by
  obtain ⟨hfloor, h⟩ := not_or.1 h
  simp only [not_forall, not_or] at h
  obtain ⟨first, hhead, hmax, entitySet, hmem, hconfident, hsubset⟩ := h
  have hminimum : 0 < pack.minimumEntityIdentityConfidence := not_le.1 fun hle => hfloor (.inl hle)
  obtain ⟨type, htype, hother, hdilutable⟩ := exists_dilutable hminimum hmax hconfident hsubset
  obtain ⟨n, hn, hdiluted⟩ := diluted hfloor hdilutable
  have hdeclared : first ∈ pack.entitySets := mem_entitySets.2 (.inl (mem_of_mem_head? hhead))
  -- One entity of each type that the first alternative lacks, and enough of one of them.
  have hmissing : type ∈ (first \ entitySet).toList :=
    Finset.mem_toList.2 (Finset.mem_sdiff.2 ⟨htype, hother⟩)
  refine ⟨entitySet, hmem, hconfident, faintOf (first \ entitySet).toList type n, ?_, ?_⟩
  · intro c hc
    obtain ⟨hin, hout⟩ := Finset.mem_sdiff.1 (Finset.mem_toList.1 (mem_faintOf hmissing hc))
    exact ⟨hout, first, hdeclared, hin⟩
  · have hpresent : ∀ other ∈ first,
        (case.add (faintOf (first \ entitySet).toList type n)).Present other := by
      intro other hmem
      by_cases hin : other ∈ entitySet
      · exact (hconfident other hin).1.add
      · have hlist : other ∈ (first \ entitySet).toList :=
          Finset.mem_toList.2 (Finset.mem_sdiff.2 ⟨hmem, hin⟩)
        obtain ⟨c, hc, heq⟩ := exists_mem_faintOf hn hlist
        exact present_iff.2 ⟨c, mem_append_right _ hc, heq⟩
    have hconsidered := consideredSet_of_head hhead hpresent
    refine partially_iff.2 ⟨⟨hpasses.base.add, hpasses.measures.add, ?_⟩, ?_⟩
    · rw [hconsidered]
      exact hpresent
    · intro hstill
      have hconfident := hstill.entities
      rw [hconsidered] at hconfident
      have hclears := (hconfident type htype).2
      rw [Clears, distribution_add, confidencesOf_faintOf] at hclears
      exact hdiluted hclears

/-! ## Eligible entities -/

theorem eligible_iff (hmax : pack.confidenceAggregationPolicy = .max) (type : String) :
    (eligibleEntityKeys case.candidates type pack.minimumEntityIdentityConfidence).Nonempty ↔
      case.Present type ∧ Clears pack case type := by
  rw [eligibleEntityKeys_nonempty, present_iff, Clears, IntelligencePackDefinition.Meets, hmax,
    meetsConfidence_max, values_eq]
  constructor
  · rintro ⟨c, hc, rfl, hminimum⟩
    refine ⟨⟨c, hc, rfl⟩, .inr ⟨c.entityIdentityConfidence, ?_, hminimum⟩⟩
    exact mem_map_of_mem (mem_filter.2 ⟨hc, decide_eq_true rfl⟩)
  · rintro ⟨⟨c, hc, htype⟩, hminimum | ⟨v, hv, hminimum⟩⟩
    · exact ⟨c, hc, htype, hminimum.trans c.confident⟩
    · obtain ⟨c, hc, rfl⟩ := mem_map.1 hv
      obtain ⟨hmem, htype⟩ := mem_filter.1 hc
      exact ⟨c, hmem, of_decide_eq_true htype, hminimum⟩

/-! ## When readiness agrees with what can execute -/

/-- Readiness agrees with what can execute. -/
structure GovernedReadiness (pack : IntelligencePackDefinition) (case : CaseEvidence) : Prop where
  /-- READY is the criterion. -/
  ready : (evaluateReadiness pack case.index).status = .ready ↔ Criterion pack case
  /-- Where an entity set is at the floor, entities of other declared types do not turn READY into
  PARTIAL. -/
  stable : (evaluateReadiness pack case.index).status = .ready →
    ∀ entitySet ∈ pack.entitySets, Confident pack case entitySet →
      ∀ further, OfOtherTypes pack entitySet further →
        (evaluateReadiness pack (case.add further).index).status ≠ .partially
  /-- READY by the highest confidence means that a rule has some entity to take. -/
  eligible : pack.confidenceAggregationPolicy = .max →
    (evaluateReadiness pack case.index).status = .ready →
    (∃ entitySet ∈ pack.entitySets, entitySet.Nonempty) →
      ∃ entitySet ∈ pack.entitySets, ∃ type ∈ entitySet,
        (eligibleEntityKeys case.candidates type pack.minimumEntityIdentityConfidence).Nonempty

/-- The evidence of a case leaves the evaluator's shortcuts without effect. -/
structure Aligned (pack : IntelligencePackDefinition) (case : CaseEvidence) : Prop where
  /-- The first alternative that is present is at the floor, and the other floors are met. -/
  first : Criterion pack case → Floors pack case ∧
    ∀ entitySet ∈ presentAlternative pack case.index, Confident pack case entitySet
  /-- The required set does not stand in for an alternative, and a measure set is accepted. -/
  declared : Passes pack case →
    (pack.alternativeCanonicalEntitySets ≠ [] → (presentAlternative pack case.index).isSome) ∧
      ∃ measureSet ∈ pack.measureSets, Accepted case measureSet
  undisturbed : Passes pack case → Undisturbed pack case
  /-- An empty entity set does not stand in for one with types. -/
  subject : pack.confidenceAggregationPolicy = .max → Passes pack case →
    (∃ entitySet ∈ pack.entitySets, entitySet.Nonempty) →
      ∃ entitySet ∈ pack.entitySets, ∃ type ∈ entitySet, case.Present type ∧ Clears pack case type

theorem passes_iff_criterion : (Passes pack case ↔ Criterion pack case) ↔
      (Criterion pack case → Floors pack case ∧
        ∀ entitySet ∈ presentAlternative pack case.index, Confident pack case entitySet) ∧
      (Passes pack case →
        (pack.alternativeCanonicalEntitySets ≠ [] → (presentAlternative pack case.index).isSome) ∧
        ∃ measureSet ∈ pack.measureSets, Accepted case measureSet) := by
  constructor
  · intro hiff
    constructor
    · intro hcriterion
      have hpasses := hiff.2 hcriterion
      obtain ⟨entitySet, hmem, hconfident⟩ := hcriterion.entities
      exact ⟨hpasses.floors, (confident_consideredSet hmem hconfident).1 hpasses.entities⟩
    · intro hpasses
      have hcriterion := hiff.1 hpasses
      refine ⟨fun hsome => ?_, hcriterion.measures⟩
      obtain ⟨entitySet, hmem, hconfident⟩ := hcriterion.entities
      rcases mem_entitySets.1 hmem with hmem | ⟨hnone, -⟩
      · exact presentAlternative_isSome.2 ⟨entitySet, hmem, hconfident.present⟩
      · exact absurd hnone hsome
  · rintro ⟨hfirst, hdeclared⟩
    constructor
    · intro hpasses
      obtain ⟨hpresent, hmeasures⟩ := hdeclared hpasses
      refine ⟨hpasses.base, hmeasures, consideredSet pack case, mem_entitySets.2 ?_,
        hpasses.entities⟩
      by_cases hnone : pack.alternativeCanonicalEntitySets = []
      · refine .inr ⟨hnone, ?_⟩
        rw [consideredSet, presentAlternative, hnone]
        rfl
      · obtain ⟨entitySet, hsome⟩ := Option.isSome_iff_exists.1 (hpresent hnone)
        rw [consideredSet_of_some hsome]
        exact .inl (mem_of_find?_eq_some hsome)
    · intro hcriterion
      obtain ⟨hfloors, hconfident⟩ := hfirst hcriterion
      obtain ⟨measureSet, hmeasures, haccepted⟩ := hcriterion.measures
      obtain ⟨entitySet, hmem, hentities⟩ := hcriterion.entities
      exact ⟨hcriterion.base, hfloors, haccepted.measuresAvailable hmeasures,
        (confident_consideredSet hmem hentities).2 hconfident⟩

/-- Readiness agrees with what can execute exactly if the shortcuts are without effect. -/
theorem governedReadiness_iff (pack : IntelligencePackDefinition) (case : CaseEvidence) :
    GovernedReadiness pack case ↔ Aligned pack case := by
  constructor
  · rintro ⟨hready, hstable, heligible⟩
    simp only [ready_iff] at hready hstable heligible
    obtain ⟨hfirst, hdeclared⟩ := passes_iff_criterion.1 hready
    refine ⟨hfirst, hdeclared, fun hpasses => ?_, fun hmax hpasses htypes => ?_⟩
    · by_contra hdisturbed
      obtain ⟨entitySet, hmem, hconfident, further, hother, hpartially⟩ :=
        exists_partially hpasses hdisturbed
      exact hstable hpasses entitySet hmem hconfident further hother hpartially
    · obtain ⟨entitySet, hmem, type, htype, hkeys⟩ := heligible hmax hpasses htypes
      exact ⟨entitySet, hmem, type, htype, (eligible_iff hmax type).1 hkeys⟩
  · rintro ⟨hfirst, hdeclared, hundisturbed, hsubject⟩
    have hready := passes_iff_criterion.2 ⟨hfirst, hdeclared⟩
    refine ⟨ready_iff.trans hready, fun hpasses => ?_, fun hmax hpasses htypes => ?_⟩
    · rw [ready_iff] at hpasses
      intro entitySet hmem hconfident further hother
      exact (hundisturbed hpasses).not_partially hpasses hmem hconfident hother
    · rw [ready_iff] at hpasses
      obtain ⟨entitySet, hmem, type, htype, hclears⟩ := hsubject hmax hpasses htypes
      exact ⟨entitySet, hmem, type, htype, (eligible_iff hmax type).2 hclears⟩

namespace UnconfirmedWorkOrder

/-- `REVENUE-AMOUNT-VARIANCE` -/
def revenueAmountVariance : IntelligencePackDefinition where
  ruleCode := "REVENUE-AMOUNT-VARIANCE"
  requiredCanonicalEntities := {"WORK_ORDER"}
  alternativeCanonicalEntitySets := [{"WORK_ORDER"}, {"CONTRACT"}]
  minimumEntityIdentityConfidence := 70 / 100
  confidenceAggregationPolicy := .max
  requiredCanonicalMeasures := {"quantity", "unit_price"}
  alternativeCanonicalMeasureSets :=
    [{"quantity", "unit_price"}, {"duration_hours", "hourly_rate"},
      {"event_timestamp", "completed_timestamp", "unit_price"},
      {"event_timestamp", "completed_timestamp", "hourly_rate"}]
  currencyBehavior := .currencyAgnostic
  unitBehavior := .unitAware

/-- A contract that two datasets show, a work order that one shows, and accepted measures. -/
def evidence : CaseEvidence where
  candidates := deduplicate
    [⟨"usage", "CONTRACT", "C-1", "c-1", 95 / 100⟩, ⟨"usage", "WORK_ORDER", "W-1", "w-1", 95 / 100⟩,
      ⟨"invoices", "CONTRACT", "C-1", "c-1", 95 / 100⟩]
  datasets :=
    [⟨[⟨some "quantity", 95 / 100, .autoAccepted⟩, ⟨some "unit_price", 95 / 100, .autoAccepted⟩],
      none⟩]
  conceptType := fun code =>
    if code = "quantity" then some .quantity
    else if code = "unit_price" then some .monetaryAmount else none

theorem evidence_base : Base revenueAmountVariance evidence where
  enabled := rfl
  domains := Finset.empty_subset _
  fields := Finset.empty_subset _
  entities := Finset.empty_subset _
  relationships := Finset.empty_subset _
  activities := Finset.empty_subset _
  sequences := Finset.empty_subset _
  states := Finset.empty_subset _
  trust := Finset.empty_subset _
  currency := by decide
  unit := by decide

/-- The contract can be billed, but the evaluator looks at the work order. -/
theorem contract_shadowed : ¬ GovernedReadiness revenueAmountVariance evidence := by
  intro h
  have hmeasures : Accepted evidence {"quantity", "unit_price"} := by
    refine ⟨by decide +kernel, fun code hcode => ?_⟩
    refine ⟨_, mem_singleton_self _, ?_⟩
    rcases Finset.mem_insert.1 hcode with rfl | hcode
    · exact ⟨_, mem_cons_self, rfl, rfl⟩
    · obtain rfl := Finset.mem_singleton.1 hcode
      exact ⟨_, mem_cons_of_mem _ mem_cons_self, rfl, rfl⟩
  have hcontract : Confident revenueAmountVariance evidence {"CONTRACT"} := by
    intro type htype
    obtain rfl := Finset.mem_singleton.1 htype
    exact ⟨by decide +kernel, by decide +kernel⟩
  have hcriterion : Criterion revenueAmountVariance evidence :=
    ⟨evidence_base, ⟨_, mem_cons_self, hmeasures⟩, ⟨_, mem_cons_of_mem _ mem_cons_self, hcontract⟩⟩
  have hpartially :
      (evaluateReadiness revenueAmountVariance evidence.index).status = .partially := by
    decide +kernel
  rw [h.ready.2 hcriterion] at hpartially
  cases hpartially

end UnconfirmedWorkOrder

end Intel4Ops.Readiness
