import Intel4Ops.Entities.Candidates
import Intel4Ops.Revenue.Rates

/-!
# Entity resolution

The identifiers of a case's frames become observations, under a text in which case and blanks do not
count, and the observations become candidates. A candidate has the spelling that was observed first,
and its confidence counts the datasets that show it. A dataset more never lowers it, a second
spelling does.
-/

namespace Intel4Ops.Entities

open Lib List
open Revenue (DataFrame Row)

/-! ## Identifiers -/

/-- What pandas and the standard library make of cells and texts that identify an entity. -/
structure Spelling (Cell : Type) extends Revenue.Env Cell where
  casefold : String → String
  /-- `str.split` without arguments -/
  split : String → List String
  notna_of_blank : ∀ cell, blank cell = true → notna cell = false
  strip_strip : ∀ text, strip (strip text) = strip text

section Resolution

variable {Cell : Type} (env : Spelling Cell)

/-- `normalize_identifier` -/
def normalizeIdentifier (text : String) : String :=
  " ".intercalate (env.split (env.casefold (env.strip text)))

/-- The normalized identifier that a cell writes, if it is not empty. -/
def identifier (cell : Cell) : Option String :=
  let key := normalizeIdentifier env (env.str cell)
  if env.notna cell = true ∧ key ≠ "" then some key else none

/-! ## Observations -/

/-- A decision about a field: the type of the entities that its effective concept identifies. -/
structure FieldDecision where
  sourceField : String
  entityType : Option String
  confidence : ℚ

/-- `CaseDatasetEntityInput`, less its label. -/
structure CaseDatasetEntityInput (Cell : Type) where
  analysisCaseDatasetId : String
  decisions : List FieldDecision
  rawDataframe : DataFrame Cell

/-- The observation of an identifier as it is spelled in a dataset. -/
def observation (input : CaseDatasetEntityInput Cell) (decision : FieldDecision)
    (entityType rawValue : String) : EntityObservation where
  analysisCaseDatasetId := input.analysisCaseDatasetId
  entityType
  rawValue
  normalizedValue := normalizeIdentifier env rawValue
  semanticConfidence := decision.confidence

/-- The spellings in a column, each once. -/
def spellings (frame : DataFrame Cell) (field : String) : List String :=
  firsts (((frame.rows.map (·.cell field)).filter (env.notna ·)).map env.str)

/-- `_observations_for_dataset` -/
def observationsForDataset (input : CaseDatasetEntityInput Cell) : List EntityObservation :=
  input.decisions.flatMap fun decision =>
    match decision.entityType with
    | none => []
    | some entityType =>
      if decision.sourceField ∈ input.rawDataframe.columns then
        ((spellings env input.rawDataframe decision.sourceField).map
          (observation env input decision entityType)).filter (·.normalizedValue ≠ "")
      else []

def observationsOfCase (inputs : List (CaseDatasetEntityInput Cell)) : List EntityObservation :=
  inputs.flatMap (observationsForDataset env)

/-- `resolve_entities_for_case` -/
def resolveEntitiesForCase (inputs : List (CaseDatasetEntityInput Cell)) : List EntityCandidate :=
  deduplicate (observationsOfCase env inputs)

variable {env} {input : CaseDatasetEntityInput Cell}
  {inputs : List (CaseDatasetEntityInput Cell)} {o : EntityObservation} {key : String}

theorem identifier_eq_some {cell : Cell} : identifier env cell = some key ↔
      env.notna cell = true ∧ key ≠ "" ∧ normalizeIdentifier env (env.str cell) = key := by
  simp only [identifier]
  constructor
  · intro h
    split at h
    · rename_i hkey
      cases h
      exact ⟨hkey.1, hkey.2, rfl⟩
    · cases h
  · rintro ⟨hnotna, hne, rfl⟩
    exact if_pos ⟨hnotna, hne⟩

theorem mem_spellings {frame : DataFrame Cell} {field text : String} :
    text ∈ spellings env frame field ↔
      ∃ row ∈ frame.rows, env.notna (row.cell field) = true ∧ env.str (row.cell field) = text := by
  simp only [spellings, mem_firsts, mem_map, mem_filter]
  constructor
  · rintro ⟨cell, ⟨⟨row, hrow, rfl⟩, hnotna⟩, htext⟩
    exact ⟨row, hrow, hnotna, htext⟩
  · rintro ⟨row, hrow, hnotna, htext⟩
    exact ⟨_, ⟨⟨row, hrow, rfl⟩, hnotna⟩, htext⟩

/-- A dataset writes an identifier of a type with a spelling, in a field of a decision. -/
structure Writes (env : Spelling Cell) (input : CaseDatasetEntityInput Cell)
    (decision : FieldDecision) (entityType text : String) : Prop where
  decided : decision ∈ input.decisions
  typed : decision.entityType = some entityType
  column : decision.sourceField ∈ input.rawDataframe.columns
  row : ∃ row ∈ input.rawDataframe.rows, env.notna (row.cell decision.sourceField) = true ∧
    env.str (row.cell decision.sourceField) = text

theorem mem_observationsForDataset : o ∈ observationsForDataset env input ↔ o.normalizedValue ≠ "" ∧
      ∃ decision entityType text, Writes env input decision entityType text ∧
        o = observation env input decision entityType text := by
  simp only [observationsForDataset, mem_flatMap]
  constructor
  · rintro ⟨decision, hdecision, ho⟩
    split at ho
    · cases ho
    · rename_i entityType htype
      split at ho
      · rename_i hcolumn
        obtain ⟨hmem, hne⟩ := mem_filter.1 ho
        obtain ⟨text, htext, rfl⟩ := mem_map.1 hmem
        refine ⟨by simpa using hne, decision, entityType, text, ?_, rfl⟩
        exact ⟨hdecision, htype, hcolumn, mem_spellings.1 htext⟩
      · cases ho
  · rintro ⟨hne, decision, entityType, text, hwrites, rfl⟩
    refine ⟨decision, hwrites.decided, ?_⟩
    rw [hwrites.typed]
    show _ ∈ if _ then _ else _
    rw [if_pos hwrites.column]
    refine mem_filter.2 ⟨mem_map.2 ⟨text, mem_spellings.2 hwrites.row, rfl⟩, ?_⟩
    simpa using hne

theorem normalizedValue_eq (h : o ∈ observationsOfCase env inputs) :
    o.normalizedValue = normalizeIdentifier env o.rawValue ∧ o.normalizedValue ≠ "" := by
  obtain ⟨input, -, ho⟩ := mem_flatMap.1 h
  obtain ⟨hne, decision, entityType, text, -, rfl⟩ := mem_observationsForDataset.1 ho
  exact ⟨rfl, hne⟩

/-- A dataset shows an entity: in a field of its type, a cell has its identifier. -/
def Shows (env : Spelling Cell) (input : CaseDatasetEntityInput Cell) (entity : String × String) :
    Prop :=
  ∃ decision ∈ input.decisions, decision.entityType = some entity.1 ∧
    decision.sourceField ∈ input.rawDataframe.columns ∧
      ∃ row ∈ input.rawDataframe.rows, identifier env (row.cell decision.sourceField) = some entity.2

theorem exists_observation_iff {id : String} {entity : String × String} :
    (∃ o ∈ observationsOfCase env inputs, o.key = entity ∧ o.analysisCaseDatasetId = id) ↔
      ∃ input ∈ inputs, input.analysisCaseDatasetId = id ∧ Shows env input entity := by
  constructor
  · rintro ⟨o, ho, rfl, rfl⟩
    obtain ⟨input, hinput, ho⟩ := mem_flatMap.1 ho
    obtain ⟨hne, decision, entityType, text, hwrites, rfl⟩ := mem_observationsForDataset.1 ho
    obtain ⟨row, hrow, hnotna, rfl⟩ := hwrites.row
    refine ⟨input, hinput, rfl, decision, hwrites.decided, hwrites.typed, hwrites.column, row,
      hrow, ?_⟩
    exact identifier_eq_some.2 ⟨hnotna, hne, rfl⟩
  · rintro ⟨input, hinput, rfl, decision, hdecision, htype, hcolumn, row, hrow, hkey⟩
    obtain ⟨hnotna, hne, hkey⟩ := identifier_eq_some.1 hkey
    let o := observation env input decision entity.1 (env.str (row.cell decision.sourceField))
    have ho : o ∈ observationsForDataset env input := by
      refine mem_observationsForDataset.2
        ⟨fun hempty => hne (hkey ▸ hempty), decision, entity.1, _, ?_, rfl⟩
      exact ⟨hdecision, htype, hcolumn, row, hrow, hnotna, rfl⟩
    exact ⟨o, mem_flatMap.2 ⟨input, hinput, ho⟩, Prod.ext rfl hkey, rfl⟩

end Resolution

/-! ## Candidates -/

section Candidates

variable {observations : List EntityObservation} {c c' : EntityCandidate}

/-- The type and the normalized identifier of a candidate. -/
def EntityCandidate.key (c : EntityCandidate) : String × String := (c.entityType, c.normalizedKey)

def firstSpelling (observations : List EntityObservation) (entity : String × String) :
    Option String :=
  (observations.find? (·.key = entity)).map (·.rawValue)

theorem group_valid {entity : String × String} (h : entity.2 ≠ "") :
    group (·.key) (observations.filter (·.normalizedValue ≠ "")) entity =
      group (·.key) observations entity := by
  rw [group, filter_filter]
  refine filter_congr fun o _ => ?_
  have hvalid : o.key = entity → o.normalizedValue ≠ "" := fun hkey => by
    rw [← hkey] at h
    exact h
  by_cases hkey : o.key = entity <;> simp [hkey, hvalid]

theorem mem_deduplicate : c ∈ deduplicate observations ↔ c.normalizedKey ≠ "" ∧
      ∃ first rest, group (·.key) observations c.key = first :: rest ∧ c = candidateOf first rest := by
  simp only [deduplicate, mem_filterMap]
  constructor
  · rintro ⟨key, -, hc⟩
    split at hc
    · cases hc
    · rename_i first rest hgroup
      cases hc
      obtain ⟨hfirst, hkey⟩ := mem_group.1 (hgroup.symm ▸ mem_cons_self)
      have hne : first.normalizedValue ≠ "" := of_decide_eq_true (mem_filter.1 hfirst).2
      refine ⟨hne, first, rest, ?_, rfl⟩
      rw [← hkey, group_valid hne] at hgroup
      exact hgroup
  · rintro ⟨hne, first, rest, hgroup, rfl⟩
    rw [← group_valid hne] at hgroup
    refine ⟨_, mem_firsts.2 (group_ne_nil.1 ?_), by rw [hgroup]⟩
    rw [hgroup]
    exact cons_ne_nil _ _

theorem exists_candidate {o : EntityObservation} (ho : o ∈ observations)
    (hne : o.normalizedValue ≠ "") : ∃ c ∈ deduplicate observations, c.key = o.key := by
  have hmem : o ∈ group (·.key) observations o.key := mem_group.2 ⟨ho, rfl⟩
  obtain ⟨first, rest, hgroup⟩ := exists_cons_of_ne_nil (ne_nil_of_mem hmem)
  have hkey : (candidateOf first rest).key = o.key :=
    (mem_group.1 (hgroup.symm ▸ mem_cons_self : first ∈ group (·.key) observations o.key)).2
  have hvalid : (candidateOf first rest).normalizedKey ≠ "" := fun h =>
    hne ((congrArg Prod.snd hkey).symm.trans h)
  exact ⟨_, mem_deduplicate.2 ⟨hvalid, first, rest, hkey.symm ▸ hgroup, rfl⟩, hkey⟩

theorem observations_eq (hc : c ∈ deduplicate observations) :
    c.observations = group (·.key) observations c.key := by
  obtain ⟨-, first, rest, hgroup, heq⟩ := mem_deduplicate.1 hc
  rw [hgroup, heq]
  rfl

theorem firstSpelling_key (hc : c ∈ deduplicate observations) :
    firstSpelling observations c.key = some c.displayLabel := by
  obtain ⟨-, first, rest, hgroup, heq⟩ := mem_deduplicate.1 hc
  have hfirst : observations.find? (·.key = c.key) = some first := by
    rw [← List.head?_filter]
    exact congrArg List.head? hgroup
  rw [firstSpelling, hfirst, heq]
  rfl

theorem length_firsts {ids : List String} : (firsts ids).length = ids.toFinset.card := by
  rw [← toFinset_card_of_nodup (nodup_firsts ids)]
  congr 1
  ext id
  rw [mem_toFinset, mem_toFinset, mem_firsts]

theorem entityIdentityConfidence_eq (hc : c ∈ deduplicate observations) :
    c.entityIdentityConfidence = c.resolutionMethod.identityConfidence
      (c.observations.map (·.analysisCaseDatasetId)).toFinset.card := by
  obtain ⟨-, first, rest, hgroup, heq⟩ := mem_deduplicate.1 hc
  rw [heq, ← length_firsts]
  rfl

end Candidates

/-! ## Corroboration -/

theorem ResolutionTier.identityConfidence_mono (tier : ResolutionTier) {n m : ℕ} (h : n ≤ m) :
    tier.identityConfidence n ≤ tier.identityConfidence m := by
  have hstep : 0 ≤ tier.step := by cases tier <;> norm_num [step]
  have hcount : ((n - 1 : ℕ) : ℚ) ≤ (m - 1 : ℕ) := by exact_mod_cast Nat.sub_le_sub_right h 1
  apply Decimal.Rounding.places_mono
  exact min_le_min_right _ (by gcongr)

theorem ResolutionTier.identityConfidence_bounds (tier : ResolutionTier) (n : ℕ) :
    45 / 100 ≤ tier.identityConfidence n ∧ tier.identityConfidence n ≤ 99 / 100 := by
  have hlow : 45 / 100 ≤ tier.identityConfidence 0 := by cases tier <;> decide +kernel
  have hcap : Decimal.halfEven.places 4 tier.cap ≤ 99 / 100 := by cases tier <;> decide +kernel
  refine ⟨hlow.trans (tier.identityConfidence_mono n.zero_le), ?_⟩
  exact (Decimal.halfEven.places_mono (min_le_right _ _)).trans hcap

theorem identityConfidence_normalized_lt {n m : ℕ} (hn : 1 ≤ n) (hm : m ≤ n + 1) :
    ResolutionTier.normalized.identityConfidence m < ResolutionTier.exact.identityConfidence n := by
  refine (ResolutionTier.identityConfidence_mono _ hm).trans_lt ?_
  by_cases hlarge : 5 ≤ n
  · have hcap : ResolutionTier.normalized.identityConfidence (n + 1) ≤
        Decimal.halfEven.places 4 (95 / 100) :=
      Decimal.halfEven.places_mono (min_le_right _ _)
    have hexact := ResolutionTier.exact.identityConfidence_mono hlarge
    refine hcap.trans_lt (lt_of_lt_of_le ?_ hexact)
    decide +kernel
  · have hsmall : n = 1 ∨ n = 2 ∨ n = 3 ∨ n = 4 := by omega
    rcases hsmall with rfl | rfl | rfl | rfl <;> decide +kernel

/-- An observation spells an entity in another way, which had one spelling before. -/
def EntityCandidate.SecondSpelling (c : EntityCandidate) (o : EntityObservation) : Prop :=
  ∃ spelling, spelling ≠ o.rawValue ∧ ∀ p ∈ c.observations, p.rawValue = spelling

/-- One more observation of an entity does not lower the confidence in it. -/
def NeverWeakens (observations : List EntityObservation) : Prop :=
  ∀ c ∈ deduplicate observations, ∀ o after, o.key = c.key →
    (∀ p, p ∈ after ↔ p = o ∨ p ∈ observations) →
      ∀ c' ∈ deduplicate after, c'.key = c.key →
        c.entityIdentityConfidence ≤ c'.entityIdentityConfidence

/-- The candidates are the observed entities, each once and with its observations. The confidence in
a candidate depends on the set of the observations, and only a second spelling lowers it. -/
structure Corroborates (observations : List EntityObservation) : Prop where
  once : ((deduplicate observations).map (·.key)).Nodup
  entities : ∀ entity, entity ∈ (deduplicate observations).map (·.key) ↔
    entity.2 ≠ "" ∧ ∃ o ∈ observations, o.key = entity
  observed : ∀ c ∈ deduplicate observations, c.observations = group (·.key) observations c.key
  bounds : ∀ c ∈ deduplicate observations,
    45 / 100 ≤ c.entityIdentityConfidence ∧ c.entityIdentityConfidence ≤ 99 / 100
  unordered : ∀ c ∈ deduplicate observations, ∀ after, (∀ p, p ∈ after ↔ p ∈ observations) →
    ∀ c' ∈ deduplicate after, c'.key = c.key →
      c'.entityIdentityConfidence = c.entityIdentityConfidence
  corroborated : ∀ c ∈ deduplicate observations, ∀ o after, o.key = c.key →
    (∀ p, p ∈ after ↔ p = o ∨ p ∈ observations) →
      ∀ c' ∈ deduplicate after, c'.key = c.key →
        (c'.entityIdentityConfidence < c.entityIdentityConfidence ↔ c.SecondSpelling o)

section Corroboration

variable {before after : List EntityObservation} {c c' : EntityCandidate} {o : EntityObservation}

theorem mem_observations (hc : c ∈ deduplicate before) :
    o ∈ c.observations ↔ o ∈ before ∧ o.key = c.key := by
  rw [observations_eq hc, mem_group]

open scoped Classical in
theorem confidence_eq (hc : c ∈ deduplicate before) : c.entityIdentityConfidence =
      (if ∃ spelling, ∀ o ∈ c.observations, o.rawValue = spelling then ResolutionTier.exact
        else .normalized).identityConfidence
          (c.observations.map (·.analysisCaseDatasetId)).toFinset.card := by
  rw [entityIdentityConfidence_eq hc]
  congr 1
  obtain ⟨-, first, rest, hgroup, heq⟩ := mem_deduplicate.1 hc
  rw [heq]
  refine if_congr ⟨fun h => ⟨first.rawValue, ?_⟩, ?_⟩ rfl rfl
  · intro o ho
    rcases mem_cons.1 ho with rfl | ho
    · rfl
    · exact h o ho
  · rintro ⟨spelling, h⟩ o ho
    rw [h o (mem_cons_of_mem _ ho), h first mem_cons_self]

/-- One more observation of an entity counts its dataset, and it keeps the method or not. -/
theorem corroborated_iff (hc : c ∈ deduplicate before) (hc' : c' ∈ deduplicate after)
    (hmem : ∀ p, p ∈ c'.observations ↔ p = o ∨ p ∈ c.observations) :
    c'.entityIdentityConfidence < c.entityIdentityConfidence ↔ c.SecondSpelling o := by
  have hcard : (c'.observations.map (·.analysisCaseDatasetId)).toFinset =
      insert o.analysisCaseDatasetId (c.observations.map (·.analysisCaseDatasetId)).toFinset := by
    ext id
    simp [hmem, eq_comm]
  obtain ⟨first, hfirst⟩ := exists_mem_of_ne_nil _ c.observed
  have hpos : 1 ≤ (c.observations.map (·.analysisCaseDatasetId)).toFinset.card :=
    Finset.card_pos.2 ⟨_, mem_toFinset.2 (mem_map_of_mem hfirst)⟩
  have hle := Finset.card_le_card (Finset.subset_insert o.analysisCaseDatasetId
    (c.observations.map (·.analysisCaseDatasetId)).toFinset)
  rw [confidence_eq hc, confidence_eq hc', hcard]
  by_cases hone : ∃ spelling, ∀ p ∈ c.observations, p.rawValue = spelling
  · obtain ⟨spelling, hspelling⟩ := hone
    by_cases hsame : spelling = o.rawValue
    · -- The observation repeats the spelling.
      have hone' : ∃ spelling, ∀ p ∈ c'.observations, p.rawValue = spelling := by
        refine ⟨spelling, fun p hp => ?_⟩
        rcases (hmem p).1 hp with rfl | hp
        · exact hsame.symm
        · exact hspelling p hp
      rw [if_pos hone', if_pos ⟨spelling, hspelling⟩]
      refine iff_of_false (not_lt_of_ge (ResolutionTier.identityConfidence_mono _ hle)) ?_
      rintro ⟨other, hother, hall⟩
      exact hother ((hall first hfirst).symm.trans ((hspelling first hfirst).trans hsame))
    · have hone' : ¬ ∃ spelling, ∀ p ∈ c'.observations, p.rawValue = spelling := by
        rintro ⟨other, hall⟩
        refine hsame ((hspelling first hfirst).symm.trans ?_)
        rw [hall first ((hmem first).2 (.inr hfirst)), hall o ((hmem o).2 (.inl rfl))]
      rw [if_neg hone', if_pos ⟨spelling, hspelling⟩]
      refine iff_of_true ?_ ⟨spelling, hsame, hspelling⟩
      exact identityConfidence_normalized_lt hpos (Finset.card_insert_le _ _)
  · have hone' : ¬ ∃ spelling, ∀ p ∈ c'.observations, p.rawValue = spelling :=
      fun ⟨spelling, hall⟩ => hone ⟨spelling, fun p hp => hall p ((hmem p).2 (.inr hp))⟩
    rw [if_neg hone', if_neg hone]
    refine iff_of_false (not_lt_of_ge (ResolutionTier.identityConfidence_mono _ hle)) ?_
    exact fun ⟨spelling, _, hall⟩ => hone ⟨spelling, hall⟩

theorem nodup_deduplicate : ((deduplicate before).map (·.key)).Nodup := by
  refine Nodup.map_on ?_ ?_
  · intro c hc c' hc' hkey
    obtain ⟨-, first, rest, hgroup, heq⟩ := mem_deduplicate.1 hc
    obtain ⟨-, first', rest', hgroup', heq'⟩ := mem_deduplicate.1 hc'
    rw [hkey, hgroup'] at hgroup
    obtain ⟨rfl, rfl⟩ := cons_eq_cons.1 hgroup
    exact heq.trans heq'.symm
  · refine Nodup.filterMap ?_ (nodup_firsts _)
    intro key key' c hkey hkey'
    split at hkey
    · cases hkey
    rename_i first rest hgroup
    split at hkey'
    · cases hkey'
    rename_i first' rest' hgroup'
    have hfirst : first.key = key := (mem_group.1 (hgroup.symm ▸ mem_cons_self)).2
    have hfirst' : first'.key = key' := (mem_group.1 (hgroup'.symm ▸ mem_cons_self)).2
    have hlists := congrArg (Option.map (·.observations)) (hkey.trans hkey'.symm)
    rw [← hfirst, ← hfirst', (cons_eq_cons.1 (Option.some.inj hlists)).1]

theorem deduplicate_corroborates (observations : List EntityObservation) :
    Corroborates observations where
  once := nodup_deduplicate
  entities entity := by
    constructor
    · intro hentity
      obtain ⟨c, hc, rfl⟩ := mem_map.1 hentity
      obtain ⟨o, ho⟩ := exists_mem_of_ne_nil _ c.observed
      exact ⟨(mem_deduplicate.1 hc).1, o, (mem_observations hc).1 ho⟩
    · rintro ⟨hne, o, ho, rfl⟩
      exact mem_map.2 (exists_candidate ho hne)
  observed _ := observations_eq
  bounds c hc := by
    rw [entityIdentityConfidence_eq hc]
    exact ResolutionTier.identityConfidence_bounds _ _
  unordered c hc after hmem c' hc' hkey := by
    have hsame : ∀ p, p ∈ c'.observations ↔ p ∈ c.observations := fun p => by
      rw [mem_observations hc', mem_observations hc, hkey, hmem]
    have hdatasets : (c'.observations.map (·.analysisCaseDatasetId)).toFinset =
        (c.observations.map (·.analysisCaseDatasetId)).toFinset := by
      ext id
      simp [hsame]
    have hspelling : (∃ spelling, ∀ o ∈ c'.observations, o.rawValue = spelling) ↔
        ∃ spelling, ∀ o ∈ c.observations, o.rawValue = spelling := by simp only [hsame]
    classical
    rw [confidence_eq hc, confidence_eq hc', hdatasets, if_congr hspelling rfl rfl]
  corroborated c hc o after ho hmem c' hc' hkey := by
    refine corroborated_iff hc hc' fun p => ?_
    rw [mem_observations hc', mem_observations hc, hkey, hmem, or_and_right]
    exact or_congr_left ⟨And.left, fun h => ⟨h, h ▸ ho⟩⟩

end Corroboration

def assetA1 (dataset spelling : String) : EntityObservation where
  analysisCaseDatasetId := dataset
  entityType := "ASSET"
  rawValue := spelling
  normalizedValue := "a-1"
  semanticConfidence := 1

/-- An asset in two datasets has the confidence 0.735, above the floor 0.70 of the rules. One of them
spells it in another way as well: 0.63. -/
theorem respelled_weakens : ¬ NeverWeakens [assetA1 "D1" "a-1", assetA1 "D2" "a-1"] := by
  intro h
  have hbefore : candidateOf (assetA1 "D1" "a-1") [assetA1 "D2" "a-1"] ∈
      deduplicate [assetA1 "D1" "a-1", assetA1 "D2" "a-1"] := mem_cons_self
  have hafter : candidateOf (assetA1 "D1" "a-1") [assetA1 "D2" "a-1", assetA1 "D2" "A-1"] ∈
      deduplicate [assetA1 "D1" "a-1", assetA1 "D2" "a-1", assetA1 "D2" "A-1"] := mem_cons_self
  have hle := h _ hbefore (assetA1 "D2" "A-1") _ rfl (fun p => by simp; tauto) _ hafter rfl
  revert hle
  decide +kernel

end Intel4Ops.Entities
