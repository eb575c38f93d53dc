import Intel4Ops.Entities.Resolution
import Intel4Ops.Revenue.Billing

/-!
# Rows and their entities

A rule takes the rows whose subject is the label of an eligible candidate, letter by letter, while
identity is decided on the normalized identifier. A row follows its entity exactly where it spells
the identifier as it was observed first.
-/

namespace Intel4Ops.Entities

open Lib List
open Revenue (DataFrame DatasetConceptFields Pass Row)

/-! ## Subjects -/

/-- The rules that take the rows of eligible subjects. -/
inductive SubjectRule
  | revenueAmountVariance
  | assetFailureToLostActivity
  | maintenanceRepeatVisit
  | maintenanceScheduleCompletion

section Subjects

variable {Cell : Type} (env : Spelling Cell)

/-- `_text` of the maintenance rules -/
def maintenanceText (cell : Cell) : Option String :=
  if env.notna cell = false then none
  else
    let normalized := env.strip (env.str cell)
    if normalized = "" then none else some normalized

/-- The text that a rule looks up among the eligible keys. -/
def SubjectRule.read (rule : SubjectRule) (cell : Cell) : Option String :=
  match rule with
  | .revenueAmountVariance => if env.blank cell then none else some (env.str cell)
  | .assetFailureToLostActivity => some (env.str cell)
  | .maintenanceRepeatVisit | .maintenanceScheduleCompletion => maintenanceText env cell

/-- A frame that a rule takes rows from: the type and the least confidence of the subjects, and the
column of their identifiers. -/
structure SubjectFrame (Cell : Type) where
  rule : SubjectRule
  entityType : String
  minimum : ℚ
  dataframe : DataFrame Cell
  subjectIdField : String

/-- The subjects of the rows. -/
def SubjectFrame.subjects (frame : SubjectFrame Cell) : List Cell :=
  frame.dataframe.rows.map (·.cell frame.subjectIdField)

/-- The datasets of a case, and the frames that its rules take rows from. -/
structure Case (Cell : Type) where
  inputs : List (CaseDatasetEntityInput Cell)
  frames : List (SubjectFrame Cell)

def Case.candidates (case : Case Cell) : List EntityCandidate :=
  resolveEntitiesForCase env case.inputs

def Case.eligibleKeys (case : Case Cell) (frame : SubjectFrame Cell) : Finset String :=
  eligibleEntityKeys (case.candidates env) frame.entityType frame.minimum

/-- The subject that a rule attributes a row to. -/
def Case.attributed (case : Case Cell) (frame : SubjectFrame Cell) (cell : Cell) : Option String :=
  (frame.rule.read env cell).filter (· ∈ case.eligibleKeys env frame)

/-- A candidate that is eligible for the rows of a frame. -/
def Case.Takes (case : Case Cell) (frame : SubjectFrame Cell) (c : EntityCandidate) : Prop :=
  c ∈ case.candidates env ∧ c.Eligible frame.entityType frame.minimum

/-- Every row whose identifier is that of an eligible entity is attributed to it. -/
def Case.RowsFollow (case : Case Cell) : Prop :=
  ∀ frame ∈ case.frames, ∀ cell ∈ frame.subjects, ∀ c, case.Takes env frame c →
    identifier env cell = some c.normalizedKey →
      case.attributed env frame cell = some c.displayLabel

/-- Every identifier of an eligible entity is spelled as it was observed first. -/
def Case.SpelledAsFirst (case : Case Cell) : Prop :=
  ∀ frame ∈ case.frames, ∀ cell ∈ frame.subjects, ∀ key, identifier env cell = some key →
    (∃ c, case.Takes env frame c ∧ c.normalizedKey = key) →
      frame.rule.read env cell =
        firstSpelling (observationsOfCase env case.inputs) (frame.entityType, key)

variable {env} {case case' : Case Cell} {frame frame' : SubjectFrame Cell} {c c' : EntityCandidate}
  {cell : Cell} {inputs : List (CaseDatasetEntityInput Cell)}

/-! ## Labels -/

theorem normalizedKey_eq (hc : c ∈ resolveEntitiesForCase env inputs) :
    c.normalizedKey = normalizeIdentifier env c.displayLabel := by
  obtain ⟨-, first, rest, hgroup, heq⟩ := mem_deduplicate.1 hc
  have hfirst : first ∈ observationsOfCase env inputs :=
    (mem_group.1 (hgroup.symm ▸ mem_cons_self :
      first ∈ group (·.key) (observationsOfCase env inputs) c.key)).1
  rw [heq]
  exact (normalizedValue_eq hfirst).1

theorem Case.Takes.firstSpelling (h : case.Takes env frame c) :
    firstSpelling (observationsOfCase env case.inputs) (frame.entityType, c.normalizedKey) =
      some c.displayLabel := by
  have hkey : c.key = (frame.entityType, c.normalizedKey) := Prod.ext h.2.1 rfl
  rw [← hkey]
  exact firstSpelling_key h.1

theorem Case.Takes.label_mem (h : case.Takes env frame c) :
    c.displayLabel ∈ case.eligibleKeys env frame := by
  refine mem_toFinset.2 (mem_map.2 ⟨c, ?_, rfl⟩)
  exact mem_filter.2 ⟨h.1, decide_eq_true h.2⟩

theorem exists_eligible {label : String} (h : label ∈ case.eligibleKeys env frame) :
    ∃ c, case.Takes env frame c ∧ c.displayLabel = label := by
  obtain ⟨c, hc, hlabel⟩ := mem_map.1 (mem_toFinset.1 h)
  obtain ⟨hmem, heligible⟩ := mem_filter.1 hc
  exact ⟨c, ⟨hmem, of_decide_eq_true heligible⟩, hlabel⟩

/-- Rows follow their entities exactly where they are spelled as first observed. -/
theorem Case.rowsFollow_iff_spelled : case.RowsFollow env ↔ case.SpelledAsFirst env := by
  constructor
  · intro h frame hframe cell hcell key hkey ⟨c, hc, hck⟩
    subst hck
    have hattributed := h frame hframe cell hcell c hc hkey
    rw [hc.firstSpelling]
    exact (Option.filter_eq_some_iff.1 hattributed).1
  · intro h frame hframe cell hcell c hc hkey
    have hread := h frame hframe cell hcell _ hkey ⟨c, hc, rfl⟩
    rw [hc.firstSpelling] at hread
    exact Option.filter_eq_some_iff.2 ⟨hread, decide_eq_true hc.label_mem⟩

/-! ## Other spellings -/

/-- A dataset with the same identifiers, spelled in another way. -/
structure CaseDatasetEntityInput.Respelled (env : Spelling Cell)
    (input input' : CaseDatasetEntityInput Cell) : Prop where
  id : input.analysisCaseDatasetId = input'.analysisCaseDatasetId
  decisions : input.decisions = input'.decisions
  columns : input.rawDataframe.columns = input'.rawDataframe.columns
  rows : List.Forall₂ (fun row row' => ∀ decision ∈ input.decisions,
    identifier env (row.cell decision.sourceField) =
      identifier env (row'.cell decision.sourceField))
    input.rawDataframe.rows input'.rawDataframe.rows

/-- A case with the same identifiers, spelled in another way, and its datasets in another order. -/
def Case.SameEntities (env : Spelling Cell) (case case' : Case Cell) : Prop :=
  ∃ inputs, List.Forall₂ (CaseDatasetEntityInput.Respelled env) case.inputs inputs ∧
    inputs.Perm case'.inputs

/-- Every entity has one spelling. -/
def Case.OneSpelling (env : Spelling Cell) (case : Case Cell) : Prop :=
  ∀ o ∈ observationsOfCase env case.inputs, ∀ o' ∈ observationsOfCase env case.inputs,
    o.key = o'.key → o.rawValue = o'.rawValue

theorem exists_of_forall₂ {α β : Type} {R : α → β → Prop} {as : List α} {bs : List β}
    (h : List.Forall₂ R as bs) {a : α} (ha : a ∈ as) : ∃ b ∈ bs, R a b := by
  induction h with
  | nil => cases ha
  | cons hR _ ih =>
    rcases mem_cons.1 ha with rfl | ha
    · exact ⟨_, mem_cons_self, hR⟩
    · obtain ⟨b, hb, hab⟩ := ih ha
      exact ⟨b, mem_cons_of_mem _ hb, hab⟩

theorem CaseDatasetEntityInput.Respelled.symm {input input' : CaseDatasetEntityInput Cell}
    (h : input.Respelled env input') : input'.Respelled env input where
  id := h.id.symm
  decisions := h.decisions.symm
  columns := h.columns.symm
  rows := (Forall₂.flip h.rows).imp fun _ _ hrow decision hdecision =>
    (hrow decision (h.decisions.symm ▸ hdecision)).symm

theorem CaseDatasetEntityInput.Respelled.shows {input input' : CaseDatasetEntityInput Cell}
    (h : input.Respelled env input') {entity : String × String} (hshows : Shows env input entity) :
    Shows env input' entity := by
  obtain ⟨decision, hdecision, htype, hcolumn, row, hrow, hkey⟩ := hshows
  obtain ⟨row', hrow', hsame⟩ := exists_of_forall₂ h.rows hrow
  refine ⟨decision, h.decisions ▸ hdecision, htype, h.columns ▸ hcolumn, row', hrow', ?_⟩
  rw [← hsame decision hdecision]
  exact hkey

/-- Two cases have the same datasets behind every entity. -/
def Case.ShowSame (env : Spelling Cell) (case case' : Case Cell) : Prop :=
  ∀ (id : String) (entity : String × String),
    (∃ input ∈ case.inputs, input.analysisCaseDatasetId = id ∧ Shows env input entity) ↔
      ∃ input ∈ case'.inputs, input.analysisCaseDatasetId = id ∧ Shows env input entity

theorem Case.ShowSame.symm (h : case.ShowSame env case') : case'.ShowSame env case :=
  fun id entity => (h id entity).symm

theorem Case.SameEntities.showSame (h : case.SameEntities env case') : case.ShowSame env case' := by
  obtain ⟨inputs, hsame, hperm⟩ := h
  intro id entity
  constructor
  · rintro ⟨input, hinput, rfl, hshows⟩
    obtain ⟨input', hinput', hrespelled⟩ := exists_of_forall₂ hsame hinput
    exact ⟨input', hperm.mem_iff.1 hinput', hrespelled.id.symm, hrespelled.shows hshows⟩
  · rintro ⟨input', hinput', rfl, hshows⟩
    obtain ⟨input, hinput, hrespelled⟩ :=
      exists_of_forall₂ (Forall₂.flip hsame) (hperm.mem_iff.2 hinput')
    exact ⟨input, hinput, hrespelled.id, hrespelled.symm.shows hshows⟩

/-- Where every entity has one spelling, the candidates are resolved exactly. -/
theorem Case.OneSpelling.resolutionMethod (h : case.OneSpelling env)
    (hc : c ∈ case.candidates env) : c.resolutionMethod = .exact := by
  obtain ⟨-, first, rest, hgroup, heq⟩ := mem_deduplicate.1 hc
  have hmem : ∀ o ∈ first :: rest, o ∈ observationsOfCase env case.inputs ∧ o.key = c.key := by
    intro o ho
    rw [← hgroup] at ho
    exact mem_group.1 ho
  rw [heq]
  refine if_pos fun o ho => ?_
  have hfirst := hmem first mem_cons_self
  have hother := hmem o (mem_cons_of_mem _ ho)
  exact h o hother.1 first hfirst.1 (hother.2.trans hfirst.2.symm)

theorem mem_datasets (hc : c ∈ resolveEntitiesForCase env inputs) {id : String} :
    id ∈ (c.observations.map (·.analysisCaseDatasetId)).toFinset ↔
      ∃ input ∈ inputs, input.analysisCaseDatasetId = id ∧ Shows env input c.key := by
  rw [← exists_observation_iff, mem_toFinset, mem_map, observations_eq hc]
  simp only [mem_group, and_assoc]

theorem Case.ShowSame.exists_takes (h : case.ShowSame env case')
    (hone : case.OneSpelling env) (hone' : case'.OneSpelling env)
    (htype : frame.entityType = frame'.entityType) (hminimum : frame.minimum = frame'.minimum)
    (hc : case.Takes env frame c) :
    ∃ c', case'.Takes env frame' c' ∧ c'.normalizedKey = c.normalizedKey := by
  -- Some dataset of the other case shows the entity.
  obtain ⟨o, ho⟩ := exists_mem_of_ne_nil _ c.observed
  have hid : o.analysisCaseDatasetId ∈ (c.observations.map (·.analysisCaseDatasetId)).toFinset :=
    mem_toFinset.2 (mem_map_of_mem ho)
  obtain ⟨o', ho', hkey', -⟩ := exists_observation_iff.2 ((h _ _).1 ((mem_datasets hc.1).1 hid))
  obtain ⟨c', hc', hcandidate⟩ := exists_candidate ho' (normalizedValue_eq ho').2
  have hkey : c'.key = c.key := hcandidate.trans hkey'
  have hdatasets : (c'.observations.map (·.analysisCaseDatasetId)).toFinset =
      (c.observations.map (·.analysisCaseDatasetId)).toFinset := by
    ext id
    rw [mem_datasets hc', mem_datasets hc.1, hkey]
    exact (h id c.key).symm
  have hconfidence : c'.entityIdentityConfidence = c.entityIdentityConfidence := by
    rw [entityIdentityConfidence_eq hc', entityIdentityConfidence_eq hc.1,
      hone'.resolutionMethod hc', hone.resolutionMethod hc.1, hdatasets]
  refine ⟨c', ⟨hc', ?_, ?_, c'.observed⟩, congrArg Prod.snd hkey⟩
  · rw [← htype, ← hc.2.1]
    exact congrArg Prod.fst hkey
  · rw [← hminimum, hconfidence]
    exact hc.2.2.1

theorem SubjectRule.normalize_read {rule : SubjectRule} {text key : String}
    (hread : rule.read env cell = some text) (hkey : identifier env cell = some key) :
    normalizeIdentifier env text = key := by
  obtain ⟨hnotna, -, rfl⟩ := identifier_eq_some.1 hkey
  have hmaintenance : maintenanceText env cell = some text →
      normalizeIdentifier env text = normalizeIdentifier env (env.str cell) := by
    intro h
    simp only [maintenanceText, hnotna, Bool.true_eq_false, if_false] at h
    split at h
    · cases h
    · cases h
      unfold normalizeIdentifier
      rw [env.strip_strip]
  cases rule with
  | revenueAmountVariance =>
    simp only [SubjectRule.read] at hread
    split at hread
    · cases hread
    · cases hread
      rfl
  | assetFailureToLostActivity =>
    cases hread
    rfl
  | maintenanceRepeatVisit | maintenanceScheduleCompletion => exact hmaintenance hread

/-- Where rows follow their entities, a row is attributed to the entity of its identifier, if that
is eligible. -/
theorem Case.RowsFollow.attributed_iff (h : case.RowsFollow env) (hframe : frame ∈ case.frames)
    (hcell : cell ∈ frame.subjects) {key k : String} (hkey : identifier env cell = some key) :
    (case.attributed env frame cell).map (normalizeIdentifier env) = some k ↔
      k = key ∧ ∃ c, case.Takes env frame c ∧ c.normalizedKey = key := by
  constructor
  · intro hattributed
    obtain ⟨label, hlabel, rfl⟩ := Option.map_eq_some_iff.1 hattributed
    obtain ⟨hread, hmem⟩ := Option.filter_eq_some_iff.1 hlabel
    obtain ⟨c, hc, rfl⟩ := exists_eligible (of_decide_eq_true hmem)
    have hnormalized := SubjectRule.normalize_read hread hkey
    exact ⟨hnormalized, c, hc, (normalizedKey_eq hc.1).trans hnormalized⟩
  · rintro ⟨rfl, c, hc, rfl⟩
    rw [h frame hframe cell hcell c hc hkey, Option.map_some, ← normalizedKey_eq hc.1]

theorem Case.ShowSame.attributed_eq (h : case.ShowSame env case') (hone : case.OneSpelling env)
    (hone' : case'.OneSpelling env) (hfollow : case.RowsFollow env)
    (hfollow' : case'.RowsFollow env) (hframe : frame ∈ case.frames)
    (hframe' : frame' ∈ case'.frames) (htype : frame.entityType = frame'.entityType)
    (hminimum : frame.minimum = frame'.minimum) {cell' : Cell} (hcell : cell ∈ frame.subjects)
    (hcell' : cell' ∈ frame'.subjects) {key : String} (hkey : identifier env cell = some key)
    (hkey' : identifier env cell' = some key) :
    (case.attributed env frame cell).map (normalizeIdentifier env) =
      (case'.attributed env frame' cell').map (normalizeIdentifier env) := by
  refine Option.ext fun k => ?_
  rw [hfollow.attributed_iff hframe hcell hkey, hfollow'.attributed_iff hframe' hcell' hkey']
  refine and_congr_right fun _ => ⟨?_, ?_⟩
  · rintro ⟨c, hc, rfl⟩
    exact h.exists_takes hone hone' htype hminimum hc
  · rintro ⟨c, hc, rfl⟩
    exact h.symm.exists_takes hone' hone htype.symm hminimum.symm hc

/-- Two cases attribute rows with one identifier to one entity. -/
def Case.AttributeSame (env : Spelling Cell) (case case' : Case Cell) : Prop :=
  ∀ frame ∈ case.frames, ∀ frame' ∈ case'.frames, frame.entityType = frame'.entityType →
    frame.minimum = frame'.minimum → ∀ cell ∈ frame.subjects, ∀ cell' ∈ frame'.subjects,
      ∀ key, identifier env cell = some key → identifier env cell' = some key →
        (case.attributed env frame cell).map (normalizeIdentifier env) =
          (case'.attributed env frame' cell').map (normalizeIdentifier env)

/-! ## Amounts -/

/-- A pass of the revenue rule over datasets of the case. -/
structure Case.HasPass (env : Spelling Cell) (case : Case Cell) (entityType : String) (minimum : ℚ)
    (pass : Pass Cell) : Prop where
  keys : pass.eligibleSubjectKeys.toFinset =
    eligibleEntityKeys (case.candidates env) entityType minimum
  frames : ∀ ds ∈ pass.datasets, ∀ field ∈ ds.subject,
    ⟨.revenueAmountVariance, entityType, minimum, ds.dataframe, field⟩ ∈ case.frames

/-- A row of a pass that has an amount for an entity. -/
structure EntityRow (env : Spelling Cell) (pass : Pass Cell) (c : EntityCandidate)
    (ds : DatasetConceptFields Cell) (row : Row Cell) : Prop where
  dataset : ds ∈ pass.datasets
  supplies : ds.SuppliesExpected pass.rateDatasets ∨ ds.SuppliesActual
  stored : row ∈ ds.dataframe.rows
  identified : ∃ field ∈ ds.subject, identifier env (row.cell field) = some c.normalizedKey

/-- The lines of every row of an entity stand on the two sides of its subject. -/
def KeepsLines (env : Spelling Cell) (pass : Pass Cell) (c : EntityCandidate) : Prop :=
  ∀ collected, Revenue.collectLines env.toEnv pass = .ok collected →
    ∀ ds row, EntityRow env pass c ds row →
      (∀ line, Revenue.actualLine env.toEnv ⟨ds, row, c.displayLabel⟩ = some line →
        line ∈ collected.actualOf c.displayLabel) ∧
      ∀ lines, Revenue.expectedLines env.toEnv pass ⟨ds, row, c.displayLabel⟩ = .ok lines →
        ∀ line ∈ lines, line ∈ collected.expectedOf c.displayLabel

theorem Case.RowsFollow.keepsLines (h : case.RowsFollow env) {entityType : String} {minimum : ℚ}
    {pass : Pass Cell} (hpass : case.HasPass env entityType minimum pass)
    (hc : c ∈ case.candidates env) (heligible : c.Eligible entityType minimum) :
    KeepsLines env pass c := by
  intro collected hcollected ds row hrow
  obtain ⟨field, hfield, hkey⟩ := hrow.identified
  have hlabel := h _ (hpass.frames ds hrow.dataset field hfield) (row.cell field)
    (mem_map_of_mem hrow.stored) c ⟨hc, heligible⟩ hkey
  obtain ⟨hread, hmem⟩ := Option.filter_eq_some_iff.1 hlabel
  -- The rule reads the label in the row.
  have hsubject : env.blank (row.cell field) = false ∧ env.str (row.cell field) = c.displayLabel := by
    simp only [SubjectRule.read] at hread
    split at hread
    · cases hread
    · rename_i hblank
      exact ⟨by simpa using hblank, Option.some.inj hread⟩
  have heligibleKey : c.displayLabel ∈ pass.eligibleSubjectKeys := by
    rw [← mem_toFinset, hpass.keys]
    exact of_decide_eq_true hmem
  have hsource : (⟨ds, row, c.displayLabel⟩ : Revenue.SourceRow Cell) ∈
      Revenue.sourceRows env.toEnv pass :=
    Revenue.mem_sourceRows.2 ⟨hrow.dataset, hrow.supplies,
      ⟨hrow.stored, field, hfield, hsubject.1, hsubject.2⟩, heligibleKey⟩
  constructor
  · intro line hline
    exact (Revenue.mem_actualOf hcollected).2 ⟨_, hsource, rfl, hline⟩
  · intro lines hlines line hline
    exact (Revenue.mem_expectedOf hcollected).2 ⟨_, hsource, rfl, lines, hlines, hline⟩

end Subjects

/-! ## Two spellings -/

namespace TwoSpellings

theorem notna_of_blank (cell : Revenue.PlainCell) :
    Revenue.Env.plain.blank cell = true → Revenue.Env.plain.notna cell = false := by
  cases cell with
  | missing => exact fun _ => rfl
  | text value | integer value =>
    intro h
    cases h

/-- The standard library on identifiers without blanks. -/
def plain : Spelling Revenue.PlainCell where
  toEnv := Revenue.Env.plain
  casefold text := String.ofList (text.toList.map Char.toLower)
  split text := [text]
  notna_of_blank := notna_of_blank
  strip_strip _ := rfl

def frameOf (workOrder : String) : DataFrame Revenue.PlainCell where
  columns := ["work_order_id"]
  rows := [⟨"0", fun _ => .text workOrder⟩]

def decision : FieldDecision := ⟨"work_order_id", some "WORK_ORDER", 1⟩

/-- The work order stands in the usage and in the schedule, and in lower case in the invoices. -/
def split : Case Revenue.PlainCell where
  inputs := [⟨"usage", [decision], frameOf "WO-1"⟩, ⟨"schedule", [decision], frameOf "WO-1"⟩,
    ⟨"invoices", [decision], frameOf "wo-1"⟩]
  frames := [⟨.revenueAmountVariance, "WORK_ORDER", 7 / 10, frameOf "WO-1", "work_order_id"⟩,
    ⟨.revenueAmountVariance, "WORK_ORDER", 7 / 10, frameOf "wo-1", "work_order_id"⟩]

/-- The one candidate of the case. -/
def workOrder : EntityCandidate :=
  candidateOf (observation plain ⟨"usage", [decision], frameOf "WO-1"⟩ decision "WORK_ORDER" "WO-1")
    [observation plain ⟨"schedule", [decision], frameOf "WO-1"⟩ decision "WORK_ORDER" "WO-1",
      observation plain ⟨"invoices", [decision], frameOf "wo-1"⟩ decision "WORK_ORDER" "wo-1"]

theorem identified : (7 / 10 : ℚ) ≤ workOrder.entityIdentityConfidence := by
  decide +kernel

end TwoSpellings

end Intel4Ops.Entities
