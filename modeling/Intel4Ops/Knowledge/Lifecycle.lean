import Intel4Ops.Knowledge.Governance

/-!
# Active knowledge is validated knowledge

Cases can be added to a version after it was validated, and the fingerprint that is to find
duplicate content digests the number of the version too. Where no call adds the content of another
version and no version is activated with a case younger than its last run, every active version was
last validated on all of its cases.
-/

namespace Intel4Ops.Knowledge

open Lib List Table

variable {env : Env} {db db' : Db} {call : Call}

/-! ## What a committed call does -/

variable {definitionId : UUID} {organizationId : Option UUID} {requested : Option Instant}
  {r : ValidationResult}

theorem get_ok {d : Definition} (h : get db definitionId organizationId = .ok d) :
    d ∈ db.definitions ∧ d.id = definitionId := by
  rw [get, orFail_eq_ok] at h
  obtain ⟨hmem, hid, -⟩ := find?_spec h
  exact ⟨hmem, hid⟩

variable {versionId : UUID} {v' : Version}

theorem getVersion_ok {p : Version × Definition}
    (h : getVersion db versionId organizationId = .ok p) :
    p.1 ∈ db.versions ∧ p.1.id = versionId := by
  simp only [getVersion, bind_eq_ok, orFail_eq_ok, pure_eq_ok] at h
  obtain ⟨version, hversion, definition, -, rfl⟩ := h
  exact find?_spec hversion

/-- The run over the present cases of a version. -/
def currentRun (env : Env) (db : Db) (version : Version) : ValidationRun :=
  ⟨version.id, (listCases db version.id).map (resultOf env version)⟩

/-- A version after that run. -/
def checked (env : Env) (db : Db) (version v : Version) : Version :=
  { v with validationSatisfied := (currentRun env db version).results.all (·.passed) }

/-- What a version has to meet before it becomes active. -/
structure Activatable (db : Db) (version : Version) : Prop where
  approved : db.approved version.id
  satisfied : version.validationSatisfied = true
  alone : ∀ v ∈ db.versions, v.definitionId = version.definitionId →
    v.lifecycleStatus = .active → v.id = version.id

/-- What one committed call does to the tables. -/
inductive KnowledgeStep (env : Env) (db : Db) (call : Call) : Db → Prop
  | define (payload : DefinitionCreate) (hrequest : call.request = .create payload)
      (hscope : payload.validateScope = .ok ())
      (hkey : ∀ d ∈ db.definitions,
        ¬ (d.stableCode = payload.stableCode ∧ d.scopeKey = scopeKey env payload))
      (hfresh : ∀ d ∈ db.definitions, d.id ≠ call.drawn) :
      KnowledgeStep env db call
        { db with definitions := db.definitions ++ [payload.row env call.drawn] }
  | addVersion (definitionId : UUID) (payload : DefinitionVersionCreate) (fingerprint : String)
      (hrequest : call.request = .createVersion definitionId payload)
      (hgreater : ∀ v ∈ db.versions, v.definitionId = definitionId →
        v.semanticVersion < payload.semanticVersion)
      (hfresh : ∀ v ∈ db.versions, v.id ≠ call.drawn) :
      KnowledgeStep env db call
        { db with versions := db.versions ++ [payload.row definitionId fingerprint call.drawn] }
  | addCase (version : Version) (payload : ValidationCaseCreate) (hmem : version ∈ db.versions)
      (hstatus : version.lifecycleStatus ≠ .active) (hfresh : ∀ c ∈ db.cases, c.id ≠ call.drawn) :
      KnowledgeStep env db call { db with cases := db.cases ++ [payload.row version.id call.drawn] }
  | validate (version : Version) (hmem : version ∈ db.versions) :
      KnowledgeStep env db call { db.setVersion version.id (checked env db version) with
        runs := db.runs ++ [currentRun env db version] }
  | move (version : Version) (target : LifecycleStatus) (requested : Option Instant)
      (hmem : version ∈ db.versions)
      (hrequest : target = .active → call.request = .transition version.id target requested)
      (hactive : target = .active → Activatable db version) :
      KnowledgeStep env db call
        { db.setVersion version.id fun _ => version.moved target requested call.now with
          approvals := approvalsAfter db version target call.actor }

theorem create_step {payload : DefinitionCreate} (hrequest : call.request = .create payload)
    (h : create env db payload call.drawn = .ok db') : KnowledgeStep env db call db' := by
  simp only [create, bind_eq_ok, ensure_eq_ok, orFail_eq_ok, pure_eq_ok, insert_eq_some] at h
  obtain ⟨_, hscope, _, hkey, definitions, ⟨hfresh, rfl⟩, rfl⟩ := h
  exact .define payload hrequest hscope hkey hfresh

theorem createVersion_step {payload : DefinitionVersionCreate}
    (hrequest : call.request = .createVersion definitionId payload)
    (h : createVersion env db definitionId call.organizationId payload call.drawn = .ok db') :
    KnowledgeStep env db call db' := by
  simp only [createVersion, bind_eq_ok, ensure_eq_ok, orFail_eq_ok, pure_eq_ok, insert_eq_some] at h
  obtain ⟨_, -, definition, hget, _, -, _, hgreater, fingerprint, -, _, -, _, -, versions,
    ⟨hfresh, rfl⟩, rfl⟩ := h
  obtain ⟨-, rfl⟩ := get_ok hget
  refine .addVersion definition.id payload fingerprint hrequest ?_ hfresh
  intro v hv hdefinition
  exact hgreater v (mem_filter.2 ⟨hv, decide_eq_true hdefinition⟩)

theorem createCase_step {payload : ValidationCaseCreate}
    (h : createCase db versionId call.organizationId payload call.drawn = .ok db') :
    KnowledgeStep env db call db' := by
  simp only [createCase, bind_eq_ok, ensure_eq_ok, orFail_eq_ok, pure_eq_ok, insert_eq_some] at h
  obtain ⟨p, hget, _, hstatus, cases, ⟨hfree, rfl⟩, rfl⟩ := h
  refine .addCase p.1 payload (getVersion_ok hget).1 hstatus ?_
  exact fun c hc hid => hfree c hc (.inl hid)

theorem runValidation_step (h : runValidation env db versionId call.organizationId = .ok db') :
    KnowledgeStep env db call db' := by
  simp only [runValidation, bind_eq_ok, ensure_eq_ok, pure_eq_ok] at h
  obtain ⟨p, hget, _, -, rfl⟩ := h
  exact .validate p.1 (getVersion_ok hget).1

theorem checkActivation_ok {version : Version} {target : LifecycleStatus}
    (h : checkActivation db version target = .ok ()) (htarget : target = .active) :
    Activatable db version := by
  simp only [checkActivation, bind_eq_ok, ensure_eq_ok] at h
  obtain ⟨_, hready, halone⟩ := h
  obtain ⟨happroved, hsatisfied⟩ := hready htarget
  refine ⟨happroved, hsatisfied, ?_⟩
  intro v hv hdefinition hactive
  exact halone htarget v (mem_filter.2 ⟨hv, decide_eq_true hdefinition⟩) hactive

theorem transition_step {target : LifecycleStatus}
    (hrequest : target = .active → call.request = .transition versionId target requested)
    (h : transition db versionId call.organizationId target requested call.actor call.now = .ok db')
    :
    KnowledgeStep env db call db' := by
  simp only [transition, bind_eq_ok, ensure_eq_ok, pure_eq_ok] at h
  obtain ⟨p, hget, _, -, _, -, _, hcheck, _, -, rfl⟩ := h
  obtain ⟨hmem, rfl⟩ := getVersion_ok hget
  exact .move p.1 target requested hmem hrequest (checkActivation_ok hcheck)

theorem serve_step (h : serve env db call = .ok db') : KnowledgeStep env db call db' := by
  unfold serve at h
  split at h
  case h_1 payload hrequest => exact create_step hrequest h
  case h_2 definitionId payload hrequest => exact createVersion_step hrequest h
  case h_3 versionId payload hrequest => exact createCase_step h
  case h_4 versionId hrequest => exact runValidation_step h
  case h_5 versionId hrequest =>
    simp only [markValidated, bind_eq_ok, ensure_eq_ok] at h
    obtain ⟨p, -, _, -, _, -, h⟩ := h
    exact transition_step (fun htarget => by cases htarget) h
  case h_6 versionId target requested hrequest => exact transition_step (fun _ => hrequest) h

/-! ## What is claimed of a state -/

def lastRun (db : Db) (versionId : UUID) : Option ValidationRun :=
  (db.runs.filter (·.definitionVersionId = versionId)).getLast?

/-- A run covers all present cases of a version, and all its cases passed. -/
structure Passes (db : Db) (versionId : UUID) (run : ValidationRun) : Prop where
  covered : ∀ c ∈ db.cases, c.definitionVersionId = versionId →
    ∃ r ∈ run.results, r.validationCaseId = c.id
  passed : ∀ r ∈ run.results, r.passed = true

/-- Of two versions of one definition the later one has the greater number. -/
def Increasing (v w : VersionIdentity) : Prop :=
  v.definitionId = w.definitionId → v.semanticVersion < w.semanticVersion

/-- Two versions of one definition differ in more than their numbers and dates. -/
def Distinct (v w : VersionIdentity) : Prop :=
  v.definitionId = w.definitionId → ¬ (v.qualityLevel = w.qualityLevel ∧ v.content = w.content)

/-- One active version at most, numbers that grow, no content twice, and active versions that are
approved and passed their last run on all their cases. -/
structure Governed (db : Db) : Prop where
  oneActive : ∀ v ∈ db.versions, ∀ w ∈ db.versions, v.definitionId = w.definitionId →
    v.lifecycleStatus = .active → w.lifecycleStatus = .active → v.id = w.id
  increasing : db.versions.Pairwise fun v w => Increasing v.toVersionIdentity w.toVersionIdentity
  distinct : db.versions.Pairwise fun v w => Distinct v.toVersionIdentity w.toVersionIdentity
  approved : ∀ v ∈ db.versions, v.lifecycleStatus = .active → db.approved v.id
  validated : ∀ v ∈ db.versions, v.lifecycleStatus = .active →
    ∃ run ∈ lastRun db v.id, Passes db v.id run

/-- Every present case of a version was in its last run. -/
def LastRunCovers (db : Db) (versionId : UUID) : Prop :=
  ∀ c ∈ db.cases, c.definitionVersionId = versionId →
    ∃ run ∈ lastRun db versionId, ∃ r ∈ run.results, r.validationCaseId = c.id

instance (db : Db) (versionId : UUID) : Decidable (LastRunCovers db versionId) :=
  inferInstanceAs (Decidable (∀ _ ∈ _, _))

def NewContent (db : Db) (definitionId : UUID) (payload : DefinitionVersionCreate) : Prop :=
  ∀ v ∈ db.versions, v.definitionId = definitionId →
    ¬ (v.qualityLevel = payload.qualityLevel ∧ v.content = payload.content)

instance (db : Db) (definitionId : UUID) (payload : DefinitionVersionCreate) :
    Decidable (NewContent db definitionId payload) :=
  inferInstanceAs (Decidable (∀ _ ∈ _, _))

/-- A call adds no content twice, and activates no version with a case younger than its last run. -/
def CarefulRequest (db : Db) : Request → Prop
  | .createVersion definitionId payload => NewContent db definitionId payload
  | .transition versionId target _ => target = .active → LastRunCovers db versionId
  | _ => True

instance (db : Db) : (request : Request) → Decidable (CarefulRequest db request)
  | .create _ => isTrue trivial
  | .createVersion definitionId payload =>
    inferInstanceAs (Decidable (NewContent db definitionId payload))
  | .createCase _ _ => isTrue trivial
  | .run _ => isTrue trivial
  | .markValidated _ => isTrue trivial
  | .transition versionId target _ =>
    inferInstanceAs (Decidable (target = .active → LastRunCovers db versionId))

def Careful (db : Db) (call : Call) : Prop := CarefulRequest db call.request

instance (db : Db) (call : Call) : Decidable (Careful db call) :=
  inferInstanceAs (Decidable (CarefulRequest db call.request))

/-! ## Rewritten versions -/

theorem mem_setVersion {write : Version → Version} : v' ∈ (db.setVersion versionId write).versions ↔
      ∃ v ∈ db.versions, v' = if v.id = versionId then write v else v := by
  simp [Db.setVersion, mem_update]

theorem setVersion_identities {write : Version → Version}
    (hwrite : ∀ v ∈ db.versions, v.id = versionId →
      (write v).toVersionIdentity = v.toVersionIdentity) :
    (db.setVersion versionId write).versions.map (·.toVersionIdentity) =
      db.versions.map (·.toVersionIdentity) :=
  map_update_of_selected fun v hv hid => hwrite v hv (of_decide_eq_true hid)

section Identities

variable {versions versions' : List Version}
  (h : versions'.map (·.toVersionIdentity) = versions.map (·.toVersionIdentity))
include h

/-- What is said of the identities of two rows carries over to the rewritten rows. -/
theorem pairwise_of_identities {R : VersionIdentity → VersionIdentity → Prop}
    (hpairwise : versions.Pairwise fun v w => R v.toVersionIdentity w.toVersionIdentity) :
    versions'.Pairwise fun v w => R v.toVersionIdentity w.toVersionIdentity := by
  rw [← pairwise_map (f := fun v : Version => v.toVersionIdentity)] at hpairwise ⊢
  rwa [h]

theorem unique_of_identities (hunique : Table.Unique (·.id) versions) :
    Table.Unique (·.id) versions' := by
  have hids : ∀ rows : List Version,
      rows.map (·.id) = (rows.map (·.toVersionIdentity)).map (·.id) := by
    intro rows
    rw [map_map]
    rfl
  rw [Table.Unique, hids] at hunique ⊢
  rwa [h]

theorem exists_of_identities {v : Version} (hv : v ∈ versions) :
    ∃ v' ∈ versions', v'.toVersionIdentity = v.toVersionIdentity := by
  have hmem : v.toVersionIdentity ∈ versions'.map (·.toVersionIdentity) := by
    rw [h]
    exact mem_map_of_mem hv
  exact mem_map.1 hmem

end Identities

section Moved

variable (version : Version) (target : LifecycleStatus) (requested : Option Instant) (now : Instant)

theorem moved_identity :
    (version.moved target requested now).toVersionIdentity = version.toVersionIdentity := by
  unfold Version.moved
  split <;> rfl

theorem moved_status : (version.moved target requested now).lifecycleStatus = target := by
  unfold Version.moved
  split <;> rfl

theorem moved_satisfied :
    (version.moved target requested now).validationSatisfied = version.validationSatisfied := by
  unfold Version.moved
  split <;> rfl

end Moved

/-! ## One active version -/

/-- Versions have identifiers of their own, and one of a definition at most is active. -/
structure SingleActive (db : Db) : Prop where
  versionIds : Table.Unique (·.id) db.versions
  oneActive : ∀ v ∈ db.versions, ∀ w ∈ db.versions, v.definitionId = w.definitionId →
    v.lifecycleStatus = .active → w.lifecycleStatus = .active → v.id = w.id

theorem mem_checked {version : Version}
    (hv' : v' ∈ (db.setVersion version.id (checked env db version)).versions) :
    ∃ v ∈ db.versions, v'.toVersionIdentity = v.toVersionIdentity ∧
      v'.lifecycleStatus = v.lifecycleStatus ∧
      (v.id ≠ version.id → v'.validationSatisfied = v.validationSatisfied) ∧
      (v.id = version.id → v'.validationSatisfied =
        (currentRun env db version).results.all (·.passed)) := by
  obtain ⟨v, hv, rfl⟩ := mem_setVersion.1 hv'
  refine ⟨v, hv, ?_⟩
  by_cases hid : v.id = version.id
  · simp [hid, checked]
  · simp [hid]

/-- An active row was active before the move, or it is the version that becomes active. -/
theorem mem_moved (hids : Table.Unique (·.id) db.versions) {version : Version}
    (hmem : version ∈ db.versions) {target : LifecycleStatus} {now : Instant}
    (hv' : v' ∈ (db.setVersion version.id fun _ => version.moved target requested now).versions) :
    ∃ v ∈ db.versions, v'.toVersionIdentity = v.toVersionIdentity ∧
      v'.validationSatisfied = v.validationSatisfied ∧
      (v'.lifecycleStatus = .active →
        v.lifecycleStatus = .active ∨ v = version ∧ target = .active) := by
  obtain ⟨v, hv, rfl⟩ := mem_setVersion.1 hv'
  refine ⟨v, hv, ?_⟩
  by_cases hid : v.id = version.id
  · obtain rfl : v = version := hids.eq_of_key_eq hv hmem hid
    rw [if_pos rfl]
    refine ⟨moved_identity .., moved_satisfied .., fun hstatus => .inr ⟨rfl, ?_⟩⟩
    rwa [moved_status] at hstatus
  · rw [if_neg hid]
    exact ⟨rfl, rfl, .inl⟩

theorem checked_identities (env : Env) (db : Db) (version : Version) :
    (db.setVersion version.id (checked env db version)).versions.map (·.toVersionIdentity) =
      db.versions.map (·.toVersionIdentity) :=
  setVersion_identities fun _ _ _ => rfl

theorem moved_identities (hids : Table.Unique (·.id) db.versions) {version : Version}
    (hmem : version ∈ db.versions) (target : LifecycleStatus) (requested : Option Instant)
    (now : Instant) :
    (db.setVersion version.id fun _ => version.moved target requested now).versions.map
      (·.toVersionIdentity) = db.versions.map (·.toVersionIdentity) := by
  refine setVersion_identities fun v hv hid => ?_
  obtain rfl : v = version := hids.eq_of_key_eq hv hmem hid
  exact moved_identity ..

namespace SingleActive

theorem addVersion (h : SingleActive db) {v : Version} (hstatus : v.lifecycleStatus = .draft)
    (hfresh : ∀ w ∈ db.versions, w.id ≠ v.id) :
    SingleActive { db with versions := db.versions ++ [v] } where
  versionIds := h.versionIds.append hfresh
  oneActive := by
    have hold : ∀ w ∈ db.versions ++ [v], w.lifecycleStatus = .active → w ∈ db.versions := by
      intro w hw hactive
      rcases mem_append.1 hw with hw | hw
      · exact hw
      · obtain rfl := mem_singleton.1 hw
        rw [hstatus] at hactive
        cases hactive
    intro w hw x hx hdefinition hwactive hxactive
    exact h.oneActive w (hold w hw hwactive) x (hold x hx hxactive) hdefinition hwactive hxactive

theorem validate (h : SingleActive db) (version : Version) :
    SingleActive { db.setVersion version.id (checked env db version) with
      runs := db.runs ++ [currentRun env db version] } where
  versionIds := unique_of_identities (checked_identities env db version) h.versionIds
  oneActive := by
    intro v' hv' w' hw' hdefinition hvactive hwactive
    obtain ⟨v, hv, hvsame, hvstatus, -⟩ := mem_checked hv'
    obtain ⟨w, hw, hwsame, hwstatus, -⟩ := mem_checked hw'
    rw [hvsame, hwsame] at hdefinition ⊢
    exact h.oneActive v hv w hw hdefinition (hvstatus ▸ hvactive) (hwstatus ▸ hwactive)

theorem move (h : SingleActive db) {version : Version} (hmem : version ∈ db.versions)
    {target : LifecycleStatus} {requested : Option Instant} {now : Instant}
    {approvals : List Approval} (hactive : target = .active → Activatable db version) :
    SingleActive { db.setVersion version.id fun _ => version.moved target requested now with
      approvals } where
  versionIds := unique_of_identities (moved_identities h.versionIds hmem ..) h.versionIds
  oneActive := by
    intro v' hv' w' hw' hdefinition hvactive hwactive
    obtain ⟨v, hv, hvsame, -, hvstatus⟩ := mem_moved h.versionIds hmem hv'
    obtain ⟨w, hw, hwsame, -, hwstatus⟩ := mem_moved h.versionIds hmem hw'
    rw [hvsame, hwsame] at hdefinition ⊢
    rcases hvstatus hvactive with hvold | ⟨rfl, htarget⟩
    · rcases hwstatus hwactive with hwold | ⟨rfl, htarget⟩
      · exact h.oneActive v hv w hw hdefinition hvold hwold
      · exact (hactive htarget).alone v hv hdefinition hvold
    · rcases hwstatus hwactive with hwold | ⟨rfl, -⟩
      · exact ((hactive htarget).alone w hw hdefinition.symm hwold).symm
      · rfl

theorem step (h : SingleActive db) (hstep : KnowledgeStep env db call db') : SingleActive db' := by
  cases hstep with
  | define payload hrequest hscope hkey hfresh | addCase version payload hmem hstatus hfresh =>
    exact ⟨h.versionIds, h.oneActive⟩
  | addVersion definitionId payload fingerprint hrequest hgreater hfresh =>
    exact h.addVersion rfl hfresh
  | validate version hmem => exact h.validate version
  | move version target requested hmem hrequest hactive => exact h.move hmem hactive

end SingleActive

/-! ## Runs -/

theorem mem_listCases {c : ValidationCase} :
    c ∈ listCases db versionId ↔ c ∈ db.cases ∧ c.definitionVersionId = versionId := by
  simp [listCases]

theorem mem_currentRun {version : Version} : r ∈ (currentRun env db version).results ↔
      ∃ c ∈ db.cases, c.definitionVersionId = version.id ∧ resultOf env version c = r := by
  simp [currentRun, mem_listCases, and_assoc]

theorem lastRun_spec {run : ValidationRun} (h : run ∈ lastRun db versionId) :
    run ∈ db.runs ∧ run.definitionVersionId = versionId := by
  have hmem := mem_of_getLast? h
  simpa using hmem

theorem lastRun_append (runs : List ValidationRun) (run : ValidationRun) (versionId : UUID) :
    ((runs ++ [run]).filter (·.definitionVersionId = versionId)).getLast? =
      if run.definitionVersionId = versionId then some run
      else (runs.filter (·.definitionVersionId = versionId)).getLast? := by
  by_cases hrun : run.definitionVersionId = versionId
  · simp [filter_append, hrun]
  · simp [filter_append, hrun]

/-! ## What every careful call keeps -/

/-- A result is that of a stored case of its version. -/
def Recorded (env : Env) (db : Db) (run : ValidationRun) (r : ValidationResult) : Prop :=
  ∃ v ∈ db.versions, v.id = run.definitionVersionId ∧
    ∃ c ∈ db.cases, c.definitionVersionId = v.id ∧ r = resultOf env v c

/-- What every careful call keeps. -/
structure Kept (env : Env) (db : Db) : Prop extends Governed db where
  versionIds : Table.Unique (·.id) db.versions
  caseIds : Table.Unique (·.id) db.cases
  recorded : ∀ run ∈ db.runs, ∀ r ∈ run.results, Recorded env db run r
  satisfied : ∀ v ∈ db.versions, v.validationSatisfied = true →
    ∃ run ∈ lastRun db v.id, ∀ r ∈ run.results, r.passed = true

theorem kept_empty (env : Env) : Kept env Db.empty where
  oneActive := by simp [Db.empty]
  increasing := Pairwise.nil
  distinct := Pairwise.nil
  approved := by simp [Db.empty]
  validated := by simp [Db.empty]
  versionIds := Table.Unique.nil
  caseIds := Table.Unique.nil
  recorded := by simp [Db.empty]
  satisfied := by simp [Db.empty]

namespace Kept

theorem singleActive (h : Kept env db) : SingleActive db := ⟨h.versionIds, h.oneActive⟩

theorem eq_of_id (h : Kept env db) {v w : Version} (hv : v ∈ db.versions) (hw : w ∈ db.versions)
    (hid : v.id = w.id) : v = w :=
  h.versionIds.eq_of_key_eq hv hw hid

theorem define (h : Kept env db) (definitions : List Definition) :
    Kept env { db with definitions } where
  oneActive := h.oneActive
  increasing := h.increasing
  distinct := h.distinct
  approved := h.approved
  validated := fun v hv hactive =>
    let ⟨run, hrun, hpasses⟩ := h.validated v hv hactive
    ⟨run, hrun, hpasses.covered, hpasses.passed⟩
  versionIds := h.versionIds
  caseIds := h.caseIds
  recorded := h.recorded
  satisfied := h.satisfied

/-- A new version is a draft that no run has seen. -/
theorem addVersion (h : Kept env db) {definitionId id : UUID} {payload : DefinitionVersionCreate}
    {fingerprint : String}
    (hgreater : ∀ v ∈ db.versions, v.definitionId = definitionId →
      v.semanticVersion < payload.semanticVersion)
    (hnew : NewContent db definitionId payload)
    (hfresh : ∀ v ∈ db.versions, v.id ≠ id) :
    Kept env { db with versions := db.versions ++ [payload.row definitionId fingerprint id] } where
  oneActive := (h.singleActive.addVersion rfl hfresh).oneActive
  increasing := by
    refine pairwise_append.2 ⟨h.increasing, pairwise_singleton .., ?_⟩
    intro v hv w hw hdefinition
    obtain rfl := mem_singleton.1 hw
    exact hgreater v hv hdefinition
  distinct := by
    refine pairwise_append.2 ⟨h.distinct, pairwise_singleton .., ?_⟩
    intro v hv w hw hdefinition
    obtain rfl := mem_singleton.1 hw
    exact hnew v hv hdefinition
  approved := by
    intro v hv hactive
    rcases mem_append.1 hv with hv | hv
    · exact h.approved v hv hactive
    · obtain rfl := mem_singleton.1 hv
      cases hactive
  validated := by
    intro v hv hactive
    rcases mem_append.1 hv with hv | hv
    · obtain ⟨run, hrun, hpasses⟩ := h.validated v hv hactive
      exact ⟨run, hrun, hpasses.covered, hpasses.passed⟩
    · obtain rfl := mem_singleton.1 hv
      cases hactive
  versionIds := h.versionIds.append hfresh
  caseIds := h.caseIds
  recorded := by
    intro run hrun r hr
    obtain ⟨v, hv, hresult⟩ := h.recorded run hrun r hr
    exact ⟨v, mem_append_left _ hv, hresult⟩
  satisfied := by
    intro v hv hsatisfied
    rcases mem_append.1 hv with hv | hv
    · exact h.satisfied v hv hsatisfied
    · obtain rfl := mem_singleton.1 hv
      cases hsatisfied

theorem addCase (h : Kept env db) {version : Version} (hmem : version ∈ db.versions)
    (hstatus : version.lifecycleStatus ≠ .active) {case : ValidationCase}
    (hcase : case.definitionVersionId = version.id) (hfresh : ∀ c ∈ db.cases, c.id ≠ case.id) :
    Kept env { db with cases := db.cases ++ [case] } where
  oneActive := h.oneActive
  increasing := h.increasing
  distinct := h.distinct
  approved := h.approved
  validated := by
    intro v hv hactive
    obtain ⟨run, hrun, hpasses⟩ := h.validated v hv hactive
    refine ⟨run, hrun, ?_, hpasses.passed⟩
    intro c hc hversion
    rcases mem_append.1 hc with hc | hc
    · exact hpasses.covered c hc hversion
    · obtain rfl := mem_singleton.1 hc
      obtain rfl := h.eq_of_id hmem hv (hcase.symm.trans hversion)
      exact absurd hactive hstatus
  versionIds := h.versionIds
  caseIds := h.caseIds.append hfresh
  recorded := by
    intro run hrun r hr
    obtain ⟨v, hv, hid, c, hc, hresult⟩ := h.recorded run hrun r hr
    exact ⟨v, hv, hid, c, mem_append_left _ hc, hresult⟩
  satisfied := h.satisfied

end Kept

theorem resultOf_of_identity {v w : Version} (h : v.toVersionIdentity = w.toVersionIdentity)
    (c : ValidationCase) : resultOf env v c = resultOf env w c := by
  have hcontent : v.content = w.content := congrArg VersionIdentity.content h
  have hfingerprint : v.fingerprint = w.fingerprint := congrArg VersionIdentity.fingerprint h
  rw [resultOf, resultOf, hcontent, hfingerprint]

theorem Recorded.rewrite {run : ValidationRun} (h : Recorded env db run r)
    {versions : List Version}
    (hversions : versions.map (·.toVersionIdentity) = db.versions.map (·.toVersionIdentity))
    {runs : List ValidationRun} {approvals : List Approval} :
    Recorded env ⟨db.definitions, versions, db.cases, runs, approvals⟩ run r := by
  obtain ⟨v, hv, hid, c, hc, hcase, hresult⟩ := h
  obtain ⟨v', hv', hsame⟩ := exists_of_identities hversions hv
  have hid' : v'.id = v.id := congrArg VersionIdentity.id hsame
  refine ⟨v', hv', hid'.trans hid, c, hc, hcase.trans hid'.symm, ?_⟩
  rw [hresult, resultOf_of_identity hsame]

namespace Kept

theorem passes_again (h : Kept env db) {version : Version} (hmem : version ∈ db.versions)
    (hactive : version.lifecycleStatus = .active) :
    ∀ r ∈ (currentRun env db version).results, r.passed = true := by
  intro r hr
  obtain ⟨c, hc, hcase, rfl⟩ := mem_currentRun.1 hr
  obtain ⟨run, hrun, hpasses⟩ := h.validated version hmem hactive
  obtain ⟨r', hr', hid⟩ := hpasses.covered c hc hcase
  obtain ⟨hstored, hversion⟩ := lastRun_spec hrun
  obtain ⟨v, hv, hv', c', hc', hcase', rfl⟩ := h.recorded run hstored r' hr'
  -- the recorded result is the one of this case and this version
  obtain rfl : v = version := h.eq_of_id hv hmem (hv'.trans hversion)
  obtain rfl : c' = c := h.caseIds.eq_of_key_eq hc' hc hid
  exact hpasses.passed _ hr'

/-- After a run over all its cases, the last run of a version is that run. -/
theorem validate (h : Kept env db) {version : Version} (hmem : version ∈ db.versions) :
    Kept env { db.setVersion version.id (checked env db version) with
      runs := db.runs ++ [currentRun env db version] } := by
  have hidentities := checked_identities env db version
  refine ⟨⟨(h.singleActive.validate version).oneActive, ?_, ?_, ?_, ?_⟩, ?_, ?_, ?_, ?_⟩
  · exact pairwise_of_identities (R := Increasing) hidentities h.increasing
  · exact pairwise_of_identities (R := Distinct) hidentities h.distinct
  · intro v' hv' hactive
    obtain ⟨v, hv, hsame, hstatus, -⟩ := mem_checked hv'
    rw [hsame]
    exact h.approved v hv (hstatus ▸ hactive)
  · intro v' hv' hactive
    obtain ⟨v, hv, hsame, hstatus, -⟩ := mem_checked hv'
    rw [hsame, lastRun, lastRun_append]
    by_cases hid : version.id = v.id
    · obtain rfl := h.eq_of_id hmem hv hid
      refine ⟨currentRun env db version, if_pos rfl, ?_, ?_⟩
      · intro c hc hcase
        exact ⟨_, mem_currentRun.2 ⟨c, hc, hcase, rfl⟩, rfl⟩
      · exact h.passes_again hmem (hstatus ▸ hactive)
    · obtain ⟨run, hrun, hpasses⟩ := h.validated v hv (hstatus ▸ hactive)
      exact ⟨run, (if_neg hid).trans hrun, hpasses.covered, hpasses.passed⟩
  · exact unique_of_identities hidentities h.versionIds
  · exact h.caseIds
  · intro run hrun r hr
    rcases mem_append.1 hrun with hrun | hrun
    · exact (h.recorded run hrun r hr).rewrite hidentities
    · obtain rfl := mem_singleton.1 hrun
      obtain ⟨c, hc, hcase, rfl⟩ := mem_currentRun.1 hr
      have hrecorded : Recorded env db (currentRun env db version) (resultOf env version c) :=
        ⟨version, hmem, rfl, c, hc, hcase, rfl⟩
      exact hrecorded.rewrite hidentities
  · intro v' hv' hsatisfied
    obtain ⟨v, hv, hsame, -, hother, hthis⟩ := mem_checked hv'
    rw [hsame, lastRun, lastRun_append]
    by_cases hid : version.id = v.id
    · rw [hthis hid.symm, all_eq_true] at hsatisfied
      exact ⟨currentRun env db version, if_pos hid, hsatisfied⟩
    · rw [hother fun hv => hid hv.symm] at hsatisfied
      obtain ⟨run, hrun, hpassed⟩ := h.satisfied v hv hsatisfied
      exact ⟨run, (if_neg hid).trans hrun, hpassed⟩

/-- A version that becomes active is approved, alone, and validated on its present cases. -/
theorem move (h : Kept env db) {version : Version} (hmem : version ∈ db.versions)
    {target : LifecycleStatus} {requested : Option Instant} {actor : UUID} {now : Instant}
    (hactive : target = .active → Activatable db version)
    (hcovered : target = .active → LastRunCovers db version.id) :
    Kept env { db.setVersion version.id fun _ => version.moved target requested now with
      approvals := approvalsAfter db version target actor } := by
  have hidentities := moved_identities h.versionIds hmem target requested now
  have happroved : ∀ versionId, db.approved versionId → ∃ a ∈ approvalsAfter db version target actor,
      a.definitionVersionId = versionId ∧ a.decision = "approved" := by
    rintro versionId ⟨a, ha, hdecision⟩
    refine ⟨a, ?_, hdecision⟩
    unfold approvalsAfter
    split
    · exact mem_append_left _ ha
    · exact ha
  refine ⟨⟨(h.singleActive.move hmem hactive).oneActive, ?_, ?_, ?_, ?_⟩, ?_, ?_, ?_, ?_⟩
  · exact pairwise_of_identities (R := Increasing) hidentities h.increasing
  · exact pairwise_of_identities (R := Distinct) hidentities h.distinct
  · intro v' hv' hvactive
    obtain ⟨v, hv, hsame, -, hstatus⟩ := mem_moved h.versionIds hmem hv'
    rw [hsame]
    rcases hstatus hvactive with hvold | ⟨rfl, htarget⟩
    · exact happroved v.id (h.approved v hv hvold)
    · exact happroved v.id (hactive htarget).approved
  · intro v' hv' hvactive
    obtain ⟨v, hv, hsame, -, hstatus⟩ := mem_moved h.versionIds hmem hv'
    rw [hsame]
    rcases hstatus hvactive with hvold | ⟨rfl, htarget⟩
    · obtain ⟨run, hrun, hpasses⟩ := h.validated v hv hvold
      exact ⟨run, hrun, hpasses.covered, hpasses.passed⟩
    · obtain ⟨run, hrun, hpassed⟩ := h.satisfied v hv (hactive htarget).satisfied
      refine ⟨run, hrun, ?_, hpassed⟩
      intro c hc hcase
      obtain ⟨run', hrun', hcase'⟩ := hcovered htarget c hc hcase
      rwa [Option.mem_unique hrun hrun']
  · exact unique_of_identities hidentities h.versionIds
  · exact h.caseIds
  · intro run hrun r hr
    exact (h.recorded run hrun r hr).rewrite hidentities
  · intro v' hv' hsatisfied
    obtain ⟨v, hv, hsame, hflag, -⟩ := mem_moved h.versionIds hmem hv'
    rw [hsame]
    exact h.satisfied v hv (hflag ▸ hsatisfied)

theorem step (h : Kept env db) (hstep : KnowledgeStep env db call db') (hcareful : Careful db call) :
    Kept env db' := by
  cases hstep with
  | define payload hrequest hscope hkey hfresh => exact h.define _
  | addVersion definitionId payload fingerprint hrequest hgreater hfresh =>
    rw [Careful, hrequest] at hcareful
    exact h.addVersion hgreater hcareful hfresh
  | addCase version payload hmem hstatus hfresh => exact h.addCase hmem hstatus rfl hfresh
  | validate version hmem => exact h.validate hmem
  | move version target requested hmem hrequest hactive =>
    refine h.move hmem hactive ?_
    rintro rfl
    rw [Careful, hrequest rfl] at hcareful
    exact hcareful rfl

end Kept

/-! ## Careful runs -/

/-- Active knowledge is validated knowledge in every state that careful calls reach. -/
theorem governed_of_careful (env : Env) (calls : List Call)
    (hcareful : (service env).AllSteps Careful Db.empty calls) :
    Governed ((service env).run Db.empty calls) := by
  have hkept : Kept env ((service env).run Db.empty calls) := by
    refine Service.run_invariant_of (kept_empty env) ?_ hcareful
    intro db call db' reply hkept hcall hserve
    obtain ⟨written, hwritten, hreply⟩ := map_eq_ok.1 hserve
    obtain ⟨rfl, -⟩ := Prod.mk.inj hreply
    exact hkept.step (serve_step hwritten) hcall
  exact hkept.toGoverned

/-! ## A case that no run has seen -/

namespace LateCase

/-- The libraries, on the values of this run. -/
def libraries : Env where
  upper := String.toUpper
  digest := fun _ => "fingerprint"
  sameText := fun _ _ => false

def definition : DefinitionCreate where
  stableCode := "SHARED.COUNT"
  analyticalLevel := .arithmetic
  ownerOrganizationId := none
  industryPackCode := none
  regionCode := none
  scopeType := .sharedCore
  isSystemDefinition := false

/-- A count of records. -/
def content : Content where
  expressionSchema := ⟨.supported .count, [], [], [], []⟩
  outputType := "number"
  outputUnit := "count"
  currencyCode := none
  roundingPolicy := "\x7b\x7d"
  nullPolicy := "exclude"
  zeroDenominatorPolicy := "error"
  trustRequirement := "\x7b\x7d"
  readinessRequirement := "\x7b\x7d"
  parameters := []
  inputRequirements := []
  evidenceRequirements := []

def version : DefinitionVersionCreate where
  semanticVersion := toLex (1, toLex (0, 0))
  qualityLevel := .experimental
  effectiveFrom := none
  effectiveTo := none
  content := content

/-- A case that expects a count of one record. -/
def countCase (caseCode : String) (values : List Value) : ValidationCaseCreate where
  caseCode := caseCode
  inputPayload := ⟨none, some values, none, none⟩
  expectedOutput := .text "1"
  tolerance := some "0"
  expectedStatus := "completed"

def made (drawn : UUID) (request : Request) : Call := ⟨none, 9, drawn, drawn, request⟩

/-- The version is validated on one case, and approved. -/
def validated : List Call :=
  [made 1 (.create definition), made 2 (.createVersion 1 version),
    made 3 (.createCase 2 (countCase "ONE" [.text "5"])), made 4 (.run 2),
    made 5 (.transition 2 .inReview none), made 6 (.markValidated 2),
    made 7 (.transition 2 .approved none)]

/-- A second case, which counts two records, comes before the activation. -/
def calls : List Call :=
  validated ++ [made 8 (.createCase 2 (countCase "TWO" [.text "5", .text "6"])),
    made 9 (.transition 2 .active none)]

theorem governed_of_validated :
    Governed ((service libraries).run Db.empty (validated ++ [made 9 (.transition 2 .active none)])) :=
  governed_of_careful libraries _ (by decide +kernel)

theorem uncovered : (∃ v ∈ ((service libraries).run Db.empty calls).versions,
      v.id = 2 ∧ v.lifecycleStatus = .active) ∧
    ¬ LastRunCovers ((service libraries).run Db.empty calls) 2 := by
  decide +kernel

theorem not_governed : ¬ Governed ((service libraries).run Db.empty calls) := by
  intro h
  obtain ⟨⟨v, hv, hid, hactive⟩, huncovered⟩ := uncovered
  obtain ⟨run, hrun, hpasses⟩ := h.validated v hv hactive
  rw [hid] at hrun hpasses
  exact huncovered fun c hc hcase => ⟨run, hrun, hpasses.covered c hc hcase⟩

end LateCase

end Intel4Ops.Knowledge
