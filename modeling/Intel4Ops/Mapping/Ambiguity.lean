import Intel4Ops.Mapping.Review

/-!
# Ambiguous identities

A record whose output has fuzzy candidates and no deterministic match is to stay ambiguous until a
reviewer accepts a candidate. Materialization looks the content fingerprint up first, and its store
holds the provisional entities of earlier ambiguous records. `ambiguityKept_iff` says when no
identity is mapped silently: exactly when no record takes a shortcut through stored content or
through a provisional entity.
-/

namespace Intel4Ops.Mapping

open Lib List Except Prod

/-! ## What resolution finds -/

def EntityMatchRule.Matches (env : Env) (rule : EntityMatchRule) (output : Output)
    (entity : CanonicalEntity) : Prop :=
  deterministicMatch env rule.matchMethod rule.matchFields output entity = true

/-- The fuzzy rule takes the entity for a candidate. -/
def EntityMatchRule.Reaches (env : Env) (rule : EntityMatchRule) (output : Output)
    (entity : CanonicalEntity) : Prop :=
  rule.matchMethod = .fuzzyCandidate ∧
    env.atLeast (fuzzyScore env rule.matchFields output entity) (rule.threshold env) = .ok true

variable {output : Output} {rule : EntityMatchRule} {entities : List CanonicalEntity}

theorem EntityMatchRule.Matches.not_fuzzy {env : Env} {entity : CanonicalEntity}
    (h : rule.Matches env output entity) : rule.matchMethod ≠ .fuzzyCandidate := by
  intro hfuzzy
  simp [EntityMatchRule.Matches, deterministicMatch, hfuzzy] at h

theorem mem_fuzzyCandidates {env : Env} {found : List MatchCandidate}
    (h : fuzzyCandidates env rule output entities = .ok found) {m : MatchCandidate} :
    m ∈ found ↔ ∃ e ∈ entities, m = ⟨rule, e, fuzzyScore env rule.matchFields output e⟩ ∧
      env.atLeast (fuzzyScore env rule.matchFields output e) (rule.threshold env) = .ok true := by
  induction entities generalizing found with
  | nil =>
    obtain rfl : [] = found := ok.inj h
    simp
  | cons e entities ih =>
    simp only [fuzzyCandidates, bind_eq_ok, pure_eq_ok] at h
    obtain ⟨reached, hreached, rest, hrest, rfl⟩ := h
    simp only [mem_cons, exists_eq_or_imp, hreached, ok.injEq]
    cases reached with
    | true => rw [if_pos rfl, mem_cons, ih hrest, and_iff_left rfl]
    | false => simpa using ih hrest

/-- How resolution ends: with the entity that a deterministic rule matches, in conflict unless the
contents agree, or, where no rule matches an entity, with candidates that fuzzy rules reach. -/
theorem resolveRules_spec {env : Env} {rules : List EntityMatchRule} {found : List MatchCandidate}
    {resolution : Resolution} (h : resolveRules env entities output rules found = .ok resolution) :
    (∃ e conflict, resolution = .deterministic e conflict ∧ e ∈ entities ∧
        (∃ rule ∈ rules, rule.Matches env output e) ∧
        (env.stableJson e.attributes ≠ env.stableJson output → conflict = true)) ∨
      (∀ rule ∈ rules, ∀ e ∈ entities, ¬ rule.Matches env output e) ∧
        ∃ candidates, resolution = .candidates candidates ∧
          (candidates = [] ↔ found = [] ∧
            ∀ rule ∈ rules, ∀ e ∈ entities, ¬ rule.Reaches env output e) := by
  induction rules generalizing found with
  | nil =>
    refine .inr ⟨fun _ h => absurd h not_mem_nil, _, (ok.inj h).symm, ?_⟩
    have hlen := (perm_insertionSort (fun a b => b.score ≤ a.score) found).length_eq
    rw [← length_eq_zero_iff, length_take, hlen, maxCandidates]
    constructor
    · intro hmin
      refine ⟨length_eq_zero_iff.1 (by omega), fun _ h => absurd h not_mem_nil⟩
    · rintro ⟨rfl, -⟩
      rfl
  | cons rule rules ih =>
    unfold resolveRules at h
    split at h
    · rename_i hfuzzy
      simp only [bind_eq_ok] at h
      obtain ⟨more, hmore, h⟩ := h
      rcases ih h with ⟨e, conflict, heq, he, ⟨rule', hrule', hmatch⟩, hconflict⟩ |
        ⟨hnone, candidates, heq, hempty⟩
      · exact .inl ⟨e, conflict, heq, he, ⟨rule', mem_cons_of_mem _ hrule', hmatch⟩, hconflict⟩
      · refine .inr ⟨?_, candidates, heq, ?_⟩
        · intro rule' hrule' e he hmatch
          rcases mem_cons.1 hrule' with rfl | hrule'
          · exact hmatch.not_fuzzy hfuzzy
          · exact hnone rule' hrule' e he hmatch
        · -- The rule added nothing exactly when it reaches no entity.
          have hmore_nil : more = [] ↔ ∀ e ∈ entities, ¬ rule.Reaches env output e := by
            constructor
            · rintro rfl e he ⟨-, hreach⟩
              exact absurd ((mem_fuzzyCandidates hmore).2 ⟨e, he, rfl, hreach⟩) not_mem_nil
            · intro hreach
              refine eq_nil_iff_forall_not_mem.2 fun m hm => ?_
              obtain ⟨e, he, -, hscore⟩ := (mem_fuzzyCandidates hmore).1 hm
              exact hreach e he ⟨hfuzzy, hscore⟩
          rw [hempty, append_eq_nil_iff, hmore_nil, forall_mem_cons, and_assoc]
    · rename_i hmethod
      have hreach : ∀ e ∈ entities, ¬ rule.Reaches env output e :=
        fun e _ hreach => hmethod hreach.1
      split at h
      · rename_i hfilter
        have hrule : ∀ e ∈ entities, ¬ rule.Matches env output e := by
          intro e he hmatch
          have hmem := mem_filter.2 ⟨he, hmatch⟩
          rw [hfilter] at hmem
          exact absurd hmem not_mem_nil
        rcases ih h with ⟨e, conflict, heq, he, ⟨rule', hrule', hmatch⟩, hconflict⟩ |
          ⟨hnone, candidates, heq, hempty⟩
        · exact .inl ⟨e, conflict, heq, he, ⟨rule', mem_cons_of_mem _ hrule', hmatch⟩, hconflict⟩
        · refine .inr ⟨forall_mem_cons.2 ⟨hrule, hnone⟩, candidates, heq, ?_⟩
          rw [hempty, forall_mem_cons, and_iff_right hreach]
      · rename_i e others hfilter
        have hmem : e ∈ entities.filter
            (deterministicMatch env rule.matchMethod rule.matchFields output) := by
          rw [hfilter]
          exact mem_cons_self
        obtain ⟨he, hmatch⟩ := mem_filter.1 hmem
        refine .inl ⟨e, _, (ok.inj h).symm, he, ⟨rule, mem_cons_self, hmatch⟩, ?_⟩
        intro hdiffers
        exact decide_eq_true (.inr hdiffers)

/-! ## Histories -/

/-- The tables with the entities that were created for ambiguous records. -/
structure History where
  db : Db
  provisional : List UUID

/-- What happens to the store: a record of some run is mapped, a reviewer decides, or a rule is
added. -/
inductive Event
  | map (run : MappingRun) (version : MappingTemplateVersion) (record : MappingInputRecord)
  | decideCandidate (organizationId candidateId : UUID) (decision : EntityMatchDecision)
      (actorUserId : UUID)
  | reviewException (organizationId exceptionId : UUID) (decision : MappingReviewDecision)
      (actorUserId : UUID)
  | addRule (rule : EntityMatchRule)

/-- The target of the last record, if it is ambiguous. -/
def ambiguousTarget (db : Db) : List UUID :=
  match db.results.getLast? with
  | some r => if r.status = .ambiguous then r.canonicalTargetId.toList else []
  | none => []

def record (env : Env) : Service History Event Unit Raised := fun h event =>
  match event with
  | .map run version record => (mapRecord env h.db run version record).map fun p =>
    (⟨p.1, h.provisional ++ ambiguousTarget p.1⟩, ())
  | .decideCandidate org id decision actor => (decideCandidate h.db org id decision actor).map
    fun db => ({ h with db }, ())
  | .reviewException org id decision actor => (reviewException h.db org id decision actor).map
    fun db => ({ h with db }, ())
  | .addRule rule =>
    .ok ({ h with db := { h.db with matchRules := h.db.matchRules ++ [rule] } }, ())

/-- An entity of an ambiguous record that no reviewer accepted as a candidate. -/
def History.Provisional (h : History) (id : UUID) : Prop :=
  id ∈ h.provisional ∧ ¬ ∃ c ∈ h.db.candidates, c.candidateEntityId = id ∧ c.status = .accepted

section Property

variable (env : Env) (h : History) (org : UUID) (version : MappingTemplateVersion)
  (output : Output)

/-- Some fuzzy rule reaches an entity of the type. -/
def HasFuzzy : Prop :=
  ∃ rule ∈ rulesOf h.db version.targetTypeId, ∃ e ∈ entitiesOf h.db org version.targetTypeId,
    rule.Reaches env output e

/-- Some deterministic rule matches an entity of the type that meets `P`. -/
def HasMatch (P : CanonicalEntity → Prop) : Prop :=
  ∃ rule ∈ rulesOf h.db version.targetTypeId, ∃ e ∈ entitiesOf h.db org version.targetTypeId,
    rule.Matches env output e ∧ P e

/-- A reviewer has accepted a candidate for the output. -/
def HasAccepted : Prop :=
  ∃ c ∈ h.db.candidates, c.status = .accepted ∧ c.organizationId = org ∧
    (∃ e ∈ h.db.entities, e.id = c.candidateEntityId ∧ e.entityTypeId = version.targetTypeId) ∧
    ∃ l ∈ h.db.links, l.id = c.sourceCanonicalLinkId ∧ ∃ r ∈ h.db.results, l.Of r ∧
      env.stableJson r.resultJson = env.stableJson output

/-- The output is ambiguous: it has fuzzy candidates, no deterministic match with an entity that
stands, and no accepted candidate. -/
def NeedsReview : Prop :=
  HasFuzzy env h org version output ∧
    ¬ HasMatch env h org version output (fun e => ¬ h.Provisional e.id) ∧
    ¬ HasAccepted env h org version output

/-- The record was stored as ambiguous: with the status, the candidates that resolution found, and a
link that is not primary. -/
def RecordedAmbiguous (db' : Db) : Prop :=
  ∃ r l id candidates,
    resolve env h.db org version.targetTypeId output = .ok (.candidates candidates) ∧
    candidates ≠ [] ∧ db'.results = h.db.results ++ [r] ∧ r.status = .ambiguous ∧
    db'.links = h.db.links ++ [l] ∧ l.Of r ∧ l.isPrimary = false ∧
    db'.candidates = h.db.candidates ++ candidateRows org l.id id candidates

/-- The last record was not mapped onto a provisional entity. -/
def NotOntoProvisional (db' : Db) : Prop :=
  ∀ r, db'.results = h.db.results ++ [r] → r.status = .mapped →
    ∀ id ∈ r.canonicalTargetId, ¬ h.Provisional id

/-- The output is stored content, or a deterministic rule matches a provisional entity. -/
def TakesShortcut : Prop :=
  NeedsReview env h org version output ∧
      ((storedContent env h.db org version output).isSome = true ∨
        HasMatch env h org version output fun e => h.Provisional e.id) ∨
    ∃ e, storedContent env h.db org version output = some e ∧ h.Provisional e.id

end Property

/-- The record of an event is mapped to an entity, with this output and these tables behind it. -/
def Maps (env : Env) (h : History) (event : Event) (org : UUID) (version : MappingTemplateVersion)
    (output : Output) (db' : Db) : Prop :=
  ∃ run rec scores run', event = .map run version rec ∧ run.organizationId = org ∧
    version.targetKind = .entity ∧
    mapFields env h.db org version rec.values = .ok (output, scores) ∧
    mapRecord env h.db run version rec = .ok (db', run')

/-- No identity is mapped silently: an output that needs review is stored as ambiguous, and no
record is mapped onto a provisional entity. -/
def AmbiguityKept (env : Env) (h : History) (event : Event) : Prop :=
  ∀ org version output db', Maps env h event org version output db' →
    (NeedsReview env h org version output → RecordedAmbiguous env h org version output db') ∧
      NotOntoProvisional h db'

/-- The event maps a record that takes a shortcut. -/
def Shortcut (env : Env) (h : History) (event : Event) : Prop :=
  ∃ org version output db', Maps env h event org version output db' ∧
    TakesShortcut env h org version output

/-! ## One record -/

section Record

variable {env : Env} {h : History} {org : UUID} {version : MappingTemplateVersion}
  {output : Output} {db' : Db} {event : Event}

/-- The rows of a record that is mapped to an entity. -/
theorem Maps.target (hmaps : Maps env h event org version output db') :
    ∃ target r l id, materializeEntity env h.db org version output = .ok target ∧
      db'.results = h.db.results ++ [r] ∧ r.status = target.status ∧
      r.canonicalTargetId = some target.targetId ∧ db'.links = h.db.links ++ [l] ∧ l.Of r ∧
      l.isPrimary = decide (target.status = .mapped) ∧
      db'.candidates = h.db.candidates ++ candidateRows org l.id id target.candidates := by
  obtain ⟨run, rec, scores, run', -, rfl, hkind, hfields, hrecord⟩ := hmaps
  rcases mapRecord_cases hrecord with ⟨-, ⟨type, fields, hstop, -⟩ | ⟨output', scores', target,
    hfields', htarget, htables⟩⟩
  · rw [hfields] at hstop
    cases hstop
  · obtain ⟨rfl, rfl⟩ : output = output' ∧ scores = scores' :=
      mk.inj (ok.inj (hfields.symm.trans hfields'))
    obtain ⟨hsame, hcandidates, -⟩ := materializeTarget_records htarget
    obtain ⟨xs, hadds⟩ := recordTarget_adds hsame hcandidates htables
    have hlink := (hadds.mem_links (mem_singleton_self _)).2.of
    simp only [materializeTarget, hkind] at htarget
    exact ⟨target, _, _, _, htarget, hadds.results, rfl, rfl, hadds.links, hlink, rfl,
      hadds.candidates⟩

def CanonicalEntity.Fingerprinted (env : Env) (e : CanonicalEntity) : Prop :=
  e.contentFingerprint = env.digest .entity e.entityTypeId (env.stableJson e.attributes)

/-- Entities carry the fingerprints of their attributes, and provisional entities are drawn. -/
structure Traced (env : Env) (h : History) : Prop where
  fingerprints : ∀ e ∈ h.db.entities, e.Fingerprinted env
  drawn : ∀ id ∈ h.provisional, id < h.db.nextId

theorem Traced.differs (ht : Traced env h) (hkind : version.targetKind = .entity)
    (hnone : storedContent env h.db org version output = none) {e : CanonicalEntity}
    (he : e ∈ entitiesOf h.db org version.targetTypeId) :
    env.stableJson e.attributes ≠ env.stableJson output := by
  obtain ⟨hmem, horg, htype⟩ : e ∈ h.db.entities ∧ e.organizationId = org ∧
      e.entityTypeId = version.targetTypeId := by
    simpa [entitiesOf] using he
  intro heq
  refine List.find?_eq_none.1 hnone e hmem (decide_eq_true ⟨horg, ?_⟩)
  rw [ht.fingerprints e hmem, htype, heq, fingerprint, hkind]

theorem Maps.kept (hmaps : Maps env h event org version output db') (ht : Traced env h)
    (hno : ¬ TakesShortcut env h org version output) :
    (NeedsReview env h org version output → RecordedAmbiguous env h org version output db') ∧
      NotOntoProvisional h db' := by
  obtain ⟨target, r, l, id, htarget, hresults, hstatus, hid, hlinks, hof, hprimary, hcandidates⟩ :=
    hmaps.target
  have hkind : version.targetKind = .entity := by
    obtain ⟨-, -, -, -, -, -, hkind, -⟩ := hmaps
    exact hkind
  have hlast : ∀ r', db'.results = h.db.results ++ [r'] → r' = r := by
    intro r' hr'
    rw [hresults, append_cancel_left_eq, singleton_inj] at hr'
    exact hr'.symm
  rcases materializeEntity_cases htarget with ⟨e, hstored, rfl⟩ | ⟨hnone, hresolved⟩
  · -- The content is stored: then the record needs no review, and its entity stands.
    constructor
    · intro hneeds
      exact absurd (.inl ⟨hneeds, .inl (by rw [hstored]; rfl)⟩) hno
    · intro r' hr' _ id' hid' hprovisional
      rw [hlast r' hr', hid] at hid'
      obtain rfl : e.id = id' := Option.some.inj hid'
      exact hno (.inr ⟨e, hstored, hprovisional⟩)
  · rcases hresolved with ⟨e, conflict, hresolve, rfl⟩ | ⟨candidates, hresolve, rfl⟩
    · rcases resolveRules_spec hresolve with ⟨e', conflict', heq, he, ⟨rule, hrule, hmatch⟩,
        hconflict⟩ | ⟨-, candidates, heq, -⟩
      · obtain ⟨rfl, rfl⟩ : e = e' ∧ conflict = conflict' := by
          simpa using heq
        obtain rfl : conflict = true := hconflict (ht.differs hkind hnone he)
        constructor
        · intro hneeds
          refine absurd ?_ hno
          refine .inl ⟨hneeds, .inr ⟨rule, hrule, e, he, hmatch, ?_⟩⟩
          by_contra hstands
          exact hneeds.2.1 ⟨rule, hrule, e, he, hmatch, hstands⟩
        · intro r' hr' hmapped
          rw [hlast r' hr', hstatus] at hmapped
          cases hmapped
      · cases heq
    · rcases resolveRules_spec hresolve with ⟨e, conflict, heq, -⟩ | ⟨-, candidates', heq, hempty⟩
      · cases heq
      · obtain rfl : candidates = candidates' := by
          simpa using heq
        constructor
        · rintro ⟨⟨rule, hrule, e, he, hreach⟩, -⟩
          have hne : candidates ≠ [] := fun hnil =>
            (hempty.1 hnil).2 rule hrule e he hreach
          rw [if_neg hne] at hstatus hprimary
          exact ⟨r, l, id, candidates, hresolve, hne, hresults, hstatus, hlinks, hof, hprimary,
            hcandidates⟩
        · intro r' hr' _ id' hid' hprovisional
          rw [hlast r' hr', hid] at hid'
          obtain rfl : h.db.nextId = id' := Option.some.inj hid'
          exact absurd (ht.drawn _ hprovisional.1) (lt_irrefl _)

theorem Maps.silent (hmaps : Maps env h event org version output db')
    (hshort : TakesShortcut env h org version output) :
    ¬ ((NeedsReview env h org version output → RecordedAmbiguous env h org version output db') ∧
      NotOntoProvisional h db') := by
  obtain ⟨target, r, l, id, htarget, hresults, hstatus, hid, -, -, -, -⟩ := hmaps.target
  rintro ⟨hambiguous, honto⟩
  have hstored_mapped : ∀ e, storedContent env h.db org version output = some e →
      r.status = .mapped ∧ r.canonicalTargetId = some e.id := by
    intro e hstored
    rcases materializeEntity_cases htarget with ⟨e', hstored', rfl⟩ | ⟨hnone, -⟩
    · obtain rfl : e = e' := Option.some.inj (hstored.symm.trans hstored')
      exact ⟨hstatus, hid⟩
    · rw [hstored] at hnone
      cases hnone
  rcases hshort with ⟨hneeds, hstored | ⟨rule, hrule, e, he, hmatch, -⟩⟩ | ⟨e, hstored, hprovisional⟩
  · obtain ⟨e, hstored⟩ := Option.isSome_iff_exists.1 hstored
    obtain ⟨r', l, id, candidates, -, -, hresults', hambiguous', -⟩ := hambiguous hneeds
    rw [hresults, append_cancel_left_eq, singleton_inj] at hresults'
    rw [← hresults', (hstored_mapped e hstored).1] at hambiguous'
    cases hambiguous'
  · obtain ⟨r', l, id, candidates, hresolve, -⟩ := hambiguous hneeds
    rcases resolveRules_spec hresolve with ⟨e', conflict, heq, -⟩ | ⟨hnone, -⟩
    · cases heq
    · exact hnone rule hrule e he hmatch
  · obtain ⟨hmapped, htarget⟩ := hstored_mapped e hstored
    exact honto r hresults hmapped e.id htarget hprovisional

/-- One event maps no identity silently exactly when it takes no shortcut. -/
theorem Traced.keeps_iff (ht : Traced env h) :
    AmbiguityKept env h event ↔ ¬ Shortcut env h event := by
  constructor
  · rintro hkept ⟨org, version, output, db', hmaps, hshort⟩
    exact hmaps.silent hshort (hkept org version output db' hmaps)
  · intro hno org version output db' hmaps
    exact hmaps.kept ht fun hshort => hno ⟨org, version, output, db', hmaps, hshort⟩

end Record

/-! ## Runs of events -/

section Runs

variable {env : Env} {h h' : History} {db db' : Db}

theorem setSurvivorship_fingerprinted {entityId linkId : UUID}
    (hall : ∀ e ∈ db.entities, e.Fingerprinted env) :
    ∀ e ∈ (setSurvivorship db entityId linkId).entities, e.Fingerprinted env := by
  intro e he
  obtain ⟨e₀, he₀, rfl⟩ := Table.mem_update.1 he
  split
  · exact hall e₀ he₀
  · exact hall e₀ he₀

variable {org rawId : UUID} {output : Output} {run' : MappingRun}

/-- Materialization stores entities with the fingerprints of their attributes, and the target of an
ambiguous output is drawn. -/
theorem materializeTarget_traced {version : MappingTemplateVersion} {target : Materialized}
    (h : materializeTarget env db org version output = .ok target)
    (hall : ∀ e ∈ db.entities, e.Fingerprinted env) :
    (∀ e ∈ target.db.entities, e.Fingerprinted env) ∧
      (target.status = .ambiguous → target.targetId < target.db.nextId) := by
  unfold materializeTarget at h
  split at h
  · rename_i hkind
    rcases materializeEntity_cases h with ⟨e, -, rfl⟩ | ⟨-, ⟨e, conflict, -, rfl⟩ | ⟨cs, -, rfl⟩⟩
    · exact ⟨hall, fun hstatus => by cases hstatus⟩
    · refine ⟨hall, ?_⟩
      show (if conflict then _ else _) = _ → _
      split <;> intro hstatus <;> cases hstatus
    · refine ⟨fun e he => ?_, fun _ => Nat.lt_succ_self _⟩
      rcases mem_append.1 he with he | he
      · exact hall e he
      · rw [mem_singleton.1 he]
        show fingerprint env version output = _
        rw [fingerprint, hkind]
        rfl
  all_goals
    simp only [bind_eq_ok, pure_eq_ok] at h
    obtain ⟨o, -, rows, -, rfl⟩ := h
    exact ⟨hall, fun hstatus => by cases hstatus⟩

theorem ambiguousTarget_eq {r : MappingRecordResult} (h : db'.results = db.results ++ [r]) :
    ambiguousTarget db' = if r.status = .ambiguous then r.canonicalTargetId.toList else [] := by
  rw [ambiguousTarget, h, List.getLast?_concat]

theorem exceptionResult_entities {run : MappingRun} {version : MappingTemplateVersion}
    {type : MappingExceptionType} {fields : List String}
    (h : exceptionResult db run version rawId type fields = .ok (db', run')) :
    db'.entities = db.entities ∧ ambiguousTarget db' = [] := by
  simp only [exceptionResult, bind_eq_ok, pure_eq_ok, mk.injEq] at h
  obtain ⟨recorded, hadd, rfl, -⟩ := h
  obtain ⟨-, -, rfl⟩ := addResult_eq hadd
  refine ⟨rfl, ?_⟩
  rw [ambiguousTarget_eq (show _ = db.results ++ [_] from rfl)]
  split <;> rfl

theorem recordTarget_fingerprinted {run : MappingRun} {version : MappingTemplateVersion}
    {confidence : ℚ} {target : Materialized}
    (h : recordTarget run version rawId output confidence target = .ok (db', run'))
    (hall : ∀ e ∈ target.db.entities, e.Fingerprinted env) :
    ∀ e ∈ db'.entities, e.Fingerprinted env := by
  obtain ⟨-, -, hsettle⟩ := recordTarget_eq h
  rcases settleRecord_cases hsettle with ⟨-, -, type, rfl⟩ | ⟨-, -, rfl | ⟨-, rfl⟩⟩
  · exact hall
  · exact hall
  · exact setSurvivorship_fingerprinted hall

theorem mapRecord_traced {run : MappingRun} {version : MappingTemplateVersion}
    {record : MappingInputRecord} (h : mapRecord env db run version record = .ok (db', run'))
    (hall : ∀ e ∈ db.entities, e.Fingerprinted env) :
    (∀ e ∈ db'.entities, e.Fingerprinted env) ∧ ∀ id ∈ ambiguousTarget db', id < db'.nextId := by
  rcases mapRecord_cases h with ⟨-, ⟨type, fields, -, hexception⟩ | ⟨output, scores, target, -,
    htarget, hrecord⟩⟩
  · obtain ⟨hentities, hnone⟩ := exceptionResult_entities hexception
    rw [hentities, hnone]
    exact ⟨hall, fun id hid => absurd hid not_mem_nil⟩
  · obtain ⟨hsame, hkind, -⟩ := materializeTarget_records htarget
    obtain ⟨hfingerprints, hdrawn⟩ := materializeTarget_traced htarget hall
    obtain ⟨xs, hadds⟩ := recordTarget_adds hsame hkind hrecord
    refine ⟨recordTarget_fingerprinted hrecord hfingerprints, ?_⟩
    rw [ambiguousTarget_eq hadds.results]
    intro id hid
    split at hid
    · rename_i hambiguous
      obtain rfl : id = target.targetId := by
        simpa [targetResult] using hid
      exact (hdrawn hambiguous).trans hadds.resultDrawn.2
    · exact absurd hid not_mem_nil

theorem decideCandidate_traced {id actor : UUID} {decision : EntityMatchDecision}
    (h : decideCandidate db org id decision actor = .ok db')
    (hall : ∀ e ∈ db.entities, e.Fingerprinted env) :
    (∀ e ∈ db'.entities, e.Fingerprinted env) ∧ db'.nextId = db.nextId := by
  rcases decideCandidate_cases h with ⟨-, c, -, rfl⟩ | ⟨-, c, l, r, -, -, -, rfl⟩
  · exact ⟨hall, rfl⟩
  · exact ⟨setSurvivorship_fingerprinted hall, rfl⟩

theorem Traced.step {event : Event} {reply : Unit} (ht : Traced env h)
    (hok : record env h event = .ok (h', reply)) : Traced env h' := by
  cases event with
  | map run version rec =>
    obtain ⟨⟨db', run'⟩, hrecord, heq⟩ := map_eq_ok.1 hok
    obtain rfl := (mk.inj heq).1
    obtain ⟨hfingerprints, hdrawn⟩ := mapRecord_traced hrecord ht.fingerprints
    obtain ⟨r, ls, cs, xs, hadds, -, -⟩ := mapRecord_adds hrecord
    refine ⟨hfingerprints, fun id hid => ?_⟩
    rcases mem_append.1 hid with hid | hid
    · exact (ht.drawn id hid).trans_le hadds.supply
    · exact hdrawn id hid
  | decideCandidate org id decision actor =>
    obtain ⟨db', hdecide, heq⟩ := map_eq_ok.1 hok
    obtain rfl := (mk.inj heq).1
    obtain ⟨hfingerprints, hsupply⟩ := decideCandidate_traced hdecide ht.fingerprints
    exact ⟨hfingerprints, fun id hid => hsupply ▸ ht.drawn id hid⟩
  | reviewException org id decision actor =>
    obtain ⟨db', hreview, heq⟩ := map_eq_ok.1 hok
    obtain rfl := (mk.inj heq).1
    simp only [reviewException, bind_eq_ok, pure_eq_ok] at hreview
    obtain ⟨x, -, -, -, rfl⟩ := hreview
    exact ⟨ht.fingerprints, fun id hid => (ht.drawn id hid).trans (Nat.lt_succ_self _)⟩
  | addRule rule =>
    obtain rfl := (mk.inj (ok.inj hok)).1
    exact ⟨ht.fingerprints, ht.drawn⟩

end Runs

/-- The history before the first record. -/
def Db.unmapped (db : Db) : History := ⟨{ db.withoutRecords with entities := [] }, []⟩

theorem Traced.unmapped (env : Env) (db : Db) : Traced env db.unmapped where
  fingerprints _ h := absurd h not_mem_nil
  drawn _ h := absurd h not_mem_nil

/-- Over every run of records, reviews and new rules, no identity is mapped silently exactly when no
record takes a shortcut. -/
theorem ambiguityKept_iff (env : Env) (db : Db) (events : List Event) :
    (record env).AllSteps (AmbiguityKept env) db.unmapped events ↔
      (record env).AllSteps (fun h event => ¬ Shortcut env h event) db.unmapped events := by
  constructor
  · refine Service.allSteps_of_invariant (Traced.unmapped env db) (fun h _ hok => h.step hok) ?_
    exact fun h hkept => h.keeps_iff.1 hkept
  · refine Service.allSteps_of_invariant (Traced.unmapped env db) (fun h _ hok => h.step hok) ?_
    exact fun h hno => h.keeps_iff.2 hno

/-! ## A repeated output that was ambiguous -/

namespace RepeatedOutput

/-- Three raw records, and the fuzzy rule on names. -/
def db : Db := { SettledCandidate.db with rawRecords := [⟨5, 9, 6⟩, ⟨10, 9, 6⟩, ⟨11, 9, 6⟩] }

def run : MappingRun where
  id := 12
  organizationId := 9
  datasetVersionId := 6
  templateVersionId := 1
  status := .running
  idempotencyKey := "run"
  requestFingerprint := "print"
  inputCount := 3
  createdAt := 0

/-- A raw record with a name is mapped. -/
def naming (rawId : UUID) (name : String) : Event :=
  .map run SettledCandidate.version ⟨rawId, [("name", .str name)]⟩

/-- A name is mapped, and one that is all but the same is ambiguous. -/
def before : History := (record Env.words).run db.unmapped [naming 5 "acmes", naming 10 "acme"]

def targets (h : History) : List (MappingRecordStatus × Option UUID) :=
  h.db.results.map fun r => (r.status, r.canonicalTargetId)

theorem targets_before : targets before = [(.mapped, some 100), (.ambiguous, some 103)] ∧
    before.provisional = [103] ∧ before.db.candidates.map (·.status) = [.candidate] := by
  decide +kernel

theorem targets_after : targets ((record Env.words).next before (naming 11 "acme")) =
    [(.mapped, some 100), (.ambiguous, some 103), (.mapped, some 103)] := by
  decide +kernel

/-- The ambiguous name, repeated, is mapped onto the provisional entity. -/
theorem not_ambiguityKept : ¬ (record Env.words).AllSteps (AmbiguityKept Env.words) db.unmapped
    [naming 5 "acmes", naming 10 "acme", naming 11 "acme"] := by
  rintro ⟨-, -, hkept, -⟩
  have hkept : AmbiguityKept Env.words before (naming 11 "acme") := hkept
  obtain ⟨hbefore, hprovisional, hundecided⟩ := targets_before
  have hafter := targets_after
  rcases Service.next_cases (record Env.words) before (naming 11 "acme") with
    ⟨h', reply, hok, hnext⟩ | ⟨e, -, hnext⟩
  · obtain ⟨⟨db', run'⟩, hrecord, heq⟩ := map_eq_ok.1 hok
    obtain ⟨r, ls, cs, xs, hadds, -, -⟩ := mapRecord_adds hrecord
    have hmaps : Maps Env.words before (naming 11 "acme") 9 SettledCandidate.version
        [("name", .json (.str "acme"))] db' :=
      ⟨run, _, _, run', rfl, rfl, rfl, rfl, hrecord⟩
    rw [hnext, ← (mk.inj heq).1] at hafter
    obtain ⟨hmapped, htarget⟩ : r.status = .mapped ∧ r.canonicalTargetId = some 103 := by
      simpa [targets, hadds.results, ← map_append] using (congrArg List.getLast? hafter)
    refine (hkept _ _ _ _ hmaps).2 r hadds.results hmapped 103 htarget ⟨?_, ?_⟩
    · rw [hprovisional]
      exact mem_singleton_self _
    · rintro ⟨c, hc, -, haccepted⟩
      have hmem := mem_map_of_mem (f := (·.status)) hc
      rw [hundecided, mem_singleton, haccepted] at hmem
      cases hmem
  · rw [hnext, hbefore] at hafter
    cases hafter

end RepeatedOutput

end Intel4Ops.Mapping
