import Intel4Ops.Causal.Confirmed

/-!
# Temporal gates

What the hard gates say about the times of the two nodes of a hypothesis that passes them. The lag
of a hypothesis is compared with one precision only, the first that is recorded, so a source of
fine precision hides a target whose precision is coarser than the lag.
-/

namespace Intel4Ops.Causal

open Lib Lib.Decimal List Option

/-! ## The gates -/

/-- The supporting evidence passes its gates. -/
structure EvidenceSuffices (context : Context) (links : List CausalEvidenceLink) : Prop where
  attached : links ≠ []
  mapped : ∀ link ∈ links, ∀ mapping ∈ resolveMapping context link,
    mapping.mappingStatus ∉ blockingMappingStatuses
  confident : ∀ minimum ∈ minimumMappingConfidence context links,
    minimumMappingConfidenceThreshold ≤ minimum

/-- The source ends, or starts if it has no end, before the target starts. -/
def Precedes (source target : CanonicalRecord) : Prop :=
  ∀ boundary ∈ (source.occurrenceEnd <|> source.occurrenceStart),
    ∀ start ∈ target.occurrenceStart, boundary ≤ start

/-- The recorded precision, if there is one, is not coarser than the lag. -/
def SupportsLag (precision : Option String) (lag : ℤ) : Prop :=
  ∀ p ∈ precision, temporalPrecisionSeconds p ≤ lag

section

variable {context : Context} {hypothesis : CausalHypothesis} {links : List CausalEvidenceLink}

theorem evidenceReasons_eq_nil :
    evidenceReasons context links = [] ↔ EvidenceSuffices context links := by
  have hmapped : (links.filterMap fun link => (resolveMapping context link).bind fun mapping =>
      if mapping.mappingStatus ∈ blockingMappingStatuses then
        some (GateReason.blockingMappingStatus mapping.mappingStatus) else none) = [] ↔
      ∀ link ∈ links, ∀ mapping ∈ resolveMapping context link,
        mapping.mappingStatus ∉ blockingMappingStatuses := by
    rw [filterMap_eq_nil_iff]
    refine forall₂_congr fun link _ => ?_
    rw [bind_eq_none_iff]
    refine forall₂_congr fun mapping _ => ?_
    rw [ite_eq_right_iff]
    exact ⟨fun h hmem => some_ne_none _ (h hmem), fun h hmem => absurd hmem h⟩
  rw [evidenceReasons, append_eq_nil_iff, append_eq_nil_iff, hmapped]
  constructor
  · rintro ⟨⟨hattached, hmapped⟩, hconfident⟩
    refine ⟨?_, hmapped, fun minimum hminimum => ?_⟩
    · rintro rfl
      exact cons_ne_nil _ _ hattached
    · rw [mem_def.1 hminimum] at hconfident
      by_contra hlow
      dsimp only at hconfident
      rw [if_pos (not_le.1 hlow)] at hconfident
      exact cons_ne_nil _ _ hconfident
  · rintro ⟨hattached, hmapped, hconfident⟩
    refine ⟨⟨?_, hmapped⟩, ?_⟩
    · rw [if_neg]
      rwa [List.isEmpty_iff]
    · cases hminimum : minimumMappingConfidence context links with
      | none => rfl
      | some minimum => exact if_neg (not_lt.2 (hconfident minimum hminimum))

theorem not_precedes_iff {source target : CanonicalRecord} :
    (∃ boundary ∈ (source.occurrenceEnd <|> source.occurrenceStart),
      ∃ start ∈ target.occurrenceStart, start < boundary) ↔ ¬ Precedes source target := by
  simp only [Precedes, not_forall, not_le, exists_prop]

/-- The temporal gates pass if the nodes are in order and the first recorded precision supports
the lag. -/
theorem temporalReasons_eq_nil : temporalReasons context hypothesis = [] ↔ ∀ source target,
      occurrences context hypothesis = some (source, target) →
        (hypothesis.proposedEdgeType ∈ nonOverlapEdgeTypes → Precedes source target) ∧
          ∀ lag ∈ hypothesis.temporalLagSeconds,
            SupportsLag (source.occurrencePrecision <|> target.occurrencePrecision) lag := by
  cases hoccurrences : occurrences context hypothesis with
  | none =>
    rw [temporalReasons, hoccurrences]
    exact ⟨fun _ _ _ h => absurd h.symm (some_ne_none _), fun _ => rfl⟩
  | some pair =>
    obtain ⟨source, target⟩ := pair
    have hprecision : evaluatedPrecision context hypothesis =
        (source.occurrencePrecision <|> target.occurrencePrecision) := by
      rw [evaluatedPrecision, hoccurrences]
      rfl
    rw [temporalReasons, hoccurrences]
    dsimp only
    rw [hprecision, append_eq_nil_iff]
    have hordered : (if hypothesis.proposedEdgeType ∈ nonOverlapEdgeTypes ∧
        ∃ boundary ∈ (source.occurrenceEnd <|> source.occurrenceStart),
          ∃ start ∈ target.occurrenceStart, start < boundary then
        [GateReason.temporalPrecedenceViolation] else []) = [] ↔
        (hypothesis.proposedEdgeType ∈ nonOverlapEdgeTypes → Precedes source target) := by
      simp only [not_precedes_iff, ite_eq_right_iff]
      constructor
      · intro h htype
        by_contra hlate
        exact cons_ne_nil _ _ (h ⟨htype, hlate⟩)
      · exact fun h hlate => absurd (h hlate.1) hlate.2
    rw [hordered]
    have hpair : (∀ source' target', some (source, target) = some (source', target') →
        (hypothesis.proposedEdgeType ∈ nonOverlapEdgeTypes → Precedes source' target') ∧
          ∀ lag ∈ hypothesis.temporalLagSeconds,
            SupportsLag (source'.occurrencePrecision <|> target'.occurrencePrecision) lag) ↔
        (hypothesis.proposedEdgeType ∈ nonOverlapEdgeTypes → Precedes source target) ∧
          ∀ lag ∈ hypothesis.temporalLagSeconds,
            SupportsLag (source.occurrencePrecision <|> target.occurrencePrecision) lag := by
      constructor
      · exact fun h => h source target rfl
      · rintro h _ _ ⟨⟩
        exact h
    rw [hpair]
    refine and_congr_right fun _ => ?_
    cases source.occurrencePrecision <|> target.occurrencePrecision with
    | none => exact ⟨fun _ _ _ _ h => absurd h.symm (some_ne_none _), fun _ => rfl⟩
    | some precision =>
      cases hypothesis.temporalLagSeconds with
      | none => exact ⟨fun _ _ h => absurd h.symm (some_ne_none _), fun _ => rfl⟩
      | some lag =>
        simp only [SupportsLag, mem_some_iff, forall_eq', ite_eq_right_iff,
          cons_ne_nil, imp_false, not_lt]

theorem gateReasons_eq_nil :
    gateReasons context hypothesis links = [] ↔ EvidenceSuffices context links ∧
      temporalReasons context hypothesis = [] ∧ context.readinessBlocked = false := by
  have hready : (if context.readinessBlocked then [GateReason.readinessBlocked] else []) = [] ↔
      context.readinessBlocked = false := by
    cases context.readinessBlocked <;> decide
  rw [gateReasons, append_eq_nil_iff, append_eq_nil_iff, evidenceReasons_eq_nil, hready, and_assoc]

end

/-! ## Evaluations -/

section

variable {env : Env} {context : Context} {db : Db} {org hypothesisId : UUID} {now : Instant}

theorem confidence_bounds {weight : ℚ} {minimum : Option ℚ} (count : ℕ)
    (hcapped : IsScore (cappedWeight weight minimum)) :
    0 ≤ confidence weight minimum count ∧ confidence weight minimum count ≤ 1 := by
  rw [confidence]
  split
  · exact ⟨hcapped.nonneg, hcapped.le_one⟩
  · have hdivisor : (1 : ℚ) ≤ 1 + count := le_add_of_nonneg_right (Nat.cast_nonneg _)
    have hnonneg := div_nonneg hcapped.nonneg (zero_le_one.trans hdivisor)
    refine ⟨context_nonneg hnonneg, context_le_of_exact hnonneg (by decide +kernel) ?_⟩
    exact (div_le_one (zero_lt_one.trans_le hdivisor)).2 (hcapped.le_one.trans hdivisor)

theorem confidence_stored (env : Env) (context : Context) (db : Db) (h : CausalHypothesis) :
    ∃ stored, numeric 5 4 (evaluatedConfidence env context db h) = some stored := by
  obtain ⟨hnonneg, hle⟩ : 0 ≤ evaluatedConfidence env context db h ∧
      evaluatedConfidence env context db h ≤ 1 := by
    refine confidence_bounds h.contradictionCount
      (isScore_cappedWeight (isScore_methodWeight env h) ?_)
    exact fun minimum hminimum => isScore_minimum hminimum
  have hplaces : halfUp.places 4 (evaluatedConfidence env context db h) ≤ halfUp.places 4 1 :=
    halfUp.places_mono hle
  have hone : halfUp.places 4 1 = 1 := by decide +kernel
  refine ⟨_, numeric_eq_some.2 ⟨rfl, ?_⟩⟩
  rw [abs_of_nonneg (halfUp.places_nonneg hnonneg)]
  exact lt_of_le_of_lt (hplaces.trans_eq hone) (by norm_num)

/-- What an evaluation leaves of a hypothesis, and what its outcome says. -/
structure Evaluated (context : Context) (links : List CausalEvidenceLink)
    (h row : CausalHypothesis) : Prop where
  edgeType : row.proposedEdgeType = h.proposedEdgeType
  lag : row.temporalLagSeconds = h.temporalLagSeconds
  occurrences : occurrences context row = occurrences context h
  passed : row.hardGateOutcome = some .passed ↔ gateReasons context h links = []
  blocked : row.hardGateOutcome = some .blocked ↔ gateReasons context h links ≠ []

theorem evaluate_of_open (env : Env) (context : Context) (now : Instant) {h : CausalHypothesis}
    (hget : getHypothesis db org hypothesisId = .ok h)
    (hopen : h.lifecycleStatus ∉ terminalStatuses) :
    ∃ db' row, evaluate env context db org hypothesisId now = .ok (db', row) ∧
      Evaluated context (supportingLinks db h.id) h row := by
  have hwrite : ∀ row, writeHypothesis db h row = .ok (db.set h row) := by
    intro row
    rw [writeHypothesis, guardTerminal, ensure_of (fun hterminal => absurd hterminal hopen)]
    rfl
  have hdiffer : some CausalHardGateOutcome.passed ≠ some .blocked := by decide
  obtain ⟨stored, hstored⟩ := confidence_stored env context db h
  rw [evaluate, hget, ok_bind, ensure_of hopen, ok_bind]
  dsimp only
  by_cases hgates : gateReasons context h (supportingLinks db h.id) = []
  · rw [if_pos hgates, hstored, orFail_some, ok_bind, hwrite, ok_bind]
    exact ⟨_, _, rfl, rfl, rfl, rfl, iff_of_true rfl hgates,
      iff_of_false hdiffer fun hne => hne hgates⟩
  · rw [if_neg hgates, hwrite, ok_bind]
    exact ⟨_, _, rfl, rfl, rfl, rfl, iff_of_false hdiffer.symm hgates,
      iff_of_true rfl hgates⟩

theorem evaluated_of_ok {db' : Db} {row : CausalHypothesis}
    (h : evaluate env context db org hypothesisId now = .ok (db', row)) :
    ∃ hypothesis, getHypothesis db org hypothesisId = .ok hypothesis ∧
      hypothesis.lifecycleStatus ∉ terminalStatuses ∧
        Evaluated context (supportingLinks db hypothesis.id) hypothesis row := by
  have hevaluate := h
  obtain ⟨hypothesis, hget, h⟩ := bind_eq_ok.1 h
  obtain ⟨_, hopen, h⟩ := bind_eq_ok.1 h
  have hopen := ensure_eq_ok.1 hopen
  obtain ⟨db'', row', hevaluate', hevaluated⟩ := evaluate_of_open env context now hget hopen
  rw [hevaluate, Except.ok.injEq, Prod.mk.injEq] at hevaluate'
  rw [← hevaluate'.2] at hevaluated
  exact ⟨hypothesis, hget, hopen, hevaluated⟩

end

/-! ## Coarser precisions -/

/-- The same record, with a precision that is not finer. -/
structure CanonicalRecord.Coarser (before after : CanonicalRecord) : Prop where
  mapping : after.toMapping = before.toMapping
  occurrenceStart : after.occurrenceStart = before.occurrenceStart
  occurrenceEnd : after.occurrenceEnd = before.occurrenceEnd
  precision : Rel (fun p q => temporalPrecisionSeconds p ≤ temporalPrecisionSeconds q)
    before.occurrencePrecision after.occurrencePrecision

/-- The same tables, except that records may have coarser precisions. -/
structure Context.Coarser (before after : Context) : Prop where
  events : ∀ id, Rel CanonicalRecord.Coarser (before.canonicalEvents id) (after.canonicalEvents id)
  metrics : ∀ id, Rel CanonicalRecord.Coarser (before.canonicalMetrics id)
    (after.canonicalMetrics id)
  links : after.sourceCanonicalLinks = before.sourceCanonicalLinks
  nodes : after.nodes = before.nodes
  readiness : after.readinessBlocked = before.readinessBlocked

section

variable {before after : Context} {hypothesis : CausalHypothesis}
  {links : List CausalEvidenceLink}

theorem SupportsLag.of_coarser {p q : Option String} {lag : ℤ}
    (h : Rel (fun p q => temporalPrecisionSeconds p ≤ temporalPrecisionSeconds q) p q)
    (hsupports : SupportsLag q lag) : SupportsLag p lag := by
  cases h with
  | none => exact hsupports
  | some hle =>
    intro precision hprecision
    rw [← mem_some_iff.1 hprecision]
    exact hle.trans (hsupports _ rfl)

theorem coarser_orElse {p q p' q' : Option String}
    (h : Rel (fun p q => temporalPrecisionSeconds p ≤ temporalPrecisionSeconds q) p q)
    (h' : Rel (fun p q => temporalPrecisionSeconds p ≤ temporalPrecisionSeconds q) p' q') :
    Rel (fun p q => temporalPrecisionSeconds p ≤ temporalPrecisionSeconds q)
      (p <|> p') (q <|> q') := by
  cases h with
  | none => exact h'
  | some hle => exact .some hle

theorem map_toMapping_coarser {record record' : Option CanonicalRecord}
    (h : Rel CanonicalRecord.Coarser record record') :
    record'.map (·.toMapping) = record.map (·.toMapping) := by
  cases h with
  | none => rfl
  | some hcoarser => exact congrArg some hcoarser.mapping

section

variable (h : before.Coarser after)
include h

theorem resolveMapping_coarser (link : CausalEvidenceLink) :
    resolveMapping after link = resolveMapping before link := by
  cases hkind : link.evidenceKind with
  | canonicalRecord =>
    have horElse : ∀ first second : Option CanonicalRecord,
        (first <|> second).map (·.toMapping) =
          (first.map (·.toMapping) <|> second.map (·.toMapping)) := by
      intro first second
      cases first <;> rfl
    simp only [resolveMapping, hkind]
    rw [horElse, horElse, map_toMapping_coarser (h.events _), map_toMapping_coarser (h.metrics _)]
  | sourceCanonicalLink =>
    simp only [resolveMapping, hkind]
    rw [h.links]
  | _ => simp only [resolveMapping, hkind]

theorem evidenceReasons_coarser : evidenceReasons after links = evidenceReasons before links := by
  have hresolve : resolveMapping after = resolveMapping before := funext (resolveMapping_coarser h)
  simp only [evidenceReasons, minimumMappingConfidence, mappingConfidences, hresolve]

theorem resolveOccurrence_coarser (node : CausalNode) :
    Rel CanonicalRecord.Coarser (resolveOccurrence before node)
      (resolveOccurrence after node) := by
  unfold resolveOccurrence
  split
  · exact h.events _
  · exact h.metrics _
  · exact .none

theorem occurrences_coarser {source target : CanonicalRecord}
    (hoccurrences : occurrences before hypothesis = some (source, target)) :
    ∃ source' target', occurrences after hypothesis = some (source', target') ∧
      source.Coarser source' ∧ target.Coarser target' := by
  simp only [occurrences, bind_eq_bind, bind_eq_some_iff] at hoccurrences
  obtain ⟨sourceNode, hsourceNode, targetNode, htargetNode, source₀, hsource, target₀, htarget,
    hstarts⟩ := hoccurrences
  have hsourceRel := resolveOccurrence_coarser h sourceNode
  have htargetRel := resolveOccurrence_coarser h targetNode
  rw [hsource] at hsourceRel
  rw [htarget] at htargetRel
  generalize hsource' : resolveOccurrence after sourceNode = sourceAfter at hsourceRel
  generalize htarget' : resolveOccurrence after targetNode = targetAfter at htargetRel
  cases hsourceRel with
  | some hsourceCoarser =>
    cases htargetRel with
    | some htargetCoarser =>
      split at hstarts
      case isFalse => cases hstarts
      case isTrue hstarted =>
        obtain ⟨rfl, rfl⟩ := Prod.mk.inj (some.inj hstarts)
        refine ⟨_, _, ?_, hsourceCoarser, htargetCoarser⟩
        rw [← hsourceCoarser.occurrenceStart, ← htargetCoarser.occurrenceStart] at hstarted
        simp only [occurrences, bind_eq_bind, h.nodes, hsourceNode, htargetNode,
          bind_some, hsource', htarget']
        exact if_pos hstarted

end

theorem Precedes.of_coarser {source target source' target' : CanonicalRecord}
    (hsource : source.Coarser source') (htarget : target.Coarser target')
    (h : Precedes source' target') : Precedes source target := by
  unfold Precedes at h ⊢
  rw [hsource.occurrenceEnd, hsource.occurrenceStart, htarget.occurrenceStart] at h
  exact h

theorem gateReasons_coarser (h : before.Coarser after)
    (hgates : gateReasons after hypothesis links = []) :
    gateReasons before hypothesis links = [] := by
  obtain ⟨hevidence, htemporal, hready⟩ := gateReasons_eq_nil.1 hgates
  refine gateReasons_eq_nil.2 ⟨?_, ?_, ?_⟩
  · rw [← evidenceReasons_eq_nil, ← evidenceReasons_coarser h]
    exact evidenceReasons_eq_nil.2 hevidence
  · rw [temporalReasons_eq_nil] at htemporal ⊢
    intro source target hoccurrences
    obtain ⟨source', target', hoccurrences', hsource, htarget⟩ := occurrences_coarser h hoccurrences
    obtain ⟨hordered, hsupported⟩ := htemporal source' target' hoccurrences'
    refine ⟨fun htype => (hordered htype).of_coarser hsource htarget, fun lag hlag => ?_⟩
    exact (hsupported lag hlag).of_coarser (coarser_orElse hsource.precision htarget.precision)
  · rw [← h.readiness]
    exact hready

end

/-! ## Soundness -/

/-- A causing or preceding hypothesis that passes the gates is in order and its lag is supported
by both precisions, and no coarser precision unblocks a hypothesis. -/
structure TemporallySound (env : Env) (context : Context) (db : Db) (org hypothesisId : UUID)
    (now : Instant) : Prop where
  sound : ∀ db' row source target,
    evaluate env context db org hypothesisId now = .ok (db', row) →
      row.hardGateOutcome = some .passed → row.proposedEdgeType ∈ nonOverlapEdgeTypes →
        occurrences context row = some (source, target) →
          Precedes source target ∧ ∀ lag ∈ row.temporalLagSeconds,
            SupportsLag source.occurrencePrecision lag ∧ SupportsLag target.occurrencePrecision lag
  monotone : ∀ coarser, context.Coarser coarser → ∀ db₁ row₁ db₂ row₂,
    evaluate env context db org hypothesisId now = .ok (db₁, row₁) →
      evaluate env coarser db org hypothesisId now = .ok (db₂, row₂) →
        row₁.hardGateOutcome = some .blocked → row₂.hardGateOutcome ≠ some .passed

/-- The hypothesis passes every other gate, and the precision of its source supports the lag, but
that of its target is coarser. -/
structure HidesTarget (context : Context) (links : List CausalEvidenceLink)
    (h : CausalHypothesis) (source target : CanonicalRecord) (lag : ℤ) : Prop where
  edgeType : h.proposedEdgeType ∈ nonOverlapEdgeTypes
  evidence : EvidenceSuffices context links
  ready : context.readinessBlocked = false
  occurrences : occurrences context h = some (source, target)
  precedes : Precedes source target
  lag_eq : h.temporalLagSeconds = some lag
  source_supports : ∃ p, source.occurrencePrecision = some p ∧ temporalPrecisionSeconds p ≤ lag
  target_coarser : ¬ SupportsLag target.occurrencePrecision lag

section

variable {env : Env} {context : Context} {db : Db} {org hypothesisId : UUID} {now : Instant}

theorem evaluate_monotone {coarser : Context} (hcoarser : context.Coarser coarser)
    {db₁ db₂ : Db} {row₁ row₂ : CausalHypothesis}
    (h₁ : evaluate env context db org hypothesisId now = .ok (db₁, row₁))
    (h₂ : evaluate env coarser db org hypothesisId now = .ok (db₂, row₂))
    (hblocked : row₁.hardGateOutcome = some .blocked) :
    row₂.hardGateOutcome ≠ some .passed := by
  intro hpassed
  obtain ⟨h, hget, -, hevaluated⟩ := evaluated_of_ok h₁
  obtain ⟨h', hget', -, hevaluated'⟩ := evaluated_of_ok h₂
  obtain rfl : h = h' := Except.ok.inj (hget.symm.trans hget')
  exact hevaluated.blocked.1 hblocked (gateReasons_coarser hcoarser (hevaluated'.passed.1 hpassed))

variable {h : CausalHypothesis} {lag : ℤ}

theorem supportsLag_of_passed {links : List CausalEvidenceLink} {source target : CanonicalRecord}
    (hgates : gateReasons context h links = []) (htype : h.proposedEdgeType ∈ nonOverlapEdgeTypes)
    (hoccurrences : occurrences context h = some (source, target))
    (hlag : h.temporalLagSeconds = some lag)
    (hhides : ¬ HidesTarget context links h source target lag) :
    SupportsLag source.occurrencePrecision lag ∧ SupportsLag target.occurrencePrecision lag := by
  obtain ⟨hevidence, htemporal, hready⟩ := gateReasons_eq_nil.1 hgates
  obtain ⟨hordered, hsupported⟩ := temporalReasons_eq_nil.1 htemporal source target hoccurrences
  have hfirst := hsupported lag hlag
  cases hprecision : source.occurrencePrecision with
  | none =>
    rw [hprecision] at hfirst
    exact ⟨fun p hp => absurd hp.symm (some_ne_none p), hfirst⟩
  | some p =>
    rw [hprecision] at hfirst
    refine ⟨hfirst, ?_⟩
    by_contra hcoarser
    exact hhides ⟨htype, hevidence, hready, hoccurrences, hordered htype, hlag,
      ⟨p, hprecision, hfirst p rfl⟩, hcoarser⟩

theorem HidesTarget.gates {links : List CausalEvidenceLink} {source target : CanonicalRecord}
    (hhides : HidesTarget context links h source target lag) :
    gateReasons context h links = [] := by
  obtain ⟨p, hprecision, hle⟩ := hhides.source_supports
  refine gateReasons_eq_nil.2 ⟨hhides.evidence, ?_, hhides.ready⟩
  rw [temporalReasons_eq_nil]
  intro source' target' hoccurrences
  obtain ⟨rfl, rfl⟩ := Prod.mk.inj (some.inj (hhides.occurrences.symm.trans hoccurrences))
  refine ⟨fun _ => hhides.precedes, fun lag' hlag => ?_⟩
  obtain rfl : lag = lag' := some.inj (hhides.lag_eq.symm.trans hlag)
  rw [hprecision]
  intro q hq
  rwa [← mem_some_iff.1 hq]

theorem HidesTarget.not_sound {source target : CanonicalRecord}
    (hget : getHypothesis db org hypothesisId = .ok h)
    (hopen : h.lifecycleStatus ∉ terminalStatuses)
    (hhides : HidesTarget context (supportingLinks db h.id) h source target lag) :
    ¬ TemporallySound env context db org hypothesisId now := by
  intro hsound
  obtain ⟨db', row, hevaluate, hevaluated⟩ := evaluate_of_open env context now hget hopen
  have hpassed := hevaluated.passed.2 hhides.gates
  have hsupports := (hsound.sound db' row source target hevaluate hpassed
    (hevaluated.edgeType ▸ hhides.edgeType) (hevaluated.occurrences ▸ hhides.occurrences)).2 lag
    (hevaluated.lag ▸ hhides.lag_eq)
  exact hhides.target_coarser hsupports.2

/-- The gates are temporally sound exactly on hypotheses that do not hide their target. -/
theorem temporallySound_iff (env : Env) (context : Context) (db : Db) (org hypothesisId : UUID)
    (now : Instant) :
    TemporallySound env context db org hypothesisId now ↔
      ∀ h, getHypothesis db org hypothesisId = .ok h → h.lifecycleStatus ∉ terminalStatuses →
        ∀ source target lag,
          ¬ HidesTarget context (supportingLinks db h.id) h source target lag := by
  constructor
  · exact fun hsound h hget hopen source target lag hhides => hhides.not_sound hget hopen hsound
  · intro hhides
    refine ⟨fun db' row source target hevaluate hpassed htype hoccurrences => ?_,
      fun coarser hcoarser _ _ _ _ h₁ h₂ => evaluate_monotone hcoarser h₁ h₂⟩
    obtain ⟨h, hget, hopen, hevaluated⟩ := evaluated_of_ok hevaluate
    rw [hevaluated.edgeType] at htype
    rw [hevaluated.occurrences] at hoccurrences
    have hgates := hevaluated.passed.1 hpassed
    have htemporal := (gateReasons_eq_nil.1 hgates).2.1
    refine ⟨(temporalReasons_eq_nil.1 htemporal source target hoccurrences).1 htype, ?_⟩
    intro lag hlag
    rw [hevaluated.lag] at hlag
    exact supportsLag_of_passed hgates htype hoccurrences hlag
      (hhides h hget hopen source target lag)

end

/-! ## A day behind a second -/

namespace CoarseTarget

def event (second : Instant) (precision : String) : CanonicalRecord where
  mappingStatus := "mapped"
  mappingConfidenceScore := none
  occurrenceStart := some second
  occurrenceEnd := none
  occurrencePrecision := some precision

def env : Env where
  methods _ := none
  contentHash _ := "m"

/-- The source is known to the second, the target only to the day. -/
def context : Context where
  canonicalEvents id :=
    if id = 1 then some (event 0 "second") else if id = 2 then some (event 60 "day") else none
  canonicalMetrics _ := none
  sourceCanonicalLinks _ := none
  nodes := [⟨1, 7, .canonicalEvent 1⟩, ⟨2, 7, .canonicalEvent 2⟩]
  interventions := []
  readinessBlocked := false

/-- One causes the other within a minute. -/
def hypothesis : CausalHypothesis :=
  { id := 10, organizationId := 7, sourceNodeId := 1, targetNodeId := 2
    proposedEdgeType := .causes, methodId := 1, lifecycleStatus := .evidencePending
    temporalLagSeconds := some 60, contentHash := "m", evidenceCount := 1, createdByUserId := 3 }

def db : Db where
  hypotheses := [hypothesis]
  links := [⟨11, 7, 10, .findingEvidence, 50, true, 0⟩]

theorem hidesTarget : HidesTarget context (supportingLinks db 10) hypothesis (event 0 "second")
    (event 60 "day") 60 where
  edgeType := by decide
  evidence := ⟨by decide, by decide, by decide⟩
  ready := rfl
  occurrences := rfl
  precedes := by
    rintro _ ⟨⟩ _ ⟨⟩
    decide
  lag_eq := rfl
  source_supports := ⟨"second", rfl, by decide⟩
  target_coarser h := absurd (h "day" rfl) (by decide)

/-- The day is too coarse for a minute, and the hypothesis passes. -/
theorem day_supports_minute : ¬ TemporallySound env context db 7 10 0 :=
  hidesTarget.not_sound rfl (by decide)

end CoarseTarget

end Intel4Ops.Causal
