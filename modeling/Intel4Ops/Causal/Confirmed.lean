import Intel4Ops.Causal.Steps

/-!
# Confirmed causality is earned

A confirmed hypothesis is causal, and an evaluation that saw exactly its present evidence passed the
hard gates and computed its confidence. Contradicting evidence divides the confidence by at least
two, which is below the threshold, so a confirmed hypothesis has none.
-/

namespace Intel4Ops.Causal

open Lib Lib.Decimal List Service

variable {env : Env} {db db' : Db}

/-! ## Confidence -/

/-- A value that a `Numeric(5, 4)` column stores as it is. -/
structure IsScore (x : ℚ) : Prop where
  stored : numeric 5 4 x = some x
  nonneg : 0 ≤ x
  le_one : x ≤ 1

theorem Score.isScore (s : Score) : IsScore s.value := ⟨s.stored, s.nonneg, s.le_one⟩

theorem isScore_half : IsScore (1 / 2) := ⟨by decide +kernel, by norm_num, by norm_num⟩

variable {x y : ℚ} {new : CausalHypothesis}

theorem IsScore.min (hx : IsScore x) (hy : IsScore y) : IsScore (min x y) := by
  rcases min_choice x y with h | h
  · rwa [h]
  · rwa [h]

theorem isScore_methodWeight (env : Env) (h : CausalHypothesis) : IsScore (methodWeight env h) := by
  unfold methodWeight
  split
  · exact Score.isScore _
  · exact isScore_half

theorem isScore_minimum {context : Context} {links : List CausalEvidenceLink} {m : ℚ}
    (h : minimumMappingConfidence context links = some m) : IsScore m := by
  have hmem := List.min?_mem h
  obtain ⟨link, -, hlink⟩ := mem_filterMap.1 hmem
  obtain ⟨score, -, rfl⟩ := Option.map_eq_some_iff.1 hlink
  exact score.isScore

variable {minimum : Option ℚ} {q : ℚ} {h old : CausalHypothesis}

theorem isScore_cappedWeight {weight : ℚ} (hweight : IsScore weight)
    (hminimum : ∀ m ∈ minimum, IsScore m) : IsScore (cappedWeight weight minimum) := by
  cases minimum with
  | none => exact hweight
  | some m => exact hweight.min (hminimum m rfl)

theorem numeric_le (hx : numeric 5 4 x = some q) (hy : numeric 5 4 y = some y) (hxy : x ≤ y) :
    q ≤ y := by
  rw [numeric_eq_some] at hx hy
  rw [hx.1]
  exact (halfUp.places_mono hxy).trans hy.1.ge

theorem stored_le_half {weight : ℚ} {count : ℕ} (hcapped : IsScore (cappedWeight weight minimum))
    (hcount : count ≠ 0) (hq : numeric 5 4 (confidence weight minimum count) = some q) :
    q ≤ 1 / 2 := by
  refine numeric_le hq isScore_half.stored ?_
  rw [confidence, if_neg hcount]
  have hpos : (1 : ℚ) ≤ count := by exact_mod_cast Nat.one_le_iff_ne_zero.2 hcount
  refine context_le_of_exact (div_nonneg hcapped.nonneg (by linarith)) (by decide +kernel) ?_
  rw [div_le_div_iff₀ (by linarith) (by norm_num)]
  linarith [hcapped.le_one]

theorem confidence_of_threshold {weight : ℚ} {count : ℕ}
    (hcapped : IsScore (cappedWeight weight minimum))
    (hq : numeric 5 4 (confidence weight minimum count) = some q)
    (hthreshold : probableConfidenceThreshold ≤ q) :
    count = 0 ∧ q = cappedWeight weight minimum := by
  by_cases hcount : count = 0
  · rw [confidence, if_pos hcount, hcapped.stored, Option.some.injEq] at hq
    exact ⟨hcount, hq.symm⟩
  · have hhalf := stored_le_half hcapped hcount hq
    have hlow : probableConfidenceThreshold ≤ 1 / 2 := hthreshold.trans hhalf
    exact absurd hlow (by decide +kernel)

/-! ## What a confirmed row says -/

/-- What a review asks of a hypothesis before it confirms it. -/
structure Confirmable (h : CausalHypothesis) : Prop where
  causal : h.proposedEdgeType ∉ associationOnlyEdgeTypes
  passed : h.hardGateOutcome = some .passed
  reasons : h.hardGateFailureReasons = []
  evidence : 0 < h.evidenceCount
  confidence : ∃ score, h.confidenceScore = some score ∧ probableConfidenceThreshold ≤ score

theorem confirmable_of_check (hcheck : checkDecision db h .confirm = .ok ()) : Confirmable h := by
  obtain ⟨_, -, hcheck⟩ := bind_eq_ok.1 hcheck
  obtain ⟨_, -, hcheck⟩ := bind_eq_ok.1 hcheck
  obtain ⟨_, hcausal, hcheck⟩ := bind_eq_ok.1 hcheck
  obtain ⟨_, hevaluated, hthreshold⟩ := bind_eq_ok.1 hcheck
  obtain ⟨-, hpassed, hevidence, hscore, hreasons⟩ := ensure_eq_ok.1 hevaluated
  obtain ⟨score, hscore⟩ := Option.ne_none_iff_exists'.1 hscore
  exact ⟨ensure_eq_ok.1 hcausal rfl, hpassed, hreasons, hevidence, score, hscore,
    ensure_eq_ok.1 hthreshold rfl score hscore⟩

theorem statusAfter_ne_confirmed (edgeType : CausalEdgeType) (score : ℚ) :
    statusAfter edgeType score ≠ .confirmed := by
  unfold statusAfter
  split
  · decide
  · split <;> decide

theorem reviewed_confirmed {prior : CausalHypothesisStatus} {decision : CausalReviewDecision}
    (h : resultingStatus prior decision = .confirmed) :
    decision = .confirm ∨ decision = .defer ∧ prior = .confirmed := by
  cases decision with
  | confirm => exact .inl rfl
  | defer => exact .inr ⟨rfl, h⟩
  | probable | reject | revoke => cases h

theorem ServeStep.confirmable {call : Call} (hstep : ServeStep env db call db')
    (hold : ∀ h ∈ db.hypotheses, h.lifecycleStatus = .confirmed → Confirmable h) :
    ∀ h ∈ db'.hypotheses, h.lifecycleStatus = .confirmed → Confirmable h := by
  intro h' hh' hconfirmed
  cases hstep with
  | same | assess => exact hold h' hh' hconfirmed
  | create h _ hstatus =>
    rcases mem_append.1 hh' with hh' | hh'
    · exact hold h' hh' hconfirmed
    · obtain rfl := mem_singleton.1 hh'
      rw [hstatus] at hconfirmed
      cases hconfirmed
  | propose h hmem =>
    rcases (mem_set hmem).1 hh' with rfl | ⟨hh', -⟩
    · cases hconfirmed
    · exact hold h' hh' hconfirmed
  | attach h link hmem hstatus =>
    rcases (mem_set hmem).1 hh' with rfl | ⟨hh', -⟩
    · rw [attached_lifecycleStatus hstatus] at hconfirmed
      cases hconfirmed
    · exact hold h' hh' hconfirmed
  | passed h stored _ hmem =>
    rcases (mem_set hmem).1 hh' with rfl | ⟨hh', -⟩
    · exact absurd hconfirmed (statusAfter_ne_confirmed _ _)
    · exact hold h' hh' hconfirmed
  | blocked h reasons _ hmem =>
    rcases (mem_set hmem).1 hh' with rfl | ⟨hh', -⟩
    · have hblocked : (if h.lifecycleStatus = .underReview then
          CausalHypothesisStatus.underReview else .evidencePending) = .confirmed := hconfirmed
      split at hblocked <;> cases hblocked
    · exact hold h' hh' hconfirmed
  | review h decision row edges _ hmem hcheck =>
    rcases (mem_set hmem).1 hh' with rfl | ⟨hh', -⟩
    · rcases reviewed_confirmed hconfirmed with rfl | ⟨rfl, hprior⟩
      · have hconfirmable := confirmable_of_check hcheck
        exact ⟨hconfirmable.causal, hconfirmable.passed, hconfirmable.reasons,
          hconfirmable.evidence, hconfirmable.confidence⟩
      · exact hold h hmem hprior
    · exact hold h' hh' hconfirmed
  | revise h revision row _ _ _ _ _ hrevised hfresh hstatus =>
    obtain ⟨edge, -, -, hmem, -⟩ := revisedHypothesis_some hrevised
    rcases (mem_set_append hmem).1 hh' with rfl | ⟨hh' | rfl, -⟩
    · cases hconfirmed
    · exact hold h' hh' hconfirmed
    · rw [hstatus] at hconfirmed
      cases hconfirmed

theorem confirmable_run (env : Env) (calls : List Call) :
    ∀ h ∈ ((serve env).run {} calls).hypotheses, h.lifecycleStatus = .confirmed →
      Confirmable h :=
  run_invariant (P := fun db => ∀ h ∈ db.hypotheses, h.lifecycleStatus = .confirmed →
    Confirmable h) (fun _ hh => absurd hh not_mem_nil)
    (fun hold hok => (serve_step hok).confirmable hold) calls

/-! ## The evaluation behind it -/

/-- The call evaluated the hypothesis on the given evidence, its gates passed, and the row has the
minimum and the confidence that it computed. -/
structure EvaluatedIn (env : Env) (before : Db) (call : Call) (h : CausalHypothesis)
    (links : List CausalEvidenceLink) : Prop where
  request : call.request = .evaluate h.id
  saw : linksOf before h.id = links
  gates : ∃ h₀ ∈ before.hypotheses, h₀.id = h.id ∧
    gateReasons call.context h₀ (supportingLinks before h.id) = []
  minimum : h.minimumSupportingMappingConfidence =
    minimumMappingConfidence call.context (supportingLinks before h.id)
  score : h.confidenceScore = numeric 5 4 (confidence (methodWeight env h)
    h.minimumSupportingMappingConfidence (links.countP (!·.supports)))

/-- An earlier call of the run evaluated the hypothesis on its present evidence. -/
def EvaluatedEarlier (env : Env) (calls : List Call) (h : CausalHypothesis) : Prop :=
  ∃ before call after, calls = before ++ call :: after ∧
    EvaluatedIn env ((serve env).run {} before) call h (linksOf ((serve env).run {} calls) h.id)

/-- The hypothesis is judged by an evaluation whose gates passed. -/
structure Judged (h : CausalHypothesis) : Prop where
  status : h.lifecycleStatus = .underReview ∨ h.lifecycleStatus = .probable ∨
    h.lifecycleStatus = .confirmed
  passed : h.hardGateOutcome = some .passed

/-- The rewrite keeps what an evaluation wrote. -/
structure SameEvaluation (old new : CausalHypothesis) : Prop where
  id : new.id = old.id
  methodId : new.methodId = old.methodId
  minimum : new.minimumSupportingMappingConfidence = old.minimumSupportingMappingConfidence
  score : new.confidenceScore = old.confidenceScore

theorem EvaluatedIn.congr {before : Db} {call : Call} {links : List CausalEvidenceLink}
    (h : EvaluatedIn env before call old links) (hsame : SameEvaluation old new) :
    EvaluatedIn env before call new links where
  request := by
    rw [hsame.id]
    exact h.request
  saw := by
    rw [hsame.id]
    exact h.saw
  gates := by
    rw [hsame.id]
    exact h.gates
  minimum := by
    rw [hsame.id, hsame.minimum]
    exact h.minimum
  score := by
    have hweight : methodWeight env new = methodWeight env old := by
      rw [methodWeight, methodWeight, hsame.methodId]
    rw [hsame.score, hsame.minimum, hweight]
    exact h.score

/-- A later call that leaves the evidence of the hypothesis alone keeps the evaluation. -/
theorem EvaluatedEarlier.snoc {calls : List Call} {call : Call}
    (h : EvaluatedEarlier env calls old) (hsame : SameEvaluation old new)
    (hlinks : linksOf ((serve env).run {} (calls ++ [call])) old.id =
      linksOf ((serve env).run {} calls) old.id) : EvaluatedEarlier env (calls ++ [call]) new := by
  obtain ⟨before, evaluation, after, rfl, hevaluated⟩ := h
  refine ⟨before, evaluation, after ++ [call], by simp, ?_⟩
  rw [hsame.id, hlinks]
  exact hevaluated.congr hsame

theorem SameEvaluation.refl (h : CausalHypothesis) : SameEvaluation h h := ⟨rfl, rfl, rfl, rfl⟩

theorem judged_of_review {decision : CausalReviewDecision}
    (hcheck : checkDecision db h decision = .ok ())
    (hjudged : Judged { h with lifecycleStatus := resultingStatus h.lifecycleStatus decision }) :
    Judged h := by
  obtain ⟨hstatus, hpassed⟩ := hjudged
  refine ⟨?_, hpassed⟩
  have hreviewable : ∀ confirm, requireEvaluatedReview db h confirm = .ok () →
      h.lifecycleStatus = .underReview ∨ h.lifecycleStatus = .probable ∨
        h.lifecycleStatus = .confirmed := by
    intro confirm hcheck
    obtain ⟨_, hreviewable, -⟩ := bind_eq_ok.1 hcheck
    have hmem := ensure_eq_ok.1 hreviewable
    cases confirm
    · exact .inl (mem_singleton.1 hmem)
    · rcases mem_cons.1 hmem with hstatus | hstatus
      · exact .inl hstatus
      · exact .inr (.inl (mem_singleton.1 hstatus))
  cases decision with
  | confirm => exact hreviewable true hcheck
  | probable => exact hreviewable false hcheck
  | defer => exact hstatus
  | reject | revoke => rcases hstatus with h | h | h <;> cases h

theorem Unevaluated.not_judged (hnew : Unevaluated h) : ¬ Judged h := by
  intro hjudged
  have hpassed := hjudged.passed
  rw [hnew.outcome] at hpassed
  cases hpassed

theorem evaluatedEarlier_snoc {calls : List Call} {call : Call}
    (ih : ∀ h ∈ ((serve env).run {} calls).hypotheses, Judged h → EvaluatedEarlier env calls h)
    (hstep : ServeStep env ((serve env).run {} calls) call ((serve env).run {} (calls ++ [call])))
    (hh : h ∈ ((serve env).run {} (calls ++ [call])).hypotheses) (hjudged : Judged h) :
    EvaluatedEarlier env (calls ++ [call]) h := by
  have hconsistent := consistent_run env calls
  -- Rows that the call does not touch.
  have hkeep : ∀ h ∈ ((serve env).run {} calls).hypotheses, Judged h →
      linksOf ((serve env).run {} (calls ++ [call])) h.id =
        linksOf ((serve env).run {} calls) h.id →
      EvaluatedEarlier env (calls ++ [call]) h :=
    fun h hh hjudged hlinks => (ih h hh hjudged).snoc (.refl h) hlinks
  generalize hdb : (serve env).run {} calls = db at *
  generalize hdb' : (serve env).run {} (calls ++ [call]) = db' at *
  cases hstep with
  | same | assess => exact hkeep h hh hjudged rfl
  | create h₀ _ _ hnew =>
    rcases mem_append.1 hh with hh | hh
    · exact hkeep h hh hjudged rfl
    · obtain rfl := mem_singleton.1 hh
      exact absurd hjudged hnew.not_judged
  | propose h₀ hmem =>
    rcases (mem_set hmem).1 hh with rfl | ⟨hh, -⟩
    · rcases hjudged.status with hs | hs | hs <;> cases hs
    · exact hkeep h hh hjudged rfl
  | attach h₀ link hmem hstatus hlink =>
    rcases (mem_set hmem).1 hh with rfl | ⟨hh, hid⟩
    · have hpending : (h₀.attached ((db.links ++ [link]).filter
          (·.hypothesisId = h₀.id))).lifecycleStatus = .evidencePending :=
        attached_lifecycleStatus hstatus
      rcases hjudged.status with hs | hs | hs <;> rw [hs] at hpending <;> cases hpending
    · refine hkeep h hh hjudged ((linksOf_append db link h.id).trans ?_)
      rw [if_neg (by rw [hlink]; exact fun heq => hid heq.symm), append_nil]
  | passed h₀ stored hrequest hmem hstatus hgates hstored =>
    rcases (mem_set hmem).1 hh with rfl | ⟨hh, -⟩
    · -- The call itself is the evaluation.
      refine ⟨calls, call, [], rfl, ?_⟩
      rw [hdb, hdb']
      refine ⟨hrequest, rfl, ⟨h₀, hmem, rfl, hgates⟩, rfl, ?_⟩
      rw [evaluatedConfidence, hconsistent.contradictions h₀ hmem] at hstored
      exact hstored.symm
    · exact hkeep h hh hjudged rfl
  | blocked h₀ reasons _ hmem =>
    rcases (mem_set hmem).1 hh with rfl | ⟨hh, -⟩
    · cases hjudged.passed
    · exact hkeep h hh hjudged rfl
  | review h₀ decision row edges _ hmem hcheck =>
    rcases (mem_set hmem).1 hh with rfl | ⟨hh, -⟩
    · refine (ih h₀ hmem (judged_of_review hcheck hjudged)).snoc ⟨rfl, rfl, rfl, rfl⟩ ?_
      rw [hdb, hdb']
      rfl
    · exact hkeep h hh hjudged rfl
  | revise h₀ revision row _ _ _ _ _ hrevised hfresh hstatus _ hnew =>
    obtain ⟨edge, -, -, hmem, -⟩ := revisedHypothesis_some hrevised
    rcases (mem_set_append hmem).1 hh with rfl | ⟨hh | rfl, -⟩
    · rcases hjudged.status with hs | hs | hs <;> cases hs
    · exact hkeep h hh hjudged rfl
    · exact absurd hjudged hnew.not_judged

theorem evaluatedEarlier_run (env : Env) (calls : List Call) :
    ∀ h ∈ ((serve env).run {} calls).hypotheses, Judged h → EvaluatedEarlier env calls h := by
  induction calls using List.reverseRecOn with
  | nil => exact fun h hh => absurd hh not_mem_nil
  | append_singleton calls call ih =>
    intro h hh hjudged
    have hrun : (serve env).run {} (calls ++ [call]) =
        (serve env).next ((serve env).run {} calls) call := by
      rw [run_append, run_cons, run_nil]
    rcases next_cases (serve env) ((serve env).run {} calls) call with
      ⟨db', reply, hok, hnext⟩ | ⟨e, -, hnext⟩
    · have hstep := serve_step hok
      rw [← hnext, ← hrun] at hstep
      exact evaluatedEarlier_snoc ih hstep hh hjudged
    · rw [hnext] at hrun
      rw [hrun] at hh
      refine (ih h hh hjudged).snoc (.refl h) ?_
      rw [hrun]

/-! ## Terminal hypotheses -/

theorem TerminalMove.of_open (h : old.lifecycleStatus ∉ terminalStatuses) : TerminalMove old new :=
  fun hterminal => absurd hterminal h

/-- A hypothesis that is stored stays stored, and moves as it may when it is terminal. -/
def MovesAsAllowed (db db' : Db) : Prop :=
  ∀ h ∈ db.hypotheses, ∃ h' ∈ db'.hypotheses, h'.id = h.id ∧ TerminalMove h h'

theorem TerminalMove.refl (h : CausalHypothesis) : TerminalMove h h := fun _ => .inl rfl

theorem movesAsAllowed_set (hset : db'.hypotheses = db.set old new)
    (hids : Table.Unique (·.id) db.hypotheses) (hold : old ∈ db.hypotheses)
    (hid : new.id = old.id) (hmove : TerminalMove old new) : MovesAsAllowed db db' := by
  intro h hh
  rw [hset]
  by_cases heq : h.id = old.id
  · obtain rfl := hids.eq_of_key_eq hh hold heq
    exact ⟨new, (mem_set hold).2 (.inl rfl), hid, hmove⟩
  · exact ⟨h, (mem_set hold).2 (.inr ⟨hh, heq⟩), rfl, .refl h⟩

theorem ServeStep.movesAsAllowed {call : Call} (hstep : ServeStep env db call db')
    (hdb : Consistent db) : MovesAsAllowed db db' := by
  cases hstep with
  | same | assess => exact fun h hh => ⟨h, hh, rfl, .refl h⟩
  | create h₀ => exact fun h hh => ⟨h, mem_append_left _ hh, rfl, .refl h⟩
  | propose h₀ hmem hstatus =>
    exact movesAsAllowed_set rfl hdb.ids hmem rfl (.of_open (by rw [hstatus]; decide))
  | attach h₀ link hmem hstatus =>
    refine movesAsAllowed_set rfl hdb.ids hmem (attached_id _ _) (.of_open ?_)
    exact fun hterminal => hstatus (mem_cons_of_mem _ hterminal)
  | passed h₀ stored _ hmem hstatus | blocked h₀ reasons _ hmem hstatus =>
    exact movesAsAllowed_set rfl hdb.ids hmem rfl (.of_open hstatus)
  | review h₀ decision row edges _ hmem _ hmove =>
    exact movesAsAllowed_set rfl hdb.ids hmem rfl hmove
  | revise h₀ revision row _ _ _ _ _ hrevised =>
    obtain ⟨edge, -, -, hmem, hconfirmed⟩ := revisedHypothesis_some hrevised
    intro h hh
    by_cases heq : h.id = h₀.id
    · obtain rfl := hdb.ids.eq_of_key_eq hh hmem heq
      refine ⟨_, (mem_set_append hmem).2 (.inl rfl), rfl, fun _ => .inr ?_⟩
      rw [hconfirmed]
      exact mem_cons_self
    · exact ⟨h, (mem_set_append hmem).2 (.inr ⟨.inl hh, heq⟩), rfl, .refl h⟩

/-! ## Confirmed hypotheses -/

/-- What a confirmed hypothesis has earned in a run. -/
structure Earned (env : Env) (calls : List Call) (h : CausalHypothesis) : Prop where
  causal : h.proposedEdgeType ∉ associationOnlyEdgeTypes
  passed : h.hardGateOutcome = some .passed
  evaluated : EvaluatedEarlier env calls h
  evidence : h.evidenceCount =
    (linksOf ((serve env).run {} calls) h.id).countP (·.supports) ∧ 1 ≤ h.evidenceCount
  contradictions : h.contradictionCount =
    (linksOf ((serve env).run {} calls) h.id).countP (!·.supports)
  confidence : ∃ score, h.confidenceScore = some score ∧
    score = cappedWeight (methodWeight env h) h.minimumSupportingMappingConfidence /
      (1 + h.contradictionCount) ∧ probableConfidenceThreshold ≤ score

/-- Every confirmed hypothesis has earned it, and terminal hypotheses move only as allowed. -/
structure ConfirmedEarned (env : Env) (calls : List Call) : Prop where
  earned : ∀ h ∈ ((serve env).run {} calls).hypotheses, h.lifecycleStatus = .confirmed →
    Earned env calls h
  terminal : (serve env).AllSteps
    (fun db call => MovesAsAllowed db ((serve env).next db call)) {} calls

theorem earned_of_confirmed {calls : List Call} (hh : h ∈ ((serve env).run {} calls).hypotheses)
    (hconfirmed : h.lifecycleStatus = .confirmed) : Earned env calls h := by
  have hconsistent := consistent_run env calls
  have hconfirmable := confirmable_run env calls h hh hconfirmed
  have hevaluated := evaluatedEarlier_run env calls h hh
    ⟨.inr (.inr hconfirmed), hconfirmable.passed⟩
  refine ⟨hconfirmable.causal, hconfirmable.passed, hevaluated,
    ⟨hconsistent.evidence h hh, hconfirmable.evidence⟩, hconsistent.contradictions h hh, ?_⟩
  obtain ⟨score, hscore, hthreshold⟩ := hconfirmable.confidence
  obtain ⟨before, call, after, -, hin⟩ := hevaluated
  have hcapped : IsScore (cappedWeight (methodWeight env h)
      h.minimumSupportingMappingConfidence) := by
    refine isScore_cappedWeight (isScore_methodWeight env h) fun m hm => ?_
    rw [hin.minimum] at hm
    exact isScore_minimum hm
  have hstored := hin.score
  rw [hscore, ← hconsistent.contradictions h hh] at hstored
  obtain ⟨hcount, hvalue⟩ := confidence_of_threshold hcapped hstored.symm hthreshold
  refine ⟨score, hscore, ?_, hthreshold⟩
  rw [hcount, Nat.cast_zero, add_zero, div_one]
  exact hvalue

theorem confirmedEarned (env : Env) (calls : List Call) : ConfirmedEarned env calls where
  earned _ hh hconfirmed := earned_of_confirmed hh hconfirmed
  terminal := by
    refine allSteps_of_invariant consistent_empty
      (fun hdb _ hok => (serve_step hok).consistent hdb) (fun {db call} hdb _ => ?_)
      (allSteps_true _ _)
    rcases next_cases (serve env) db call with ⟨db', reply, hok, hnext⟩ | ⟨e, -, hnext⟩
    · rw [hnext]
      exact (serve_step hok).movesAsAllowed hdb
    · rw [hnext]
      exact fun h hh => ⟨h, hh, rfl, .refl h⟩

end Intel4Ops.Causal
