import Intel4Ops.Decisions.Steps

/-!
# Only an approved recommendation becomes an action

The pointer of a recommendation to its approval is, in every reachable state, the last decision
recorded on it when that decision approves, and null otherwise. A conversion starts from such a
state, adds one action with the tasks of the solution as its numbered steps, and happens once: a
converted recommendation stays as it is.
-/

namespace Intel4Ops.Decisions

open Lib List Table Service

variable {env : Env} {db db' : Db}

/-! ## The governing decision -/

/-- The decision recorded last on a recommendation. -/
def latestDecision (approvals : List DecisionApproval) (recommendationId : UUID) :
    Option DecisionApproval :=
  (approvals.filter (·.recommendationId = recommendationId)).getLast?

theorem latestDecision_append (approvals : List DecisionApproval) (a : DecisionApproval)
    (recommendationId : UUID) :
    latestDecision (approvals ++ [a]) recommendationId =
      if a.recommendationId = recommendationId then some a
      else latestDecision approvals recommendationId := by
  rw [latestDecision, filter_append, filter_singleton, Bool.cond_decide]
  by_cases h : a.recommendationId = recommendationId
  · rw [if_pos h, if_pos h, List.getLast?_concat]
  · rw [if_neg h, if_neg h, append_nil, latestDecision]

variable {approvals : List DecisionApproval} {a : DecisionApproval} {r : DecisionRecommendation}
  {solution : DecisionSolution} {action : ActionService.OperationalAction} {id : UUID}

theorem latestDecision_eq_none {recommendationId : UUID}
    (h : ∀ a ∈ approvals, a.recommendationId ≠ recommendationId) :
    latestDecision approvals recommendationId = none := by
  rw [latestDecision, List.getLast?_eq_none_iff, filter_eq_nil_iff]
  intro a ha
  simpa using h a ha

/-- The recommendation points to its last decision when that approves, and to nothing otherwise. -/
def PointsToLatest (approvals : List DecisionApproval) (r : DecisionRecommendation) : Prop :=
  ∀ id, r.approvedByApprovalId = some id ↔
    ∃ a, latestDecision approvals r.id = some a ∧ a.decision = .approve ∧ a.id = id

@[simp] theorem decided_id (a : DecisionApproval) (r : DecisionRecommendation) :
    (r.decided a).id = r.id := by
  unfold DecisionRecommendation.decided
  split <;> rfl

@[simp] theorem decided_convertedActionId (a : DecisionApproval) (r : DecisionRecommendation) :
    (r.decided a).convertedActionId = r.convertedActionId := by
  unfold DecisionRecommendation.decided
  split <;> rfl

@[simp] theorem converted_id (actionId : UUID) (r : DecisionRecommendation) :
    (r.converted actionId).id = r.id := rfl

theorem decided_approvedByApprovalId (a : DecisionApproval) (r : DecisionRecommendation) :
    (r.decided a).approvedByApprovalId = if a.decision = .approve then some a.id else none := by
  unfold DecisionRecommendation.decided
  split <;> simp_all

theorem pointsToLatest_decided (h : a.recommendationId = r.id) :
    PointsToLatest (approvals ++ [a]) (r.decided a) := by
  intro id
  rw [decided_id, latestDecision_append, if_pos h, decided_approvedByApprovalId]
  by_cases hdecision : a.decision = .approve
  · simp [hdecision]
  · simp [hdecision]

theorem PointsToLatest.append (hpoints : PointsToLatest approvals r)
    (h : a.recommendationId ≠ r.id) : PointsToLatest (approvals ++ [a]) r := by
  intro id
  rw [latestDecision_append, if_neg h]
  exact hpoints id

/-! ## The invariant -/

/-- What holds of the tables after every run. -/
structure Governed (db : Db) : Prop where
  recommendationIds : Unique (·.id) db.recommendations
  approvalIds : Unique (·.id) db.approvals
  approvalOwners : ∀ a ∈ db.approvals, ∃ r ∈ db.recommendations, r.id = a.recommendationId
  pointers : ∀ r ∈ db.recommendations, PointsToLatest db.approvals r
  converted : ∀ r ∈ db.recommendations, r.convertedActionId ≠ none →
    r.lifecycleStatus = .convertedToAction
  planOwned : ActionService.PlanOwned db.actions

theorem governed_empty : Governed {} where
  recommendationIds := Unique.nil
  approvalIds := Unique.nil
  approvalOwners _ ha := absurd ha not_mem_nil
  pointers _ hr := absurd hr not_mem_nil
  converted _ hr := absurd hr not_mem_nil
  planOwned _ hstep := absurd hstep not_mem_nil

/-- The invariant speaks of three tables and the actions only. -/
theorem Governed.congr (h : Governed db) (hrecommendations : db'.recommendations = db.recommendations)
    (happrovals : db'.approvals = db.approvals)
    (hplan : ActionService.PlanOwned db'.actions) : Governed db' where
  recommendationIds := hrecommendations ▸ h.recommendationIds
  approvalIds := happrovals ▸ h.approvalIds
  approvalOwners := hrecommendations ▸ happrovals ▸ h.approvalOwners
  pointers := hrecommendations ▸ happrovals ▸ h.pointers
  converted := hrecommendations ▸ h.converted
  planOwned := hplan

theorem Governed.recommend (h : Governed db) (hfresh : ∀ r' ∈ db.recommendations, r'.id ≠ r.id)
    (happroved : r.approvedByApprovalId = none) (hconverted : r.convertedActionId = none) :
    Governed { db with recommendations := db.recommendations ++ [r] } where
  recommendationIds := h.recommendationIds.append hfresh
  approvalIds := h.approvalIds
  approvalOwners a ha := by
    obtain ⟨r', hr', hid⟩ := h.approvalOwners a ha
    exact ⟨r', mem_append_left _ hr', hid⟩
  pointers r' hr' := by
    rcases mem_append.1 hr' with hr' | hr'
    · exact h.pointers r' hr'
    · -- No decision can be about a recommendation that did not exist.
      obtain rfl := mem_singleton.1 hr'
      have hnone : latestDecision db.approvals r'.id = none := by
        refine latestDecision_eq_none fun a ha heq => ?_
        obtain ⟨r'', hr'', hid⟩ := h.approvalOwners a ha
        exact hfresh r'' hr'' (hid.trans heq)
      intro id
      simp [happroved, hnone]
  converted r' hr' hne := by
    rcases mem_append.1 hr' with hr' | hr'
    · exact h.converted r' hr' hne
    · obtain rfl := mem_singleton.1 hr'
      exact absurd hconverted hne
  planOwned := h.planOwned

theorem Governed.unconverted (h : Governed db) (hr : r ∈ db.recommendations)
    (hopen : r.lifecycleStatus ∉ terminalStatuses) : r.convertedActionId = none := by
  by_contra hne
  rw [h.converted r hr hne] at hopen
  exact hopen (by decide)

theorem Decides.governed (hdecides : Decides db r a db') (h : Governed db) : Governed db' where
  recommendationIds := by
    rw [hdecides.recommendations]
    exact h.recommendationIds.update fun r' => decided_id a r'
  approvalIds := by
    rw [hdecides.approvals]
    exact h.approvalIds.append hdecides.fresh
  approvalOwners b hb := by
    rw [hdecides.recommendations]
    have howner : ∃ r' ∈ db.recommendations, r'.id = b.recommendationId := by
      rw [hdecides.approvals] at hb
      rcases mem_append.1 hb with hb | hb
      · exact h.approvalOwners b hb
      · obtain rfl := mem_singleton.1 hb
        exact ⟨r, hdecides.mem, hdecides.about.symm⟩
    obtain ⟨r', hr', hid⟩ := howner
    refine ⟨_, mem_update.2 ⟨r', hr', rfl⟩, ?_⟩
    rw [apply_ite DecisionRecommendation.id, decided_id, ite_self]
    exact hid
  pointers r' hr' := by
    rw [hdecides.recommendations] at hr'
    rw [hdecides.approvals]
    obtain ⟨r₀, hr₀, rfl⟩ := mem_update.1 hr'
    by_cases hid : r₀.id = r.id
    · rw [if_pos (by simp [hid])]
      exact pointsToLatest_decided (hdecides.about.trans hid.symm)
    · rw [if_neg (by simp [hid])]
      exact (h.pointers r₀ hr₀).append fun heq => hid (heq.symm.trans hdecides.about)
  converted r' hr' hne := by
    rw [hdecides.recommendations] at hr'
    obtain ⟨r₀, hr₀, rfl⟩ := mem_update.1 hr'
    by_cases hid : r₀.id = r.id
    · obtain rfl := h.recommendationIds.eq_of_key_eq hr₀ hdecides.mem hid
      rw [if_pos (by simp), decided_convertedActionId] at hne
      exact absurd (h.unconverted hr₀ hdecides.open_) hne
    · rw [if_neg (by simp [hid])] at hne ⊢
      exact h.converted r₀ hr₀ hne
  planOwned := by
    rw [hdecides.actions]
    exact h.planOwned

theorem planStepsOf_actionId {org actionId : UUID} {step : ActionService.ActionPlanStep}
    (h : step ∈ planStepsOf env org actionId solution) : step.actionId = actionId := by
  obtain ⟨_, -, rfl⟩ := mem_map.1 h
  rfl

theorem Converts.governed (hconverts : Converts env db r a solution action db') (h : Governed db) :
    Governed db' where
  recommendationIds := by
    rw [hconverts.recommendations]
    exact h.recommendationIds.update fun r' => converted_id action.id r'
  approvalIds := by
    rw [hconverts.approvals]
    exact h.approvalIds
  approvalOwners b hb := by
    rw [hconverts.approvals] at hb
    rw [hconverts.recommendations]
    obtain ⟨r', hr', hid⟩ := h.approvalOwners b hb
    refine ⟨_, mem_update.2 ⟨r', hr', rfl⟩, ?_⟩
    rw [apply_ite DecisionRecommendation.id, converted_id, ite_self]
    exact hid
  pointers r' hr' := by
    rw [hconverts.recommendations] at hr'
    rw [hconverts.approvals]
    obtain ⟨r₀, hr₀, rfl⟩ := mem_update.1 hr'
    have hpoints := h.pointers r₀ hr₀
    split
    · exact hpoints
    · exact hpoints
  converted r' hr' hne := by
    rw [hconverts.recommendations] at hr'
    obtain ⟨r₀, hr₀, rfl⟩ := mem_update.1 hr'
    by_cases hid : r₀.id = r.id
    · rw [if_pos (by simp [hid])]
      rfl
    · rw [if_neg (by simp [hid])] at hne ⊢
      exact h.converted r₀ hr₀ hne
  planOwned step hstep := by
    rw [hconverts.planSteps] at hstep
    rw [hconverts.actions]
    rcases mem_append.1 hstep with hstep | hstep
    · obtain ⟨b, hb, hid⟩ := h.planOwned step hstep
      exact ⟨b, mem_append_left _ hb, hid⟩
    · exact ⟨action, by simp, (planStepsOf_actionId hstep).symm⟩

theorem ServeStep.governed {request : Request} (hstep : ServeStep env db request db')
    (h : Governed db) : Governed db' := by
  cases hstep with
  | same => exact h
  | scenarios _ _ _ hrecommendations happrovals hactions =>
    refine h.congr hrecommendations happrovals ?_
    rw [hactions]
    exact h.planOwned
  | recommend _ r hfresh happroved hconverted => exact h.recommend hfresh happroved hconverted
  | decide _ r approval _ hdecides => exact hdecides.governed h
  | convert r approval solution action _ hconverts => exact hconverts.governed h
  | action call actions reply hserve => exact h.congr rfl rfl (h.planOwned.serve hserve)

theorem governed_run (env : Env) (calls : List Call) : Governed ((serve env).run {} calls) :=
  run_invariant governed_empty (fun h hok => (serve_step hok).governed h) calls

/-! ## A converted recommendation stays as it is -/

theorem ServeStep.kept {request : Request} (hstep : ServeStep env db request db')
    (h : Governed db) (hr : r ∈ db.recommendations) (hconverted : r.convertedActionId ≠ none) :
    r ∈ db'.recommendations := by
  cases hstep with
  | same => exact hr
  | scenarios _ _ _ hrecommendations =>
    rw [hrecommendations]
    exact hr
  | recommend => exact mem_append_left _ hr
  | decide _ r₀ approval _ hdecides =>
    rw [hdecides.recommendations]
    refine mem_update_of_mem hr (decide_eq_false fun hid => hconverted ?_)
    rw [h.recommendationIds.eq_of_key_eq hr hdecides.mem hid]
    exact h.unconverted hdecides.mem hdecides.open_
  | convert r₀ approval solution action _ hconverts =>
    rw [hconverts.recommendations]
    refine mem_update_of_mem hr (decide_eq_false fun hid => hconverted ?_)
    rw [h.recommendationIds.eq_of_key_eq hr hconverts.mem hid]
    exact hconverts.unconverted
  | action => exact hr

theorem kept_next (h : Governed db) (call : Call) (hr : r ∈ db.recommendations)
    (hconverted : r.convertedActionId ≠ none) : r ∈ ((serve env).next db call).recommendations := by
  rcases next_cases (serve env) db call with ⟨db', reply, hok, hnext⟩ | ⟨e, -, hnext⟩
  · rw [hnext]
    exact (serve_step hok).kept h hr hconverted
  · rw [hnext]
    exact hr

theorem kept_run (h : Governed db) (calls : List Call) (hr : r ∈ db.recommendations)
    (hconverted : r.convertedActionId ≠ none) : r ∈ ((serve env).run db calls).recommendations := by
  have hrun : Governed ((serve env).run db calls) ∧
      r ∈ ((serve env).run db calls).recommendations :=
    run_invariant (P := fun db => Governed db ∧ r ∈ db.recommendations) ⟨h, hr⟩
      (fun hP hok => ⟨(serve_step hok).governed hP.1, (serve_step hok).kept hP.1 hP.2 hconverted⟩)
      calls
  exact hrun.2

/-! ## Conversions -/

def planStepsFor (db : Db) (actionId : UUID) : List ActionService.ActionPlanStep :=
  db.actions.planSteps.filter (·.actionId = actionId)

/-- A conversion: the last decision approves the recommendation, which has no action yet, and gets
one whose plan steps are the tasks of its solution, numbered from one. -/
structure Conversion (env : Env) (db : Db) (r : DecisionRecommendation)
    (action : ActionService.OperationalAction) (db' : Db) : Prop where
  mem : r ∈ db.recommendations
  unconverted : r.convertedActionId = none
  authorized : ∃ a, latestDecision db.approvals r.id = some a ∧ a.decision = .approve ∧
    r.approvedByApprovalId = some a.id
  recommendation : r.converted action.id ∈ db'.recommendations
  actions : db'.actions.actions = db.actions.actions ++ [action]
  fresh : ∀ a ∈ db.actions.actions, a.id ≠ action.id
  steps : ∃ solution ∈ db.solutions, solution.id = r.solutionId ∧
    (planStepsFor db' action.id).map (·.sequenceNumber) =
      List.range' 1 (orderedTasks solution).length ∧
    (planStepsFor db' action.id).map (·.title) =
      (orderedTasks solution).map fun task => "Execute task " ++ env.valueText task

theorem planStepsOf_sequenceNumber (env : Env) (org actionId : UUID) (solution : DecisionSolution) :
    (planStepsOf env org actionId solution).map (·.sequenceNumber) =
      List.range' 1 (orderedTasks solution).length := by
  rw [planStepsOf, map_map]
  refine ext_getElem (by simp) fun i h₁ h₂ => ?_
  simp [Nat.add_comm]

theorem planStepsOf_title (env : Env) (org actionId : UUID) (solution : DecisionSolution) :
    (planStepsOf env org actionId solution).map (·.title) =
      (orderedTasks solution).map fun task => "Execute task " ++ env.valueText task := by
  rw [planStepsOf, map_map]
  refine ext_getElem (by simp) fun i h₁ h₂ => ?_
  simp

theorem Converts.planStepsFor_eq (hconverts : Converts env db r a solution action db')
    (h : Governed db) :
    planStepsFor db' action.id = planStepsOf env r.organizationId action.id solution := by
  have hold : db.actions.planSteps.filter (·.actionId = action.id) = [] := by
    rw [filter_eq_nil_iff]
    intro step hstep hid
    obtain ⟨b, hb, hb'⟩ := h.planOwned step hstep
    exact hconverts.fresh b hb (hb'.trans (of_decide_eq_true hid))
  rw [planStepsFor, hconverts.planSteps, filter_append, hold, nil_append, filter_eq_self]
  intro step hstep
  exact decide_eq_true (planStepsOf_actionId hstep)

theorem Converts.conversion (hconverts : Converts env db r a solution action db')
    (h : Governed db) : Conversion env db r action db' where
  mem := hconverts.mem
  unconverted := hconverts.unconverted
  authorized := by
    obtain ⟨b, hlatest, hdecision, hid⟩ := (h.pointers r hconverts.mem a.id).1 hconverts.governs
    exact ⟨b, hlatest, hdecision, hid ▸ hconverts.governs⟩
  recommendation := by
    rw [hconverts.recommendations]
    exact mem_update_of_selected hconverts.mem (decide_eq_true rfl)
  actions := hconverts.actions
  fresh := hconverts.fresh
  steps := by
    refine ⟨solution, hconverts.solution_mem, hconverts.solution_id, ?_, ?_⟩
    · rw [hconverts.planStepsFor_eq h, planStepsOf_sequenceNumber]
    · rw [hconverts.planStepsFor_eq h, planStepsOf_title]

theorem conversion_of_serve (h : Governed db) {call : Call} {reply : Reply}
    (hrequest : call.request = .convertToAction id) (hok : serve env db call = .ok (db', reply)) :
    db' = db ∨ ∃ r action, r.id = id ∧ Conversion env db r action db' := by
  have hstep := serve_step hok
  rw [hrequest] at hstep
  cases hstep with
  | same => exact .inl rfl
  | scenarios _ _ hne => exact absurd rfl (hne id)
  | convert r approval solution action _ hconverts =>
    exact .inr ⟨r, action, rfl, hconverts.conversion h⟩

theorem ServeStep.converted_mem {request : Request} (hstep : ServeStep env db request db')
    (h : Governed db) (hr : r ∈ db'.recommendations) (hconverted : r.convertedActionId ≠ none) :
    r ∈ db.recommendations ∨ request = .convertToAction r.id := by
  cases hstep with
  | same => exact .inl hr
  | scenarios _ _ _ hrecommendations =>
    rw [hrecommendations] at hr
    exact .inl hr
  | recommend _ r₀ _ _ hnone =>
    rcases mem_append.1 hr with hr | hr
    · exact .inl hr
    · obtain rfl := mem_singleton.1 hr
      exact absurd hnone hconverted
  | decide _ r₀ approval _ hdecides =>
    rw [hdecides.recommendations] at hr
    obtain ⟨r₁, hr₁, rfl⟩ := mem_update.1 hr
    by_cases hid : r₁.id = r₀.id
    · obtain rfl := h.recommendationIds.eq_of_key_eq hr₁ hdecides.mem hid
      rw [if_pos (by simp), decided_convertedActionId] at hconverted
      exact absurd (h.unconverted hr₁ hdecides.open_) hconverted
    · rw [if_neg (by simp [hid])]
      exact .inl hr₁
  | convert r₀ approval solution action _ hconverts =>
    rw [hconverts.recommendations] at hr
    obtain ⟨r₁, hr₁, rfl⟩ := mem_update.1 hr
    by_cases hid : r₁.id = r₀.id
    · rw [if_pos (by simp [hid]), converted_id, hid]
      exact .inr rfl
    · rw [if_neg (by simp [hid])]
      exact .inl hr₁
  | action => exact .inl hr

/-- Serving the request gives the recommendation its action. -/
def ConvertsAt (env : Env) (db : Db) (call : Call) (recommendationId : UUID) : Prop :=
  (∃ r ∈ db.recommendations, r.id = recommendationId ∧ r.convertedActionId = none) ∧
    ∃ r ∈ ((serve env).next db call).recommendations,
      r.id = recommendationId ∧ r.convertedActionId ≠ none

/-- What a run of the service does with approvals and conversions. -/
structure ApprovalsGovern (env : Env) (calls : List Call) : Prop where
  pointers : ∀ r ∈ ((serve env).run {} calls).recommendations,
    PointsToLatest ((serve env).run {} calls).approvals r
  conversions : (serve env).AllSteps (fun db call => ∀ id db' reply,
    call.request = .convertToAction id → serve env db call = .ok (db', reply) →
      db' = db ∨ ∃ r action, r.id = id ∧ Conversion env db r action db') {} calls
  converters : (serve env).AllSteps (fun db call => ∀ id,
    ConvertsAt env db call id → call.request = .convertToAction id) {} calls
  once : ∀ before a between b after, calls = before ++ a :: (between ++ b :: after) →
    ∀ id, ConvertsAt env ((serve env).run {} before) a id →
      ¬ ConvertsAt env ((serve env).run {} (before ++ a :: between)) b id
  kept : (serve env).AllSteps (fun db call => ∀ r ∈ db.recommendations,
    r.convertedActionId ≠ none → r ∈ ((serve env).next db call).recommendations) {} calls

/-- A property of every step from a governed state is one of every step of a run. -/
theorem allSteps_of_governed {G : Db → Call → Prop} (h : ∀ {db call}, Governed db → G db call)
    (calls : List Call) : (serve env).AllSteps G {} calls :=
  allSteps_of_invariant governed_empty (fun hP _ hok => (serve_step hok).governed hP)
    (fun hP _ => h hP) (allSteps_true _ _)

theorem convertsAt_request (h : Governed db) {call : Call} (hat : ConvertsAt env db call id) :
    call.request = .convertToAction id := by
  obtain ⟨⟨r, hr, hid, hnone⟩, r', hr', hid', hne⟩ := hat
  have hnew : r' ∉ db.recommendations := by
    intro hold
    rw [h.recommendationIds.eq_of_key_eq hold hr (hid'.trans hid.symm)] at hne
    exact hne hnone
  rcases next_cases (serve env) db call with ⟨db', reply, hok, hnext⟩ | ⟨e, -, hnext⟩
  · rw [hnext] at hr'
    rw [← hid']
    exact ((serve_step hok).converted_mem h hr' hne).resolve_left hnew
  · rw [hnext] at hr'
    exact absurd hr' hnew

theorem not_convertsAt_again (before : List Call) (a : Call) (between : List Call) (b : Call)
    (hfirst : ConvertsAt env ((serve env).run {} before) a id) :
    ¬ ConvertsAt env ((serve env).run {} (before ++ a :: between)) b id := by
  rintro ⟨⟨r, hr, hid, hnone⟩, -⟩
  obtain ⟨-, r', hr', hid', hne⟩ := hfirst
  have hgoverned := governed_run env (before ++ [a])
  rw [run_append, run_cons, run_nil] at hgoverned
  have hkept : r' ∈ ((serve env).run _ between).recommendations :=
    kept_run hgoverned between hr' hne
  rw [← run_cons, ← run_append] at hkept
  have heq := (governed_run env (before ++ a :: between)).recommendationIds.eq_of_key_eq hkept hr
    (hid'.trans hid.symm)
  rw [heq] at hne
  exact hne hnone

theorem approvalsGovern (env : Env) (calls : List Call) : ApprovalsGovern env calls where
  pointers := (governed_run env calls).pointers
  conversions := allSteps_of_governed (fun h _ _ _ hrequest hok =>
    conversion_of_serve h hrequest hok) calls
  converters := allSteps_of_governed (fun h _ hat => convertsAt_request h hat) calls
  once before a between b _ _ _ hfirst := not_convertsAt_again before a between b hfirst
  kept := allSteps_of_governed (fun h _ hr hne => kept_next h _ hr hne) calls

end Intel4Ops.Decisions
