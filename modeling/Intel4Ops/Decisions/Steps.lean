import Intel4Ops.Actions.Steps
import Intel4Ops.Decisions.Service

/-!
# Decision intelligence: what a request does

`ServeStep` lists what a committed request does to the recommendations, their decisions and the
operational actions.
-/

namespace Intel4Ops.Decisions

open Lib Table Prod

variable {env : Env} {db db' : Db} {org : UUID}

theorem getTenant_ok {α : Type} {rows : List α} {id organizationId : α → UUID} {rowId : UUID}
    {code : String} {row : α} (h : getTenant rows id organizationId org rowId code = .ok row) :
    row ∈ rows ∧ id row = rowId ∧ organizationId row = org := by
  rw [getTenant, orFail_eq_ok] at h
  exact find?_spec h

variable {r : DecisionRecommendation} {recommendationId actor id scenarioId : UUID}

theorem getRecommendation_ok (h : getRecommendation db org recommendationId = .ok r) :
    r ∈ db.recommendations ∧ r.id = recommendationId ∧ r.organizationId = org := by
  rw [getRecommendation, orFail_eq_ok] at h
  exact find?_spec h

/-- A decision is recorded on a recommendation. -/
structure Decides (db : Db) (r : DecisionRecommendation) (approval : DecisionApproval) (db' : Db) :
    Prop where
  mem : r ∈ db.recommendations
  open_ : r.lifecycleStatus ∉ terminalStatuses
  fresh : ∀ a ∈ db.approvals, a.id ≠ approval.id
  about : approval.recommendationId = r.id
  recommendations : db'.recommendations =
    update (·.id = r.id) (.decided approval) db.recommendations
  approvals : db'.approvals = db.approvals ++ [approval]
  actions : db'.actions = db.actions

/-- A recommendation becomes an action. -/
structure Converts (env : Env) (db : Db) (r : DecisionRecommendation) (approval : DecisionApproval)
    (solution : DecisionSolution) (action : ActionService.OperationalAction) (db' : Db) :
    Prop where
  mem : r ∈ db.recommendations
  unconverted : r.convertedActionId = none
  approved : r.lifecycleStatus = .approved
  stored : approval ∈ db.approvals
  governs : r.approvedByApprovalId = some approval.id
  about : approval.recommendationId = r.id
  decision : approval.decision = .approve
  solution_mem : solution ∈ db.solutions
  solution_id : solution.id = r.solutionId
  fresh : ∀ a ∈ db.actions.actions, a.id ≠ action.id
  recommendations : db'.recommendations =
    update (·.id = r.id) (.converted action.id) db.recommendations
  approvals : db'.approvals = db.approvals
  actions : db'.actions.actions = db.actions.actions ++ [action]
  planSteps : db'.actions.planSteps =
    db.actions.planSteps ++ planStepsOf env r.organizationId action.id solution

/-- What one committed request does. -/
inductive ServeStep (env : Env) (db : Db) : Request → Db → Prop
  | same (request : Request) : ServeStep env db request db
  | scenarios (request : Request) (db' : Db) (hrequest : ∀ id, request ≠ .convertToAction id)
      (hrecommendations : db'.recommendations = db.recommendations)
      (happrovals : db'.approvals = db.approvals) (hactions : db'.actions = db.actions) :
      ServeStep env db request db'
  | recommend (payload : DecisionRecommendationCreate) (r : DecisionRecommendation)
      (hfresh : ∀ r' ∈ db.recommendations, r'.id ≠ r.id) (happroved : r.approvedByApprovalId = none)
      (hconverted : r.convertedActionId = none) :
      ServeStep env db (.createRecommendation payload)
        { db with recommendations := db.recommendations ++ [r] }
  | decide (payload : DecisionApprovalCreate) (r : DecisionRecommendation)
      (approval : DecisionApproval) (db' : Db) (h : Decides db r approval db') :
      ServeStep env db (.decide r.id payload) db'
  | convert (r : DecisionRecommendation) (approval : DecisionApproval)
      (solution : DecisionSolution) (action : ActionService.OperationalAction) (db' : Db)
      (h : Converts env db r approval solution action db') :
      ServeStep env db (.convertToAction r.id) db'
  | action (call : ActionService.Call) (actions : ActionService.Db) (reply : ActionService.Reply)
      (h : ActionService.serve env.fingerprint db.actions call = .ok (actions, reply)) :
      ServeStep env db (.action call.context call.request) { db with actions }

theorem createScenario_step {definitions : Definitions} {payload : DecisionScenarioCreate}
    {row : DecisionScenario}
    (h : createScenario env definitions db org payload actor id = .ok (db', row)) :
    ServeStep env db (.createScenario payload) db' := by
  dsimp only [createScenario] at h
  split at h
  · obtain ⟨_, -, h⟩ := bind_eq_ok.1 h
    obtain rfl := congrArg fst (pure_eq_ok.1 h)
    exact .same _
  · iterate 3 obtain ⟨_, -, h⟩ := bind_eq_ok.1 h
    obtain rfl := congrArg fst (pure_eq_ok.1 h)
    exact .scenarios _ _ (fun _ => Request.noConfusion) rfl rfl rfl

theorem addInput_step {payload : DecisionScenarioInputCreate} {row : DecisionScenarioInput}
    (h : addInput db org scenarioId payload id = .ok (db', row)) :
    ServeStep env db (.addInput scenarioId payload) db' := by
  iterate 4 obtain ⟨_, -, h⟩ := bind_eq_ok.1 h
  obtain rfl := congrArg fst (pure_eq_ok.1 h)
  exact .scenarios _ _ (fun _ => Request.noConfusion) rfl rfl rfl

theorem validate_step {row : DecisionScenario}
    (h : validate env db org scenarioId = .ok (db', row)) :
    ServeStep env db (.validate scenarioId) db' := by
  obtain ⟨_, -, h⟩ := bind_eq_ok.1 h
  obtain rfl := congrArg fst (pure_eq_ok.1 h)
  exact .scenarios _ _ (fun _ => Request.noConfusion) rfl rfl rfl

theorem solveScenario_ok {scenario : DecisionScenario} {problem : DecisionProblem}
    {method : DecisionMethodDefinition} {inputs : List DecisionScenarioInput}
    {payload : DecisionExecutionCreate} {drawn : Drawn} {row : DecisionExecution}
    (h : solveScenario env db scenario problem method inputs payload actor drawn = .ok (db', row)) :
    ∃ result, env.solve problem.useCaseCode (solverPayload inputs) = .ok result ∧
      row = solvedExecution scenario method (inputFingerprint env inputs) result payload actor
        drawn.first ∧
      db'.executions = db.executions ++ [row] ∧
      db'.solutions = db.solutions ++
        [solutionOf scenario.organizationId row.id result drawn.solution] ∧
      db'.recommendations = db.recommendations ∧ db'.approvals = db.approvals ∧
      db'.actions = db.actions := by
  obtain ⟨result, hsolve, h⟩ := bind_eq_ok.1 h
  obtain ⟨executions, hexecutions, h⟩ := bind_eq_ok.1 h
  obtain ⟨solutions, hsolutions, h⟩ := bind_eq_ok.1 h
  iterate 3 obtain ⟨_, -, h⟩ := bind_eq_ok.1 h
  obtain ⟨rfl, rfl⟩ := mk.inj (pure_eq_ok.1 h)
  rw [insertExecution, orFail_eq_ok, insert_eq_some] at hexecutions
  rw [orFail_eq_ok, insert_eq_some] at hsolutions
  exact ⟨result, hsolve, rfl, hexecutions.2, hsolutions.2, rfl, rfl, rfl⟩

theorem execute_step {definitions : Definitions} {payload : DecisionExecutionCreate}
    {drawn : Drawn} {row : DecisionExecution}
    (h : execute env definitions db org scenarioId payload actor drawn = .ok (db', row)) :
    ServeStep env db (.execute scenarioId payload) db' := by
  obtain ⟨scenario, -, h⟩ := bind_eq_ok.1 h
  dsimp only at h
  split at h
  · obtain ⟨_, -, h⟩ := bind_eq_ok.1 h
    obtain rfl := congrArg fst (pure_eq_ok.1 h)
    exact .same _
  · split at h
    · obtain ⟨_, -, h⟩ := bind_eq_ok.1 h
      obtain rfl := congrArg fst (pure_eq_ok.1 h)
      exact .scenarios _ _ (fun _ => Request.noConfusion) rfl rfl rfl
    · obtain ⟨_, -, h⟩ := bind_eq_ok.1 h
      obtain ⟨_, -, h⟩ := bind_eq_ok.1 h
      split at h
      · obtain rfl := congrArg fst (pure_eq_ok.1 h)
        exact .same _
      · obtain ⟨_, -, -, -, -, hrecommendations, happrovals, hactions⟩ := solveScenario_ok h
        exact .scenarios _ _ (fun _ => Request.noConfusion) hrecommendations happrovals hactions

theorem createRecommendation_step {payload : DecisionRecommendationCreate}
    {row : DecisionRecommendation}
    (h : createRecommendation db org payload actor id = .ok (db', row)) :
    ServeStep env db (.createRecommendation payload) db' := by
  iterate 3 obtain ⟨_, -, h⟩ := bind_eq_ok.1 h
  dsimp only at h
  split at h
  · obtain ⟨_, -, h⟩ := bind_eq_ok.1 h
    obtain rfl := congrArg fst (pure_eq_ok.1 h)
    exact .same _
  · obtain ⟨recommendations, hinsert, h⟩ := bind_eq_ok.1 h
    rw [orFail_eq_ok, insert_eq_some] at hinsert
    obtain ⟨hfresh, rfl⟩ := hinsert
    obtain rfl := congrArg fst (pure_eq_ok.1 h)
    exact .recommend payload _ hfresh rfl rfl

theorem decide_step {payload : DecisionApprovalCreate} {actorRole : String}
    {row : DecisionApproval}
    (h : decide env db org recommendationId payload actor actorRole id = .ok (db', row)) :
    ServeStep env db (.decide recommendationId payload) db' := by
  obtain ⟨r, hget, h⟩ := bind_eq_ok.1 h
  obtain ⟨hmem, rfl, -⟩ := getRecommendation_ok hget
  split at h
  · obtain ⟨_, -, h⟩ := bind_eq_ok.1 h
    obtain rfl := congrArg fst (pure_eq_ok.1 h)
    exact .same _
  · obtain ⟨_, hopen, h⟩ := bind_eq_ok.1 h
    obtain ⟨approvals, hinsert, h⟩ := bind_eq_ok.1 h
    obtain ⟨auditEvents, -, h⟩ := bind_eq_ok.1 h
    rw [orFail_eq_ok, insert_eq_some] at hinsert
    obtain ⟨hfresh, rfl⟩ := hinsert
    obtain rfl := congrArg fst (pure_eq_ok.1 h)
    exact .decide payload r _ _ ⟨hmem, ensure_eq_ok.1 hopen, hfresh, rfl, rfl, rfl, rfl⟩

theorem governingApproval_ok {approval : DecisionApproval}
    (h : governingApproval db r = .ok approval) :
    r.lifecycleStatus = .approved ∧ r.approvedByApprovalId = some approval.id ∧
      approval ∈ db.approvals ∧ approval.recommendationId = r.id ∧
      approval.decision = .approve := by
  obtain ⟨_, happroved, h⟩ := bind_eq_ok.1 h
  obtain ⟨approvalId, hpointer, h⟩ := bind_eq_ok.1 h
  obtain ⟨found, hfound, h⟩ := bind_eq_ok.1 h
  obtain ⟨_, hdecision, h⟩ := bind_eq_ok.1 h
  obtain rfl := pure_eq_ok.1 h
  rw [orFail_eq_ok] at hpointer hfound
  obtain ⟨hmem, hid, -, habout⟩ := find?_spec hfound
  rw [← hid] at hpointer
  exact ⟨ensure_eq_ok.1 happroved, hpointer, hmem, habout, ensure_eq_ok.1 hdecision⟩

theorem convert_step {row : ActionService.OperationalAction} (hmem : r ∈ db.recommendations)
    (hunconverted : r.convertedActionId = none) (h : convert env db r actor id = .ok (db', row)) :
    ServeStep env db (.convertToAction r.id) db' := by
  obtain ⟨approval, hgoverning, h⟩ := bind_eq_ok.1 h
  obtain ⟨happroved, hpointer, hstored, habout, hdecision⟩ := governingApproval_ok hgoverning
  obtain ⟨alternative, -, h⟩ := bind_eq_ok.1 h
  obtain ⟨actions, hactions, h⟩ := bind_eq_ok.1 h
  obtain ⟨solution, hsolution, h⟩ := bind_eq_ok.1 h
  obtain ⟨_, -, h⟩ := bind_eq_ok.1 h
  obtain ⟨hsolution, hsolutionId, -⟩ := getTenant_ok hsolution
  rw [orFail_eq_ok, insert_eq_some] at hactions
  obtain ⟨hfresh, rfl⟩ := hactions
  split at h
  · next db₁ hcommit =>
    obtain rfl := congrArg fst (pure_eq_ok.1 h)
    obtain ⟨planSteps, hplan, hcommit⟩ := Option.bind_eq_some_iff.1 hcommit
    obtain ⟨auditEvents, -, hcommit⟩ := Option.bind_eq_some_iff.1 hcommit
    obtain rfl := Option.some.inj hcommit
    exact .convert r approval solution _ _ ⟨hmem, hunconverted, happroved, hstored, hpointer, habout,
      hdecision, hsolution, hsolutionId, fun a ha hid => hfresh a ha (.inl hid), rfl, rfl, rfl,
      insertAll_eq_some hplan⟩
  · -- The transaction is rolled back.
    obtain ⟨_, -, h⟩ := bind_eq_ok.1 h
    obtain rfl := congrArg fst (pure_eq_ok.1 h)
    exact .same _

theorem convertToAction_step {row : ActionService.OperationalAction}
    (h : convertToAction env db org recommendationId actor id = .ok (db', row)) :
    ServeStep env db (.convertToAction recommendationId) db' := by
  obtain ⟨r, hget, hrest⟩ := bind_eq_ok.1 h
  obtain ⟨hmem, rfl, -⟩ := getRecommendation_ok hget
  split at hrest
  · obtain ⟨_, -, hrest⟩ := bind_eq_ok.1 hrest
    obtain rfl := congrArg fst (pure_eq_ok.1 hrest)
    exact .same _
  · next hunconverted => exact convert_step hmem hunconverted hrest

theorem serveAction_step {call : ActionService.Call} {reply : ActionService.Reply}
    (h : serveAction env db call = .ok (db', reply)) :
    ServeStep env db (.action call.context call.request) db' := by
  unfold serveAction at h
  split at h
  · next actions reply' hserve =>
    obtain rfl := congrArg fst (Except.ok.inj h)
    exact .action call actions _ hserve
  · cases h

theorem serve_step {call : Call} {reply : Reply} (h : serve env db call = .ok (db', reply)) :
    ServeStep env db call.request db' := by
  unfold serve at h
  dsimp only at h
  cases hrequest : call.request
  all_goals
    rw [hrequest] at h
    obtain ⟨_, h, -⟩ := Service.reply_ok h
  case createScenario => exact createScenario_step h
  case addInput => exact addInput_step h
  case validate => exact validate_step h
  case execute => exact execute_step h
  case createRecommendation => exact createRecommendation_step h
  case decide => exact decide_step h
  case convertToAction => exact convertToAction_step h
  case action => exact serveAction_step h

end Intel4Ops.Decisions
