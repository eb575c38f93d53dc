import Intel4Ops.Actions.Service

/-!
# Operational actions: what a request does

`ServiceStep` lists what a committed request does to the tables: it changes nothing, adds an
action, moves or assigns one, or adds a row that belongs to one. The invariants of the service are
read off these steps.
-/

namespace Intel4Ops.ActionService

open Lib Intel4Ops.Actions Table Prod

variable {fingerprint : Fingerprint} {db db' : Db} {org actionId : UUID}

/-! ## Lookups -/

variable {a : OperationalAction} {actor : UUID} {actorRole : String} {now : Instant}

theorem get_ok (h : get db org actionId = .ok a) :
    a ∈ db.actions ∧ a.id = actionId ∧ a.organizationId = org := by
  rw [get, orFail_eq_ok] at h
  exact find?_spec h

/-- The organization has the action. -/
def Stored (db : Db) (org actionId : UUID) : Prop :=
  ∃ a ∈ db.actions, a.id = actionId ∧ a.organizationId = org

theorem stored_of_get (h : get db org actionId = .ok a) : Stored db org actionId := ⟨a, get_ok h⟩

theorem get_of_mem (hids : Unique (·.id) db.actions) (ha : a ∈ db.actions) :
    get db a.organizationId a.id = .ok a := by
  rw [get, orFail_eq_ok]
  refine hids.find?_eq_some ha (by simp) fun b _ hb => ?_
  rw [decide_eq_true_eq] at hb
  exact hb.1

theorem findEvent_some {key : String} {e : ActionEvent} (h : findEvent db actionId key = some e) :
    e ∈ db.events ∧ e.actionId = actionId ∧ e.idempotencyKey = key :=
  find?_spec h

theorem recordEvent_ok {event : ActionEvent} (h : recordEvent db event = .ok db') :
    (∀ e ∈ db.events, ¬ (e.actionId = event.actionId ∧
      e.idempotencyKey = event.idempotencyKey)) ∧
      db' = { db with events := db.events ++ [event] } := by
  obtain ⟨events, hinsert, h⟩ := bind_eq_ok.1 h
  rw [orFail_eq_ok, insert_eq_some] at hinsert
  obtain ⟨hfresh, rfl⟩ := hinsert
  exact ⟨hfresh, (pure_eq_ok.1 h).symm⟩

@[simp] theorem moveTo_id (s : ActionStatus) (now : Instant) (a : OperationalAction) :
    (a.moveTo s now).id = a.id := by
  cases s <;> rfl

@[simp] theorem moveTo_status (s : ActionStatus) (now : Instant) (a : OperationalAction) :
    (a.moveTo s now).status = s := by
  cases s <;> rfl

@[simp] theorem moveTo_approvalRequired (s : ActionStatus) (now : Instant)
    (a : OperationalAction) : (a.moveTo s now).approvalRequired = a.approvalRequired := by
  cases s <;> rfl

/-! ## The steps -/

def FreshKey (db : Db) (event : ActionEvent) : Prop :=
  ∀ e ∈ db.events, ¬ (e.actionId = event.actionId ∧ e.idempotencyKey = event.idempotencyKey)

/-- Two actions of the organization can be joined by a new dependency. -/
structure Joinable (db : Db) (org actionId prerequisiteActionId : UUID) : Prop where
  action : Stored db org actionId
  prerequisite : Stored db org prerequisiteActionId
  ne : actionId ≠ prerequisiteActionId
  reverse : ¬ ∃ d ∈ db.dependencies, d.actionId = prerequisiteActionId ∧
    d.prerequisiteActionId = actionId
  fresh : ∀ d ∈ db.dependencies,
    ¬ (d.actionId = actionId ∧ d.prerequisiteActionId = prerequisiteActionId)

/-- The row says of the resource what the request says. -/
def ActionResourceRequirement.Records (payload : ActionResourceCreate)
    (row : ActionResourceRequirement) : Prop :=
  row.mandatory = payload.mandatory ∧
    row.inventoryCheckStatus =
      (if payload.availableQuantity.isSome then "confirmed" else "unknown") ∧
    row.shortage = payload.availableQuantity.any (· < payload.requiredQuantity)

/-- What one committed request does to the tables. -/
inductive ServiceStep (db : Db) : Request → Db → Prop
  | same (request : Request) : ServiceStep db request db
  | create (payload : ActionCreate) (action : OperationalAction) (event : ActionEvent)
      (hfresh : ∀ a ∈ db.actions, a.id ≠ action.id) (hstatus : action.status = .proposed)
      (hkey : FreshKey db event) (hevent : event.newStatus = none) :
      ServiceStep db (.create payload)
        { db with actions := db.actions ++ [action], events := db.events ++ [event] }
  | transition (action : OperationalAction) (payload : ActionTransitionCreate) (actor : UUID)
      (actorRole : String) (now : Instant) (hmem : action ∈ db.actions)
      (hallowed : payload.newStatus ∈ allowedTransitions action.status)
      (hcheck : checkStatus db action payload.newStatus actorRole = .ok ())
      (hkey : FreshKey db (transitionEvent action payload actor actorRole)) :
      ServiceStep db (.transition action.id payload)
        { db with
          actions := update (·.id = action.id) (.moveTo payload.newStatus now) db.actions
          events := db.events ++ [transitionEvent action payload actor actorRole] }
  | assign (action : OperationalAction) (payload : ActionAssignmentCreate) (event : ActionEvent)
      (hkey : FreshKey db event) (hevent : event.newStatus = none) :
      ServiceStep db (.assign action.id payload)
        { db with
          actions := update (·.id = action.id) (.assignTo payload) db.actions
          events := db.events ++ [event] }
  | planSteps (actionId : UUID) (payload : ActionPlanStepCreate)
      (planSteps : List ActionPlanStep) :
      ServiceStep db (.addPlanStep actionId payload) { db with planSteps }
  | dependency (org actionId : UUID) (payload : ActionDependencyCreate)
      (hjoinable : Joinable db org actionId payload.prerequisiteActionId) :
      ServiceStep db (.addDependency actionId payload)
        { db with dependencies := db.dependencies ++ [newDependency org actionId payload] }
  | resource (payload : ActionResourceCreate) (row : ActionResourceRequirement)
      (hrow : row.Records payload) :
      ServiceStep db (.addResource row.actionId payload)
        { db with resources := db.resources ++ [row] }
  | evidence (actionId : UUID) (payload : ActionEvidenceCreate) (row : ActionEvidence) :
      ServiceStep db (.addEvidence actionId payload) { db with evidence := db.evidence ++ [row] }
  | outcome (action : OperationalAction) (payload : ActionOutcomeCreate) (row : ActionOutcome)
      (hmem : action ∈ db.actions) (hrow : row.actionId = action.id)
      (heligible : row.outcomeType = "realized" →
        realizedValueEligible action.status (verificationCount db action.id) = true) :
      ServiceStep db (.recordOutcome action.id payload) { db with outcomes := db.outcomes ++ [row] }
  | feedback (actionId : UUID) (payload : ActionFeedbackCreate)
      (feedback : List ActionModelFeedback) :
      ServiceStep db (.feedback actionId payload) { db with feedback }

theorem newAction_ok {payload : ActionCreate} {id : UUID} {key : String}
    {action : OperationalAction} (h : newAction org payload actor id key = .ok action) :
    action.id = id ∧ action.organizationId = org ∧ action.status = .proposed ∧
      action.approvalRequired = (approvalOf payload).required ∧
      action.idempotencyFingerprint = key := by
  iterate 5 obtain ⟨_, -, h⟩ := bind_eq_ok.1 h
  obtain rfl := pure_eq_ok.1 h
  exact ⟨rfl, rfl, rfl, rfl, rfl⟩

theorem create_step {context : Context} {payload : ActionCreate} {id : UUID}
    (h : create fingerprint context db org payload actor id = .ok (db', a)) :
    ServiceStep db (.create payload) db' := by
  obtain ⟨_, -, h⟩ := bind_eq_ok.1 h
  dsimp only at h
  split at h
  · obtain rfl := congrArg fst (pure_eq_ok.1 h)
    exact .same _
  · obtain ⟨action, haction, h⟩ := bind_eq_ok.1 h
    obtain ⟨actions, hinsert, h⟩ := bind_eq_ok.1 h
    obtain ⟨db₁, hevent, h⟩ := bind_eq_ok.1 h
    rw [orFail_eq_ok, insert_eq_some] at hinsert
    obtain ⟨hfresh, rfl⟩ := hinsert
    obtain ⟨hkey, rfl⟩ := recordEvent_ok hevent
    obtain rfl := congrArg fst (pure_eq_ok.1 h)
    exact .create payload action _ hfresh (newAction_ok haction).2.2.1 hkey rfl

/-- A transition whose key is new moves the action and records an event. -/
theorem transition_ok {payload : ActionTransitionCreate}
    (h : transition db org actionId payload actor actorRole now = .ok (db', a)) :
    (Stored db org actionId ∧
      ∃ e, findEvent db actionId payload.idempotencyKey = some e ∧ db' = db) ∨
      ∃ action, action ∈ db.actions ∧ action.id = actionId ∧
        payload.newStatus ∈ allowedTransitions action.status ∧
        checkStatus db action payload.newStatus actorRole = .ok () ∧
        FreshKey db (transitionEvent action payload actor actorRole) ∧
        db' = { db with
          actions := update (·.id = action.id) (.moveTo payload.newStatus now) db.actions
          events := db.events ++ [transitionEvent action payload actor actorRole] } := by
  obtain ⟨action, hget, hrest⟩ := bind_eq_ok.1 h
  obtain ⟨hmem, rfl, -⟩ := get_ok hget
  split at hrest
  case h_1 e hfound =>
    obtain rfl := congrArg fst (pure_eq_ok.1 hrest)
    exact .inl ⟨stored_of_get hget, e, hfound, rfl⟩
  case h_2 =>
    obtain ⟨_, hallowed, hrest⟩ := bind_eq_ok.1 hrest
    obtain ⟨_, hcheck, hrest⟩ := bind_eq_ok.1 hrest
    obtain ⟨db₁, hevent, hrest⟩ := bind_eq_ok.1 hrest
    obtain ⟨hkey, rfl⟩ := recordEvent_ok hevent
    obtain rfl := congrArg fst (pure_eq_ok.1 hrest)
    exact .inr ⟨action, hmem, rfl, ensure_eq_ok.1 hallowed, hcheck, hkey, rfl⟩

theorem transition_step {payload : ActionTransitionCreate}
    (h : transition db org actionId payload actor actorRole now = .ok (db', a)) :
    ServiceStep db (.transition actionId payload) db' := by
  rcases transition_ok h with ⟨-, e, -, rfl⟩ | ⟨action, hmem, rfl, hallowed, hcheck, hkey, rfl⟩
  · exact .same _
  · exact .transition action payload actor actorRole now hmem hallowed hcheck hkey

theorem assign_step {context : Context} {payload : ActionAssignmentCreate}
    (h : assign context db org actionId payload actor actorRole = .ok (db', a)) :
    ServiceStep db (.assign actionId payload) db' := by
  obtain ⟨action, hget, h⟩ := bind_eq_ok.1 h
  obtain ⟨_, -, h⟩ := bind_eq_ok.1 h
  obtain ⟨db₁, hevent, h⟩ := bind_eq_ok.1 h
  obtain ⟨hkey, rfl⟩ := recordEvent_ok hevent
  obtain rfl := congrArg fst (pure_eq_ok.1 h)
  obtain ⟨-, rfl, -⟩ := get_ok hget
  exact .assign action payload _ hkey rfl

theorem addPlanStep_step {payload : ActionPlanStepCreate} {row : ActionPlanStep}
    (h : addPlanStep db org actionId payload = .ok (db', row)) :
    ServiceStep db (.addPlanStep actionId payload) db' := by
  obtain ⟨_, -, h⟩ := bind_eq_ok.1 h
  obtain ⟨planSteps, -, h⟩ := bind_eq_ok.1 h
  obtain rfl := congrArg fst (pure_eq_ok.1 h)
  exact .planSteps actionId payload planSteps

theorem addDependency_ok {payload : ActionDependencyCreate} {row : ActionDependency}
    (h : addDependency db org actionId payload = .ok (db', row)) :
    Joinable db org actionId payload.prerequisiteActionId ∧
      row = newDependency org actionId payload ∧
      db' = { db with dependencies := db.dependencies ++ [row] } := by
  obtain ⟨_, haction, h⟩ := bind_eq_ok.1 h
  obtain ⟨_, hprerequisite, h⟩ := bind_eq_ok.1 h
  obtain ⟨_, hself, h⟩ := bind_eq_ok.1 h
  obtain ⟨_, hreverse, h⟩ := bind_eq_ok.1 h
  obtain ⟨dependencies, hinsert, h⟩ := bind_eq_ok.1 h
  rw [orFail_eq_ok, insert_eq_some] at hinsert
  obtain ⟨hfresh, rfl⟩ := hinsert
  obtain ⟨rfl, rfl⟩ := mk.inj (pure_eq_ok.1 h)
  exact ⟨⟨stored_of_get haction, stored_of_get hprerequisite, ensure_eq_ok.1 hself,
    ensure_eq_ok.1 hreverse, hfresh⟩, rfl, rfl⟩

theorem addDependency_of {payload : ActionDependencyCreate}
    (hids : Unique (·.id) db.actions)
    (h : Joinable db org actionId payload.prerequisiteActionId) :
    addDependency db org actionId payload =
      .ok ({ db with dependencies := db.dependencies ++ [newDependency org actionId payload] },
        newDependency org actionId payload) := by
  obtain ⟨⟨a, ha, rfl, rfl⟩, ⟨b, hb, hbid, hborg⟩, hself, hreverse, hfresh⟩ := h
  have hprerequisite : get db a.organizationId payload.prerequisiteActionId = .ok b := by
    rw [← hbid, ← hborg]
    exact get_of_mem hids hb
  have hinsert : insert (fun d d' : ActionDependency => d.actionId = d'.actionId ∧
      d.prerequisiteActionId = d'.prerequisiteActionId) (newDependency a.organizationId a.id payload)
      db.dependencies =
        some (db.dependencies ++ [newDependency a.organizationId a.id payload]) :=
    insert_eq_some.2 ⟨hfresh, rfl⟩
  rw [addDependency, get_of_mem hids ha, ok_bind, hprerequisite, ok_bind, ensure_of hself, ok_bind,
    ensure_of hreverse, ok_bind]
  dsimp only
  rw [hinsert]
  rfl

theorem addDependency_step {payload : ActionDependencyCreate} {row : ActionDependency}
    (h : addDependency db org actionId payload = .ok (db', row)) :
    ServiceStep db (.addDependency actionId payload) db' := by
  obtain ⟨hjoinable, rfl, rfl⟩ := addDependency_ok h
  exact .dependency org actionId payload hjoinable

theorem numericColumn_isSome {column : String} {digits scale : ℕ} {x y : ℚ}
    (h : numericColumn column digits scale x = .ok y) :
    (Decimal.numeric digits scale x).isSome := by
  rw [numericColumn, orFail_eq_ok] at h
  rw [h, Option.isSome_some]

theorem nullableColumn_isSome {column : String} {digits scale : ℕ} {x y : Option ℚ}
    (h : nullableColumn column digits scale x = .ok y) :
    ∀ q ∈ x, (Decimal.numeric digits scale q).isSome := by
  rintro q rfl
  obtain ⟨z, hz, -⟩ := map_eq_ok.1 h
  exact numericColumn_isSome hz

/-- The quantities of a resource fit their columns. -/
def ActionResourceCreate.Fits (payload : ActionResourceCreate) : Prop :=
  (Decimal.numeric 18 6 payload.requiredQuantity).isSome ∧
    ∀ q ∈ payload.availableQuantity, (Decimal.numeric 18 6 q).isSome

theorem addResource_ok {payload : ActionResourceCreate} {row : ActionResourceRequirement}
    (h : addResource db org actionId payload = .ok (db', row)) :
    Stored db org actionId ∧ payload.Fits ∧ row.actionId = actionId ∧ row.Records payload ∧
      db' = { db with resources := db.resources ++ [row] } := by
  obtain ⟨_, haction, h⟩ := bind_eq_ok.1 h
  obtain ⟨_, hrequired, h⟩ := bind_eq_ok.1 h
  obtain ⟨_, havailable, h⟩ := bind_eq_ok.1 h
  obtain ⟨rfl, rfl⟩ := mk.inj (pure_eq_ok.1 h)
  exact ⟨stored_of_get haction, ⟨numericColumn_isSome hrequired, nullableColumn_isSome havailable⟩,
    rfl, ⟨rfl, rfl, rfl⟩, rfl⟩

theorem addResource_of {payload : ActionResourceCreate} (hids : Unique (·.id) db.actions)
    (haction : Stored db org actionId) (hfits : payload.Fits) :
    ∃ row, addResource db org actionId payload =
      .ok ({ db with resources := db.resources ++ [row] }, row) := by
  obtain ⟨a, ha, rfl, rfl⟩ := haction
  obtain ⟨required, hrequired⟩ := Option.isSome_iff_exists.1 hfits.1
  have hcolumn : ∃ available,
      nullableColumn "available_quantity" 18 6 payload.availableQuantity = .ok available := by
    cases havailable : payload.availableQuantity with
    | none => exact ⟨none, rfl⟩
    | some q =>
      obtain ⟨available, hq⟩ := Option.isSome_iff_exists.1 (hfits.2 q havailable)
      exact ⟨some available, by rw [nullableColumn, numericColumn, hq]; rfl⟩
  obtain ⟨available, havailable⟩ := hcolumn
  rw [addResource, get_of_mem hids ha, ok_bind, numericColumn, hrequired, orFail_some, ok_bind,
    havailable]
  exact ⟨_, rfl⟩

theorem addResource_step {payload : ActionResourceCreate} {row : ActionResourceRequirement}
    (h : addResource db org actionId payload = .ok (db', row)) :
    ServiceStep db (.addResource actionId payload) db' := by
  obtain ⟨-, -, rfl, hrow, rfl⟩ := addResource_ok h
  exact .resource payload row hrow

theorem addEvidence_step {payload : ActionEvidenceCreate} {row : ActionEvidence}
    (h : addEvidence db org actionId payload actor = .ok (db', row)) :
    ServiceStep db (.addEvidence actionId payload) db' := by
  obtain ⟨_, -, h⟩ := bind_eq_ok.1 h
  obtain ⟨_, -, h⟩ := bind_eq_ok.1 h
  obtain rfl := congrArg fst (pure_eq_ok.1 h)
  exact .evidence actionId payload _

theorem newOutcome_ok {payload : ActionOutcomeCreate} {row : ActionOutcome}
    (h : newOutcome org actionId payload actor now = .ok row) :
    row.actionId = actionId ∧ row.outcomeType = payload.outcomeType := by
  iterate 6 obtain ⟨_, -, h⟩ := bind_eq_ok.1 h
  obtain rfl := pure_eq_ok.1 h
  exact ⟨rfl, rfl⟩

theorem recordOutcome_step {payload : ActionOutcomeCreate} {row : ActionOutcome}
    (h : recordOutcome db org actionId payload actor now = .ok (db', row)) :
    ServiceStep db (.recordOutcome actionId payload) db' := by
  obtain ⟨action, hget, h⟩ := bind_eq_ok.1 h
  obtain ⟨hmem, rfl, -⟩ := get_ok hget
  obtain ⟨_, heligible, h⟩ := bind_eq_ok.1 h
  obtain ⟨row', hrow, h⟩ := bind_eq_ok.1 h
  obtain ⟨hid, htype⟩ := newOutcome_ok hrow
  obtain ⟨outcomes, hinsert, h⟩ := bind_eq_ok.1 h
  rw [orFail_eq_ok, insert_eq_some] at hinsert
  obtain ⟨-, rfl⟩ := hinsert
  obtain rfl := congrArg fst (pure_eq_ok.1 h)
  refine .outcome action payload row' hmem hid fun hrealized => ?_
  exact ensure_eq_ok.1 heligible (htype ▸ hrealized)

theorem feedback_step {payload : ActionFeedbackCreate} {row : ActionModelFeedback}
    (h : feedback db org actionId payload = .ok (db', row)) :
    ServiceStep db (.feedback actionId payload) db' := by
  iterate 5 obtain ⟨_, -, h⟩ := bind_eq_ok.1 h
  obtain ⟨rows, -, h⟩ := bind_eq_ok.1 h
  obtain rfl := congrArg fst (pure_eq_ok.1 h)
  exact .feedback actionId payload rows

theorem serve_step {call : Call} {reply : Reply} (h : serve fingerprint db call = .ok (db', reply)) :
    ServiceStep db call.request db' := by
  unfold serve at h
  dsimp only at h
  cases hrequest : call.request
  all_goals
    rw [hrequest] at h
    obtain ⟨_, h, -⟩ := Service.reply_ok h
  case create => exact create_step h
  case transition => exact transition_step h
  case assign => exact assign_step h
  case addPlanStep => exact addPlanStep_step h
  case addDependency => exact addDependency_step h
  case addResource => exact addResource_step h
  case addEvidence => exact addEvidence_step h
  case recordOutcome => exact recordOutcome_step h
  case feedback => exact feedback_step h

/-! ## Plan steps -/

/-- Every plan step belongs to a stored action. -/
def PlanOwned (db : Db) : Prop := ∀ step ∈ db.planSteps, ∃ a ∈ db.actions, a.id = step.actionId

theorem addPlanStep_ok {payload : ActionPlanStepCreate} {row : ActionPlanStep}
    (h : addPlanStep db org actionId payload = .ok (db', row)) :
    Stored db org actionId ∧ row.actionId = actionId ∧
      db' = { db with planSteps := db.planSteps ++ [row] } := by
  obtain ⟨a, hget, h⟩ := bind_eq_ok.1 h
  obtain ⟨planSteps, hinsert, h⟩ := bind_eq_ok.1 h
  rw [orFail_eq_ok, insert_eq_some] at hinsert
  obtain ⟨-, rfl⟩ := hinsert
  obtain ⟨rfl, rfl⟩ := mk.inj (pure_eq_ok.1 h)
  exact ⟨stored_of_get hget, rfl, rfl⟩

theorem PlanOwned.update {p : OperationalAction → Bool} {f : OperationalAction → OperationalAction}
    (h : PlanOwned db) (hf : ∀ a, (f a).id = a.id) {events : List ActionEvent} :
    PlanOwned { db with actions := update p f db.actions, events } := by
  intro step hstep
  obtain ⟨a, ha, hid⟩ := h step hstep
  refine ⟨if p a then f a else a, mem_update.2 ⟨a, ha, rfl⟩, ?_⟩
  rw [apply_ite OperationalAction.id, hf, ite_self]
  exact hid

/-- No request leaves a plan step without its action. -/
theorem PlanOwned.serve {call : Call} {reply : Reply} (howned : PlanOwned db)
    (h : serve fingerprint db call = .ok (db', reply)) : PlanOwned db' := by
  have hstep := serve_step h
  obtain ⟨org, actor, actorRole, now, drawn, context, request⟩ := call
  -- The list of steps leaves the owner of a new plan step open.
  cases hstep with
  | planSteps actionId payload planSteps =>
    obtain ⟨row, h, -⟩ := Service.reply_ok h
    obtain ⟨⟨a, ha, hid, -⟩, hrow, hdb⟩ := addPlanStep_ok h
    rw [hdb]
    intro step hstep
    rcases List.mem_append.1 hstep with hstep | hstep
    · exact howned step hstep
    · obtain rfl := List.mem_singleton.1 hstep
      exact ⟨a, ha, hid.trans hrow.symm⟩
  | create payload action event =>
    intro step hstep
    obtain ⟨a, ha, hid⟩ := howned step hstep
    exact ⟨a, List.mem_append_left _ ha, hid⟩
  | transition => exact howned.update fun a => moveTo_id _ _ a
  | assign action payload =>
    have hid : ∀ a : OperationalAction, (a.assignTo payload).id = a.id := fun _ => rfl
    exact howned.update hid
  | same | dependency | resource | evidence | outcome | feedback => exact howned

end Intel4Ops.ActionService
