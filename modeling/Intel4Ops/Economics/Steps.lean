import Intel4Ops.Economics.Model

/-!
# Recovery economics: what a committed request writes

`EconomicsStep` lists the ways in which a committed request changes the tables, each with the guards
that held. The tables that a constructor does not name stay as they are.
-/

namespace Intel4Ops.Economics

open Lib Lib.Decimal Table Service Prod

variable {db db' : Db}

/-! ## The shapes of a step -/

/-- The request is a calculation under a fresh key of a scenario of the opportunity `o`. -/
structure Calculates (db : Db) (call : Call) (o : RecoveryOpportunity) (payload : CalculateCreate)
    (row : EconomicCalculation) : Prop where
  request : call.request = .calculate o.id payload
  found : get db call.organizationId o.id = .ok o
  fresh : ∀ c ∈ db.calculations, c.opportunityId = o.id → c.idempotencyKey ≠ payload.idempotencyKey
  opportunity : row.opportunityId = o.id
  scenario : row.scenarioId = payload.scenarioId
  economics : ∃ scenario ∈ db.scenarios, scenarioEconomics scenario = .ok row.result

/-- The request is a prioritization under a fresh key of a calculation of the opportunity `o`. -/
structure Prioritizes (db : Db) (call : Call) (o : RecoveryOpportunity)
    (payload : PrioritizeCreate) (row : PrioritizationAssessment) : Prop where
  request : call.request = .prioritize o.id payload
  found : get db call.organizationId o.id = .ok o
  fresh : ∀ p ∈ db.prioritizations, p.opportunityId = o.id →
    p.idempotencyKey ≠ payload.idempotencyKey
  priority : ∃ c, getCalculation db call.organizationId o.id payload.calculationId = .ok c ∧
    requestedPriority c payload = .ok row.result

/-- The request is a decision under a fresh key on the opportunity `o`. -/
structure Decides (db : Db) (call : Call) (o : RecoveryOpportunity) (payload : DecisionCreate) :
    Prop where
  request : call.request = .decide o.id payload
  found : get db call.organizationId o.id = .ok o
  fresh : ∀ d ∈ db.decisions, d.opportunityId = o.id → d.idempotencyKey ≠ payload.idempotencyKey
  allowed : payload.decision ∈ allowedStatusTransitions o.status

/-- The baseline that an approval freezes. -/
structure Freezes (db : Db) (call : Call) (o : RecoveryOpportunity) (payload : DecisionCreate)
    (b : EconomicBaselineVersion) : Prop where
  opportunity : b.opportunityId = o.id
  version : b.version = o.currentBaselineVersion.getD 0 + 1
  scenario : payload.scenarioId = some b.scenarioId
  prioritization : ∃ id ∈ payload.prioritizationId, ∃ p,
    getPrioritization db call.organizationId o.id id = .ok p ∧
      b.economicSnapshot.priorityCategory = p.result.category
  assumptions : b.assumptionVersions = (activeAssumptions db o.id).map (·.frozen)

/-- What one committed request does to the tables. -/
inductive EconomicsStep (db : Db) (call : Call) : Db → Prop
  | same : EconomicsStep db call db
  | aside (scenarios : List EconomicScenario) (overlapGroups : List OpportunityOverlapGroup)
      (auditEvents : List EconomicAuditEvent) :
      EconomicsStep db call { db with scenarios, overlapGroups, auditEvents }
  | create (o : RecoveryOpportunity) (decisions : List OpportunityDecision)
      (auditEvents : List EconomicAuditEvent) (hfresh : ∀ r ∈ db.opportunities, r.id ≠ o.id)
      (hstatus : o.status = .draft) (hversion : o.currentBaselineVersion = none) :
      EconomicsStep db call
        { db with opportunities := db.opportunities ++ [o], decisions, auditEvents }
  | assume (o : RecoveryOpportunity) (row : EconomicAssumption)
      (auditEvents : List EconomicAuditEvent) (hmem : o ∈ db.opportunities)
      (hmutable : o.status ≠ .approvedForAction) (hrow : row.opportunityId = o.id)
      (hactive : row.superseded = false)
      (hversion : row.version =
        ((previousAssumption db o.id row.assumptionCode).map (·.version)).getD 0 + 1)
      (hfresh : ∀ a ∈ db.assumptions, a.id ≠ row.id) :
      EconomicsStep db call { db with
        assumptions := supersede db (previousAssumption db o.id row.assumptionCode) ++ [row]
        auditEvents }
  | calculate (o : RecoveryOpportunity) (payload : CalculateCreate) (row : EconomicCalculation)
      (auditEvents : List EconomicAuditEvent) (h : Calculates db call o payload row) :
      EconomicsStep db call { writeOpportunity db o.id fun o =>
          { o with selectedScenarioId := some row.scenarioId } with
        calculations := db.calculations ++ [row], auditEvents }
  | prioritize (o : RecoveryOpportunity) (payload : PrioritizeCreate)
      (row : PrioritizationAssessment) (auditEvents : List EconomicAuditEvent)
      (h : Prioritizes db call o payload row) :
      EconomicsStep db call { writeOpportunity db o.id fun o =>
          { o with priorityCategory := some row.result.category } with
        prioritizations := db.prioritizations ++ [row], auditEvents }
  | addMember (row : OpportunityOverlapMember) (auditEvents : List EconomicAuditEvent)
      (hallocation : 0 ≤ row.allocationPercentage ∧ row.allocationPercentage ≤ 1)
      (hfresh : ∀ m ∈ db.overlapMembers,
        ¬ (m.overlapGroupId = row.overlapGroupId ∧ m.opportunityId = row.opportunityId)) :
      EconomicsStep db call { db with overlapMembers := db.overlapMembers ++ [row], auditEvents }
  | decide (o : RecoveryOpportunity) (payload : DecisionCreate)
      (decisions : List OpportunityDecision) (auditEvents : List EconomicAuditEvent)
      (h : Decides db call o payload) (hne : payload.decision ≠ .approvedForAction) :
      EconomicsStep db call { writeOpportunity db o.id fun o =>
          { o with status := payload.decision } with
        decisions, auditEvents }
  | approve (o : RecoveryOpportunity) (payload : DecisionCreate) (b : EconomicBaselineVersion)
      (decisions : List OpportunityDecision) (auditEvents : List EconomicAuditEvent)
      (h : Decides db call o payload) (hdecision : payload.decision = .approvedForAction)
      (hb : Freezes db call o payload b) :
      EconomicsStep db call { writeOpportunity db o.id fun o =>
          { o with
            status := .approvedForAction, currentBaselineVersion := some b.version
            selectedScenarioId := some b.scenarioId } with
        baselines := db.baselines ++ [b], decisions, auditEvents }

/-! ## Common steps -/

variable {opportunityId org id : UUID} {o : RecoveryOpportunity}

theorem audit_ok {eventType key : String} (h : audit db opportunityId eventType key = .ok db') :
    ∃ auditEvents, db' = { db with auditEvents } := by
  simp only [audit, bind_eq_ok, orFail_eq_ok, pure_eq_ok] at h
  obtain ⟨_, -, auditEvents, -, rfl⟩ := h
  exact ⟨auditEvents, rfl⟩

theorem event_ok {decision : OpportunityDecision} (h : event db decision = .ok db') :
    ∃ decisions, db' = { db with decisions } := by
  simp only [event, bind_eq_ok, orFail_eq_ok, pure_eq_ok] at h
  obtain ⟨_, -, _, -, _, -, decisions, -, rfl⟩ := h
  exact ⟨decisions, rfl⟩

theorem get_ok (h : get db org opportunityId = .ok o) :
    o ∈ db.opportunities ∧ o.id = opportunityId ∧ o.organizationId = org := by
  rw [get, orFail_eq_ok] at h
  exact find?_spec h

variable {s : EconomicScenario} {ids : Nat → UUID} {a : EconomicAssumption} {now : Instant}
  {actorRole : String}

theorem getScenario_ok {scenarioId : UUID}
    (h : getScenario db org opportunityId scenarioId = .ok s) :
    s ∈ db.scenarios ∧ s.id = scenarioId ∧ s.opportunityId = opportunityId ∧
      s.organizationId = org := by
  simp only [getScenario, bind_eq_ok, orFail_eq_ok] at h
  obtain ⟨_, -, hfind⟩ := h
  exact find?_spec hfind

/-! ## The step of a request -/

variable {call : Call}

theorem create_step {payload : OpportunityCreate} (h : create db org payload ids = .ok (db', o)) :
    EconomicsStep db call db' := by
  unfold create at h
  split at h
  case h_1 existing hprior =>
    obtain rfl := congrArg fst (Except.ok.inj h)
    exact .same
  case h_2 hprior =>
    simp only [bind_eq_ok, orFail_eq_ok, pure_eq_ok, insert_eq_some, mk.injEq] at h
    obtain ⟨_, ⟨hfree, rfl⟩, db1, hevent, db2, haudit, rfl, -⟩ := h
    obtain ⟨decisions, rfl⟩ := event_ok hevent
    obtain ⟨auditEvents, rfl⟩ := audit_ok haudit
    exact .create _ decisions auditEvents (fun r hr hid => hfree r hr (.inl hid)) rfl rfl

theorem createScenario_step {payload : ScenarioCreate}
    (h : createScenario db org opportunityId payload id = .ok (db', s)) :
    EconomicsStep db call db' := by
  simp only [createScenario, bind_eq_ok, orFail_eq_ok, pure_eq_ok, mk.injEq] at h
  obtain ⟨_, -, _, -, _, -, _, -, scenarios, -, _, haudit, rfl, -⟩ := h
  obtain ⟨auditEvents, rfl⟩ := audit_ok haudit
  exact .aside scenarios db.overlapGroups auditEvents

theorem createOverlapGroup_step {overlapKey : String} {g : OpportunityOverlapGroup}
    (h : createOverlapGroup db org overlapKey id = .ok (db', g)) : EconomicsStep db call db' := by
  unfold createOverlapGroup at h
  split at h
  case h_1 existing hprior =>
    obtain rfl := congrArg fst (Except.ok.inj h)
    exact .same
  case h_2 hprior =>
    simp only [bind_eq_ok, orFail_eq_ok, pure_eq_ok, mk.injEq] at h
    obtain ⟨overlapGroups, -, rfl, -⟩ := h
    exact .aside db.scenarios overlapGroups db.auditEvents

theorem addAssumption_step {payload : AssumptionCreate}
    (h : addAssumption db org opportunityId payload id = .ok (db', a)) :
    EconomicsStep db call db' := by
  simp only [addAssumption, requireMutable, bind_eq_ok, ensure_eq_ok, orFail_eq_ok, pure_eq_ok,
    insert_eq_some, mk.injEq] at h
  obtain ⟨o, hget, _, hmutable, _, -, _, -, value, -, _, ⟨hfree, rfl⟩, _, haudit, rfl, -⟩ := h
  obtain ⟨auditEvents, rfl⟩ := audit_ok haudit
  obtain ⟨hmem, rfl, -⟩ := get_ok hget
  refine .assume o
    { id, organizationId := org, opportunityId := o.id, scenarioId := payload.scenarioId
      assumptionCode := payload.assumptionCode
      version := ((previousAssumption db o.id payload.assumptionCode).map (·.version)).getD 0 + 1
      value, unit := payload.unit, superseded := false }
    auditEvents hmem hmutable rfl rfl rfl fun a ha hid => ?_
  -- A superseded row keeps its identifier.
  obtain ⟨a', ha', haid⟩ : ∃ a' ∈ supersede db (previousAssumption db o.id payload.assumptionCode),
      a'.id = a.id := by
    cases hprevious : previousAssumption db o.id payload.assumptionCode with
    | none => exact ⟨a, ha, rfl⟩
    | some previous =>
      by_cases hsame : a.id = previous.id
      · exact ⟨_, mem_update_of_selected ha (decide_eq_true hsame), rfl⟩
      · exact ⟨a, mem_update_of_mem ha (decide_eq_false hsame), rfl⟩
  exact hfree a' ha' (.inl (haid.trans hid))

theorem reviseAssumption_step {assumptionId : UUID} {payload : AssumptionCreate}
    (h : reviseAssumption db org opportunityId assumptionId payload id = .ok (db', a)) :
    EconomicsStep db call db' := by
  simp only [reviseAssumption, bind_eq_ok] at h
  obtain ⟨_, -, _, -, h⟩ := h
  exact addAssumption_step h

theorem calculate_ok {payload : CalculateCreate} {c : EconomicCalculation}
    (hrequest : call.request = .calculate opportunityId payload)
    (h : calculate db call.organizationId opportunityId payload id now = .ok (db', c)) :
    (db' = db ∧ ∃ c ∈ db.calculations, c.opportunityId = opportunityId ∧
      c.idempotencyKey = payload.idempotencyKey) ∨
    ∃ o row auditEvents, o.id = opportunityId ∧ Calculates db call o payload row ∧
      db' = { writeOpportunity db o.id fun o =>
          { o with selectedScenarioId := some row.scenarioId } with
        calculations := db.calculations ++ [row], auditEvents } := by
  unfold calculate at h
  obtain ⟨o, hget, h⟩ := bind_eq_ok.1 h
  obtain ⟨scenario, hscenario, h⟩ := bind_eq_ok.1 h
  split at h
  case h_1 existing hprior =>
    simp only [pure_eq_ok, mk.injEq] at h
    exact .inl ⟨h.1.symm, existing, find?_spec hprior⟩
  case h_2 hprior =>
    simp only [bind_eq_ok, orFail_eq_ok, pure_eq_ok, insert_eq_some, mk.injEq] at h
    obtain ⟨result, hresult, _, ⟨hfree, rfl⟩, _, haudit, rfl, -⟩ := h
    obtain ⟨auditEvents, rfl⟩ := audit_ok haudit
    obtain ⟨-, rfl, -⟩ := get_ok hget
    obtain ⟨hsmem, hsid, -, -⟩ := getScenario_ok hscenario
    refine .inr ⟨o,
      { id, organizationId := call.organizationId, opportunityId := o.id
        scenarioId := scenario.id, idempotencyKey := payload.idempotencyKey
        currencyCode := scenario.currencyCode, result, calculatedAt := now },
      auditEvents, rfl, ?_, rfl⟩
    exact ⟨hrequest, hget, fun c hc hco hkey => hfree c hc (.inr ⟨hco, hkey⟩), rfl, hsid,
      scenario, hsmem, hresult⟩

theorem prioritize_ok {payload : PrioritizeCreate} {p : PrioritizationAssessment}
    (hrequest : call.request = .prioritize opportunityId payload)
    (h : prioritize db call.organizationId opportunityId payload id now = .ok (db', p)) :
    (db' = db ∧ ∃ p ∈ db.prioritizations, p.opportunityId = opportunityId ∧
      p.idempotencyKey = payload.idempotencyKey) ∨
    ∃ o row auditEvents, o.id = opportunityId ∧ Prioritizes db call o payload row ∧
      db' = { writeOpportunity db o.id fun o =>
          { o with priorityCategory := some row.result.category } with
        prioritizations := db.prioritizations ++ [row], auditEvents } := by
  unfold prioritize at h
  obtain ⟨o, hget, h⟩ := bind_eq_ok.1 h
  obtain ⟨calculation, hcalculation, h⟩ := bind_eq_ok.1 h
  split at h
  case h_1 existing hprior =>
    simp only [pure_eq_ok, mk.injEq] at h
    exact .inl ⟨h.1.symm, existing, find?_spec hprior⟩
  case h_2 hprior =>
    simp only [bind_eq_ok, orFail_eq_ok, pure_eq_ok, insert_eq_some, mk.injEq] at h
    obtain ⟨result, hresult, _, ⟨hfree, rfl⟩, _, haudit, rfl, -⟩ := h
    obtain ⟨auditEvents, rfl⟩ := audit_ok haudit
    obtain ⟨-, rfl, -⟩ := get_ok hget
    refine .inr ⟨o,
      { id, organizationId := call.organizationId, opportunityId := o.id
        calculationId := calculation.id, idempotencyKey := payload.idempotencyKey
        profileCode := payload.profileCode, result, calculatedAt := now },
      auditEvents, rfl, ?_, rfl⟩
    exact ⟨hrequest, hget, fun p hp hpo hkey => hfree p hp (.inr ⟨hpo, hkey⟩),
      calculation, hcalculation, hresult⟩

theorem addOverlapMember_step {groupId : UUID} {payload : OverlapMemberCreate}
    {m : OpportunityOverlapMember} (h : addOverlapMember db org groupId payload id = .ok (db', m)) :
    EconomicsStep db call db' := by
  unfold addOverlapMember at h
  obtain ⟨group, hgroup, h⟩ := bind_eq_ok.1 h
  obtain ⟨_, -, h⟩ := bind_eq_ok.1 h
  obtain ⟨_, -, h⟩ := bind_eq_ok.1 h
  split at h
  case h_1 existing hprior =>
    cases pure_eq_ok.1 h
    exact .same
  case h_2 hprior =>
    simp only [bind_eq_ok, orFail_eq_ok, ensure_eq_ok, pure_eq_ok, insert_eq_some, mk.injEq] at h
    obtain ⟨allocation, -, _, hbounds, _, ⟨hfree, rfl⟩, _, haudit, rfl, -⟩ := h
    obtain ⟨auditEvents, rfl⟩ := audit_ok haudit
    exact .addMember
      { id, organizationId := org, overlapGroupId := group.id
        opportunityId := payload.opportunityId
        parentOpportunityId := payload.parentOpportunityId, allocationPercentage := allocation
        inclusionStatus := payload.inclusionStatus }
      auditEvents hbounds fun m hm hclash => hfree m hm (.inr hclash)

theorem requiredEconomics_ok {payload : DecisionCreate}
    {found : EconomicScenario × EconomicCalculation × PrioritizationAssessment}
    (h : requiredEconomics db org opportunityId payload = .ok found) :
    payload.scenarioId = some found.1.id ∧ ∃ id ∈ payload.prioritizationId,
      getPrioritization db org opportunityId id = .ok found.2.2 := by
  simp only [requiredEconomics, bind_eq_ok, pure_eq_ok] at h
  obtain ⟨inputs, hinputs, scenario, hscenario, p, hp, calculation, -, rfl⟩ := h
  obtain ⟨-, hsid, -, -⟩ := getScenario_ok hscenario
  unfold requiredInputs at hinputs
  split at hinputs
  case h_1 scenarioId prioritizationId hs hprio =>
    obtain rfl := Except.ok.inj hinputs
    exact ⟨by rw [hs, hsid], prioritizationId, hprio, hp⟩
  case h_2 => cases hinputs

theorem requireDecision_ok {current requested : OpportunityStatus} {u : Unit}
    (h : requireDecision current requested = .ok u) :
    requested ∈ allowedStatusTransitions current := by
  unfold requireDecision at h
  split at h
  case h_1 hallowed =>
    rw [requireTransition, ensure_eq_ok] at hallowed
    exact hallowed
  case h_2 | h_3 => cases h

theorem recordDecision_ok {payload : DecisionCreate} {baseline : Option EconomicBaselineVersion}
    {reply : OpportunityDecision × Option EconomicBaselineVersion}
    (h : recordDecision db o payload actorRole baseline id = .ok (db', reply)) :
    ∃ decisions auditEvents, db' = { writeOpportunity db o.id fun o =>
      { o with status := payload.decision } with decisions, auditEvents } := by
  simp only [recordDecision, bind_eq_ok, pure_eq_ok, mk.injEq] at h
  obtain ⟨db1, hevent, db2, haudit, rfl, -⟩ := h
  obtain ⟨decisions, rfl⟩ := event_ok hevent
  obtain ⟨auditEvents, rfl⟩ := audit_ok haudit
  exact ⟨decisions, auditEvents, rfl⟩

theorem decide_ok {payload : DecisionCreate} {actor : UUID}
    {reply : OpportunityDecision × Option EconomicBaselineVersion}
    (hrequest : call.request = .decide opportunityId payload)
    (h : decide db call.organizationId opportunityId payload actor actorRole ids = .ok (db', reply))
    :
    (db' = db ∧ ∃ d ∈ db.decisions, d.opportunityId = opportunityId ∧
      d.idempotencyKey = payload.idempotencyKey) ∨
    ∃ o decisions auditEvents, o.id = opportunityId ∧ Decides db call o payload ∧
      ((payload.decision ≠ .approvedForAction ∧
        db' = { writeOpportunity db o.id fun o => { o with status := payload.decision } with
          decisions, auditEvents }) ∨
      (payload.decision = .approvedForAction ∧ ∃ b, Freezes db call o payload b ∧
        db' = { writeOpportunity db o.id fun o =>
            { o with
              status := .approvedForAction, currentBaselineVersion := some b.version
              selectedScenarioId := some b.scenarioId } with
          baselines := db.baselines ++ [b], decisions, auditEvents })) := by
  unfold decide at h
  obtain ⟨o, hget, h⟩ := bind_eq_ok.1 h
  obtain ⟨-, rfl, -⟩ := get_ok hget
  split at h
  case h_1 existing hprior =>
    simp only [pure_eq_ok, mk.injEq] at h
    exact .inl ⟨h.1.symm, existing, find?_spec hprior⟩
  case h_2 hprior =>
    unfold decideNew at h
    obtain ⟨_, hallowed, h⟩ := bind_eq_ok.1 h
    have hfresh : ∀ d ∈ db.decisions, d.opportunityId = o.id →
        d.idempotencyKey ≠ payload.idempotencyKey := by
      intro d hd hdo hkey
      simpa [hdo, hkey] using List.find?_eq_none.1 hprior d hd
    have hdecides : Decides db call o payload :=
      ⟨hrequest, hget, hfresh, requireDecision_ok hallowed⟩
    split at h
    case h_1 hqualified =>
      obtain ⟨_, -, h⟩ := bind_eq_ok.1 h
      obtain ⟨decisions, auditEvents, rfl⟩ := recordDecision_ok h
      exact .inr ⟨o, decisions, auditEvents, rfl, hdecides, .inl ⟨by simp [hqualified], rfl⟩⟩
    case h_2 happroved =>
      simp only [bind_eq_ok, ensure_eq_ok] at h
      obtain ⟨⟨scenario, calculation, p⟩, hfound, _, -, ⟨db1, b⟩, hfreeze, h⟩ := h
      obtain ⟨hscenario, id, hid, hp⟩ := requiredEconomics_ok hfound
      simp only [freezeBaseline, bind_eq_ok, orFail_eq_ok, pure_eq_ok, insert_eq_some,
        mk.injEq] at hfreeze
      obtain ⟨_, ⟨-, rfl⟩, rfl, rfl⟩ := hfreeze
      obtain ⟨decisions, auditEvents, rfl⟩ := recordDecision_ok h
      refine .inr ⟨o, decisions, auditEvents, rfl, hdecides, .inr ⟨happroved,
        { id := ids 1, organizationId := o.organizationId, opportunityId := o.id
          scenarioId := scenario.id, calculationId := calculation.id, prioritizationId := p.id
          version := o.currentBaselineVersion.getD 0 + 1
          idempotencyKey := payload.idempotencyKey, currencyCode := calculation.currencyCode
          economicSnapshot := economicSnapshot calculation.result p.result
          assumptionVersions := (activeAssumptions db o.id).map (·.frozen)
          approvedByUserId := actor }, ⟨rfl, rfl, hscenario, ⟨id, hid, p, hp, rfl⟩, rfl⟩, ?_⟩⟩
      simp only [writeOpportunity]
      rw [update_update, happroved]
      exact fun _ => rfl
    case h_3 hqualified happroved =>
      obtain ⟨decisions, auditEvents, rfl⟩ := recordDecision_ok h
      exact .inr ⟨o, decisions, auditEvents, rfl, hdecides, .inl ⟨happroved, rfl⟩⟩

theorem serve_economicsStep {r : Reply} (h : serve db call = .ok (db', r)) :
    EconomicsStep db call db' := by
  unfold serve at h
  dsimp only at h
  split at h
  case h_1 payload hrequest =>
    obtain ⟨row, h, -⟩ := reply_ok h
    exact create_step h
  case h_2 opportunityId payload hrequest =>
    obtain ⟨row, h, -⟩ := reply_ok h
    exact createScenario_step h
  case h_3 opportunityId payload hrequest =>
    obtain ⟨row, h, -⟩ := reply_ok h
    exact addAssumption_step h
  case h_4 opportunityId assumptionId payload hrequest =>
    obtain ⟨row, h, -⟩ := reply_ok h
    exact reviseAssumption_step h
  case h_5 opportunityId payload hrequest =>
    obtain ⟨row, h, -⟩ := reply_ok h
    rcases calculate_ok hrequest h with ⟨rfl, -⟩ | ⟨o, row, auditEvents, -, hnew, rfl⟩
    · exact .same
    · exact .calculate o payload row auditEvents hnew
  case h_6 opportunityId payload hrequest =>
    obtain ⟨row, h, -⟩ := reply_ok h
    rcases prioritize_ok hrequest h with ⟨rfl, -⟩ | ⟨o, row, auditEvents, -, hnew, rfl⟩
    · exact .same
    · exact .prioritize o payload row auditEvents hnew
  case h_7 overlapKey hrequest =>
    obtain ⟨row, h, -⟩ := reply_ok h
    exact createOverlapGroup_step h
  case h_8 groupId payload hrequest =>
    obtain ⟨row, h, -⟩ := reply_ok h
    exact addOverlapMember_step h
  case h_9 opportunityId payload hrequest =>
    obtain ⟨row, h, -⟩ := reply_ok h
    rcases decide_ok hrequest h with ⟨rfl, -⟩ | ⟨o, decisions, auditEvents, -, hnew, hwritten⟩
    · exact .same
    · rcases hwritten with ⟨hne, rfl⟩ | ⟨happroved, b, hb, rfl⟩
      · exact .decide o payload decisions auditEvents hnew hne
      · exact .approve o payload b decisions auditEvents hnew happroved hb

end Intel4Ops.Economics
