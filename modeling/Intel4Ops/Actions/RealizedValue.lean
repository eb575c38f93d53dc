import Intel4Ops.Actions.Steps

/-!
# Operational actions: realized value is earned

What stands behind a status is read off the transitions that lead to it: an approval behind every
action that has left the approval stage, a completion behind every settled action, and verification
evidence behind every verified one. The readiness of a settled action is checked only when it is
completed, and a transition whose key the action has used before returns without a check; the two
conditions under which that is harmless are stated here, and are exact.
-/

namespace Intel4Ops.ActionService

open Lib Intel4Ops.Actions List Table Service

variable {fingerprint : Fingerprint} {db db' : Db}

/-! ## What is promised -/

def Settled (status : ActionStatus) : Prop :=
  status ∈ [ActionStatus.completed, .verificationPending, .verified]

instance (status : ActionStatus) : Decidable (Settled status) := inferInstanceAs (Decidable (_ ∈ _))

/-- Neither proposed nor waiting for approval, and not there by rejection or cancellation. -/
def Approved (status : ActionStatus) : Prop :=
  status ∉ [ActionStatus.proposed, .pendingApproval, .rejected, .cancelled]

instance (status : ActionStatus) : Decidable (Approved status) :=
  inferInstanceAs (Decidable (_ ∉ _))

/-- No mandatory dependency of the action is unresolved, and no mandatory resource of it is in
shortage or unconfirmed. -/
def Ready (db : Db) (actionId : UUID) : Prop :=
  (∀ d ∈ db.dependencies, d.actionId = actionId → d.mandatory = true → d.status = "resolved") ∧
    ∀ r ∈ db.resources, r.actionId = actionId → r.mandatory = true →
      r.shortage = false ∧ r.inventoryCheckStatus = "confirmed"

def ActionEvent.Reaches (actionId : UUID) (status : ActionStatus) (e : ActionEvent) : Prop :=
  e.actionId = actionId ∧ e.eventType = "transition" ∧ e.newStatus = some status

instance (actionId : UUID) (status : ActionStatus) (e : ActionEvent) :
    Decidable (e.Reaches actionId status) := inferInstanceAs (Decidable (_ ∧ _))

/-- The action has an approval event of an administrator. -/
def HasApproval (db : Db) (actionId : UUID) : Prop :=
  ∃ e ∈ db.events, e.Reaches actionId .approved ∧ e.actorRole ∈ adminRoles

def HasVerification (db : Db) (actionId : UUID) : Prop :=
  ∃ e ∈ db.evidence, e.actionId = actionId ∧ e.lifecycleStage = "verification"

def HasCompletion (db : Db) (actionId : UUID) : Prop :=
  ∃ e ∈ db.events, e.Reaches actionId .completed

/-- A transition request that returns has its transition recorded under its key. -/
def TransitionRecorded (fingerprint : Fingerprint) (db : Db) (call : Call) : Prop :=
  ∀ actionId payload db' reply, call.request = .transition actionId payload →
    serve fingerprint db call = .ok (db', reply) →
    ∃ e ∈ db'.events, e.Reaches actionId payload.newStatus ∧
      e.idempotencyKey = payload.idempotencyKey

/-- What is promised of a run from the empty tables. -/
structure ValueEarned (fingerprint : Fingerprint) (calls : List Call) : Prop where
  ready : ∀ bs cs, calls = bs ++ cs →
    ∀ a ∈ ((serve fingerprint).run Db.empty bs).actions, Settled a.status →
      Ready ((serve fingerprint).run Db.empty bs) a.id
  approved : ∀ bs cs ds, calls = bs ++ cs ++ ds →
    ∀ a ∈ ((serve fingerprint).run Db.empty bs).actions, a.approvalRequired = true →
      Approved a.status → HasApproval ((serve fingerprint).run Db.empty (bs ++ cs)) a.id
  realized : ∀ bs cs, calls = bs ++ cs →
    ∀ o ∈ ((serve fingerprint).run Db.empty bs).outcomes, o.outcomeType = "realized" →
      ∃ a ∈ ((serve fingerprint).run Db.empty bs).actions, a.id = o.actionId ∧
        a.status = .verified ∧ HasVerification ((serve fingerprint).run Db.empty bs) a.id ∧
        HasCompletion ((serve fingerprint).run Db.empty bs) a.id
  recorded : (serve fingerprint).AllSteps (TransitionRecorded fingerprint) Db.empty calls

/-! ## Where the promises break -/

/-- The available quantity is known and covers the required one. -/
def ActionResourceCreate.Covered (payload : ActionResourceCreate) : Prop :=
  ∃ q ∈ payload.availableQuantity, payload.requiredQuantity ≤ q

def SettledAction (db : Db) (actionId : UUID) : Prop :=
  ∃ a ∈ db.actions, a.id = actionId ∧ Settled a.status

/-- The request adds a mandatory dependency, which nobody has resolved, to a settled action. -/
def AddsDependencyLate (db : Db) (call : Call) : Prop :=
  ∃ actionId payload, call.request = .addDependency actionId payload ∧ payload.mandatory = true ∧
    SettledAction db actionId ∧
    Joinable db call.organizationId actionId payload.prerequisiteActionId

/-- The request adds a mandatory resource that is not covered to a settled action. -/
def AddsResourceLate (db : Db) (call : Call) : Prop :=
  ∃ actionId payload, call.request = .addResource actionId payload ∧ payload.mandatory = true ∧
    ¬ payload.Covered ∧ SettledAction db actionId ∧ Stored db call.organizationId actionId ∧
    payload.Fits

/-- The request asks for a transition under a key that the action has used for something else. -/
def ReusesKey (db : Db) (call : Call) : Prop :=
  ∃ actionId payload, call.request = .transition actionId payload ∧
    Stored db call.organizationId actionId ∧
    ∃ e ∈ db.events, e.actionId = actionId ∧ e.idempotencyKey = payload.idempotencyKey ∧
      ¬ e.Reaches actionId payload.newStatus

/-- The request neither makes a settled action unready nor reuses a key. -/
def Orderly (db : Db) (call : Call) : Prop :=
  ¬ AddsDependencyLate db call ∧ ¬ AddsResourceLate db call ∧ ¬ ReusesKey db call

/-! ## The invariant -/

/-- What stands behind the status of an action. -/
structure StatusEarned (db : Db) (a : OperationalAction) : Prop where
  approval : a.approvalRequired = true → Approved a.status → HasApproval db a.id
  completion : Settled a.status → HasCompletion db a.id
  verification : a.status = .verified → HasVerification db a.id

/-- The invariant of the service. -/
structure Sound (db : Db) : Prop where
  ids : Unique (·.id) db.actions
  keys : ∀ e ∈ db.events, ∀ e' ∈ db.events, e.actionId = e'.actionId →
    e.idempotencyKey = e'.idempotencyKey → e = e'
  earned : ∀ a ∈ db.actions, StatusEarned db a
  realized : ∀ o ∈ db.outcomes, o.outcomeType = "realized" →
    ∃ a ∈ db.actions, a.id = o.actionId ∧ a.status = .verified

theorem StatusEarned.mono {a : OperationalAction} (h : StatusEarned db a)
    (hevents : db.events ⊆ db'.events) (hevidence : db.evidence ⊆ db'.evidence) :
    StatusEarned db' a := by
  constructor
  · intro hrequired hstatus
    obtain ⟨e, he, happroval⟩ := h.approval hrequired hstatus
    exact ⟨e, hevents he, happroval⟩
  · intro hstatus
    obtain ⟨e, he, hcompletion⟩ := h.completion hstatus
    exact ⟨e, hevents he, hcompletion⟩
  · intro hstatus
    obtain ⟨e, he, hverification⟩ := h.verification hstatus
    exact ⟨e, hevidence he, hverification⟩

variable {s t : ActionStatus} {action : OperationalAction}

theorem approved_of_transition (h : t ∈ allowedTransitions s) (ht : Approved t)
    (hne : t ≠ .approved) : Approved s := by
  revert h ht hne
  cases s <;> cases t <;> decide

theorem settled_of_transition (h : t ∈ allowedTransitions s) (ht : Settled t)
    (hne : t ≠ .completed) : Settled s := by
  revert h ht hne
  cases s <;> cases t <;> decide

theorem not_verified_of_transition (h : t ∈ allowedTransitions s) : s ≠ .verified := by
  rintro rfl
  exact absurd h not_mem_nil

variable {actor actionId : UUID} {actorRole : String} {now : Instant}

/-- The moved action has earned its status: by the event of this move, or by what stood behind the
status before it. -/
theorem StatusEarned.move {payload : ActionTransitionCreate} (h : StatusEarned db action)
    (hallowed : payload.newStatus ∈ allowedTransitions action.status)
    (hcheck : checkStatus db action payload.newStatus actorRole = .ok ())
    (hevents : db'.events = db.events ++ [transitionEvent action payload actor actorRole])
    (hevidence : db'.evidence = db.evidence) :
    StatusEarned db' (action.moveTo payload.newStatus now) := by
  have hnew : transitionEvent action payload actor actorRole ∈ db'.events := by
    rw [hevents]
    exact mem_append_right _ (mem_singleton_self _)
  have hmono : StatusEarned db' action := by
    refine h.mono ?_ ?_
    · rw [hevents]
      exact subset_append_left _ _
    · rw [hevidence]
      exact Subset.refl _
  constructor
  · rw [moveTo_approvalRequired, moveTo_status, moveTo_id]
    intro hrequired hstatus
    by_cases happroved : payload.newStatus = .approved
    · rw [happroved, checkStatus, ensure_eq_ok] at hcheck
      exact ⟨_, hnew, ⟨rfl, rfl, congrArg some happroved⟩, hcheck hrequired⟩
    · exact hmono.approval hrequired (approved_of_transition hallowed hstatus happroved)
  · rw [moveTo_status, moveTo_id]
    intro hstatus
    by_cases hcompleted : payload.newStatus = .completed
    · exact ⟨_, hnew, rfl, rfl, congrArg some hcompleted⟩
    · exact hmono.completion (settled_of_transition hallowed hstatus hcompleted)
  · rw [moveTo_status, moveTo_id]
    intro hverified
    rw [hverified, checkStatus, ensure_eq_ok, verificationCount, ← Nat.pos_iff_ne_zero,
      countP_pos_iff] at hcheck
    obtain ⟨e, he, hstage⟩ := hcheck
    rw [decide_eq_true_eq] at hstage
    exact ⟨e, hevidence ▸ he, hstage⟩

theorem mem_update_action {f : OperationalAction → OperationalAction}
    {actions : List OperationalAction} {a' : OperationalAction}
    (h : a' ∈ update (·.id = actionId) f actions) :
    ∃ a ∈ actions, (a.id = actionId ∧ a' = f a) ∨ (a.id ≠ actionId ∧ a' = a) := by
  obtain ⟨a, ha, rfl⟩ := mem_update.1 h
  refine ⟨a, ha, ?_⟩
  by_cases hid : a.id = actionId
  · exact .inl ⟨hid, by simp [hid]⟩
  · exact .inr ⟨hid, by simp [hid]⟩

/-- A new event with a fresh key keeps the keys of each action distinct. -/
theorem FreshKey.keys {event : ActionEvent} (hfresh : FreshKey db event)
    (h : ∀ e ∈ db.events, ∀ e' ∈ db.events, e.actionId = e'.actionId →
      e.idempotencyKey = e'.idempotencyKey → e = e') :
    ∀ e ∈ db.events ++ [event], ∀ e' ∈ db.events ++ [event], e.actionId = e'.actionId →
      e.idempotencyKey = e'.idempotencyKey → e = e' := by
  intro e he e' he' hid hkey
  rw [mem_append, mem_singleton] at he he'
  rcases he with he | rfl
  · rcases he' with he' | rfl
    · exact h e he e' he' hid hkey
    · exact absurd ⟨hid, hkey⟩ (hfresh e he)
  · rcases he' with he' | rfl
    · exact absurd ⟨hid.symm, hkey.symm⟩ (hfresh e' he')
    · rfl

theorem Sound.transition {payload : ActionTransitionCreate} (h : Sound db)
    (hmem : action ∈ db.actions) (hallowed : payload.newStatus ∈ allowedTransitions action.status)
    (hcheck : checkStatus db action payload.newStatus actorRole = .ok ())
    (hkey : FreshKey db (transitionEvent action payload actor actorRole)) :
    Sound { db with
      actions := update (·.id = action.id) (.moveTo payload.newStatus now) db.actions
      events := db.events ++ [transitionEvent action payload actor actorRole] } := by
  refine ⟨h.ids.update fun a => moveTo_id _ _ a, hkey.keys h.keys, ?_, ?_⟩
  · intro a' ha'
    obtain ⟨a, ha, ⟨hid, rfl⟩ | ⟨-, rfl⟩⟩ := mem_update_action ha'
    · obtain rfl := h.ids.eq_of_key_eq ha hmem hid
      exact (h.earned a ha).move hallowed hcheck rfl rfl
    · exact (h.earned a' ha).mono (subset_append_left _ _) (Subset.refl _)
  · intro o ho hrealized
    obtain ⟨a, ha, hid, hverified⟩ := h.realized o ho hrealized
    have hne : a.id ≠ action.id := by
      intro heq
      obtain rfl := h.ids.eq_of_key_eq ha hmem heq
      exact not_verified_of_transition hallowed hverified
    exact ⟨a, mem_update_of_mem ha (decide_eq_false hne), hid, hverified⟩

theorem Sound.assign {payload : ActionAssignmentCreate} {event : ActionEvent} (h : Sound db)
    (hkey : FreshKey db event) :
    Sound { db with
      actions := update (·.id = action.id) (.assignTo payload) db.actions
      events := db.events ++ [event] } := by
  refine ⟨h.ids.update fun a => rfl, hkey.keys h.keys, ?_, ?_⟩
  · intro a' ha'
    obtain ⟨a, ha, hcase⟩ := mem_update_action ha'
    have hearned : StatusEarned { db with events := db.events ++ [event] } a :=
      (h.earned a ha).mono (subset_append_left _ _) (Subset.refl _)
    rcases hcase with ⟨-, rfl⟩ | ⟨-, rfl⟩
    · exact ⟨hearned.approval, hearned.completion, hearned.verification⟩
    · exact ⟨hearned.approval, hearned.completion, hearned.verification⟩
  · intro o ho hrealized
    obtain ⟨a, ha, hid, hverified⟩ := h.realized o ho hrealized
    by_cases haction : a.id = action.id
    · exact ⟨a.assignTo payload, mem_update_of_selected ha (decide_eq_true haction), hid, hverified⟩
    · exact ⟨a, mem_update_of_mem ha (decide_eq_false haction), hid, hverified⟩

theorem Sound.create {event : ActionEvent} (h : Sound db)
    (hfresh : ∀ a ∈ db.actions, a.id ≠ action.id) (hstatus : action.status = .proposed)
    (hkey : FreshKey db event) :
    Sound { db with actions := db.actions ++ [action], events := db.events ++ [event] } := by
  refine ⟨h.ids.append hfresh, hkey.keys h.keys, ?_, ?_⟩
  · intro a ha
    rcases mem_append.1 ha with ha | ha
    · exact (h.earned a ha).mono (subset_append_left _ _) (Subset.refl _)
    · obtain rfl := mem_singleton.1 ha
      constructor
      · intro _ happroved
        exact absurd (hstatus ▸ happroved) (by decide)
      · intro hsettled
        exact absurd (hstatus ▸ hsettled) (by decide)
      · intro hverified
        exact absurd (hstatus ▸ hverified) (by decide)
  · intro o ho hrealized
    obtain ⟨a, ha, hid, hverified⟩ := h.realized o ho hrealized
    exact ⟨a, mem_append_left _ ha, hid, hverified⟩

theorem Sound.step {request : Request} (h : Sound db) (hstep : ServiceStep db request db') :
    Sound db' := by
  cases hstep with
  | same => exact h
  | create payload action event hfresh hstatus hkey => exact h.create hfresh hstatus hkey
  | transition action payload actor actorRole now hmem hallowed hcheck hkey =>
    exact h.transition hmem hallowed hcheck hkey
  | assign action payload event hkey => exact h.assign hkey
  | evidence actionId payload row =>
    refine ⟨h.ids, h.keys, fun a ha => ?_, h.realized⟩
    exact (h.earned a ha).mono (Subset.refl _) (subset_append_left _ _)
  | outcome action payload row hmem hrow heligible =>
    refine ⟨h.ids, h.keys, fun a ha => ?_, fun o ho hrealized => ?_⟩
    · exact (h.earned a ha).mono (Subset.refl _) (Subset.refl _)
    · rcases mem_append.1 ho with ho | ho
      · exact h.realized o ho hrealized
      · obtain rfl := mem_singleton.1 ho
        have hverified := heligible hrealized
        rw [realizedValueEligible, decide_eq_true_eq] at hverified
        exact ⟨action, hmem, hrow.symm, hverified.1⟩
  | planSteps | dependency | resource | feedback =>
    exact ⟨h.ids, h.keys, fun a ha => (h.earned a ha).mono (Subset.refl _)
      (Subset.refl _), h.realized⟩

theorem sound_run (fingerprint : Fingerprint) (calls : List Call) :
    Sound ((serve fingerprint).run Db.empty calls) := by
  refine run_invariant ?_ (fun h hok => h.step (serve_step hok)) calls
  refine ⟨Unique.nil, ?_, ?_, ?_⟩
  · intro e he
    exact absurd he not_mem_nil
  · intro a ha
    exact absurd ha not_mem_nil
  · intro o ho
    exact absurd ho not_mem_nil

/-! ## Readiness -/

/-- Every settled action is ready. -/
def AllReady (db : Db) : Prop := ∀ a ∈ db.actions, Settled a.status → Ready db a.id

theorem ready_of_checks (hdependencies : dependenciesReady (dependencyPairs db actionId) = true)
    (hresources : resourcesReady (resourcePairs db actionId) = true) : Ready db actionId := by
  constructor
  · intro d hd hid hmandatory
    have hitem := itemsReady_iff.1 hdependencies (d.mandatory, d.status = "resolved")
      (mem_map.2 ⟨d, mem_filter.2 ⟨hd, decide_eq_true hid⟩, rfl⟩) hmandatory
    exact of_decide_eq_true hitem
  · intro r hr hid hmandatory
    have hitem := itemsReady_iff.1 hresources
      (r.mandatory, !r.shortage && r.inventoryCheckStatus = "confirmed")
      (mem_map.2 ⟨r, mem_filter.2 ⟨hr, decide_eq_true hid⟩, rfl⟩) hmandatory
    rw [Bool.and_eq_true, Bool.not_eq_true', decide_eq_true_eq] at hitem
    exact hitem

theorem ActionResourceRequirement.Records.covered_iff {payload : ActionResourceCreate}
    {row : ActionResourceRequirement} (h : row.Records payload) :
    row.shortage = false ∧ row.inventoryCheckStatus = "confirmed" ↔ payload.Covered := by
  obtain ⟨-, hstatus, hshortage⟩ := h
  rw [hstatus, hshortage, ActionResourceCreate.Covered]
  cases payload.availableQuantity with
  | none | some q => simp

theorem AllReady.step {call : Call} {reply : Reply} (h : AllReady db)
    (hids : Unique (·.id) db.actions) (horderly : Orderly db call)
    (hok : serve fingerprint db call = .ok (db', reply)) : AllReady db' := by
  have hstep := serve_step hok
  generalize hrequest : call.request = request at hstep
  cases hstep with
  | same => exact h
  | create payload action event hfresh hstatus =>
    intro a ha hsettled
    rcases mem_append.1 ha with ha | ha
    · exact h a ha hsettled
    · obtain rfl := mem_singleton.1 ha
      exact absurd (hstatus ▸ hsettled) (by decide)
  | transition action payload actor actorRole now hmem hallowed hcheck =>
    intro a' ha' hsettled
    obtain ⟨a, ha, ⟨hid, rfl⟩ | ⟨-, rfl⟩⟩ := mem_update_action ha'
    · obtain rfl := hids.eq_of_key_eq ha hmem hid
      rw [moveTo_status] at hsettled
      rw [moveTo_id]
      by_cases hcompleted : payload.newStatus = .completed
      · rw [hcompleted] at hcheck
        obtain ⟨_, hdependencies, hresources⟩ := bind_eq_ok.1 hcheck
        exact ready_of_checks (ensure_eq_ok.1 hdependencies) (ensure_eq_ok.1 hresources)
      · exact h a ha (settled_of_transition hallowed hsettled hcompleted)
    · exact h a' ha hsettled
  | assign action payload event =>
    intro a' ha' hsettled
    obtain ⟨a, ha, ⟨-, rfl⟩ | ⟨-, rfl⟩⟩ := mem_update_action ha'
    · exact h a ha hsettled
    · exact h a' ha hsettled
  | dependency org actionId payload =>
    intro a ha hsettled
    refine ⟨fun d hd hid hmandatory => ?_, (h a ha hsettled).2⟩
    rcases mem_append.1 hd with hd | hd
    · exact (h a ha hsettled).1 d hd hid hmandatory
    · obtain rfl := mem_singleton.1 hd
      simp only [serve, hrequest] at hok
      obtain ⟨row, hadd, -⟩ := reply_ok hok
      exact absurd ⟨actionId, payload, hrequest, hmandatory, ⟨a, ha, hid.symm, hsettled⟩,
        (addDependency_ok hadd).1⟩ horderly.1
  | resource payload row hrow =>
    intro a ha hsettled
    refine ⟨(h a ha hsettled).1, fun r hr hid hmandatory => ?_⟩
    rcases mem_append.1 hr with hr | hr
    · exact (h a ha hsettled).2 r hr hid hmandatory
    · obtain rfl := mem_singleton.1 hr
      simp only [serve, hrequest] at hok
      obtain ⟨row, hadd, -⟩ := reply_ok hok
      obtain ⟨hstored, hfits, -⟩ := addResource_ok hadd
      rw [hrow.covered_iff]
      by_contra hcovered
      exact horderly.2.1 ⟨r.actionId, payload, hrequest, hrow.1 ▸ hmandatory, hcovered,
        ⟨a, ha, hid.symm, hsettled⟩, hstored, hfits⟩
  | planSteps | evidence | outcome | feedback => exact h

theorem not_allReady_of_lateDependency {call : Call} (hids : Unique (·.id) db.actions)
    (h : AddsDependencyLate db call) : ¬ AllReady ((serve fingerprint).next db call) := by
  obtain ⟨actionId, payload, hrequest, hmandatory, ⟨a, ha, rfl, hsettled⟩, hjoinable⟩ := h
  let row := newDependency call.organizationId a.id payload
  have hok : serve fingerprint db call =
      .ok ({ db with dependencies := db.dependencies ++ [row] }, .dependency row) := by
    simp only [serve, hrequest]
    rw [addDependency_of hids hjoinable]
    rfl
  rw [next_of_ok hok]
  intro hready
  have hresolved : "unresolved" = "resolved" := (hready a ha hsettled).1 row
    (mem_append_right _ (mem_singleton_self _)) rfl hmandatory
  exact absurd hresolved (by decide)

theorem not_allReady_of_lateResource {call : Call} (hids : Unique (·.id) db.actions)
    (h : AddsResourceLate db call) : ¬ AllReady ((serve fingerprint).next db call) := by
  obtain ⟨actionId, payload, hrequest, hmandatory, hcovered, ⟨a, ha, rfl, hsettled⟩, hstored, hfits⟩ :=
    h
  obtain ⟨row, hadd⟩ := addResource_of hids hstored hfits
  have hok : serve fingerprint db call =
      .ok ({ db with resources := db.resources ++ [row] }, .resource row) := by
    simp only [serve, hrequest]
    rw [hadd]
    rfl
  obtain ⟨-, -, hid, hrow, -⟩ := addResource_ok hadd
  rw [next_of_ok hok]
  intro hready
  have hconfirmed := (hready a ha hsettled).2 row
    (mem_append_right _ (mem_singleton_self _)) hid (hrow.1 ▸ hmandatory)
  exact hcovered (hrow.covered_iff.1 hconfirmed)

/-! ## Keys -/

theorem transitionRecorded_iff {call : Call} (h : Sound db) :
    TransitionRecorded fingerprint db call ↔ ¬ ReusesKey db call := by
  constructor
  · rintro hrecorded ⟨actionId, payload, hrequest, ⟨a, ha, rfl, horg⟩, e, he, hid, hkey, hother⟩
    have hget : get db call.organizationId a.id = .ok a := horg ▸ get_of_mem h.ids ha
    have hfound : ∃ e', findEvent db a.id payload.idempotencyKey = some e' := by
      rw [← Option.isSome_iff_exists, findEvent, List.find?_isSome]
      exact ⟨e, he, decide_eq_true ⟨hid, hkey⟩⟩
    obtain ⟨e', hfound⟩ := hfound
    have hok : serve fingerprint db call = .ok (db, .action a) := by
      simp only [serve, hrequest]
      rw [transition, hget, ok_bind, hfound]
      rfl
    obtain ⟨r, hr, hreaches, hrkey⟩ := hrecorded a.id payload db _ hrequest hok
    obtain rfl := h.keys r hr e he (hreaches.1.trans hid.symm) (hrkey.trans hkey.symm)
    exact hother hreaches
  · intro hfresh actionId payload db' reply hrequest hok
    simp only [serve, hrequest] at hok
    obtain ⟨_, hok, -⟩ := reply_ok hok
    rcases transition_ok hok with ⟨hstored, e, hfound, rfl⟩ | ⟨action, -, rfl, -, -, -, rfl⟩
    · obtain ⟨he, hid, hkey⟩ := findEvent_some hfound
      refine ⟨e, he, ?_, hkey⟩
      by_contra hother
      exact hfresh ⟨actionId, payload, hrequest, hstored, e, he, hid, hkey, hother⟩
    · exact ⟨_, mem_append_right _ (mem_singleton_self _), ⟨rfl, rfl, rfl⟩, rfl⟩

/-! ## Whole runs -/

theorem ServiceStep.events_subset {request : Request} (h : ServiceStep db request db') :
    db.events ⊆ db'.events := by
  cases h with
  | create | transition | assign => exact subset_append_left _ _
  | same | planSteps | dependency | resource | evidence | outcome | feedback => exact Subset.refl _

theorem events_subset_run (s : Db) (calls : List Call) :
    s.events ⊆ ((serve fingerprint).run s calls).events :=
  run_frame (R := fun s t => s.events ⊆ t.events) (fun s => Subset.refl s.events)
    (fun h h' => Subset.trans h h') (fun hok => (serve_step hok).events_subset) s calls

theorem allReady_run {calls : List Call}
    (h : (serve fingerprint).AllSteps Orderly Db.empty calls) :
    AllReady ((serve fingerprint).run Db.empty calls) := by
  have hboth := run_invariant_of (P := fun db => Sound db ∧ AllReady db)
    ⟨sound_run fingerprint [], fun a ha => absurd ha not_mem_nil⟩
    (fun hP horderly hok => ⟨hP.1.step (serve_step hok), hP.2.step hP.1.ids horderly hok⟩) h
  exact hboth.2

/-- In a run all promises are kept, in every state and for every transition request, if and only
if no mandatory dependency and no uncovered mandatory resource is added to a settled action, and
no transition is requested under a key that the action has used for something else. -/
theorem valueEarned_iff (fingerprint : Fingerprint) (calls : List Call) :
    ValueEarned fingerprint calls ↔
      (serve fingerprint).AllSteps Orderly Db.empty calls := by
  constructor
  · intro h
    rw [allSteps_iff]
    rintro bs call cs hcalls
    have hsound := sound_run fingerprint bs
    have hready :
    AllReady ((serve fingerprint).next ((serve fingerprint).run Db.empty bs) call) := by
      have hstate := h.ready (bs ++ [call]) cs (by rw [hcalls, append_assoc]; rfl)
      rwa [run_append] at hstate
    refine ⟨fun hlate => ?_, fun hlate => ?_, ?_⟩
    · exact not_allReady_of_lateDependency hsound.ids hlate hready
    · exact not_allReady_of_lateResource hsound.ids hlate hready
    · exact (transitionRecorded_iff hsound).1 (allSteps_iff.1 h.recorded bs call cs hcalls)
  · intro h
    constructor
    · rintro bs cs rfl
      exact allReady_run ((allSteps_append _ _ bs cs).1 h).1
    · rintro bs cs ds - a ha hrequired hstatus
      have hearned := (sound_run fingerprint bs).earned a ha
      obtain ⟨e, he, happroval⟩ := hearned.approval hrequired hstatus
      rw [run_append]
      exact ⟨e, events_subset_run _ cs he, happroval⟩
    · rintro bs cs - o ho hrealized
      obtain ⟨a, ha, hid, hverified⟩ := (sound_run fingerprint bs).realized o ho hrealized
      have hearned := (sound_run fingerprint bs).earned a ha
      exact ⟨a, ha, hid, hverified, hearned.verification hverified,
        hearned.completion (hverified ▸ by decide)⟩
    · exact allSteps_of_invariant (sound_run fingerprint [])
        (fun hsound _ hok => hsound.step (serve_step hok))
        (fun hsound horderly => (transitionRecorded_iff hsound).2 horderly.2.2) h

/-! ## A late dependency -/

namespace LateDependency

/-- A request of an administrator of organization 1 that draws the identifier `drawn`. -/
def call (drawn : UUID) (request : Request) : Call :=
  ⟨1, 7, "organization_admin", 0, drawn, ⟨[], [], [], [], []⟩, request⟩

def payload (reference : String) : ActionCreate :=
  { sourceType := "manual", sourceReference := reference, recommendationType := "inspection" }

def digest : Fingerprint := fun _ _ reference _ _ => reference

def moveTo (status : ActionStatus) (key : String) : Call :=
  call 0 (.transition 10 ⟨status, "STEP", key⟩)

/-- An action is completed, and then gets an unresolved mandatory dependency. -/
def calls : List Call :=
  [call 10 (.create (payload "a")), call 11 (.create (payload "b")), moveTo .approved "k1",
    moveTo .assigned "k2", moveTo .inProgress "k3", moveTo .completed "k4",
    call 0 (.addDependency 10 ⟨11, "finish_to_start", true⟩)]

/-- The completed action is not ready. -/
theorem not_valueEarned : ¬ ∀ (fingerprint : Fingerprint) (calls : List Call),
    ValueEarned fingerprint calls := by
  intro h
  have hready := (h digest calls).ready calls [] (append_nil _).symm
  have hrun : ∃ a ∈ ((serve digest).run Db.empty calls).actions, a.id = 10 ∧ Settled a.status ∧
      ∃ d ∈ ((serve digest).run Db.empty calls).dependencies, d.actionId = 10 ∧
        d.mandatory = true ∧ d.status ≠ "resolved" := by
    decide +kernel
  obtain ⟨a, ha, hid, hsettled, d, hd, hdid, hmandatory, hunresolved⟩ := hrun
  exact hunresolved ((hready a ha hsettled).1 d hd (hdid.trans hid.symm) hmandatory)

end LateDependency

end Intel4Ops.ActionService
