import Intel4Ops.Actions.RealizedValue

/-!
# Operational actions: the log of events

`transition` writes the status before it and the status after it into an event. The events of an
action, read in order, give back its status.
-/

namespace Intel4Ops.ActionService

open Lib Intel4Ops.Actions List Table Service

variable {fingerprint : Fingerprint} {db db' : Db}

/-! ## What a log says -/

/-- The status after one more event, if the event follows from the status. -/
def ActionEvent.advance (status : ActionStatus) (e : ActionEvent) : Option ActionStatus :=
  match e.newStatus with
  | none => some status
  | some target =>
    if e.priorStatus = some status ∧ target ∈ allowedTransitions status then some target else none

/-- The status that the events of an action lead to from `proposed`. -/
def statusFrom (events : List ActionEvent) (actionId : UUID) : Option ActionStatus :=
  (events.filter (·.actionId = actionId)).foldlM ActionEvent.advance .proposed

variable {events : List ActionEvent} {event : ActionEvent} {actionId : UUID} {ids : List UUID}

theorem statusFrom_append : statusFrom (events ++ [event]) actionId =
    if event.actionId = actionId then (statusFrom events actionId).bind (event.advance ·)
    else statusFrom events actionId := by
  rw [statusFrom, filter_append, foldlM_append, filter_singleton]
  by_cases hid : event.actionId = actionId
  · simp [statusFrom, hid]
  · simp [statusFrom, hid]

theorem statusFrom_append_of_none (h : event.newStatus = none) :
    statusFrom (events ++ [event]) actionId = statusFrom events actionId := by
  have hadvance (status : ActionStatus) : event.advance status = some status := by
    rw [ActionEvent.advance, h]
  simp [statusFrom_append, hadvance]

/-! ## What a request does to the log -/

/-- The log of every action leads to its status, and only stored actions move. -/
structure Logged (db : Db) : Prop where
  ids : Unique (·.id) db.actions
  owned : ∀ e ∈ db.events, e.newStatus ≠ none → e.actionId ∈ db.actions.map (·.id)
  status : ∀ a ∈ db.actions, statusFrom db.events a.id = some a.status

theorem statusFrom_fresh (h : ∀ e ∈ events, e.actionId = actionId → e.newStatus = none) :
    statusFrom events actionId = some .proposed := by
  induction events using reverseRecOn with
  | nil => rfl
  | append_singleton events e ih =>
    have hbefore := ih fun e he => h e (mem_append_left _ he)
    by_cases hid : e.actionId = actionId
    · rw [statusFrom_append_of_none (h e (by simp) hid), hbefore]
    · rw [statusFrom_append, if_neg hid, hbefore]

theorem owned_append (h : ∀ e ∈ events, e.newStatus ≠ none → e.actionId ∈ ids)
    (hnone : event.newStatus = none) :
    ∀ e ∈ events ++ [event], e.newStatus ≠ none → e.actionId ∈ ids := by
  intro e he hnew
  rcases mem_append.1 he with he | he
  · exact h e he hnew
  · exact absurd hnone (mem_singleton.1 he ▸ hnew)

theorem Logged.step {request : Request} (h : Logged db) (hstep : ServiceStep db request db') :
    Logged db' := by
  cases hstep with
  | create payload action event hfresh hstatus hkey hevent =>
    refine ⟨h.ids.append hfresh, owned_append (fun e he hnew => ?_) hevent, fun a ha => ?_⟩
    · rw [map_append]
      exact mem_append_left _ (h.owned e he hnew)
    · rw [statusFrom_append_of_none hevent]
      rcases mem_append.1 ha with ha | ha
      · exact h.status a ha
      · obtain rfl := mem_singleton.1 ha
        rw [hstatus]
        refine statusFrom_fresh fun e he hid => ?_
        by_contra hnew
        obtain ⟨b, hb, howner⟩ := mem_map.1 (h.owned e he hnew)
        exact hfresh b hb (howner.trans hid)
  | transition action payload actor actorRole now hmem hallowed =>
    refine ⟨h.ids.update fun a => moveTo_id _ _ a, fun e he hnew => ?_, fun a' ha' => ?_⟩
    · rw [map_update _ _ fun a => moveTo_id _ _ a]
      rcases mem_append.1 he with he | he
      · exact h.owned e he hnew
      · rw [mem_singleton.1 he]
        exact mem_map_of_mem hmem
    · rw [statusFrom_append]
      obtain ⟨a, ha, ⟨hid, rfl⟩ | ⟨hid, rfl⟩⟩ := mem_update_action ha'
      · obtain rfl := h.ids.eq_of_key_eq ha hmem hid
        have hmoved : (transitionEvent a payload actor actorRole).actionId = a.id := rfl
        rw [moveTo_id, if_pos hmoved, h.status a ha, moveTo_status]
        exact if_pos ⟨rfl, hallowed⟩
      · rw [if_neg fun heq => hid heq.symm]
        exact h.status a' ha
  | assign action payload event hkey hevent =>
    refine ⟨h.ids.update fun a => rfl, ?_, fun a' ha' => ?_⟩
    · rw [map_update db.actions (·.id) fun a => (rfl : (a.assignTo payload).id = a.id)]
      exact owned_append h.owned hevent
    · rw [statusFrom_append_of_none hevent]
      obtain ⟨a, ha, ⟨-, rfl⟩ | ⟨-, rfl⟩⟩ := mem_update_action ha'
      · exact h.status a ha
      · exact h.status a' ha
  | same => exact h
  | planSteps | dependency | resource | evidence | outcome | feedback =>
    exact ⟨h.ids, h.owned, h.status⟩

/-- In every run the events of an action, each from the status that the one before it left and along
the allowed transitions, lead from `proposed` to the status of the action. -/
theorem logged_run (fingerprint : Fingerprint) (calls : List Call) :
    Logged ((serve fingerprint).run Db.empty calls) := by
  have hempty : Logged Db.empty :=
    ⟨Unique.nil, fun _ he => absurd he not_mem_nil, fun _ ha => absurd ha not_mem_nil⟩
  exact run_invariant hempty (fun h hok => h.step (serve_step hok)) calls

end Intel4Ops.ActionService
