import Intel4Ops.Actions.Steps
import Intel4Ops.Lib.Graph

/-!
# Operational actions: cycles of dependencies

A dependency is an arc from an action to its prerequisite. `add_dependency` refuses an action as
its own prerequisite and the reverse of a stored dependency, so a cycle passes at least three
actions. Longer cycles are not looked for: the graph is acyclic as long as no request closes one.
-/

namespace Intel4Ops.ActionService

open Lib List

variable {fingerprint : Fingerprint} {db db' : Db}

/-- The dependency rows as arcs from an action to its prerequisite. -/
def dependencyArcs (db : Db) : List (UUID × UUID) :=
  db.dependencies.map fun d => (d.actionId, d.prerequisiteActionId)

theorem mem_dependencyArcs {u v : UUID} : (u, v) ∈ dependencyArcs db ↔
      ∃ d ∈ db.dependencies, d.actionId = u ∧ d.prerequisiteActionId = v := by
  simp only [dependencyArcs, mem_map, Prod.mk.injEq]

/-- No action is its own prerequisite, and no two are prerequisites of each other. -/
structure NoDirectCycle (db : Db) : Prop where
  self : ∀ u, (u, u) ∉ dependencyArcs db
  reverse : ∀ u v, (u, v) ∈ dependencyArcs db → (v, u) ∉ dependencyArcs db

/-- The request adds a dependency whose prerequisite depends on the action through others. -/
def ClosesLongCycle (db : Db) (call : Call) : Prop :=
  ∃ actionId payload n, call.request = .addDependency actionId payload ∧
    Graph.Walk (dependencyArcs db) (n + 2) payload.prerequisiteActionId actionId

/-! ## One request -/

theorem ServiceStep.dependencyArcs_cases {request : Request} (h : ServiceStep db request db') :
    dependencyArcs db' = dependencyArcs db ∨
      ∃ actionId payload, request = .addDependency actionId payload ∧
        actionId ≠ payload.prerequisiteActionId ∧
        (payload.prerequisiteActionId, actionId) ∉ dependencyArcs db ∧
        dependencyArcs db' = dependencyArcs db ++ [(actionId, payload.prerequisiteActionId)] := by
  cases h with
  | dependency org actionId payload hjoinable =>
    refine .inr ⟨actionId, payload, rfl, hjoinable.ne, ?_, map_append⟩
    rw [mem_dependencyArcs]
    exact hjoinable.reverse
  | same | create | transition | assign | planSteps | resource | evidence | outcome | feedback =>
    exact .inl rfl

theorem NoDirectCycle.step {request : Request} (h : NoDirectCycle db)
    (hstep : ServiceStep db request db') : NoDirectCycle db' := by
  rcases hstep.dependencyArcs_cases with harcs | ⟨u, payload, -, hself, hback, harcs⟩
  · constructor
    · rw [harcs]
      exact h.self
    · rw [harcs]
      exact h.reverse
  · constructor
    · intro w hw
      rw [harcs, mem_append, mem_singleton, Prod.mk.injEq] at hw
      rcases hw with hw | ⟨rfl, hw⟩
      · exact h.self w hw
      · exact hself hw
    · intro a b hab hba
      rw [harcs, mem_append, mem_singleton, Prod.mk.injEq] at hab hba
      rcases hab with hab | ⟨rfl, rfl⟩
      · rcases hba with hba | ⟨rfl, rfl⟩
        · exact h.reverse a b hab hba
        · exact hback hab
      · rcases hba with hba | ⟨hba, -⟩
        · exact hback hba
        · exact hself hba.symm

theorem noDirectCycle_run (calls : List Call) :
    NoDirectCycle ((serve fingerprint).run Db.empty calls) := by
  refine Service.run_invariant ?_ (fun h hok => h.step (serve_step hok)) calls
  exact ⟨fun u hu => absurd hu not_mem_nil, fun u v huv => absurd huv not_mem_nil⟩

theorem NoDirectCycle.three_le (h : NoDirectCycle db) {n : ℕ} {a : UUID}
    (hwalk : Graph.Walk (dependencyArcs db) (n + 1) a a) : 3 ≤ n + 1 := by
  match n, hwalk with
  | 0, .cons harc (.nil _) => exact absurd harc (h.self a)
  | 1, .cons harc (.cons harc' (.nil _)) => exact absurd harc' (h.reverse _ _ harc)
  | n + 2, _ => omega

theorem serve_of_directCycle {call : Call} {actionId : UUID} {payload : ActionDependencyCreate}
    (hrequest : call.request = .addDependency actionId payload) {n : ℕ} (hn : n ≤ 1)
    (hwalk : Graph.Walk (dependencyArcs db) n payload.prerequisiteActionId actionId) :
    ∃ e, serve fingerprint db call = .error e := by
  cases hserve : serve fingerprint db call with
  | error e => exact ⟨e, rfl⟩
  | ok p =>
    simp only [serve, hrequest] at hserve
    obtain ⟨row, hadd, -⟩ := Service.reply_ok hserve
    obtain ⟨hjoinable, -⟩ := addDependency_ok hadd
    match n, hwalk with
    | 0, .nil _ => exact absurd rfl hjoinable.ne
    | 1, .cons harc (.nil _) => exact absurd (mem_dependencyArcs.1 harc) hjoinable.reverse
    | n + 2, _ => omega

theorem acyclic_step {call : Call} (hacyclic : Graph.Acyclic (dependencyArcs db))
    (hcondition : ¬ ClosesLongCycle db call) (hstep : ServiceStep db call.request db') :
    Graph.Acyclic (dependencyArcs db') := by
  intro n a hcycle
  rcases hstep.dependencyArcs_cases with harcs | ⟨u, payload, hrequest, hself, hback, harcs⟩
  · rw [harcs] at hcycle
    exact hacyclic n a hcycle
  · rw [harcs] at hcycle
    rcases hcycle.closed_of_snoc_arc with hold | ⟨i, j, k, -, -, -, -, hreturn⟩
    · exact hacyclic n a hold
    -- The way back from the prerequisite has no arc, one arc, or more.
    match k, hreturn with
    | 0, .nil _ => exact hself rfl
    | 1, .cons harc (.nil _) => exact hback harc
    | k + 2, hreturn => exact hcondition ⟨u, payload, k, hrequest, hreturn⟩

/-! ## Whole runs -/

/-- In every reachable state a cycle of dependencies passes at least three actions, and a request
that would close a shorter one is refused and changes nothing. The graph is acyclic as long as no
request makes an action depend on one that depends on it through others. -/
theorem dependencyCycles_long (fingerprint : Fingerprint) (calls : List Call) :
    let db := (serve fingerprint).run Db.empty calls
    (∀ n a, Graph.Walk (dependencyArcs db) (n + 1) a a → 3 ≤ n + 1) ∧
    (∀ call actionId payload n, call.request = .addDependency actionId payload → n ≤ 1 →
      Graph.Walk (dependencyArcs db) n payload.prerequisiteActionId actionId →
      (∃ e, serve fingerprint db call = .error e) ∧ (serve fingerprint).next db call = db) ∧
    ((serve fingerprint).AllSteps (fun db call => ¬ ClosesLongCycle db call) Db.empty calls →
      Graph.Acyclic (dependencyArcs db)) := by
  intro db
  refine ⟨fun n a hwalk => (noDirectCycle_run calls).three_le hwalk, ?_, ?_⟩
  · intro call actionId payload n hrequest hn hwalk
    have herror : ∃ e, serve fingerprint db call = .error e :=
      serve_of_directCycle hrequest hn hwalk
    obtain ⟨e, he⟩ := herror
    exact ⟨⟨e, he⟩, Service.next_of_error he⟩
  · intro hall
    refine Service.run_invariant_of (P := fun db => Graph.Acyclic (dependencyArcs db)) ?_ ?_ hall
    · intro n a hcycle
      cases hcycle with
      | cons harc => exact absurd harc not_mem_nil
    · intro s call s' reply hacyclic hcondition hok
      exact acyclic_step hacyclic hcondition (serve_step hok)

/-! ## A cycle of three actions -/

namespace LongCycle

/-- A request of organization 1 that draws the identifier `drawn`. -/
def call (drawn : UUID) (request : Request) : Call :=
  ⟨1, 7, "operator", 0, drawn, ⟨[], [], [], [], []⟩, request⟩

def payload (reference : String) : ActionCreate :=
  { sourceType := "manual", sourceReference := reference, recommendationType := "inspection" }

def digest : Fingerprint := fun _ _ reference _ _ => reference

/-- Three actions, each of them a prerequisite of the one before it and the first of the last. -/
def calls : List Call :=
  [call 10 (.create (payload "a")), call 11 (.create (payload "b")), call 12 (.create (payload "c")),
    call 0 (.addDependency 10 ⟨11, "finish_to_start", true⟩),
    call 0 (.addDependency 11 ⟨12, "finish_to_start", true⟩),
    call 0 (.addDependency 12 ⟨10, "finish_to_start", true⟩)]

theorem dependencyArcs_run : dependencyArcs ((serve digest).run Db.empty calls) =
    [(10, 11), (11, 12), (12, 10)] := by
  decide +kernel

/-- Creating actions and adding dependencies closes a cycle of three actions. -/
theorem dependencies_not_acyclic : ¬ ∀ (fingerprint : Fingerprint) (calls : List Call),
    (∀ call ∈ calls, call.organizationId = 1 ∧ ((∃ payload, call.request = .create payload) ∨
      ∃ actionId payload, call.request = .addDependency actionId payload)) →
    Graph.Acyclic (dependencyArcs ((serve fingerprint).run Db.empty calls)) := by
  intro h
  refine h digest calls ?_ 2 10 ?_
  · intro c hc
    simp only [calls, mem_cons, not_mem_nil, or_false] at hc
    rcases hc with rfl | rfl | rfl | rfl | rfl | rfl
    · exact ⟨rfl, .inl ⟨_, rfl⟩⟩
    · exact ⟨rfl, .inl ⟨_, rfl⟩⟩
    · exact ⟨rfl, .inl ⟨_, rfl⟩⟩
    · exact ⟨rfl, .inr ⟨_, _, rfl⟩⟩
    · exact ⟨rfl, .inr ⟨_, _, rfl⟩⟩
    · exact ⟨rfl, .inr ⟨_, _, rfl⟩⟩
  · rw [dependencyArcs_run]
    exact .cons (b := 11) (by decide) (.cons (b := 12) (by decide) (.cons (by decide) (.nil 10)))

end LongCycle

end Intel4Ops.ActionService
