import Intel4Ops.Lib.Graph
import Intel4Ops.RawLineage.Steps

/-!
# Derivation lineage and its cycles

The arcs of an organization's acyclic edges form its derivation graph. `create_edge` looks for a
way back before it adds an arc, but only as far as its depth and node budgets reach. So a cycle
can be closed only beyond that horizon: along at least twelve edges, or past a node whose
neighbourhood exhausts the node budget.
-/

namespace Intel4Ops.RawLineage

open Lib LineageService List

/-! ## The cycle check is a bounded search -/

variable {db : Db} {org : UUID}

theorem mem_derivations {u v : UUID} :
    (u, v) ∈ derivations db org ↔ ∃ e ∈ db.lineageEdges, e.organizationId = org ∧
      e.relationshipType ∈ acyclicRelationships ∧ e.fromNodeId = u ∧ e.toNodeId = v := by
  simp only [derivations, mem_map, mem_filter, decide_eq_true_eq, Prod.mk.injEq, and_assoc]

theorem nextIds_eq_heads (frontier : Finset UUID) :
    nextIds db org frontier = Graph.heads (derivations db org) frontier := by
  ext v
  simp only [nextIds, mem_toFinset, mem_map, mem_filter, decide_eq_true_eq,
    Graph.mem_heads, mem_derivations]
  constructor
  · rintro ⟨e, ⟨he, horg, hfrom, htype⟩, hto⟩
    exact ⟨e.fromNodeId, hfrom, e, he, horg, htype, rfl, hto⟩
  · rintro ⟨u, hu, e, he, horg, htype, rfl, hto⟩
    exact ⟨e, ⟨he, horg, hu, htype⟩, hto⟩

theorem reachableLoop_eq_searchLoop (target : UUID) (rounds : ℕ) (frontier seen : Finset UUID) :
    reachableLoop db org target rounds frontier seen =
      Graph.searchLoop (derivations db org) maxLineageNodes target rounds frontier seen := by
  induction rounds generalizing frontier seen with
  | zero => rfl
  | succ rounds ih => simp only [reachableLoop, Graph.searchLoop, nextIds_eq_heads, ih]

/-- `_reachable` is the bounded search of the derivation graph. -/
theorem reachable_eq_search (start target : UUID) : reachable db org start target =
      Graph.search (derivations db org) maxLineageNodes maxLineageDepth start target :=
  reachableLoop_eq_searchLoop target maxLineageDepth {start} {start}

/-! ## Every run -/

/-- Every cycle of every derivation graph lies beyond the cycle check. -/
def DerivationsBeyond (db : Db) : Prop :=
  ∀ org, Graph.CyclesBeyond (derivations db org) maxLineageNodes maxLineageDepth

theorem derivationsBeyond_run (context : Context) (calls : List Call) :
    DerivationsBeyond (serve.run (Db.empty context) calls) := by
  refine Service.run_invariant (P := DerivationsBeyond) ?_ ?_ calls
  · exact fun org => Graph.cyclesBeyond_nil _ _
  · intro db call db' r hinv h org
    rcases (serve_step h).2.derivations org with hsame | ⟨u, v, huv, hsearch, hadd⟩
    · rw [hsame]
      exact hinv org
    · rw [hadd]
      rw [reachable_eq_search] at hsearch
      exact (hinv org).snoc huv hsearch

/-! ## The cycle check of one request -/

/-- The request adds no stored edge again, and passes the checks ahead of the cycle check. -/
structure AddsDerivation (db : Db) (call : Call) (payload : LineageEdgeCreate) : Prop where
  request : call.request = .createEdge payload
  acyclic : payload.relationshipType ∈ acyclicRelationships
  checked : checkEdge db call.organizationId payload = .ok ()
  unstored : findEdge db call.organizationId payload = none

def cycleError : RawLineageError := .conflict "Lineage edge would create a derivation cycle"

theorem serve_of_reachable {call : Call} {payload : LineageEdgeCreate}
    (h : AddsDerivation db call payload)
    (hreach : reachable db call.organizationId payload.toNodeId payload.fromNodeId = true) :
    serve db call = .error cycleError := by
  have hedge : createEdge db call.organizationId payload call.actorUserId (call.ids 0) =
      .error cycleError := by
    rw [createEdge, h.checked, ok_bind]
    simp only [h.unstored]
    rw [ensure_of_not (by simp [h.acyclic, hreach]), error_bind]
    rfl
  simp only [serve, h.request, hedge]
  rfl

theorem checkEdge_ne_cycleError (payload : LineageEdgeCreate) :
    checkEdge db org payload ≠ .error cycleError := by
  intro h
  simp only [checkEdge, getNode, cycleError, bind_eq_error, orFail_eq_error, ensure_eq_error,
    RawLineageError.conflict.injEq, reduceCtorEq, and_false, false_or] at h
  obtain ⟨source, -, target, -, ⟨-, hmessage⟩ | ⟨-, -, h⟩⟩ := h
  · simp at hmessage
  · cases hrun : payload.processingRunId with
    | none | some run => simp [hrun] at h

theorem reachable_of_cycleError {call : Call} {payload : LineageEdgeCreate}
    (hreq : call.request = .createEdge payload) (h : serve db call = .error cycleError) :
    reachable db call.organizationId payload.toNodeId payload.fromNodeId = true := by
  simp only [serve, hreq] at h
  cases hedge : createEdge db call.organizationId payload call.actorUserId (call.ids 0) with
  | ok p => rw [hedge] at h; cases h
  | error e =>
    rw [hedge] at h
    obtain rfl : e = cycleError := by simpa [Except.map] using h
    rcases bind_eq_error.1 hedge with hcheck | ⟨_, -, hedge⟩
    · exact absurd hcheck (checkEdge_ne_cycleError payload)
    split at hedge
    case h_1 existing hfind => cases hedge
    case h_2 hfind =>
      rcases bind_eq_error.1 hedge with hcycle | ⟨_, -, hedge⟩
      · simp only [ensure_eq_error, not_not] at hcycle
        exact hcycle.1.2
      · rcases bind_eq_error.1 hedge with hinsert | ⟨_, -, hedge⟩
        · simp [cycleError] at hinsert
        · cases hedge

/-! ## Whole runs -/

/-- In every reachable state each directed cycle of an organization's derivation graph has at
least twelve edges, or passes a node with 500 nodes within two edges less than the cycle has. A
`create_edge` that adds a derivation whose way back is within the search horizon fails with a
conflict and changes nothing, and a reported derivation cycle is one. -/
theorem derivation_cycles_beyond_horizon (context : Context) (calls : List Call) (org : UUID) :
    let db := serve.run (Db.empty context) calls
    (∀ n a, Graph.Walk (derivations db org) (n + 1) a a →
      12 ≤ n + 1 ∨ ∃ v i j, i + j = n + 1 ∧ Graph.Walk (derivations db org) i a v ∧
        Graph.Walk (derivations db org) j v a ∧
        500 ≤ (Graph.ball (derivations db org) v (n - 1)).card) ∧
    ∀ call payload, call.organizationId = org → call.request = .createEdge payload →
      (∀ n, AddsDerivation db call payload →
        Graph.Walk (derivations db org) (n + 1) payload.toNodeId payload.fromNodeId →
        n + 1 ≤ 10 →
        (0 < n → (Graph.ball (derivations db org) payload.toNodeId n).card < 500) →
        serve db call = .error cycleError ∧ serve.next db call = db) ∧
      (serve db call = .error cycleError →
        ∃ n, Graph.Walk (derivations db org) (n + 1) payload.toNodeId payload.fromNodeId) := by
  intro db
  refine ⟨fun n a hwalk => derivationsBeyond_run context calls org n a hwalk, ?_⟩
  rintro call payload rfl hreq
  refine ⟨fun n hadds hwalk hshort hcard => ?_, fun herror => ?_⟩
  · have hreach : reachable db call.organizationId payload.toNodeId payload.fromNodeId = true := by
      rw [reachable_eq_search]
      exact Graph.search_of_walk (by rw [maxLineageDepth]; omega) hwalk hcard
    have herror := serve_of_reachable hadds hreach
    exact ⟨herror, Service.next_of_error herror⟩
  · have hreach := reachable_of_cycleError hreq herror
    rw [reachable_eq_search] at hreach
    obtain ⟨n, -, hwalk⟩ := Graph.exists_walk_of_search hreach
    exact ⟨n, hwalk⟩

/-! ## A cycle beyond the horizon -/

namespace LongCycle

/-- Twelve datasets of organization 1. -/
def context : Context where
  sourceSystems := []
  ingestionBatches := []
  datasets := (List.range 12).map fun k => ⟨k, 1, 10⟩
  datasetVersions := []
  rawRecordReferences := []
  processingRuns := []

/-- A request of organization 1 that draws the identifier `id`. -/
def call (id : UUID) (request : Request) : Call := ⟨1, 7, 0, fun _ => id, request⟩

/-- Twelve nodes, the chain through them, and the edge back from the last to the first. -/
def calls : List Call :=
  (List.range 12).map (fun k => call k (.registerNode ⟨.dataset, k⟩)) ++
    (List.range 12).map fun k => call (100 + k)
      (.createEdge { fromNodeId := k, toNodeId := (k + 1) % 12, relationshipType := .derivedFrom })

theorem derivations_run : derivations (serve.run (Db.empty context) calls) 1 =
    (List.range 12).map fun k => (k, (k + 1) % 12) := by
  decide +kernel

/-- The way round the twelve nodes. -/
theorem walk (k n : ℕ) (h : k + n ≤ 12) :
    Graph.Walk ((List.range 12).map fun k => (k, (k + 1) % 12)) n (k % 12) ((k + n) % 12) := by
  induction n with
  | zero => exact .nil _
  | succ n ih =>
    refine (ih (by omega)).snoc ?_
    rw [mem_map]
    refine ⟨k + n, mem_range.2 (by omega), ?_⟩
    rw [Nat.mod_eq_of_lt (show k + n < 12 by omega), Nat.add_assoc]

/-- Registering nodes and creating edges closes a derivation cycle of twelve edges. -/
theorem not_acyclic : ¬ ∀ (context : Context) (calls : List Call) (org : UUID),
    (∀ call ∈ calls, call.organizationId = org ∧ ((∃ payload, call.request = .registerNode payload) ∨
      ∃ payload, call.request = .createEdge payload)) →
    Graph.Acyclic (derivations (serve.run (Db.empty context) calls) org) := by
  intro h
  refine h context calls 1 ?_ 11 0 ?_
  · intro c hc
    rcases mem_append.1 hc with hc | hc
    · obtain ⟨k, -, rfl⟩ := mem_map.1 hc
      exact ⟨rfl, .inl ⟨_, rfl⟩⟩
    · obtain ⟨k, -, rfl⟩ := mem_map.1 hc
      exact ⟨rfl, .inr ⟨_, rfl⟩⟩
  · rw [derivations_run]
    exact walk 0 12 le_rfl

end LongCycle

end Intel4Ops.RawLineage
