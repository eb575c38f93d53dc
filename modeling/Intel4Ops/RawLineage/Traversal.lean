import Intel4Ops.Lib.Traversal
import Intel4Ops.RawLineage.Derivation

/-!
# Traversal of the lineage graph

`LineageService.graph`: the nodes around a root, with the edges between them, up to a depth and a
number of nodes. On a store that keeps its keys no lookup fails, and the loop is a bounded
traversal.
-/

namespace Intel4Ops.RawLineage

open Lib List

/-! ## The service -/

/-- `direction`; every other text is read as `both`. -/
inductive Direction
  | upstream
  | downstream
  | both

/-- The edge leaves the node in the direction of the traversal. -/
def Direction.Leaves (direction : Direction) (current : UUID) (e : LineageEdge) : Prop :=
  match direction with
  | .upstream => e.toNodeId = current
  | .downstream => e.fromNodeId = current
  | .both => e.fromNodeId = current ∨ e.toNodeId = current

instance (direction : Direction) (current : UUID) (e : LineageEdge) :
    Decidable (direction.Leaves current e) :=
  match direction with
  | .upstream => inferInstanceAs (Decidable (_ = _))
  | .downstream => inferInstanceAs (Decidable (_ = _))
  | .both => inferInstanceAs (Decidable (_ ∨ _))

/-- The arguments of `graph` after the root. -/
structure GraphQuery where
  direction : Direction := .both
  maxDepth : Nat := 3
  maxNodes : Nat := 100
  relationshipType : Option LineageRelationshipType := none
  nodeType : Option LineageNodeType := none

/-- The local variables of `graph`. The keys of `found` and `edges` are the ids of their rows. -/
structure GraphState where
  found : List LineageNode
  edges : List LineageEdge
  queue : List (UUID × Nat)
  depthReached : Nat
  truncated : Bool

/-- `edges[edge.id] = edge` -/
def GraphState.putEdge (s : GraphState) (e : LineageEdge) : GraphState :=
  { s with edges := if s.edges.any (·.id = e.id)
      then s.edges.map fun other => if other.id = e.id then e else other
      else s.edges ++ [e] }

structure LineageGraphRead where
  rootNodeId : UUID
  nodes : List LineageNode
  edges : List LineageEdge
  truncated : Bool
  depthReached : Nat

namespace LineageService

/-- The edges that `edge_filter` selects for a node. -/
def adjacentEdges (db : Db) (organizationId : UUID) (query : GraphQuery) (current : UUID) :
    List LineageEdge :=
  db.lineageEdges.filter fun e => e.organizationId = organizationId ∧
    query.direction.Leaves current e ∧ ∀ ty ∈ query.relationshipType, e.relationshipType = ty

/-- The other end of an edge. -/
def neighborId (current : UUID) (e : LineageEdge) : UUID :=
  if e.toNodeId = current then e.fromNodeId else e.toNodeId

/-- One round of the inner loop of `graph`. -/
def visitEdge (db : Db) (organizationId : UUID) (query : GraphQuery) (current : UUID) (depth : Nat)
    (s : GraphState) (e : LineageEdge) : Except RawLineageError GraphState :=
  if s.found.any (·.id = neighborId current e) then .ok (s.putEdge e)
  else (getNode db organizationId (neighborId current e)).map fun neighbor =>
    if ∃ ty ∈ query.nodeType, neighbor.nodeType ≠ ty then s
    else if query.maxNodes ≤ s.found.length then { s with truncated := true }
    else GraphState.putEdge { s with
      found := s.found ++ [neighbor], queue := s.queue ++ [(neighbor.id, depth + 1)] } e

/-- The body of the outer loop of `graph`, for a node from the queue. -/
def visitNode (db : Db) (organizationId : UUID) (query : GraphQuery) (s : GraphState)
    (current : UUID × Nat) (queue : List (UUID × Nat)) : Except RawLineageError GraphState :=
  let s := { s with queue, depthReached := max s.depthReached current.2 }
  if query.maxDepth ≤ current.2 then .ok s
  else (adjacentEdges db organizationId query current.1).foldlM
    (visitEdge db organizationId query current.1 current.2) s

/-- The outer loop of `graph`; `none` when the fuel is used up before the queue is empty. -/
def graphLoop (db : Db) (organizationId : UUID) (query : GraphQuery) :
    Nat → GraphState → Except RawLineageError (Option GraphState)
  | 0, _ => .ok none
  | fuel + 1, s =>
    match s.queue with
    | [] => .ok (some s)
    | current :: queue => do
      let s ← visitNode db organizationId query s current queue
      graphLoop db organizationId query fuel s

/-- `graph` -/
def graph (db : Db) (organizationId rootNodeId : UUID) (query : GraphQuery) (fuel : Nat) :
    Except RawLineageError (Option LineageGraphRead) := do
  ensure (1 ≤ query.maxDepth ∧ query.maxDepth ≤ maxLineageDepth ∧ 1 ≤ query.maxNodes ∧
    query.maxNodes ≤ maxLineageNodes) (.conflict "Lineage traversal limit is invalid")
  let root ← getNode db organizationId rootNodeId
  let final ← graphLoop db organizationId query fuel {
    found := [root], edges := [], queue := [(root.id, 0)], depthReached := 0, truncated := false }
  return final.map fun s => {
    rootNodeId := root.id
    nodes := s.found
    edges := s.edges
    truncated := s.truncated
    depthReached := s.depthReached }

end LineageService

/-! ## Stored lineage -/

namespace StoredLineage

end StoredLineage

section Simulation

open LineageService

variable {db : Db} {org : UUID} {query : GraphQuery}

namespace StoredLineage

theorem getNode_eq (h : StoredLineage db) {n : LineageNode} (hn : n ∈ db.lineageNodes)
    (horg : n.organizationId = org) : getNode db org n.id = .ok n := by
  have hsome : (db.lineageNodes.find? fun m => m.id = n.id ∧ m.organizationId = org).isSome := by
    rw [List.find?_isSome]
    exact ⟨n, hn, decide_eq_true ⟨rfl, horg⟩⟩
  obtain ⟨m, hm⟩ := Option.isSome_iff_exists.1 hsome
  rw [getNode, orFail_eq_ok]
  have hid := List.find?_some hm
  rw [decide_eq_true_eq] at hid
  rw [hm, inj_on_of_nodup_map h.node_ids (mem_of_find?_eq_some hm) hn hid.1]

theorem neighbor (h : StoredLineage db) {current : UUID} {e : LineageEdge}
    (he : e ∈ adjacentEdges db org query current) : ∃ n ∈ db.lineageNodes,
      n.id = neighborId current e ∧ n.organizationId = org := by
  rw [adjacentEdges, mem_filter, decide_eq_true_eq] at he
  obtain ⟨he, rfl, -⟩ := he
  apply h.ends e he
  rw [neighborId]
  split
  case isTrue => exact mem_cons_self
  case isFalse => exact mem_cons_of_mem _ mem_cons_self

end StoredLineage

variable (db org query) in
/-- The edges of a node with their other ends. -/
def links (current : UUID) : List (LineageEdge × UUID) :=
  (adjacentEdges db org query current).map fun e => (e, neighborId current e)

/-- `max_depth` and `max_nodes` -/
def GraphQuery.limits (query : GraphQuery) : Traversal.Limits := ⟨query.maxDepth, query.maxNodes⟩

variable (db org query) in
/-- The node passes the filter on its type. -/
def admits (id : UUID) : Bool :=
  match getNode db org id with
  | .ok n => decide (∀ ty ∈ query.nodeType, n.nodeType = ty)
  | .error _ => true

variable (db org) in
/-- The state of the loop and the state of the traversal that it is. -/
structure Same (s : GraphState) (t : Traversal.State UUID LineageEdge) : Prop where
  found : s.found.map (·.id) = t.found
  stored : ∀ n ∈ s.found, n ∈ db.lineageNodes ∧ n.organizationId = org
  edges : s.edges = t.edges
  stored_edges : ∀ e ∈ s.edges, e ∈ db.lineageEdges
  queue : s.queue = t.queue
  depthReached : s.depthReached = t.depthReached
  truncated : s.truncated = t.truncated

namespace Same

variable {s : GraphState} {t : Traversal.State UUID LineageEdge}

theorem any_found (h : Same db org s t) (id : UUID) :
    s.found.any (·.id = id) = true ↔ id ∈ t.found := by
  rw [← h.found, any_eq_true, mem_map]
  simp only [decide_eq_true_eq]

variable {e : LineageEdge}

theorem putEdge (hstored : StoredLineage db) (h : Same db org s t) (he : e ∈ db.lineageEdges) :
    Same db org (s.putEdge e) (t.keep e) := by
  have heq : ∀ other ∈ s.edges, other.id = e.id → other = e := fun other hother hid =>
    inj_on_of_nodup_map hstored.edge_ids (h.stored_edges other hother) he hid
  have hedges : (s.putEdge e).edges = (t.keep e).edges := by
    rw [GraphState.putEdge, Traversal.State.keep, ← h.edges]
    by_cases hmem : e ∈ s.edges
    · rw [if_pos hmem, if_pos (any_eq_true.2 ⟨e, hmem, decide_eq_true rfl⟩)]
      calc s.edges.map (fun other => if other.id = e.id then e else other)
          = s.edges.map id := map_congr_left fun other hother => by
            split
            case isTrue hid => exact (heq other hother hid).symm
            case isFalse => rfl
        _ = s.edges := map_id _
    · have hnone : ¬ s.edges.any (·.id = e.id) = true := by
        rw [any_eq_true]
        rintro ⟨other, hother, hid⟩
        exact hmem (heq other hother (of_decide_eq_true hid) ▸ hother)
      rw [if_neg hmem, if_neg hnone]
  refine ⟨h.found, h.stored, hedges, ?_, h.queue, h.depthReached, h.truncated⟩
  intro e' he'
  rw [hedges, Traversal.State.mem_keep_edges, ← h.edges] at he'
  rcases he' with he' | rfl
  · exact h.stored_edges e' he'
  · exact he

/-- One edge: the lookup of its other end succeeds, and the states stay the same. -/
theorem visitEdge (hstored : StoredLineage db) (h : Same db org s t) {current : UUID} (depth : ℕ)
    (he : e ∈ adjacentEdges db org query current) :
    ∃ s', visitEdge db org query current depth s e = .ok s' ∧ Same db org s'
      (Traversal.follow query.limits (admits db org query) depth t (e, neighborId current e)) := by
  have hedge : e ∈ db.lineageEdges := (mem_filter.1 he).1
  obtain ⟨n, hn, hid, horg⟩ := hstored.neighbor he
  have hget := hstored.getNode_eq hn horg
  rw [LineageService.visitEdge, Traversal.follow, ← hid]
  by_cases hfound : n.id ∈ t.found
  · rw [if_pos ((h.any_found n.id).2 hfound), if_pos hfound]
    exact ⟨_, rfl, h.putEdge hstored hedge⟩
  · rw [if_neg ((h.any_found n.id).not.2 hfound), if_neg hfound, hget]
    have hadmits : admits db org query n.id = true ↔
        ¬ ∃ ty ∈ query.nodeType, n.nodeType ≠ ty := by
      rw [admits, hget, decide_eq_true_eq]
      push Not
      rfl
    refine ⟨_, rfl, ?_⟩
    dsimp only
    by_cases hfilter : ∃ ty ∈ query.nodeType, n.nodeType ≠ ty
    · rw [if_pos hfilter, if_neg (hadmits.not.2 (not_not.2 hfilter))]
      exact h
    · have hlen : t.found.length = s.found.length := by rw [← h.found, length_map]
      rw [if_neg hfilter, if_pos (hadmits.2 hfilter), Traversal.State.discover, hlen]
      change Same db org (if query.maxNodes ≤ s.found.length then _ else _)
        (if query.maxNodes ≤ s.found.length then _ else _)
      split
      case isTrue =>
        exact ⟨h.found, h.stored, h.edges, h.stored_edges, h.queue, h.depthReached, rfl⟩
      case isFalse =>
        apply putEdge hstored _ hedge
        refine ⟨?_, ?_, h.edges, h.stored_edges, ?_, h.depthReached, h.truncated⟩
        · rw [map_append, h.found]
          rfl
        · intro m hm
          rcases mem_append.1 hm with hm | hm
          · exact h.stored m hm
          · rw [mem_singleton] at hm
            subst hm
            exact ⟨hn, horg⟩
        · rw [h.queue]

theorem foldlM_visitEdge (hstored : StoredLineage db) (current : UUID) (depth : ℕ)
    (es : List LineageEdge) (hes : es ⊆ adjacentEdges db org query current) :
    ∀ {s : GraphState} {t : Traversal.State UUID LineageEdge}, Same db org s t →
      ∃ s', es.foldlM (LineageService.visitEdge db org query current depth) s = .ok s' ∧
        Same db org s' ((es.map fun e => (e, neighborId current e)).foldl
          (Traversal.follow query.limits (admits db org query) depth) t) := by
  induction es with
  | nil =>
    intro s t h
    exact ⟨s, rfl, h⟩
  | cons e es ih =>
    intro s t h
    obtain ⟨s₁, hvisit, h₁⟩ := h.visitEdge hstored depth (hes mem_cons_self)
    obtain ⟨s₂, hrest, h₂⟩ := ih (fun x hx => hes (mem_cons_of_mem _ hx)) h₁
    refine ⟨s₂, ?_, h₂⟩
    rw [foldlM_cons, hvisit, ok_bind, hrest]

variable (query) in
theorem visitNode (hstored : StoredLineage db) (h : Same db org s t) (current : UUID × ℕ)
    (queue : List (UUID × ℕ)) :
    ∃ s', visitNode db org query s current queue = .ok s' ∧ Same db org s'
      (Traversal.expand query.limits (admits db org query) (links db org query) t current queue) := by
  have hpop : Same db org { s with queue, depthReached := max s.depthReached current.2 }
      { t with queue, depthReached := max t.depthReached current.2 } :=
    ⟨h.found, h.stored, h.edges, h.stored_edges, rfl, by rw [h.depthReached], h.truncated⟩
  rw [LineageService.visitNode, Traversal.expand]
  change ∃ s', (if query.maxDepth ≤ current.2 then _ else _) = _ ∧
    Same db org s' (if query.maxDepth ≤ current.2 then _ else _)
  split
  case isTrue => exact ⟨_, rfl, hpop⟩
  case isFalse =>
    exact foldlM_visitEdge hstored current.1 current.2 _ (fun _ he => he) hpop

theorem graphLoop (hstored : StoredLineage db) (fuel : ℕ) :
    ∀ {s : GraphState} {t t' : Traversal.State UUID LineageEdge}, Same db org s t →
      Traversal.loop query.limits (admits db org query) (links db org query) fuel t = some t' →
      ∃ s', graphLoop db org query fuel s = .ok (some s') ∧ Same db org s' t' := by
  induction fuel with
  | zero =>
    intro s t t' h hloop
    cases hloop
  | succ fuel ih =>
    intro s t t' h hloop
    rw [Traversal.loop, ← h.queue] at hloop
    rw [LineageService.graphLoop]
    cases hqueue : s.queue with
    | nil =>
      rw [hqueue] at hloop
      obtain rfl := Option.some.inj hloop
      exact ⟨s, rfl, h⟩
    | cons current queue =>
      rw [hqueue] at hloop
      obtain ⟨s₁, hvisit, h₁⟩ := h.visitNode query hstored current queue
      obtain ⟨s', hrest, h'⟩ := ih h₁ hloop
      refine ⟨s', ?_, h'⟩
      dsimp only
      rw [hvisit, ok_bind, hrest]

end Same

/-! ## Exactness -/

variable (db org query) in
/-- The arcs of the traversal: from a node to the other end of an edge that leaves it. -/
def arcs : List (UUID × UUID) :=
  db.lineageNodes.flatMap fun n => (links db org query n.id).map fun link => (n.id, link.2)

/-- The edge is stored in the organization and passes the filter. -/
def Admitted (db : Db) (org : UUID) (query : GraphQuery) (e : LineageEdge) : Prop :=
  e ∈ db.lineageEdges ∧ e.organizationId = org ∧
    ∀ ty ∈ query.relationshipType, e.relationshipType = ty

variable {e : LineageEdge} {b : UUID}

theorem mem_adjacentEdges {current : UUID} : e ∈ adjacentEdges db org query current ↔
      Admitted db org query e ∧ query.direction.Leaves current e := by
  rw [adjacentEdges, mem_filter, decide_eq_true_eq, Admitted]
  tauto

theorem mem_links {current : UUID} : (e, b) ∈ links db org query current ↔
    (Admitted db org query e ∧ query.direction.Leaves current e) ∧ neighborId current e = b := by
  rw [links, mem_map]
  constructor
  · rintro ⟨e', he', h⟩
    obtain ⟨rfl, rfl⟩ := Prod.mk.inj h
    exact ⟨mem_adjacentEdges.1 he', rfl⟩
  · rintro ⟨he, rfl⟩
    exact ⟨e, mem_adjacentEdges.2 he, rfl⟩

theorem ends_of_leaves {direction : Direction} {current : UUID} (h : direction.Leaves current e) :
    (current = e.toNodeId ∧ neighborId current e = e.fromNodeId) ∨
      (current = e.fromNodeId ∧ neighborId current e = e.toNodeId) := by
  rw [neighborId]
  by_cases hto : e.toNodeId = current
  · exact .inl ⟨hto.symm, if_pos hto⟩
  · rw [if_neg hto]
    cases direction with
    | upstream => exact absurd h hto
    | downstream => exact .inr ⟨h.symm, rfl⟩
    | both => exact .inr ⟨(h.resolve_right hto).symm, rfl⟩

variable (query) in
theorem mem_arcs (h : StoredLineage db) {a : UUID} :
    (a, b) ∈ arcs db org query ↔ ∃ e, (e, b) ∈ links db org query a := by
  simp only [arcs, mem_flatMap, mem_map, Prod.mk.injEq]
  constructor
  · rintro ⟨n, -, ⟨e, b⟩, hlink, rfl, rfl⟩
    exact ⟨e, hlink⟩
  · rintro ⟨e, hlink⟩
    -- the node is an end of the edge, and stored
    obtain ⟨⟨hadmitted, hleaves⟩, -⟩ := mem_links.1 hlink
    have hend : a ∈ [e.fromNodeId, e.toNodeId] := by
      rcases ends_of_leaves hleaves with ⟨rfl, -⟩ | ⟨rfl, -⟩
      · exact mem_cons_of_mem _ mem_cons_self
      · exact mem_cons_self
    obtain ⟨n, hn, rfl, -⟩ := h.ends e hadmitted.1 a hend
    exact ⟨n, hn, (e, b), hlink, rfl, rfl⟩

/-- What a traversal answers. Distances are along the arcs of the traversal. -/
structure GraphExact (db : Db) (org root : UUID) (query : GraphQuery) (g : LineageGraphRead) :
    Prop where
  root_mem : root ∈ g.nodes.map (·.id)
  stored : ∀ n ∈ g.nodes, n ∈ db.lineageNodes ∧ n.organizationId = org
  nodup : (g.nodes.map (·.id)).Nodup
  bounded : g.nodes.length ≤ query.maxNodes
  admitted : ∀ e ∈ g.edges, Admitted db org query e
  /-- Both ends of an edge are among the nodes. -/
  closed : ∀ e ∈ g.edges, e.fromNodeId ∈ g.nodes.map (·.id) ∧ e.toNodeId ∈ g.nodes.map (·.id)
  within : ∀ n ∈ g.nodes, n.id ∈ Graph.ball (arcs db org query) root query.maxDepth
  /-- Without truncation, exactly the nodes within the depth. -/
  nodes : g.truncated = false → ∀ id, id ∈ g.nodes.map (·.id) ↔
    id ∈ Graph.ball (arcs db org query) root query.maxDepth
  /-- Without truncation, exactly the edges that leave a node before the last level. -/
  edges : g.truncated = false → ∀ e, e ∈ g.edges ↔ Admitted db org query e ∧
    ∃ distance < query.maxDepth, ∃ id ∈ Graph.ball (arcs db org query) root distance,
      query.direction.Leaves id e

theorem graphExact_of_traversed {root : UUID} {s : GraphState}
    {t : Traversal.State UUID LineageEdge} (hsame : Same db org s t)
    (h : Traversal.Traversed query.limits (links db org query) root (arcs db org query) t) :
    GraphExact db org root query ⟨root, s.found, s.edges, s.truncated, s.depthReached⟩ := by
  have hlink : ∀ e ∈ t.edges, ∃ a ∈ t.found, neighborId a e ∈ t.found ∧
      Admitted db org query e ∧ query.direction.Leaves a e := by
    intro e he
    obtain ⟨a, ha, b, hb, hlink⟩ := h.closed e he
    obtain ⟨⟨hadmitted, hleaves⟩, rfl⟩ := mem_links.1 hlink
    exact ⟨a, ha, hb, hadmitted, hleaves⟩
  refine {
    root_mem := hsame.found ▸ h.root_mem
    stored := hsame.stored
    nodup := hsame.found ▸ h.nodup
    bounded := ?_
    admitted := ?_
    closed := ?_
    within := ?_
    nodes := ?_
    edges := ?_ }
  · have hbounded := h.bounded
    rwa [← hsame.found, length_map] at hbounded
  · intro e he
    obtain ⟨a, -, -, hadmitted, -⟩ := hlink e (hsame.edges ▸ he)
    exact hadmitted
  · intro e he
    obtain ⟨a, ha, hb, -, hleaves⟩ := hlink e (hsame.edges ▸ he)
    rw [← hsame.found] at ha hb
    rcases ends_of_leaves hleaves with ⟨rfl, hother⟩ | ⟨rfl, hother⟩
    · exact ⟨hother ▸ hb, ha⟩
    · exact ⟨ha, hother ▸ hb⟩
  · intro n hn
    exact h.within n.id (hsame.found ▸ mem_map_of_mem hn)
  · intro htruncated id
    have hnodes := h.nodes (hsame.truncated ▸ htruncated) id
    rwa [← hsame.found] at hnodes
  · intro htruncated e
    have hedges := h.edges (hsame.truncated ▸ htruncated) e
    rw [← hsame.edges] at hedges
    apply hedges.trans
    constructor
    · rintro ⟨n, hn, a, ha, b, hlink⟩
      obtain ⟨⟨hadmitted, hleaves⟩, -⟩ := mem_links.1 hlink
      exact ⟨hadmitted, n, hn, a, ha, hleaves⟩
    · rintro ⟨hadmitted, n, hn, a, ha, hleaves⟩
      exact ⟨n, hn, a, ha, _, mem_links.2 ⟨⟨hadmitted, hleaves⟩, rfl⟩⟩

/-- Within the limits and without a filter on the node type, the traversal from a stored root ends
after a round for each node of the budget, and is exact. -/
theorem graph_exact (hstored : StoredLineage db) {root : LineageNode}
    (hroot : root ∈ db.lineageNodes) (horg : root.organizationId = org)
    (hdepth : 1 ≤ query.maxDepth ∧ query.maxDepth ≤ maxLineageDepth)
    (hnodes : 1 ≤ query.maxNodes ∧ query.maxNodes ≤ maxLineageNodes)
    (hfilter : query.nodeType = none) {fuel : ℕ} (hfuel : query.maxNodes < fuel) :
    ∃ g, graph db org root.id query fuel = .ok (some g) ∧ GraphExact db org root.id query g := by
  have hadmits : ∀ id, admits db org query id = true := by
    intro id
    rw [admits, hfilter]
    split
    · exact decide_eq_true fun ty hty => absurd hty (Option.not_mem_none ty)
    · rfl
  have hpositive : 0 < query.limits.maxNodes := hnodes.1
  obtain ⟨t, hloop, htraversed⟩ := Traversal.exists_traversed hpositive hfuel
    hadmits fun a b => mem_arcs query hstored (a := a) (b := b)
  have hstart : Same db org ⟨[root], [], [(root.id, 0)], 0, false⟩ (Traversal.start root.id) := by
    refine ⟨rfl, ?_, rfl, fun e he => absurd he not_mem_nil, rfl, rfl, rfl⟩
    intro n hn
    rw [mem_singleton] at hn
    exact hn ▸ ⟨hroot, horg⟩
  obtain ⟨s, hgraph, hsame⟩ := Same.graphLoop hstored fuel hstart hloop
  refine ⟨⟨root.id, s.found, s.edges, s.truncated, s.depthReached⟩, ?_,
    graphExact_of_traversed hsame htraversed⟩
  rw [graph, ensure_of ⟨hdepth.1, hdepth.2, hnodes.1, hnodes.2⟩, ok_bind,
    hstored.getNode_eq hroot horg, ok_bind, hgraph]
  rfl

/-! ## A cycle of three datasets -/

namespace Triangle

/-- Three datasets of organization 1, each derived from the one before it. -/
def store : Db where
  context := ⟨[], [], [], [], [], []⟩
  rawStorageObjects := []
  lineageNodes := [⟨1, 1, .dataset, 11⟩, ⟨2, 1, .dataset, 12⟩, ⟨3, 1, .dataset, 13⟩]
  lineageEdges :=
    [⟨21, 1, 1, 2, .derivedFrom, none, "", 7⟩, ⟨22, 1, 2, 3, .derivedFrom, none, "", 7⟩,
    ⟨23, 1, 3, 1, .describes, none, "", 7⟩]
  lineageEvents := []

theorem stored : StoredLineage store := ⟨by decide, by decide, by decide⟩

theorem graph_exact_downstream : ∃ g,
    graph store 1 1 { direction := .downstream, maxDepth := 2 } 101 = .ok (some g) ∧
      GraphExact store 1 1 { direction := .downstream, maxDepth := 2 } g :=
  have hroot : (⟨1, 1, .dataset, 11⟩ : LineageNode) ∈ store.lineageNodes := by decide
  graph_exact stored hroot rfl (by decide) (by decide) rfl (by decide)

end Triangle

end Simulation

end Intel4Ops.RawLineage
