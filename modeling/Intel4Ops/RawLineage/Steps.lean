import Intel4Ops.RawLineage.Model

/-!
# Raw storage and lineage: what a committed request writes

One inversion lemma for each operation: the guards that held when it committed, and the rows it
added or rewrote. The invariants of the later modules are read off these lemmas and never unfold
an operation again.
-/

namespace Intel4Ops.RawLineage

open Lib List Service Prod

namespace LineageService

variable {db db' : Db} {org actor id : UUID}

variable {node : LineageNode}

/-- `register_node` answers with a stored node, or adds one that clashes with none. -/
theorem registerNode_ok {payload : LineageNodeCreate}
    (h : registerNode db org payload id = .ok (db', node)) :
    (db' = db ∧ node ∈ db.lineageNodes) ∨
      (∀ n ∈ db.lineageNodes, ¬ n.Clash node) ∧
        db' = { db with lineageNodes := db.lineageNodes ++ [node] } := by
  unfold registerNode at h
  split at h
  case h_1 existing hfind =>
    cases h
    exact .inl ⟨rfl, mem_of_find?_eq_some hfind⟩
  case h_2 hfind =>
    simp only [bind_eq_ok, orFail_eq_ok, pure_eq_ok, Table.insert_eq_some] at h
    obtain ⟨found, -, -, -, nodes, ⟨hfree, rfl⟩, hdb⟩ := h
    cases hdb
    exact .inr ⟨hfree, rfl⟩

/-- `create_edge` answers with the stored edge of the same identity, or adds an edge that passed
the cycle check. -/
theorem createEdge_ok {payload : LineageEdgeCreate} {edge : LineageEdge}
    (h : createEdge db org payload actor id = .ok (db', edge)) :
    checkEdge db org payload = .ok () ∧
      (db' = db ∧ findEdge db org payload = some edge ∨
        edge.organizationId = org ∧ edge.fromNodeId = payload.fromNodeId ∧
          edge.toNodeId = payload.toNodeId ∧
          edge.relationshipType = payload.relationshipType ∧
          (payload.relationshipType ∈ acyclicRelationships →
            reachable db org payload.toNodeId payload.fromNodeId = false) ∧
          (∀ e ∈ db.lineageEdges, ¬ e.Clash edge) ∧
          db'.lineageEdges = db.lineageEdges ++ [edge] ∧
          db'.lineageNodes = db.lineageNodes ∧
          db'.rawStorageObjects = db.rawStorageObjects) := by
  unfold createEdge at h
  obtain ⟨⟨⟩, hcheck, h⟩ := bind_eq_ok.1 h
  refine ⟨hcheck, ?_⟩
  split at h
  case h_1 existing hfind =>
    cases pure_eq_ok.1 h
    exact .inl ⟨rfl, hfind⟩
  case h_2 =>
    simp only [bind_eq_ok, orFail_eq_ok, ensure_eq_ok, pure_eq_ok, Table.insert_eq_some] at h
    obtain ⟨-, hcycle, edges, ⟨hfree, rfl⟩, hdb⟩ := h
    cases hdb
    refine .inr ⟨rfl, rfl, rfl, rfl, fun hacyclic => ?_, hfree, rfl, rfl, rfl⟩
    simpa [hacyclic] using hcycle

theorem registerNode_rawStorageObjects {payload : LineageNodeCreate}
    (h : registerNode db org payload id = .ok (db', node)) :
    db'.rawStorageObjects = db.rawStorageObjects := by
  obtain ⟨rfl, -⟩ | ⟨-, rfl⟩ := registerNode_ok h
  · rfl
  · rfl

theorem registerNode_lineageEdges {payload : LineageNodeCreate}
    (h : registerNode db org payload id = .ok (db', node)) :
    db'.lineageEdges = db.lineageEdges := by
  obtain ⟨rfl, -⟩ | ⟨-, rfl⟩ := registerNode_ok h
  · rfl
  · rfl

theorem createEdge_rawStorageObjects {payload : LineageEdgeCreate} {edge : LineageEdge}
    (h : createEdge db org payload actor id = .ok (db', edge)) :
    db'.rawStorageObjects = db.rawStorageObjects := by
  obtain ⟨-, ⟨rfl, -⟩ | ⟨-, -, -, -, -, -, -, -, hraw⟩⟩ := createEdge_ok h
  · rfl
  · exact hraw

theorem getNode_ok {nodeId : UUID} (h : getNode db org nodeId = .ok node) :
    node ∈ db.lineageNodes ∧ node.id = nodeId ∧ node.organizationId = org := by
  rw [getNode, orFail_eq_ok] at h
  have hid := List.find?_some h
  rw [decide_eq_true_eq] at hid
  exact ⟨mem_of_find?_eq_some h, hid⟩

/-- An edge passes the checks when its ends are two nodes of the organization. -/
theorem checkEdge_ok {payload : LineageEdgeCreate} (h : checkEdge db org payload = .ok ()) :
    (∃ n ∈ db.lineageNodes, n.id = payload.fromNodeId ∧ n.organizationId = org) ∧
      (∃ n ∈ db.lineageNodes, n.id = payload.toNodeId ∧ n.organizationId = org) ∧
        payload.fromNodeId ≠ payload.toNodeId := by
  obtain ⟨source, hsource, h⟩ := bind_eq_ok.1 h
  obtain ⟨target, htarget, h⟩ := bind_eq_ok.1 h
  obtain ⟨_, hne, -⟩ := bind_eq_ok.1 h
  have hsource := getNode_ok hsource
  have htarget := getNode_ok htarget
  refine ⟨⟨source, hsource⟩, ⟨target, htarget⟩, ?_⟩
  rw [← hsource.2.1, ← htarget.2.1]
  exact ensure_eq_ok.1 hne

end LineageService

/-! ## Stored lineage -/

/-- The keys of the lineage tables: the identifiers are unique, and the ends of an edge are nodes of
its organization. -/
structure StoredLineage (db : Db) : Prop where
  node_ids : (db.lineageNodes.map (·.id)).Nodup
  edge_ids : (db.lineageEdges.map (·.id)).Nodup
  ends : ∀ e ∈ db.lineageEdges, ∀ id ∈ [e.fromNodeId, e.toNodeId], ∃ n ∈ db.lineageNodes,
    n.id = id ∧ n.organizationId = e.organizationId

namespace StoredLineage

variable {db db' : Db} {org actor id : UUID}

theorem congr (h : StoredLineage db) (hnodes : db'.lineageNodes = db.lineageNodes)
    (hedges : db'.lineageEdges = db.lineageEdges) : StoredLineage db' where
  node_ids := hnodes ▸ h.node_ids
  edge_ids := hedges ▸ h.edge_ids
  ends := by
    intro e he
    rw [hnodes]
    exact h.ends e (hedges ▸ he)

/-- A new row with an identifier of its own. -/
theorem nodup_append {α : Type} {rows : List α} {row : α} {key : α → UUID}
    (h : (rows.map key).Nodup) (hfree : ∀ r ∈ rows, key r ≠ key row) :
    ((rows ++ [row]).map key).Nodup := by
  rw [map_append, List.nodup_append]
  refine ⟨h, nodup_singleton _, ?_⟩
  intro k hk k' hk'
  obtain ⟨r, hr, rfl⟩ := mem_map.1 hk
  rw [map_singleton, mem_singleton] at hk'
  exact hk' ▸ hfree r hr

variable {node : LineageNode} {ids : Nat → UUID}

theorem registerNode (h : StoredLineage db) {payload : LineageNodeCreate}
    (hok : LineageService.registerNode db org payload id = .ok (db', node)) :
    StoredLineage db' := by
  obtain ⟨rfl, -⟩ | ⟨hfree, rfl⟩ := LineageService.registerNode_ok hok
  · exact h
  · refine ⟨nodup_append h.node_ids fun n hn hid => hfree n hn (.inl hid), h.edge_ids, ?_⟩
    intro e he nodeId hend
    obtain ⟨n, hn, hn'⟩ := h.ends e he nodeId hend
    exact ⟨n, mem_append_left _ hn, hn'⟩

theorem createEdge (h : StoredLineage db) {payload : LineageEdgeCreate} {edge : LineageEdge}
    (hok : LineageService.createEdge db org payload actor id = .ok (db', edge)) :
    StoredLineage db' := by
  obtain ⟨hcheck, ⟨rfl, -⟩ | ⟨horg, hfrom, hto, -, -, hfree, hedges, hnodes, -⟩⟩ :=
    LineageService.createEdge_ok hok
  · exact h
  obtain ⟨⟨_, hsource⟩, ⟨_, htarget⟩, -⟩ := LineageService.checkEdge_ok hcheck
  refine ⟨hnodes ▸ h.node_ids, ?_, fun e he nodeId hend => ?_⟩
  · rw [hedges]
    exact nodup_append h.edge_ids fun e he hid => hfree e he (.inl hid)
  rw [hedges] at he
  rw [hnodes]
  rcases mem_append.1 he with he | he
  · exact h.ends e he nodeId hend
  · -- both ends of the new edge were looked up
    obtain rfl := mem_singleton.1 he
    rw [hfrom, hto] at hend
    simp only [mem_cons, not_mem_nil, or_false] at hend
    rw [horg]
    rcases hend with rfl | rfl
    · exact ⟨_, hsource⟩
    · exact ⟨_, htarget⟩

end StoredLineage

namespace LineageService

variable {db db' : Db} {org actor id : UUID} {node : LineageNode}

/-- The arcs of the derivation graph of an organization: its edges of an acyclic type. -/
def derivations (db : Db) (org : UUID) : List (UUID × UUID) :=
  (db.lineageEdges.filter fun e => e.organizationId = org ∧
    e.relationshipType ∈ acyclicRelationships).map fun e => (e.fromNodeId, e.toNodeId)

theorem derivations_congr {db db' : Db} (h : db'.lineageEdges = db.lineageEdges) (org : UUID) :
    derivations db' org = derivations db org := by
  rw [derivations, derivations, h]

theorem derivations_append {edge : LineageEdge}
    (h : db'.lineageEdges = db.lineageEdges ++ [edge]) (org : UUID) :
    derivations db' org = derivations db org ++
      if edge.organizationId = org ∧ edge.relationshipType ∈ acyclicRelationships then
        [(edge.fromNodeId, edge.toNodeId)] else [] := by
  rw [derivations, derivations, h, filter_append, map_append]
  by_cases harc : edge.organizationId = org ∧ edge.relationshipType ∈ acyclicRelationships
  · rw [if_pos harc, filter_singleton]
    simp [harc]
  · rw [if_neg harc, filter_singleton]
    simp [harc]

/-- Linking a registered object leaves the objects and the derivation graph as they were. -/
structure Unlinked (db db' : Db) : Prop where
  stored : StoredLineage db → StoredLineage db'
  rawStorageObjects : db'.rawStorageObjects = db.rawStorageObjects
  derivations : ∀ org, derivations db' org = derivations db org

theorem Unlinked.trans {db db' db'' : Db} (h : Unlinked db db') (h' : Unlinked db' db'') :
    Unlinked db db'' where
  stored := h'.stored ∘ h.stored
  rawStorageObjects := h'.rawStorageObjects.trans h.rawStorageObjects
  derivations org := (h'.derivations org).trans (h.derivations org)

theorem registerNode_unlinked {payload : LineageNodeCreate}
    (h : registerNode db org payload id = .ok (db', node)) : Unlinked db db' where
  stored hstored := hstored.registerNode h
  rawStorageObjects := registerNode_rawStorageObjects h
  derivations org := derivations_congr (registerNode_lineageEdges h) org

theorem createEdge_unlinked {payload : LineageEdgeCreate} {edge : LineageEdge}
    (h : createEdge db org payload actor id = .ok (db', edge))
    (hty : payload.relationshipType ∉ acyclicRelationships) : Unlinked db db' where
  stored hstored := hstored.createEdge h
  rawStorageObjects := createEdge_rawStorageObjects h
  derivations org' := by
    obtain ⟨-, ⟨rfl, -⟩ | ⟨-, -, -, htype, -, -, hedges, -, -⟩⟩ := createEdge_ok h
    · rfl
    · rw [derivations_append hedges, if_neg (by simp [htype, hty]), append_nil]

end LineageService

namespace RawStorageObjectService

open LineageService

variable {db db' : Db} {org actor : UUID} {item : RawStorageObject}

theorem integrityAsConflict_ok {α : Type} {result : Except RawLineageError α} {a : α} :
    integrityAsConflict result = .ok a ↔ result = .ok a := by
  unfold integrityAsConflict
  split
  case h_1 => simp
  case h_2 => rfl

variable {ids : Nat → UUID}

theorem linkObject_unlinked {sourceId batchId datasetId versionId objectId : UUID}
    (h : linkObject db org actor ids sourceId batchId datasetId versionId objectId = .ok db') :
    Unlinked db db' := by
  unfold linkObject at h
  obtain ⟨⟨db1, source⟩, h1, h⟩ := bind_eq_ok.1 h
  obtain ⟨⟨db2, batch⟩, h2, h⟩ := bind_eq_ok.1 h
  obtain ⟨⟨db3, dataset⟩, h3, h⟩ := bind_eq_ok.1 h
  obtain ⟨⟨db4, version⟩, h4, h⟩ := bind_eq_ok.1 h
  obtain ⟨⟨db5, raw⟩, h5, h⟩ := bind_eq_ok.1 h
  obtain ⟨⟨db6, edge6⟩, h6, h⟩ := bind_eq_ok.1 h
  obtain ⟨⟨db7, edge7⟩, h7, h⟩ := bind_eq_ok.1 h
  obtain ⟨⟨db8, edge8⟩, h8, h⟩ := bind_eq_ok.1 h
  obtain ⟨⟨db9, edge9⟩, h9, h⟩ := bind_eq_ok.1 h
  obtain rfl := pure_eq_ok.1 h
  have hnodes : Unlinked db db5 :=
    (registerNode_unlinked h1).trans <| (registerNode_unlinked h2).trans <|
      (registerNode_unlinked h3).trans <| (registerNode_unlinked h4).trans <|
        registerNode_unlinked h5
  have hedges : Unlinked db5 db9 :=
    (createEdge_unlinked h6 (by simp [acyclicRelationships])).trans <|
      (createEdge_unlinked h7 (by simp [acyclicRelationships])).trans <|
        (createEdge_unlinked h8 (by simp [acyclicRelationships])).trans <|
          createEdge_unlinked h9 (by simp [acyclicRelationships])
  exact hnodes.trans hedges

/-- `register` answers with a stored object, or adds a new one in its initial state. -/
theorem register_ok {payload : RawStorageObjectCreate}
    (h : register db org payload actor ids = .ok (db', item)) :
    db' = db ∨
      item = newObject org payload actor (ids 0) ∧
        (∀ o ∈ db.rawStorageObjects, ¬ o.Clash item) ∧
        db'.rawStorageObjects = db.rawStorageObjects ++ [item] ∧
        (StoredLineage db → StoredLineage db') ∧
        ∀ org', derivations db' org' = derivations db org' := by
  unfold register at h
  obtain ⟨anchors, -, h⟩ := bind_eq_ok.1 h
  split at h
  case h_1 existing hfind =>
    obtain ⟨-, -, h⟩ := bind_eq_ok.1 h
    simp only [pure_eq_ok, mk.injEq] at h
    exact .inl h.1.symm
  case h_2 =>
    unfold registerNew at h
    obtain ⟨-, -, h⟩ := bind_eq_ok.1 h
    obtain ⟨-, -, h⟩ := bind_eq_ok.1 h
    obtain ⟨-, -, h⟩ := bind_eq_ok.1 h
    rw [integrityAsConflict_ok] at h
    simp only [bind_eq_ok, orFail_eq_ok, Table.insert_eq_some, pure_eq_ok] at h
    obtain ⟨objects, ⟨hfree, rfl⟩, db1, hlink, hdb⟩ := h
    cases hdb
    have hun := linkObject_unlinked hlink
    exact .inr ⟨rfl, hfree, hun.rawStorageObjects,
      fun hstored => (hun.stored (hstored.congr rfl rfl)).congr rfl rfl, hun.derivations⟩

theorem get_ok {rawObjectId : UUID} (h : get db org rawObjectId = .ok item) :
    item ∈ db.rawStorageObjects ∧ item.id = rawObjectId ∧ item.organizationId = org := by
  rw [get, orFail_eq_ok] at h
  have hid := List.find?_some h
  simp only [decide_eq_true_eq] at hid
  exact ⟨mem_of_find?_eq_some h, hid⟩

end RawStorageObjectService

/-- The rewrites of a raw object's row, each with the guards under which a request makes it. -/
inductive ObjectWrite (call : Call) (item : RawStorageObject) :
    (RawStorageObject → RawStorageObject) → Prop
  | move (target : RawObjectStatus) (summary : Option String)
      (hreq : call.request = .transition item.id target summary)
      (hmove : target ∈ RawStorageObjectService.transitions item.status)
      (hseal : target = .sealed → item.integrityStatus = .verified)
      (hhold : target = .deletionRequested → item.legalHold = false) :
      ObjectWrite call item (RawStorageObjectService.moveTo target call.now)
  | verify (matched : Bool)
      (hstatus : item.status ∈ [RawObjectStatus.received, .verifying, .quarantined]) :
      ObjectWrite call item (RawStorageObjectService.verdict matched call.now)
  | hold (reason : String) : ObjectWrite call item (RawStorageObjectService.hold reason)
  | unhold : ObjectWrite call item RawStorageObjectService.unhold

/-- A rewrite of an object's row keeps its identifier. -/
theorem ObjectWrite.id_eq {call : Call} {item : RawStorageObject}
    {f : RawStorageObject → RawStorageObject} (h : ObjectWrite call item f)
    (o : RawStorageObject) : (f o).id = o.id := by
  cases h with
  | move | verify | hold | unhold => rfl

/-- What one committed request does to the raw objects. -/
inductive ObjectStep (db : Db) (call : Call) (db' : Db) : Prop
  | keep (hraw : db'.rawStorageObjects = db.rawStorageObjects)
  | register (payload : RawStorageObjectCreate)
      (item : RawStorageObject)
      (hitem : item = RawStorageObjectService.newObject call.organizationId payload
        call.actorUserId (call.ids 0))
      (hfree : ∀ o ∈ db.rawStorageObjects, ¬ o.Clash item)
      (hraw : db'.rawStorageObjects = db.rawStorageObjects ++ [item])
  | write (item : RawStorageObject) (f : RawStorageObject → RawStorageObject)
      (hmem : item ∈ db.rawStorageObjects) (horg : item.organizationId = call.organizationId)
      (hwrite : ObjectWrite call item f)
      (hraw : db'.rawStorageObjects = Table.update (·.id = item.id) f db.rawStorageObjects)

open LineageService

/-- What one committed request does to the lineage: it keeps its keys, and it keeps the derivation
graph of an organization or adds one arc whose head does not find its tail. -/
structure LineageStep (db db' : Db) : Prop where
  stored : StoredLineage db → StoredLineage db'
  derivations : ∀ org, derivations db' org = derivations db org ∨
    ∃ u v, u ≠ v ∧ reachable db org v u = false ∧
      derivations db' org = derivations db org ++ [(u, v)]

theorem LineageStep.of_eq {db db' : Db} (hnodes : db'.lineageNodes = db.lineageNodes)
    (hedges : db'.lineageEdges = db.lineageEdges) : LineageStep db db' where
  stored hstored := hstored.congr hnodes hedges
  derivations org := .inl (derivations_congr hedges org)

theorem createEdge_lineageStep {db db' : Db} {org actor id : UUID} {payload : LineageEdgeCreate}
    {edge : LineageEdge} (h : createEdge db org payload actor id = .ok (db', edge)) :
    LineageStep db db' := by
  refine ⟨fun hstored => hstored.createEdge h, fun org' => ?_⟩
  obtain ⟨hcheck, ⟨rfl, -⟩ | ⟨horg, hfrom, hto, htype, hcycle, -, hedges, -, -⟩⟩ := createEdge_ok h
  · exact .inl rfl
  rw [derivations_append hedges]
  by_cases harc : edge.organizationId = org' ∧ edge.relationshipType ∈ acyclicRelationships
  · refine .inr ⟨payload.fromNodeId, payload.toNodeId, (checkEdge_ok hcheck).2.2, ?_, ?_⟩
    · rw [← harc.1, horg]
      exact hcycle (htype ▸ harc.2)
    · rw [if_pos harc, hfrom, hto]
  · rw [if_neg harc, append_nil]
    exact .inl rfl

open RawStorageObjectService in
theorem serve_step {db db' : Db} {call : Call} {r : Reply}
    (h : serve db call = .ok (db', r)) : ObjectStep db call db' ∧ LineageStep db db' := by
  unfold serve at h
  split at h
  case h_1 payload hreq =>
    obtain ⟨node, h, -⟩ := reply_ok h
    have hun := registerNode_unlinked h
    exact ⟨.keep hun.rawStorageObjects, hun.stored, fun org => .inl (hun.derivations org)⟩
  case h_2 payload hreq =>
    obtain ⟨edge, h, -⟩ := reply_ok h
    exact ⟨.keep (createEdge_rawStorageObjects h), createEdge_lineageStep h⟩
  case h_3 payload hreq =>
    obtain ⟨item, h, -⟩ := reply_ok h
    obtain rfl | ⟨hitem, hfree, hraw, hstored, hsame⟩ := register_ok h
    · exact ⟨.keep rfl, .of_eq rfl rfl⟩
    · exact ⟨.register payload item hitem hfree hraw, hstored, fun org => .inl (hsame org)⟩
  case h_4 rawObjectId target summary hreq =>
    obtain ⟨reply, h, -⟩ := reply_ok h
    obtain ⟨item, hget, h⟩ := bind_eq_ok.1 h
    simp only [bind_eq_ok, ensure_eq_ok, pure_eq_ok, mk.injEq] at h
    obtain ⟨-, hmove, -, hseal, -, hhold, rfl, -⟩ := h
    obtain ⟨hmem, rfl, horg⟩ := get_ok hget
    refine ⟨.write item _ hmem horg (.move target summary hreq hmove ?_ ?_) rfl, .of_eq rfl rfl⟩
    · simpa using hseal
    · simpa using hhold
  case h_5 rawObjectId payload hreq =>
    obtain ⟨reply, h, -⟩ := reply_ok h
    obtain ⟨item, hget, h⟩ := bind_eq_ok.1 h
    simp only [bind_eq_ok, ensure_eq_ok, pure_eq_ok, mk.injEq] at h
    obtain ⟨-, hstatus, rfl, -⟩ := h
    obtain ⟨hmem, rfl, horg⟩ := get_ok hget
    exact ⟨.write item _ hmem horg (.verify _ hstatus) rfl, .of_eq rfl rfl⟩
  case h_6 rawObjectId reason hreq =>
    obtain ⟨reply, h, -⟩ := reply_ok h
    obtain ⟨item, hget, h⟩ := bind_eq_ok.1 h
    cases pure_eq_ok.1 h
    obtain ⟨hmem, rfl, horg⟩ := get_ok hget
    exact ⟨.write item _ hmem horg (.hold reason) rfl, .of_eq rfl rfl⟩
  case h_7 rawObjectId hreq =>
    obtain ⟨reply, h, -⟩ := reply_ok h
    obtain ⟨item, hget, h⟩ := bind_eq_ok.1 h
    cases pure_eq_ok.1 h
    obtain ⟨hmem, rfl, horg⟩ := get_ok hget
    exact ⟨.write item _ hmem horg .unhold rfl, .of_eq rfl rfl⟩
  case h_8 context hreq =>
    cases h
    exact ⟨.keep rfl, .of_eq rfl rfl⟩

end Intel4Ops.RawLineage
