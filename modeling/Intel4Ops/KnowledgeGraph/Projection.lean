import Intel4Ops.KnowledgeGraph.Snapshot

/-!
# Projections

What a projection adds to an organization that has no graph yet, and what holds whenever one goes
through: the execution belongs to the organization, and nothing was metered before under the
identifier that is still pending.
-/

namespace Intel4Ops.KnowledgeGraph

open Lib List Table Prod

variable {env : Env} {db db' : Db} {version : KnowledgeGraphVersion} {org : UUID}

/-! ## Added rows -/

/-- The organization has no rows. -/
structure Unused (db : Db) (org : UUID) : Prop where
  versions : ∀ v ∈ db.versions, v.organizationId ≠ org
  nodes : ∀ n ∈ db.nodes, n.organizationId ≠ org
  edges : ∀ e ∈ db.edges, e.organizationId ≠ org
  evidence : ∀ r ∈ db.evidence, r.organizationId ≠ org
  usageEvents : ∀ u ∈ db.usageEvents, u.organizationId ≠ org

/-- The identifiers of versions and of edges with evidence come from the supply. -/
structure Drawn (db : Db) : Prop where
  versions : ∀ v ∈ db.versions, v.id < db.nextId
  evidence : ∀ r ∈ db.evidence, r.edgeId < db.nextId

/-- The rows of a graph in a version. -/
structure Graph.In (g : Graph) (version : KnowledgeGraphVersion) : Prop where
  nodes : ∀ n ∈ g.nodes, n.In version.organizationId version.id
  edges : ∀ e ∈ g.edges, e.In version.organizationId version.id
  evidence : ∀ r ∈ g.evidence, r.In version.organizationId version.id

/-- The rows of a graph are added to those that are there. -/
structure Holds (db db' : Db) (g : Graph) : Prop where
  nodes : db'.nodes = db.nodes ++ g.nodes
  edges : db'.edges = db.edges ++ g.edges
  evidence : db'.evidence = db.evidence ++ g.evidence

theorem filter_new {α : Type} {p : α → Prop} [DecidablePred p] {rows new : List α}
    (hrows : ∀ r ∈ rows, ¬ p r) (hnew : ∀ r ∈ new, p r) : (rows ++ new).filter (p ·) = new := by
  have hnone : rows.filter (p ·) = [] :=
    filter_eq_nil_iff.2 fun r hr hp => hrows r hr (of_decide_eq_true hp)
  rw [filter_append, hnone, nil_append, filter_eq_self]
  exact fun r hr => decide_eq_true (hnew r hr)

theorem filter_others {α : Type} {p : α → Prop} [DecidablePred p] {rows new : List α}
    (hnew : ∀ r ∈ new, ¬ p r) : (rows ++ new).filter (p ·) = rows.filter (p ·) := by
  have hnone : new.filter (p ·) = [] :=
    filter_eq_nil_iff.2 fun r hr hp => hnew r hr (of_decide_eq_true hp)
  rw [filter_append, hnone, append_nil]

theorem Holds.graphOf_eq {g : Graph} (h : Holds db db' g) (hunused : Unused db version.organizationId)
    (hin : g.In version) : graphOf db' version = g := by
  have hnodes : nodesOf db' version = g.nodes := by
    rw [nodesOf, h.nodes]
    exact filter_new (fun n hn hp => hunused.nodes n hn hp.1) hin.nodes
  have hedges : edgesOf db' version = g.edges := by
    rw [edgesOf, h.edges]
    exact filter_new (fun e he hp => hunused.edges e he hp.1) hin.edges
  have hevidence : evidenceOf db' version = g.evidence := by
    rw [evidenceOf, h.evidence]
    exact filter_new (fun r hr hp => hunused.evidence r hr hp.1) hin.evidence
  rw [graphOf, hnodes, hedges, hevidence]

theorem Holds.graphOf_other {g : Graph} (h : Holds db db' g) (hin : g.In version)
    {other : KnowledgeGraphVersion} (hother : other.organizationId ≠ version.organizationId) :
    graphOf db' other = graphOf db other := by
  have hnodes : nodesOf db' other = nodesOf db other := by
    rw [nodesOf, h.nodes]
    exact filter_others fun n hn hp => hother (hp.1.symm.trans (hin.nodes n hn).1)
  have hedges : edgesOf db' other = edgesOf db other := by
    rw [edgesOf, h.edges]
    exact filter_others fun e he hp => hother (hp.1.symm.trans (hin.edges e he).1)
  have hevidence : evidenceOf db' other = evidenceOf db other := by
    rw [evidenceOf, h.evidence]
    exact filter_others fun r hr hp => hother (hp.1.symm.trans (hin.evidence r hr).1)
  rw [graphOf, hnodes, hedges, hevidence]
  rfl

/-! ## The first projection -/

/-- The execution that a finding names belongs to the organization. -/
def ReferenceValid (context : Context) (org : UUID) (finding : Finding) : Prop :=
  ∀ id ∈ finding.signatureExecutionId, ∃ x ∈ context.executions, x.id = id ∧ x.organizationId = org

instance (context : Context) (org : UUID) (finding : Finding) :
    Decidable (ReferenceValid context org finding) :=
  inferInstanceAs (Decidable (∀ _ ∈ _, _))

theorem ReferenceValid.find?_isSome {context : Context} {finding : Finding} {id : UUID}
    (h : ReferenceValid context org finding) (hid : finding.signatureExecutionId = some id) :
    ∃ x, context.executions.find? (fun x => x.id = id ∧ x.organizationId = org) = some x ∧
      x.id = id := by
  obtain ⟨x, hx, hmatch⟩ := h id hid
  cases hfound : context.executions.find? fun x => x.id = id ∧ x.organizationId = org with
  | none => exact absurd (decide_eq_true hmatch) (List.find?_eq_none.1 hfound x hx)
  | some x => exact ⟨x, rfl, (find?_spec hfound).2.1⟩

theorem addVersion_ok (h : Unused db org) (actor : UUID) : addVersion db org actor =
    .ok ({ db with versions := db.versions ++ [newVersion db org actor], nextId := db.nextId + 1 },
      newVersion db org actor) := by
  have hinsert : insert (fun v w : KnowledgeGraphVersion =>
      v.organizationId = w.organizationId ∧ v.version = w.version) (newVersion db org actor)
      db.versions = some (db.versions ++ [newVersion db org actor]) :=
    insert_eq_some.2 ⟨fun v hv hsame => h.versions v hv hsame.1, rfl⟩
  rw [addVersion, hinsert]
  rfl

theorem nextVersion_unused (h : Unused db org) : nextVersion db org = 1 := by
  have hnone : db.versions.filter (·.organizationId = org) = [] :=
    filter_eq_nil_iff.2 fun v hv heq => h.versions v hv (of_decide_eq_true heq)
  rw [nextVersion, hnone]
  rfl

theorem activeVersion_unused (h : Unused db org) : activeVersion db org = none :=
  List.find?_eq_none.2 fun v hv heq => h.versions v hv (of_decide_eq_true heq).1

theorem addNode_ok (db : Db) (row : KnowledgeGraphNode)
    (hnew : ∀ n ∈ db.nodes, n.organizationId = row.organizationId → n.ref ≠ row.ref) :
    addNode db row = .ok
      ({ db with nodes := db.nodes ++ [{ row with id := db.nextId }], nextId := db.nextId + 1 },
        { row with id := db.nextId }) := by
  have hinsert : insert SameReference { row with id := db.nextId } db.nodes =
      some (db.nodes ++ [{ row with id := db.nextId }]) := by
    refine insert_eq_some.2 ⟨fun n hn hsame => ?_, rfl⟩
    obtain ⟨⟨horg, -⟩, -, hregistry, hobject, -⟩ := hsame
    exact hnew n hn horg (Prod.ext hregistry hobject)
  rw [addNode, hinsert]
  rfl

theorem addEdge_ok (db : Db) (row : KnowledgeGraphEdge) (hends : row.fromNodeId ≠ row.toNodeId)
    (hnew : ∀ e ∈ db.edges, e.organizationId ≠ row.organizationId) :
    addEdge db row = .ok
      ({ db with edges := db.edges ++ [{ row with id := db.nextId }], nextId := db.nextId + 1 },
        { row with id := db.nextId }) := by
  have hinsert : insert SameIdentity { row with id := db.nextId } db.edges =
      some (db.edges ++ [{ row with id := db.nextId }]) :=
    insert_eq_some.2 ⟨fun e he hsame => hnew e he hsame.1.1, rfl⟩
  rw [addEdge, ensure_of hends, hinsert]
  rfl

theorem findNode_eq_none {registry : SourceRegistry} {objectId : UUID}
    (h : ∀ n ∈ db.nodes, n.organizationId = version.organizationId → n.sourceRegistry ≠ registry) :
    findNode db version registry objectId = none := by
  refine List.find?_eq_none.2 fun n hn hmatch => ?_
  obtain ⟨hin, hregistry, -⟩ := of_decide_eq_true hmatch
  exact h n hn hin.1 hregistry

/-- The tables before a version is published, with the graph that was built. -/
structure Built (env : Env) (db built : Db) (version : KnowledgeGraphVersion) (o : Observation)
    (g : Graph) : Prop where
  holds : Holds db built g
  within : g.In version
  objects : g.ShowsObjects (Observed [o])
  pairs : g.ShowsPairs env (Linked [o])
  versions : built.versions = db.versions ++ [version]
  changes : built.changes = db.changes
  usageEvents : built.usageEvents = db.usageEvents
  supply : db.nextId < built.nextId
  drawn : ∀ r ∈ g.evidence, r.edgeId < built.nextId

theorem projectExecution_first (env : Env) (db : Db) (x : OperationalSignatureExecution) (count : ℕ)
    (hnodes : ∀ n ∈ db.nodes, n.organizationId = version.organizationId →
      n.sourceRegistry ≠ .operationalSignatureExecutions) :
    projectExecution env db version x count = .ok
      ({ db with
          nodes := db.nodes ++ [{ x.newNode env version with id := db.nextId }]
          nextId := db.nextId + 1 },
        { x.newNode env version with id := db.nextId }, count + 1) := by
  rw [projectExecution, findNode_eq_none hnodes]
  dsimp only
  have hadd := addNode_ok db (x.newNode env version) fun n hn heq href =>
    hnodes n hn heq (congrArg fst href)
  rw [hadd]
  rfl

theorem projectEdge_first (env : Env) (db : Db) (finding : Finding) (fingerprint : String)
    (x : OperationalSignatureExecution) {m node : KnowledgeGraphNode} (actor : UUID)
    (hedges : ∀ e ∈ db.edges, e.organizationId ≠ version.organizationId)
    (hevidence : ∀ r ∈ db.evidence, r.edgeId < db.nextId) (hends : m.id ≠ node.id) :
    projectEdge env db version finding fingerprint x m node actor 0 = .ok
      ({ db with
          edges := db.edges ++
            [{ newEdge env version finding fingerprint m node actor with id := db.nextId }]
          evidence := db.evidence ++ [newEvidence version finding x db.nextId]
          nextId := db.nextId + 1 }, 1) := by
  have hnone : (db.edges.find? fun e => e.In version.organizationId version.id ∧
      e.relationshipTypeVersionId = env.producedFinding ∧
      e.fromNodeId = m.id ∧ e.toNodeId = node.id) = none :=
    List.find?_eq_none.2 fun e he hmatch => hedges e he (of_decide_eq_true hmatch).1.1
  have hadd := addEdge_ok db (newEdge env version finding fingerprint m node actor) hends hedges
  have hrow : insert SameEvidence (newEvidence version finding x db.nextId) db.evidence =
      some (db.evidence ++ [_]) :=
    insert_eq_some.2 ⟨fun r hr hsame => absurd hsame.1 (hevidence r hr).ne, rfl⟩
  rw [projectEdge, hnone]
  dsimp only
  rw [hadd, ok_bind]
  dsimp only
  rw [addEvidence]
  dsimp only
  rw [hrow]
  rfl

/-- The tables with a new version and the node of its finding. -/
def Db.started (db : Db) (version : KnowledgeGraphVersion) (node : KnowledgeGraphNode) : Db :=
  { db with
    versions := db.versions ++ [version], nodes := db.nodes ++ [node], nextId := db.nextId + 2 }

theorem projectNew_first (env : Env) (context : Context) (payload : FindingProjectionCreate)
    (now : Instant)
    (hdrawn : Drawn db) (h : Unused db org) {finding : Finding} (fingerprint : String)
    (actor : UUID) (hreference : ReferenceValid context org finding) :
    ∃ built node g, projectNew false env context db org payload finding fingerprint actor now =
        publish false built org payload now none (newVersion db org actor) finding fingerprint node
          g.nodes.length g.edges.length ∧
      Built env db built (newVersion db org actor) finding.observation g := by
  generalize hversion : newVersion db org actor = version
  have horg : version.organizationId = org := by rw [← hversion]; rfl
  generalize hnode : ({ finding.newNode env version fingerprint with id := db.nextId + 1 } :
    KnowledgeGraphNode) = node
  have href : node.ref = (.findings, finding.id) := by rw [← hnode]; rfl
  have hin : node.In version.organizationId version.id := by rw [← hnode]; exact ⟨rfl, rfl⟩
  -- Every projection adds the version and the node of the finding.
  have hnew : projectNew false env context db org payload finding fingerprint actor now =
      projectProducer env context (db.started version node) version finding fingerprint node actor
        1 0 >>= fun built => publish false built.1 org payload now none version finding fingerprint
          node built.2.1 built.2.2 := by
    have hadd : addNode { db with versions := db.versions ++ [version], nextId := db.nextId + 1 }
        (finding.newNode env version fingerprint) = .ok (db.started version node, node) := by
      rw [← hnode]
      exact addNode_ok _ _ fun n hn heq => absurd (heq.trans horg) (h.nodes n hn)
    have hnone : findNode { db with versions := db.versions ++ [version], nextId := db.nextId + 1 }
        version .findings finding.id = none :=
      findNode_eq_none fun n hn heq => absurd (heq.trans horg) (h.nodes n hn)
    rw [projectNew, addVersion_ok h, activeVersion_unused h, hversion]
    dsimp only
    rw [ok_bind]
    dsimp only
    rw [cloneActiveSnapshot, ok_bind]
    dsimp only
    rw [projectNode, hnone]
    dsimp only
    rw [hadd]
    rfl
  cases hexecution : finding.signatureExecutionId with
  | none =>
    refine ⟨db.started version node, node, ⟨[node], [], []⟩, ?_,
      ⟨rfl, (append_nil _).symm, (append_nil _).symm⟩, ⟨by simpa using hin, by simp,
        by simp⟩, ?_, ?_, rfl, rfl, rfl, Nat.lt_add_of_pos_right (by omega), by simp⟩
    · rw [hnew, projectProducer, hexecution]
      rfl
    · rw [Finding.observation, hexecution]
      exact showsObjects_finding href
    · rw [Finding.observation, hexecution]
      exact showsPairs_finding
  | some id =>
    obtain ⟨x, hfound, rfl⟩ := hreference.find?_isSome hexecution
    rw [← horg] at hfound
    generalize hproducer : ({ x.newNode env version with id := db.nextId + 2 } :
      KnowledgeGraphNode) = m
    generalize hedge : ({ newEdge env version finding fingerprint m node actor with
      id := db.nextId + 3 } : KnowledgeGraphEdge) = e
    generalize hrow : newEvidence version finding x (db.nextId + 3) = r
    have hm : m.ref = (.operationalSignatureExecutions, x.id) := by rw [← hproducer]; rfl
    have hproject : projectProducer env context (db.started version node) version finding
        fingerprint node actor 1 0 = .ok ({ db with
          versions := db.versions ++ [version], nodes := db.nodes ++ [node] ++ [m]
          edges := db.edges ++ [e], evidence := db.evidence ++ [r], nextId := db.nextId + 4 },
          2, 1) := by
      have hnodes : ∀ n ∈ db.nodes ++ [node], n.organizationId = version.organizationId →
          n.sourceRegistry ≠ .operationalSignatureExecutions := by
        intro n hn heq
        rcases mem_append.1 hn with hn | hn
        · exact absurd (heq.trans horg) (h.nodes n hn)
        · rw [mem_singleton.1 hn, ← hnode]
          simp [Finding.newNode]
      have hends : m.id ≠ node.id := by rw [← hproducer, ← hnode]; simp
      have hexecute := projectExecution_first env (db.started version node) x 1 hnodes
      have hjoin := projectEdge_first env { db with
          versions := db.versions ++ [version], nodes := db.nodes ++ [node] ++ [m]
          nextId := db.nextId + 3 } finding fingerprint x actor
        (fun e he heq => h.edges e he (heq.trans horg))
        (fun r hr => (hdrawn.evidence r hr).trans (Nat.lt_add_of_pos_right (by omega))) hends
      rw [projectProducer, hexecution]
      dsimp only
      rw [hfound, orFail_some, ok_bind, hexecute, ok_bind]
      dsimp only [Db.started]
      rw [hproducer, hjoin, hedge, hrow]
      rfl
    have hin' : m.In version.organizationId version.id ∧ e.In version.organizationId version.id ∧
        r.In version.organizationId version.id := by
      rw [← hproducer, ← hedge, ← hrow]
      exact ⟨⟨rfl, rfl⟩, ⟨rfl, rfl⟩, ⟨rfl, rfl⟩⟩
    refine ⟨{ db with
        versions := db.versions ++ [version], nodes := db.nodes ++ [node] ++ [m]
        edges := db.edges ++ [e], evidence := db.evidence ++ [r], nextId := db.nextId + 4 },
      node, ⟨[node, m], [e], [r]⟩, by rw [hnew, hproject]; rfl, ⟨append_assoc .., rfl, rfl⟩,
      ⟨by simp [hin, hin'.1], by simp [hin'.2.1],
        by simp [hin'.2.2]⟩, ?_, ?_, rfl, rfl, rfl, Nat.lt_add_of_pos_right (by omega), ?_⟩
    · rw [Finding.observation, hexecution]
      exact showsObjects_produced href hm _ _
    · rw [Finding.observation, hexecution]
      refine showsPairs_produced href hm ?_ ?_ ?_ ?_
      all_goals
        simp only [← hedge, ← hrow]
        rfl
    · rw [← hrow]
      simp [newEvidence]

/-! ## Projections that go through -/

theorem foldlM_keeps {ε σ α : Type} {f : σ → α → Except ε σ} {P : σ → Prop}
    (hstep : ∀ s a s', f s a = .ok s' → P s → P s') {rows : List α} {s s' : σ}
    (h : rows.foldlM f s = .ok s') (hs : P s) : P s' := by
  induction rows generalizing s with
  | nil => exact pure_eq_ok.1 h ▸ hs
  | cons a rows ih =>
    obtain ⟨next, hnext, hrest⟩ := bind_eq_ok.1 h
    exact ih hrest (hstep s a next hnext hs)

variable {node : KnowledgeGraphNode} {finding : Finding} {fingerprint : String} {actor : UUID}
  {context : Context} {nodes nodes' edges edges' : ℕ}

theorem addNode_usageEvents {row : KnowledgeGraphNode} (h : addNode db row = .ok (db', node)) :
    db'.usageEvents = db.usageEvents := by
  obtain ⟨_, -, h⟩ := bind_eq_ok.1 h
  rw [← (mk.inj (pure_eq_ok.1 h)).1]

theorem addEdge_usageEvents {row edge : KnowledgeGraphEdge} (h : addEdge db row = .ok (db', edge)) :
    db'.usageEvents = db.usageEvents := by
  obtain ⟨_, -, h⟩ := bind_eq_ok.1 h
  obtain ⟨_, -, h⟩ := bind_eq_ok.1 h
  rw [← (mk.inj (pure_eq_ok.1 h)).1]

theorem addEvidence_usageEvents {row : KnowledgeGraphEdgeEvidence}
    (h : addEvidence db row = .ok db') : db'.usageEvents = db.usageEvents := by
  obtain ⟨_, -, h⟩ := bind_eq_ok.1 h
  rw [← pure_eq_ok.1 h]

theorem cloneActiveSnapshot_usageEvents {previous : KnowledgeGraphVersion}
    (h : cloneActiveSnapshot db (some previous) version = .ok (db', nodes, edges)) :
    db'.usageEvents = db.usageEvents ∧ nodes = (nodesOf db previous).length := by
  obtain ⟨⟨db₁, _⟩, hnodes, h⟩ := bind_eq_ok.1 h
  obtain ⟨⟨db₂, _⟩, hedges, h⟩ := bind_eq_ok.1 h
  obtain ⟨db₃, hevidence, h⟩ := bind_eq_ok.1 h
  obtain ⟨rfl, hcounts⟩ := mk.inj (pure_eq_ok.1 h)
  refine ⟨?_, (mk.inj hcounts).1.symm⟩
  have h₁ : db₁.usageEvents = db.usageEvents := foldlM_keeps
    (P := fun s => s.1.usageEvents = db.usageEvents) (fun s a s' hstep hs => by
      obtain ⟨⟨_, _⟩, hadd, hstep⟩ := bind_eq_ok.1 hstep
      rw [← pure_eq_ok.1 hstep]
      exact (addNode_usageEvents hadd).trans hs) hnodes rfl
  have h₂ : db₂.usageEvents = db.usageEvents := foldlM_keeps
    (P := fun s => s.1.usageEvents = db.usageEvents) (fun s a s' hstep hs => by
      obtain ⟨_, -, hstep⟩ := bind_eq_ok.1 hstep
      obtain ⟨_, -, hstep⟩ := bind_eq_ok.1 hstep
      obtain ⟨⟨_, _⟩, hadd, hstep⟩ := bind_eq_ok.1 hstep
      rw [← pure_eq_ok.1 hstep]
      exact (addEdge_usageEvents hadd).trans hs) hedges h₁
  exact foldlM_keeps (P := fun s => s.usageEvents = db.usageEvents) (fun s a s' hstep hs => by
      obtain ⟨_, -, hadd⟩ := bind_eq_ok.1 hstep
      exact (addEvidence_usageEvents hadd).trans hs) hevidence h₂

theorem projectNode_usageEvents
    (h : projectNode env db version finding fingerprint nodes = .ok (db', node, nodes')) :
    db'.usageEvents = db.usageEvents ∧ nodes ≤ nodes' := by
  unfold projectNode at h
  split at h
  · obtain ⟨⟨_, _⟩, hadd, h⟩ := bind_eq_ok.1 h
    obtain ⟨rfl, hrest⟩ := mk.inj (pure_eq_ok.1 h)
    exact ⟨addNode_usageEvents hadd, (mk.inj hrest).2 ▸ Nat.le_succ nodes⟩
  · obtain ⟨rfl, hrest⟩ := mk.inj (pure_eq_ok.1 h)
    exact ⟨rfl, (mk.inj hrest).2.le⟩

theorem projectProducer_usageEvents (h : projectProducer env context db version finding fingerprint
      node actor nodes edges = .ok (db', nodes', edges')) :
    db'.usageEvents = db.usageEvents ∧ nodes ≤ nodes' ∧
      ReferenceValid context version.organizationId finding := by
  unfold projectProducer at h
  split at h
  · next hnone =>
    obtain ⟨rfl, hrest⟩ := mk.inj (Except.ok.inj h)
    refine ⟨rfl, (mk.inj hrest).1.le, fun id hid => ?_⟩
    rw [hnone] at hid
    cases hid
  · next id hsome =>
    obtain ⟨x, hfound, h⟩ := bind_eq_ok.1 h
    obtain ⟨⟨db₁, m, nodes₁⟩, hexecution, h⟩ := bind_eq_ok.1 h
    obtain ⟨⟨db₂, edges₂⟩, hedge, h⟩ := bind_eq_ok.1 h
    obtain ⟨rfl, hrest⟩ := mk.inj (pure_eq_ok.1 h)
    have hstep : db₁.usageEvents = db.usageEvents ∧ nodes ≤ nodes₁ := by
      unfold projectExecution at hexecution
      split at hexecution
      · obtain ⟨⟨_, _⟩, hadd, hexecution⟩ := bind_eq_ok.1 hexecution
        obtain ⟨rfl, hcount⟩ := mk.inj (pure_eq_ok.1 hexecution)
        exact ⟨addNode_usageEvents hadd, (mk.inj hcount).2 ▸ Nat.le_succ nodes⟩
      · obtain ⟨rfl, hcount⟩ := mk.inj (pure_eq_ok.1 hexecution)
        exact ⟨rfl, (mk.inj hcount).2.le⟩
    have hlast : db₂.usageEvents = db₁.usageEvents := by
      unfold projectEdge at hedge
      split at hedge
      · obtain ⟨⟨_, _⟩, hadd, hedge⟩ := bind_eq_ok.1 hedge
        obtain ⟨_, hevidence, hedge⟩ := bind_eq_ok.1 hedge
        obtain ⟨rfl, -⟩ := mk.inj (pure_eq_ok.1 hedge)
        exact (addEvidence_usageEvents hevidence).trans (addEdge_usageEvents hadd)
      · rw [(mk.inj (pure_eq_ok.1 hedge)).1]
    refine ⟨hlast.trans hstep.1, (mk.inj hrest).1 ▸ hstep.2, fun id' hid' => ?_⟩
    obtain rfl : id = id' := Option.some.inj (hsome.symm.trans hid')
    obtain ⟨hx, hid, horg⟩ := find?_spec (orFail_eq_ok.1 hfound)
    exact ⟨x, hx, hid, horg⟩

/-- A projection that goes through refers to an execution of its organization, and if it has a
snapshot to clone, then no nodes were metered in it under a pending identifier. -/
theorem projectNew_ok_cases {payload : FindingProjectionCreate} {now : Instant}
    {change : KnowledgeGraphChange} (h : projectNew false env context db org payload finding
      fingerprint actor now = .ok (db', change)) :
    ReferenceValid context org finding ∧ ∀ v, activeVersion db org = some v → nodesOf db v ≠ [] →
      ∀ u ∈ db.usageEvents, ¬ (u.organizationId = org ∧ u.sourceId = none ∧
        u.meterCode = .graphNodesMaterialized) := by
  obtain ⟨⟨db₁, version⟩, hversion, h⟩ := bind_eq_ok.1 h
  obtain ⟨⟨db₂, nodes, edges⟩, hclone, h⟩ := bind_eq_ok.1 h
  obtain ⟨⟨db₃, node, nodes'⟩, hnode, h⟩ := bind_eq_ok.1 h
  obtain ⟨⟨db₄, nodes'', edges''⟩, hproducer, h⟩ := bind_eq_ok.1 h
  obtain ⟨_, -, h⟩ := bind_eq_ok.1 h
  obtain ⟨_, hmeters, -⟩ := bind_eq_ok.1 h
  obtain ⟨_, -, hversion⟩ := bind_eq_ok.1 hversion
  obtain ⟨rfl, rfl⟩ := mk.inj (pure_eq_ok.1 hversion)
  obtain ⟨hsame', hle', hreference⟩ := projectProducer_usageEvents hproducer
  obtain ⟨hsame, hle⟩ := projectNode_usageEvents hnode
  refine ⟨hreference, fun v hv hne u hu htaken => ?_⟩
  rw [hv] at hclone
  obtain ⟨hcloned, hcount⟩ := cloneActiveSnapshot_usageEvents hclone
  obtain ⟨_, hmeter, -⟩ := bind_eq_ok.1 hmeters
  have hpos : 0 < nodes := hcount ▸ length_pos_iff.2 hne
  rw [meter, if_neg (by omega), orFail_eq_ok, hsame', hsame, hcloned] at hmeter
  exact (insert_eq_some.1 hmeter).1 u hu ⟨htaken.1, htaken.2.1, htaken.2.2⟩

end Intel4Ops.KnowledgeGraph
