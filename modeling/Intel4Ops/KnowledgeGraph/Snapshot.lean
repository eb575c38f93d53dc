import Intel4Ops.KnowledgeGraph.Service

/-!
# Snapshots

The graph of a version, what it is to show certain objects and certain pairs, and the graphs that
show a single observation.
-/

namespace Intel4Ops.KnowledgeGraph

open Lib

/-! ## Graphs -/

/-- The rows of one version. -/
structure Graph where
  nodes : List KnowledgeGraphNode
  edges : List KnowledgeGraphEdge
  evidence : List KnowledgeGraphEdgeEvidence

def graphOf (db : Db) (version : KnowledgeGraphVersion) : Graph :=
  ⟨nodesOf db version, edgesOf db version, evidenceOf db version⟩

/-- An object of a source registry. -/
abbrev ObjectRef := SourceRegistry × UUID

def KnowledgeGraphNode.ref (n : KnowledgeGraphNode) : ObjectRef :=
  (n.sourceRegistry, n.sourceObjectId)

/-- The edge leads from a node of the execution to a node of the finding. -/
def Graph.Joins (g : Graph) (e : KnowledgeGraphEdge) (executionId findingId : UUID) : Prop :=
  ∃ n ∈ g.nodes, ∃ m ∈ g.nodes, n.id = e.fromNodeId ∧
    n.ref = (.operationalSignatureExecutions, executionId) ∧ m.id = e.toNodeId ∧
    m.ref = (.findings, findingId)

/-- The graph has one node for each object of `P`, and no others. -/
structure Graph.ShowsObjects (g : Graph) (P : ObjectRef → Prop) : Prop where
  single : Table.Unique KnowledgeGraphNode.ref g.nodes
  objects : ∀ ref, (∃ n ∈ g.nodes, n.ref = ref) ↔ P ref

/-- The graph has one `produced_finding` edge for each pair of `Q`, with evidence, and no others. -/
structure Graph.ShowsPairs (env : Env) (g : Graph) (Q : UUID → UUID → Prop) : Prop where
  produced : ∀ e ∈ g.edges, e.relationshipTypeVersionId = env.producedFinding
  joined : ∀ e ∈ g.edges, ∃ x f, g.Joins e x f
  single : ∀ e ∈ g.edges, ∀ d ∈ g.edges, ∀ x f, g.Joins e x f → g.Joins d x f → e = d
  pairs : ∀ x f, (∃ e ∈ g.edges, g.Joins e x f) ↔ Q x f
  evidenceSingle : Table.Unique (·.edgeId) g.evidence
  evidence : ∀ id, (∃ r ∈ g.evidence, r.edgeId = id) ↔ ∃ e ∈ g.edges, e.id = id

/-! ## Histories -/

/-- What one projection observed: a finding, and the execution that produced it. -/
structure Observation where
  findingId : UUID
  executionId : Option UUID

def Finding.observation (finding : Finding) : Observation :=
  ⟨finding.id, finding.signatureExecutionId⟩

def Observed (history : List Observation) : ObjectRef → Prop
  | (.findings, id) => ∃ o ∈ history, o.findingId = id
  | (.operationalSignatureExecutions, id) => ∃ o ∈ history, o.executionId = some id

/-- The pairs of a history. -/
def Linked (history : List Observation) (executionId findingId : UUID) : Prop :=
  ∃ o ∈ history, o.executionId = some executionId ∧ o.findingId = findingId

/-! ## Snapshots of an organization -/

def versionsOf (db : Db) (org : UUID) : List KnowledgeGraphVersion :=
  db.versions.filter (·.organizationId = org)

/-- The graph of the version is what was observed, and its counts are those of its rows. -/
structure Current (env : Env) (db : Db) (history : List Observation)
    (v : KnowledgeGraphVersion) : Prop where
  objects : (graphOf db v).ShowsObjects (Observed history)
  pairs : (graphOf db v).ShowsPairs env (Linked history)
  nodeCount : v.nodeCount = (nodesOf db v).length
  edgeCount : v.edgeCount = (edgesOf db v).length

/-! ## Single observations -/

variable {env : Env} {n m : KnowledgeGraphNode} {f x : UUID}

theorem showsObjects_finding (hn : n.ref = (.findings, f)) :
    Graph.ShowsObjects ⟨[n], [], []⟩ (Observed [⟨f, none⟩]) where
  single := List.nodup_singleton _
  objects := by
    rintro ⟨registry, id⟩
    cases registry <;> simp [Observed, hn, eq_comm]

theorem showsPairs_finding : Graph.ShowsPairs env ⟨[n], [], []⟩ (Linked [⟨f, none⟩]) where
  produced := by simp
  joined := by simp
  single := by simp
  pairs := by simp [Linked]
  evidenceSingle := List.nodup_nil
  evidence := by simp

theorem showsObjects_produced (hn : n.ref = (.findings, f))
    (hm : m.ref = (.operationalSignatureExecutions, x)) (edges : List KnowledgeGraphEdge)
    (evidence : List KnowledgeGraphEdgeEvidence) :
    Graph.ShowsObjects ⟨[n, m], edges, evidence⟩ (Observed [⟨f, some x⟩]) where
  single := by simp [Table.Unique, hn, hm]
  objects := by
    rintro ⟨registry, id⟩
    cases registry <;> simp [Observed, hn, hm, eq_comm]

/-- The edge between the two nodes is the only one, and joins the only pair. -/
theorem showsPairs_produced (hn : n.ref = (.findings, f))
    (hm : m.ref = (.operationalSignatureExecutions, x)) {e : KnowledgeGraphEdge}
    {r : KnowledgeGraphEdgeEvidence} (hproduced : e.relationshipTypeVersionId = env.producedFinding)
    (hfrom : e.fromNodeId = m.id) (hto : e.toNodeId = n.id) (hr : r.edgeId = e.id) :
    Graph.ShowsPairs env ⟨[n, m], [e], [r]⟩ (Linked [⟨f, some x⟩]) := by
  have hjoins : ∀ x' f', Graph.Joins ⟨[n, m], [e], [r]⟩ e x' f' ↔ x' = x ∧ f' = f := by
    intro x' f'
    simp [Graph.Joins, hn, hm, hfrom, hto, eq_comm]
  constructor
  · simpa using hproduced
  · simpa using ⟨x, f, (hjoins x f).2 ⟨rfl, rfl⟩⟩
  · simp
  · intro x' f'
    simp [Linked, hjoins, eq_comm]
  · exact List.nodup_singleton _
  · simp [hr, eq_comm]

end Intel4Ops.KnowledgeGraph
