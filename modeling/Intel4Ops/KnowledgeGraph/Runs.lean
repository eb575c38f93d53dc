import Intel4Ops.KnowledgeGraph.Projection
import Mathlib.Data.List.Induction

/-!
# Runs of projections

A projection is metered under the identifier of its change, which a session without autoflush has
not assigned by then. So the first projection of an organization takes the only key that there is,
and every later one fails. `faithfulRun_iff` says that this is all that keeps the graph from being a
faithful snapshot.
-/

namespace Intel4Ops.KnowledgeGraph

open Lib List Table Service

section Runs

variable {autoflush : Bool} {env : Env} {db db' : Db} {org : UUID}

/-! ## Metering -/

variable {sourceId : Option UUID} {g : Graph} {o : Observation} {v : KnowledgeGraphVersion}

theorem meter_ok {events : List UsageEvent} {code : MeterCode} {quantity : ℕ}
    (hnew : ∀ u ∈ events, u.organizationId = org → u.meterCode ≠ code) :
    meter events org code quantity sourceId =
      .ok (events ++ if quantity = 0 then [] else [⟨org, code, sourceId, quantity⟩]) := by
  unfold meter
  split
  · rw [append_nil]
  · have hinsert : insert SameUsage ⟨org, code, sourceId, quantity⟩ events =
        some (events ++ [⟨org, code, sourceId, quantity⟩]) :=
      insert_eq_some.2 ⟨fun u hu hsame => hnew u hu hsame.1 hsame.2.2, rfl⟩
    rw [hinsert]
    rfl

def meteredEvents (org : UUID) (nodeCount edgeCount : ℕ) (sourceId : Option UUID) :
    List UsageEvent :=
  (if nodeCount = 0 then [] else [⟨org, .graphNodesMaterialized, sourceId, nodeCount⟩]) ++
    if edgeCount = 0 then [] else [⟨org, .graphEdgesMaterialized, sourceId, edgeCount⟩]

theorem meters_ok {events : List UsageEvent} (nodeCount edgeCount : ℕ) (sourceId : Option UUID)
    (hnew : ∀ u ∈ events, u.organizationId ≠ org) :
    meters events org nodeCount edgeCount sourceId =
      .ok (events ++ meteredEvents org nodeCount edgeCount sourceId) := by
  have hnodes : meter events org .graphNodesMaterialized nodeCount sourceId = .ok (events ++
      if nodeCount = 0 then [] else [⟨org, .graphNodesMaterialized, sourceId, nodeCount⟩]) :=
    meter_ok fun u hu horg => absurd horg (hnew u hu)
  rw [meters, hnodes, ok_bind, meter_ok, meteredEvents, append_assoc]
  intro u hu horg
  rcases mem_append.1 hu with hu | hu
  · exact absurd horg (hnew u hu)
  · split at hu
    · exact absurd hu not_mem_nil
    · rw [mem_singleton.1 hu]
      intro heq
      cases heq

theorem meteredEvents_organizationId {nodeCount edgeCount : ℕ} {u : UsageEvent}
    (hu : u ∈ meteredEvents org nodeCount edgeCount sourceId) : u.organizationId = org := by
  rcases mem_append.1 hu with hu | hu
  all_goals
    split at hu
    · exact absurd hu not_mem_nil
    · rw [mem_singleton.1 hu]

/-! ## The states of a run -/

/-- The organization has projected one observation, as its only version shows. -/
structure Projected (env : Env) (db : Db) (org : UUID) (o : Observation) : Prop where
  change : ∃ c ∈ db.changes, c.organizationId = org
  metered : ∃ u ∈ db.usageEvents, u.organizationId = org ∧ u.sourceId = none ∧
    u.meterCode = .graphNodesMaterialized
  version : ∃ v, versionsOf db org = [v] ∧ v.version = 1 ∧ v.status = .active ∧ Current env db [o] v

/-- What every run keeps: an organization has projected nothing or one observation. -/
structure Consistent (env : Env) (db : Db) (history : UUID → List Observation) : Prop where
  drawn : Drawn db
  organizations : ∀ org, ((∀ c ∈ db.changes, c.organizationId ≠ org) ∧ Unused db org ∧
    history org = []) ∨ ∃ o, Projected env db org o ∧ history org = [o]

theorem consistent_empty (env : Env) : Consistent env {} fun _ => [] where
  drawn := ⟨by simp, by simp⟩
  organizations org := .inl ⟨by simp, ⟨by simp, by simp, by simp, by simp, by simp⟩, rfl⟩

/-- The request is for an existing finding, under a new key and for a new event. -/
structure NewRequest (db : Db) (call : Call) (finding : Finding) : Prop where
  found : findFinding call.context call.organizationId call.payload.findingId = some finding
  key : changeOfKey db call.organizationId call.payload.idempotencyKey = none
  event : changeOfEvent db call.organizationId call.payload.sourceEventId = none

/-- The tables after the first projection of an organization. -/
structure First (env : Env) (db db' : Db) (v : KnowledgeGraphVersion) (o : Observation)
    (g : Graph) : Prop where
  holds : Holds db db' g
  within : g.In v
  objects : g.ShowsObjects (Observed [o])
  pairs : g.ShowsPairs env (Linked [o])
  versions : db'.versions = db.versions ++ [v]
  number : v.version = 1
  active : v.status = .active
  counts : v.nodeCount = g.nodes.length ∧ v.edgeCount = g.edges.length
  changes : ∃ c, c.organizationId = v.organizationId ∧ db'.changes = db.changes ++ [c]
  usageEvents : db'.usageEvents =
    db.usageEvents ++ meteredEvents v.organizationId v.nodeCount v.edgeCount none
  supply : db.nextId ≤ v.id ∧ v.id < db'.nextId
  drawn : ∀ r ∈ g.evidence, r.edgeId < db'.nextId

section

variable (h : First env db db' v o g)
include h

theorem First.drawn_next (hdrawn : Drawn db) : Drawn db' where
  versions w hw := by
    rw [h.versions, mem_append, mem_singleton] at hw
    rcases hw with hw | rfl
    · exact ((hdrawn.versions w hw).trans_le h.supply.1).trans h.supply.2
    · exact h.supply.2
  evidence r hr := by
    rw [h.holds.evidence, mem_append] at hr
    rcases hr with hr | hr
    · exact ((hdrawn.evidence r hr).trans_le h.supply.1).trans h.supply.2
    · exact h.drawn r hr

theorem First.projected (hunused : Unused db v.organizationId) :
    Projected env db' v.organizationId o := by
  have hgraph : graphOf db' v = g := h.holds.graphOf_eq hunused h.within
  obtain ⟨hnodes, hedges, -⟩ := Graph.mk.inj hgraph
  obtain ⟨c, hc, hchanges⟩ := h.changes
  obtain ⟨n, hn, -⟩ := (h.objects.objects (.findings, o.findingId)).2 ⟨o, by simp, rfl⟩
  have hcount : v.nodeCount ≠ 0 := by
    rw [h.counts.1]
    exact (length_pos_of_mem hn).ne'
  refine ⟨⟨c, by simp [hchanges], hc⟩, ⟨⟨v.organizationId, .graphNodesMaterialized, none,
    v.nodeCount⟩, ?_, rfl, rfl, rfl⟩, v, ?_, h.number, h.active, ?_⟩
  · rw [h.usageEvents, meteredEvents, if_neg hcount]
    simp
  · rw [versionsOf, h.versions]
    exact filter_new hunused.versions (by simp)
  · refine ⟨hgraph ▸ h.objects, hgraph ▸ h.pairs, ?_, ?_⟩
    · rw [hnodes, h.counts.1]
    · rw [hedges, h.counts.2]

theorem First.unused_other (horg : v.organizationId ≠ org) (hunused : Unused db org) :
    Unused db' org := by
  constructor
  · rw [h.versions]
    exact forall_mem_append.2 ⟨hunused.versions, by simpa using horg⟩
  · rw [h.holds.nodes]
    exact forall_mem_append.2 ⟨hunused.nodes, fun n hn => (h.within.nodes n hn).1 ▸ horg⟩
  · rw [h.holds.edges]
    exact forall_mem_append.2 ⟨hunused.edges, fun e he => (h.within.edges e he).1 ▸ horg⟩
  · rw [h.holds.evidence]
    exact forall_mem_append.2 ⟨hunused.evidence, fun r hr => (h.within.evidence r hr).1 ▸ horg⟩
  · rw [h.usageEvents]
    exact forall_mem_append.2 ⟨hunused.usageEvents,
      fun u hu => meteredEvents_organizationId hu ▸ horg⟩

theorem First.projected_other {o' : Observation} (horg : v.organizationId ≠ org)
    (hold : Projected env db org o') :
    Projected env db' org o' := by
  obtain ⟨⟨c, hc, hcorg⟩, ⟨u, hu, hmetered⟩, w, hw, hnumber, hactive, hcurrent⟩ := hold
  obtain ⟨c', -, hchanges⟩ := h.changes
  have hworg : w.organizationId = org := by
    have hmem : w ∈ versionsOf db org := hw ▸ mem_singleton_self w
    exact of_decide_eq_true (mem_filter.1 hmem).2
  have hgraph : graphOf db' w = graphOf db w :=
    h.holds.graphOf_other h.within fun heq => horg (heq ▸ hworg)
  obtain ⟨hnodes, hedges, -⟩ := Graph.mk.inj hgraph
  refine ⟨⟨c, hchanges ▸ mem_append_left _ hc, hcorg⟩,
    ⟨u, h.usageEvents ▸ mem_append_left _ hu, hmetered⟩, w, ?_, hnumber, hactive, ?_⟩
  · rw [versionsOf, h.versions]
    exact (filter_others (by simpa using horg)).trans hw
  · exact ⟨hgraph ▸ hcurrent.objects, hgraph ▸ hcurrent.pairs, hnodes ▸ hcurrent.nodeCount,
      hedges ▸ hcurrent.edgeCount⟩

end

theorem projectNew_ok {history : UUID → List Observation} (h : Consistent env db history)
    {call : Call} {finding : Finding} (fingerprint : String)
    (hreference : ReferenceValid call.context call.organizationId finding)
    (hfirst : ∀ c ∈ db.changes, c.organizationId ≠ call.organizationId) :
    ∃ db' change v g, projectNew false env call.context db call.organizationId call.payload finding
        fingerprint call.actor call.now = .ok (db', change) ∧
      v.organizationId = call.organizationId ∧ Unused db call.organizationId ∧
      First env db db' v finding.observation g := by
  have hunused : Unused db call.organizationId := by
    rcases h.organizations call.organizationId with ⟨-, hunused, -⟩ | ⟨o, hprojected, -⟩
    · exact hunused
    · obtain ⟨c, hc, horg⟩ := hprojected.change
      exact absurd horg (hfirst c hc)
  obtain ⟨built, node, g, hproject, hbuilt⟩ := projectNew_first env call.context
    call.payload call.now h.drawn hunused fingerprint call.actor hreference
  generalize hversion : newVersion db call.organizationId call.actor = version at *
  generalize hchange : newChange built call.organizationId call.payload version fingerprint node
    g.nodes.length g.edges.length = change
  have hchanges : insert SameChange change built.changes =
      some (db.changes ++ [change]) := by
    rw [hbuilt.changes]
    refine insert_eq_some.2 ⟨fun c hc hsame => hfirst c hc ?_, rfl⟩
    rw [hsame.1, ← hchange]
    rfl
  have hid : version.id = db.nextId := by rw [← hversion]; rfl
  have hversions : publishedVersions built.versions none version finding g.nodes.length
      g.edges.length call.now =
        db.versions ++ [version.published finding g.nodes.length g.edges.length call.now] := by
    rw [publishedVersions, hbuilt.versions, update, map_append]
    refine congrArg₂ (· ++ ·) ?_ (by simp)
    refine (map_congr_left fun v hv => if_neg ?_).trans (map_id _)
    rw [decide_eq_true_eq, hid]
    exact (h.drawn.versions v hv).ne
  refine ⟨{ built with
      versions := db.versions ++ [version.published finding g.nodes.length g.edges.length call.now]
      checkpoints := checkpointed built call.organizationId call.payload fingerprint version.id
      changes := db.changes ++ [change]
      usageEvents := db.usageEvents ++
        meteredEvents call.organizationId g.nodes.length g.edges.length none
      nextId := built.nextId + 1 },
    change, version.published finding g.nodes.length g.edges.length call.now, g, ?_,
    by rw [← hversion]; rfl, hunused, ?_⟩
  · rw [hproject, publish, hchange, hchanges, orFail_some, ok_bind, hbuilt.usageEvents,
      meters_ok _ _ _ hunused.usageEvents, ok_bind, hversions]
    rfl
  · have horg : version.organizationId = call.organizationId := by rw [← hversion]; rfl
    exact {
      holds := ⟨hbuilt.holds.nodes, hbuilt.holds.edges, hbuilt.holds.evidence⟩
      within := ⟨hbuilt.within.nodes, hbuilt.within.edges, hbuilt.within.evidence⟩
      objects := hbuilt.objects
      pairs := hbuilt.pairs
      versions := rfl
      number := by rw [← nextVersion_unused hunused, ← hversion]; rfl
      active := rfl
      counts := ⟨rfl, rfl⟩
      changes := ⟨change, by rw [← hchange, ← hversion]; rfl, rfl⟩
      usageEvents := by rw [← hversion]; rfl
      supply := ⟨hid.ge, (hid.trans_lt hbuilt.supply).trans (Nat.lt_succ_self _)⟩
      drawn := fun r hr => (hbuilt.drawn r hr).trans (Nat.lt_succ_self _) }

theorem First.consistent {history : UUID → List Observation} (h : First env db db' v o g)
    (hconsistent : Consistent env db history) (horg : v.organizationId = org)
    (hunused : Unused db org) (hfirst : ∀ c ∈ db.changes, c.organizationId ≠ org) :
    Consistent env db' (fun org' => history org' ++ if org' = org then [o] else []) where
  drawn := h.drawn_next hconsistent.drawn
  organizations org' := by
    by_cases hsame : org' = org
    · rw [if_pos hsame, hsame]
      rcases hconsistent.organizations org with ⟨-, -, hnil⟩ | ⟨o', hprojected, -⟩
      · exact .inr ⟨o, horg ▸ h.projected (horg ▸ hunused), by rw [hnil, nil_append]⟩
      · obtain ⟨c, hc, hcorg⟩ := hprojected.change
        exact absurd hcorg (hfirst c hc)
    · have hother : v.organizationId ≠ org' := fun heq => hsame (heq.symm.trans horg)
      rw [if_neg hsame, append_nil]
      refine (hconsistent.organizations org').imp (fun hnone => ⟨?_, ?_, hnone.2.2⟩) ?_
      · obtain ⟨c, hc, hchanges⟩ := h.changes
        rw [hchanges]
        exact forall_mem_append.2 ⟨hnone.1, by simpa [hc] using hother⟩
      · exact h.unused_other hother hnone.2.1
      · rintro ⟨o', hprojected, heq⟩
        exact ⟨o', h.projected_other hother hprojected, heq⟩

/-- Once an organization has projected, its next projection fails. -/
theorem projectNew_error {history : UUID → List Observation} (h : Consistent env db history)
    {call : Call} {finding : Finding} (fingerprint : String)
    (hnot : ¬ (ReferenceValid call.context call.organizationId finding ∧
      ∀ c ∈ db.changes, c.organizationId ≠ call.organizationId)) :
    ∃ e, projectNew false env call.context db call.organizationId call.payload finding
      fingerprint call.actor call.now = .error e := by
  cases hresult : projectNew false env call.context db call.organizationId call.payload finding
    fingerprint call.actor call.now with
  | error e => exact ⟨e, rfl⟩
  | ok p =>
    obtain ⟨hreference, hnone⟩ := projectNew_ok_cases hresult
    refine absurd ⟨hreference, fun c hc horg => ?_⟩ hnot
    rcases h.organizations call.organizationId with ⟨hfirst, -⟩ | ⟨o, hprojected, -⟩
    · exact hfirst c hc horg
    · obtain ⟨u, hu, htaken⟩ := hprojected.metered
      obtain ⟨v, hv, -, hactive, hcurrent⟩ := hprojected.version
      have hmem : v ∈ versionsOf db call.organizationId := hv ▸ mem_singleton_self v
      obtain ⟨n, hn, -⟩ := (hcurrent.objects.objects (.findings, o.findingId)).2 ⟨o, by simp, rfl⟩
      have hfind : activeVersion db call.organizationId = some v := by
        cases hfound : activeVersion db call.organizationId with
        | none =>
          obtain ⟨hstored, horg'⟩ := mem_filter.1 hmem
          exact absurd (decide_eq_true ⟨of_decide_eq_true horg', hactive⟩)
            (List.find?_eq_none.1 hfound v hstored)
        | some w =>
          obtain ⟨hw, hworg, -⟩ := find?_spec hfound
          have hmem' : w ∈ versionsOf db call.organizationId :=
            mem_filter.2 ⟨hw, decide_eq_true hworg⟩
          rw [hv] at hmem'
          rw [mem_singleton.1 hmem']
      exact hnone v hfind (ne_nil_of_mem hn) u hu htaken

/-! ## One request -/

theorem priorChange_new {call : Call} {finding : Finding} (h : NewRequest db call finding)
    (fingerprint : String) :
    priorChange db call.organizationId call.payload fingerprint = .ok none := by
  rw [priorChange, h.key]
  dsimp only
  rw [h.event]
  rfl

theorem priorChange_none {payload : FindingProjectionCreate} {fingerprint : String}
    (h : priorChange db org payload fingerprint = .ok none) :
    changeOfKey db org payload.idempotencyKey = none ∧
      changeOfEvent db org payload.sourceEventId = none := by
  unfold priorChange at h
  split at h
  · obtain ⟨_, -, h⟩ := bind_eq_ok.1 h
    cases pure_eq_ok.1 h
  · next hkey =>
    split at h
    · obtain ⟨_, -, h⟩ := bind_eq_ok.1 h
      cases pure_eq_ok.1 h
    · next hevent => exact ⟨hkey, hevent⟩

theorem serveIn_new {call : Call} {finding : Finding} (h : NewRequest db call finding)
    (hentitled : Entitled call.context call.organizationId call.now) :
    serveIn autoflush env db call = projectNew autoflush env call.context db call.organizationId
      call.payload finding (env.sourceFingerprint finding.content) call.actor call.now := by
  rw [serveIn, projectFinding, ensure_of hentitled, ok_bind, h.found, orFail_some, ok_bind]
  dsimp only
  rw [priorChange_new h, ok_bind]

theorem serveIn_known {call : Call} {change : KnowledgeGraphChange}
    (hnot : ∀ finding, ¬ NewRequest db call finding)
    (hok : serveIn autoflush env db call = .ok (db', change)) : db' = db := by
  obtain ⟨_, -, hok⟩ := bind_eq_ok.1 hok
  obtain ⟨finding, hfound, hok⟩ := bind_eq_ok.1 hok
  obtain ⟨prior, hprior, hok⟩ := bind_eq_ok.1 hok
  cases prior with
  | some prior => exact (congrArg Prod.fst (pure_eq_ok.1 hok)).symm
  | none =>
    obtain ⟨hkey, hevent⟩ := priorChange_none hprior
    exact absurd ⟨orFail_eq_ok.1 hfound, hkey, hevent⟩ (hnot finding)

theorem serveIn_projectable {history : UUID → List Observation} (h : Consistent env db history)
    {call : Call} {finding : Finding} (hrequest : NewRequest db call finding)
    (hentitled : Entitled call.context call.organizationId call.now)
    (hreference : ReferenceValid call.context call.organizationId finding)
    (hfirst : ∀ c ∈ db.changes, c.organizationId ≠ call.organizationId) :
    ∃ db' change, serveIn false env db call = .ok (db', change) ∧
      Consistent env db' (fun org => history org ++
        if org = call.organizationId then [finding.observation] else []) := by
  rw [serveIn_new hrequest hentitled]
  obtain ⟨db', change, v, g, hok, horg, hunused, hadded⟩ := projectNew_ok h
    (env.sourceFingerprint finding.content) hreference hfirst
  exact ⟨db', change, hok, hadded.consistent h horg hunused hfirst⟩

theorem serveIn_not_projectable {history : UUID → List Observation} (h : Consistent env db history)
    {call : Call} {finding : Finding} (hrequest : NewRequest db call finding)
    (hnot : ¬ (Entitled call.context call.organizationId call.now ∧
      ReferenceValid call.context call.organizationId finding ∧
      ∀ c ∈ db.changes, c.organizationId ≠ call.organizationId)) :
    ∃ e, serveIn false env db call = .error e := by
  by_cases hentitled : Entitled call.context call.organizationId call.now
  · rw [serveIn_new hrequest hentitled]
    exact projectNew_error h _ fun hboth => hnot ⟨hentitled, hboth⟩
  · rw [serveIn, projectFinding, ensure_of_not hentitled]
    exact ⟨_, rfl⟩

/-! ## Runs -/

/-- What a request adds to the history of its organization. -/
def observed (autoflush : Bool) (env : Env) (db : Db) (call : Call) : List Observation :=
  match findFinding call.context call.organizationId call.payload.findingId,
      changeOfKey db call.organizationId call.payload.idempotencyKey,
      changeOfEvent db call.organizationId call.payload.sourceEventId,
      serveIn autoflush env db call with
  | some finding, none, none, .ok _ => [finding.observation]
  | _, _, _, _ => []

/-- What the requests of an organization projected, in order. -/
def historyOf (autoflush : Bool) (env : Env) (org : UUID) : Db → List Call → List Observation
  | _, [] => []
  | db, call :: calls =>
    (if org = call.organizationId then observed autoflush env db call else []) ++
      historyOf autoflush env org ((serveIn autoflush env).next db call) calls

theorem historyOf_append (db : Db) (before after : List Call) :
    historyOf autoflush env org db (before ++ after) = historyOf autoflush env org db before ++
      historyOf autoflush env org ((serveIn autoflush env).run db before) after := by
  induction before generalizing db with
  | nil => rfl
  | cons call before ih =>
    rw [cons_append, historyOf, ih, historyOf, append_assoc, run_cons]

theorem observed_of_ok {call : Call} {finding : Finding} {p : Db × KnowledgeGraphChange}
    (hrequest : NewRequest db call finding) (hok : serveIn autoflush env db call = .ok p) :
    observed autoflush env db call = [finding.observation] := by
  rw [observed, hrequest.found, hrequest.key, hrequest.event, hok]

theorem observed_of_error {call : Call} {e : KnowledgeGraphError}
    (herror : serveIn autoflush env db call = .error e) :
    observed autoflush env db call = [] := by
  rw [observed, herror]
  split
  · next heq => cases heq
  · rfl

theorem observed_of_known {call : Call} (hnot : ∀ finding, ¬ NewRequest db call finding) :
    observed autoflush env db call = [] := by
  rw [observed]
  split
  · next finding _ hfound hkey hevent _ => exact absurd ⟨hfound, hkey, hevent⟩ (hnot finding)
  · rfl

theorem Consistent.next {history : UUID → List Observation} (h : Consistent env db history)
    (call : Call) : Consistent env ((serveIn false env).next db call) (fun org => history org ++
      if org = call.organizationId then observed false env db call else []) := by
  -- Whatever adds nothing to the history keeps the tables.
  have hsame : observed false env db call = [] → (serveIn false env).next db call = db →
      Consistent env ((serveIn false env).next db call) (fun org => history org ++
        if org = call.organizationId then observed false env db call else []) := by
    intro hnothing hnext
    rw [hnext, hnothing]
    simpa using h
  rcases next_cases (serveIn false env) db call with ⟨db', change, hok, hnext⟩ | ⟨e, herror, hnext⟩
  · by_cases hrequest : ∃ finding, NewRequest db call finding
    · obtain ⟨finding, hrequest⟩ := hrequest
      by_cases hprojectable : Entitled call.context call.organizationId call.now ∧
        ReferenceValid call.context call.organizationId finding ∧
        ∀ c ∈ db.changes, c.organizationId ≠ call.organizationId
      · obtain ⟨hentitled, hreference, hfirst⟩ := hprojectable
        obtain ⟨db₁, change₁, hok₁, hconsistent⟩ :=
          serveIn_projectable h hrequest hentitled hreference hfirst
        rw [hnext, observed_of_ok hrequest hok]
        rw [hok] at hok₁
        obtain ⟨rfl, -⟩ := Prod.mk.inj (Except.ok.inj hok₁)
        exact hconsistent
      · obtain ⟨e, herror⟩ := serveIn_not_projectable h hrequest hprojectable
        rw [hok] at herror
        cases herror
    · have hnot := not_exists.1 hrequest
      exact hsame (observed_of_known hnot) (hnext.trans (serveIn_known hnot hok))
  · exact hsame (observed_of_error herror) hnext

theorem consistent_run (env : Env) (calls : List Call) :
    Consistent env ((serveIn false env).run {} calls)
      (fun org => historyOf false env org {} calls) := by
  induction calls using List.reverseRecOn with
  | nil => exact consistent_empty env
  | append_singleton calls call ih =>
    have hnext := ih.next call
    rw [run_append, run_cons, run_nil]
    simp only [historyOf_append, historyOf, append_nil]
    exact hnext

/-! ## Faithful runs -/

/-- One snapshot of an organization: versions numbered in order, one of them active as soon as
something was projected, and that one showing exactly what was projected. -/
structure OneSnapshot (env : Env) (db : Db) (org : UUID) (history : List Observation) : Prop where
  numbers : (versionsOf db org).map (·.version) = List.range' 1 history.length
  inactive : history = [] → ∀ v ∈ versionsOf db org, v.status ≠ .active
  active : history ≠ [] → ∃! v, v ∈ versionsOf db org ∧ v.status = .active
  current : ∀ v ∈ versionsOf db org, v.status = .active →
    v.version = history.length ∧ Current env db history v

theorem Consistent.oneSnapshot {history : UUID → List Observation} (h : Consistent env db history)
    (org : UUID) : OneSnapshot env db org (history org) := by
  rcases h.organizations org with ⟨-, hunused, hnil⟩ | ⟨o, hprojected, hone⟩
  · have hnone : versionsOf db org = [] :=
      filter_eq_nil_iff.2 fun v hv heq => hunused.versions v hv (of_decide_eq_true heq)
    rw [hnil]
    refine ⟨by rw [hnone]; rfl, fun _ v hv => ?_, fun hne => absurd rfl hne, fun v hv => ?_⟩ <;>
    · rw [hnone] at hv
      exact absurd hv not_mem_nil
  · obtain ⟨v, hv, hnumber, hactive, hcurrent⟩ := hprojected.version
    rw [hone]
    refine ⟨by simp [hv, hnumber], fun hnil => absurd hnil (by simp), fun _ => ⟨v, ?_, ?_⟩, ?_⟩
    · exact ⟨hv ▸ mem_singleton_self v, hactive⟩
    · rintro w ⟨hw, -⟩
      rw [hv] at hw
      exact mem_singleton.1 hw
    · intro w hw _
      rw [hv] at hw
      rw [mem_singleton.1 hw]
      exact ⟨hnumber, hcurrent⟩

/-- A request under a key that was used before changes nothing, and is answered with the change of
that key when event and finding are the same. -/
def ReplayHarmless (autoflush : Bool) (env : Env) (db : Db) (call : Call) : Prop :=
  ∀ change, changeOfKey db call.organizationId call.payload.idempotencyKey = some change →
    (serveIn autoflush env).next db call = db ∧
      (Entitled call.context call.organizationId call.now →
        ∀ finding, findFinding call.context call.organizationId call.payload.findingId =
            some finding →
          change.sourceEventId = call.payload.sourceEventId →
          change.sourceFingerprint = env.sourceFingerprint finding.content →
          serveIn autoflush env db call = .ok (db, change))

theorem replayHarmless (autoflush : Bool) (env : Env) (db : Db) (call : Call) :
    ReplayHarmless autoflush env db call := by
  intro change hkey
  constructor
  · have hnot : ∀ finding, ¬ NewRequest db call finding := by
      intro finding hrequest
      have hnone := hrequest.key
      rw [hkey] at hnone
      cases hnone
    rcases next_cases (serveIn autoflush env) db call with
      ⟨db', change', hok, hnext⟩ | ⟨e, -, hnext⟩
    · exact hnext.trans (serveIn_known hnot hok)
    · exact hnext
  · intro hentitled finding hfound hevent hfingerprint
    rw [serveIn, projectFinding, ensure_of hentitled, ok_bind, hfound, orFail_some, ok_bind]
    dsimp only
    rw [priorChange, hkey]
    dsimp only
    rw [ensure_of ⟨hevent, hfingerprint⟩]
    rfl

/-- New requests succeed, every state holds one faithful snapshot, and replays are harmless. -/
structure FaithfulRun (autoflush : Bool) (env : Env) (calls : List Call) : Prop where
  succeeds : (serveIn autoflush env).AllSteps (fun db call => ∀ finding,
    NewRequest db call finding → ∃ p, serveIn autoflush env db call = .ok p) {} calls
  snapshots : ∀ before after, calls = before ++ after → ∀ org,
    OneSnapshot env ((serveIn autoflush env).run {} before) org
      (historyOf autoflush env org {} before)
  replays : (serveIn autoflush env).AllSteps (ReplayHarmless autoflush env) {} calls

/-- In a run of the service all promises are kept if and only if every new request is entitled,
refers to an execution of its organization, and is the first projection of the organization. -/
theorem faithfulRun_iff (env : Env) (calls : List Call) :
    FaithfulRun sessionAutoflush env calls ↔ (serve env).AllSteps (fun db call => ∀ finding,
      NewRequest db call finding →
        Entitled call.context call.organizationId call.now ∧
        ReferenceValid call.context call.organizationId finding ∧
        ∀ c ∈ db.changes, c.organizationId ≠ call.organizationId) {} calls := by
  constructor
  · intro h
    rw [allSteps_iff]
    intro before call after hcalls finding hrequest
    obtain ⟨p, hok⟩ := allSteps_iff.1 h.succeeds before call after hcalls finding hrequest
    by_contra hnot
    obtain ⟨e, herror⟩ := serveIn_not_projectable (consistent_run env before) hrequest hnot
    have heq := hok.symm.trans herror
    cases heq
  · intro h
    refine ⟨?_, fun before _ _ org => (consistent_run env before).oneSnapshot org, ?_⟩
    · rw [allSteps_iff]
      intro before call after hcalls finding hrequest
      obtain ⟨hentitled, hreference, hfirst⟩ :=
        allSteps_iff.1 h before call after hcalls finding hrequest
      obtain ⟨db', change, hok, -⟩ := serveIn_projectable (consistent_run env before) hrequest
        hentitled hreference hfirst
      exact ⟨(db', change), hok⟩
    · rw [allSteps_iff]
      intro before call _ _
      exact replayHarmless sessionAutoflush env _ call

end Runs

/-! ## A second projection -/

namespace SecondProjection

/-- Digests that keep the findings apart. -/
def env : Env where
  findingType := 1
  signatureExecutionType := 2
  producedFinding := 3
  sourceFingerprint content := String.ofList (List.replicate content.findingId 'f')
  executionFingerprint _ _ := ""
  edgeFingerprint _ _ := ""

theorem half_nonneg : (0 : ℚ) ≤ 1 / 2 := by decide +kernel

theorem half_le_one : (1 / 2 : ℚ) ≤ 1 := by decide +kernel

def half : UnitScore := ⟨1 / 2, half_nonneg, half_le_one⟩

def finding (id : UUID) : Finding :=
  ⟨id, 7, "published", none, 0, none, "Finding", "quality", "medium", half, none⟩

/-- Two findings of an entitled organization. -/
def context : Context where
  findings := [finding 1, finding 2]
  executions := []
  entitlements := [⟨7, "intelligence.enterprise_knowledge_graph", true, 0, none⟩]

def first : Call := ⟨7, 9, 5, ⟨"snapshot-first", 1, "snapshot-event-first"⟩, context⟩

def second : Call := ⟨7, 9, 6, ⟨"snapshot-second", 2, "snapshot-event-second"⟩, context⟩

theorem new_second : findFinding second.context 7 2 = some (finding 2) ∧
      changeOfKey ((serve env).run {} [first]) 7 "snapshot-second" = none ∧
      changeOfEvent ((serve env).run {} [first]) 7 "snapshot-event-second" = none := by
  decide +kernel

theorem serve_second : serve env ((serve env).run {} [first]) second =
    .error (.integrity "uq_usage_event_key") := by
  decide +kernel

theorem not_faithfulRun : ¬ ∀ (env : Env) (calls : List Call),
    FaithfulRun sessionAutoflush env calls := by
  intro h
  obtain ⟨hfound, hkey, hevent⟩ := new_second
  obtain ⟨-, hsecond, -⟩ := (h env [first, second]).succeeds
  obtain ⟨p, hok⟩ := hsecond (finding 2) ⟨hfound, hkey, hevent⟩
  have herror := serve_second
  rw [serve] at herror
  exact absurd (hok.symm.trans herror) (by simp)

end SecondProjection

end Intel4Ops.KnowledgeGraph
