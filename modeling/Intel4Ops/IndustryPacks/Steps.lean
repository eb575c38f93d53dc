import Intel4Ops.IndustryPacks.Service

/-!
# What one call does to the pack tables

Every committed call creates a pack or a version, moves a version, writes a component of a draft,
or writes the two rows of an assignment together. The two rows agree after every call.
-/

namespace Intel4Ops.IndustryPacks

open Lib Table

variable {db db' : Db} {call : Call}

/-! ## What a committed call does -/

/-- The row of an assignment is written over the one that is there, or is new. -/
inductive PutAssignment (db : Db) (row : Assignment) : List Assignment → Prop
  | existing (old : Assignment) (hmem : old ∈ db.assignments) (hid : row.id = old.id) :
      PutAssignment db row (update (·.id = row.id) (fun _ => row) db.assignments)
  | new (hfresh : ∀ a ∈ db.assignments, a.id ≠ row.id) :
      PutAssignment db row (db.assignments ++ [row])

/-- The state of an assignment is written over the one that is there, or is new. -/
inductive PutState (db : Db) (row : Assignment) (versionId id : UUID) : List AssignmentState → Prop
  | existing (state : AssignmentState) (hmem : state ∈ db.states)
      (hassignment : state.assignmentId = row.id)
      (horganization : state.organizationId = row.organizationId) :
      PutState db row versionId id (update (·.id = state.id)
        (fun s => { s with packVersionId := versionId, status := .assigned }) db.states)
  | new (hfree : ∀ s ∈ db.states, s.id ≠ id ∧ s.assignmentId ≠ row.id) :
      PutState db row versionId id
        (db.states ++ [⟨id, row.organizationId, row.id, versionId, .assigned, none, none⟩])

/-- What one committed call does to the tables. -/
inductive PackStep (db : Db) (call : Call) : Db → Prop
  | packCreated (packs : List Pack) : PackStep db call { db with packs := packs }
  | versionCreated (version : Version) (rows : List Component)
      (hstatus : version.lifecycleStatus = .draft) (hfresh : ∀ v ∈ db.versions, v.id ≠ version.id)
      (hrows : version.manifest.componentRows version.id = .ok rows)
      (hfree : insertAll Component.clash rows db.components = some (db.components ++ rows)) :
      PackStep db call { db with
        versions := db.versions ++ [version]
        components := db.components ++ rows }
  | validated (version : Version) (hmem : version ∈ db.versions) (hvalid : version.manifest.Valid) :
      PackStep db call (db.setVersion
        { version with lifecycleStatus := .validated, validatedAt := some call.now })
  | moved (version : Version) (target : LifecycleStatus) (hmem : version ∈ db.versions)
      (hrequest : call.request = .transition version.id target)
      (hallowed : target ∈ version.lifecycleStatus.transitions)
      (hretired : target = .retired → ¬ db.InUse version.id) :
      PackStep db call (db.setVersion (version.moved target call.now))
  | componentPut (version : Version) (payload : ComponentWrite) (components : List Component)
      (hmem : version ∈ db.versions) (hstatus : version.lifecycleStatus = .draft)
      (hrequest : call.request = .putComponent version.id payload)
      (hcomponents : components = update (fun c => c.clash (payload.row version.id))
          (fun _ => payload.row version.id) db.components ∨
        (∀ c ∈ db.components, ¬ c.clash (payload.row version.id)) ∧
          components = db.components ++ [payload.row version.id]) :
      PackStep db call { db with components := components }
  | assigned (row : Assignment) (version : Version) (assignments : List Assignment)
      (states : List AssignmentState) (payload : AssignmentRequest)
      (hrequest : call.request = .assign payload) (hmem : version ∈ db.versions)
      (hpack : version.packId = row.packId) (hstatus : row.status = .assigned)
      (hrow : PutAssignment db row assignments)
      (hstate : PutState db row version.id call.drawnState states) :
      PackStep db call { db with assignments := assignments, states := states }
  | statusSet (row : Assignment) (state : AssignmentState) (status : AssignmentStatus)
      (hrow : row ∈ db.assignments) (hstate : state ∈ db.states)
      (hassignment : state.assignmentId = row.id)
      (horganization : state.organizationId = call.organizationId)
      (hrequest : call.request = .setStatus row.id status)
      (hlimit : status = .active → state.status ≠ .active →
        ∀ limit ∈ call.commercial.packLimit call.organizationId call.now,
          (db.activeCount call.organizationId : ℚ) < limit) :
      PackStep db call { db with
        assignments := update (·.id = row.id) (fun a => { a with status := status }) db.assignments
        states := update (·.id = state.id) (fun s => s.moved status call.now) db.states }

variable {versionId id : UUID}

theorem version_ok {version : Version} (h : db.version versionId = .ok version) :
    version ∈ db.versions ∧ version.id = versionId := by
  rw [Db.version, orFail_eq_ok] at h
  exact find?_spec h

theorem createPack_step {payload : PackCreate} (h : db.createPack payload id = .ok db') :
    PackStep db call db' := by
  simp only [Db.createPack, bind_eq_ok, pure_eq_ok] at h
  obtain ⟨_, -, packs, -, rfl⟩ := h
  exact .packCreated packs

theorem createVersion_step {packCode : String} {payload : VersionCreate}
    (h : db.createVersion packCode payload id = .ok db') : PackStep db call db' := by
  simp only [Db.createVersion, bind_eq_ok, orFail_eq_ok, pure_eq_ok, insert_eq_some] at h
  obtain ⟨pack, -, _, -, versions, ⟨hfree, rfl⟩, rows, hrows, components, hcomponents, rfl⟩ := h
  obtain rfl := insertAll_eq_some hcomponents
  exact .versionCreated (payload.row pack.id id) rows rfl (fun v hv hid => hfree v hv (.inl hid))
    hrows hcomponents

theorem validate_step (h : db.validate versionId call.now = .ok db') : PackStep db call db' := by
  simp only [Db.validate, bind_eq_ok, ensure_eq_ok, pure_eq_ok] at h
  obtain ⟨version, hversion, _, -, errors, herrors, _, rfl, rfl⟩ := h
  exact .validated version (version_ok hversion).1 herrors

theorem transition_step {target : LifecycleStatus}
    (hrequest : call.request = .transition versionId target)
    (h : db.transition versionId target call.now = .ok db') : PackStep db call db' := by
  simp only [Db.transition, bind_eq_ok, ensure_eq_ok, pure_eq_ok] at h
  obtain ⟨version, hversion, _, hallowed, _, hretired, rfl⟩ := h
  obtain ⟨hmem, rfl⟩ := version_ok hversion
  exact .moved version target hmem hrequest hallowed hretired

theorem putComponent_step {payload : ComponentWrite}
    (hrequest : call.request = .putComponent versionId payload)
    (h : db.putComponent versionId payload = .ok db') : PackStep db call db' := by
  simp only [Db.putComponent, Version.requireStatus, bind_eq_ok, ensure_eq_ok] at h
  obtain ⟨version, hversion, _, hstatus, h⟩ := h
  obtain ⟨hmem, rfl⟩ := version_ok hversion
  split at h
  case isTrue hclash =>
    obtain rfl := pure_eq_ok.1 h
    exact .componentPut version payload _ hmem hstatus hrequest (.inl rfl)
  case isFalse hfree =>
    obtain rfl := pure_eq_ok.1 h
    refine .componentPut version payload _ hmem hstatus hrequest (.inr ⟨?_, rfl⟩)
    exact fun c hc hclash => hfree ⟨c, hc, hclash⟩

theorem putAssignment_ok {organizationId packId : UUID} {payload : AssignmentRequest}
    {row : Assignment} {rows : List Assignment}
    (h : db.putAssignment organizationId packId payload id = .ok (row, rows)) :
    row.packId = packId ∧ row.status = .assigned ∧ PutAssignment db row rows := by
  unfold Db.putAssignment at h
  split at h
  case h_1 old hfind =>
    obtain ⟨hmem, -, hpack⟩ := find?_spec hfind
    obtain ⟨rfl, rfl⟩ := Prod.mk.inj (Except.ok.inj h)
    exact ⟨hpack, rfl, .existing old hmem rfl⟩
  case h_2 hnone =>
    simp only [bind_eq_ok, orFail_eq_ok, pure_eq_ok, insert_eq_some] at h
    obtain ⟨_, ⟨hfree, rfl⟩, heq⟩ := h
    obtain ⟨rfl, rfl⟩ := Prod.mk.inj heq
    exact ⟨rfl, rfl, .new fun a ha hid => hfree a ha (.inl hid)⟩

theorem putState_ok {row : Assignment} {states : List AssignmentState}
    (h : db.putState row versionId id = .ok states) : PutState db row versionId id states := by
  unfold Db.putState at h
  split at h
  case h_1 state hfind =>
    obtain ⟨hmem, hassignment, horganization⟩ := find?_spec hfind
    obtain rfl := Except.ok.inj h
    exact .existing state hmem hassignment horganization
  case h_2 hnone =>
    rw [orFail_eq_ok, insert_eq_some] at h
    obtain ⟨hfree, rfl⟩ := h
    exact .new fun s hs => ⟨fun hid => hfree s hs (.inl hid), fun hid => hfree s hs (.inr hid)⟩

theorem assign_step {payload : AssignmentRequest} (hrequest : call.request = .assign payload)
    (h : db.assign call.commercial call.organizationId payload call.now call.drawn
      call.drawnState = .ok db') : PackStep db call db' := by
  simp only [Db.assign, Db.publishedVersion, bind_eq_ok, orFail_eq_ok, pure_eq_ok] at h
  obtain ⟨pack, -, _, -, version, hversion, ⟨row, assignments⟩, hrow, states, hstate, rfl⟩ := h
  obtain ⟨hmem, hpack, -⟩ := find?_spec hversion
  obtain ⟨hrowPack, hstatus, hput⟩ := putAssignment_ok hrow
  exact .assigned row version assignments states payload hrequest hmem
    (hpack.trans hrowPack.symm) hstatus hput (putState_ok hstate)

theorem setStatus_step {assignmentId : UUID} {status : AssignmentStatus}
    (hrequest : call.request = .setStatus assignmentId status)
    (h : db.setStatus call.commercial call.organizationId assignmentId status call.now = .ok db') :
    PackStep db call db' := by
  simp only [Db.setStatus, Db.assignment, bind_eq_ok, ensure_eq_ok, orFail_eq_ok, pure_eq_ok] at h
  obtain ⟨_, ⟨row, hrow, state, hstate, rfl⟩, _, -, _, hlimit, rfl⟩ := h
  obtain ⟨hrowMem, rfl, -⟩ := find?_spec hrow
  obtain ⟨hstateMem, hassignment, horganization⟩ := find?_spec hstate
  exact .statusSet row state status hrowMem hstateMem hassignment horganization hrequest hlimit

theorem serve_step (h : serve db call = .ok db') : PackStep db call db' := by
  unfold serve at h
  split at h
  case h_1 => exact createPack_step h
  case h_2 => exact createVersion_step h
  case h_3 => exact validate_step h
  case h_4 hrequest => exact transition_step hrequest h
  case h_5 hrequest => exact putComponent_step hrequest h
  case h_6 hrequest => exact assign_step hrequest h
  case h_7 hrequest => exact setStatus_step hrequest h

end Intel4Ops.IndustryPacks
