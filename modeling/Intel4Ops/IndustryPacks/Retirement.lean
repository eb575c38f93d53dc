import Intel4Ops.IndustryPacks.Steps

/-!
# Active packs and retirement

An assignment and its state agree after every call. That no active state is on a retired version is
checked when a version retires but not when an assignment is activated, validation can be passed
over and does not see edits, and a fractional limit leaves room for one pack more. Calls that avoid
these four keep what governance promises.
-/

namespace Intel4Ops.IndustryPacks

open Lib List Table Service Option

/-! ## What is claimed of a run -/

def Db.componentsOf (db : Db) (versionId : UUID) : List Component :=
  db.components.filter (·.packVersionId = versionId)

/-- A version that was published. -/
def Version.Released (version : Version) : Prop :=
  version.lifecycleStatus = .published ∨ version.lifecycleStatus = .deprecated ∨
    version.lifecycleStatus = .retired

/-- A state agrees with its assignment: one tenant, one status, one pack. -/
def AssignmentState.Agrees (state : AssignmentState) (db : Db) : Prop :=
  ∃ a ∈ db.assignments, a.id = state.assignmentId ∧ a.organizationId = state.organizationId ∧
    a.status = state.status ∧ ∃ v ∈ db.versions, v.id = state.packVersionId ∧ v.packId = a.packId

/-- The active states are on versions that are not retired, assignments and states agree, and what
is published consists of the components that a validated manifest lists. -/
structure Governed (db : Db) : Prop where
  notRetired : ∀ s ∈ db.states, s.status = .active →
    ∀ v ∈ db.versions, v.id = s.packVersionId → v.lifecycleStatus ≠ .retired
  paired : ∀ a ∈ db.assignments, ∃ s ∈ db.states, s.assignmentId = a.id
  agree : ∀ s ∈ db.states, s.Agrees db
  released : ∀ v ∈ db.versions, v.Released →
    v.manifest.Valid ∧ v.manifest.componentRows v.id = .ok (db.componentsOf v.id)

def Request.activates? : Request → Option UUID
  | .setStatus assignmentId .active => some assignmentId
  | _ => none

def Db.activated (db : Db) (call : Call) : Option AssignmentState :=
  call.request.activates?.bind fun assignmentId => db.states.find? fun s =>
    s.assignmentId = assignmentId ∧ s.organizationId = call.organizationId ∧ s.status ≠ .active

/-- The limit, if any, under which a served call activates a state of an organization. -/
def activatedUnder (organizationId : UUID) (db : Db) (call : Call) : Option (Option ℚ) :=
  match serve db call with
  | .error _ => none
  | .ok _ =>
    if call.organizationId = organizationId ∧ (db.activated call).isSome then
      some (call.commercial.packLimit organizationId call.now)
    else none

/-- The limit that was effective at the latest activation of a list of calls. -/
def latestLimit (organizationId : UUID) : Db → List Call → Option ℚ → Option ℚ
  | _, [], last => last
  | db, call :: calls, last =>
    latestLimit organizationId (service.next db call) calls
      ((activatedUnder organizationId db call).getD last)

/-- The state that calls lead to. -/
def after (calls : List Call) : Db := service.run .empty calls

/-- What is promised of a list of calls. -/
structure Safe (calls : List Call) : Prop where
  governed : Governed (after calls)
  limited : ∀ organizationId, ∀ limit ∈ latestLimit organizationId .empty calls none,
    ((after calls).activeCount organizationId : ℚ) ≤ limit

def Manifest.Lists (manifest : Manifest) (row : Component) : Prop :=
  row ∈ (manifest.componentRows row.packVersionId).toOption.getD []

instance (manifest : Manifest) (row : Component) : Decidable (manifest.Lists row) :=
  inferInstanceAs (Decidable (_ ∈ _))

def Request.declaresValid? : Request → Option UUID
  | .transition versionId .validated => some versionId
  | _ => none

def Request.edits? : Request → Option Component
  | .putComponent versionId payload => some (payload.row versionId)
  | _ => none

/-- A draft is declared valid only where validation accepts it, an edit of a draft writes what its
manifest lists, and an assignment is activated on a version that is not retired and under no limit
that admits a part of a pack. -/
structure Careful (db : Db) (call : Call) : Prop where
  declared : ∀ versionId ∈ call.request.declaresValid?, ∀ v ∈ db.versions, v.id = versionId →
    v.lifecycleStatus = .draft → v.manifest.Valid
  edited : ∀ row ∈ call.request.edits?, ∀ v ∈ db.versions, v.id = row.packVersionId →
    v.lifecycleStatus = .draft → v.manifest.Lists row
  activated : ∀ s ∈ db.activated call, ∀ v ∈ db.versions, v.id = s.packVersionId →
    v.lifecycleStatus ≠ .retired
  whole : (db.activated call).isSome →
    ∀ limit ∈ call.commercial.packLimit call.organizationId call.now,
      (db.activeCount call.organizationId : ℚ) < limit →
        (db.activeCount call.organizationId : ℚ) + 1 ≤ limit

instance (db : Db) (call : Call) : Decidable (Careful db call) :=
  decidable_of_iff (_ ∧ _ ∧ _ ∧ _)
    ⟨fun h => ⟨h.1, h.2.1, h.2.2.1, h.2.2.2⟩, fun h => ⟨h.declared, h.edited, h.activated, h.whole⟩⟩

variable {db db' : Db} {call : Call}

/-! ## What every call keeps -/

/-- The columns of `uq_pack_component`. -/
def Component.key (component : Component) : UUID × ComponentType × String :=
  (component.packVersionId, component.componentType, component.code)

theorem Component.clash_iff {a b : Component} : a.clash b ↔ a.key = b.key := by
  simp only [clash, key, Prod.mk.injEq]

/-- What holds of the tables in every run. -/
structure Kept (db : Db) : Prop where
  versionIds : Unique Version.id db.versions
  assignmentIds : Unique Assignment.id db.assignments
  stateIds : Unique AssignmentState.id db.states
  stateOwners : Unique AssignmentState.assignmentId db.states
  componentKeys : Unique Component.key db.components
  owned : ∀ c ∈ db.components, ∃ v ∈ db.versions, v.id = c.packVersionId
  paired : ∀ a ∈ db.assignments, ∃ s ∈ db.states, s.assignmentId = a.id
  agree : ∀ s ∈ db.states, s.Agrees db

theorem kept_empty : Kept .empty where
  versionIds := Unique.nil
  assignmentIds := Unique.nil
  stateIds := Unique.nil
  stateOwners := Unique.nil
  componentKeys := Unique.nil
  owned := fun _ hc => absurd hc not_mem_nil
  paired := fun _ ha => absurd ha not_mem_nil
  agree := fun _ hs => absurd hs not_mem_nil

variable {state : AssignmentState} {version' : Version} {versionId organizationId : UUID}

/-- A state agrees as long as its assignment and the pack of its version stay. -/
theorem AssignmentState.Agrees.mono (h : state.Agrees db)
    (hassignments : ∀ a ∈ db.assignments, a.id = state.assignmentId → a ∈ db'.assignments)
    (hversions : ∀ v ∈ db.versions, ∃ v' ∈ db'.versions, v'.id = v.id ∧ v'.packId = v.packId) :
    state.Agrees db' := by
  obtain ⟨a, ha, hid, horganization, hstatus, v, hv, hversion, hpack⟩ := h
  obtain ⟨v', hv', hid', hpack'⟩ := hversions v hv
  exact ⟨a, hassignments a ha hid, hid, horganization, hstatus, v', hv', hid'.trans hversion,
    hpack'.trans hpack⟩

variable {v : Version} {assignments : List Assignment} {states : List AssignmentState}
  {f : AssignmentState → AssignmentState} {s : AssignmentState} {last : Option ℚ}

theorem mem_setVersion {version : Version} (hv : v ∈ (db.setVersion version).versions) :
    v = version ∨ v ∈ db.versions ∧ v.id ≠ version.id := by
  obtain ⟨r, hr, rfl⟩ := mem_update.1 hv
  by_cases hid : r.id = version.id
  · rw [if_pos (decide_eq_true hid)]
    exact .inl rfl
  · rw [if_neg (by simp [hid])]
    exact .inr ⟨hr, hid⟩

theorem exists_setVersion (h : Kept db) {version : Version} (hmem : version ∈ db.versions)
    (hid : version'.id = version.id) (hpack : version'.packId = version.packId)
    (hv : v ∈ db.versions) :
    ∃ v' ∈ (db.setVersion version').versions, v'.id = v.id ∧ v'.packId = v.packId := by
  by_cases hsame : v.id = version'.id
  · refine ⟨version', mem_update_of_selected hv (decide_eq_true hsame), hsame.symm, ?_⟩
    rw [h.versionIds.eq_of_key_eq hv hmem (hsame.trans hid), hpack]
  · exact ⟨v, mem_update_of_mem hv (decide_eq_false hsame), rfl, rfl⟩

theorem Kept.setVersion (h : Kept db) {version : Version} (hmem : version ∈ db.versions)
    (hid : version'.id = version.id) (hpack : version'.packId = version.packId) :
    Kept (db.setVersion version') where
  versionIds := h.versionIds.update_of_selected fun v _ hv => (of_decide_eq_true hv).symm
  assignmentIds := h.assignmentIds
  stateIds := h.stateIds
  stateOwners := h.stateOwners
  componentKeys := h.componentKeys
  owned := by
    intro c hc
    obtain ⟨v, hv, hversion⟩ := h.owned c hc
    obtain ⟨v', hv', hid', -⟩ := exists_setVersion h hmem hid hpack hv
    exact ⟨v', hv', hid'.trans hversion⟩
  paired := h.paired
  agree := fun s hs => (h.agree s hs).mono (fun _ ha _ => ha)
    fun _ hv => exists_setVersion h hmem hid hpack hv

theorem componentRows_packVersionId {manifest : Manifest} {rows : List Component}
    (h : manifest.componentRows versionId = .ok rows) :
    ∀ c ∈ rows, c.packVersionId = versionId := by
  simp only [Manifest.componentRows, bind_eq_ok, pure_eq_ok] at h
  obtain ⟨found, hfound, rfl⟩ := h
  intro c hc
  obtain ⟨row, hrow, hsome⟩ := mem_filterMap.1 hc
  obtain ⟨item, -, hitem⟩ := (mem_of_mapM_eq_ok hfound).1 hrow
  rw [show row = some c from hsome] at hitem
  cases item with
  | other => cases hitem
  | object type code universalParent config =>
    simp only [ManifestItem.row, bind_eq_ok, pure_eq_ok, some.injEq] at hitem
    obtain ⟨_, -, _, -, _, -, _, -, rfl⟩ := hitem
    rfl

theorem Kept.versionCreated (h : Kept db) {version : Version} {rows : List Component}
    (hfresh : ∀ v ∈ db.versions, v.id ≠ version.id)
    (hrows : version.manifest.componentRows version.id = .ok rows)
    (hfree : insertAll Component.clash rows db.components = some (db.components ++ rows)) :
    Kept { db with
      versions := db.versions ++ [version]
      components := db.components ++ rows } where
  versionIds := h.versionIds.append hfresh
  assignmentIds := h.assignmentIds
  stateIds := h.stateIds
  stateOwners := h.stateOwners
  componentKeys := h.componentKeys.insertAll (fun _ _ => Component.clash_iff.2) hfree
  owned := by
    intro c hc
    rcases mem_append.1 hc with hold | hnew
    · obtain ⟨v, hv, hid⟩ := h.owned c hold
      exact ⟨v, mem_append_left _ hv, hid⟩
    · refine ⟨version, mem_append_right _ (mem_singleton.2 rfl), ?_⟩
      exact (componentRows_packVersionId hrows c hnew).symm
  paired := h.paired
  agree := fun s hs => (h.agree s hs).mono (fun _ ha _ => ha)
    fun v hv => ⟨v, mem_append_left _ hv, rfl, rfl⟩

theorem Kept.componentPut (h : Kept db) {version : Version} {row : Component}
    {components : List Component} (hmem : version ∈ db.versions)
    (hrow : row.packVersionId = version.id)
    (hcomponents : components = update (fun c => c.clash row) (fun _ => row) db.components ∨
      (∀ c ∈ db.components, ¬ c.clash row) ∧ components = db.components ++ [row]) :
    Kept { db with components := components } where
  versionIds := h.versionIds
  assignmentIds := h.assignmentIds
  stateIds := h.stateIds
  stateOwners := h.stateOwners
  componentKeys := by
    rcases hcomponents with rfl | ⟨hfree, rfl⟩
    · refine h.componentKeys.update_of_selected fun c _ hc => ?_
      exact (Component.clash_iff.1 (of_decide_eq_true hc)).symm
    · exact h.componentKeys.append fun c hc hkey => hfree c hc (Component.clash_iff.2 hkey)
  owned := by
    have hold : ∀ c, c = row ∨ c ∈ db.components → ∃ v ∈ db.versions, v.id = c.packVersionId := by
      rintro c (rfl | hc)
      · exact ⟨version, hmem, hrow.symm⟩
      · exact h.owned c hc
    intro c hc
    apply hold
    rcases hcomponents with rfl | ⟨-, rfl⟩
    · obtain ⟨r, hr, rfl⟩ := mem_update.1 hc
      split
      · exact .inl rfl
      · exact .inr hr
    · rcases mem_append.1 hc with hc | hc
      · exact .inr hc
      · exact .inl (mem_singleton.1 hc)
  paired := h.paired
  agree := h.agree

/-! ## The two rows of an assignment -/

/-- One assignment and its state are written, and all others stay. -/
structure WrittenTogether (db : Db) (row : Assignment) (versionId : UUID)
    (assignments : List Assignment) (states : List AssignmentState) : Prop where
  assignmentIds : Unique Assignment.id assignments
  stateIds : Unique AssignmentState.id states
  stateOwners : Unique AssignmentState.assignmentId states
  stored : row ∈ assignments
  assignment : ∀ a ∈ assignments, a = row ∨ a ∈ db.assignments
  others : ∀ a ∈ db.assignments, a.id ≠ row.id → a ∈ assignments
  owner : ∃ s ∈ states, s.assignmentId = row.id
  owners : ∀ s ∈ db.states, ∃ s' ∈ states, s'.assignmentId = s.assignmentId
  state : ∀ s ∈ states, s.assignmentId = row.id ∧ s.organizationId = row.organizationId ∧
    s.packVersionId = versionId ∧ s.status = row.status ∨ s ∈ db.states ∧ s.assignmentId ≠ row.id

theorem Kept.writtenTogether (h : Kept db) {row : Assignment} {version : Version}
    (hmem : version ∈ db.versions) (hpack : version.packId = row.packId)
    (hwritten : WrittenTogether db row version.id assignments states) :
    Kept { db with assignments := assignments, states := states } where
  versionIds := h.versionIds
  assignmentIds := hwritten.assignmentIds
  stateIds := hwritten.stateIds
  stateOwners := hwritten.stateOwners
  componentKeys := h.componentKeys
  owned := h.owned
  paired := by
    intro a ha
    rcases hwritten.assignment a ha with rfl | hold
    · exact hwritten.owner
    · obtain ⟨s, hs, hid⟩ := h.paired a hold
      obtain ⟨s', hs', hid'⟩ := hwritten.owners s hs
      exact ⟨s', hs', hid'.trans hid⟩
  agree := by
    intro s hs
    rcases hwritten.state s hs with ⟨hid, horganization, hversion, hstatus⟩ | ⟨hold, hother⟩
    · exact ⟨row, hwritten.stored, hid.symm, horganization.symm, hstatus.symm, version, hmem,
        hversion.symm, hpack⟩
    · refine (h.agree s hold).mono (fun a ha hid => hwritten.others a ha ?_)
        fun v hv => ⟨v, hv, rfl, rfl⟩
      rw [hid]
      exact hother

theorem Kept.mem_update_state (h : Kept db) (hmem : state ∈ db.states)
    (hs : s ∈ update (·.id = state.id) f db.states) :
    s = f state ∨ s ∈ db.states ∧ s.assignmentId ≠ state.assignmentId := by
  obtain ⟨r, hr, rfl⟩ := mem_update.1 hs
  by_cases hid : r.id = state.id
  · rw [if_pos (decide_eq_true hid), h.stateIds.eq_of_key_eq hr hmem hid]
    exact .inl rfl
  · rw [if_neg (by simp [hid])]
    refine .inr ⟨hr, fun hsame => hid ?_⟩
    rw [h.stateOwners.eq_of_key_eq hr hmem hsame]

theorem exists_update_state {p : AssignmentState → Bool}
    (hf : ∀ s, (f s).assignmentId = s.assignmentId) (hs : s ∈ db.states) :
    ∃ s' ∈ update p f db.states, s'.assignmentId = s.assignmentId := by
  by_cases hp : p s = true
  · exact ⟨f s, mem_update_of_selected hs hp, hf s⟩
  · exact ⟨s, mem_update_of_mem hs (by simpa using hp), rfl⟩

theorem Kept.written_assigned (h : Kept db) {row : Assignment} {id : UUID}
    (hstatus : row.status = .assigned) (hrow : PutAssignment db row assignments)
    (hstate : PutState db row versionId id states) :
    WrittenTogether db row versionId assignments states where
  assignmentIds := by
    cases hrow with
    | existing old hmem hid =>
      exact h.assignmentIds.update_of_selected fun a _ ha => (of_decide_eq_true ha).symm
    | new hfresh => exact h.assignmentIds.append hfresh
  stateIds := by
    cases hstate with
    | existing state hmem hassignment horganization => exact h.stateIds.update fun _ => rfl
    | new hfree => exact h.stateIds.append fun s hs => (hfree s hs).1
  stateOwners := by
    cases hstate with
    | existing state hmem hassignment horganization => exact h.stateOwners.update fun _ => rfl
    | new hfree => exact h.stateOwners.append fun s hs => (hfree s hs).2
  stored := by
    cases hrow with
    | existing old hmem hid => exact mem_update_of_selected hmem (decide_eq_true hid.symm)
    | new hfresh => exact mem_append_right _ (mem_singleton.2 rfl)
  assignment := by
    intro a ha
    cases hrow with
    | existing old hmem hid =>
      obtain ⟨r, hr, rfl⟩ := mem_update.1 ha
      split
      · exact .inl rfl
      · exact .inr hr
    | new hfresh =>
      rcases mem_append.1 ha with hold | hnew
      · exact .inr hold
      · exact .inl (mem_singleton.1 hnew)
  others := by
    intro a ha hother
    cases hrow with
    | existing old hmem hid => exact mem_update_of_mem ha (decide_eq_false hother)
    | new hfresh => exact mem_append_left _ ha
  owner := by
    cases hstate with
    | existing state hmem hassignment horganization =>
      obtain ⟨s', hs', hid⟩ := exists_update_state (p := (·.id = state.id))
        (f := fun s => { s with packVersionId := versionId, status := .assigned })
        (fun _ => rfl) hmem
      exact ⟨s', hs', hid.trans hassignment⟩
    | new hfree => exact ⟨_, mem_append_right _ (mem_singleton.2 rfl), rfl⟩
  owners := by
    intro s hs
    cases hstate with
    | existing state hmem hassignment horganization =>
      exact exists_update_state
        (f := fun s => { s with packVersionId := versionId, status := .assigned }) (fun _ => rfl) hs
    | new hfree => exact ⟨s, mem_append_left _ hs, rfl⟩
  state := by
    intro s hs
    cases hstate with
    | existing state hmem hassignment horganization =>
      rcases h.mem_update_state hmem hs with rfl | ⟨hold, hother⟩
      · exact .inl ⟨hassignment, horganization, rfl, hstatus.symm⟩
      · rw [hassignment] at hother
        exact .inr ⟨hold, hother⟩
    | new hfree =>
      rcases mem_append.1 hs with hold | hnew
      · exact .inr ⟨hold, (hfree s hold).2⟩
      · rw [mem_singleton.1 hnew]
        exact .inl ⟨rfl, rfl, rfl, hstatus.symm⟩

section Moved

variable {state : AssignmentState} {status : AssignmentStatus} {now : Instant}

@[simp] theorem AssignmentState.moved_id : (state.moved status now).id = state.id := by
  unfold moved
  split <;> rfl

@[simp] theorem AssignmentState.moved_organizationId :
    (state.moved status now).organizationId = state.organizationId := by
  unfold moved
  split <;> rfl

@[simp] theorem AssignmentState.moved_assignmentId :
    (state.moved status now).assignmentId = state.assignmentId := by
  unfold moved
  split <;> rfl

@[simp] theorem AssignmentState.moved_packVersionId :
    (state.moved status now).packVersionId = state.packVersionId := by
  unfold moved
  split <;> rfl

@[simp] theorem AssignmentState.moved_status : (state.moved status now).status = status := by
  unfold moved
  split <;> rfl

end Moved

theorem Kept.organization_eq (h : Kept db) {row : Assignment} (hrow : row ∈ db.assignments)
    (hstate : state ∈ db.states) (hassignment : state.assignmentId = row.id) :
    row.organizationId = state.organizationId := by
  obtain ⟨a, ha, hid, horganization, -⟩ := h.agree state hstate
  rw [← h.assignmentIds.eq_of_key_eq ha hrow (hid.trans hassignment)]
  exact horganization

theorem Kept.written_statusSet (h : Kept db) {row : Assignment} (status : AssignmentStatus)
    (now : Instant) (hrow : row ∈ db.assignments) (hstate : state ∈ db.states)
    (hassignment : state.assignmentId = row.id) :
    WrittenTogether db { row with status := status } state.packVersionId
      (update (·.id = row.id) (fun a => { a with status := status }) db.assignments)
      (update (·.id = state.id) (fun s => s.moved status now) db.states) where
  assignmentIds := h.assignmentIds.update fun _ => rfl
  stateIds := h.stateIds.update fun _ => AssignmentState.moved_id
  stateOwners := h.stateOwners.update fun _ => AssignmentState.moved_assignmentId
  stored := mem_update_of_selected hrow (decide_eq_true rfl)
  assignment := by
    intro a ha
    obtain ⟨r, hr, rfl⟩ := mem_update.1 ha
    by_cases hid : r.id = row.id
    · rw [if_pos (decide_eq_true hid), h.assignmentIds.eq_of_key_eq hr hrow hid]
      exact .inl rfl
    · rw [if_neg (by simp [hid])]
      exact .inr hr
  others := fun a ha hother => mem_update_of_mem ha (decide_eq_false hother)
  owner := by
    obtain ⟨s', hs', hid⟩ := exists_update_state (p := (·.id = state.id))
      (f := fun s => s.moved status now) (fun _ => AssignmentState.moved_assignmentId) hstate
    exact ⟨s', hs', hid.trans hassignment⟩
  owners := fun s hs => exists_update_state (fun _ => AssignmentState.moved_assignmentId) hs
  state := by
    intro s hs
    rcases h.mem_update_state hstate hs with rfl | ⟨hold, hother⟩
    · refine .inl ⟨?_, ?_, AssignmentState.moved_packVersionId, AssignmentState.moved_status⟩
      · rw [AssignmentState.moved_assignmentId]
        exact hassignment
      · rw [AssignmentState.moved_organizationId]
        exact (h.organization_eq hrow hstate hassignment).symm
    · rw [hassignment] at hother
      exact .inr ⟨hold, hother⟩

/-- Every call keeps the tables in order. -/
theorem PackStep.kept (hstep : PackStep db call db') (h : Kept db) : Kept db' := by
  cases hstep with
  | packCreated packs =>
    exact ⟨h.versionIds, h.assignmentIds, h.stateIds, h.stateOwners, h.componentKeys, h.owned,
      h.paired, h.agree⟩
  | versionCreated version rows hstatus hfresh hrows hfree =>
    exact h.versionCreated hfresh hrows hfree
  | validated version hmem hvalid | moved version target hmem hrequest hallowed hretired =>
    exact h.setVersion hmem rfl rfl
  | componentPut version payload components hmem hstatus hrequest hcomponents =>
    exact h.componentPut hmem rfl hcomponents
  | assigned row version assignments states payload hrequest hmem hpack hstatus hrow hstate =>
    exact h.writtenTogether hmem hpack (h.written_assigned hstatus hrow hstate)
  | statusSet row state status hrow hstate hassignment horganization hrequest hlimit =>
    obtain ⟨a, ha, hid, -, -, version, hmem, hversion, hpack⟩ := h.agree state hstate
    have hrowPack : version.packId = ({ row with status := status } : Assignment).packId := by
      rw [hpack, h.assignmentIds.eq_of_key_eq ha hrow (hid.trans hassignment)]
    have hwritten := h.written_statusSet status call.now hrow hstate hassignment
    rw [← hversion] at hwritten
    exact h.writtenTogether hmem hrowPack hwritten

/-! ## What careful calls keep -/

/-- What careful calls keep besides. -/
structure Watched (db : Db) : Prop where
  notRetired : ∀ s ∈ db.states, s.status = .active →
    ∀ v ∈ db.versions, v.id = s.packVersionId → v.lifecycleStatus ≠ .retired
  valid : ∀ v ∈ db.versions, v.lifecycleStatus ≠ .draft → v.manifest.Valid
  written : ∀ v ∈ db.versions, v.manifest.componentRows v.id = .ok (db.componentsOf v.id)

theorem watched_empty : Watched .empty where
  notRetired := fun _ hs => absurd hs not_mem_nil
  valid := fun _ hv => absurd hv not_mem_nil
  written := fun _ hv => absurd hv not_mem_nil

theorem componentsOf_append_self (h : Kept db) {rows : List Component}
    (hfresh : ∀ v ∈ db.versions, v.id ≠ versionId)
    (hrows : ∀ c ∈ rows, c.packVersionId = versionId) :
    (db.components ++ rows).filter (·.packVersionId = versionId) = rows := by
  have hnone : db.components.filter (·.packVersionId = versionId) = [] := by
    rw [filter_eq_nil_iff]
    intro c hc hid
    obtain ⟨v, hv, hversion⟩ := h.owned c hc
    exact hfresh v hv (hversion.trans (of_decide_eq_true hid))
  rw [filter_append, hnone, nil_append, filter_eq_self]
  exact fun c hc => decide_eq_true (hrows c hc)

theorem componentsOf_append_other {other : UUID} {rows : List Component}
    (hrows : ∀ c ∈ rows, c.packVersionId = versionId) (hne : other ≠ versionId) :
    (db.components ++ rows).filter (·.packVersionId = other) = db.componentsOf other := by
  have hnone : rows.filter (·.packVersionId = other) = [] := by
    rw [filter_eq_nil_iff]
    intro c hc hid
    exact hne ((of_decide_eq_true hid).symm.trans (hrows c hc))
  rw [filter_append, hnone, append_nil]
  rfl

theorem Watched.versionCreated (h : Watched db) (hkept : Kept db) {version : Version}
    {rows : List Component} (hstatus : version.lifecycleStatus = .draft)
    (hfresh : ∀ v ∈ db.versions, v.id ≠ version.id)
    (hrows : version.manifest.componentRows version.id = .ok rows) :
    Watched { db with
      versions := db.versions ++ [version]
      components := db.components ++ rows } where
  notRetired := by
    intro s hs hactive v hv hid
    rcases mem_append.1 hv with hold | hnew
    · exact h.notRetired s hs hactive v hold hid
    · rw [mem_singleton.1 hnew, hstatus]
      intro hretired
      cases hretired
  valid := by
    intro v hv hdraft
    rcases mem_append.1 hv with hold | hnew
    · exact h.valid v hold hdraft
    · rw [mem_singleton.1 hnew] at hdraft
      exact absurd hstatus hdraft
  written := by
    have howner := componentRows_packVersionId hrows
    intro v hv
    rcases mem_append.1 hv with hold | hnew
    · rw [h.written v hold]
      exact congrArg _ (componentsOf_append_other howner (hfresh v hold)).symm
    · rw [mem_singleton.1 hnew, hrows]
      exact congrArg _ (componentsOf_append_self hkept hfresh howner).symm

/-- A version whose status changes: it does not retire under an active state, and what was not
validated is valid. -/
theorem Watched.setVersion (h : Watched db) {version : Version} (hmem : version ∈ db.versions)
    (hid : version'.id = version.id) (hmanifest : version'.manifest = version.manifest)
    (hretired : version'.lifecycleStatus = .retired → ¬ db.InUse version.id)
    (hvalid : version'.lifecycleStatus ≠ .draft → version.manifest.Valid) :
    Watched (db.setVersion version') where
  notRetired := by
    intro s hs hactive v hv hversion
    rcases mem_setVersion hv with rfl | ⟨hold, -⟩
    · intro hstatus
      exact hretired hstatus ⟨s, hs, hversion.symm.trans hid, hactive⟩
    · exact h.notRetired s hs hactive v hold hversion
  valid := by
    intro v hv hdraft
    rcases mem_setVersion hv with rfl | ⟨hold, -⟩
    · rw [hmanifest]
      exact hvalid hdraft
    · exact h.valid v hold hdraft
  written := by
    intro v hv
    rcases mem_setVersion hv with rfl | ⟨hold, -⟩
    · rw [hmanifest, hid]
      exact h.written version hmem
    · exact h.written v hold

theorem components_of_lists (h : Watched db) (hkept : Kept db) {version : Version} {row : Component}
    {components : List Component} (hmem : version ∈ db.versions)
    (hrow : row.packVersionId = version.id) (hlists : version.manifest.Lists row)
    (hcomponents : components = update (fun c => c.clash row) (fun _ => row) db.components ∨
      (∀ c ∈ db.components, ¬ c.clash row) ∧ components = db.components ++ [row]) :
    components = db.components := by
  have hstored : row ∈ db.components := by
    rw [Manifest.Lists, hrow, h.written version hmem] at hlists
    exact mem_of_mem_filter hlists
  rcases hcomponents with rfl | ⟨hfree, -⟩
  · apply update_eq_self
    intro c hc hclash
    exact hkept.componentKeys.eq_of_key_eq hstored hc
      (Component.clash_iff.1 (of_decide_eq_true hclash)).symm
  · exact absurd (Component.clash_iff.2 rfl) (hfree row hstored)

theorem Request.activates?_eq_some {request : Request} {assignmentId : UUID} :
    request.activates? = some assignmentId ↔ request = .setStatus assignmentId .active := by
  constructor
  · intro h
    unfold activates? at h
    split at h
    · rw [some.inj h]
    · cases h
  · rintro rfl
    rfl

theorem Kept.activated_eq (h : Kept db) (hstate : state ∈ db.states)
    (horganization : state.organizationId = call.organizationId)
    (hrequest : call.request = .setStatus state.assignmentId .active)
    (hinactive : state.status ≠ .active) : db.activated call = some state := by
  rw [Db.activated, Request.activates?_eq_some.2 hrequest]
  exact h.stateOwners.find?_eq_some hstate (decide_eq_true ⟨rfl, horganization, hinactive⟩)
    fun s _ hs => (of_decide_eq_true hs).1

theorem PackStep.watched (hstep : PackStep db call db') (hcareful : Careful db call)
    (hkept : Kept db) (h : Watched db) : Watched db' := by
  cases hstep with
  | packCreated packs => exact ⟨h.notRetired, h.valid, h.written⟩
  | versionCreated version rows hstatus hfresh hrows hfree =>
    exact h.versionCreated hkept hstatus hfresh hrows
  | validated version hmem hvalid =>
    exact h.setVersion hmem rfl rfl (fun hretired => by cases hretired) fun _ => hvalid
  | moved version target hmem hrequest hallowed hretired =>
    refine h.setVersion hmem rfl rfl hretired fun _ => ?_
    by_cases hdraft : version.lifecycleStatus = .draft
    · rw [hdraft] at hallowed
      obtain rfl := mem_singleton.1 hallowed
      refine hcareful.declared version.id ?_ version hmem rfl hdraft
      rw [hrequest]
      rfl
    · exact h.valid version hmem hdraft
  | componentPut version payload components hmem hstatus hrequest hcomponents =>
    have hlists : version.manifest.Lists (payload.row version.id) := by
      refine hcareful.edited _ ?_ version hmem rfl hstatus
      rw [hrequest]
      rfl
    rw [components_of_lists h hkept hmem rfl hlists hcomponents]
    exact h
  | assigned row version assignments states payload hrequest hmem hpack hstatus hrow hstate =>
    have hwritten := hkept.written_assigned hstatus hrow hstate
    refine ⟨fun s hs hactive v hv hid => ?_, h.valid, h.written⟩
    rcases hwritten.state s hs with ⟨-, -, -, hsame⟩ | ⟨hold, -⟩
    · rw [hsame, hstatus] at hactive
      cases hactive
    · exact h.notRetired s hold hactive v hv hid
  | statusSet row state status hrow hstate hassignment horganization hrequest hlimit =>
    refine ⟨fun s hs hactive v hv hid => ?_, h.valid, h.written⟩
    rcases hkept.mem_update_state hstate hs with rfl | ⟨hold, -⟩
    · rw [AssignmentState.moved_status] at hactive
      rw [AssignmentState.moved_packVersionId] at hid
      by_cases hbefore : state.status = .active
      · exact h.notRetired state hstate hbefore v hv hid
      · rw [hactive, ← hassignment] at hrequest
        exact hcareful.activated state
          (hkept.activated_eq hstate horganization hrequest hbefore) v hv hid
    · exact h.notRetired s hold hactive v hv hid

/-! ## Activations and limits -/

theorem count_lt_of_activated (h : Kept db) (hserve : serve db call = .ok db')
    (hactivated : (db.activated call).isSome) :
    ∀ limit ∈ call.commercial.packLimit call.organizationId call.now,
      (db.activeCount call.organizationId : ℚ) < limit := by
  obtain ⟨s, hs⟩ := isSome_iff_exists.1 hactivated
  obtain ⟨assignmentId, hrequest, hfind⟩ := bind_eq_some_iff.1 hs
  obtain ⟨hmem, hassignment, -, hinactive⟩ := find?_spec hfind
  rw [Request.activates?_eq_some] at hrequest
  simp only [serve, hrequest, Db.setStatus, Db.assignment, bind_eq_ok, ensure_eq_ok, orFail_eq_ok,
    pure_eq_ok] at hserve
  obtain ⟨_, ⟨row, hrow, state, hstate, rfl⟩, _, -, _, hlimit, -⟩ := hserve
  obtain ⟨-, hid, -⟩ := find?_spec hrow
  obtain ⟨hstateMem, howner, -⟩ := find?_spec hstate
  have hsame : s = state := by
    apply h.stateOwners.eq_of_key_eq hmem hstateMem
    rw [hassignment, howner, hid]
  rw [hsame] at hinactive
  exact hlimit trivial hinactive

theorem PackStep.activeCount_le_succ (hstep : PackStep db call db') (h : Kept db)
    (organizationId : UUID) :
    db'.activeCount organizationId ≤ db.activeCount organizationId + 1 := by
  have hone : ∀ (stateId : UUID) (f : AssignmentState → AssignmentState),
      (update (·.id = stateId) f db.states).countP
          (fun s => s.organizationId = organizationId ∧ s.status = .active) ≤
        db.activeCount organizationId + 1 := by
    intro stateId f
    refine Nat.le_trans (countP_update_le_add _ _ _ _) (Nat.add_le_add_left ?_ _)
    apply h.stateIds.countP_le_one
    intro a b ha hb
    exact (of_decide_eq_true ha).trans (of_decide_eq_true hb).symm
  cases hstep with
  | assigned row version assignments states payload hrequest hmem hpack hstatus hrow hstate =>
    cases hstate with
    | existing state hmem hassignment horganization => exact hone state.id _
    | new hfree =>
      show List.countP _ (db.states ++ [_]) ≤ _
      rw [countP_append]
      exact Nat.add_le_add_left countP_le_length _
  | statusSet row state status hrow hstate hassignment horganization hrequest hlimit =>
    exact hone state.id _
  | _ => exact Nat.le_succ _

theorem PackStep.activeCount_le (hstep : PackStep db call db') (h : Kept db)
    (hnone : ¬ (call.organizationId = organizationId ∧ (db.activated call).isSome)) :
    db'.activeCount organizationId ≤ db.activeCount organizationId := by
  cases hstep with
  | assigned row version assignments states payload hrequest hmem hpack hstatus hrow hstate =>
    cases hstate with
    | existing state hmem hassignment horganization =>
      apply countP_update_le
      intro s _ _ hactive
      cases (of_decide_eq_true hactive).2
    | new hfree =>
      show List.countP _ (db.states ++ [_]) ≤ _
      rw [countP_append, countP_singleton, if_neg (by simp)]
      exact Nat.le_refl _
  | statusSet row state status hrow hstate hassignment horganization hrequest hlimit =>
    apply countP_update_le
    intro s hs hid hactive
    have hsame : s = state := h.stateIds.eq_of_key_eq hs hstate (of_decide_eq_true hid)
    have hmoved := of_decide_eq_true hactive
    rw [AssignmentState.moved_organizationId, AssignmentState.moved_status] at hmoved
    obtain ⟨htenant, hstatus⟩ := hmoved
    refine decide_eq_true ⟨htenant, ?_⟩
    by_contra hinactive
    rw [hsame] at htenant hinactive
    rw [hstatus, ← hassignment] at hrequest
    apply hnone
    rw [h.activated_eq hstate horganization hrequest hinactive]
    exact ⟨horganization.symm.trans htenant, rfl⟩
  | _ => exact Nat.le_refl _

theorem limited_of_serve (h : Kept db) (hcareful : Careful db call)
    (hserve : serve db call = .ok db')
    (hlast : ∀ limit ∈ last, (db.activeCount organizationId : ℚ) ≤ limit) :
    ∀ limit ∈ (activatedUnder organizationId db call).getD last,
      (db'.activeCount organizationId : ℚ) ≤ limit := by
  intro limit hlimit
  have hstep := serve_step hserve
  rw [activatedUnder, hserve] at hlimit
  by_cases hactivates : call.organizationId = organizationId ∧ (db.activated call).isSome
  · rw [if_pos hactivates, getD_some] at hlimit
    obtain ⟨rfl, hactivated⟩ := hactivates
    have hbelow := count_lt_of_activated h hserve hactivated limit hlimit
    calc (db'.activeCount call.organizationId : ℚ)
        ≤ (db.activeCount call.organizationId : ℚ) + 1 := by
          exact_mod_cast hstep.activeCount_le_succ h call.organizationId
      _ ≤ limit := hcareful.whole hactivated limit hlimit hbelow
  · rw [if_neg hactivates, getD_none] at hlimit
    calc (db'.activeCount organizationId : ℚ)
        ≤ (db.activeCount organizationId : ℚ) := by
          exact_mod_cast hstep.activeCount_le h hactivates
      _ ≤ limit := hlast limit hlimit

theorem service_ok {u : Unit} (h : service db call = .ok (db', u)) : serve db call = .ok db' := by
  obtain ⟨a, hserve, heq⟩ := map_eq_ok.1 h
  rw [hserve, (Prod.mk.inj heq).1]

theorem service_error {e : Error} (h : service db call = .error e) :
    ∃ e', serve db call = .error e' := by
  cases hserve : serve db call with
  | ok a =>
    rw [service, hserve] at h
    cases h
  | error e' => exact ⟨e', rfl⟩

/-! ## Runs -/

theorem kept_run {calls : List Call} (h : Kept db) : Kept (service.run db calls) :=
  run_invariant h (fun hkept hok => (serve_step (service_ok hok)).kept hkept) calls

theorem watched_run {calls : List Call} (hcareful : service.AllSteps Careful .empty calls) :
    Watched (after calls) := by
  have hboth : Kept (after calls) ∧ Watched (after calls) := by
    refine run_invariant_of (P := fun db => Kept db ∧ Watched db)
      ⟨kept_empty, watched_empty⟩ ?_ hcareful
    intro db call db' u h hcall hok
    have hstep := serve_step (service_ok hok)
    exact ⟨hstep.kept h.1, hstep.watched hcall h.1 h.2⟩
  exact hboth.2

theorem limited_run {calls : List Call} (h : Kept db)
    (hcareful : service.AllSteps Careful db calls)
    (hlast : ∀ limit ∈ last, (db.activeCount organizationId : ℚ) ≤ limit) :
    ∀ limit ∈ latestLimit organizationId db calls last,
      ((service.run db calls).activeCount organizationId : ℚ) ≤ limit := by
  induction calls generalizing db last with
  | nil => exact hlast
  | cons call calls ih =>
    obtain ⟨hcall, hrest⟩ := hcareful
    rcases next_cases service db call with ⟨db', u, hok, hnext⟩ | ⟨e, herror, hnext⟩
    · have hserve := service_ok hok
      rw [hnext] at hrest
      rw [latestLimit, run_cons, hnext]
      exact ih ((serve_step hserve).kept h) hrest (limited_of_serve h hcall hserve hlast)
    · obtain ⟨e', hserve⟩ := service_error herror
      rw [hnext] at hrest
      rw [latestLimit, run_cons, hnext, activatedUnder, hserve]
      exact ih h hrest hlast

theorem Watched.governed (h : Watched db) (hkept : Kept db) : Governed db where
  notRetired := h.notRetired
  paired := hkept.paired
  agree := hkept.agree
  released := by
    intro v hv hreleased
    refine ⟨h.valid v hv ?_, h.written v hv⟩
    intro hdraft
    rcases hreleased with hstatus | hstatus | hstatus
    · rw [hdraft] at hstatus
      cases hstatus
    · rw [hdraft] at hstatus
      cases hstatus
    · rw [hdraft] at hstatus
      cases hstatus

/-- Whatever careful calls are made, no tenant runs a retired pack, the limits of activations are
respected, assignments and states agree, and what is published was validated. -/
theorem safe_of_careful (calls : List Call) (h : service.AllSteps Careful .empty calls) :
    Safe calls where
  governed := (watched_run h).governed (kept_run kept_empty)
  limited := fun _ => limited_run kept_empty h fun _ hlimit => by cases hlimit

namespace Reactivated

/-- The objects of a manifest with one component of every type. -/
def items : List ManifestItem := requiredComponents.map fun type =>
  .object (some (.text type.value)) (some (.text "C")) (some (.text "P")) none

/-- A tenant with a running subscription to the pack, and room for one active pack. -/
def commercial : Commercial where
  subscriptions := [⟨7, .active, 0, 1000, none, 0⟩]
  overrides := []
  entitlements := [⟨7, "packs.a", true, none, 0, none, 0⟩,
    ⟨7, "limits.industry_packs", true, some 1, 0, none, 0⟩]

/-- A call of the tenant at a time. -/
def callAt (now : Instant) (drawn : UUID) (request : Request) : Call :=
  ⟨7, commercial, now, drawn, drawn + 100, request⟩

/-- A pack is published and assigned. -/
def published : List Call := [
  callAt 1 1 (.createPack ⟨"A", "packs.a"⟩),
  callAt 2 2 (.createVersion "A" ⟨"1.0.0", ⟨some items⟩⟩),
  callAt 3 0 (.validate 2),
  callAt 4 0 (.transition 2 .approved),
  callAt 5 0 (.transition 2 .published),
  callAt 6 3 (.assign ⟨"A", "1.0.0", 6, none⟩)]

/-- The assignment is activated. -/
def activated : List Call := published ++ [callAt 7 0 (.setStatus 3 .active)]

/-- The version retires before the assignment is activated. -/
def retired : List Call := published ++ [
  callAt 7 0 (.transition 2 .deprecated),
  callAt 8 0 (.transition 2 .retired),
  callAt 9 0 (.setStatus 3 .active)]

end Reactivated

theorem safe_of_careful_activated : Safe Reactivated.activated :=
  safe_of_careful Reactivated.activated (by decide +kernel)

/-- An assignment is activated on a version that has retired. -/
theorem Reactivated.not_safe : ¬ Safe Reactivated.retired := by
  intro h
  have hactive : ∃ s ∈ (after Reactivated.retired).states, s.status = .active ∧
      ∃ v ∈ (after Reactivated.retired).versions, v.id = s.packVersionId ∧
        v.lifecycleStatus = .retired := by
    decide +kernel
  obtain ⟨s, hs, hstatus, v, hv, hid, hretired⟩ := hactive
  exact h.governed.notRetired s hs hstatus v hv hid hretired

end Intel4Ops.IndustryPacks
