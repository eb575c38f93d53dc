import Intel4Ops.IndustryPacks.Manifest
import Intel4Ops.Lib.Service
import Intel4Ops.Lib.Table
import Mathlib.Data.List.Sort

/-!
# Governance and tenancy of industry packs

Packs, versions and components as `IndustryPackGovernanceService` writes them, and assignments with
their states as `TenantIndustryPackService` does. Subscriptions, contract overrides and entitlements
are written elsewhere: every call finds them as they are at its time. Validation results, governance
and audit events, configuration overrides, entitlement snapshots, actors and reasons are left out.
-/

namespace Intel4Ops.IndustryPacks

open Lib Table

/-! ## Rows -/

/-- `lifecycle_status` -/
inductive LifecycleStatus
  | draft | validated | approved | published | deprecated | retired
  deriving DecidableEq

def LifecycleStatus.value : LifecycleStatus → String
  | draft => "draft"
  | validated => "validated"
  | approved => "approved"
  | published => "published"
  | deprecated => "deprecated"
  | retired => "retired"

/-- `TRANSITIONS` -/
def LifecycleStatus.transitions : LifecycleStatus → List LifecycleStatus
  | draft => [validated]
  | validated => [approved, draft]
  | approved => [published, draft]
  | published => [deprecated]
  | deprecated => [retired]
  | retired => []

/-- The statuses of an assignment. -/
inductive AssignmentStatus
  | assigned | active | suspended
  deriving DecidableEq

/-- `IndustryPackDefinition` -/
structure Pack where
  id : UUID
  (code entitlementKey : String)

/-- `IndustryPackVersion` -/
structure Version where
  (id packId : UUID)
  semanticVersion : String
  lifecycleStatus : LifecycleStatus
  manifest : Manifest
  (validatedAt approvedAt publishedAt : Option Instant)

/-- `IndustryPackAssignment` -/
structure Assignment where
  (id organizationId packId : UUID)
  status : AssignmentStatus
  effectiveAt : Instant
  expiresAt : Option Instant

/-- `IndustryPackAssignmentState` -/
structure AssignmentState where
  (id organizationId assignmentId packVersionId : UUID)
  status : AssignmentStatus
  (activatedAt suspendedAt : Option Instant)

/-- The tables of industry packs. -/
structure Db where
  packs : List Pack
  versions : List Version
  components : List Component
  assignments : List Assignment
  states : List AssignmentState

/-- The unique constraints of packs. -/
def Pack.clash (a b : Pack) : Prop :=
  a.id = b.id ∨ a.code = b.code ∨ a.entitlementKey = b.entitlementKey

instance (a b : Pack) : Decidable (a.clash b) := inferInstanceAs (Decidable (_ ∨ _ ∨ _))

/-- The unique constraints of versions. -/
def Version.clash (a b : Version) : Prop :=
  a.id = b.id ∨ a.packId = b.packId ∧ a.semanticVersion = b.semanticVersion

instance (a b : Version) : Decidable (a.clash b) := inferInstanceAs (Decidable (_ ∨ _))

/-- The unique constraints of assignments. -/
def Assignment.clash (a b : Assignment) : Prop :=
  a.id = b.id ∨ a.organizationId = b.organizationId ∧ a.packId = b.packId

instance (a b : Assignment) : Decidable (a.clash b) := inferInstanceAs (Decidable (_ ∨ _))

/-- The unique constraints of assignment states. -/
def AssignmentState.clash (a b : AssignmentState) : Prop :=
  a.id = b.id ∨ a.assignmentId = b.assignmentId

instance (a b : AssignmentState) : Decidable (a.clash b) := inferInstanceAs (Decidable (_ ∨ _))

/-! ## Commercial rows -/

/-- The statuses of a subscription, as far as they are told apart. -/
inductive SubscriptionStatus
  | active | trial | enterprise | partner | other
  deriving DecidableEq

/-- `Subscription` -/
structure Subscription where
  organizationId : UUID
  status : SubscriptionStatus
  (startsAt currentPeriodEnd : Instant)
  trialEndsAt : Option Instant
  createdAt : Instant

/-- `ContractOverride` -/
structure ContractOverride where
  organizationId : UUID
  entitlementKey : String
  enabled : Bool
  effectiveAt : Instant
  expiresAt : Option Instant
  createdAt : Instant

/-- `Entitlement` -/
structure Entitlement where
  organizationId : UUID
  entitlementKey : String
  enabled : Bool
  limitValue : Option ℚ
  effectiveAt : Instant
  expiresAt : Option Instant
  createdAt : Instant

/-- The commercial rows that a call finds. -/
structure Commercial where
  subscriptions : List Subscription
  overrides : List ContractOverride
  entitlements : List Entitlement

/-- `effective_at <= now` and `expires_at IS NULL OR expires_at > now` -/
def effective (effectiveAt : Instant) (expiresAt : Option Instant) (now : Instant) : Bool :=
  effectiveAt ≤ now && expiresAt.all (now < ·)

/-- The row that was created last, which is the first one in the order that is asked for. -/
def latest {Row : Type} (createdAt : Row → Instant) (rows : List Row) : Option Row :=
  (rows.insertionSort fun a b => createdAt b ≤ createdAt a).head?

/-- `CommercialRepository.active_subscription` -/
def Commercial.activeSubscription (commercial : Commercial) (organizationId : UUID)
    (now : Instant) : Option Subscription :=
  latest (·.createdAt) (commercial.subscriptions.filter fun s => s.organizationId = organizationId ∧
    s.status ≠ .other ∧ s.startsAt ≤ now ∧ now < s.currentPeriodEnd)

/-- `CommercialRepository.active_entitlement` -/
def Commercial.activeEntitlement (commercial : Commercial) (organizationId : UUID) (key : String)
    (now : Instant) : Option Entitlement :=
  latest (·.createdAt) (commercial.entitlements.filter fun e => e.organizationId = organizationId ∧
    e.entitlementKey = key ∧ e.enabled = true ∧ effective e.effectiveAt e.expiresAt now = true)

/-- The override that `EntitlementService.require` looks at. -/
def Commercial.activeOverride (commercial : Commercial) (organizationId : UUID) (key : String)
    (now : Instant) : Option ContractOverride :=
  latest (·.createdAt) (commercial.overrides.filter fun o => o.organizationId = organizationId ∧
    o.entitlementKey = key ∧ effective o.effectiveAt o.expiresAt now = true)

/-- `EntitlementService.require` behind a running subscription. -/
def Commercial.requireSubscribed (commercial : Commercial) (organizationId : UUID) (key : String)
    (subscription : Subscription) (now : Instant) : Except Error (Option Entitlement) := do
  ensure (subscription.status = .trial → ∀ t ∈ subscription.trialEndsAt, now < t)
    (.service "TRIAL_EXPIRED" "Trial has expired" 403)
  let override := commercial.activeOverride organizationId key now
  ensure (∀ o ∈ override, o.enabled = true)
    (.service "ENTITLEMENT_DISABLED" "Entitlement is disabled" 403)
  let entitlement := commercial.activeEntitlement organizationId key now
  ensure (entitlement.isSome ∨ override.isSome)
    (.service "ENTITLEMENT_REQUIRED" ("Entitlement " ++ key ++ " is required") 403)
  return entitlement

/-- `EntitlementService.require` -/
def Commercial.require (commercial : Commercial) (organizationId : UUID) (key : String)
    (now : Instant) : Except Error (Option Entitlement) :=
  match commercial.activeSubscription organizationId now with
  | none => do
    ensure (∀ s ∈ commercial.subscriptions, s.organizationId ≠ organizationId)
      (.service "SUBSCRIPTION_INACTIVE" "An active subscription is required" 403)
    return none
  | some subscription => commercial.requireSubscribed organizationId key subscription now

/-- `_require_entitlement` -/
def Commercial.requireEntitlement (commercial : Commercial) (organizationId : UUID) (key : String)
    (now : Instant) : Except Error Entitlement := do
  let entitlement ← commercial.require organizationId key now
  orFail entitlement (.service "ENTITLEMENT_REQUIRED" ("Entitlement " ++ key ++ " is required") 403)

/-- The number of packs that an organization may have active, where there is a limit. -/
def Commercial.packLimit (commercial : Commercial) (organizationId : UUID) (now : Instant) :
    Option ℚ :=
  (commercial.activeEntitlement organizationId "limits.industry_packs" now).bind (·.limitValue)

/-! ## Governance -/

/-- `PackCreate` -/
structure PackCreate where
  (code entitlementKey : String)

/-- `IndustryPackGovernanceService.create_pack` -/
def Db.createPack (db : Db) (payload : PackCreate) (id : UUID) : Except Error Db := do
  ensure (∀ p ∈ db.packs, ¬ (p.code = payload.code ∨ p.entitlementKey = payload.entitlementKey))
    (.service "PACK_CONFLICT" "Pack code or entitlement exists" 409)
  let packs ← orFail
    (insert Pack.clash ⟨id, payload.code, payload.entitlementKey⟩ db.packs) .integrity
  return { db with packs := packs }

/-- `_pack` -/
def Db.pack (db : Db) (code : String) : Except Error Pack :=
  orFail (db.packs.find? (·.code = code)) (.service "PACK_NOT_FOUND" "Industry pack not found" 404)

/-- `_version` -/
def Db.version (db : Db) (versionId : UUID) : Except Error Version :=
  orFail (db.versions.find? (·.id = versionId))
    (.service "PACK_VERSION_NOT_FOUND" "Pack version not found" 404)

/-- `_require_status` -/
def Version.requireStatus (version : Version) (expected : LifecycleStatus) : Except Error Unit :=
  ensure (version.lifecycleStatus = expected)
    (.service "INVALID_PACK_TRANSITION" ("Expected " ++ expected.value ++ " version") 409)

/-- `PackVersionCreate` -/
structure VersionCreate where
  semanticVersion : String
  manifest : Manifest

def VersionCreate.row (payload : VersionCreate) (packId id : UUID) : Version where
  id := id
  packId := packId
  semanticVersion := payload.semanticVersion
  lifecycleStatus := .draft
  manifest := payload.manifest
  validatedAt := none
  approvedAt := none
  publishedAt := none

/-- `IndustryPackGovernanceService.create_version` -/
def Db.createVersion (db : Db) (packCode : String) (payload : VersionCreate) (id : UUID) :
    Except Error Db := do
  let pack ← db.pack packCode
  ensure (∀ v ∈ db.versions, ¬ (v.packId = pack.id ∧ v.semanticVersion = payload.semanticVersion))
    (.service "PACK_VERSION_CONFLICT" "Pack version already exists" 409)
  let version := payload.row pack.id id
  let versions ← orFail (insert Version.clash version db.versions) .integrity
  let rows ← version.manifest.componentRows version.id
  let components ← orFail (insertAll Component.clash rows db.components) .integrity
  return { db with versions := versions, components := components }

/-- A version with a new row. -/
def Db.setVersion (db : Db) (version : Version) : Db :=
  { db with versions := update (·.id = version.id) (fun _ => version) db.versions }

/-- `PACK_VALIDATION_FAILED`; the text lists what was found. -/
def validationFailed : Error := .service "PACK_VALIDATION_FAILED" "Pack validation failed" 422

/-- `IndustryPackGovernanceService.validate` -/
def Db.validate (db : Db) (versionId : UUID) (now : Instant) : Except Error Db := do
  let version ← db.version versionId
  version.requireStatus .draft
  let errors ← version.manifest.manifestErrors
  ensure (errors = []) validationFailed
  return db.setVersion { version with lifecycleStatus := .validated, validatedAt := some now }

/-- The row of a version after a transition. -/
def Version.moved (version : Version) (target : LifecycleStatus) (now : Instant) : Version :=
  { version with
    lifecycleStatus := target
    approvedAt := if target = .approved then some now else version.approvedAt
    publishedAt := if target = .published then some now else version.publishedAt }

/-- A state is active on a version. -/
def Db.InUse (db : Db) (versionId : UUID) : Prop :=
  ∃ s ∈ db.states, s.packVersionId = versionId ∧ s.status = .active

instance (db : Db) (versionId : UUID) : Decidable (db.InUse versionId) :=
  inferInstanceAs (Decidable (∃ _ ∈ _, _))

/-- `IndustryPackGovernanceService.transition` -/
def Db.transition (db : Db) (versionId : UUID) (target : LifecycleStatus) (now : Instant) :
    Except Error Db := do
  let version ← db.version versionId
  ensure (target ∈ version.lifecycleStatus.transitions)
    (.service "INVALID_PACK_TRANSITION"
      ("Cannot transition " ++ version.lifecycleStatus.value ++ " to " ++ target.value) 409)
  ensure (target = .retired → ¬ db.InUse version.id)
    (.service "PACK_VERSION_IN_USE" "Active assignments prevent retirement" 409)
  return db.setVersion (version.moved target now)

/-- `PackComponentWrite` -/
structure ComponentWrite where
  componentType : ComponentType
  (code universalParent configuration : String)

def ComponentWrite.row (payload : ComponentWrite) (versionId : UUID) : Component where
  packVersionId := versionId
  componentType := payload.componentType
  code := payload.code
  universalParent := payload.universalParent
  configuration := payload.configuration

/-- `IndustryPackGovernanceService.put_component` -/
def Db.putComponent (db : Db) (versionId : UUID) (payload : ComponentWrite) : Except Error Db := do
  let version ← db.version versionId
  version.requireStatus .draft
  let row := payload.row version.id
  if ∃ c ∈ db.components, c.clash row then
    return { db with components := update (fun c => c.clash row) (fun _ => row) db.components }
  else return { db with components := db.components ++ [row] }

/-! ## Tenancy -/

/-- `PackAssignmentRequest` -/
structure AssignmentRequest where
  (packCode semanticVersion : String)
  effectiveAt : Instant
  expiresAt : Option Instant

/-- The published version that an assignment asks for. -/
def Db.publishedVersion (db : Db) (packId : UUID) (semanticVersion : String) :
    Except Error Version :=
  orFail (db.versions.find? fun v => v.packId = packId ∧ v.semanticVersion = semanticVersion ∧
      v.lifecycleStatus = .published)
    (.service "PACK_VERSION_NOT_ASSIGNABLE" "Only published versions may be assigned" 409)

/-- The assignment row that is written for a pack, and the table with it. -/
def Db.putAssignment (db : Db) (organizationId packId : UUID) (payload : AssignmentRequest)
    (id : UUID) : Except Error (Assignment × List Assignment) :=
  match db.assignments.find? fun a => a.organizationId = organizationId ∧ a.packId = packId with
  | some row =>
    let row := { row with
      status := .assigned
      effectiveAt := payload.effectiveAt
      expiresAt := payload.expiresAt }
    .ok (row, update (·.id = row.id) (fun _ => row) db.assignments)
  | none => do
    let row := ⟨id, organizationId, packId, .assigned, payload.effectiveAt, payload.expiresAt⟩
    let rows ← orFail (insert Assignment.clash row db.assignments) .integrity
    return (row, rows)

/-- The table with the state that is written for an assignment. -/
def Db.putState (db : Db) (row : Assignment) (versionId id : UUID) :
    Except Error (List AssignmentState) :=
  match db.states.find? fun s =>
    s.assignmentId = row.id ∧ s.organizationId = row.organizationId with
  | some state =>
    .ok (update (·.id = state.id)
      (fun s => { s with packVersionId := versionId, status := .assigned }) db.states)
  | none =>
    orFail (insert AssignmentState.clash
      ⟨id, row.organizationId, row.id, versionId, .assigned, none, none⟩ db.states) .integrity

/-- `TenantIndustryPackService.assign` -/
def Db.assign (db : Db) (commercial : Commercial) (organizationId : UUID)
    (payload : AssignmentRequest) (now : Instant) (assignmentId stateId : UUID) :
    Except Error Db := do
  let pack ← db.pack payload.packCode
  let _ ← commercial.requireEntitlement organizationId pack.entitlementKey now
  let version ← db.publishedVersion pack.id payload.semanticVersion
  let (row, assignments) ← db.putAssignment organizationId pack.id payload assignmentId
  let states ← db.putState row version.id stateId
  return { db with assignments := assignments, states := states }

/-- `_assignment` -/
def Db.assignment (db : Db) (organizationId assignmentId : UUID) :
    Except Error (Assignment × AssignmentState) := do
  let row ← orFail
    (db.assignments.find? fun a => a.id = assignmentId ∧ a.organizationId = organizationId)
    (.service "PACK_ASSIGNMENT_NOT_FOUND" "Pack assignment not found" 404)
  let state ← orFail
    (db.states.find? fun s => s.assignmentId = row.id ∧ s.organizationId = organizationId)
    (.service "PACK_ASSIGNMENT_STATE_NOT_FOUND" "Pack assignment state not found" 404)
  return (row, state)

/-- The number of active states of an organization. -/
def Db.activeCount (db : Db) (organizationId : UUID) : ℕ :=
  db.states.countP fun s => s.organizationId = organizationId ∧ s.status = .active

/-- The row of a state after `set_status`. -/
def AssignmentState.moved (state : AssignmentState) (status : AssignmentStatus) (now : Instant) :
    AssignmentState :=
  if status = .active then
    { state with status := status, activatedAt := some now, suspendedAt := none }
  else { state with status := status, suspendedAt := some now }

/-- `TenantIndustryPackService.set_status` -/
def Db.setStatus (db : Db) (commercial : Commercial) (organizationId assignmentId : UUID)
    (status : AssignmentStatus) (now : Instant) : Except Error Db := do
  let (row, state) ← db.assignment organizationId assignmentId
  ensure (status = .active ∨ status = .suspended)
    (.service "INVALID_ASSIGNMENT_STATUS" "Unsupported assignment status" 422)
  ensure (status = .active → state.status ≠ .active →
      ∀ limit ∈ commercial.packLimit organizationId now, (db.activeCount organizationId : ℚ) < limit)
    (.service "PACK_LIMIT_EXCEEDED" "Industry-pack activation limit exceeded" 403)
  return { db with
    assignments := update (·.id = row.id) (fun a => { a with status := status }) db.assignments
    states := update (·.id = state.id) (fun s => s.moved status now) db.states }

/-! ## The service -/

/-- The calls that write packs and assignments. -/
inductive Request
  | createPack (payload : PackCreate)
  | createVersion (packCode : String) (payload : VersionCreate)
  | validate (versionId : UUID)
  | transition (versionId : UUID) (target : LifecycleStatus)
  | putComponent (versionId : UUID) (payload : ComponentWrite)
  | assign (payload : AssignmentRequest)
  | setStatus (assignmentId : UUID) (status : AssignmentStatus)

/-- A call: the tenant that makes it, the commercial rows that it finds, the clock, and the
identifiers that new rows get. -/
structure Call where
  organizationId : UUID
  commercial : Commercial
  now : Instant
  (drawn drawnState : UUID)
  request : Request

def serve (db : Db) (call : Call) : Except Error Db :=
  match call.request with
  | .createPack payload => db.createPack payload call.drawn
  | .createVersion packCode payload => db.createVersion packCode payload call.drawn
  | .validate versionId => db.validate versionId call.now
  | .transition versionId target => db.transition versionId target call.now
  | .putComponent versionId payload => db.putComponent versionId payload
  | .assign payload =>
    db.assign call.commercial call.organizationId payload call.now call.drawn call.drawnState
  | .setStatus assignmentId status =>
    db.setStatus call.commercial call.organizationId assignmentId status call.now

/-- The calls as a service; what they return is not looked at. -/
def service : Service Db Call Unit Error := fun db call => (serve db call).map fun db' => (db', ())

def Db.empty : Db where
  packs := []
  versions := []
  components := []
  assignments := []
  states := []

end Intel4Ops.IndustryPacks
