import Intel4Ops.Lib.Except
import Intel4Ops.Lib.Ident
import Intel4Ops.Lib.Json
import Intel4Ops.Lib.Service
import Intel4Ops.Lib.Table

/-!
# Memberships and invitations

Two services write the members of an organization: the membership service changes the role and the
status of a member, and the invitation service makes a member of whoever redeems an invitation. The
operations are modelled one by one here; `Transactions` lets them overlap. Audit events are left
out, and the hash of a token is given by the token.
-/

namespace Intel4Ops.Access

open Lib

/-! ## Rows -/

/-- `MembershipRole` -/
inductive MembershipRole
  | platformAdmin | organizationAdmin | analyst | operator | recoveryManager | viewer
  deriving DecidableEq

/-- `MembershipStatus` -/
inductive MembershipStatus
  | invited | active | suspended | revoked
  deriving DecidableEq

/-- `OrganizationMembership` -/
structure Membership where
  (id organizationId userId : UUID)
  role : MembershipRole
  status : MembershipStatus
  invitedByUserId : Option UUID
  joinedAt : Option Instant
  deriving DecidableEq

/-- `InvitationStatus` -/
inductive InvitationStatus
  | pending | accepted | expired | revoked
  deriving DecidableEq

/-- `OrganizationInvitation` -/
structure Invitation where
  (id organizationId : UUID)
  email : String
  role : MembershipRole
  status : InvitationStatus
  token : ℕ
  invitedByUserId : UUID
  expiresAt : Instant
  acceptedAt : Option Instant
  (acceptedByUserId resultingMembershipId : Option UUID)
  deriving DecidableEq

/-- The tables; organizations are given by their identifiers. -/
structure Db where
  organizations : List UUID
  memberships : List Membership
  invitations : List Invitation
  deriving DecidableEq

/-- The primary key and `uq_organization_members_organization_user`. -/
def Membership.clash (a b : Membership) : Prop :=
  a.id = b.id ∨ a.organizationId = b.organizationId ∧ a.userId = b.userId

instance (a b : Membership) : Decidable (a.clash b) := inferInstanceAs (Decidable (_ ∨ _))

/-- The primary key, `uq_organization_invitations_token_hash`, and the unique index over pending
invitations. -/
def Invitation.clash (a b : Invitation) : Prop :=
  a.id = b.id ∨ a.token = b.token ∨
    a.status = .pending ∧ b.status = .pending ∧ a.organizationId = b.organizationId ∧
      a.email = b.email

instance (a b : Invitation) : Decidable (a.clash b) := inferInstanceAs (Decidable (_ ∨ _ ∨ _))

/-- A failed request. -/
inductive Error
  | membershipNotFound (message : String)
  | membershipOrganizationNotFound (message : String)
  | duplicateMembership (message : String)
  | lastActiveOrganizationAdmin (message : String)
  | invitation (message code : String) (status : ℕ)
  | integrity
  deriving DecidableEq

/-- What a request returns; `refused` is raised behind a commit. -/
inductive Reply
  | membership (row : Membership)
  | invitation (row : Invitation)
  | created (row : Invitation) (token : ℕ)
  | refused (e : Error)
  deriving DecidableEq

/-! ## Memberships -/

def Membership.ActiveAdmin (m : Membership) : Prop :=
  m.role = .organizationAdmin ∧ m.status = .active

instance (m : Membership) : Decidable m.ActiveAdmin := inferInstanceAs (Decidable (_ ∧ _))

/-- `MembershipCreate` -/
structure MembershipCreate where
  userId : UUID
  role : MembershipRole
  status : MembershipStatus
  deriving DecidableEq

/-- The row that `create` adds. -/
def MembershipCreate.row (payload : MembershipCreate) (organizationId invitedBy id : UUID)
    (now : Instant) : Membership where
  id := id
  organizationId := organizationId
  userId := payload.userId
  role := payload.role
  status := payload.status
  invitedByUserId := some invitedBy
  joinedAt := if payload.status = .active then some now else none

def duplicate : Error := .duplicateMembership "Organization membership already exists"

/-- What `create` checks before it adds a row. -/
def Db.checkMembership (db : Db) (organizationId userId : UUID) : Except Error Unit := do
  ensure (organizationId ∈ db.organizations)
    (.membershipOrganizationNotFound "Organization not found")
  ensure (∀ m ∈ db.memberships, ¬ (m.organizationId = organizationId ∧ m.userId = userId)) duplicate

/-- A row more, unless it clashes. -/
def Db.addMembership (db : Db) (row : Membership) (e : Error) : Except Error Db := do
  let memberships ← orFail (Table.insert Membership.clash row db.memberships) e
  return { db with memberships := memberships }

/-- `OrganizationMembershipService.create` -/
def Db.createMembership (db : Db) (organizationId invitedBy id : UUID) (payload : MembershipCreate)
    (now : Instant) : Except Error (Db × Reply) := do
  db.checkMembership organizationId payload.userId
  let row := payload.row organizationId invitedBy id now
  let db ← db.addMembership row duplicate
  return (db, .membership row)

/-- `OrganizationMembershipService.get` -/
def Db.membership (db : Db) (organizationId membershipId : UUID) : Except Error Membership :=
  orFail (db.memberships.find? fun m => m.id = membershipId ∧ m.organizationId = organizationId)
    (.membershipNotFound "Organization membership not found")

/-- `_lock_organization`; the lock itself matters where transactions overlap. -/
def Db.lockOrganization (db : Db) (organizationId : UUID) : Except Error Unit :=
  ensure (organizationId ∈ db.organizations)
    (.membershipOrganizationNotFound "Organization not found")

def Db.activeAdminCount (db : Db) (organizationId : UUID) : ℕ :=
  db.memberships.countP fun m => m.organizationId = organizationId ∧ m.ActiveAdmin

/-- `_protect_last_active_admin` -/
def Db.protectLastActiveAdmin (db : Db) (m : Membership) : Except Error Unit :=
  ensure (m.ActiveAdmin → db.activeAdminCount m.organizationId ≠ 1)
    (.lastActiveOrganizationAdmin "The last active organization administrator cannot be changed")

/-- The changes that the membership service makes under the lock of the organization. -/
inductive Change
  | role (newRole : MembershipRole)
  | suspend
  | revoke
  deriving DecidableEq

/-- Where a change asks for the protection of the last administrator: `update_role` does for an
administrator who gets another role, `suspend` and `revoke` always do. -/
def Change.Guarded (m : Membership) : Change → Prop
  | .role newRole => m.role = .organizationAdmin ∧ newRole ≠ .organizationAdmin
  | .suspend => True
  | .revoke => True

instance (m : Membership) : (change : Change) → Decidable (change.Guarded m)
  | .role _ => inferInstanceAs (Decidable (_ ∧ _))
  | .suspend => inferInstanceAs (Decidable True)
  | .revoke => inferInstanceAs (Decidable True)

/-- The row after a change. -/
def Change.apply (m : Membership) : Change → Membership
  | .role newRole => { m with role := newRole }
  | .suspend => { m with status := .suspended }
  | .revoke => { m with status := .revoked }

def Db.checkChange (db : Db) (m : Membership) (change : Change) : Except Error Unit :=
  if change.Guarded m then db.protectLastActiveAdmin m else .ok ()

/-- A row is rewritten. -/
def Db.writeMembership (db : Db) (membershipId : UUID) (f : Membership → Membership) : Db :=
  { db with memberships := Table.update (·.id = membershipId) f db.memberships }

/-- What `update_role`, `suspend` and `revoke` share. -/
def Db.change (db : Db) (organizationId membershipId : UUID) (change : Change) :
    Except Error (Db × Reply) := do
  db.lockOrganization organizationId
  let m ← db.membership organizationId membershipId
  db.checkChange m change
  return (db.writeMembership m.id change.apply, .membership (change.apply m))

/-- An active member; the time of joining is set once. -/
def Membership.activated (now : Instant) (m : Membership) : Membership :=
  { m with status := .active, joinedAt := m.joinedAt.or (some now) }

/-- `OrganizationMembershipService.activate` -/
def Db.activate (db : Db) (organizationId membershipId : UUID) (now : Instant) :
    Except Error (Db × Reply) := do
  let m ← db.membership organizationId membershipId
  return (db.writeMembership m.id (·.activated now), .membership (m.activated now))

/-! ## Invitations -/

/-- `INVITATION_EXPIRY`, seven days. -/
def invitationExpiry : Instant := 604800000000

/-- `_normalize_email`; `lower` is the lowering of texts. -/
def normalizeEmail (lower : String → String) (email : String) : String :=
  lower (String.ofList (Numeral.strip email))

/-- `InvitationCreate` -/
structure InvitationCreate where
  email : String
  role : MembershipRole
  deriving DecidableEq

/-- The row that `InvitationService.create` adds. -/
def InvitationCreate.row (payload : InvitationCreate) (lower : String → String)
    (organizationId invitedBy id : UUID) (token : ℕ) (now : Instant) : Invitation where
  id := id
  organizationId := organizationId
  email := normalizeEmail lower payload.email
  role := payload.role
  status := .pending
  token := token
  invitedByUserId := invitedBy
  expiresAt := now + invitationExpiry
  acceptedAt := none
  acceptedByUserId := none
  resultingMembershipId := none

def invitationConflict : Error :=
  .invitation "A pending invitation already exists for this email" "invitation_conflict" 409

/-- What `InvitationService.create` checks before it adds a row. -/
def Db.checkInvitation (db : Db) (lower : String → String) (organizationId : UUID)
    (payload : InvitationCreate) : Except Error Unit := do
  ensure (organizationId ∈ db.organizations)
    (.invitation "Organization not found" "organization_not_found" 404)
  ensure (∀ i ∈ db.invitations, ¬ (i.organizationId = organizationId ∧
    i.email = normalizeEmail lower payload.email ∧ i.status = .pending)) invitationConflict

/-- An invitation more, unless it clashes. -/
def Db.addInvitation (db : Db) (row : Invitation) : Except Error Db := do
  let invitations ← orFail (Table.insert Invitation.clash row db.invitations) invitationConflict
  return { db with invitations := invitations }

/-- `InvitationService.create` -/
def Db.createInvitation (db : Db) (lower : String → String) (organizationId invitedBy id : UUID)
    (payload : InvitationCreate) (token : ℕ) (now : Instant) : Except Error (Db × Reply) := do
  db.checkInvitation lower organizationId payload
  let row := payload.row lower organizationId invitedBy id token now
  let db ← db.addInvitation row
  return (db, .created row token)

/-- An invitation is rewritten. -/
def Db.writeInvitation (db : Db) (invitationId : UUID) (f : Invitation → Invitation) : Db :=
  { db with invitations := Table.update (·.id = invitationId) f db.invitations }

/-- The invitation that `InvitationService.revoke` looks up. -/
def Db.invitation (db : Db) (organizationId invitationId : UUID) : Except Error Invitation :=
  orFail (db.invitations.find? fun i => i.id = invitationId ∧ i.organizationId = organizationId)
    (.invitation "Invitation not found" "invitation_not_found_or_invalid" 404)

/-- The check of `InvitationService.revoke`. -/
def Invitation.requirePending (i : Invitation) : Except Error Unit :=
  ensure (i.status = .pending)
    (.invitation "Only a pending invitation can be revoked" "invitation_conflict" 409)

def Invitation.revoked (i : Invitation) : Invitation := { i with status := .revoked }

/-- `InvitationService.revoke` -/
def Db.revokeInvitation (db : Db) (organizationId invitationId : UUID) :
    Except Error (Db × Reply) := do
  let i ← db.invitation organizationId invitationId
  i.requirePending
  return (db.writeInvitation i.id Invitation.revoked, .invitation i.revoked)

/-- Who redeems a token. -/
structure Acceptance where
  token : ℕ
  userId : UUID
  email : Option String
  emailVerified : Bool
  deriving DecidableEq

def Acceptance.Recipient (acceptance : Acceptance) (lower : String → String) (i : Invitation) :
    Prop :=
  acceptance.emailVerified = true ∧
    ∃ email ∈ acceptance.email, email ≠ "" ∧ normalizeEmail lower email = i.email

instance (acceptance : Acceptance) (lower : String → String) (i : Invitation) :
    Decidable (acceptance.Recipient lower i) := inferInstanceAs (Decidable (_ ∧ _))

def Db.invitationOf (db : Db) (token : ℕ) : Except Error Invitation :=
  orFail (db.invitations.find? (·.token = token))
    (.invitation "Invitation token is not valid" "invitation_not_found_or_invalid" 404)

/-- The answer to a token that has been redeemed: the membership, for the same user. -/
def Db.redeemed (db : Db) (i : Invitation) (userId : UUID) : Except Error Reply :=
  if i.acceptedByUserId = some userId then do
    let m ← orFail (db.memberships.find? fun m => some m.id = i.resultingMembershipId)
      (.invitation "Invitation has already been accepted" "invitation_conflict" 409)
    return .membership m
  else .error (.invitation "Invitation has already been accepted" "invitation_conflict" 409)

def invitationExpired : Error := .invitation "Invitation has expired" "invitation_expired" 409

/-- The row of an invitation that was found to be overdue. -/
def Invitation.overdue (i : Invitation) : Invitation := { i with status := .expired }

def Invitation.newMember (i : Invitation) (userId id : UUID) (now : Instant) : Membership where
  id := id
  organizationId := i.organizationId
  userId := userId
  role := i.role
  status := .active
  invitedByUserId := some i.invitedByUserId
  joinedAt := some now

/-- The row of a user who is a member already. -/
def Invitation.rejoin (i : Invitation) (now : Instant) (m : Membership) : Membership :=
  { m.activated now with role := i.role }

/-- The row of an invitation that is redeemed. -/
def Invitation.acceptedBy (userId membershipId : UUID) (now : Instant) (i : Invitation) :
    Invitation :=
  { i with
    status := .accepted
    acceptedAt := some now
    acceptedByUserId := some userId
    resultingMembershipId := some membershipId }

/-- The membership that `accept` finds. -/
def Db.membershipOf (db : Db) (organizationId userId : UUID) : Option Membership :=
  db.memberships.find? fun m => m.organizationId = organizationId ∧ m.userId = userId

/-- The writes of `accept`. -/
def Db.join (db : Db) (i : Invitation) (userId id : UUID) (now : Instant) :
    Option Membership → Except Error (Db × Reply)
  | none => do
    let row := i.newMember userId id now
    let db ← db.addMembership row .integrity
    return (db.writeInvitation i.id (Invitation.acceptedBy userId id now), .membership row)
  | some m => .ok ((db.writeMembership m.id (i.rejoin now)).writeInvitation i.id
      (Invitation.acceptedBy userId m.id now), .membership (i.rejoin now m))

def recipientMismatch : Error :=
  .invitation "This invitation is not available to your authenticated identity"
    "invitation_recipient_mismatch" 403

/-- `accept` for a pending invitation. -/
def Db.acceptPending (db : Db) (lower : String → String) (acceptance : Acceptance)
    (i : Invitation) (id : UUID) (now : Instant) : Except Error (Db × Reply) :=
  if i.expiresAt ≤ now then
    .ok (db.writeInvitation i.id Invitation.overdue, .refused invitationExpired)
  else do
    ensure (acceptance.Recipient lower i) recipientMismatch
    db.join i acceptance.userId id now (db.membershipOf i.organizationId acceptance.userId)

/-- `InvitationService.accept` -/
def Db.accept (db : Db) (lower : String → String) (acceptance : Acceptance) (id : UUID)
    (now : Instant) : Except Error (Db × Reply) := do
  let i ← db.invitationOf acceptance.token
  match i.status with
  | .accepted => (db.redeemed i acceptance.userId).map fun reply => (db, reply)
  | .revoked => .error (.invitation "Invitation has been revoked" "invitation_revoked" 409)
  | .expired => .error invitationExpired
  | .pending => db.acceptPending lower acceptance i id now

/-! ## The services -/

/-- The requests of both services. -/
inductive Request
  | createMembership (organizationId invitedBy : UUID) (payload : MembershipCreate)
  | change (organizationId membershipId : UUID) (change : Change)
  | activate (organizationId membershipId : UUID)
  | createInvitation (organizationId invitedBy : UUID) (payload : InvitationCreate)
  | revokeInvitation (organizationId invitationId : UUID)
  | accept (acceptance : Acceptance)
  deriving DecidableEq

/-- A request with the identifier and the token that it draws. -/
structure Call where
  request : Request
  id : UUID
  token : ℕ

/-- One request at a time. -/
def serve (lower : String → String) (db : Db) (call : Call) (now : Instant) :
    Except Error (Db × Reply) :=
  match call.request with
  | .createMembership organizationId invitedBy payload =>
    db.createMembership organizationId invitedBy call.id payload now
  | .change organizationId membershipId change => db.change organizationId membershipId change
  | .activate organizationId membershipId => db.activate organizationId membershipId now
  | .createInvitation organizationId invitedBy payload =>
    db.createInvitation lower organizationId invitedBy call.id payload call.token now
  | .revokeInvitation organizationId invitationId => db.revokeInvitation organizationId invitationId
  | .accept acceptance => db.accept lower acceptance call.id now

/-- Both services together, with the time at which each request is served. -/
def service (lower : String → String) : Service Db (Call × Instant) Reply Error :=
  fun db call => serve lower db call.1 call.2

/-- Organizations without members. -/
def Db.initial (organizations : List UUID) : Db where
  organizations := organizations
  memberships := []
  invitations := []

end Intel4Ops.Access
