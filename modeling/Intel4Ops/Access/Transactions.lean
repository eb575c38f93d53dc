import Intel4Ops.Access.Invitations

/-!
# Overlapping requests

A request runs as a transaction: it locks rows, reads them, and writes everything in one commit.
Between two of its statements other transactions may commit. A row lock is held from the statement
that takes it to the end of the transaction, and a statement that needs a lock of another
transaction waits. What a statement reads is what is committed at that time.
-/

namespace Intel4Ops.Access

open Lib

/-! ## Transactions -/

/-- How far a transaction is, with the rows that it has read. -/
inductive Phase
  /-- nothing is read yet -/
  | begun
  /-- the organization is locked -/
  | locked
  /-- a membership is locked and read -/
  | read (m : Membership)
  /-- a change of that membership is allowed -/
  | checked (m : Membership)
  /-- nothing stands in the way of a new row -/
  | clear
  /-- an invitation is locked and read, and may be used -/
  | invited (i : Invitation)
  /-- and the membership of its recipient is locked and read, if there is one -/
  | joining (i : Invitation) (m : Option Membership)
  deriving DecidableEq

/-- A transaction in flight. -/
structure Transaction where
  id : ℕ
  call : Call
  phase : Phase

/-- The committed tables and the transactions in flight. -/
structure State where
  db : Db
  inflight : List Transaction

def Transaction.organizationLock (t : Transaction) : Option UUID :=
  match t.call.request with
  | .change organizationId _ _ => if t.phase = .begun then none else some organizationId
  | _ => none

/-- The membership that a transaction has locked, as it was read. -/
def Phase.membership? : Phase → Option Membership
  | .read m => some m
  | .checked m => some m
  | .joining _ m => m
  | _ => none

/-- The invitation that a transaction has locked, as it was read. -/
def Phase.invitation? : Phase → Option Invitation
  | .invited i => some i
  | .joining i _ => some i
  | _ => none

def State.OrganizationFree (s : State) (t : Transaction) (organizationId : UUID) : Prop :=
  ∀ u ∈ s.inflight, u.id ≠ t.id → u.organizationLock ≠ some organizationId

def State.MembershipFree (s : State) (t : Transaction) (membershipId : UUID) : Prop :=
  ∀ u ∈ s.inflight, u.id ≠ t.id → ∀ m ∈ u.phase.membership?, m.id ≠ membershipId

def State.InvitationFree (s : State) (t : Transaction) (invitationId : UUID) : Prop :=
  ∀ u ∈ s.inflight, u.id ≠ t.id → ∀ i ∈ u.phase.invitation?, i.id ≠ invitationId

instance (s : State) (t : Transaction) (id : UUID) : Decidable (s.OrganizationFree t id) :=
  inferInstanceAs (Decidable (∀ _ ∈ _, _))

instance (s : State) (t : Transaction) (id : UUID) : Decidable (s.MembershipFree t id) :=
  inferInstanceAs (Decidable (∀ _ ∈ _, _))

instance (s : State) (t : Transaction) (id : UUID) : Decidable (s.InvitationFree t id) :=
  inferInstanceAs (Decidable (∀ _ ∈ _, _))

/-! ## Statements -/

/-- What comes of a statement. -/
inductive Outcome
  | waits
  | moved (phase : Phase)
  | committed (db : Db) (reply : Reply)
  | failed (e : Error)

/-- A check that lets a transaction go on. -/
def Outcome.ofCheck (phase : Phase) : Except Error Unit → Outcome
  | .ok _ => .moved phase
  | .error e => .failed e

/-- A commit that a constraint may refuse. -/
def Outcome.ofWrite (reply : Reply) : Except Error Db → Outcome
  | .ok db => .committed db reply
  | .error e => .failed e

def State.readMembership (s : State) (t : Transaction) (organizationId membershipId : UUID) :
    Outcome :=
  match s.db.membership organizationId membershipId with
  | .error e => .failed e
  | .ok m => if s.MembershipFree t m.id then .moved (.read m) else .waits

/-- `update_role`, `suspend` and `revoke` -/
def State.advanceChange (s : State) (t : Transaction) (organizationId membershipId : UUID)
    (change : Change) : Outcome :=
  match t.phase with
  | .begun =>
    if s.OrganizationFree t organizationId then
      .ofCheck .locked (s.db.lockOrganization organizationId)
    else .waits
  | .locked => s.readMembership t organizationId membershipId
  | .read m => .ofCheck (.checked m) (s.db.checkChange m change)
  | .checked m => .committed (s.db.writeMembership m.id change.apply) (.membership (change.apply m))
  | _ => .waits

/-- `activate` -/
def State.advanceActivate (s : State) (t : Transaction) (organizationId membershipId : UUID)
    (now : Instant) : Outcome :=
  match t.phase with
  | .begun => s.readMembership t organizationId membershipId
  | .read m => .committed (s.db.writeMembership m.id (·.activated now))
      (.membership (m.activated now))
  | _ => .waits

/-- `OrganizationMembershipService.create` -/
def State.advanceCreateMembership (s : State) (t : Transaction) (organizationId invitedBy : UUID)
    (payload : MembershipCreate) (now : Instant) : Outcome :=
  match t.phase with
  | .begun => .ofCheck .clear (s.db.checkMembership organizationId payload.userId)
  | .clear =>
    let row := payload.row organizationId invitedBy t.call.id now
    .ofWrite (.membership row) (s.db.addMembership row duplicate)
  | _ => .waits

/-- `InvitationService.create` -/
def State.advanceCreateInvitation (s : State) (lower : String → String) (t : Transaction)
    (organizationId invitedBy : UUID) (payload : InvitationCreate) (now : Instant) : Outcome :=
  match t.phase with
  | .begun => .ofCheck .clear (s.db.checkInvitation lower organizationId payload)
  | .clear =>
    let row := payload.row lower organizationId invitedBy t.call.id t.call.token now
    .ofWrite (.created row t.call.token) (s.db.addInvitation row)
  | _ => .waits

/-- `InvitationService.revoke` -/
def State.advanceRevokeInvitation (s : State) (t : Transaction)
    (organizationId invitationId : UUID) : Outcome :=
  match t.phase with
  | .begun =>
    match s.db.invitation organizationId invitationId with
    | .error e => .failed e
    | .ok i => if s.InvitationFree t i.id then .ofCheck (.invited i) i.requirePending else .waits
  | .invited i => .committed (s.db.writeInvitation i.id Invitation.revoked) (.invitation i.revoked)
  | _ => .waits

/-- What `accept` makes of the invitation that it has locked. -/
def State.useInvitation (s : State) (lower : String → String) (acceptance : Acceptance)
    (i : Invitation) (now : Instant) : Outcome :=
  match i.status with
  | .accepted =>
    match s.db.redeemed i acceptance.userId with
    | .ok reply => .committed s.db reply
    | .error e => .failed e
  | .revoked => .failed (.invitation "Invitation has been revoked" "invitation_revoked" 409)
  | .expired => .failed invitationExpired
  | .pending =>
    if i.expiresAt ≤ now then
      .committed (s.db.writeInvitation i.id Invitation.overdue) (.refused invitationExpired)
    else .ofCheck (.invited i) (ensure (acceptance.Recipient lower i) recipientMismatch)

/-- `InvitationService.accept` -/
def State.advanceAccept (s : State) (lower : String → String) (t : Transaction)
    (acceptance : Acceptance) (now : Instant) : Outcome :=
  match t.phase with
  | .begun =>
    match s.db.invitationOf acceptance.token with
    | .error e => .failed e
    | .ok i => if s.InvitationFree t i.id then s.useInvitation lower acceptance i now else .waits
  | .invited i =>
    let found := s.db.membershipOf i.organizationId acceptance.userId
    if ∀ m ∈ found, s.MembershipFree t m.id then .moved (.joining i found) else .waits
  | .joining i found =>
    match s.db.join i acceptance.userId t.call.id now found with
    | .ok (db, reply) => .committed db reply
    | .error e => .failed e
  | _ => .waits

def State.advance (s : State) (lower : String → String) (t : Transaction) (now : Instant) :
    Outcome :=
  match t.call.request with
  | .createMembership organizationId invitedBy payload =>
    s.advanceCreateMembership t organizationId invitedBy payload now
  | .change organizationId membershipId change =>
    s.advanceChange t organizationId membershipId change
  | .activate organizationId membershipId => s.advanceActivate t organizationId membershipId now
  | .createInvitation organizationId invitedBy payload =>
    s.advanceCreateInvitation lower t organizationId invitedBy payload now
  | .revokeInvitation organizationId invitationId =>
    s.advanceRevokeInvitation t organizationId invitationId
  | .accept acceptance => s.advanceAccept lower t acceptance now

/-! ## Runs -/

/-- What happens next: a transaction begins, goes on, or is rolled back. -/
inductive Event
  | begin (id : ℕ) (call : Call)
  | advance (id : ℕ) (now : Instant)
  | rollback (id : ℕ)

/-- Without a transaction. -/
def State.without (s : State) (id : ℕ) : State :=
  { s with inflight := s.inflight.filter (·.id ≠ id) }

/-- A transaction in another phase. -/
def State.withPhase (s : State) (id : ℕ) (phase : Phase) : State :=
  { s with inflight := Table.update (·.id = id) (fun t => { t with phase := phase }) s.inflight }

/-- A transaction goes on, or ends; `none` stands for a wait. -/
def State.settle (s : State) (id : ℕ) : Outcome → Option State
  | .waits => none
  | .moved phase => some (s.withPhase id phase)
  | .committed db _ => some ({ s with db := db }.without id)
  | .failed _ => some (s.without id)

/-- One event; an event that cannot happen now changes nothing. -/
def State.event (s : State) (lower : String → String) : Event → Option State
  | .begin id call =>
    if ∀ t ∈ s.inflight, t.id ≠ id then
      some { s with inflight := s.inflight ++ [⟨id, call, .begun⟩] }
    else none
  | .advance id now =>
    (s.inflight.find? (·.id = id)).bind fun t => s.settle id (s.advance lower t now)
  | .rollback id => some (s.without id)

/-- Overlapping requests as a service over events. -/
def transactions (lower : String → String) : Service State Event Unit Unit :=
  fun s event => orFail ((s.event lower event).map fun s' => (s', ())) ()

/-- Organizations without members, and no transaction. -/
def State.initial (organizations : List UUID) : State := ⟨.initial organizations, []⟩

/-- The events of a request that runs alone. -/
def alone (call : Call) (now : Instant) : List Event :=
  .begin 0 call :: List.replicate 4 (.advance 0 now)

end Intel4Ops.Access
