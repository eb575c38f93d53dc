import Intel4Ops.Access.Model

/-!
# What one request does to memberships and invitations

Every request that is served adds or rewrites one row of a table, or redeems an invitation, which
writes one row of each.
-/

namespace Intel4Ops.Access

open Lib Table Prod

variable {lower : String → String} {db db' : Db} {call : Call} {now : Instant} {reply : Reply}

/-! ## Rewritten rows -/

@[simp] theorem Change.apply_id (change : Change) (m : Membership) :
    (change.apply m).id = m.id := by
  cases change <;> rfl

@[simp] theorem Change.apply_organizationId (change : Change) (m : Membership) :
    (change.apply m).organizationId = m.organizationId := by
  cases change <;> rfl

@[simp] theorem Change.apply_userId (change : Change) (m : Membership) :
    (change.apply m).userId = m.userId := by
  cases change <;> rfl

/-- A rewrite that keeps what a membership is identified by. -/
structure KeepsIdentity (f : Membership → Membership) : Prop where
  id : ∀ m, (f m).id = m.id
  organizationId : ∀ m, (f m).organizationId = m.organizationId
  userId : ∀ m, (f m).userId = m.userId

theorem Change.keepsIdentity (change : Change) : KeepsIdentity change.apply :=
  ⟨change.apply_id, change.apply_organizationId, change.apply_userId⟩

theorem keepsIdentity_activated : KeepsIdentity (·.activated now) :=
  ⟨fun _ => rfl, fun _ => rfl, fun _ => rfl⟩

theorem Invitation.keepsIdentity_rejoin (i : Invitation) : KeepsIdentity (i.rejoin now) :=
  ⟨fun _ => rfl, fun _ => rfl, fun _ => rfl⟩

variable {id invitedBy : UUID} {acceptance : Acceptance}

theorem mem_writeMembership {f : Membership → Membership} {m' : Membership}
    (hm : m' ∈ (db.writeMembership id f).memberships) :
    (∃ m ∈ db.memberships, m.id = id ∧ m' = f m) ∨ m' ∈ db.memberships ∧ m'.id ≠ id := by
  obtain ⟨m, hmem, rfl⟩ := mem_update.1 hm
  by_cases hid : m.id = id
  · rw [if_pos (decide_eq_true hid)]
    exact .inl ⟨m, hmem, hid, rfl⟩
  · rw [if_neg (by simp [hid])]
    exact .inr ⟨hmem, hid⟩

theorem mem_writeInvitation {f : Invitation → Invitation} {i' : Invitation}
    (hi : i' ∈ (db.writeInvitation id f).invitations) :
    (∃ i ∈ db.invitations, i.id = id ∧ i' = f i) ∨ i' ∈ db.invitations ∧ i'.id ≠ id := by
  obtain ⟨i, hmem, rfl⟩ := mem_update.1 hi
  by_cases hid : i.id = id
  · rw [if_pos (decide_eq_true hid)]
    exact .inl ⟨i, hmem, hid, rfl⟩
  · rw [if_neg (by simp [hid])]
    exact .inr ⟨hmem, hid⟩

/-! ## The writes of a request -/

/-- What one request that is served does to the tables. -/
inductive AccessStep (lower : String → String) (db : Db) (call : Call) (now : Instant) : Db → Prop
  | membershipCreated (organizationId invitedBy : UUID) (payload : MembershipCreate)
      (hrequest : call.request = .createMembership organizationId invitedBy payload)
      (hfree : ∀ m ∈ db.memberships, ¬ m.clash (payload.row organizationId invitedBy call.id now)) :
      AccessStep lower db call now { db with memberships := db.memberships ++
        [payload.row organizationId invitedBy call.id now] }
  | changed (m : Membership) (change : Change) (hmem : m ∈ db.memberships)
      (hrequest : call.request = .change m.organizationId m.id change) :
      AccessStep lower db call now (db.writeMembership m.id change.apply)
  | activated (m : Membership) (hmem : m ∈ db.memberships)
      (hrequest : call.request = .activate m.organizationId m.id) :
      AccessStep lower db call now (db.writeMembership m.id (·.activated now))
  | invitationCreated (row : Invitation) (hstatus : row.status = .pending)
      (hfree : ∀ i ∈ db.invitations, ¬ i.clash row) :
      AccessStep lower db call now { db with invitations := db.invitations ++ [row] }
  | invitationRevoked (i : Invitation) (hmem : i ∈ db.invitations) (hpending : i.status = .pending) :
      AccessStep lower db call now (db.writeInvitation i.id Invitation.revoked)
  | overdue (i : Invitation) (hmem : i ∈ db.invitations) (hpending : i.status = .pending) :
      AccessStep lower db call now (db.writeInvitation i.id Invitation.overdue)
  | replayed : AccessStep lower db call now db
  | joined (i : Invitation) (acceptance : Acceptance) (hmem : i ∈ db.invitations)
      (hpending : i.status = .pending) (hexpiry : now < i.expiresAt)
      (hrequest : call.request = .accept acceptance) (htoken : i.token = acceptance.token)
      (hrecipient : acceptance.Recipient lower i)
      (hfree : ∀ m ∈ db.memberships, ¬ m.clash (i.newMember acceptance.userId call.id now)) :
      AccessStep lower db call now
        (({ db with memberships := db.memberships ++
            [i.newMember acceptance.userId call.id now] } : Db).writeInvitation i.id
          (Invitation.acceptedBy acceptance.userId call.id now))
  | rejoined (i : Invitation) (acceptance : Acceptance) (m : Membership)
      (hmem : i ∈ db.invitations) (hpending : i.status = .pending) (hexpiry : now < i.expiresAt)
      (hrequest : call.request = .accept acceptance) (htoken : i.token = acceptance.token)
      (hrecipient : acceptance.Recipient lower i) (hmember : m ∈ db.memberships)
      (horganization : m.organizationId = i.organizationId) (huser : m.userId = acceptance.userId) :
      AccessStep lower db call now ((db.writeMembership m.id (i.rejoin now)).writeInvitation i.id
        (Invitation.acceptedBy acceptance.userId m.id now))

theorem addMembership_ok {row : Membership} {e : Error} (h : db.addMembership row e = .ok db') :
    (∀ m ∈ db.memberships, ¬ m.clash row) ∧
      db' = { db with memberships := db.memberships ++ [row] } := by
  simp only [Db.addMembership, bind_eq_ok, orFail_eq_ok, pure_eq_ok, insert_eq_some] at h
  obtain ⟨_, ⟨hfree, rfl⟩, rfl⟩ := h
  exact ⟨hfree, rfl⟩

theorem addInvitation_ok {row : Invitation} (h : db.addInvitation row = .ok db') :
    (∀ i ∈ db.invitations, ¬ i.clash row) ∧
      db' = { db with invitations := db.invitations ++ [row] } := by
  simp only [Db.addInvitation, bind_eq_ok, orFail_eq_ok, pure_eq_ok, insert_eq_some] at h
  obtain ⟨_, ⟨hfree, rfl⟩, rfl⟩ := h
  exact ⟨hfree, rfl⟩

variable {membershipId organizationId : UUID}

theorem membership_ok {m : Membership} (h : db.membership organizationId membershipId = .ok m) :
    m ∈ db.memberships ∧ m.id = membershipId ∧ m.organizationId = organizationId := by
  rw [Db.membership, orFail_eq_ok] at h
  exact find?_spec h

theorem createMembership_step {payload : MembershipCreate}
    (hrequest : call.request = .createMembership organizationId invitedBy payload)
    (h : db.createMembership organizationId invitedBy call.id payload now = .ok (db', reply)) :
    AccessStep lower db call now db' := by
  simp only [Db.createMembership, bind_eq_ok, pure_eq_ok] at h
  obtain ⟨_, -, added, hadded, heq⟩ := h
  obtain ⟨hfree, rfl⟩ := addMembership_ok hadded
  obtain ⟨rfl, -⟩ := mk.inj heq
  exact .membershipCreated organizationId invitedBy payload hrequest hfree

theorem change_step {change : Change}
    (hrequest : call.request = .change organizationId membershipId change)
    (h : db.change organizationId membershipId change = .ok (db', reply)) :
    AccessStep lower db call now db' := by
  simp only [Db.change, bind_eq_ok, pure_eq_ok] at h
  obtain ⟨_, -, m, hm, _, -, heq⟩ := h
  obtain ⟨hmem, rfl, rfl⟩ := membership_ok hm
  obtain ⟨rfl, -⟩ := mk.inj heq
  exact .changed m change hmem hrequest

theorem activate_step (hrequest : call.request = .activate organizationId membershipId)
    (h : db.activate organizationId membershipId now = .ok (db', reply)) :
    AccessStep lower db call now db' := by
  simp only [Db.activate, bind_eq_ok, pure_eq_ok] at h
  obtain ⟨m, hm, heq⟩ := h
  obtain ⟨hmem, rfl, rfl⟩ := membership_ok hm
  obtain ⟨rfl, -⟩ := mk.inj heq
  exact .activated m hmem hrequest

theorem createInvitation_step {payload : InvitationCreate}
    (h : db.createInvitation lower organizationId invitedBy call.id payload call.token now =
      .ok (db', reply)) : AccessStep lower db call now db' := by
  simp only [Db.createInvitation, bind_eq_ok, pure_eq_ok] at h
  obtain ⟨_, -, added, hadded, heq⟩ := h
  obtain ⟨hfree, rfl⟩ := addInvitation_ok hadded
  obtain ⟨rfl, -⟩ := mk.inj heq
  exact .invitationCreated _ rfl hfree

theorem revokeInvitation_step {invitationId : UUID}
    (h : db.revokeInvitation organizationId invitationId = .ok (db', reply)) :
    AccessStep lower db call now db' := by
  simp only [Db.revokeInvitation, Db.invitation, Invitation.requirePending, bind_eq_ok,
    orFail_eq_ok, ensure_eq_ok, pure_eq_ok] at h
  obtain ⟨i, hfind, _, hpending, heq⟩ := h
  obtain ⟨rfl, -⟩ := mk.inj heq
  exact .invitationRevoked _ (find?_spec hfind).1 hpending

theorem acceptPending_step {i : Invitation} (hrequest : call.request = .accept acceptance)
    (hmem : i ∈ db.invitations) (htoken : i.token = acceptance.token)
    (hpending : i.status = .pending)
    (h : db.acceptPending lower acceptance i call.id now = .ok (db', reply)) :
    AccessStep lower db call now db' := by
  unfold Db.acceptPending at h
  split at h
  case isTrue hexpired =>
    obtain ⟨rfl, -⟩ := mk.inj (Except.ok.inj h)
    exact .overdue i hmem hpending
  case isFalse hexpiry =>
    rw [not_le] at hexpiry
    simp only [bind_eq_ok, ensure_eq_ok] at h
    obtain ⟨_, hrecipient, h⟩ := h
    cases hfind : db.membershipOf i.organizationId acceptance.userId with
    | none =>
      simp only [hfind, Db.join, bind_eq_ok, pure_eq_ok] at h
      obtain ⟨added, hadded, heq⟩ := h
      obtain ⟨hfree, rfl⟩ := addMembership_ok hadded
      obtain ⟨rfl, -⟩ := mk.inj heq
      exact .joined i acceptance hmem hpending hexpiry hrequest htoken hrecipient hfree
    | some m =>
      obtain ⟨hmember, horganization, huser⟩ := find?_spec hfind
      simp only [hfind, Db.join] at h
      obtain ⟨rfl, -⟩ := mk.inj (Except.ok.inj h)
      exact .rejoined i acceptance m hmem hpending hexpiry hrequest htoken hrecipient hmember
        horganization huser

theorem accept_step (hrequest : call.request = .accept acceptance)
    (h : db.accept lower acceptance call.id now = .ok (db', reply)) :
    AccessStep lower db call now db' := by
  simp only [Db.accept, Db.invitationOf, bind_eq_ok, orFail_eq_ok] at h
  obtain ⟨i, hfind, h⟩ := h
  obtain ⟨hmem, htoken⟩ := find?_spec hfind
  split at h
  case h_1 haccepted =>
    obtain ⟨_, -, heq⟩ := map_eq_ok.1 h
    obtain ⟨rfl, -⟩ := mk.inj heq
    exact .replayed
  case h_2 hrevoked | h_3 hexpired => cases h
  case h_4 hpending => exact acceptPending_step hrequest hmem htoken hpending h

theorem serve_step (h : serve lower db call now = .ok (db', reply)) :
    AccessStep lower db call now db' := by
  unfold serve at h
  split at h
  case h_1 hrequest => exact createMembership_step hrequest h
  case h_2 hrequest => exact change_step hrequest h
  case h_3 hrequest => exact activate_step hrequest h
  case h_4 => exact createInvitation_step h
  case h_5 => exact revokeInvitation_step h
  case h_6 hrequest => exact accept_step hrequest h

end Intel4Ops.Access
