import Intel4Ops.Access.Steps
import Mathlib.Data.List.Infix

/-!
# Invitations grant access once

An invitation is redeemed once, by its verified recipient, while it is pending and not overdue. That
it is overdue is recorded only when someone presents its token, so until then it stands in the way
of a new invitation. Redeeming makes an active member of whoever was suspended or revoked, also when
the invitation is older than that.
-/

namespace Intel4Ops.Access

open Lib List Table Service

/-! ## What is claimed of a run -/

section Claim

variable (lower : String → String) (organizations : List UUID)

/-- The tables after requests that are served one at a time. -/
def after (calls : List (Call × Instant)) : Db := (service lower).run (.initial organizations) calls

/-- A user redeems an invitation: the verified recipient presents the token while it is pending and
not overdue. -/
structure Redeems (call : Call × Instant) (i : Invitation) (userId : UUID) : Prop where
  pending : i.status = .pending
  unexpired : call.2 < i.expiresAt
  accepts : ∃ acceptance, call.1.request = .accept acceptance ∧ acceptance.userId = userId ∧
    acceptance.token = i.token ∧ acceptance.Recipient lower i

/-- A member who was suspended or revoked. -/
def Membership.Removed (m : Membership) : Prop := m.status = .suspended ∨ m.status = .revoked

instance (m : Membership) : Decidable m.Removed := inferInstanceAs (Decidable (_ ∨ _))

/-- What invitations and memberships are after requests. -/
structure Granted (calls : List (Call × Instant)) : Prop where
  redeemed : ∀ before call later, calls = before ++ call :: later →
    ∀ i' ∈ (after lower organizations (before ++ [call])).invitations, i'.status = .accepted →
      i' ∈ (after lower organizations before).invitations ∨
        ∃ i ∈ (after lower organizations before).invitations, i.id = i'.id ∧
          ∃ userId, Redeems lower call i userId ∧ i'.acceptedByUserId = some userId
  once : ∀ before later, calls = before ++ later →
    ∀ i ∈ (after lower organizations before).invitations, i.status = .accepted →
      i ∈ (after lower organizations calls).invitations
  grants : ∀ before call later, calls = before ++ call :: later →
    ∀ acceptance, call.1.request = .accept acceptance →
      (after lower organizations (before ++ [call])).memberships =
          (after lower organizations before).memberships ∨
        ∃ i ∈ (after lower organizations before).invitations, Redeems lower call i acceptance.userId
  onePending : ∀ i ∈ (after lower organizations calls).invitations,
    ∀ j ∈ (after lower organizations calls).invitations, i.status = .pending →
      j.status = .pending → i.organizationId = j.organizationId → i.email = j.email → i = j
  free : ∀ organizationId ∈ organizations, ∀ invitedBy payload id token now,
    (∀ i ∈ (after lower organizations calls).invitations, i.id ≠ id ∧ i.token ≠ token ∧
      ¬ (i.organizationId = organizationId ∧ i.email = normalizeEmail lower payload.email ∧
        i.status = .pending)) →
      ∃ result, serve lower (after lower organizations calls)
        ⟨.createInvitation organizationId invitedBy payload, id, token⟩ now = .ok result
  recorded : ∀ i ∈ (after lower organizations calls).invitations, i.status = .pending →
    ∀ acceptance : Acceptance, acceptance.token = i.token → ∀ id token now, i.expiresAt ≤ now →
      serve lower (after lower organizations calls) ⟨.accept acceptance, id, token⟩ now =
        .ok ((after lower organizations calls).writeInvitation i.id Invitation.overdue,
          .refused invitationExpired)
  reactivated : ∀ before call later, calls = before ++ call :: later →
    ∀ m ∈ (after lower organizations before).memberships, m.Removed →
      ∀ m' ∈ (after lower organizations (before ++ [call])).memberships, m'.id = m.id →
        m'.status = .active →
          call.1.request = .activate m.organizationId m.id ∨
            ∃ i ∈ (after lower organizations before).invitations,
              i.organizationId = m.organizationId ∧ Redeems lower call i m.userId

/-- An overdue invitation stands in no new invitation's way. -/
def Freed (calls : List (Call × Instant)) : Prop :=
  ∀ organizationId ∈ organizations, ∀ invitedBy payload id token now,
    (∀ i ∈ (after lower organizations calls).invitations, i.id ≠ id ∧ i.token ≠ token ∧
      (i.organizationId = organizationId → i.email = normalizeEmail lower payload.email →
        i.status = .pending → i.expiresAt ≤ now)) →
      ∃ result, serve lower (after lower organizations calls)
        ⟨.createInvitation organizationId invitedBy payload, id, token⟩ now = .ok result

/-- A removed member comes back only by `activate`, or through an invitation that did not exist when
the member was removed. -/
def AfterRemoval (calls : List (Call × Instant)) : Prop :=
  ∀ before call later, calls = before ++ call :: later →
    ∀ m ∈ (after lower organizations before).memberships, m.Removed →
      ∀ m' ∈ (after lower organizations (before ++ [call])).memberships, m'.id = m.id →
        m'.status = .active →
          call.1.request = .activate m.organizationId m.id ∨
            ∃ i ∈ (after lower organizations before).invitations,
              i.organizationId = m.organizationId ∧ Redeems lower call i m.userId ∧
                ∃ earlier ∈ before.inits,
                  (∃ r ∈ (after lower organizations earlier).memberships, r.id = m.id ∧ r.Removed) ∧
                  ∀ j ∈ (after lower organizations earlier).invitations, j.id ≠ i.id

/-- With both. -/
def Claimed (calls : List (Call × Instant)) : Prop :=
  Granted lower organizations calls ∧ Freed lower organizations calls ∧
    AfterRemoval lower organizations calls

end Claim

variable {lower : String → String} {db db' : Db} {call : Call} {now : Instant}

/-! ## What every request keeps -/

/-- What the constraints and the locks keep. -/
structure Kept (db : Db) : Prop where
  membershipIds : Unique Membership.id db.memberships
  members : Unique (fun m => (m.organizationId, m.userId)) db.memberships
  invitationIds : Unique Invitation.id db.invitations
  tokens : Unique Invitation.token db.invitations
  onePending : ∀ i ∈ db.invitations, ∀ j ∈ db.invitations, i.status = .pending →
    j.status = .pending → i.organizationId = j.organizationId → i.email = j.email → i = j

theorem kept_initial (organizations : List UUID) : Kept (.initial organizations) where
  membershipIds := Unique.nil
  members := Unique.nil
  invitationIds := Unique.nil
  tokens := Unique.nil
  onePending := fun _ hi => absurd hi not_mem_nil

theorem Kept.addMembership (h : Kept db) {row : Membership}
    (hfree : ∀ m ∈ db.memberships, ¬ m.clash row) :
    Kept { db with memberships := db.memberships ++ [row] } where
  membershipIds := h.membershipIds.append fun m hm hid => hfree m hm (.inl hid)
  members := h.members.append fun m hm hkey => hfree m hm (.inr (Prod.mk.inj hkey))
  invitationIds := h.invitationIds
  tokens := h.tokens
  onePending := h.onePending

theorem Kept.writeMembership (h : Kept db) (id : UUID) {f : Membership → Membership}
    (hf : KeepsIdentity f) : Kept (db.writeMembership id f) where
  membershipIds := h.membershipIds.update hf.id
  members := h.members.update fun m => by rw [hf.organizationId, hf.userId]
  invitationIds := h.invitationIds
  tokens := h.tokens
  onePending := h.onePending

theorem Kept.addInvitation (h : Kept db) {row : Invitation}
    (hfree : ∀ i ∈ db.invitations, ¬ i.clash row) :
    Kept { db with invitations := db.invitations ++ [row] } where
  membershipIds := h.membershipIds
  members := h.members
  invitationIds := h.invitationIds.append fun i hi hid => hfree i hi (.inl hid)
  tokens := h.tokens.append fun i hi htoken => hfree i hi (.inr (.inl htoken))
  onePending := by
    intro i hi j hj hpending hpending' horganization hemail
    rcases mem_append.1 hi with hiOld | hiNew
    · rcases mem_append.1 hj with hjOld | hjNew
      · exact h.onePending i hiOld j hjOld hpending hpending' horganization hemail
      · obtain rfl := mem_singleton.1 hjNew
        exact absurd (.inr (.inr ⟨hpending, hpending', horganization, hemail⟩)) (hfree i hiOld)
    · obtain rfl := mem_singleton.1 hiNew
      rcases mem_append.1 hj with hjOld | hjNew
      · exact absurd (.inr (.inr ⟨hpending', hpending, horganization.symm, hemail.symm⟩))
          (hfree j hjOld)
      · exact (mem_singleton.1 hjNew).symm

/-- A rewrite that settles an invitation and keeps what identifies it. -/
structure Settles (f : Invitation → Invitation) : Prop where
  id : ∀ i, (f i).id = i.id
  token : ∀ i, (f i).token = i.token
  settled : ∀ i, (f i).status ≠ .pending

theorem settles_revoked : Settles Invitation.revoked :=
  ⟨fun _ => rfl, fun _ => rfl, fun _ h => by cases h⟩

theorem settles_overdue : Settles Invitation.overdue :=
  ⟨fun _ => rfl, fun _ => rfl, fun _ h => by cases h⟩

theorem settles_acceptedBy (userId membershipId : UUID) (now : Instant) :
    Settles (Invitation.acceptedBy userId membershipId now) :=
  ⟨fun _ => rfl, fun _ => rfl, fun _ h => by cases h⟩

theorem Kept.writeInvitation (h : Kept db) (id : UUID) {f : Invitation → Invitation}
    (hf : Settles f) : Kept (db.writeInvitation id f) where
  membershipIds := h.membershipIds
  members := h.members
  invitationIds := h.invitationIds.update hf.id
  tokens := h.tokens.update hf.token
  onePending := by
    -- what is pending now was pending before
    have hbefore : ∀ i ∈ (db.writeInvitation id f).invitations, i.status = .pending →
        i ∈ db.invitations := by
      intro i hi hpending
      rcases mem_writeInvitation hi with ⟨j, -, -, rfl⟩ | ⟨hold, -⟩
      · exact absurd hpending (hf.settled j)
      · exact hold
    intro i hi j hj hpending hpending'
    exact h.onePending i (hbefore i hi hpending) j (hbefore j hj hpending') hpending hpending'

theorem AccessStep.kept (hstep : AccessStep lower db call now db') (h : Kept db) : Kept db' := by
  cases hstep with
  | membershipCreated organizationId invitedBy payload hrequest hfree => exact h.addMembership hfree
  | changed m change hmem hrequest => exact h.writeMembership m.id change.keepsIdentity
  | activated m hmem hrequest => exact h.writeMembership m.id keepsIdentity_activated
  | invitationCreated row hstatus hfree => exact h.addInvitation hfree
  | invitationRevoked i hmem hpending => exact h.writeInvitation i.id settles_revoked
  | overdue i hmem hpending => exact h.writeInvitation i.id settles_overdue
  | replayed => exact h
  | joined i acceptance hmem hpending hexpiry hrequest htoken hrecipient hfree =>
    exact (h.addMembership hfree).writeInvitation i.id (settles_acceptedBy _ _ _)
  | rejoined i acceptance m hmem hpending hexpiry hrequest htoken hrecipient hmember =>
    exact (h.writeMembership m.id i.keepsIdentity_rejoin).writeInvitation i.id
      (settles_acceptedBy _ _ _)

/-! ## Accepted invitations -/

/-- An accepted invitation stays as it is when a pending one is settled. -/
theorem mem_writeInvitation_of_accepted (h : Kept db) {i j : Invitation} (hi : i ∈ db.invitations)
    (hpending : i.status = .pending) (hj : j ∈ db.invitations) (haccepted : j.status = .accepted)
    (f : Invitation → Invitation) : j ∈ (db.writeInvitation i.id f).invitations := by
  refine mem_update_of_mem hj (decide_eq_false fun hid => ?_)
  rw [h.invitationIds.eq_of_key_eq hj hi hid, hpending] at haccepted
  cases haccepted

theorem AccessStep.accepted_kept (hstep : AccessStep lower db call now db') (h : Kept db)
    {j : Invitation} (hj : j ∈ db.invitations) (haccepted : j.status = .accepted) :
    j ∈ db'.invitations := by
  cases hstep with
  | membershipCreated organizationId invitedBy payload hrequest hfree
  | changed m change hmem hrequest | activated m hmem hrequest => exact hj
  | invitationCreated row hstatus hfree => exact mem_append_left _ hj
  | invitationRevoked i hmem hpending | overdue i hmem hpending =>
    exact mem_writeInvitation_of_accepted h hmem hpending hj haccepted _
  | replayed => exact hj
  | joined i acceptance hmem hpending hexpiry hrequest htoken hrecipient hfree =>
    exact mem_writeInvitation_of_accepted (h.addMembership hfree) hmem hpending hj haccepted _
  | rejoined i acceptance m hmem hpending hexpiry hrequest htoken hrecipient hmember =>
    exact mem_writeInvitation_of_accepted (h.writeMembership m.id i.keepsIdentity_rejoin) hmem
      hpending hj haccepted _

theorem AccessStep.accepted_cases (hstep : AccessStep lower db call now db') {i' : Invitation}
    (hi' : i' ∈ db'.invitations) (haccepted : i'.status = .accepted) :
    i' ∈ db.invitations ∨ ∃ i ∈ db.invitations, i.id = i'.id ∧
      ∃ userId, Redeems lower (call, now) i userId ∧ i'.acceptedByUserId = some userId := by
  cases hstep with
  | membershipCreated organizationId invitedBy payload hrequest hfree
  | changed m change hmem hrequest | activated m hmem hrequest => exact .inl hi'
  | invitationCreated row hstatus hfree =>
    rcases mem_append.1 hi' with hold | hnew
    · exact .inl hold
    · rw [mem_singleton.1 hnew, hstatus] at haccepted
      cases haccepted
  | invitationRevoked i hmem hpending | overdue i hmem hpending =>
    rcases mem_writeInvitation hi' with ⟨j, -, -, rfl⟩ | ⟨hold, -⟩
    · cases haccepted
    · exact .inl hold
  | replayed => exact .inl hi'
  | joined i acceptance hmem hpending hexpiry hrequest htoken hrecipient hfree
  | rejoined i acceptance m hmem hpending hexpiry hrequest htoken hrecipient hmember =>
    rcases mem_writeInvitation hi' with ⟨j, hj, hid, rfl⟩ | ⟨hold, -⟩
    · refine .inr ⟨i, hmem, hid.symm, acceptance.userId, ⟨hpending, hexpiry, ?_⟩, rfl⟩
      exact ⟨acceptance, hrequest, rfl, htoken.symm, hrecipient⟩
    · exact .inl hold

/-! ## Memberships -/

theorem AccessStep.grants (hstep : AccessStep lower db call now db') {acceptance : Acceptance}
    (hrequest : call.request = .accept acceptance) :
    db'.memberships = db.memberships ∨
      ∃ i ∈ db.invitations, Redeems lower (call, now) i acceptance.userId := by
  cases hstep with
  | membershipCreated organizationId invitedBy payload hcreate hfree =>
    rw [hrequest] at hcreate
    cases hcreate
  | changed m change hmem hchange =>
    rw [hrequest] at hchange
    cases hchange
  | activated m hmem hactivate =>
    rw [hrequest] at hactivate
    cases hactivate
  | invitationCreated row hstatus hfree | invitationRevoked i hmem hpending
  | overdue i hmem hpending | replayed => exact .inl rfl
  | joined i presented hmem hpending hexpiry haccept htoken hrecipient hfree
  | rejoined i presented m hmem hpending hexpiry haccept htoken hrecipient hmember =>
    rw [hrequest] at haccept
    obtain rfl := Request.accept.inj haccept
    refine .inr ⟨i, hmem, hpending, hexpiry, acceptance, hrequest, rfl, htoken.symm, hrecipient⟩

theorem Membership.Removed.not_active {m : Membership} (h : m.Removed) : m.status ≠ .active := by
  intro hactive
  rcases h with hstatus | hstatus
  · rw [hactive] at hstatus
    cases hstatus
  · rw [hactive] at hstatus
    cases hstatus

theorem eq_of_rewritten (h : Kept db) {id : UUID} {f : Membership → Membership}
    (hf : KeepsIdentity f) {m m' : Membership} (hm : m ∈ db.memberships) (hremoved : m.Removed)
    (hm' : m' ∈ (db.writeMembership id f).memberships) (hid : m'.id = m.id)
    (hactive : m'.status = .active) : m.id = id ∧ m' = f m := by
  rcases mem_writeMembership hm' with ⟨r, hr, hrid, rfl⟩ | ⟨hold, -⟩
  · have hsame : r = m := h.membershipIds.eq_of_key_eq hr hm ((hf.id r).symm.trans hid)
    rw [← hsame]
    exact ⟨hrid, rfl⟩
  · have hsame : m' = m := h.membershipIds.eq_of_key_eq hold hm hid
    rw [hsame] at hactive
    exact absurd hactive hremoved.not_active

theorem not_removed_of_added (h : Kept db) {row m m' : Membership}
    (hfree : ∀ m ∈ db.memberships, ¬ m.clash row) (hm : m ∈ db.memberships) (hremoved : m.Removed)
    (hm' : m' ∈ db.memberships ++ [row]) (hid : m'.id = m.id) : m'.status ≠ .active := by
  rcases mem_append.1 hm' with hold | hnew
  · have hsame : m' = m := h.membershipIds.eq_of_key_eq hold hm hid
    rw [hsame]
    intro hactive
    exact absurd hactive hremoved.not_active
  · rw [mem_singleton.1 hnew] at hid
    exact absurd (.inl hid.symm) (hfree m hm)

theorem Change.apply_status (change : Change) {m : Membership} (hremoved : m.Removed) :
    (change.apply m).status ≠ .active := by
  intro hactive
  cases change with
  | role newRole =>
    have hstatus : m.status = .active := hactive
    exact hremoved.not_active hstatus
  | suspend | revoke => cases hactive

theorem AccessStep.reactivated (hstep : AccessStep lower db call now db') (h : Kept db)
    {m m' : Membership} (hm : m ∈ db.memberships) (hremoved : m.Removed)
    (hm' : m' ∈ db'.memberships) (hid : m'.id = m.id) (hactive : m'.status = .active) :
    call.request = .activate m.organizationId m.id ∨
      ∃ i ∈ db.invitations, i.organizationId = m.organizationId ∧
        Redeems lower (call, now) i m.userId := by
  cases hstep with
  | membershipCreated organizationId invitedBy payload hrequest hfree
  | joined i acceptance hmem hpending hexpiry hrequest htoken hrecipient hfree =>
    exact absurd hactive (not_removed_of_added h hfree hm hremoved hm' hid)
  | changed r change hmem hrequest =>
    obtain ⟨-, rfl⟩ := eq_of_rewritten h change.keepsIdentity hm hremoved hm' hid hactive
    exact absurd hactive (change.apply_status hremoved)
  | activated r hmem hrequest =>
    obtain ⟨hrow, -⟩ := eq_of_rewritten h keepsIdentity_activated hm hremoved hm' hid hactive
    rw [← h.membershipIds.eq_of_key_eq hm hmem hrow] at hrequest
    exact .inl hrequest
  | rejoined i acceptance r hmem hpending hexpiry hrequest htoken hrecipient hmember horganization
      huser =>
    obtain ⟨hrow, -⟩ := eq_of_rewritten h i.keepsIdentity_rejoin hm hremoved hm' hid hactive
    have hsame : m = r := h.membershipIds.eq_of_key_eq hm hmember hrow
    rw [hsame]
    refine .inr ⟨i, hmem, horganization.symm, hpending, hexpiry, ?_⟩
    exact ⟨acceptance, hrequest, huser.symm, htoken.symm, hrecipient⟩
  | invitationCreated | invitationRevoked | overdue | replayed =>
    -- no membership is written
    have hsame : m' = m := h.membershipIds.eq_of_key_eq hm' hm hid
    rw [hsame] at hactive
    exact absurd hactive hremoved.not_active

/-! ## New and overdue invitations -/

theorem serve_createInvitation {organizationId invitedBy id : UUID} {payload : InvitationCreate}
    {token : ℕ} (horganization : organizationId ∈ db.organizations)
    (hfree : ∀ i ∈ db.invitations, i.id ≠ id ∧ i.token ≠ token ∧
      ¬ (i.organizationId = organizationId ∧ i.email = normalizeEmail lower payload.email ∧
        i.status = .pending)) :
    ∃ result, serve lower db ⟨.createInvitation organizationId invitedBy payload, id, token⟩ now =
      .ok result := by
  have hinsert : insert Invitation.clash
      (payload.row lower organizationId invitedBy id token now) db.invitations =
        some (db.invitations ++ [payload.row lower organizationId invitedBy id token now]) := by
    rw [insert_eq_some]
    refine ⟨fun i hi hclash => ?_, rfl⟩
    obtain ⟨hid, htoken, hpending⟩ := hfree i hi
    rcases hclash with h | h | ⟨hstatus, -, hrow, hemail⟩
    · exact hid h
    · exact htoken h
    · exact hpending ⟨hrow, hemail, hstatus⟩
  let row := payload.row lower organizationId invitedBy id token now
  refine ⟨({ db with invitations := db.invitations ++ [row] }, .created row token), ?_⟩
  simp only [serve, Db.createInvitation, Db.checkInvitation, Db.addInvitation]
  rw [ensure_of horganization, ensure_of fun i hi => (hfree i hi).2.2, hinsert]
  rfl

theorem serve_overdue (h : Kept db) {i : Invitation} (hi : i ∈ db.invitations)
    (hpending : i.status = .pending) {acceptance : Acceptance} (htoken : acceptance.token = i.token)
    {id : UUID} {token : ℕ} (hoverdue : i.expiresAt ≤ now) :
    serve lower db ⟨.accept acceptance, id, token⟩ now =
      .ok (db.writeInvitation i.id Invitation.overdue, .refused invitationExpired) := by
  have hfind : db.invitations.find? (·.token = acceptance.token) = some i := by
    refine h.tokens.find?_eq_some hi (decide_eq_true htoken.symm) fun j _ hj => ?_
    exact (of_decide_eq_true hj).trans htoken
  simp only [serve, Db.accept, Db.invitationOf, hfind, orFail_some, ok_bind, hpending,
    Db.acceptPending, if_pos hoverdue]

/-! ## Runs -/

theorem service_ok {call : Call × Instant} {reply : Reply}
    (h : service lower db call = .ok (db', reply)) : AccessStep lower db call.1 call.2 db' :=
  serve_step h

theorem kept_after (organizations : List UUID) (calls : List (Call × Instant)) :
    Kept (after lower organizations calls) :=
  run_invariant (kept_initial organizations) (fun h hok => (service_ok hok).kept h) calls

theorem after_cases (lower : String → String) (organizations : List UUID)
    (before : List (Call × Instant)) (call : Call × Instant) :
    AccessStep lower (after lower organizations before) call.1 call.2
        (after lower organizations (before ++ [call])) ∨
      after lower organizations (before ++ [call]) = after lower organizations before := by
  have hrun : after lower organizations (before ++ [call]) =
      (service lower).next (after lower organizations before) call := by
    rw [after, run_append]
    rfl
  rw [hrun]
  rcases next_cases (service lower) (after lower organizations before) call with
    ⟨db', reply, hok, hnext⟩ | ⟨e, -, hnext⟩
  · rw [hnext]
    exact .inl (service_ok hok)
  · exact .inr hnext

theorem organizations_after (organizations : List UUID) (calls : List (Call × Instant)) :
    (after lower organizations calls).organizations = organizations := by
  refine run_invariant (P := fun db : Db => db.organizations = organizations) rfl ?_ calls
  intro db call db' reply h hok
  cases service_ok hok <;> exact h

/-- Whatever is requested and whenever, invitations are redeemed once, by their recipients, and
members come back by activation or by redeeming one. -/
theorem granted (lower : String → String) (organizations : List UUID)
    (calls : List (Call × Instant)) : Granted lower organizations calls where
  redeemed := by
    intro before call later _ i' hi' haccepted
    rcases after_cases lower organizations before call with hstep | hsame
    · exact hstep.accepted_cases hi' haccepted
    · rw [hsame] at hi'
      exact .inl hi'
  once := by
    rintro before later rfl i hi haccepted
    have hkept : Kept (after lower organizations (before ++ later)) ∧
        i ∈ (after lower organizations (before ++ later)).invitations := by
      rw [after, run_append]
      refine run_invariant (P := fun db => Kept db ∧ i ∈ db.invitations)
        ⟨kept_after organizations before, hi⟩ ?_ later
      intro db call db' reply h hok
      have hstep := service_ok hok
      exact ⟨hstep.kept h.1, hstep.accepted_kept h.1 h.2 haccepted⟩
    exact hkept.2
  grants := by
    intro before call later _ acceptance hrequest
    rcases after_cases lower organizations before call with hstep | hsame
    · exact hstep.grants hrequest
    · rw [hsame]
      exact .inl rfl
  onePending := (kept_after organizations calls).onePending
  free := by
    intro organizationId horganization invitedBy payload id token now hfree
    refine serve_createInvitation ?_ hfree
    rw [organizations_after]
    exact horganization
  recorded := by
    intro i hi hpending acceptance htoken id token now hoverdue
    exact serve_overdue (kept_after organizations calls) hi hpending htoken hoverdue
  reactivated := by
    intro before call later _ m hm hremoved m' hm' hid hactive
    rcases after_cases lower organizations before call with hstep | hsame
    · exact hstep.reactivated (kept_after organizations before) hm hremoved hm' hid hactive
    · rw [hsame] at hm'
      have heq : m' = m := (kept_after organizations before).membershipIds.eq_of_key_eq hm' hm hid
      rw [heq] at hactive
      exact absurd hactive hremoved.not_active

namespace Reinstated

/-- A viewer joins, is invited as an operator, and is suspended. -/
def suspended : List (Call × Instant) := [
  (⟨.createMembership 1 9 ⟨5, .viewer, .active⟩, 10, 0⟩, 0),
  (⟨.createInvitation 1 9 ⟨"a@b.c", .operator⟩, 20, 77⟩, 1),
  (⟨.change 1 10 .suspend, 0, 0⟩, 2)]

/-- The suspended member redeems the invitation. -/
def redeemed : Call × Instant := (⟨.accept ⟨77, 5, some "a@b.c", true⟩, 30, 0⟩, 3)

end Reinstated

/-- A suspended member comes back through an invitation that is older than the suspension, and an
overdue invitation stands in the way of a new one. -/
theorem Reinstated.not_claimed : ¬ Claimed id [1] (suspended ++ [redeemed]) ∧
    ¬ Freed id [1] [(⟨.createInvitation 1 9 ⟨"a@b.c", .operator⟩, 20, 77⟩, 1)] := by
  constructor
  · intro h
    have hremoved : ∃ m ∈ (after id [1] suspended).memberships, m.Removed ∧
        ∃ m' ∈ (after id [1] (suspended ++ [redeemed])).memberships, m'.id = m.id ∧
          m'.status = .active ∧ redeemed.1.request ≠ .activate m.organizationId m.id ∧
            ¬ ∃ i ∈ (after id [1] suspended).invitations, ∃ earlier ∈ suspended.inits,
              (∃ r ∈ (after id [1] earlier).memberships, r.id = m.id ∧ r.Removed) ∧
                ∀ j ∈ (after id [1] earlier).invitations, j.id ≠ i.id := by
      decide +kernel
    obtain ⟨m, hm, hstatus, m', hm', hid, hactive, hother, hnone⟩ := hremoved
    rcases h.2.2 suspended redeemed [] rfl m hm hstatus m' hm' hid hactive with
      hrequest | ⟨i, hi, -, -, hearlier⟩
    · exact hother hrequest
    · exact hnone ⟨i, hi, hearlier⟩
  · intro h
    obtain ⟨result, hresult⟩ := h 1 (by decide) 9 ⟨"a@b.c", .operator⟩ 21 78 (2 + invitationExpiry)
      (by decide +kernel)
    have herror :
    serve id (after id [1] [(⟨.createInvitation 1 9 ⟨"a@b.c", .operator⟩, 20, 77⟩, 1)])
        ⟨.createInvitation 1 9 ⟨"a@b.c", .operator⟩, 21, 78⟩ (2 + invitationExpiry) =
          .error invitationConflict := by
      decide +kernel
    rw [herror] at hresult
    cases hresult

end Intel4Ops.Access
