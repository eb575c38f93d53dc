import Intel4Ops.Access.Transactions

/-!
# The last administrator

The membership service counts active administrators under the lock of the organization, and between
its count and its commit the membership service itself cannot take the standing of another one.
Redeeming an invitation writes the role of an existing member without that lock and without a
count. As long as it leaves an administrator whom nobody is about to remove, an organization that
has an active administrator keeps one, however requests overlap.
-/

namespace Intel4Ops.Access

open Lib List Table Service Option

/-! ## What is claimed of a run -/

def Db.HasAdmin (db : Db) (organizationId : UUID) : Prop :=
  ∃ m ∈ db.memberships, m.organizationId = organizationId ∧ m.ActiveAdmin

def overlapped (lower : String → String) (organizations : List UUID) (events : List Event) :
    State :=
  (transactions lower).run (.initial organizations) events

/-- An organization keeps its administrator, and a change that would remove the last one fails and
changes nothing. -/
structure Administered (lower : String → String) (organizations : List UUID)
    (events : List Event) : Prop where
  kept : ∀ before later, events = before ++ later → ∀ organizationId,
    (overlapped lower organizations before).db.HasAdmin organizationId →
      (overlapped lower organizations events).db.HasAdmin organizationId
  refused : ∀ before id now later, events = before ++ .advance id now :: later →
    ∀ t ∈ (overlapped lower organizations before).inflight, t.id = id →
      ∀ organizationId membershipId change m,
        t.call.request = .change organizationId membershipId change → t.phase = .read m →
          m.ActiveAdmin → ¬ (change.apply m).ActiveAdmin →
            (overlapped lower organizations before).db.activeAdminCount m.organizationId = 1 →
              (overlapped lower organizations before).advance lower t now =
                  .failed (.lastActiveOrganizationAdmin
                    "The last active organization administrator cannot be changed") ∧
                overlapped lower organizations (before ++ [.advance id now]) =
                  (overlapped lower organizations before).without id

/-- The change that a transaction is about to commit. -/
def Transaction.pendingChange? (t : Transaction) : Option (UUID × Change) :=
  match t.call.request, t.phase with
  | .change _ _ change, .checked m => some (m.id, change)
  | _, _ => none

/-- A transaction is about to remove an active administrator. -/
def Transaction.Removes (t : Transaction) (m : Membership) : Prop :=
  ∃ p ∈ t.pendingChange?, p.1 = m.id ∧ ¬ (p.2.apply m).ActiveAdmin

instance (t : Transaction) (m : Membership) : Decidable (t.Removes m) :=
  inferInstanceAs (Decidable (∃ _ ∈ _, _))

/-- Another active administrator stays, whom no transaction is about to remove. -/
def State.Spares (s : State) (m : Membership) : Prop :=
  ∃ r ∈ s.db.memberships, r.organizationId = m.organizationId ∧ r.id ≠ m.id ∧ r.ActiveAdmin ∧
    ∀ t ∈ s.inflight, ¬ t.Removes r

instance (s : State) (m : Membership) : Decidable (s.Spares m) :=
  inferInstanceAs (Decidable (∃ _ ∈ _, _))

/-- The active administrator who gets another role by redeeming an invitation. -/
def Transaction.demotes? (t : Transaction) : Option Membership :=
  match t.phase with
  | .joining i (some m) => if m.ActiveAdmin ∧ i.role ≠ .organizationAdmin then some m else none
  | _ => none

def Event.continues? : Event → Option ℕ
  | .advance id _ => some id
  | _ => none

/-- An active administrator redeems an invitation to another role only where another one is
spared. -/
def Careful (s : State) (event : Event) : Prop :=
  ∀ id ∈ event.continues?, ∀ t ∈ s.inflight, t.id = id → ∀ m ∈ t.demotes?, s.Spares m

instance (s : State) (event : Event) : Decidable (Careful s event) :=
  inferInstanceAs (Decidable (∀ _ ∈ _, _))

variable {lower : String → String} {s : State} {t : Transaction} {now : Instant}

/-! ## What a statement does -/

/-- The request is a change. -/
def Transaction.Changes (t : Transaction) (organizationId : UUID) (change : Change) : Prop :=
  ∃ membershipId, t.call.request = .change organizationId membershipId change

/-- What a commit makes of the membership that it has locked. -/
inductive Rewrites (t : Transaction) (now : Instant) (m : Membership) :
    (Membership → Membership) → Prop
  | change (organizationId : UUID) (change : Change) (hchanges : t.Changes organizationId change)
      (hphase : t.phase = .checked m) : Rewrites t now m change.apply
  | activate : Rewrites t now m (·.activated now)
  | rejoin (i : Invitation) (hphase : t.phase = .joining i (some m)) :
      Rewrites t now m (i.rejoin now)

/-- What comes of a statement, as far as memberships and their locks are concerned. -/
inductive Advanced (s : State) (t : Transaction) (now : Instant) : Outcome → Prop
  | waits : Advanced s t now .waits
  | failed (e : Error) : Advanced s t now (.failed e)
  | locked (organizationId : UUID) (change : Change) (hchanges : t.Changes organizationId change)
      (hfree : s.OrganizationFree t organizationId) : Advanced s t now (.moved .locked)
  | read (m : Membership) (hmem : m ∈ s.db.memberships) (hfree : s.MembershipFree t m.id)
      (hlocked : ∀ organizationId change, t.Changes organizationId change →
        m.organizationId = organizationId ∧ t.organizationLock = some organizationId) :
      Advanced s t now (.moved (.read m))
  | checked (organizationId : UUID) (change : Change) (m : Membership)
      (hchanges : t.Changes organizationId change) (hphase : t.phase = .read m)
      (hcheck : s.db.checkChange m change = .ok ()) : Advanced s t now (.moved (.checked m))
  | moved (phase : Phase) (hother : ∀ organizationId change, ¬ t.Changes organizationId change)
      (hread : ∀ m ∈ phase.membership?, m ∈ s.db.memberships ∧ s.MembershipFree t m.id) :
      Advanced s t now (.moved phase)
  | written (m : Membership) (f : Membership → Membership) (db : Db) (reply : Reply)
      (hlock : t.phase.membership? = some m) (hrewrites : Rewrites t now m f)
      (hdb : db.memberships = update (·.id = m.id) f s.db.memberships) :
      Advanced s t now (.committed db reply)
  | added (row : Membership) (db : Db) (reply : Reply)
      (hfree : ∀ m ∈ s.db.memberships, ¬ m.clash row)
      (hdb : db.memberships = s.db.memberships ++ [row]) : Advanced s t now (.committed db reply)
  | unwritten (db : Db) (reply : Reply) (hdb : db.memberships = s.db.memberships) :
      Advanced s t now (.committed db reply)

theorem not_changes {request : Request} (hrequest : t.call.request = request)
    (hother : ∀ organizationId membershipId change,
      request ≠ .change organizationId membershipId change)
    (organizationId : UUID) (change : Change) : ¬ t.Changes organizationId change := by
  rintro ⟨membershipId, h⟩
  exact hother organizationId membershipId change (hrequest.symm.trans h)

theorem advanced_insert (phase : Phase) (hphase : phase.membership? = none)
    (hother : ∀ organizationId change, ¬ t.Changes organizationId change)
    (x : Except Error Unit) : Advanced s t now (.ofCheck phase x) := by
  cases x with
  | error e => exact .failed e
  | ok u =>
    refine .moved phase hother fun m hm => ?_
    rw [hphase] at hm
    cases hm

theorem advanced_readMembership {organizationId membershipId : UUID}
    (hlocked : ∀ other change, t.Changes other change →
      organizationId = other ∧ t.organizationLock = some other) :
    Advanced s t now (s.readMembership t organizationId membershipId) := by
  unfold State.readMembership
  cases hread : s.db.membership organizationId membershipId with
  | error e => exact .failed e
  | ok m =>
    obtain ⟨hmem, -, horganization⟩ := membership_ok hread
    dsimp only
    by_cases hfree : s.MembershipFree t m.id
    · rw [if_pos hfree]
      refine .read m hmem hfree fun other change hchanges => ?_
      rw [horganization]
      exact hlocked other change hchanges
    · rw [if_neg hfree]
      exact .waits

theorem advanced_change {organizationId membershipId : UUID} {change : Change}
    (hrequest : t.call.request = .change organizationId membershipId change) :
    Advanced s t now (s.advanceChange t organizationId membershipId change) := by
  have hchanges : t.Changes organizationId change := ⟨membershipId, hrequest⟩
  unfold State.advanceChange
  cases hphase : t.phase with
  | begun =>
    by_cases hfree : s.OrganizationFree t organizationId
    · simp only [if_pos hfree]
      cases s.db.lockOrganization organizationId with
      | error e => exact .failed e
      | ok u => exact .locked organizationId change hchanges hfree
    · simp only [if_neg hfree]
      exact .waits
  | locked =>
    refine advanced_readMembership fun other change' hother => ?_
    obtain ⟨_, h⟩ := hother
    rw [hrequest] at h
    obtain ⟨rfl, -, -⟩ := Request.change.inj h
    refine ⟨rfl, ?_⟩
    simp [Transaction.organizationLock, hrequest, hphase]
  | read m =>
    cases hcheck : s.db.checkChange m change with
    | error e =>
      simp only [hcheck]
      exact .failed e
    | ok u =>
      simp only [hcheck]
      exact .checked organizationId change m hchanges hphase hcheck
  | checked m =>
    refine .written m change.apply _ _ ?_ (.change organizationId change hchanges hphase) rfl
    rw [hphase]
    rfl
  | _ => exact .waits

theorem advanced_activate {organizationId membershipId : UUID}
    (hrequest : t.call.request = .activate organizationId membershipId) :
    Advanced s t now (s.advanceActivate t organizationId membershipId now) := by
  unfold State.advanceActivate
  cases hphase : t.phase with
  | begun =>
    refine advanced_readMembership fun other change hchanges => absurd hchanges ?_
    exact not_changes hrequest (fun _ _ _ h => by cases h) other change
  | read m =>
    refine .written m _ _ _ ?_ .activate rfl
    rw [hphase]
    rfl
  | _ => exact .waits

theorem advanced_createMembership {organizationId invitedBy : UUID} {payload : MembershipCreate}
    (hrequest : t.call.request = .createMembership organizationId invitedBy payload) :
    Advanced s t now (s.advanceCreateMembership t organizationId invitedBy payload now) := by
  unfold State.advanceCreateMembership
  cases t.phase with
  | begun => exact advanced_insert .clear rfl (not_changes hrequest fun _ _ _ h => by cases h) _
  | clear =>
    cases hadded : s.db.addMembership (payload.row organizationId invitedBy t.call.id now)
        duplicate with
    | error e =>
      simp only [hadded]
      exact .failed e
    | ok db =>
      simp only [hadded]
      obtain ⟨hfree, rfl⟩ := addMembership_ok hadded
      exact .added _ _ _ hfree rfl
  | _ => exact .waits

theorem advanced_createInvitation {organizationId invitedBy : UUID} {payload : InvitationCreate}
    (hrequest : t.call.request = .createInvitation organizationId invitedBy payload) :
    Advanced s t now
      (s.advanceCreateInvitation lower t organizationId invitedBy payload now) := by
  unfold State.advanceCreateInvitation
  cases t.phase with
  | begun => exact advanced_insert .clear rfl (not_changes hrequest fun _ _ _ h => by cases h) _
  | clear =>
    cases hadded : s.db.addInvitation
        (payload.row lower organizationId invitedBy t.call.id t.call.token now) with
    | error e =>
      simp only [hadded]
      exact .failed e
    | ok db =>
      simp only [hadded]
      obtain ⟨-, rfl⟩ := addInvitation_ok hadded
      exact .unwritten _ _ rfl
  | _ => exact .waits

theorem advanced_revokeInvitation {organizationId invitationId : UUID}
    (hrequest : t.call.request = .revokeInvitation organizationId invitationId) :
    Advanced s t now (s.advanceRevokeInvitation t organizationId invitationId) := by
  unfold State.advanceRevokeInvitation
  cases t.phase with
  | begun =>
    cases hfind : s.db.invitation organizationId invitationId with
    | error e =>
      exact .failed e
    | ok i =>
      dsimp only
      by_cases hfree : s.InvitationFree t i.id
      · rw [if_pos hfree]
        exact advanced_insert (.invited i) rfl (not_changes hrequest fun _ _ _ h => by cases h) _
      · rw [if_neg hfree]
        exact .waits
  | invited i => exact .unwritten _ _ rfl
  | _ => exact .waits

theorem advanced_useInvitation {acceptance : Acceptance} {i : Invitation}
    (hrequest : t.call.request = .accept acceptance) :
    Advanced s t now (s.useInvitation lower acceptance i now) := by
  unfold State.useInvitation
  cases i.status with
  | accepted =>
    cases hredeemed : s.db.redeemed i acceptance.userId with
    | error e =>
      exact .failed e
    | ok reply =>
      exact .unwritten _ _ rfl
  | revoked | expired => exact .failed _
  | pending =>
    by_cases hoverdue : i.expiresAt ≤ now
    · simp only [if_pos hoverdue]
      exact .unwritten _ _ rfl
    · simp only [if_neg hoverdue]
      exact advanced_insert (.invited i) rfl (not_changes hrequest fun _ _ _ h => by cases h) _

theorem advanced_accept {acceptance : Acceptance} (hrequest : t.call.request = .accept acceptance) :
    Advanced s t now (s.advanceAccept lower t acceptance now) := by
  unfold State.advanceAccept
  cases hphase : t.phase with
  | begun =>
    cases hfind : s.db.invitationOf acceptance.token with
    | error e =>
      exact .failed e
    | ok i =>
      dsimp only
      by_cases hfree : s.InvitationFree t i.id
      · rw [if_pos hfree]
        exact advanced_useInvitation hrequest
      · rw [if_neg hfree]
        exact .waits
  | invited i =>
    by_cases hfree : ∀ m ∈ s.db.membershipOf i.organizationId acceptance.userId,
        s.MembershipFree t m.id
    · simp only [if_pos hfree]
      refine .moved _ (not_changes hrequest fun _ _ _ h => by cases h) fun m hm => ?_
      exact ⟨mem_of_find?_eq_some hm, hfree m hm⟩
    · simp only [if_neg hfree]
      exact .waits
  | joining i found =>
    cases found with
    | none =>
      cases hadded : s.db.addMembership (i.newMember acceptance.userId t.call.id now)
          .integrity with
      | error e =>
        simp only [Db.join, hadded, error_bind]
        exact .failed e
      | ok db =>
        simp only [Db.join, hadded, ok_bind]
        obtain ⟨hfree, rfl⟩ := addMembership_ok hadded
        exact .added _ _ _ hfree rfl
    | some m =>
      refine .written m _ _ _ ?_ (.rejoin i hphase) rfl
      rw [hphase]
      rfl
  | _ => exact .waits

theorem advanced (lower : String → String) (s : State) (t : Transaction) (now : Instant) :
    Advanced s t now (s.advance lower t now) := by
  unfold State.advance
  split
  case h_1 hrequest => exact advanced_createMembership hrequest
  case h_2 hrequest => exact advanced_change hrequest
  case h_3 hrequest => exact advanced_activate hrequest
  case h_4 hrequest => exact advanced_createInvitation hrequest
  case h_5 hrequest => exact advanced_revokeInvitation hrequest
  case h_6 hrequest => exact advanced_accept hrequest

/-! ## Locks and counts -/

/-- A change that was allowed leaves another active administrator. -/
def Guarded (db : Db) (t : Transaction) : Prop :=
  ∀ organizationId change m, t.Changes organizationId change → t.phase = .checked m →
    m.ActiveAdmin → ¬ (change.apply m).ActiveAdmin →
      ∃ r ∈ db.memberships, r.organizationId = m.organizationId ∧ r.id ≠ m.id ∧ r.ActiveAdmin

/-- What holds of the tables and the transactions. -/
structure Sound (s : State) : Prop where
  membershipIds : Unique Membership.id s.db.memberships
  ids : Unique Transaction.id s.inflight
  organizationLocks : ∀ t ∈ s.inflight, ∀ u ∈ s.inflight, ∀ organizationId,
    t.organizationLock = some organizationId → u.organizationLock = some organizationId → t = u
  membershipLocks : ∀ t ∈ s.inflight, ∀ u ∈ s.inflight, ∀ m ∈ t.phase.membership?,
    ∀ m' ∈ u.phase.membership?, m.id = m'.id → t = u
  current : ∀ t ∈ s.inflight, ∀ m ∈ t.phase.membership?, m ∈ s.db.memberships
  belongs : ∀ t ∈ s.inflight, ∀ organizationId change, t.Changes organizationId change →
    ∀ m ∈ t.phase.membership?,
      m.organizationId = organizationId ∧ t.organizationLock = some organizationId
  guarded : ∀ t ∈ s.inflight, Guarded s.db t

theorem sound_initial (organizations : List UUID) : Sound (.initial organizations) where
  membershipIds := Unique.nil
  ids := Unique.nil
  organizationLocks := fun _ ht => absurd ht not_mem_nil
  membershipLocks := fun _ ht => absurd ht not_mem_nil
  current := fun _ ht => absurd ht not_mem_nil
  belongs := fun _ ht => absurd ht not_mem_nil
  guarded := fun _ ht => absurd ht not_mem_nil

theorem mem_without {id : ℕ} {u : Transaction} (hu : u ∈ (s.without id).inflight) :
    u ∈ s.inflight ∧ u.id ≠ id := by
  obtain ⟨hmem, hid⟩ := mem_filter.1 hu
  exact ⟨hmem, of_decide_eq_true hid⟩

/-- A transaction that ends releases its locks; what the others have read and counted on must still
be there. -/
theorem Sound.commit (h : Sound s) {db : Db} {id : ℕ}
    (hids : Unique Membership.id db.memberships)
    (hcurrent : ∀ u ∈ s.inflight, u.id ≠ id → ∀ m ∈ u.phase.membership?, m ∈ db.memberships)
    (hguarded : ∀ u ∈ s.inflight, u.id ≠ id → Guarded db u) :
    Sound ({ s with db := db }.without id) where
  membershipIds := hids
  ids := h.ids.filter _
  organizationLocks := fun t ht u hu =>
    h.organizationLocks t (mem_without ht).1 u (mem_without hu).1
  membershipLocks := fun t ht u hu => h.membershipLocks t (mem_without ht).1 u (mem_without hu).1
  current := fun t ht => hcurrent t (mem_without ht).1 (mem_without ht).2
  belongs := fun t ht => h.belongs t (mem_without ht).1
  guarded := fun t ht => hguarded t (mem_without ht).1 (mem_without ht).2

theorem Sound.without (h : Sound s) (id : ℕ) : Sound (s.without id) :=
  h.commit h.membershipIds (fun u hu _ => h.current u hu) fun u hu _ => h.guarded u hu

theorem Sound.begin (h : Sound s) {id : ℕ} {call : Call} (hfresh : ∀ t ∈ s.inflight, t.id ≠ id) :
    Sound { s with inflight := s.inflight ++ [⟨id, call, .begun⟩] } := by
  have hlock : (⟨id, call, .begun⟩ : Transaction).organizationLock = none := by
    unfold Transaction.organizationLock
    cases call.request <;> rfl
  have hcases : ∀ {t : Transaction}, t ∈ s.inflight ++ [⟨id, call, .begun⟩] →
      t ∈ s.inflight ∨ t = ⟨id, call, .begun⟩ := by
    intro t ht
    rcases mem_append.1 ht with hold | hnew
    · exact .inl hold
    · exact .inr (mem_singleton.1 hnew)
  refine ⟨h.membershipIds, h.ids.append hfresh, ?_, ?_, ?_, ?_, ?_⟩
  · intro t ht u hu organizationId htlock hulock
    rcases hcases ht with ht | rfl
    · rcases hcases hu with hu | rfl
      · exact h.organizationLocks t ht u hu organizationId htlock hulock
      · rw [hlock] at hulock
        cases hulock
    · rw [hlock] at htlock
      cases htlock
  · intro t ht u hu m hm m' hm'
    rcases hcases ht with ht | rfl
    · rcases hcases hu with hu | rfl
      · exact h.membershipLocks t ht u hu m hm m' hm'
      · cases hm'
    · cases hm
  · intro t ht m hm
    rcases hcases ht with ht | rfl
    · exact h.current t ht m hm
    · cases hm
  · intro t ht organizationId change hchanges m hm
    rcases hcases ht with ht | rfl
    · exact h.belongs t ht organizationId change hchanges m hm
    · cases hm
  · intro t ht organizationId change m hchanges hphase
    rcases hcases ht with ht | rfl
    · exact h.guarded t ht organizationId change m hchanges hphase
    · cases hphase

/-- A transaction that goes on takes only locks that are free, and reads what is committed. -/
theorem Sound.moved (h : Sound s) (ht : t ∈ s.inflight) {phase : Phase}
    (hlock : ∀ organizationId,
      (⟨t.id, t.call, phase⟩ : Transaction).organizationLock = some organizationId →
        t.organizationLock = some organizationId ∨ s.OrganizationFree t organizationId)
    (hread : ∀ m ∈ phase.membership?, m ∈ s.db.memberships ∧ s.MembershipFree t m.id)
    (hbelongs : ∀ organizationId change, t.Changes organizationId change →
      ∀ m ∈ phase.membership?, m.organizationId = organizationId ∧
        (⟨t.id, t.call, phase⟩ : Transaction).organizationLock = some organizationId)
    (hguarded : Guarded s.db ⟨t.id, t.call, phase⟩) :
    Sound (s.withPhase t.id phase) := by
  have hcases : ∀ {u : Transaction},
      u ∈ (s.withPhase t.id phase).inflight →
        u = ⟨t.id, t.call, phase⟩ ∨ u ∈ s.inflight ∧ u.id ≠ t.id := by
    intro u hu
    obtain ⟨r, hr, rfl⟩ := mem_update.1 hu
    by_cases hid : r.id = t.id
    · rw [if_pos (decide_eq_true hid), h.ids.eq_of_key_eq hr ht hid]
      exact .inl rfl
    · rw [if_neg (by simp [hid])]
      exact .inr ⟨hr, hid⟩
  -- no other transaction holds a lock of the one that goes on
  have horganization : ∀ u ∈ s.inflight, u.id ≠ t.id → ∀ organizationId,
      (⟨t.id, t.call, phase⟩ : Transaction).organizationLock = some organizationId →
        u.organizationLock ≠ some organizationId := by
    intro u hu hid organizationId hnew hold
    rcases hlock organizationId hnew with hheld | hfree
    · exact hid (congrArg Transaction.id (h.organizationLocks u hu t ht organizationId hold hheld))
    · exact hfree u hu hid hold
  refine ⟨h.membershipIds, h.ids.update fun _ => rfl, ?_, ?_, ?_, ?_, ?_⟩
  · intro u hu v hv organizationId hulock hvlock
    rcases hcases hu with rfl | ⟨hu, huid⟩
    · rcases hcases hv with rfl | ⟨hv, hvid⟩
      · rfl
      · exact absurd hvlock (horganization v hv hvid organizationId hulock)
    · rcases hcases hv with rfl | ⟨hv, hvid⟩
      · exact absurd hulock (horganization u hu huid organizationId hvlock)
      · exact h.organizationLocks u hu v hv organizationId hulock hvlock
  · intro u hu v hv m hm m' hm' hid
    rcases hcases hu with rfl | ⟨hu, huid⟩
    · rcases hcases hv with rfl | ⟨hv, hvid⟩
      · rfl
      · exact absurd hid.symm ((hread m hm).2 v hv hvid m' hm')
    · rcases hcases hv with rfl | ⟨hv, hvid⟩
      · exact absurd hid ((hread m' hm').2 u hu huid m hm)
      · exact h.membershipLocks u hu v hv m hm m' hm' hid
  · intro u hu m hm
    rcases hcases hu with rfl | ⟨hu, -⟩
    · exact (hread m hm).1
    · exact h.current u hu m hm
  · intro u hu organizationId change hchanges m hm
    rcases hcases hu with rfl | ⟨hu, -⟩
    · exact hbelongs organizationId change hchanges m hm
    · exact h.belongs u hu organizationId change hchanges m hm
  · intro u hu
    rcases hcases hu with rfl | ⟨hu, -⟩
    · exact hguarded
    · exact h.guarded u hu

theorem exists_other_admin {db : Db} (hids : Unique Membership.id db.memberships)
    {m : Membership} {change : Change} (hmem : m ∈ db.memberships) (hadmin : m.ActiveAdmin)
    (hremoves : ¬ (change.apply m).ActiveAdmin) (hcheck : db.checkChange m change = .ok ()) :
    ∃ r ∈ db.memberships, r.organizationId = m.organizationId ∧ r.id ≠ m.id ∧ r.ActiveAdmin := by
  have hguard : change.Guarded m := by
    cases change with
    | role newRole => exact ⟨hadmin.1, fun hrole => hremoves ⟨hrole, hadmin.2⟩⟩
    | suspend | revoke => trivial
  rw [Db.checkChange, if_pos hguard, Db.protectLastActiveAdmin, ensure_eq_ok] at hcheck
  by_contra hnone
  push Not at hnone
  apply hcheck hadmin
  apply Nat.le_antisymm
  · refine Nat.le_trans (countP_mono_left fun r hr hcounted => ?_)
      (hids.countP_le_one (p := fun r => r.id = m.id)
        fun a b ha hb => (of_decide_eq_true ha).trans (of_decide_eq_true hb).symm)
    obtain ⟨horganization, hactive⟩ := of_decide_eq_true hcounted
    by_contra hother
    exact hnone r hr horganization (fun hid => hother (decide_eq_true hid)) hactive
  · exact countP_pos_iff.2 ⟨m, hmem, decide_eq_true ⟨rfl, hadmin⟩⟩

/-! ## Commits -/

section Written

variable {m : Membership} {f : Membership → Membership}

theorem Rewrites.keepsIdentity (h : Rewrites t now m f) : KeepsIdentity f := by
  cases h with
  | change organizationId change hchanges hphase => exact change.keepsIdentity
  | activate => exact keepsIdentity_activated
  | rejoin i hphase => exact i.keepsIdentity_rejoin

theorem Transaction.pendingChange?_eq {u : Transaction} {organizationId : UUID} {change : Change}
    {r : Membership} (hchanges : u.Changes organizationId change) (hphase : u.phase = .checked r) :
    u.pendingChange? = some (r.id, change) := by
  obtain ⟨membershipId, hrequest⟩ := hchanges
  rw [Transaction.pendingChange?, hrequest, hphase]

theorem Transaction.changes_of_pendingChange? {u : Transaction} {p : UUID × Change}
    (h : p ∈ u.pendingChange?) :
    ∃ organizationId r, u.Changes organizationId p.2 ∧ u.phase = .checked r ∧ r.id = p.1 := by
  have hsome : u.pendingChange? = some p := h
  unfold pendingChange? at hsome
  split at hsome
  case h_1 organizationId membershipId change r hrequest hphase =>
    rw [← some.inj hsome]
    exact ⟨organizationId, r, ⟨membershipId, hrequest⟩, hphase, rfl⟩
  case h_2 => cases hsome

/-- A commit leaves an active administrator as one, or another one whom nobody is about to
remove. -/
theorem Sound.standing (h : Sound s) (ht : t ∈ s.inflight)
    (hcareful : ∀ m ∈ t.demotes?, s.Spares m) (hlock : t.phase.membership? = some m)
    (hrewrites : Rewrites t now m f) (hadmin : m.ActiveAdmin) : (f m).ActiveAdmin ∨
      ∃ r ∈ s.db.memberships, r.organizationId = m.organizationId ∧ r.id ≠ m.id ∧ r.ActiveAdmin ∧
        ∀ u ∈ s.inflight, u.id ≠ t.id → ¬ u.Removes r := by
  cases hrewrites with
  | change organizationId change hchanges hphase =>
    by_cases hstays : (change.apply m).ActiveAdmin
    · exact .inl hstays
    · obtain ⟨r, hr, hrow, hother, hactive⟩ :=
        h.guarded t ht organizationId change m hchanges hphase hadmin hstays
      refine .inr ⟨r, hr, hrow, hother, hactive, fun u hu hut hremoves => hut ?_⟩
      -- whoever is about to remove it would hold the same lock
      obtain ⟨p, hp, hid, -⟩ := hremoves
      obtain ⟨other, r', hchanges', hphase', hid'⟩ := Transaction.changes_of_pendingChange? hp
      have hread : r' ∈ u.phase.membership? := by
        rw [hphase']
        rfl
      have hsame : r' = r :=
        h.membershipIds.eq_of_key_eq (h.current u hu r' hread) hr (hid'.trans hid)
      obtain ⟨htenant, hulock⟩ := h.belongs u hu other _ hchanges' r' hread
      obtain ⟨htenant', htlock⟩ := h.belongs t ht organizationId change hchanges m hlock
      rw [← htenant, hsame, hrow, htenant'] at hulock
      exact congrArg Transaction.id (h.organizationLocks u hu t ht organizationId hulock htlock)
  | activate => exact .inl ⟨hadmin.1, rfl⟩
  | rejoin i hphase =>
    by_cases hrole : i.role = .organizationAdmin
    · exact .inl ⟨hrole, rfl⟩
    · have hdemotes : m ∈ t.demotes? := by
        rw [Transaction.demotes?, hphase]
        exact if_pos ⟨hadmin, hrole⟩
      obtain ⟨r, hr, hrow, hother, hactive, hspared⟩ := hcareful m hdemotes
      exact .inr ⟨r, hr, hrow, hother, hactive, fun u hu _ => hspared u hu⟩

/-- Wherever there was an active administrator there is one behind a commit, and not one whom
another transaction is about to remove if the old one was not. -/
theorem Sound.survives (h : Sound s) (ht : t ∈ s.inflight)
    (hcareful : ∀ m ∈ t.demotes?, s.Spares m) (hlock : t.phase.membership? = some m)
    (hrewrites : Rewrites t now m f) {r : Membership} (hr : r ∈ s.db.memberships)
    (hadmin : r.ActiveAdmin) :
    ∃ r' ∈ update (·.id = m.id) f s.db.memberships,
      r'.organizationId = r.organizationId ∧ r'.ActiveAdmin ∧
        (r'.id = r.id ∨ r' ∈ s.db.memberships ∧
          ∀ u ∈ s.inflight, u.id ≠ t.id → ¬ u.Removes r') := by
  by_cases hid : r.id = m.id
  · have hmem := h.current t ht m hlock
    rw [h.membershipIds.eq_of_key_eq hr hmem hid] at hadmin ⊢
    rcases h.standing ht hcareful hlock hrewrites hadmin with
      hstays | ⟨r', hr', hrow, hother, hactive, hspared⟩
    · refine ⟨f m, mem_update_of_selected hmem (decide_eq_true rfl), ?_, hstays, .inl ?_⟩
      · exact hrewrites.keepsIdentity.organizationId m
      · exact hrewrites.keepsIdentity.id m
    · exact ⟨r', mem_update_of_mem hr' (decide_eq_false hother), hrow, hactive, .inr ⟨hr', hspared⟩⟩
  · exact ⟨r, mem_update_of_mem hr (decide_eq_false hid), rfl, hadmin, .inl rfl⟩

theorem Sound.written (h : Sound s) (ht : t ∈ s.inflight)
    (hcareful : ∀ m ∈ t.demotes?, s.Spares m) (hlock : t.phase.membership? = some m)
    (hrewrites : Rewrites t now m f) {db : Db}
    (hdb : db.memberships = update (·.id = m.id) f s.db.memberships) :
    Sound ({ s with db := db }.without t.id) := by
  apply h.commit
  · rw [hdb]
    exact h.membershipIds.update hrewrites.keepsIdentity.id
  · intro u hu hut r hr
    rw [hdb]
    refine mem_update_of_mem (h.current u hu r hr) (decide_eq_false fun hid => hut ?_)
    exact congrArg Transaction.id (h.membershipLocks u hu t ht r hr m hlock hid)
  · intro u hu hut organizationId change m' hchanges hphase hadmin hremoves
    obtain ⟨r, hr, hrow, hother, hactive⟩ :=
      h.guarded u hu organizationId change m' hchanges hphase hadmin hremoves
    obtain ⟨r', hr', hrow', hactive', hcase⟩ := h.survives ht hcareful hlock hrewrites hr hactive
    rw [hdb]
    refine ⟨r', hr', hrow'.trans hrow, ?_, hactive'⟩
    rcases hcase with hid | ⟨hmem, hspared⟩
    · rw [hid]
      exact hother
    · intro hid
      have hread : m' ∈ u.phase.membership? := by
        rw [hphase]
        rfl
      have hsame : r' = m' := h.membershipIds.eq_of_key_eq hmem (h.current u hu m' hread) hid
      refine hspared u hu hut ⟨_, Transaction.pendingChange?_eq hchanges hphase, hid.symm, ?_⟩
      rw [hsame]
      exact hremoves

end Written

theorem Sound.grown (h : Sound s) {db : Db} (id : ℕ)
    (hids : Unique Membership.id db.memberships)
    (hkeep : ∀ m ∈ s.db.memberships, m ∈ db.memberships) :
    Sound ({ s with db := db }.without id) := by
  apply h.commit hids
  · exact fun u hu _ m hm => hkeep m (h.current u hu m hm)
  · intro u hu _ organizationId change m hchanges hphase hadmin hremoves
    obtain ⟨r, hr, hother⟩ := h.guarded u hu organizationId change m hchanges hphase hadmin hremoves
    exact ⟨r, hkeep r hr, hother⟩

/-! ## One event -/

/-- The lock of an organization is held by changes, behind their first statement. -/
theorem Transaction.changes_of_organizationLock {organizationId : UUID}
    (h : t.organizationLock = some organizationId) :
    (∃ change, t.Changes organizationId change) ∧ t.phase ≠ .begun := by
  unfold organizationLock at h
  split at h
  case h_1 other membershipId change hrequest =>
    obtain ⟨hphase, hsame⟩ := ite_none_left_eq_some.1 h
    rw [some.injEq] at hsame
    rw [hsame] at hrequest
    exact ⟨⟨change, membershipId, hrequest⟩, hphase⟩
  case h_2 => cases h

theorem Transaction.organizationLock_eq {organizationId : UUID} {change : Change}
    (hchanges : t.Changes organizationId change) (hphase : t.phase ≠ .begun) :
    t.organizationLock = some organizationId := by
  obtain ⟨membershipId, hrequest⟩ := hchanges
  simp only [organizationLock, hrequest]
  exact if_neg hphase

theorem Transaction.changes_unique {organizationId other : UUID} {change change' : Change}
    (h : t.Changes organizationId change) (h' : t.Changes other change') :
    organizationId = other ∧ change = change' := by
  obtain ⟨_, hrequest⟩ := h
  obtain ⟨_, hrequest'⟩ := h'
  obtain ⟨hsame, -, hchange⟩ := Request.change.inj (hrequest.symm.trans hrequest')
  exact ⟨hsame, hchange⟩

/-- Transactions that do not overlap in what they read and count go on soundly, and no organization
loses its administrator. -/
theorem Sound.advanced {o : Outcome} {s' : State} (h : Sound s) (ht : t ∈ s.inflight)
    (hcareful : ∀ m ∈ t.demotes?, s.Spares m) (hadvanced : Advanced s t now o)
    (hsettle : s.settle t.id o = some s') :
    Sound s' ∧ ∀ organizationId, s.db.HasAdmin organizationId → s'.db.HasAdmin organizationId := by
  cases hadvanced with
  | waits => cases hsettle
  | failed e =>
    obtain rfl := some.inj hsettle
    exact ⟨h.without t.id, fun _ hadmin => hadmin⟩
  | locked organizationId change hchanges hfree =>
    obtain rfl := some.inj hsettle
    refine ⟨h.moved ht ?_ ?_ ?_ ?_, fun _ hadmin => hadmin⟩
    · intro other hlock
      obtain ⟨⟨change', hchanges'⟩, -⟩ := Transaction.changes_of_organizationLock hlock
      rw [← (Transaction.changes_unique hchanges hchanges').1]
      exact .inr hfree
    · intro m hm
      cases hm
    · intro other change' _ m hm
      cases hm
    · intro other change' m _ hphase
      cases hphase
  | read m hmem hfree hlocked =>
    obtain rfl := some.inj hsettle
    refine ⟨h.moved ht ?_ ?_ ?_ ?_, fun _ hadmin => hadmin⟩
    · intro other hlock
      obtain ⟨⟨change, hchanges⟩, -⟩ := Transaction.changes_of_organizationLock hlock
      exact .inl (hlocked other change hchanges).2
    · intro r hr
      rw [← some.inj hr]
      exact ⟨hmem, hfree⟩
    · intro other change hchanges r hr
      rw [← some.inj hr]
      refine ⟨(hlocked other change hchanges).1, ?_⟩
      exact Transaction.organizationLock_eq hchanges fun hphase => by cases hphase
    · intro other change r _ hphase
      cases hphase
  | checked organizationId change m hchanges hphase hcheck =>
    obtain rfl := some.inj hsettle
    have hread : m ∈ t.phase.membership? := by
      rw [hphase]
      rfl
    refine ⟨h.moved ht ?_ ?_ ?_ ?_, fun _ hadmin => hadmin⟩
    · intro other hlock
      obtain ⟨⟨change', hchanges'⟩, -⟩ := Transaction.changes_of_organizationLock hlock
      exact .inl (h.belongs t ht other change' hchanges' m hread).2
    · intro r hr
      rw [← some.inj hr]
      refine ⟨h.current t ht m hread, fun u hu hut m' hm' hid => hut ?_⟩
      exact congrArg Transaction.id (h.membershipLocks u hu t ht m' hm' m hread hid)
    · intro other change' hchanges' r hr
      rw [← some.inj hr]
      refine ⟨(h.belongs t ht other change' hchanges' m hread).1, ?_⟩
      exact Transaction.organizationLock_eq hchanges' fun hphase => by cases hphase
    · intro other change' r hchanges' hphase' hadmin hremoves
      rw [← Phase.checked.inj hphase'] at hadmin hremoves ⊢
      rw [← (Transaction.changes_unique hchanges hchanges').2] at hremoves
      exact exists_other_admin h.membershipIds (h.current t ht m hread) hadmin hremoves hcheck
  | moved phase hother hread =>
    obtain rfl := some.inj hsettle
    refine ⟨h.moved ht ?_ hread ?_ ?_, fun _ hadmin => hadmin⟩
    · intro organizationId hlock
      obtain ⟨⟨change, hchanges⟩, -⟩ := Transaction.changes_of_organizationLock hlock
      exact absurd hchanges (hother organizationId change)
    · intro organizationId change hchanges
      exact absurd hchanges (hother organizationId change)
    · intro organizationId change m hchanges
      exact absurd hchanges (hother organizationId change)
  | written m f db reply hlock hrewrites hdb =>
    obtain rfl := some.inj hsettle
    refine ⟨h.written ht hcareful hlock hrewrites hdb, ?_⟩
    rintro organizationId ⟨r, hr, hrow, hadmin⟩
    obtain ⟨r', hr', hrow', hadmin', -⟩ := h.survives ht hcareful hlock hrewrites hr hadmin
    refine ⟨r', ?_, hrow'.trans hrow, hadmin'⟩
    show r' ∈ db.memberships
    rw [hdb]
    exact hr'
  | added row db reply hfree hdb =>
    obtain rfl := some.inj hsettle
    have hkeep : ∀ m ∈ s.db.memberships, m ∈ db.memberships := by
      intro m hm
      rw [hdb]
      exact mem_append_left _ hm
    refine ⟨h.grown t.id ?_ hkeep, ?_⟩
    · rw [hdb]
      exact h.membershipIds.append fun m hm hid => hfree m hm (.inl hid)
    · rintro organizationId ⟨r, hr, hadmin⟩
      exact ⟨r, hkeep r hr, hadmin⟩
  | unwritten db reply hdb =>
    obtain rfl := some.inj hsettle
    have hkeep : ∀ m ∈ s.db.memberships, m ∈ db.memberships := by
      intro m hm
      rw [hdb]
      exact hm
    refine ⟨h.grown t.id ?_ hkeep, ?_⟩
    · rw [hdb]
      exact h.membershipIds
    · rintro organizationId ⟨r, hr, hadmin⟩
      exact ⟨r, hkeep r hr, hadmin⟩

theorem Sound.event {event : Event} {s' : State} (h : Sound s) (hcareful : Careful s event)
    (hevent : s.event lower event = some s') :
    Sound s' ∧ ∀ organizationId, s.db.HasAdmin organizationId → s'.db.HasAdmin organizationId := by
  cases event with
  | begin id call =>
    obtain ⟨hfresh, hsome⟩ := ite_none_right_eq_some.1 hevent
    obtain rfl := some.inj hsome
    exact ⟨h.begin hfresh, fun _ hadmin => hadmin⟩
  | advance id now =>
    obtain ⟨t, hfind, hsettle⟩ := bind_eq_some_iff.1 hevent
    obtain ⟨ht, rfl⟩ := find?_spec hfind
    exact h.advanced ht (fun m hm => hcareful t.id rfl t ht rfl m hm)
      (Access.advanced lower s t now) hsettle
  | rollback id =>
    obtain rfl := some.inj hevent
    exact ⟨h.without id, fun _ hadmin => hadmin⟩

/-! ## Runs -/

theorem transactions_ok {event : Event} {s' : State} {u : Unit}
    (h : transactions lower s event = .ok (s', u)) : s.event lower event = some s' := by
  rw [transactions, orFail_eq_ok] at h
  obtain ⟨s'', hevent, heq⟩ := map_eq_some_iff.1 h
  rw [hevent, (Prod.mk.inj heq).1]

theorem sound_run {events : List Event} (h : Sound s)
    (hcareful : (transactions lower).AllSteps Careful s events) :
    Sound ((transactions lower).run s events) :=
  run_invariant_of h (fun h hstep hok => (h.event hstep (transactions_ok hok)).1) hcareful

theorem hasAdmin_run {events : List Event} {organizationId : UUID} (h : Sound s)
    (hcareful : (transactions lower).AllSteps Careful s events)
    (hadmin : s.db.HasAdmin organizationId) :
    ((transactions lower).run s events).db.HasAdmin organizationId := by
  have hboth : Sound ((transactions lower).run s events) ∧
      ((transactions lower).run s events).db.HasAdmin organizationId := by
    refine run_invariant_of (P := fun s => Sound s ∧ s.db.HasAdmin organizationId)
      ⟨h, hadmin⟩ ?_ hcareful
    intro s event s' u h hstep hok
    obtain ⟨hsound, hkeeps⟩ := h.1.event hstep (transactions_ok hok)
    exact ⟨hsound, hkeeps organizationId h.2⟩
  exact hboth.2

theorem advance_refused (lower : String → String) (now : Instant)
    {organizationId membershipId : UUID} {change : Change} {m : Membership}
    (hrequest : t.call.request = .change organizationId membershipId change)
    (hphase : t.phase = .read m) (hadmin : m.ActiveAdmin)
    (hremoves : ¬ (change.apply m).ActiveAdmin) (hlast : s.db.activeAdminCount m.organizationId = 1) :
    s.advance lower t now = .failed (.lastActiveOrganizationAdmin
      "The last active organization administrator cannot be changed") := by
  have hguard : change.Guarded m := by
    cases change with
    | role newRole => exact ⟨hadmin.1, fun hrole => hremoves ⟨hrole, hadmin.2⟩⟩
    | suspend | revoke => trivial
  simp only [State.advance, hrequest, State.advanceChange, hphase, Db.checkChange, if_pos hguard,
    Db.protectLastActiveAdmin]
  rw [ensure_of_not fun h => h hadmin hlast]
  rfl

/-- However requests overlap, an organization keeps an active administrator as long as redeemed
invitations spare one, and changes that would remove the last one fail. -/
theorem administered_of_careful (lower : String → String) (organizations : List UUID)
    (events : List Event)
    (h : (transactions lower).AllSteps Careful (.initial organizations) events) :
    Administered lower organizations events where
  kept := by
    rintro before later rfl organizationId hadmin
    obtain ⟨hbefore, hlater⟩ := (allSteps_append Careful _ before later).1 h
    rw [overlapped, run_append]
    exact hasAdmin_run (sound_run (sound_initial organizations) hbefore) hlater hadmin
  refused := by
    rintro before id now later rfl t ht rfl organizationId membershipId change m hrequest hphase
      hadmin hremoves hlast
    have hbefore := ((allSteps_append Careful _ before _).1 h).1
    have hsound : Sound (overlapped lower organizations before) :=
      sound_run (sound_initial organizations) hbefore
    have hfailed := advance_refused lower now hrequest hphase hadmin hremoves hlast
    refine ⟨hfailed, ?_⟩
    have hfind : (overlapped lower organizations before).inflight.find? (·.id = t.id) = some t :=
      hsound.ids.find?_eq_some ht (decide_eq_true rfl) fun u _ hu => of_decide_eq_true hu
    rw [overlapped, run_append, ← overlapped, run_cons, run_nil]
    simp only [Service.next, transactions, State.event, hfind, bind_some, hfailed,
      State.settle, map_some, orFail_some]

namespace Demoted

/-- An administrator joins an organization, and an invitation as a viewer is sent out. -/
def invited : List Event :=
  alone ⟨.createMembership 1 9 ⟨5, .organizationAdmin, .active⟩, 10, 0⟩ 0 ++
    alone ⟨.createInvitation 1 9 ⟨"a@b.c", .viewer⟩, 20, 77⟩ 1

/-- Someone redeems the invitation. -/
def redeemedBy (userId : UUID) : List Event :=
  alone ⟨.accept ⟨77, userId, some "a@b.c", true⟩, 30, 0⟩ 2

end Demoted

theorem administered_of_careful_redeemed :
    Administered id [1] (Demoted.invited ++ Demoted.redeemedBy 6) :=
  administered_of_careful id [1] (Demoted.invited ++ Demoted.redeemedBy 6) (by decide +kernel)

/-- The only administrator redeems an invitation as a viewer. -/
theorem Demoted.not_administered : ¬ Administered id [1] (invited ++ redeemedBy 5) := by
  intro h
  have hbefore : (overlapped id [1] invited).db.HasAdmin 1 := by
    unfold Db.HasAdmin
    decide +kernel
  have hafter : ¬ (overlapped id [1] (invited ++ redeemedBy 5)).db.HasAdmin 1 := by
    unfold Db.HasAdmin
    decide +kernel
  exact hafter (h.kept invited (redeemedBy 5) rfl 1 hbefore)

end Intel4Ops.Access
