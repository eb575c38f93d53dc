import Intel4Ops.OperationalMemory.Service
import Mathlib.Data.List.Chain

/-!
# Reusable memory is what a human last confirmed

Candidates and decisions append to one chain of versions. Whatever calls are made, the chain of an
item is complete and ends with its status, the counters add up to its length, and an item in a
reusable status holds the value of its latest decision. A repeated observation of that value keeps
the status of the item in a version that no human confirmed, so the label follows the decisions and
not the statuses.
-/

namespace Intel4Ops.OperationalMemory

open Lib List Table Option

/-! ## What is claimed of an item -/

def Version.decision? (v : Version) : Option MemoryDecisionRequest :=
  match v.requestFingerprint with
  | .decision _ _ payload => some payload
  | .recordCandidate _ _ => none

/-- The version was written by a decision to confirm or to correct. -/
def Version.Confirms (v : Version) : Prop :=
  ∃ payload ∈ v.decision?, payload.action = .confirm ∨ payload.action = .correct

/-- The versions of an item, in the order in which they were written. -/
def Db.versionsOf (db : Db) (item : Item) : List Version :=
  db.versions.filter (·.memoryId = item.id)

def decisions (versions : List Version) : List Version := versions.filter (·.decision?.isSome)

def latestDecision (versions : List Version) : Option Version :=
  versions.reverse.find? (·.decision?.isSome)

/-- The versions of the candidates that were recorded since. -/
def sinceDecision (versions : List Version) : List Version :=
  versions.reverse.takeWhile (·.decision?.isNone)

/-- The value of a version is the one that its request gave: a candidate and a correction bring
theirs, any other decision leaves the value of the version before. -/
def Version.FollowsRequest (env : Env) (category : Category) (versions : List Version)
    (v : Version) : Prop :=
  match v.requestFingerprint with
  | .recordCandidate _ payload =>
    validatePayload env category payload.valuePayload = .ok v.valuePayload
  | .decision _ _ payload =>
    if payload.action = .correct then
      ∃ corrected ∈ payload.correctedPayload,
        validatePayload env category corrected = .ok v.valuePayload
    else ∃ p ∈ versions, p.versionNumber + 1 = v.versionNumber ∧ v.valuePayload = p.valuePayload

/-- The latest decision confirmed or corrected, every candidate since then had its value, and so
has the current version. -/
structure HoldsConfirmed (versions : List Version) (d : Version) : Prop where
  latest : latestDecision versions = some d
  confirms : d.Confirms
  since : ∀ v ∈ sinceDecision versions, v.valuePayload = d.valuePayload
  current : ∀ v ∈ versions.getLast?, v.valuePayload = d.valuePayload

/-- What the versions of an item say of it, apart from their labels. -/
structure Chain (env : Env) (item : Item) (versions : List Version) : Prop where
  numbered : versions.map (·.versionNumber) = List.range' 1 item.currentVersionNumber
  first : ∀ v ∈ versions.head?, v.supersedesVersionId = none
  linked : versions.IsChain fun v w => w.supersedesVersionId = some v.id
  counted : item.supportCount + item.contradictionCount + (decisions versions).length =
    item.currentVersionNumber
  confirmed : item.currentStatus.Reusable → ∃ d, HoldsConfirmed versions d
  requested : ∀ v ∈ versions, v.FollowsRequest env item.category versions

/-- Every item has its chain of versions, and its last version is the current one and has its
status. -/
structure Remembered (env : Env) (db : Db) : Prop where
  chain : ∀ item ∈ db.items, Chain env item (db.versionsOf item)
  current : ∀ item ∈ db.items, ∃ v, db.currentVersion item = .ok v ∧
    (db.versionsOf item).getLast? = some v ∧ v.status = item.currentStatus

/-- Exactly the versions in a reusable status carry the label. -/
def LabelledByStatus (db : Db) : Prop :=
  ∀ v ∈ db.versions, v.confidenceLabel = .humanConfirmed ↔ v.status.Reusable

instance (db : Db) : Decidable (LabelledByStatus db) := inferInstanceAs (Decidable (∀ _ ∈ _, _))

/-- The version carries the label exactly when a confirmation or a correction wrote it, and is then
in a reusable status. -/
structure Version.Labelled (v : Version) : Prop where
  label : v.confidenceLabel = .humanConfirmed ↔ v.Confirms
  reusable : v.Confirms → v.status.Reusable

/-- Exactly the versions that a confirmation or a correction wrote carry the label. -/
def LabelledByDecision (db : Db) : Prop := ∀ v ∈ db.versions, v.Labelled

/-! ## What a committed call does -/

variable {env : Env} {db db' : Db} {call : Call} {reply : Item × Version}

/-- What one committed call does to the tables. -/
inductive MemoryStep (env : Env) (db : Db) : Db → Prop
  | replay : MemoryStep env db db
  | found (c : Candidate) (item : Item) (version : Version) (now : Instant)
      (hvalue : validatePayload env c.payload.category c.payload.valuePayload = .ok c.value)
      (hitem : item = c.item now item.id) (hversion : version = c.version item none version.id)
      (hfresh : ∀ i ∈ db.items, i.id ≠ item.id)
      (hfree : ∀ v ∈ db.versions, ¬ v.clash version) :
      MemoryStep env db ⟨db.items ++ [item], db.versions ++ [version]⟩
  | observed (c : Candidate) (item : Item) (prior version : Version) (now : Instant)
      (hvalue : validatePayload env item.category c.payload.valuePayload = .ok c.value)
      (hmem : item ∈ db.items) (hprior : db.currentVersion item = .ok prior)
      (hversion : version = c.version (item.observed prior c.value now) (some prior) version.id)
      (hfree : ∀ v ∈ db.versions, ¬ v.clash version) :
      MemoryStep env db ⟨update (·.id = item.id)
        (fun _ => item.observed prior c.value now) db.items, db.versions ++ [version]⟩
  | decided (payload : MemoryDecisionRequest) (item : Item) (prior version : Version)
      (status : Status) (value : ValuePayload) (now : Instant) (hmem : item ∈ db.items)
      (hprior : db.currentVersion item = .ok prior)
      (hstatus : decisionStatus item.currentStatus payload.action = .ok status)
      (hvalue : decidedValue env item.category prior payload = .ok value)
      (hversion : version = (item.decided status now).decisionVersion prior value payload version.id)
      (hfree : ∀ v ∈ db.versions, ¬ v.clash version) :
      MemoryStep env db ⟨update (·.id = item.id) (fun _ => item.decided status now) db.items,
        db.versions ++ [version]⟩

variable {c : Candidate} {organizationId versionId : UUID} {now : Instant} {other : Item}

theorem validateCandidate_ok {catalog : Catalog} {payload : MemoryCandidateCreate}
    (h : validateCandidate env catalog organizationId payload = .ok c) :
    validatePayload env c.payload.category c.payload.valuePayload = .ok c.value := by
  simp only [validateCandidate, bind_eq_ok, pure_eq_ok] at h
  obtain ⟨_, -, _, -, value, hvalue, _, -, _, -, _, -, _, -, _, -, _, -, _, -, rfl⟩ := h
  exact hvalue

theorem append_ok {item : Item} {version : Version} (h : db.append item version = .ok (db', reply)) :
    (∀ v ∈ db.versions, ¬ v.clash version) ∧
      db' = ⟨update (·.id = item.id) (fun _ => item) db.items, db.versions ++ [version]⟩ := by
  simp only [Db.append, bind_eq_ok, orFail_eq_ok, pure_eq_ok, insert_eq_some] at h
  obtain ⟨versions, ⟨hfree, rfl⟩, heq⟩ := h
  exact ⟨hfree, (congrArg Prod.fst heq).symm⟩

theorem found_ok {item : Item} {version : Version} (h : db.found item version = .ok (db', reply)) :
    (∀ i ∈ db.items, ¬ i.clash item) ∧ (∀ v ∈ db.versions, ¬ v.clash version) ∧
      db' = ⟨db.items ++ [item], db.versions ++ [version]⟩ := by
  simp only [Db.found, bind_eq_ok, orFail_eq_ok, pure_eq_ok, insert_eq_some] at h
  obtain ⟨_, -, items, ⟨hitem, rfl⟩, versions, ⟨hfree, rfl⟩, heq⟩ := h
  exact ⟨hitem, hfree, (congrArg Prod.fst heq).symm⟩

/-- What every new version leaves of an item, and what it counts. -/
structure Advances (item item' : Item) : Prop where
  id : item'.id = item.id
  organizationId : item'.organizationId = item.organizationId
  category : item'.category = item.category
  number : item'.currentVersionNumber = item.currentVersionNumber + 1

theorem Item.supported_status (item : Item) :
    item.supported.currentStatus = item.currentStatus.repeated := by
  simp only [Item.supported, Item.clearStale]
  split_ifs <;> rfl

theorem Item.supported_counts (item : Item) : item.supported.supportCount = item.supportCount + 1 ∧
      item.supported.contradictionCount = item.contradictionCount := by
  simp only [Item.supported, Item.clearStale]
  split_ifs <;> exact ⟨rfl, rfl⟩

theorem Item.observed_advances (item : Item) (prior : Version) (value : ValuePayload)
    (now : Instant) : Advances item (item.observed prior value now) := by
  simp only [Item.observed, Item.supported, Item.contradicted, Item.advanced, Item.clearStale]
  split_ifs <;> exact ⟨rfl, rfl, rfl, rfl⟩

theorem Item.decided_advances (item : Item) (status : Status) (now : Instant) :
    Advances item (item.decided status now) := by
  cases status <;> exact ⟨rfl, rfl, rfl, rfl⟩

theorem observe_step {itemId : UUID}
    (hvalue : validatePayload env c.payload.category c.payload.valuePayload = .ok c.value)
    (h : db.observe c now itemId versionId = .ok (db', reply)) : MemoryStep env db db' := by
  unfold Db.observe at h
  split at h
  case h_1 hnone =>
    obtain ⟨hitem, hfree, rfl⟩ := found_ok h
    exact .found c _ _ now hvalue rfl rfl (fun i hi hid => hitem i hi (.inl hid)) hfree
  case h_2 item hfind =>
    obtain ⟨hmem, -, hcategory, -⟩ := find?_spec hfind
    obtain ⟨prior, hprior, h⟩ := bind_eq_ok.1 h
    obtain ⟨hfree, rfl⟩ := append_ok h
    rw [(item.observed_advances prior c.value now).id]
    refine .observed c item prior _ now ?_ hmem hprior rfl hfree
    rw [hcategory]
    exact hvalue

theorem item_ok {memoryId : UUID} {item : Item} (h : db.item organizationId memoryId = .ok item) :
    item ∈ db.items := by
  rw [Db.item, orFail_eq_ok] at h
  exact (find?_spec h).1

theorem recordCandidate_step {catalog : Catalog} {itemId : UUID} {payload : MemoryCandidateCreate}
    (h : db.recordCandidate env catalog organizationId payload now itemId versionId =
      .ok (db', reply)) : MemoryStep env db db' := by
  obtain ⟨c, hc, h⟩ := bind_eq_ok.1 h
  obtain ⟨existing, -, h⟩ := bind_eq_ok.1 h
  cases existing with
  | none => exact observe_step (validateCandidate_ok hc) h
  | some existing =>
    obtain ⟨item, -, h⟩ := bind_eq_ok.1 h
    obtain rfl := congrArg Prod.fst (pure_eq_ok.1 h)
    exact .replay

theorem decide_step {memoryId : UUID} {payload : MemoryDecisionRequest}
    (h : db.decide env organizationId memoryId payload now versionId = .ok (db', reply)) :
    MemoryStep env db db' := by
  obtain ⟨existing, -, h⟩ := bind_eq_ok.1 h
  cases existing with
  | none =>
    simp only [Db.settle, bind_eq_ok, ensure_eq_ok] at h
    obtain ⟨item, hitem, _, -, prior, hprior, status, hstatus, value, hvalue, _, -, h⟩ := h
    obtain ⟨hfree, rfl⟩ := append_ok h
    rw [(item.decided_advances status _).id]
    exact .decided payload item prior _ status value now (item_ok hitem) hprior hstatus hvalue rfl
      hfree
  | some existing =>
    obtain ⟨item, -, h⟩ := bind_eq_ok.1 h
    obtain rfl := congrArg Prod.fst (pure_eq_ok.1 h)
    exact .replay

theorem serve_step (h : serve env db call = .ok (db', reply)) : MemoryStep env db db' := by
  unfold serve at h
  split at h
  · exact recordCandidate_step h
  · exact decide_step h

/-! ## Chains that grow -/

variable {item item' : Item} {versions : List Version} {prior v : Version} {status : Status}

theorem Status.repeated_of_reusable (h : status.repeated.Reusable) : status.repeated = status := by
  cases status with
  | rejected | deprecated => exact absurd h (by decide)
  | observed | confirmed | corrected | ambiguous => rfl

theorem decisionStatus_reusable {action : Action} (h : decisionStatus item.currentStatus action =
    .ok status) : status.Reusable ↔ action = .confirm ∨ action = .correct := by
  revert h
  generalize item.currentStatus = current
  cases current <;> cases action <;> simp only [decisionStatus, reduceCtorEq, Except.ok.injEq,
    false_implies] <;> rintro rfl <;> decide

theorem latestDecision_of_isSome (h : v.decision?.isSome) :
    latestDecision (versions ++ [v]) = some v := by
  rw [latestDecision, reverse_append, reverse_singleton, singleton_append,
    List.find?_cons_of_pos (by exact h)]

theorem latestDecision_of_isNone (h : v.decision? = none) :
    latestDecision (versions ++ [v]) = latestDecision versions := by
  rw [latestDecision, reverse_append, reverse_singleton, singleton_append,
    List.find?_cons_of_neg (by simp [h]), latestDecision]

theorem sinceDecision_of_isSome (h : v.decision?.isSome) :
    sinceDecision (versions ++ [v]) = [] := by
  rw [sinceDecision, reverse_append, reverse_singleton, singleton_append, takeWhile_cons_of_neg]
  rw [isNone_iff_eq_none, ← not_isSome_iff_eq_none]
  exact not_not_intro h

theorem sinceDecision_of_isNone (h : v.decision? = none) :
    sinceDecision (versions ++ [v]) = v :: sinceDecision versions := by
  rw [sinceDecision, reverse_append, reverse_singleton, singleton_append,
    takeWhile_cons_of_pos (by simp [h]), sinceDecision]

theorem HoldsConfirmed.append_candidate {d : Version} (h : HoldsConfirmed versions d)
    (hcandidate : v.decision? = none) (hvalue : v.valuePayload = d.valuePayload) :
    HoldsConfirmed (versions ++ [v]) d where
  latest := (latestDecision_of_isNone hcandidate).trans h.latest
  confirms := h.confirms
  since := by
    rw [sinceDecision_of_isNone hcandidate]
    exact forall_mem_cons.2 ⟨hvalue, h.since⟩
  current := by
    rw [List.getLast?_concat]
    intro w hw
    rw [← some.inj hw]
    exact hvalue

theorem HoldsConfirmed.of_decision (hdecision : v.Confirms) :
    HoldsConfirmed (versions ++ [v]) v := by
  have hsome : v.decision?.isSome := by
    obtain ⟨payload, hpayload, -⟩ := hdecision
    exact isSome_of_mem hpayload
  refine ⟨latestDecision_of_isSome hsome, hdecision, ?_, ?_⟩
  · rw [sinceDecision_of_isSome hsome]
    exact fun w hw => absurd hw not_mem_nil
  · rw [List.getLast?_concat]
    intro w hw
    rw [← some.inj hw]

theorem Version.FollowsRequest.append {category : Category} {w : Version}
    (h : w.FollowsRequest env category versions) :
    w.FollowsRequest env category (versions ++ [v]) := by
  unfold FollowsRequest at h ⊢
  split at h
  case h_1 => exact h
  case h_2 =>
    split_ifs at h ⊢ with hcorrect
    · exact h
    · obtain ⟨p, hp, hrest⟩ := h
      exact ⟨p, mem_append_left _ hp, hrest⟩

/-- What a version has to meet to continue a chain. -/
structure Continues (env : Env) (item item' : Item) (versions : List Version) (prior v : Version) :
    Prop extends Advances item item' where
  versionNumber : v.versionNumber = item'.currentVersionNumber
  supersedes : v.supersedesVersionId = some prior.id
  counted : item'.supportCount + item'.contradictionCount + (decisions [v]).length =
    item.supportCount + item.contradictionCount + 1
  confirmed : item'.currentStatus.Reusable → ∃ d, HoldsConfirmed (versions ++ [v]) d
  requested : v.FollowsRequest env item.category (versions ++ [v])

theorem Chain.append (h : Chain env item versions) (hlast : versions.getLast? = some prior)
    (hv : Continues env item item' versions prior v) : Chain env item' (versions ++ [v]) where
  numbered := by
    rw [map_append, map_singleton, h.numbered, hv.versionNumber, hv.number,
      List.range'_1_concat, Nat.add_comm 1]
  first := by
    obtain ⟨w, rest, rfl⟩ : ∃ w rest, versions = w :: rest := by
      cases versions with
      | nil => cases hlast
      | cons w rest => exact ⟨w, rest, rfl⟩
    exact h.first
  linked := by
    rw [isChain_append]
    refine ⟨h.linked, isChain_singleton v, ?_⟩
    intro a ha b hb
    obtain rfl : prior = a := some.inj (hlast.symm.trans ha)
    obtain rfl : v = b := some.inj hb
    exact hv.supersedes
  counted := by
    have hbefore := h.counted
    have hadded := hv.counted
    rw [decisions, filter_append, length_append, ← decisions, ← decisions, hv.number]
    omega
  confirmed := hv.confirmed
  requested := by
    rw [hv.category]
    intro w hw
    rcases mem_append.1 hw with hw | hw
    · exact (h.requested w hw).append
    · rw [mem_singleton.1 hw]
      exact hv.requested

/-- A candidate counts as support or as a contradiction; where it supports a reusable item, the
item keeps its status and the candidate has its value. -/
theorem Continues.observed (hchain : Chain env item versions) (hlast : versions.getLast? = some prior)
    (c : Candidate) (now : Instant) (id : UUID)
    (hvalue : validatePayload env item.category c.payload.valuePayload = .ok c.value) :
    Continues env item (item.observed prior c.value now) versions prior
      (c.version (item.observed prior c.value now) (some prior) id) where
  toAdvances := item.observed_advances prior c.value now
  versionNumber := rfl
  supersedes := rfl
  counted := by
    show (item.observed prior c.value now).supportCount +
      (item.observed prior c.value now).contradictionCount + 0 = _
    by_cases hsame : prior.valuePayload = c.value
    · rw [Item.observed, if_pos hsame]
      obtain ⟨hsupport, hcontradiction⟩ := item.supported_counts
      show item.supported.supportCount + item.supported.contradictionCount + 0 = _
      omega
    · rw [Item.observed, if_neg hsame]
      show item.supportCount + (item.contradictionCount + 1) + 0 = _
      omega
  confirmed := by
    intro hreusable
    by_cases hsame : prior.valuePayload = c.value
    · rw [Item.observed, if_pos hsame] at hreusable
      have hrepeated : item.currentStatus.repeated.Reusable := by
        rw [← item.supported_status]
        exact hreusable
      rw [Status.repeated_of_reusable hrepeated] at hrepeated
      obtain ⟨d, hd⟩ := hchain.confirmed hrepeated
      refine ⟨d, hd.append_candidate rfl ?_⟩
      show c.value = d.valuePayload
      rw [← hsame, hd.current prior hlast]
    · rw [Item.observed, if_neg hsame] at hreusable
      rcases hreusable with hconfirmed | hcorrected
      · cases hconfirmed
      · cases hcorrected
  requested := hvalue

/-- A decision counts as one, and what it writes is confirmed where it confirms or corrects. -/
theorem Continues.decided (hlast : versions.getLast? = some prior)
    (hprior : prior.versionNumber = item.currentVersionNumber) {payload : MemoryDecisionRequest}
    {value : ValuePayload} (now : Instant) (id : UUID)
    (hstatus : decisionStatus item.currentStatus payload.action = .ok status)
    (hvalue : decidedValue env item.category prior payload = .ok value) :
    Continues env item (item.decided status now) versions prior
      ((item.decided status now).decisionVersion prior value payload id) where
  toAdvances := item.decided_advances status now
  versionNumber := rfl
  supersedes := rfl
  counted := by
    show _ = item.supportCount + item.contradictionCount + 1
    cases status <;> rfl
  confirmed := by
    intro hreusable
    have haction := (decisionStatus_reusable hstatus).1 hreusable
    exact ⟨_, HoldsConfirmed.of_decision ⟨payload, rfl, haction⟩⟩
  requested := by
    show if payload.action = .correct then _ else _
    rw [decidedValue] at hvalue
    split at hvalue
    case h_1 hcorrect =>
      rw [if_pos hcorrect]
      obtain ⟨corrected, hcorrected, hvalue⟩ := bind_eq_ok.1 hvalue
      exact ⟨corrected, orFail_eq_ok.1 hcorrected, hvalue⟩
    case h_2 hother =>
      rw [if_neg hother]
      obtain ⟨_, -, hvalue⟩ := bind_eq_ok.1 hvalue
      refine ⟨prior, mem_append_left _ (mem_of_getLast? hlast), ?_, ?_⟩
      · rw [hprior]
        exact (item.decided_advances status now).number.symm
      · exact (pure_eq_ok.1 hvalue).symm

/-! ## Every state -/

/-- What every call keeps. -/
structure Kept (env : Env) (db : Db) : Prop where
  ids : Unique Item.id db.items
  owned : ∀ v ∈ db.versions, ∃ item ∈ db.items, item.id = v.memoryId
  remembered : Remembered env db
  labelled : LabelledByDecision db

theorem currentVersion_eq_ok : db.currentVersion item = .ok v ↔
    db.versions.find? (fun w => w.organizationId = item.organizationId ∧ w.memoryId = item.id ∧
      w.versionNumber = item.currentVersionNumber) = some v ∧ v.status = item.currentStatus := by
  simp only [Db.currentVersion, bind_eq_ok, orFail_eq_ok, ensure_eq_ok, pure_eq_ok]
  constructor
  · rintro ⟨w, hfind, _, hstatus, rfl⟩
    exact ⟨hfind, hstatus⟩
  · rintro ⟨hfind, hstatus⟩
    exact ⟨v, hfind, (), hstatus, rfl⟩

theorem currentVersion_append {items : List Item} {w : Version}
    (h : db.currentVersion item = .ok v) :
    (Db.mk items (db.versions ++ [w])).currentVersion item = .ok v := by
  rw [currentVersion_eq_ok] at h ⊢
  refine ⟨?_, h.2⟩
  rw [List.find?_append, h.1]
  rfl

/-- The row of a version on top of an item. -/
structure Tops (item : Item) (v : Version) : Prop where
  organizationId : v.organizationId = item.organizationId
  memoryId : v.memoryId = item.id
  versionNumber : v.versionNumber = item.currentVersionNumber
  status : v.status = item.currentStatus

theorem currentVersion_top {items : List Item} (h : Tops item v)
    (hfree : ∀ w ∈ db.versions, ¬ w.clash v) :
    (Db.mk items (db.versions ++ [v])).currentVersion item = .ok v := by
  rw [currentVersion_eq_ok]
  refine ⟨?_, h.status⟩
  have hnone : db.versions.find? (fun w => w.organizationId = item.organizationId ∧
      w.memoryId = item.id ∧ w.versionNumber = item.currentVersionNumber) = none := by
    rw [List.find?_eq_none]
    intro w hw hfound
    obtain ⟨horganization, hmemory, hnumber⟩ := of_decide_eq_true hfound
    refine hfree w hw (.inr (.inl ⟨?_, ?_, ?_⟩))
    · rw [horganization, h.organizationId]
    · rw [hmemory, h.memoryId]
    · rw [hnumber, h.versionNumber]
  rw [List.find?_append, hnone, none_or, List.find?_cons_of_pos]
  exact decide_eq_true ⟨h.organizationId, h.memoryId, h.versionNumber⟩

theorem versionsOf_append_self {items : List Item} (h : v.memoryId = other.id) :
    (Db.mk items (db.versions ++ [v])).versionsOf other = db.versionsOf other ++ [v] := by
  rw [Db.versionsOf, filter_append, filter_cons_of_pos (by simpa using h)]
  rfl

theorem versionsOf_append_other {items : List Item} (h : v.memoryId ≠ other.id) :
    (Db.mk items (db.versions ++ [v])).versionsOf other = db.versionsOf other := by
  rw [Db.versionsOf, filter_append, filter_cons_of_neg (by simpa using h)]
  exact append_nil _

theorem versionsOf_congr (h : other.id = item.id) : db.versionsOf other = db.versionsOf item := by
  rw [Db.versionsOf, Db.versionsOf, h]

theorem LabelledByDecision.append {items : List Item} (h : LabelledByDecision db)
    (hlabel : v.Labelled) : LabelledByDecision ⟨items, db.versions ++ [v]⟩ := by
  intro w hw
  rcases mem_append.1 hw with hw | hw
  · exact h w hw
  · rw [mem_singleton.1 hw]
    exact hlabel

theorem Candidate.labelled (c : Candidate) (item : Item) (prior : Option Version) (id : UUID) :
    (c.version item prior id).Labelled where
  label := by
    constructor
    · intro hlabel
      cases hlabel
    · rintro ⟨payload, hpayload, -⟩
      cases hpayload
  reusable := by
    rintro ⟨payload, hpayload, -⟩
    cases hpayload

theorem Item.decisionVersion_labelled {payload : MemoryDecisionRequest} {value : ValuePayload}
    {id : UUID} (h : item.currentStatus.Reusable ↔
      payload.action = .confirm ∨ payload.action = .correct) :
    (item.decisionVersion prior value payload id).Labelled := by
  have hconfirms : (item.decisionVersion prior value payload id).Confirms ↔
      item.currentStatus.Reusable := by
    rw [h]
    constructor
    · rintro ⟨other, hother, haction⟩
      rw [some.inj hother]
      exact haction
    · intro haction
      exact ⟨payload, rfl, haction⟩
  refine ⟨?_, hconfirms.1⟩
  rw [hconfirms]
  show (if item.currentStatus.Reusable then ConfidenceLabel.humanConfirmed else .unassessed) = _ ↔ _
  by_cases hreusable : item.currentStatus.Reusable
  · simp [hreusable]
  · simp [hreusable]

theorem Kept.append (h : Kept env db) (hmem : item ∈ db.items)
    (hprior : db.currentVersion item = .ok prior)
    (hv : Continues env item item' (db.versionsOf item) prior v) (htop : Tops item' v)
    (hfree : ∀ w ∈ db.versions, ¬ w.clash v)
    (hlabel : v.Labelled) :
    Kept env ⟨update (·.id = item.id) (fun _ => item') db.items, db.versions ++ [v]⟩ := by
  have hself : ∀ j ∈ db.items, j.id = item.id → j = item := fun j hj hid =>
    h.ids.eq_of_key_eq hj hmem hid
  have hlast : (db.versionsOf item).getLast? = some prior := by
    obtain ⟨w, hw, hlast, -⟩ := h.remembered.current item hmem
    rw [hlast, Except.ok.inj (hw.symm.trans hprior)]
  have hmemory : v.memoryId = item.id := htop.memoryId.trans hv.id
  refine ⟨?_, ?_, ⟨?_, ?_⟩, h.labelled.append hlabel⟩
  · refine h.ids.update_of_selected fun j _ hj => ?_
    rw [hv.id, of_decide_eq_true hj]
  · intro w hw
    have hold : ∃ j ∈ db.items, j.id = w.memoryId := by
      rcases mem_append.1 hw with hw | hw
      · exact h.owned w hw
      · rw [mem_singleton.1 hw]
        exact ⟨item, hmem, hmemory.symm⟩
    obtain ⟨j, hj, hid⟩ := hold
    by_cases hsame : j.id = item.id
    · refine ⟨item', mem_update_of_selected hj (decide_eq_true hsame), ?_⟩
      rw [hv.id, ← hsame, hid]
    · exact ⟨j, mem_update_of_mem hj (decide_eq_false hsame), hid⟩
  · intro j' hj'
    obtain ⟨j, hj, rfl⟩ := mem_update.1 hj'
    by_cases hsame : j.id = item.id
    · rw [if_pos (decide_eq_true hsame), versionsOf_append_self htop.memoryId,
        versionsOf_congr hv.id]
      exact (h.remembered.chain item hmem).append hlast hv
    · rw [if_neg (by simpa using hsame),
        versionsOf_append_other (by rw [hmemory]; exact Ne.symm hsame)]
      exact h.remembered.chain j hj
  · intro j' hj'
    obtain ⟨j, hj, rfl⟩ := mem_update.1 hj'
    by_cases hsame : j.id = item.id
    · rw [if_pos (decide_eq_true hsame), versionsOf_append_self htop.memoryId]
      exact ⟨v, currentVersion_top htop hfree, List.getLast?_concat .., htop.status⟩
    · rw [if_neg (by simpa using hsame),
        versionsOf_append_other (by rw [hmemory]; exact Ne.symm hsame)]
      obtain ⟨w, hw, hrest⟩ := h.remembered.current j hj
      exact ⟨w, currentVersion_append hw, hrest⟩

/-- The first version of a new item is its whole chain. -/
theorem Kept.found (h : Kept env db) {id : UUID}
    (hvalue : validatePayload env c.payload.category c.payload.valuePayload = .ok c.value)
    (hfresh : ∀ i ∈ db.items, i.id ≠ id)
    (hfree : ∀ w ∈ db.versions, ¬ w.clash (c.version (c.item now id) none versionId)) :
    Kept env ⟨db.items ++ [c.item now id],
      db.versions ++ [c.version (c.item now id) none versionId]⟩ := by
  have hnone : db.versionsOf (c.item now id) = [] := by
    rw [Db.versionsOf, filter_eq_nil_iff]
    intro w hw hmemory
    obtain ⟨j, hj, hid⟩ := h.owned w hw
    exact hfresh j hj (hid.trans (of_decide_eq_true hmemory))
  have hother : ∀ j ∈ db.items, (c.version (c.item now id) none versionId).memoryId ≠ j.id :=
    fun j hj hid => hfresh j hj hid.symm
  refine ⟨h.ids.append hfresh, ?_, ⟨?_, ?_⟩, h.labelled.append (c.labelled _ _ _)⟩
  · intro w hw
    rcases mem_append.1 hw with hw | hw
    · obtain ⟨j, hj, hid⟩ := h.owned w hw
      exact ⟨j, mem_append_left _ hj, hid⟩
    · rw [mem_singleton.1 hw]
      exact ⟨c.item now id, mem_append_right _ (mem_singleton_self _), rfl⟩
  · intro j hj
    rcases mem_append.1 hj with hj | hj
    · rw [versionsOf_append_other (hother j hj)]
      exact h.remembered.chain j hj
    · rw [mem_singleton.1 hj, versionsOf_append_self rfl, hnone, nil_append]
      refine ⟨rfl, ?_, isChain_singleton _, rfl, fun hreusable => ?_, ?_⟩
      · intro w hw
        rw [← some.inj hw]
        rfl
      · rcases hreusable with hconfirmed | hcorrected
        · cases hconfirmed
        · cases hcorrected
      · intro w hw
        rw [mem_singleton.1 hw]
        exact hvalue
  · intro j hj
    rcases mem_append.1 hj with hj | hj
    · rw [versionsOf_append_other (hother j hj)]
      obtain ⟨w, hw, hrest⟩ := h.remembered.current j hj
      exact ⟨w, currentVersion_append hw, hrest⟩
    · rw [mem_singleton.1 hj, versionsOf_append_self rfl, hnone, nil_append]
      exact ⟨_, currentVersion_top ⟨rfl, rfl, rfl, rfl⟩ hfree, rfl, rfl⟩

theorem MemoryStep.kept (h : Kept env db) (hstep : MemoryStep env db db') : Kept env db' := by
  cases hstep with
  | replay => exact h
  | found c item version now hvalue hitem hversion hfresh hfree =>
    rw [hversion, hitem] at hfree ⊢
    exact h.found hvalue hfresh hfree
  | observed c item prior version now hvalue hmem hprior hversion hfree =>
    obtain ⟨w, hw, hlast, -⟩ := h.remembered.current item hmem
    obtain rfl : w = prior := Except.ok.inj (hw.symm.trans hprior)
    have hcontinues :=
      Continues.observed (h.remembered.chain item hmem) hlast c now version.id hvalue
    rw [← hversion] at hcontinues
    refine h.append hmem hprior hcontinues ?_ hfree ?_
    · rw [hversion]
      exact ⟨rfl, rfl, rfl, rfl⟩
    · rw [hversion]
      exact c.labelled _ _ _
  | decided payload item prior version status value now hmem hprior hstatus hvalue hversion hfree =>
    obtain ⟨w, hw, hlast, -⟩ := h.remembered.current item hmem
    obtain rfl : w = prior := Except.ok.inj (hw.symm.trans hprior)
    have hnumber := (find?_spec (currentVersion_eq_ok.1 hprior).1).2.2.2
    have hcontinues := Continues.decided hlast hnumber now version.id hstatus hvalue
    rw [← hversion] at hcontinues
    refine h.append hmem hprior hcontinues ?_ hfree ?_
    · rw [hversion]
      exact ⟨rfl, rfl, rfl, rfl⟩
    · rw [hversion]
      exact Item.decisionVersion_labelled (decisionStatus_reusable hstatus)

theorem Kept.empty (env : Env) : Kept env .empty where
  ids := Unique.nil
  owned := fun _ hv => absurd hv not_mem_nil
  remembered := ⟨fun _ hi => absurd hi not_mem_nil, fun _ hi => absurd hi not_mem_nil⟩
  labelled := fun _ hv => absurd hv not_mem_nil

theorem kept_run (env : Env) (calls : List Call) : Kept env ((service env).run .empty calls) :=
  Service.run_invariant (Kept.empty env) (fun h hok => (serve_step hok).kept h) calls

/-- In every state that candidates and decisions reach, each item has its complete chain of
versions, its current version has its status, its counters add up, a reusable item holds the value
of its latest decision, and the label is on the versions that a human confirmed or corrected. -/
theorem remembers_confirmed (env : Env) (calls : List Call) :
    Remembered env ((service env).run .empty calls) ∧
      LabelledByDecision ((service env).run .empty calls) :=
  ⟨(kept_run env calls).remembered, (kept_run env calls).labelled⟩

/-! ## A repeated observation -/

namespace Repeated

/-- ASCII only, no secrets, and one dictionary that is a terminology payload. -/
def ascii : Env where
  nfkc := id
  casefold := fun text => String.ofList (text.toList.map Char.toLower)
  isWord := fun c => c.isAlphanum || c = '_'
  isSpace := Char.isWhitespace
  secret := fun _ => false
  modelValidate := fun category payload =>
    if category = .terminology ∧ payload = "term" then
      some (.terminology ⟨"work order", .entity, "work_order", "maintenance", []⟩)
    else none

def catalog : Catalog where
  organizations := [⟨1, true, none⟩]
  sourceSchemas := [⟨2, 1⟩]
  mappingRecordResults := []
  mappingReviews := []
  mappingTemplates := []
  mappingTemplateVersions := []
  canonicalFieldDefinitions := []
  canonicalTypes := fun _ => []

def candidate (key : String) : MemoryCandidateCreate where
  idempotencyKey := key
  category := .terminology
  subjectKind := .term
  subject := "Work order"
  sourceSystemFamily := none
  canonicalDomain := none
  context := ⟨none, none, []⟩
  valuePayload := "term"
  provenance := ⟨some 2, none, none, none, [], []⟩
  sourceFingerprint := "0000000000000000000000000000000000000000000000000000000000000000"
  securityClassification := .tenantInternal
  validTo := none

/-- A candidate, its confirmation, and the same candidate under another key. -/
def calls : List Call :=
  [⟨1, catalog, 0, 10, 20, .recordCandidate (candidate "first")⟩,
    ⟨1, catalog, 1, 11, 21, .decide 10 ⟨"confirm", 1, .confirm, none, none, none⟩⟩,
    ⟨1, catalog, 2, 12, 22, .recordCandidate (candidate "second")⟩]

/-- The third version is confirmed and nobody confirmed it. -/
theorem not_labelled : ¬ LabelledByStatus ((service ascii).run .empty calls) := by
  decide +kernel

end Repeated

end Intel4Ops.OperationalMemory
