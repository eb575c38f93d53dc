import Intel4Ops.Reviews.Model
import Intel4Ops.Lib.Chain

/-!
# The versions of a decision

Every review adds one row to the reviews and one to the versions, so the two tables go side by side,
and the versions of a decision count up from one, each of them superseding the one before it.
-/

namespace Intel4Ops.Reviews

open Lib List Table

/-! ## Order in the tables -/

def Supersedes (v w : SemanticDecisionVersion) : Prop :=
  w.versionNumber = v.versionNumber + 1 ∧ w.supersedesVersionId = some v.id

/-- The version is the one that the review has made. -/
structure Records (decisions : List SemanticInterpretationDecision) (r : SemanticReview)
    (v : SemanticDecisionVersion) : Prop where
  review : v.reviewId = r.id
  organization : v.organizationId = r.organizationId
  decision : v.decisionId = r.decisionId
  status : v.effectiveStatus = (effectiveStatusAndSourceForAction r.action).1
  outcome : ∀ d ∈ decisions, d.organizationId = r.organizationId → d.id = r.decisionId →
    v.effectiveConcept = effectiveConcept r.action d r.correctedConcept ∧
      v.effectiveConfidence = effectiveConfidence r.action d
  corrected : r.action = .correct → r.correctedConcept ≠ none

/-- The tables of reviews and versions are in order. -/
structure Ordered (db : Db) : Prop where
  keys : Unique (·.id) db.decisions
  first : ∀ organizationId decisionId, ∀ v ∈ (db.versionsOf organizationId decisionId).head?,
    v.versionNumber = 1 ∧ v.supersedesVersionId = none
  chain : ∀ organizationId decisionId, (db.versionsOf organizationId decisionId).IsChain Supersedes
  records : List.Forall₂ (Records db.decisions) db.reviews db.versions
  reviewIds : Unique (·.id) db.reviews

/-- A store without reviews. -/
structure Unreviewed (db : Db) : Prop where
  keys : Unique (·.id) db.decisions
  reviews : db.reviews = []
  versions : db.versions = []

theorem Unreviewed.ordered {db : Db} (h : Unreviewed db) : Ordered db where
  keys := h.keys
  first organizationId decisionId v hv := by
    rw [Db.versionsOf, h.versions] at hv
    cases hv
  chain organizationId decisionId := by
    rw [Db.versionsOf, h.versions]
    exact isChain_nil
  records := by
    rw [h.reviews, h.versions]
    exact .nil
  reviewIds := by
    rw [h.reviews]
    exact List.nodup_nil

section

variable {env : Env} {db db' : Db} {call : Call} {action : SemanticReviewAction}
  {decision : SemanticInterpretationDecision} {latest : Option SemanticDecisionVersion}
  {organizationId decisionId : UUID}

theorem Ordered.numbers (h : Ordered db) (organizationId decisionId : UUID) :
    (db.versionsOf organizationId decisionId).map (·.versionNumber) =
      List.range' 1 (db.versionsOf organizationId decisionId).length :=
  Chain.map_eq_range' (h.chain organizationId decisionId) (fun _ _ hlink => hlink.1)
    fun v hv => (h.first organizationId decisionId v hv).1

theorem Ordered.latestVersion (h : Ordered db) (organizationId decisionId : UUID) :
    db.latestVersion organizationId decisionId =
      (db.versionsOf organizationId decisionId).getLast? := by
  apply Chain.head?_insertionSort
  rw [← pairwise_map (f := fun v : SemanticDecisionVersion => v.versionNumber)
    (R := (· < ·)), h.numbers]
  exact pairwise_lt_range'

theorem Ordered.versionNumber_latest (h : Ordered db) (organizationId decisionId : UUID) :
    versionNumber (db.latestVersion organizationId decisionId) =
      (db.versionsOf organizationId decisionId).length := by
  have hnumbers := h.numbers organizationId decisionId
  rw [h.latestVersion]
  cases hlast : (db.versionsOf organizationId decisionId).getLast? with
  | none => rw [List.getLast?_eq_none_iff.1 hlast]; rfl
  | some v =>
    have hmap := congrArg List.getLast? hnumbers
    rw [List.getLast?_map, hlast, List.getLast?_range'] at hmap
    split at hmap
    · cases hmap
    · rename_i hne
      have hv : v.versionNumber = _ := Option.some.inj hmap
      show v.versionNumber = _
      omega

/-! ## What a review adds -/

theorem record_eq_ok {reply : SemanticReview × SemanticDecisionVersion} :
    db.record call action decision latest = .ok (db', reply) ↔
      (∀ r ∈ db.reviews, r.id ≠ call.reviewId) ∧
      (∀ v ∈ db.versions, ¬ v.Clash (call.version action decision latest)) ∧
      db' = { db with
        reviews := db.reviews ++ [call.review action]
        versions := db.versions ++ [call.version action decision latest] } ∧
      reply = (call.review action, call.version action decision latest) := by
  simp only [Db.record, bind_eq_ok, orFail_eq_ok, insert_eq_some, pure_eq_ok, Prod.mk.injEq]
  constructor
  · rintro ⟨reviews, ⟨hreview, rfl⟩, versions, ⟨hversion, rfl⟩, rfl, hreply⟩
    exact ⟨hreview, hversion, rfl, hreply.symm⟩
  · rintro ⟨hreview, hversion, rfl, rfl⟩
    exact ⟨_, ⟨hreview, rfl⟩, _, ⟨hversion, rfl⟩, rfl, rfl⟩

theorem decision_ok (h : db.decision organizationId decisionId = .ok decision) :
    decision ∈ db.decisions ∧ decision.organizationId = organizationId ∧
      decision.id = decisionId := by
  rw [Db.decision, orFail_eq_ok] at h
  obtain ⟨hmem, horg, hid⟩ := find?_spec h
  exact ⟨hmem, horg, hid⟩

theorem checkRequest_corrected (h : checkRequest env call = .ok action)
    (hcorrect : action = .correct) : call.correctedConcept ≠ none := by
  simp only [checkRequest, bind_eq_ok] at h
  obtain ⟨parsed, -, h⟩ := h
  split at h
  · cases h
  · rename_i hpayload
    simp only [bind_eq_ok, pure_eq_ok] at h
    obtain ⟨-, -, rfl⟩ := h
    intro hnone
    simp [validateActionPayload, hcorrect, hnone] at hpayload

theorem versionsOf_append
    (hversions : db'.versions = db.versions ++ [call.version action decision latest]) :
    db'.versionsOf organizationId decisionId = db.versionsOf organizationId decisionId ++
      if call.organizationId = organizationId ∧ call.decisionId = decisionId then
        [call.version action decision latest] else [] := by
  rw [Db.versionsOf, hversions, filter_append, ← Db.versionsOf]
  by_cases hkey : call.organizationId = organizationId ∧ call.decisionId = decisionId
  · rw [if_pos hkey, filter_cons_of_pos (by exact decide_eq_true hkey), filter_nil]
  · rw [if_neg hkey, filter_cons_of_neg (by exact fun h => hkey (of_decide_eq_true h)), filter_nil]

theorem Ordered.record (h : Ordered db) (haction : checkRequest env call = .ok action)
    (hdecision : db.decision call.organizationId call.decisionId = .ok decision)
    (hlatest : latest = db.latestVersion call.organizationId call.decisionId)
    {reply : SemanticReview × SemanticDecisionVersion}
    (hok : db.record call action decision latest = .ok (db', reply)) : Ordered db' := by
  obtain ⟨hreview, -, rfl, -⟩ := record_eq_ok.1 hok
  set db' : Db := { db with
    reviews := db.reviews ++ [call.review action]
    versions := db.versions ++ [call.version action decision latest] }
  have hof : ∀ o d, db'.versionsOf o d = db.versionsOf o d ++
      if call.organizationId = o ∧ call.decisionId = d then
        [call.version action decision latest] else [] :=
    fun o d => versionsOf_append rfl
  rw [h.latestVersion] at hlatest
  refine ⟨h.keys, fun o d v hv => ?_, fun o d => ?_, ?_, ?_⟩
  · rw [hof] at hv
    by_cases hkey : call.organizationId = o ∧ call.decisionId = d
    · rw [if_pos hkey] at hv
      cases hrows : db.versionsOf o d with
      | nil =>
        rw [hrows, nil_append, List.head?_cons, Option.mem_some_iff] at hv
        rw [hkey.1, hkey.2, hrows] at hlatest
        subst hv hlatest
        exact ⟨rfl, rfl⟩
      | cons w rows =>
        rw [hrows, cons_append, List.head?_cons] at hv
        exact h.first o d v (by rw [hrows]; exact hv)
    · rw [if_neg hkey, append_nil] at hv
      exact h.first o d v hv
  · rw [hof]
    by_cases hkey : call.organizationId = o ∧ call.decisionId = d
    · rw [if_pos hkey]
      refine (h.chain o d).append (isChain_singleton _) ?_
      intro v hv w hw
      rw [hkey.1, hkey.2, Option.mem_def.1 hv] at hlatest
      rw [List.head?_cons, Option.mem_some_iff] at hw
      subst hw hlatest
      exact ⟨rfl, rfl⟩
    · rw [if_neg hkey, append_nil]
      exact h.chain o d
  · refine rel_append h.records (.cons ?_ .nil)
    obtain ⟨hmem, horg, hid⟩ := decision_ok hdecision
    refine ⟨rfl, rfl, rfl, rfl, fun d hd _ hdid => ?_, checkRequest_corrected haction⟩
    have hsame : d = decision := inj_on_of_nodup_map h.keys hd hmem (hdid.trans hid.symm)
    rw [hsame]
    exact ⟨rfl, rfl⟩
  · show ((db.reviews ++ [call.review action]).map (·.id)).Nodup
    rw [map_append, List.nodup_append]
    refine ⟨h.reviewIds, nodup_singleton _, fun a ha b hb heq => ?_⟩
    obtain ⟨r, hr, rfl⟩ := mem_map.1 ha
    rw [map_singleton, mem_singleton] at hb
    exact hreview r hr (heq.trans hb)

end

end Intel4Ops.Reviews
