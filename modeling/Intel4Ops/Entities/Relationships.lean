import Mathlib.Data.Finset.Prod
import Mathlib.Data.Rat.Defs

/-!
# Contradictory relationships

A work order that belongs to one asset in one dataset and to another asset in the next is a
contradiction, even where both datasets agree that many work orders belong to one asset. The last
pass over the relationship candidates of a case marks such candidates as conflicted.

The pass collects the partners of an entity over all types, so belonging to an asset and to a
customer counts as a contradiction too.
-/

namespace Intel4Ops.Entities

open List

/-! ## Candidates -/

inductive RelationshipType
  | references | belongsTo | has | uses | generates | performedBy | locatedAt | associatedWith
  deriving DecidableEq

inductive Cardinality
  | oneToOne | oneToMany | manyToOne | manyToMany | unknown

inductive RelationshipStatus
  | autoAccepted | acceptedWithFlag | reviewRequired | conflicted
  deriving DecidableEq

/-- An entity by its type and its normalized key. -/
abbrev EntityKey := String × String

/-- Why a candidate is conflicted: the datasets disagree about the shape of its type pair, or an
entity belongs to more than one distinct entity of a type. -/
inductive ConflictReason
  | shapesDisagree (text : String)
  | belongsToSeveral (left : EntityKey) (rightEntityType : String) (partners : Finset EntityKey)

structure RelationshipConfidence where
  (leftEntityIdentityConfidence rightEntityIdentityConfidence structuralEvidenceConfidence
    relationshipConfidence : ℚ)

structure RelationshipCandidate where
  (leftEntityType leftNormalizedKey rightEntityType rightNormalizedKey : String)
  relationshipType : RelationshipType
  cardinality : Cardinality
  confidence : RelationshipConfidence
  status : RelationshipStatus
  evidenceSummary : List String
  conflictReason : Option ConflictReason

namespace RelationshipCandidate

def left (c : RelationshipCandidate) : EntityKey := (c.leftEntityType, c.leftNormalizedKey)

def right (c : RelationshipCandidate) : EntityKey := (c.rightEntityType, c.rightNormalizedKey)

end RelationshipCandidate

/-! ## The pass -/

/-- The entities that an entity belongs to, of whatever type. -/
def fanOut (candidates : List RelationshipCandidate) (left : EntityKey) : Finset EntityKey :=
  ((candidates.filter fun c => c.relationshipType = .belongsTo ∧ c.left = left).map
    (·.right)).toFinset

def RelationshipCandidate.conflicted (candidates : List RelationshipCandidate)
    (c : RelationshipCandidate) : RelationshipCandidate :=
  { c with
    status := .conflicted
    conflictReason := some (.belongsToSeveral c.left c.rightEntityType (fanOut candidates c.left)) }

/-- `_flag_contradictory_many_to_one_pairs` -/
def flagContradictoryManyToOnePairs (candidates : List RelationshipCandidate) :
    List RelationshipCandidate :=
  let contradictoryLeftKeys := (candidates.filter (·.relationshipType = .belongsTo)).map (·.left)
    |>.filter fun left => 1 < (fanOut candidates left).card
  if contradictoryLeftKeys = [] then candidates
  else
    candidates.map fun c =>
      if c.relationshipType = .belongsTo ∧ c.left ∈ contradictoryLeftKeys then
        c.conflicted candidates
      else c

/-! ## What is flagged -/

variable {candidates : List RelationshipCandidate} {c : RelationshipCandidate}

theorem mem_fanOut {left right : EntityKey} : right ∈ fanOut candidates left ↔
      ∃ d ∈ candidates, d.relationshipType = .belongsTo ∧ d.left = left ∧ d.right = right := by
  rw [fanOut, mem_toFinset, mem_map]
  constructor
  · rintro ⟨d, hd, hright⟩
    obtain ⟨hd, h⟩ := mem_filter.1 hd
    obtain ⟨hbelongs, hleft⟩ := of_decide_eq_true h
    exact ⟨d, hd, hbelongs, hleft, hright⟩
  · rintro ⟨d, hd, hbelongs, hleft, hright⟩
    exact ⟨d, mem_filter.2 ⟨hd, decide_eq_true ⟨hbelongs, hleft⟩⟩, hright⟩

theorem flagContradictory_eq (candidates : List RelationshipCandidate) :
    flagContradictoryManyToOnePairs candidates = candidates.map fun c =>
      if c.relationshipType = .belongsTo ∧ 1 < (fanOut candidates c.left).card then
        c.conflicted candidates
      else c := by
  have hkeys : ∀ c ∈ candidates, c.relationshipType = .belongsTo →
      (c.left ∈ ((candidates.filter (·.relationshipType = .belongsTo)).map (·.left)
        |>.filter fun left => 1 < (fanOut candidates left).card) ↔
          1 < (fanOut candidates c.left).card) := by
    intro c hc hbelongs
    rw [mem_filter, decide_eq_true_eq, and_iff_right_iff_imp]
    exact fun _ => mem_map.2 ⟨c, mem_filter.2 ⟨hc, decide_eq_true hbelongs⟩, rfl⟩
  rw [flagContradictoryManyToOnePairs]
  split
  case isTrue hnone =>
    -- no entity has two partners, and nothing is flagged
    conv_lhs => rw [← map_id candidates]
    refine map_congr_left fun c hc => ?_
    rw [if_neg fun h => not_mem_nil (hnone ▸ (hkeys c hc h.1).2 h.2)]
    rfl
  case isFalse =>
    refine map_congr_left fun c hc => ?_
    exact if_congr (and_congr_right (hkeys c hc)) rfl rfl

/-- The candidate's left entity belongs to two entities of the candidate's own right type. -/
def BelongsToSeveral (candidates : List RelationshipCandidate) (c : RelationshipCandidate) : Prop :=
  c.relationshipType = .belongsTo ∧ ∃ d ∈ candidates, ∃ e ∈ candidates,
    (d.relationshipType = .belongsTo ∧ d.left = c.left ∧ d.rightEntityType = c.rightEntityType) ∧
      (e.relationshipType = .belongsTo ∧ e.left = c.left ∧ e.rightEntityType = c.rightEntityType) ∧
        d.rightNormalizedKey ≠ e.rightNormalizedKey

theorem one_lt_card_of_belongsToSeveral (h : BelongsToSeveral candidates c) :
    1 < (fanOut candidates c.left).card := by
  obtain ⟨-, d, hd, e, he, ⟨hdb, hdl, -⟩, ⟨heb, hel, -⟩, hne⟩ := h
  exact Finset.one_lt_card.2 ⟨d.right, mem_fanOut.2 ⟨d, hd, hdb, hdl, rfl⟩, e.right,
    mem_fanOut.2 ⟨e, he, heb, hel, rfl⟩, fun heq => hne (congrArg Prod.snd heq)⟩

/-- An entity with two partners belongs to two entities of the candidate's right type, or to an
entity of another type. -/
theorem belongsToSeveral_or_other (hc : c ∈ candidates) (hbelongs : c.relationshipType = .belongsTo)
    (hcard : 1 < (fanOut candidates c.left).card) :
    BelongsToSeveral candidates c ∨ ∃ d ∈ candidates, d.relationshipType = .belongsTo ∧
      d.left = c.left ∧ d.rightEntityType ≠ c.rightEntityType := by
  have hown : c.right ∈ fanOut candidates c.left := mem_fanOut.2 ⟨c, hc, hbelongs, rfl, rfl⟩
  obtain ⟨right, hright, hne⟩ := Finset.exists_mem_ne hcard c.right
  obtain ⟨d, hd, hdb, hdl, rfl⟩ := mem_fanOut.1 hright
  by_cases htype : d.rightEntityType = c.rightEntityType
  · refine .inl ⟨hbelongs, d, hd, c, hc, ⟨hdb, hdl, htype⟩, ⟨hbelongs, rfl, rfl⟩, ?_⟩
    exact fun hkey => hne (Prod.ext htype hkey)
  · exact .inr ⟨d, hd, hdb, hdl, htype⟩

/-! ## Exactness -/

open Classical in
/-- Just the candidates whose left entity belongs to several entities of their right type are
marked as conflicted. All others are returned as they are, and in order. -/
def FlagsExactly (candidates : List RelationshipCandidate) : Prop :=
  flagContradictoryManyToOnePairs candidates =
    candidates.map fun c =>
      if BelongsToSeveral candidates c then c.conflicted candidates else c

/-- An entity that belongs to entities of two types belongs to several of each of them. (A candidate
that already reads like a conflicted one does not show the difference.) -/
def OneTypeOfPartner (candidates : List RelationshipCandidate) : Prop :=
  ∀ c ∈ candidates, c.relationshipType = .belongsTo →
    (∃ d ∈ candidates, d.relationshipType = .belongsTo ∧ d.left = c.left ∧
      d.rightEntityType ≠ c.rightEntityType) →
        (∃ d ∈ candidates, d.relationshipType = .belongsTo ∧ d.left = c.left ∧
          d.rightEntityType = c.rightEntityType ∧ d.rightNormalizedKey ≠ c.rightNormalizedKey) ∨
            c.conflicted candidates = c

/-- Flagging is exact just where no entity has single partners of two types. -/
theorem flagsExactly_iff (candidates : List RelationshipCandidate) :
    FlagsExactly candidates ↔ OneTypeOfPartner candidates := by
  rw [FlagsExactly, flagContradictory_eq, map_inj_left]
  constructor
  · intro h c hc hbelongs hother
    obtain ⟨d, hd, hdb, hdl, hdt⟩ := hother
    have hcard : 1 < (fanOut candidates c.left).card :=
      Finset.one_lt_card.2 ⟨d.right, mem_fanOut.2 ⟨d, hd, hdb, hdl, rfl⟩, c.right,
        mem_fanOut.2 ⟨c, hc, hbelongs, rfl, rfl⟩, fun heq => hdt (congrArg Prod.fst heq)⟩
    have heq := h c hc
    rw [if_pos ⟨hbelongs, hcard⟩] at heq
    by_cases hseveral : BelongsToSeveral candidates c
    · -- one of the two entities of the own type is not the candidate's
      obtain ⟨-, d, hd, e, he, ⟨hdb, hdl, hdt⟩, ⟨heb, hel, het⟩, hne⟩ := hseveral
      by_cases hdk : d.rightNormalizedKey = c.rightNormalizedKey
      · exact .inl ⟨e, he, heb, hel, het, fun hek => hne (hdk.trans hek.symm)⟩
      · exact .inl ⟨d, hd, hdb, hdl, hdt, hdk⟩
    · rw [if_neg hseveral] at heq
      exact .inr heq
  · intro h c hc
    by_cases hseveral : BelongsToSeveral candidates c
    · rw [if_pos hseveral, if_pos ⟨hseveral.1, one_lt_card_of_belongsToSeveral hseveral⟩]
    · rw [if_neg hseveral]
      split
      case isFalse => rfl
      case isTrue hflagged =>
        obtain hseveral' | hother := belongsToSeveral_or_other hc hflagged.1 hflagged.2
        · exact absurd hseveral' hseveral
        · obtain ⟨d, hd, hdb, hdl, hdt, hdk⟩ | heq := h c hc hflagged.1 hother
          · exact absurd ⟨hflagged.1, d, hd, c, hc, ⟨hdb, hdl, hdt⟩, ⟨hflagged.1, rfl, rfl⟩, hdk⟩
              hseveral
          · exact heq

/-! ## A work order of one asset and one customer -/

def workOrderBelonging (rightType rightKey : String) : RelationshipCandidate :=
  { leftEntityType := "WORK_ORDER"
    leftNormalizedKey := "wo-1"
    rightEntityType := rightType
    rightNormalizedKey := rightKey
    relationshipType := .belongsTo
    cardinality := .manyToOne
    confidence :=
      { leftEntityIdentityConfidence := 65 / 100
        rightEntityIdentityConfidence := 65 / 100
        structuralEvidenceConfidence := 4 / 10
        relationshipConfidence := 4 / 10 }
    status := .acceptedWithFlag
    evidenceSummary := []
    conflictReason := none }

/-- The work order of one asset and one customer is marked as if it had two assets. -/
theorem assetAndCustomer_not_exact :
    ¬ FlagsExactly [workOrderBelonging "ASSET" "a-1", workOrderBelonging "CUSTOMER" "c-1"] := by
  intro h
  rw [FlagsExactly, flagContradictory_eq, map_inj_left] at h
  have hasset := h _ mem_cons_self
  have hcard : 1 < (fanOut [workOrderBelonging "ASSET" "a-1", workOrderBelonging "CUSTOMER" "c-1"]
      (workOrderBelonging "ASSET" "a-1").left).card := by decide
  have hnot : ¬ BelongsToSeveral
      [workOrderBelonging "ASSET" "a-1", workOrderBelonging "CUSTOMER" "c-1"]
      (workOrderBelonging "ASSET" "a-1") := by
    rintro ⟨-, d, hd, e, he, ⟨-, -, hdt⟩, ⟨-, -, het⟩, hne⟩
    simp only [mem_cons, not_mem_nil, or_false] at hd he
    obtain rfl | rfl := hd
    · obtain rfl | rfl := he
      · exact hne rfl
      · exact absurd het (by decide)
    · exact absurd hdt (by decide)
  rw [if_pos ⟨rfl, hcard⟩, if_neg hnot] at hasset
  exact absurd (congrArg RelationshipCandidate.status hasset) (by decide)

end Intel4Ops.Entities
