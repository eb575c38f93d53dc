import Intel4Ops.Maintenance.RepeatVisits
import Mathlib.Data.Set.Card

/-!
# What is paired

The four stages drop visits for different reasons. Here each stage is described by what it keeps,
and the pairs are those of the visits that follow one another in a group whose visits have different
times.
-/

namespace Intel4Ops.Maintenance

open Lib Lib.Decimal List

variable {Cell : Type} {env : Env Cell} {evidence : List (InterventionEvidence Cell)}

/-! ## Groups of visits -/

/-- All records of the visit have one signature. -/
def Unambiguous (evidence : List (InterventionEvidence Cell)) (x : InterventionEvidence Cell) :
    Prop :=
  ∀ y ∈ evidence, y.identity = x.identity → y.signature = x.signature

/-- The records of a group with a property. -/
def members (env : Env Cell) (evidence : List (InterventionEvidence Cell))
    (P : InterventionEvidence Cell → Prop) (g : RelatedGroup) : Set (InterventionEvidence Cell) :=
  {x | x ∈ evidence ∧ P x ∧ x.relatedGroup env = some g}

/-- Different visits have different times. -/
def Distinct (s : Set (InterventionEvidence Cell)) : Prop :=
  ∀ x ∈ s, ∀ y ∈ s, x.occurredAt = y.occurredAt → x.identity = y.identity

/-- The second visit is the next one after the first in their group, whose visits have different
times. -/
def Follows (env : Env Cell) (evidence : List (InterventionEvidence Cell))
    (P : InterventionEvidence Cell → Prop) (x y : InterventionEvidence Cell) : Prop :=
  ∃ g, Distinct (members env evidence P g) ∧
    Consecutive (·.occurredAt) (members env evidence P g) x y

variable {x y e : InterventionEvidence Cell} {g : RelatedGroup} {p : RepeatVisitPair Cell}

theorem occurredAt_of_signature (h : x.signature = y.signature) :
    x.occurredAt = y.occurredAt := congrArg Signature.occurredAt h

theorem relatedGroup_of_signature (h : x.signature = y.signature) :
    x.relatedGroup env = y.relatedGroup env := by
  rw [InterventionEvidence.relatedGroup, InterventionEvidence.relatedGroup]
  simp only [InterventionEvidence.signature, Signature.mk.injEq] at h
  rw [h.1, h.2.1, h.2.2.2]

/-! ## One record for each visit -/

theorem canonicalRepresentation_eq_some {representations : List (InterventionEvidence Cell)} :
    canonicalRepresentation env representations = some e ↔
      (∀ x ∈ representations, x.signature = e.signature) ∧
        representations.argmin (·.representationKey env) = some e := by
  rw [canonicalRepresentation]
  constructor
  · intro h
    split at h
    case isTrue hone =>
      have hmem : e ∈ representations := argmin_mem h
      exact ⟨fun x hx => (length_dedup_eq_one.1 hone).2 _ (mem_map_of_mem hx) _
        (mem_map_of_mem hmem), h⟩
    case isFalse => exact absurd h (Option.some_ne_none e).symm
  · rintro ⟨hall, h⟩
    have hmem : e ∈ representations := argmin_mem h
    have hone : (representations.map (·.signature)).dedup.length = 1 := by
      refine length_dedup_eq_one.2 ⟨ne_nil_of_mem (mem_map_of_mem hmem), ?_⟩
      intro s hs t ht
      obtain ⟨x, hx, rfl⟩ := mem_map.1 hs
      obtain ⟨y, hy, rfl⟩ := mem_map.1 ht
      exact (hall x hx).trans (hall y hy).symm
    rw [if_pos hone, h]

/-- The records that are kept: of each visit without conflict the first one of the least. -/
theorem mem_deduplicated : e ∈ deduplicated env evidence ↔ Unambiguous evidence e ∧
      (group (·.identity) evidence e.identity).argmin (·.representationKey env) = some e := by
  rw [deduplicated, mem_filterMap]
  constructor
  · rintro ⟨i, -, h⟩
    obtain ⟨hall, h⟩ := canonicalRepresentation_eq_some.1 h
    obtain ⟨-, rfl⟩ := mem_group.1 (argmin_mem h)
    exact ⟨fun y hy hyi => hall y (mem_group.2 ⟨hy, hyi⟩), h⟩
  · rintro ⟨hunambiguous, h⟩
    obtain ⟨hmem, -⟩ := mem_group.1 (argmin_mem h)
    refine ⟨e.identity, mem_firsts.2 (mem_map_of_mem hmem), ?_⟩
    refine canonicalRepresentation_eq_some.2 ⟨fun x hx => ?_, h⟩
    obtain ⟨hx, hxe⟩ := mem_group.1 hx
    exact hunambiguous x hx hxe

theorem mem_of_mem_deduplicated (h : e ∈ deduplicated env evidence) : e ∈ evidence :=
  (mem_group.1 (argmin_mem (mem_deduplicated.1 h).2)).1

theorem nodup_identity_deduplicated (env : Env Cell) (evidence : List (InterventionEvidence Cell)) :
    ((deduplicated env evidence).map (·.identity)).Nodup := by
  refine (map_filterMap_sublist (fun i e h => ?_) _).nodup (nodup_firsts _)
  exact (mem_group.1 (argmin_mem (canonicalRepresentation_eq_some.1 h).2)).2

variable (env) in
theorem exists_deduplicated (hx : x ∈ evidence) (h : Unambiguous evidence x) :
    ∃ e ∈ deduplicated env evidence, e.identity = x.identity ∧ e.signature = x.signature := by
  have hgroup : x ∈ group (·.identity) evidence x.identity := mem_group.2 ⟨hx, rfl⟩
  cases hmin : (group (·.identity) evidence x.identity).argmin (·.representationKey env) with
  | none => exact absurd (argmin_eq_none.1 hmin) (ne_nil_of_mem hgroup)
  | some e =>
    obtain ⟨he, hidentity⟩ := mem_group.1 (argmin_mem hmin)
    have hsignature := h e he hidentity
    refine ⟨e, mem_deduplicated.2 ⟨fun y hy hye => ?_, ?_⟩, hidentity, hsignature⟩
    · rw [hsignature, h y hy (hye.trans hidentity)]
    · rw [hidentity, hmin]

/-! ## The visits of a group -/

/-- The records that are kept of a group. -/
def groupOf (env : Env Cell) (evidence : List (InterventionEvidence Cell)) (g : RelatedGroup) :
    List (InterventionEvidence Cell) :=
  (deduplicated env evidence).filter fun e => e.relatedGroup env = some g

theorem mem_groupOf : e ∈ groupOf env evidence g ↔
      e ∈ deduplicated env evidence ∧ e ∈ members env evidence (Unambiguous evidence) g := by
  rw [groupOf, mem_filter, decide_eq_true_eq]
  constructor
  · rintro ⟨he, hgroup⟩
    exact ⟨he, mem_of_mem_deduplicated he, (mem_deduplicated.1 he).1, hgroup⟩
  · rintro ⟨he, hmember⟩
    exact ⟨he, hmember.2.2⟩

theorem exists_groupOf (hx : x ∈ members env evidence (Unambiguous evidence) g) :
    ∃ e ∈ groupOf env evidence g, e.identity = x.identity ∧ e.occurredAt = x.occurredAt := by
  obtain ⟨e, he, hidentity, hsignature⟩ := exists_deduplicated env hx.1 hx.2.1
  refine ⟨e, mem_filter.2 ⟨he, decide_eq_true ?_⟩, hidentity, occurredAt_of_signature hsignature⟩
  rw [relatedGroup_of_signature hsignature, hx.2.2]

theorem nodup_identity_groupOf (g : RelatedGroup) :
    ((groupOf env evidence g).map (·.identity)).Nodup :=
  ((filter_sublist (l := deduplicated env evidence)).map _).nodup
    (nodup_identity_deduplicated env evidence)

/-- No timestamp occurs twice in a group just when its visits have different times. -/
theorem nodup_occurredAt_iff : ((groupOf env evidence g).map (·.occurredAt)).Nodup ↔
      Distinct (members env evidence (Unambiguous evidence) g) := by
  constructor
  · intro h x hx y hy hxy
    obtain ⟨e, he, hex, htime⟩ := exists_groupOf hx
    obtain ⟨d, hd, hdy, htime'⟩ := exists_groupOf hy
    have hsame : e = d := inj_on_of_nodup_map h he hd (htime.trans (hxy.trans htime'.symm))
    rw [← hex, ← hdy, hsame]
  · intro h
    refine Nodup.map_on (fun x hx y hy hxy => ?_) (nodup_identity_groupOf g).of_map
    exact inj_on_of_nodup_map (nodup_identity_groupOf g) hx hy
      (h x (mem_groupOf.1 hx).2 y (mem_groupOf.1 hy).2 hxy)

theorem consecutive_groupOf : Consecutive (·.occurredAt) {c | c ∈ groupOf env evidence g} x y ↔
      x ∈ deduplicated env evidence ∧ y ∈ deduplicated env evidence ∧
        Consecutive (·.occurredAt) (members env evidence (Unambiguous evidence) g) x y := by
  constructor
  · intro h
    obtain ⟨hx, hxg⟩ := mem_groupOf.1 h.left
    obtain ⟨hy, hyg⟩ := mem_groupOf.1 h.right
    refine ⟨hx, hy, hxg, hyg, h.lt, fun c hc => ?_⟩
    obtain ⟨e, he, -, htime⟩ := exists_groupOf hc
    rw [← htime]
    exact h.between e he
  · rintro ⟨hx, hy, h⟩
    exact ⟨mem_groupOf.2 ⟨hx, h.left⟩, mem_groupOf.2 ⟨hy, h.right⟩, h.lt,
      fun c hc => h.between c (mem_groupOf.1 hc).2⟩

/-! ## The pairs of a group -/

def pairOf (prior subsequent : InterventionEvidence Cell) : RepeatVisitPair Cell where
  prior
  subsequent
  elapsedHours := context (totalSeconds (subsequent.occurredAt - prior.occurredAt) / 3600)

theorem totalSeconds_pos {microseconds : ℤ} (h : 0 < microseconds) :
    0 < totalSeconds microseconds := by
  have hcast : (0 : ℚ) < microseconds := by exact_mod_cast h
  exact Double.printed_pos (Double.nearest_pos (div_pos hcast (by norm_num)))

theorem repeatVisitPair_of_lt (h : x.occurredAt < y.occurredAt) :
    repeatVisitPair x y = some (pairOf x y) :=
  if_neg (not_le.2 (totalSeconds_pos (sub_pos.2 h)))

theorem elapsedHours_pos (h : x.occurredAt < y.occurredAt) : 0 < (pairOf x y).elapsedHours :=
  context_pos (div_pos (totalSeconds_pos (sub_pos.2 h)) (by norm_num))

variable {interventions : List (InterventionEvidence Cell)}

theorem perm_ordered (env : Env Cell) (interventions : List (InterventionEvidence Cell)) :
    (ordered env interventions).Perm interventions := perm_insertionSort _ _

theorem pairwise_ordered (h : (interventions.map (·.occurredAt)).Nodup) :
    (ordered env interventions).Pairwise fun a b => a.occurredAt < b.occurredAt := by
  refine pairwise_lt_insertionSort (fun a b hab => ?_) h
  rcases Prod.Lex.le_iff.1 hab with hlt | heq
  · exact hlt.le
  · exact heq.1.le

/-- A group whose visits have different times is paired as a chain. -/
theorem pairsOfGroup_eq (h : (interventions.map (·.occurredAt)).Nodup) :
    pairsOfGroup env interventions =
      (neighbours (ordered env interventions)).map fun pair => pairOf pair.1 pair.2 := by
  rw [pairsOfGroup, if_pos h, ← filterMap_eq_map]
  refine filterMap_congr fun pair hpair => ?_
  exact repeatVisitPair_of_lt ((mem_neighbours (pairwise_ordered h)).1 hpair).lt

theorem mem_pairsOfGroup :
    p ∈ pairsOfGroup env interventions ↔ (interventions.map (·.occurredAt)).Nodup ∧
      ∃ x y, Consecutive (·.occurredAt) {c | c ∈ interventions} x y ∧ p = pairOf x y := by
  by_cases h : (interventions.map (·.occurredAt)).Nodup
  · have hset : {c | c ∈ ordered env interventions} = {c | c ∈ interventions} :=
      Set.ext fun c => (perm_ordered env interventions).mem_iff
    rw [pairsOfGroup_eq h, and_iff_right h, mem_map, ← hset]
    constructor
    · rintro ⟨⟨x, y⟩, hxy, rfl⟩
      exact ⟨x, y, (mem_neighbours (pairwise_ordered h)).1 hxy, rfl⟩
    · rintro ⟨x, y, hxy, rfl⟩
      exact ⟨(x, y), (mem_neighbours (pairwise_ordered h)).2 hxy, rfl⟩
  · rw [pairsOfGroup, if_neg h]
    exact iff_of_false not_mem_nil fun hp => h hp.1

theorem prior_subperm (env : Env Cell) (interventions : List (InterventionEvidence Cell)) :
    ((pairsOfGroup env interventions).map (·.prior)).Subperm interventions := by
  by_cases h : (interventions.map (·.occurredAt)).Nodup
  · have hmap : (pairsOfGroup env interventions).map (·.prior) =
        (ordered env interventions).dropLast := by
      rw [pairsOfGroup_eq h, map_map, ← map_fst_neighbours]
      rfl
    rw [hmap]
    exact (dropLast_sublist _).subperm.trans (perm_ordered env interventions).subperm
  · rw [pairsOfGroup, if_neg h]
    exact nil_subperm

theorem subsequent_subperm (env : Env Cell) (interventions : List (InterventionEvidence Cell)) :
    ((pairsOfGroup env interventions).map (·.subsequent)).Subperm interventions := by
  by_cases h : (interventions.map (·.occurredAt)).Nodup
  · have hmap : (pairsOfGroup env interventions).map (·.subsequent) =
        (ordered env interventions).tail := by
      rw [pairsOfGroup_eq h, map_map, ← map_snd_neighbours]
      rfl
    rw [hmap]
    exact (tail_sublist _).subperm.trans (perm_ordered env interventions).subperm
  · rw [pairsOfGroup, if_neg h]
    exact nil_subperm

/-! ## All pairs -/

/-- The visits with a relation. -/
def relatedOnes (env : Env Cell) (evidence : List (InterventionEvidence Cell)) :
    List (InterventionEvidence Cell) :=
  (deduplicated env evidence).filter fun e => (e.relatedGroup env).isSome

theorem relatedPairs_eq (env : Env Cell) (evidence : List (InterventionEvidence Cell)) :
    relatedPairs env evidence =
      (firsts ((relatedOnes env evidence).map (·.relatedGroup env))).flatMap fun k =>
        pairsOfGroup env (group (·.relatedGroup env) (relatedOnes env evidence) k) := by
  rw [relatedPairs, relatedGroups, flatMap_map]
  rfl

theorem group_relatedOnes (env : Env Cell) (evidence : List (InterventionEvidence Cell))
    (g : RelatedGroup) :
    group (·.relatedGroup env) (relatedOnes env evidence) (some g) = groupOf env evidence g := by
  rw [group, relatedOnes, filter_filter, groupOf]
  refine filter_congr fun e _ => ?_
  by_cases h : e.relatedGroup env = some g
  · simp [h]
  · simp [h]

theorem perm_pairsOf (env : Env Cell) (evidence : List (InterventionEvidence Cell)) :
    (pairsOf env evidence).Perm (relatedPairs env evidence) := perm_insertionSort _ _

theorem mem_relatedPairs :
    p ∈ relatedPairs env evidence ↔ ∃ g, p ∈ pairsOfGroup env (groupOf env evidence g) := by
  rw [relatedPairs_eq, mem_flatMap]
  constructor
  · rintro ⟨k, hk, hp⟩
    obtain ⟨e, he, rfl⟩ := mem_map.1 (mem_firsts.1 hk)
    obtain ⟨g, hg⟩ := Option.isSome_iff_exists.1 (mem_filter.1 he).2
    rw [hg, group_relatedOnes] at hp
    exact ⟨g, hp⟩
  · rintro ⟨g, hp⟩
    refine ⟨some g, ?_, by rwa [group_relatedOnes]⟩
    obtain ⟨-, x, y, hxy, -⟩ := mem_pairsOfGroup.1 hp
    have hx : x ∈ groupOf env evidence g := hxy.left
    rw [← group_relatedOnes, mem_group] at hx
    exact mem_firsts.2 (mem_map.2 ⟨x, hx⟩)

/-- The pairs are those of the records kept whose visits follow one another. -/
theorem mem_pairsOf : p ∈ pairsOf env evidence ↔ ∃ x y, x ∈ deduplicated env evidence ∧
      y ∈ deduplicated env evidence ∧ Follows env evidence (Unambiguous evidence) x y ∧
        p = pairOf x y := by
  rw [(perm_pairsOf env evidence).mem_iff, mem_relatedPairs]
  constructor
  · rintro ⟨g, hp⟩
    obtain ⟨hnodup, x, y, hxy, rfl⟩ := mem_pairsOfGroup.1 hp
    obtain ⟨hx, hy, hconsecutive⟩ := consecutive_groupOf.1 hxy
    exact ⟨x, y, hx, hy, ⟨g, nodup_occurredAt_iff.1 hnodup, hconsecutive⟩, rfl⟩
  · rintro ⟨x, y, hx, hy, ⟨g, hdistinct, hconsecutive⟩, rfl⟩
    exact ⟨g, mem_pairsOfGroup.2 ⟨nodup_occurredAt_iff.2 hdistinct, x, y,
      consecutive_groupOf.2 ⟨hx, hy, hconsecutive⟩, rfl⟩⟩

theorem nodup_relatedPairs {read : RepeatVisitPair Cell → InterventionEvidence Cell}
    (hread : ∀ interventions, ((pairsOfGroup env interventions).map read).Subperm interventions) :
    ((relatedPairs env evidence).map fun p => (read p).identity).Nodup := by
  have hall : ∀ groups : List (List (InterventionEvidence Cell)),
      ((groups.flatMap (pairsOfGroup env)).map read).Subperm groups.flatten := by
    intro groups
    induction groups with
    | nil => exact List.Subperm.refl _
    | cons l groups ih =>
      rw [flatMap_cons, map_append, flatten_cons]
      exact (hread l).append ih
  have hgroups : (relatedGroups env (deduplicated env evidence)).flatten.Perm
      (relatedOnes env evidence) := by
    rw [relatedGroups, ← flatMap_def]
    exact flatMap_group_perm _ _
  obtain ⟨l, hperm, hsub⟩ := (hall _).trans hgroups.subperm
  have hnodup : ((relatedOnes env evidence).map (·.identity)).Nodup :=
    ((filter_sublist (l := deduplicated env evidence)).map _).nodup
      (nodup_identity_deduplicated env evidence)
  have hmap := (hperm.map (·.identity)).nodup_iff.1 ((hsub.map (·.identity)).nodup hnodup)
  rwa [map_map] at hmap

theorem nodup_prior (env : Env Cell) (evidence : List (InterventionEvidence Cell)) :
    ((pairsOf env evidence).map (·.prior.identity)).Nodup :=
  ((perm_pairsOf env evidence).map _).nodup_iff.2 (nodup_relatedPairs (prior_subperm env))

theorem nodup_subsequent (env : Env Cell) (evidence : List (InterventionEvidence Cell)) :
    ((pairsOf env evidence).map (·.subsequent.identity)).Nodup :=
  ((perm_pairsOf env evidence).map _).nodup_iff.2 (nodup_relatedPairs (subsequent_subperm env))

/-! ## The length of a chain -/

def pairsIn (env : Env Cell) (evidence : List (InterventionEvidence Cell)) (g : RelatedGroup) :
    List (RepeatVisitPair Cell) :=
  (pairsOf env evidence).filter fun p => p.prior.relatedGroup env = some g

theorem perm_pairsIn (env : Env Cell) (evidence : List (InterventionEvidence Cell))
    (g : RelatedGroup) :
    (pairsIn env evidence g).Perm (pairsOfGroup env (groupOf env evidence g)) := by
  have hkeys : ∀ k,
      ∀ p ∈ pairsOfGroup env (group (·.relatedGroup env) (relatedOnes env evidence) k),
        p.prior.relatedGroup env = k := by
    intro k p hp
    obtain ⟨-, x, y, hxy, rfl⟩ := mem_pairsOfGroup.1 hp
    exact (mem_group.1 hxy.left).2
  have hfilter := filter_flatMap_of_nodup hkeys
    (nodup_firsts ((relatedOnes env evidence).map (·.relatedGroup env))) (k := some g)
  rw [← relatedPairs_eq, group_relatedOnes] at hfilter
  refine ((perm_pairsOf env evidence).filter _).trans ?_
  rw [hfilter]
  split
  case isTrue => exact List.Perm.refl _
  case isFalse hnot =>
    have hempty : groupOf env evidence g = [] := by
      rw [← group_relatedOnes]
      by_contra hne
      exact hnot (mem_firsts.2 (group_ne_nil.1 hne))
    rw [hempty]
    exact List.Perm.refl _

theorem length_pairsIn (env : Env Cell) (evidence : List (InterventionEvidence Cell))
    (g : RelatedGroup) (h : Distinct (members env evidence (Unambiguous evidence) g)) :
    (pairsIn env evidence g).length = (groupOf env evidence g).length - 1 := by
  rw [(perm_pairsIn env evidence g).length_eq, pairsOfGroup_eq (nodup_occurredAt_iff.2 h),
    length_map, length_neighbours, (perm_ordered env _).length_eq]

def visits (env : Env Cell) (evidence : List (InterventionEvidence Cell))
    (P : InterventionEvidence Cell → Prop) (g : RelatedGroup) : Set Identity :=
  (·.identity) '' members env evidence P g

theorem ncard_visits (env : Env Cell) (evidence : List (InterventionEvidence Cell))
    (g : RelatedGroup) :
    (visits env evidence (Unambiguous evidence) g).ncard = (groupOf env evidence g).length := by
  have hset : visits env evidence (Unambiguous evidence) g =
      (((groupOf env evidence g).map (·.identity)).toFinset : Set Identity) := by
    ext i
    rw [Finset.mem_coe, mem_toFinset, mem_map]
    constructor
    · rintro ⟨x, hx, rfl⟩
      obtain ⟨e, he, hidentity, -⟩ := exists_groupOf hx
      exact ⟨e, he, hidentity⟩
    · rintro ⟨e, he, rfl⟩
      exact ⟨e, (mem_groupOf.1 he).2, rfl⟩
  rw [hset, Set.ncard_coe_finset, toFinset_card_of_nodup (nodup_identity_groupOf g), length_map]

end Intel4Ops.Maintenance
