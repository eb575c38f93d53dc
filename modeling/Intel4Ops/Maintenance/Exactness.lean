import Intel4Ops.Maintenance.Pairing

/-!
# Exact pairs

The records of a visit are grouped by subject and key, so a key that is recorded for two subjects is
no conflict. The pairs are exact just when no such key matters, when the records that tie for a
visit are equal, and when no two pairs tie in the last sorting.
-/

namespace Intel4Ops.Maintenance

open Lib List
open Revenue (Row)

variable {Cell : Type} {env : Env Cell} {evidence evidence' : List (InterventionEvidence Cell)}

/-! ## Conflicts -/

/-- All records with the key of the visit have one signature, those of other subjects as well. -/
def Undisputed (evidence : List (InterventionEvidence Cell)) (x : InterventionEvidence Cell) :
    Prop :=
  ∀ y ∈ evidence, y.interventionKey = x.interventionKey → y.signature = x.signature

variable {x y : InterventionEvidence Cell} {g : RelatedGroup}
  {rest : List (InterventionEvidence Cell)} {p q : RepeatVisitPair Cell}

theorem Undisputed.unambiguous (h : Undisputed evidence x) : Unambiguous evidence x :=
  fun y hy hyx => h y hy (congrArg Identity.interventionKey hyx)

/-- Nothing is to be paired: two visits have the same time, or there is at most one. -/
def Idle (s : Set (InterventionEvidence Cell)) : Prop :=
  ¬ Distinct s ∨ ∀ x ∈ s, ∀ y ∈ s, x.identity = y.identity

theorem not_consecutive_of_idle {P : InterventionEvidence Cell → Prop}
    (hP : ∀ x, P x → Unambiguous evidence x) (h : Idle (members env evidence P g))
    (hdistinct : Distinct (members env evidence P g)) (x y : InterventionEvidence Cell) :
    ¬ Consecutive (·.occurredAt) (members env evidence P g) x y := by
  intro hxy
  have hsame := h.resolve_left (not_not.2 hdistinct) y hxy.right x hxy.left
  have htime := occurredAt_of_signature (hP x hxy.left.2.1 y hxy.right.1 hsame)
  exact absurd htime hxy.lt.ne'

theorem exists_consecutive {P : InterventionEvidence Cell → Prop}
    (h : ¬ Idle (members env evidence P g)) (hx : x ∈ members env evidence P g) :
    ∃ y, Consecutive (·.occurredAt) (members env evidence P g) x y ∨
      Consecutive (·.occurredAt) (members env evidence P g) y x := by
  obtain ⟨hdistinct, hmany⟩ := not_or.1 h
  have hfinite : (members env evidence P g).Finite := evidence.finite_toSet.subset fun y hy => hy.1
  have hother : ∃ y ∈ members env evidence P g, y.identity ≠ x.identity := by
    by_contra hnone
    push Not at hnone
    exact hmany fun y hy z hz => (hnone y hy).trans (hnone z hz).symm
  obtain ⟨y, hy, hne⟩ := hother
  have htime : y.occurredAt ≠ x.occurredAt := fun heq => hne (not_not.1 hdistinct y hy x hx heq)
  rcases lt_or_gt_of_ne htime with hlt | hgt
  · obtain ⟨z, hz⟩ := exists_previous (f := (·.occurredAt)) hfinite hy hx hlt
    exact ⟨z, .inr hz⟩
  · obtain ⟨z, hz⟩ := exists_next (f := (·.occurredAt)) hfinite hx hy hgt
    exact ⟨z, .inl hz⟩

/-- A key of the group is recorded for another subject. -/
def HasDispute (env : Env Cell) (evidence : List (InterventionEvidence Cell)) (g : RelatedGroup) :
    Prop :=
  ∃ x ∈ members env evidence (Unambiguous evidence) g, ¬ Undisputed evidence x

theorem members_undisputed (h : ¬ HasDispute env evidence g) :
    members env evidence (Undisputed evidence) g =
      members env evidence (Unambiguous evidence) g := by
  ext x
  constructor
  · rintro ⟨hx, hundisputed, hg⟩
    exact ⟨hx, hundisputed.unambiguous, hg⟩
  · intro hx
    exact ⟨hx.1, by_contra fun hdispute => h ⟨x, hx, hdispute⟩, hx.2.2⟩

/-! ## Records -/

/-- The visit is in a pair. -/
def TakesPart (env : Env Cell) (evidence : List (InterventionEvidence Cell))
    (x : InterventionEvidence Cell) : Prop :=
  ∃ y, Follows env evidence (Unambiguous evidence) x y ∨
    Follows env evidence (Unambiguous evidence) y x

/-- A record that no other one of its visit precedes. -/
def Least (env : Env Cell) (evidence : List (InterventionEvidence Cell))
    (x : InterventionEvidence Cell) : Prop :=
  x ∈ evidence ∧ ∀ y ∈ evidence, y.identity = x.identity →
    x.representationKey env ≤ y.representationKey env

theorem least_of_mem_deduplicated (h : x ∈ deduplicated env evidence) : Least env evidence x :=
  ⟨mem_of_mem_deduplicated h, fun _ hy hyx =>
    le_of_mem_argmin (mem_group.2 ⟨hy, hyx⟩) (mem_deduplicated.1 h).2⟩

theorem mem_deduplicated_of_head (h : Unambiguous (x :: rest) x)
    (hleast : Least env (x :: rest) x) : x ∈ deduplicated env (x :: rest) := by
  refine mem_deduplicated.2 ⟨h, ?_⟩
  have hgroup : group (·.identity) (x :: rest) x.identity =
      x :: group (·.identity) rest x.identity := filter_cons_of_pos (decide_eq_true rfl)
  rw [hgroup, argmin_cons]
  cases hmin : (group (·.identity) rest x.identity).argmin (·.representationKey env) with
  | none => rfl
  | some y =>
    obtain ⟨hy, hyx⟩ := mem_group.1 (argmin_mem hmin)
    exact if_neg (not_lt.2 (hleast.2 y (mem_cons_of_mem _ hy) hyx))

/-! ## What the code pairs -/

theorem follows_of_mem (h : p ∈ pairsOf env evidence) :
    Follows env evidence (Unambiguous evidence) p.prior p.subsequent := by
  obtain ⟨x, y, -, -, hfollows, rfl⟩ := mem_pairsOf.1 h
  exact hfollows

theorem mem_deduplicated_of_mem (h : p ∈ pairsOf env evidence) :
    p.prior ∈ deduplicated env evidence ∧ p.subsequent ∈ deduplicated env evidence := by
  obtain ⟨x, y, hx, hy, -, rfl⟩ := mem_pairsOf.1 h
  exact ⟨hx, hy⟩

theorem exists_pair (h : Follows env evidence (Unambiguous evidence) x y) :
    ∃ p ∈ pairsOf env evidence, p.prior.identity = x.identity ∧
      p.subsequent.identity = y.identity := by
  obtain ⟨g, hdistinct, hxy⟩ := h
  obtain ⟨d, hd, hdx, hdtime⟩ := exists_groupOf hxy.left
  obtain ⟨e, he, hey, hetime⟩ := exists_groupOf hxy.right
  obtain ⟨hd, hdg⟩ := mem_groupOf.1 hd
  obtain ⟨he, heg⟩ := mem_groupOf.1 he
  have hde : Consecutive (·.occurredAt) (members env evidence (Unambiguous evidence) g) d e := by
    refine ⟨hdg, heg, ?_, ?_⟩
    · rw [hdtime, hetime]
      exact hxy.lt
    · rw [hdtime, hetime]
      exact hxy.between
  exact ⟨pairOf d e, mem_pairsOf.2 ⟨d, e, hd, he, ⟨g, hdistinct, hde⟩, rfl⟩, hdx, hey⟩

theorem eq_of_prior (hp : p ∈ pairsOf env evidence) (hq : q ∈ pairsOf env evidence)
    (h : p.prior.identity = q.prior.identity) : p = q :=
  inj_on_of_nodup_map (nodup_prior env evidence) hp hq h

/-! ## Other orders -/

/-- The same datasets, with them and their rows in another order. -/
def Reordered (datasets datasets' : List (InterventionDatasetFields Cell)) : Prop :=
  ∃ shuffled, List.Forall₂ (fun ds ds' => ∃ rows, ds.dataframe.rows.Perm rows ∧
    ds' = ds.withRows rows) datasets shuffled ∧ shuffled.Perm datasets'

variable {datasets datasets' : List (InterventionDatasetFields Cell)}
  {eligibleSubjectKeys : Finset String}

theorem Reordered.collected_perm (h : Reordered datasets datasets') :
    (collected env datasets eligibleSubjectKeys).Perm
      (collected env datasets' eligibleSubjectKeys) := by
  obtain ⟨shuffled, hrows, hperm⟩ := h
  refine List.Perm.trans (flatMap_perm ?_ hrows) (hperm.flatMap_right _)
  rintro ds _ ⟨rows, hrows, rfl⟩
  exact ite_perm (hrows.filterMap (interventionEvidence env eligibleSubjectKeys ds))

theorem exists_reordered {e : InterventionEvidence Cell}
    (h : e ∈ collected env datasets eligibleSubjectKeys) :
    ∃ datasets' rest, Reordered datasets datasets' ∧
      collected env datasets' eligibleSubjectKeys = e :: rest := by
  obtain ⟨ds, hds, he⟩ := mem_flatMap.1 h
  by_cases husable : ds.usable = true
  · rw [if_pos husable, mem_filterMap] at he
    obtain ⟨row, hrow, he⟩ := he
    obtain ⟨before, after, rfl⟩ := append_of_mem hds
    obtain ⟨above, below, hrows⟩ := append_of_mem hrow
    have hself : ∀ l : List (InterventionDatasetFields Cell),
        List.Forall₂ (fun ds ds' => ∃ rows, ds.dataframe.rows.Perm rows ∧ ds' = ds.withRows rows)
          l l := fun l => forall₂_same.2 fun ds _ => ⟨_, List.Perm.refl _, rfl⟩
    have hfirst : ds.dataframe.rows.Perm (row :: (above ++ below)) := by
      rw [hrows]
      exact perm_middle
    have hhead : interventionEvidence env eligibleSubjectKeys
        (ds.withRows (row :: (above ++ below))) row = some e := he
    have husable' : (ds.withRows (row :: (above ++ below))).usable = true := husable
    have hcollected : ∃ rest, collected env
        (ds.withRows (row :: (above ++ below)) :: (before ++ after)) eligibleSubjectKeys =
          e :: rest := by
      rw [collected, flatMap_cons, if_pos husable']
      change ∃ rest, List.filterMap _ (row :: (above ++ below)) ++ _ = e :: rest
      rw [filterMap_cons, hhead]
      exact ⟨_, rfl⟩
    obtain ⟨rest, hcollected⟩ := hcollected
    refine ⟨ds.withRows (row :: (above ++ below)) :: (before ++ after), rest,
      ⟨before ++ ds.withRows (row :: (above ++ below)) :: after, ?_, perm_middle⟩, hcollected⟩
    exact rel_append (hself before) (.cons ⟨_, hfirst, rfl⟩ (hself after))
  · rw [if_neg husable] at he
    exact absurd he not_mem_nil

section

variable (h : evidence.Perm evidence')
include h

theorem unambiguous_perm : Unambiguous evidence = Unambiguous evidence' := by
  funext x
  simp only [Unambiguous, h.mem_iff]

theorem members_perm (P : InterventionEvidence Cell → Prop) :
    members env evidence P = members env evidence' P := by
  funext g
  ext x
  simp only [members, Set.mem_ofPred_eq, h.mem_iff]

theorem follows_perm : Follows env evidence (Unambiguous evidence) =
      Follows env evidence' (Unambiguous evidence') := by
  funext x y
  simp only [Follows, unambiguous_perm h, members_perm h]

theorem least_perm : Least env evidence = Least env evidence' := by
  funext x
  simp only [Least, h.mem_iff]

end

/-! ## Groups in another order -/

theorem exists_relatedPairs_append (h : Unambiguous (x :: rest) x)
    (hg : x.relatedGroup env = some g) :
    ∃ others, relatedPairs env (x :: rest) =
      pairsOfGroup env (groupOf env (x :: rest) g) ++ others := by
  obtain ⟨e, he, hidentity, hsignature⟩ := exists_deduplicated env mem_cons_self h
  have hcanonical : canonicalRepresentation env (group (·.identity) (x :: rest) x.identity) =
      some e := by
    obtain ⟨hunambiguous, hmin⟩ := mem_deduplicated.1 he
    rw [← hidentity]
    refine canonicalRepresentation_eq_some.2 ⟨fun y hy => ?_, hmin⟩
    obtain ⟨hy, hye⟩ := mem_group.1 hy
    exact hunambiguous y hy hye
  have hhead : ∃ others, deduplicated env (x :: rest) = e :: others := by
    rw [deduplicated, map_cons, firsts, filterMap_cons, hcanonical]
    exact ⟨_, rfl⟩
  obtain ⟨others, hhead⟩ := hhead
  have hge : e.relatedGroup env = some g := by rw [relatedGroup_of_signature hsignature, hg]
  have hsome : (e.relatedGroup env).isSome = true := by rw [hge]; rfl
  have hrelated : relatedOnes env (x :: rest) =
      e :: others.filter fun e => (e.relatedGroup env).isSome := by
    rw [relatedOnes, hhead]
    exact filter_cons_of_pos
      (p := fun e : InterventionEvidence Cell => (e.relatedGroup env).isSome) hsome
  have hfirst : firsts ((relatedOnes env (x :: rest)).map (·.relatedGroup env)) =
      some g :: (firsts ((others.filter fun e => (e.relatedGroup env).isSome).map
        (·.relatedGroup env))).filter (· ≠ some g) := by
    rw [hrelated, map_cons, hge, firsts]
  rw [relatedPairs_eq, hfirst, flatMap_cons, group_relatedOnes]
  exact ⟨_, rfl⟩

/-- A pair of the group that is read first comes before the pairs of other groups that tie with
it. -/
theorem sublist_pairsOf (h : Unambiguous (x :: rest) x) (hg : x.relatedGroup env = some g)
    (hp : p ∈ pairsOf env (x :: rest)) (hq : q ∈ pairsOf env (x :: rest))
    (hpg : p.prior.relatedGroup env = some g) (hqg : q.prior.relatedGroup env ≠ some g)
    (htie : pairKey env p.prior p.subsequent = pairKey env q.prior q.subsequent) :
    [p, q].Sublist (pairsOf env (x :: rest)) := by
  obtain ⟨others, hothers⟩ := exists_relatedPairs_append h hg
  have hgroup : ∀ r, r ∈ pairsOfGroup env (groupOf env (x :: rest) g) ↔
      r ∈ pairsOf env (x :: rest) ∧ r.prior.relatedGroup env = some g := by
    intro r
    rw [← (perm_pairsIn env (x :: rest) g).mem_iff, pairsIn, mem_filter, decide_eq_true_eq]
  have hpfirst := (hgroup p).2 ⟨hp, hpg⟩
  have hqlater : q ∈ others := by
    have hmem := (perm_pairsOf env (x :: rest)).mem_iff.1 hq
    rw [hothers, mem_append] at hmem
    exact hmem.resolve_left fun hfirst => hqg ((hgroup q).1 hfirst).2
  have hbefore : [p, q].Sublist (relatedPairs env (x :: rest)) := by
    rw [hothers]
    exact (singleton_sublist.2 hpfirst).append (singleton_sublist.2 hqlater)
  exact pair_sublist_insertionSort (le_of_eq htie) hbefore

/-! ## Exactness -/

/-- The pairs of the datasets are exact: of the visits without conflict, those that follow one
another are paired, once and with time between them, a group of k visits with different times in k-1
pairs, whatever the order of datasets and rows. -/
structure PairsExactly (env : Env Cell) (datasets : List (InterventionDatasetFields Cell))
    (eligibleSubjectKeys : Finset String) : Prop where
  sound : ∀ p ∈ buildRepeatVisitPairs env datasets eligibleSubjectKeys,
    Follows env (collected env datasets eligibleSubjectKeys)
      (Undisputed (collected env datasets eligibleSubjectKeys)) p.prior p.subsequent
  elapsed : ∀ p ∈ buildRepeatVisitPairs env datasets eligibleSubjectKeys, 0 < p.elapsedHours
  complete : ∀ x y, Follows env (collected env datasets eligibleSubjectKeys)
      (Undisputed (collected env datasets eligibleSubjectKeys)) x y →
    ∃ p ∈ buildRepeatVisitPairs env datasets eligibleSubjectKeys,
      p.prior.identity = x.identity ∧ p.subsequent.identity = y.identity
  oncePrior : ((buildRepeatVisitPairs env datasets eligibleSubjectKeys).map
    (·.prior.identity)).Nodup
  onceSubsequent : ((buildRepeatVisitPairs env datasets eligibleSubjectKeys).map
    (·.subsequent.identity)).Nodup
  chain : ∀ g, Distinct (members env (collected env datasets eligibleSubjectKeys)
      (Undisputed (collected env datasets eligibleSubjectKeys)) g) →
    ((buildRepeatVisitPairs env datasets eligibleSubjectKeys).filter fun p =>
      p.prior.relatedGroup env = some g).length =
        (visits env (collected env datasets eligibleSubjectKeys)
          (Undisputed (collected env datasets eligibleSubjectKeys)) g).ncard - 1
  unordered : ∀ datasets', Reordered datasets datasets' →
    buildRepeatVisitPairs env datasets' eligibleSubjectKeys =
      buildRepeatVisitPairs env datasets eligibleSubjectKeys

/-- Nothing in the records lets the code pair other visits, or depend on their order. -/
structure Settled (env : Env Cell) (evidence : List (InterventionEvidence Cell)) : Prop where
  /-- Where a key of a group is recorded for another subject, nothing is to be paired in the group,
  with or without the visits of such keys. -/
  disputed : ∀ g, HasDispute env evidence g →
    Idle (members env evidence (Unambiguous evidence) g) ∧
      Idle (members env evidence (Undisputed evidence) g)
  /-- The least records of a visit to be paired are equal. -/
  records : ∀ x y, Least env evidence x → Least env evidence y → x.identity = y.identity →
    TakesPart env evidence x → x = y
  /-- Pairs with one key start with the same visit. -/
  keys : ∀ x y x' y', Follows env evidence (Unambiguous evidence) x y →
    Follows env evidence (Unambiguous evidence) x' y' → pairKey env x y = pairKey env x' y' →
      x.identity = x'.identity

/-! ## Exact pairs of settled records -/

section

variable (h : Settled env evidence)
include h

theorem Settled.follows_iff (x y : InterventionEvidence Cell) :
    Follows env evidence (Undisputed evidence) x y ↔
      Follows env evidence (Unambiguous evidence) x y := by
  refine exists_congr fun g => ?_
  by_cases hdispute : HasDispute env evidence g
  · obtain ⟨hunambiguous, hundisputed⟩ := h.disputed g hdispute
    constructor
    · rintro ⟨hdistinct, hxy⟩
      exact absurd hxy (not_consecutive_of_idle (fun _ hx => hx.unambiguous) hundisputed
        hdistinct x y)
    · rintro ⟨hdistinct, hxy⟩
      exact absurd hxy (not_consecutive_of_idle (fun _ hx => hx) hunambiguous hdistinct x y)
  · rw [members_undisputed hdispute]

theorem Settled.chain (g : RelatedGroup)
    (hdistinct : Distinct (members env evidence (Undisputed evidence) g)) :
    (pairsIn env evidence g).length = (visits env evidence (Undisputed evidence) g).ncard - 1 := by
  by_cases hdispute : HasDispute env evidence g
  · obtain ⟨hunambiguous, hundisputed⟩ := h.disputed g hdispute
    have hone : (visits env evidence (Undisputed evidence) g).ncard ≤ 1 := by
      have hsame : (visits env evidence (Undisputed evidence) g).Subsingleton := by
        rintro _ ⟨x, hx, rfl⟩ _ ⟨y, hy, rfl⟩
        exact hundisputed.resolve_left (not_not.2 hdistinct) x hx y hy
      rcases hsame.eq_empty_or_singleton with hempty | ⟨i, hi⟩
      · rw [hempty, Set.ncard_empty]
        exact Nat.zero_le 1
      · rw [hi, Set.ncard_singleton]
    have hnone : pairsIn env evidence g = [] := by
      refine filter_eq_nil_iff.2 fun p hp hpg => ?_
      obtain ⟨g', hdistinct', hxy⟩ := follows_of_mem hp
      obtain rfl : g' = g := Option.some.inj (hxy.left.2.2.symm.trans (of_decide_eq_true hpg))
      exact not_consecutive_of_idle (fun _ hx => hx) hunambiguous hdistinct' _ _ hxy
    rw [hnone, length_nil]
    omega
  · rw [visits, members_undisputed hdispute, ← visits, ncard_visits]
    rw [members_undisputed hdispute] at hdistinct
    exact length_pairsIn env evidence g hdistinct

/-- A visit to be paired is represented by the same record, whatever the order. -/
theorem Settled.mem_deduplicated (hperm : evidence.Perm evidence')
    (hx : x ∈ deduplicated env evidence) (hpart : TakesPart env evidence x) :
    x ∈ deduplicated env evidence' := by
  have hunambiguous : Unambiguous evidence' x :=
    unambiguous_perm hperm ▸ (Maintenance.mem_deduplicated.1 hx).1
  obtain ⟨e, he, hidentity, -⟩ := exists_deduplicated env
    (hperm.mem_iff.1 (mem_of_mem_deduplicated hx)) hunambiguous
  have hleast : Least env evidence e := least_perm hperm ▸ least_of_mem_deduplicated he
  rwa [h.records x e (least_of_mem_deduplicated hx) hleast hidentity.symm hpart]

theorem Settled.perm (hperm : evidence.Perm evidence') : Settled env evidence' := by
  have hundisputed : Undisputed evidence = Undisputed evidence' := by
    funext x
    simp only [Undisputed, hperm.mem_iff]
  obtain ⟨hdisputed, hrecords, hkeys⟩ := h
  simp only [HasDispute, TakesPart, Follows, members_perm hperm, least_perm hperm,
    unambiguous_perm hperm, hundisputed] at hdisputed hrecords hkeys
  exact ⟨hdisputed, hrecords, hkeys⟩

theorem Settled.mem_pairsOf (hperm : evidence.Perm evidence') (hp : p ∈ pairsOf env evidence) :
    p ∈ pairsOf env evidence' := by
  obtain ⟨x, y, hx, hy, hxy, rfl⟩ := Maintenance.mem_pairsOf.1 hp
  refine Maintenance.mem_pairsOf.2 ⟨x, y, h.mem_deduplicated hperm hx ⟨y, .inl hxy⟩,
    h.mem_deduplicated hperm hy ⟨x, .inr hxy⟩, ?_, rfl⟩
  rwa [← follows_perm hperm]

theorem Settled.pairsOf_eq (hperm : evidence.Perm evidence') :
    pairsOf env evidence = pairsOf env evidence' := by
  have hpairs : (pairsOf env evidence).Perm (pairsOf env evidence') := by
    rw [perm_ext_iff_of_nodup (nodup_prior env evidence).of_map (nodup_prior env evidence').of_map]
    exact fun p => ⟨h.mem_pairsOf hperm, (h.perm hperm).mem_pairsOf hperm.symm⟩
  refine List.Perm.eq_of_pairwise (fun p q hp hq hpq hqp => ?_) (pairwise_insertionSort _ _)
    (pairwise_insertionSort _ _) hpairs
  have hq' := hpairs.mem_iff.2 hq
  exact eq_of_prior hp hq' (h.keys _ _ _ _ (follows_of_mem hp) (follows_of_mem hq')
    (le_antisymm hpq hqp))

end

theorem pairsExactly_of_settled
    (h : Settled env (collected env datasets eligibleSubjectKeys)) :
    PairsExactly env datasets eligibleSubjectKeys where
  sound p hp := (h.follows_iff _ _).2 (follows_of_mem hp)
  elapsed p hp := by
    obtain ⟨x, y, -, -, ⟨g, -, hxy⟩, rfl⟩ := mem_pairsOf.1 hp
    exact elapsedHours_pos hxy.lt
  complete x y hxy := exists_pair ((h.follows_iff x y).1 hxy)
  oncePrior := nodup_prior env _
  onceSubsequent := nodup_subsequent env _
  chain := h.chain
  unordered datasets' hreordered := (h.pairsOf_eq hreordered.collected_perm).symm

/-! ## Settled records of exact pairs -/

section

variable (h : PairsExactly env datasets eligibleSubjectKeys)
include h

theorem PairsExactly.idle (g : RelatedGroup)
    (hdispute : HasDispute env (collected env datasets eligibleSubjectKeys) g) :
    Idle (members env (collected env datasets eligibleSubjectKeys)
      (Unambiguous (collected env datasets eligibleSubjectKeys)) g) := by
  obtain ⟨x, hx, hdisputed⟩ := hdispute
  by_contra hbusy
  -- a visit of the pair has the key of the disputed one
  have hshared : ∀ z, Undisputed (collected env datasets eligibleSubjectKeys) z →
      z.identity ≠ x.identity := by
    intro z hz hzx
    have hkey : z.interventionKey = x.interventionKey := congrArg Identity.interventionKey hzx
    have hxz := hz x hx.1 hkey.symm
    exact hdisputed fun y hy hyx => (hz y hy (hyx.trans hkey.symm)).trans hxz.symm
  obtain ⟨y, hxy | hyx⟩ := exists_consecutive hbusy hx
  · obtain ⟨p, hp, hpx, -⟩ := exists_pair ⟨g, not_not.1 (not_or.1 hbusy).1, hxy⟩
    obtain ⟨g', -, hconsecutive⟩ := h.sound p hp
    exact hshared p.prior hconsecutive.left.2.1 hpx
  · obtain ⟨p, hp, -, hpx⟩ := exists_pair ⟨g, not_not.1 (not_or.1 hbusy).1, hyx⟩
    obtain ⟨g', -, hconsecutive⟩ := h.sound p hp
    exact hshared p.subsequent hconsecutive.right.2.1 hpx

theorem PairsExactly.idle_undisputed (g : RelatedGroup)
    (hidle : Idle (members env (collected env datasets eligibleSubjectKeys)
      (Unambiguous (collected env datasets eligibleSubjectKeys)) g)) :
    Idle (members env (collected env datasets eligibleSubjectKeys)
      (Undisputed (collected env datasets eligibleSubjectKeys)) g) := by
  by_contra hbusy
  obtain ⟨hdistinct, hmany⟩ := not_or.1 hbusy
  push Not at hmany
  obtain ⟨x, hx, -⟩ := hmany
  obtain ⟨y, hxy⟩ := exists_consecutive hbusy hx
  obtain ⟨a, b, hab⟩ : ∃ a b, Consecutive (·.occurredAt)
      (members env (collected env datasets eligibleSubjectKeys)
        (Undisputed (collected env datasets eligibleSubjectKeys)) g) a b :=
    hxy.elim (fun hxy => ⟨x, y, hxy⟩) fun hyx => ⟨y, x, hyx⟩
  obtain ⟨p, hp, hpa, -⟩ := h.complete a b ⟨g, not_not.1 hdistinct, hab⟩
  obtain ⟨g', hdistinct', hconsecutive⟩ := follows_of_mem hp
  -- the pair is one of this group, as its first visit is
  have hsignature := hab.left.2.1.unambiguous p.prior hconsecutive.left.1 hpa
  have hgroup : p.prior.relatedGroup env = some g := by
    rw [relatedGroup_of_signature hsignature, hab.left.2.2]
  obtain rfl : g' = g := Option.some.inj (hconsecutive.left.2.2.symm.trans hgroup)
  exact not_consecutive_of_idle (fun _ hx => hx) hidle hdistinct' _ _ hconsecutive

theorem PairsExactly.exists_cons (hx : x ∈ collected env datasets eligibleSubjectKeys) :
    ∃ rest, (collected env datasets eligibleSubjectKeys).Perm (x :: rest) ∧
      pairsOf env (x :: rest) = buildRepeatVisitPairs env datasets eligibleSubjectKeys := by
  obtain ⟨datasets', rest, hreordered, hcollected⟩ := exists_reordered hx
  have hpairs := h.unordered datasets' hreordered
  rw [buildRepeatVisitPairs, hcollected] at hpairs
  exact ⟨rest, hcollected ▸ hreordered.collected_perm, hpairs⟩

theorem PairsExactly.eq_of_least (hx : Least env (collected env datasets eligibleSubjectKeys) x)
    (hunambiguous : Unambiguous (collected env datasets eligibleSubjectKeys) x)
    (hp : p ∈ buildRepeatVisitPairs env datasets eligibleSubjectKeys) :
    (p.prior.identity = x.identity → p.prior = x) ∧
      (p.subsequent.identity = x.identity → p.subsequent = x) := by
  obtain ⟨rest, hperm, hpairs⟩ := h.exists_cons hx.1
  have hkept : x ∈ deduplicated env (x :: rest) :=
    mem_deduplicated_of_head (unambiguous_perm hperm ▸ hunambiguous) (least_perm hperm ▸ hx)
  obtain ⟨hprior, hsubsequent⟩ := mem_deduplicated_of_mem (hpairs ▸ hp)
  have hone := inj_on_of_nodup_map (nodup_identity_deduplicated env (x :: rest))
  exact ⟨fun hpx => hone hprior hkept hpx, fun hpx => hone hsubsequent hkept hpx⟩

theorem PairsExactly.eq_record (hx : Least env (collected env datasets eligibleSubjectKeys) x)
    (hy : Least env (collected env datasets eligibleSubjectKeys) y) (hxy : x.identity = y.identity)
    (hpart : TakesPart env (collected env datasets eligibleSubjectKeys) x) : x = y := by
  have hunambiguous : Unambiguous (collected env datasets eligibleSubjectKeys) x := by
    obtain ⟨z, ⟨g, -, hxz⟩ | ⟨g, -, hzx⟩⟩ := hpart
    · exact hxz.left.2.1
    · exact hzx.right.2.1
  have hunambiguous' : Unambiguous (collected env datasets eligibleSubjectKeys) y := by
    intro z hz hzy
    rw [hunambiguous z hz (hzy.trans hxy.symm), hunambiguous y hy.1 hxy.symm]
  obtain ⟨z, hxz | hzx⟩ := hpart
  · obtain ⟨p, hp, hpx, -⟩ := exists_pair hxz
    rw [← (h.eq_of_least hx hunambiguous hp).1 hpx,
      ← (h.eq_of_least hy hunambiguous' hp).1 (hpx.trans hxy)]
  · obtain ⟨p, hp, -, hpx⟩ := exists_pair hzx
    rw [← (h.eq_of_least hx hunambiguous hp).2 hpx,
      ← (h.eq_of_least hy hunambiguous' hp).2 (hpx.trans hxy)]

end

theorem pairKey_congr {x' y' : InterventionEvidence Cell} (hx : x.identity = x'.identity)
    (hsignature : x.signature = x'.signature) (hy : y.identity = y'.identity) :
    pairKey env x y = pairKey env x' y' := by
  have hcategory : x.normalizedActivityCategory = x'.normalizedActivityCategory :=
    congrArg Signature.normalizedActivityCategory hsignature
  have hsubject : x.subjectKey = x'.subjectKey := congrArg Identity.subjectKey hx
  have hkey : x.interventionKey = x'.interventionKey := congrArg Identity.interventionKey hx
  have hkey' : y.interventionKey = y'.interventionKey := congrArg Identity.interventionKey hy
  rw [pairKey, pairKey, hcategory, hsubject, hkey, hkey', occurredAt_of_signature hsignature]

/-- Of two pairs of different groups that tie, the one whose group is read first comes first. -/
theorem PairsExactly.sublist (h : PairsExactly env datasets eligibleSubjectKeys)
    (hp : p ∈ buildRepeatVisitPairs env datasets eligibleSubjectKeys)
    (hq : q ∈ buildRepeatVisitPairs env datasets eligibleSubjectKeys)
    (hgroup : q.prior.relatedGroup env ≠ p.prior.relatedGroup env)
    (htie : pairKey env p.prior p.subsequent = pairKey env q.prior q.subsequent) :
    [p, q].Sublist (buildRepeatVisitPairs env datasets eligibleSubjectKeys) := by
  obtain ⟨g, -, hconsecutive⟩ := follows_of_mem hp
  obtain ⟨rest, hperm, hpairs⟩ := h.exists_cons hconsecutive.left.1
  have hunambiguous := hconsecutive.left.2.1
  have hg := hconsecutive.left.2.2
  rw [unambiguous_perm hperm] at hunambiguous
  rw [hg] at hgroup
  rw [← hpairs] at hp hq ⊢
  exact sublist_pairsOf hunambiguous hg hp hq hg hgroup htie

theorem PairsExactly.eq_of_pairKey (h : PairsExactly env datasets eligibleSubjectKeys)
    {x' y' : InterventionEvidence Cell}
    (hxy : Follows env (collected env datasets eligibleSubjectKeys)
      (Unambiguous (collected env datasets eligibleSubjectKeys)) x y)
    (hxy' : Follows env (collected env datasets eligibleSubjectKeys)
      (Unambiguous (collected env datasets eligibleSubjectKeys)) x' y')
    (hkey : pairKey env x y = pairKey env x' y') : x.identity = x'.identity := by
  obtain ⟨p, hp, hpx, hpy⟩ := exists_pair hxy
  obtain ⟨q, hq, hqx, hqy⟩ := exists_pair hxy'
  obtain ⟨g, hdistinct, hconsecutive⟩ := hxy
  obtain ⟨g', -, hconsecutive'⟩ := hxy'
  have hpsignature := hconsecutive.left.2.1 p.prior (mem_of_mem_deduplicated
    (mem_deduplicated_of_mem hp).1) hpx
  have hqsignature := hconsecutive'.left.2.1 q.prior (mem_of_mem_deduplicated
    (mem_deduplicated_of_mem hq).1) hqx
  have htie : pairKey env p.prior p.subsequent = pairKey env q.prior q.subsequent := by
    rw [pairKey_congr hpx hpsignature hpy, hkey, pairKey_congr hqx hqsignature hqy]
  by_contra hne
  by_cases hgroup : g' = g
  · -- within a group the first visits of the pairs have different times
    subst hgroup
    have htime : x.occurredAt = x'.occurredAt :=
      congrArg (fun k : PairKey => (ofLex (ofLex (ofLex k).2).2).1) hkey
    exact hne (hdistinct x hconsecutive.left x' hconsecutive'.left htime)
  · have hgroups : q.prior.relatedGroup env ≠ p.prior.relatedGroup env := by
      rw [relatedGroup_of_signature hpsignature, relatedGroup_of_signature hqsignature,
        hconsecutive.left.2.2, hconsecutive'.left.2.2]
      exact fun heq => hgroup (Option.some.inj heq)
    exact not_sublist_swap (nodup_prior env _).of_map (h.sublist hp hq hgroups htie)
      (h.sublist hq hp hgroups.symm htie.symm)

/-- The pairs are exact just when the records are settled. -/
theorem pairsExactly_iff_settled (env : Env Cell)
    (datasets : List (InterventionDatasetFields Cell)) (eligibleSubjectKeys : Finset String) :
    PairsExactly env datasets eligibleSubjectKeys ↔
      Settled env (collected env datasets eligibleSubjectKeys) where
  mp h :=
    { disputed := fun g hdispute =>
        ⟨h.idle g hdispute, h.idle_undisputed g (h.idle g hdispute)⟩
      records := fun _ _ hx hy hxy hpart => h.eq_record hx hy hxy hpart
      keys := fun _ _ _ _ hxy hxy' hkey => h.eq_of_pairKey hxy hxy' hkey }
  mpr := pairsExactly_of_settled

/-! ## An order that is recorded for two assets -/

namespace SharedOrder

/-- The standard library on texts in lower case without blanks around them, and on two days. -/
def library : Env String where
  isna text := text = ""
  str text := text
  strip text := text
  casefold text := text
  toDatetime text :=
    if text = "2026-01-01" then some 1767225600000000
    else if text = "2026-01-02" then some 1767312000000000
    else none

def row (index asset order day : String) : Row String :=
  ⟨index, fun field => if field = "asset" then asset else if field = "order" then order
    else if field = "day" then day else "pump"⟩

/-- Two repairs of asset a; the first one is recorded for asset b as well. -/
def serviceLog : InterventionDatasetFields String where
  datasetId := 1
  datasetLabel := "service log"
  dataframe := ⟨["asset", "order", "day", "kind", "part"],
    [row "0" "a" "1" "2026-01-01", row "1" "a" "2" "2026-01-02", row "2" "b" "1" "2026-01-01"]⟩
  trustAssessmentId := 2
  subjectIdField := "asset"
  interventionIdField := "order"
  timestampField := "day"
  activityCategoryField := "kind"
  relationDimensionField := some "part"

/-- The repairs of asset a are paired, though the first one is recorded for two assets. -/
theorem serviceLog_not_exact : ¬ PairsExactly library [serviceLog] {"a", "b"} := by
  intro h
  have hpaired : ((buildRepeatVisitPairs library [serviceLog] {"a", "b"}).all fun p =>
      (collected library [serviceLog] {"a", "b"}).all fun y =>
        y.interventionKey = p.prior.interventionKey → y.signature = p.prior.signature) = false := by
    decide +kernel
  have hall : ((buildRepeatVisitPairs library [serviceLog] {"a", "b"}).all fun p =>
      (collected library [serviceLog] {"a", "b"}).all fun y =>
        y.interventionKey = p.prior.interventionKey → y.signature = p.prior.signature) = true := by
    refine all_eq_true.2 fun p hp => all_eq_true.2 fun y hy => decide_eq_true ?_
    obtain ⟨g, -, hconsecutive⟩ := h.sound p hp
    exact hconsecutive.left.2.1 y hy
  exact Bool.false_ne_true (hpaired.symm.trans hall)

end SharedOrder

end Intel4Ops.Maintenance
