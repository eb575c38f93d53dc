import Intel4Ops.GroundTruth.Scores
import Mathlib.Algebra.Order.Field.Basic
import Mathlib.Tactic.Linarith

/-!
# Ground-truth validation: the pairs as a partition

A run of the matcher that completes puts every expectation and every production finding into one
pair. What is paired is compatible, and what is left on one side is compatible with nothing that is
left on the other.
-/

namespace Intel4Ops.GroundTruth

open Lib List

/-! ## Compatibility -/

/-- One of the listed entities is an entity of the production finding. -/
def SharesEntity (expected : ValidationExpectedFinding) (actual : PrioritizedFinding) : Prop :=
  ∃ entity ∈ expected.entities, ∃ key, entityKey entity = .ok key ∧ key ∈ actualEntityKeys actual

/-- Family or domain match, and listed entities overlap. -/
def Satisfies (registry : FamilyRegistry) (expected : ValidationExpectedFinding)
    (actual : PrioritizedFinding) : Prop :=
  candidateMatchesFamilyOrDomain registry expected actual = true ∧
    (expected.entities ≠ [] → SharesEntity expected actual)

theorem mem_entityKeys {entities : List Json} {keys : List EntityKey}
    (h : entityKeys entities = .ok keys) {key : EntityKey} :
    key ∈ keys ↔ ∃ entity ∈ entities, entityKey entity = .ok key := by
  simp only [entityKeys, bind_eq_ok, pure_eq_ok] at h
  obtain ⟨parts, hparts, rfl⟩ := h
  rw [mem_dedup]
  exact mem_of_mapM_eq_ok hparts

theorem entityKeys_isEmpty {entities : List Json} {keys : List EntityKey}
    (h : entityKeys entities = .ok keys) : keys.isEmpty = true ↔ entities = [] := by
  rw [List.isEmpty_iff]
  constructor
  · rintro rfl
    cases entities with
    | nil => rfl
    | cons entity entities =>
      -- the first entity has a key
      simp only [entityKeys, mapM_cons, bind_eq_ok, pure_eq_ok] at h
      obtain ⟨parts, ⟨key, -, keys, -, rfl⟩, hdedup⟩ := h
      have hkey : key ∈ (key :: keys).dedup := mem_dedup.2 mem_cons_self
      rw [hdedup] at hkey
      exact absurd hkey not_mem_nil
  · rintro rfl
    exact (Except.ok.inj h).symm

section Pairs

variable {text : Text} {registry : FamilyRegistry} {labels : UUID → List String}

theorem compatible_iff {expected : ValidationExpectedFinding} {actual : PrioritizedFinding}
    {keys : List EntityKey} (hkeys : entityKeys expected.entities = .ok keys) :
    (findingRules text registry labels).Compatible expected actual ↔
      Satisfies registry expected actual := by
  have hentities : (findingRules text registry labels).entities expected = expected.entities := rfl
  have hoverlap : (keys.isEmpty || keys.any (· ∈ actualEntityKeys actual)) = true ↔
      (expected.entities ≠ [] → SharesEntity expected actual) := by
    rw [Bool.or_eq_true, entityKeys_isEmpty hkeys, any_eq_true]
    constructor
    · rintro (hempty | ⟨key, hkey, hactual⟩) hne
      · exact absurd hempty hne
      · obtain ⟨entity, hentity, hok⟩ := (mem_entityKeys hkeys).1 hkey
        exact ⟨entity, hentity, key, hok, of_decide_eq_true hactual⟩
    · intro hshares
      by_cases hempty : expected.entities = []
      · exact .inl hempty
      · obtain ⟨entity, hentity, key, hok, hactual⟩ := hshares hempty
        exact .inr ⟨key, (mem_entityKeys hkeys).2 ⟨entity, hentity, hok⟩, decide_eq_true hactual⟩
  rw [Rules.Compatible, hentities, hkeys]
  dsimp only
  rw [Rules.accepts, Bool.and_eq_true, hoverlap]
  rfl

theorem exists_entityKeys {Expected Pair : Type} {rules : Rules Expected Pair}
    {expected : List Expected} {actual left : List PrioritizedFinding} {pairs : List Pair}
    (h : matchLoop rules expected actual = .ok (pairs, left)) :
    ∀ e ∈ expected, ∃ keys, entityKeys (rules.entities e) = .ok keys := by
  induction expected generalizing actual pairs left with
  | nil => exact fun e he => absurd he not_mem_nil
  | cons first rest ih =>
    unfold matchLoop at h
    obtain ⟨keys, hkeys, h⟩ := bind_eq_ok.1 h
    have hrest : ∃ actual' pairs' left', matchLoop rules rest actual' = .ok (pairs', left') := by
      split at h
      case h_1 =>
        obtain ⟨pair, -, h⟩ := bind_eq_ok.1 h
        obtain ⟨⟨pairs', left'⟩, hloop, -⟩ := bind_eq_ok.1 h
        exact ⟨_, _, _, hloop⟩
      case h_2 =>
        obtain ⟨⟨pairs', left'⟩, hloop, -⟩ := bind_eq_ok.1 h
        exact ⟨_, _, _, hloop⟩
    obtain ⟨actual', pairs', left', hloop⟩ := hrest
    intro e he
    rcases mem_cons.1 he with rfl | he
    · exact ⟨keys, hkeys⟩
    · exact ih hloop e he

/-! ## The partition -/

/-- The pairs of a run, and what the scores make of them. -/
structure MatchingPartition (text : Text) (registry : FamilyRegistry)
    (expected : List ValidationExpectedFinding) (actual : List PrioritizedFinding)
    (pairs : List MatchedPair) : Prop where
  /-- The expectations of the pairs are the expectations, each once. -/
  expected_once : pairs.filterMap (·.expected) = expected
  actual_once : (pairs.filterMap (·.actual)).Perm actual
  /-- The type of a pair says which sides it has. -/
  types : ∀ pair ∈ pairs, match pair.matchType with
    | .truePositive => pair.expected.isSome ∧ pair.actual.isSome
    | .falseNegative => pair.expected.isSome ∧ pair.actual = none
    | .falsePositive => pair.expected = none ∧ pair.actual.isSome
  compatible : ∀ pair ∈ pairs, pair.matchType = .truePositive →
    ∀ e ∈ pair.expected, ∀ a ∈ pair.actual, Satisfies registry e a
  maximal : ∀ missed ∈ pairs, missed.matchType = .falseNegative →
    ∀ extra ∈ pairs, extra.matchType = .falsePositive →
      ∀ e ∈ missed.expected, ∀ a ∈ extra.actual, ¬ Satisfies registry e a
  expected_total : (score text pairs).truePositiveCount + (score text pairs).falseNegativeCount =
    expected.length
  actual_total : (score text pairs).truePositiveCount + (score text pairs).falsePositiveCount =
    actual.length
  unit : ∀ x ∈ [(score text pairs).precision, (score text pairs).recall, (score text pairs).f1],
    ∀ q ∈ x, 0 ≤ q ∧ q ≤ 1

theorem exists_decision {matched : List MatchedPair}
    {decisions : List (ValidationExpectedFinding × Option PrioritizedFinding)}
    (h : matched.map (fun pair => (pair.matchType, pair.expected, pair.actual)) =
      decisions.map fun x => (outcome x.2, some x.1, x.2)) :
    (∀ pair ∈ matched, ∃ x ∈ decisions, pair.matchType = outcome x.2 ∧
      pair.expected = some x.1 ∧ pair.actual = x.2) ∧
    matched.filterMap (·.expected) = decisions.map (·.1) ∧
    matched.filterMap (·.actual) = decisions.filterMap (·.2) := by
  refine ⟨?_, ?_, ?_⟩
  · intro pair hpair
    have hmem := mem_map_of_mem (f := fun pair : MatchedPair =>
      (pair.matchType, pair.expected, pair.actual)) hpair
    rw [h, mem_map] at hmem
    obtain ⟨x, hx, heq⟩ := hmem
    simp only [Prod.mk.injEq] at heq
    exact ⟨x, hx, heq.1.symm, heq.2.1.symm, heq.2.2.symm⟩
  · have hexpected := congrArg (List.filterMap fun x => x.2.1) h
    rw [filterMap_map, filterMap_map] at hexpected
    simpa [Function.comp_def] using hexpected
  · have hactual := congrArg (List.filterMap fun x => x.2.2) h
    rwa [filterMap_map, filterMap_map] at hactual

theorem ratio_unit {n m : ℕ} (h : n ≤ m) {q : ℚ} (hq : q ∈ ratio n m) : 0 ≤ q ∧ q ≤ 1 := by
  rw [ratio] at hq
  split at hq
  case isTrue => exact absurd hq (Option.not_mem_none q)
  case isFalse hm =>
    obtain rfl := Option.some.inj hq
    have hpos : (0 : ℚ) < m := by exact_mod_cast Nat.pos_of_ne_zero hm
    have hle : (n : ℚ) ≤ m := by exact_mod_cast h
    exact ⟨div_nonneg (Nat.cast_nonneg n) hpos.le, (div_le_one hpos).2 hle⟩

theorem f1Score_unit {precision recalled : Option ℚ} (hp : ∀ p ∈ precision, 0 ≤ p ∧ p ≤ 1)
    (hr : ∀ r ∈ recalled, 0 ≤ r ∧ r ≤ 1) {q : ℚ} (hq : q ∈ f1Score precision recalled) :
    0 ≤ q ∧ q ≤ 1 := by
  unfold f1Score at hq
  split at hq
  case h_1 p r =>
    obtain ⟨hp0, hp1⟩ := hp p rfl
    obtain ⟨hr0, hr1⟩ := hr r rfl
    split at hq
    case isTrue hpos =>
      obtain rfl := Option.some.inj hq
      refine ⟨div_nonneg (mul_nonneg (mul_nonneg zero_le_two hp0) hr0) hpos.le,
        (div_le_one hpos).2 ?_⟩
      have hpr : p * r ≤ p := mul_le_of_le_one_right hp0 hr1
      have hrp : p * r ≤ r := mul_le_of_le_one_left hr0 hp1
      linarith
    case isFalse => exact absurd hq (Option.not_mem_none q)
  case h_2 => exact absurd hq (Option.not_mem_none q)

theorem score_unit (text : Text) (pairs : List MatchedPair) :
    ∀ x ∈ [(score text pairs).precision, (score text pairs).recall, (score text pairs).f1],
      ∀ q ∈ x, 0 ≤ q ∧ q ≤ 1 := by
  have hprecision : ∀ q ∈ (score text pairs).precision, 0 ≤ q ∧ q ≤ 1 := fun q hq =>
    ratio_unit (Nat.le_add_right _ _) hq
  have hrecall : ∀ q ∈ (score text pairs).recall, 0 ≤ q ∧ q ≤ 1 := fun q hq =>
    ratio_unit (Nat.le_add_right _ _) hq
  intro x hx q hq
  simp only [mem_cons, not_mem_nil, or_false] at hx
  rcases hx with rfl | rfl | rfl
  · exact hprecision q hq
  · exact hrecall q hq
  · exact f1Score_unit hprecision hrecall hq

/-- A run that completes partitions both sides, and its matching is maximal. -/
theorem matchFindings_partition {expected : List ValidationExpectedFinding}
    {actual : List PrioritizedFinding} {pairs : List MatchedPair}
    (h : matchFindings text registry labels expected actual = .ok pairs) :
    MatchingPartition text registry expected actual pairs := by
  have hcounts := matchFindings_counts h
  have hfirst : CountsFit (findingRules text registry labels) expected actual
      (firstFitCounts (findingRules text registry labels) expected actual) :=
    countsFit_firstFit expected actual
  have hfit := hcounts ▸ hfirst
  obtain ⟨⟨matched, left⟩, hloop, h⟩ := bind_eq_ok.1 h
  obtain rfl := Except.ok.inj h
  obtain ⟨hpairs, rfl⟩ := matchLoop_eq_firstFit (labelled_findingRules text registry labels) hloop
  obtain ⟨hdecision, hexpected, hactual⟩ := exists_decision hpairs
  have hkeys := exists_entityKeys hloop
  have hmem : ∀ x ∈ (firstFit (findingRules text registry labels).Compatible expected actual).1,
      x.1 ∈ expected := by
    intro x hx
    rw [← map_fst_firstFit (R := (findingRules text registry labels).Compatible) expected actual]
    exact mem_map_of_mem hx
  have hsplit : ∀ pair ∈ matched ++
      (firstFit (findingRules text registry labels).Compatible expected actual).2.map falsePositive,
      pair ∈ matched ∨ ∃ a ∈ (firstFit (findingRules text registry labels).Compatible
        expected actual).2, pair = falsePositive a := by
    intro pair hpair
    rcases mem_append.1 hpair with hpair | hpair
    · exact .inl hpair
    · obtain ⟨a, ha, rfl⟩ := mem_map.1 hpair
      exact .inr ⟨a, ha, rfl⟩
  refine {
    expected_once := ?_
    actual_once := ?_
    types := ?_
    compatible := ?_
    maximal := ?_
    expected_total := hfit.expected_total
    actual_total := hfit.actual_total
    unit := score_unit text _ }
  · rw [filterMap_append, hexpected, map_fst_firstFit, filterMap_map]
    simp [Function.comp_def, falsePositive, unpaired]
  · rw [filterMap_append, hactual, filterMap_map]
    have hleft : (fun a => (falsePositive a).actual) = some := rfl
    rw [Function.comp_def, hleft, filterMap_some]
    exact firstFit_perm expected actual
  · intro pair hpair
    rcases hsplit pair hpair with hpair | ⟨a, -, rfl⟩
    · obtain ⟨⟨e, partner⟩, -, htype, he, ha⟩ := hdecision pair hpair
      rw [htype, he, ha]
      cases partner with
      | none | some a => exact ⟨rfl, rfl⟩
    · exact ⟨rfl, rfl⟩
  · intro pair hpair htp e he a ha
    rcases hsplit pair hpair with hpair | ⟨b, -, rfl⟩
    · obtain ⟨⟨e', partner⟩, hx, -, he', ha'⟩ := hdecision pair hpair
      obtain rfl := Option.some.inj (he'.symm.trans he)
      obtain rfl : partner = some a := ha'.symm.trans ha
      obtain ⟨keys, hok⟩ := hkeys e' (hmem _ hx)
      exact (compatible_iff hok).1 (firstFit_compatible hx)
    · cases htp
  · intro missed hmissed hfn extra hextra hfp e he a ha
    rcases hsplit missed hmissed with hmissed | ⟨b, -, rfl⟩
    · obtain ⟨⟨e', partner⟩, hx, htype, he', -⟩ := hdecision missed hmissed
      obtain rfl := Option.some.inj (he'.symm.trans he)
      obtain ⟨keys, hok⟩ := hkeys e' (hmem _ hx)
      have hnone : partner = none := by
        cases partner with
        | none => rfl
        | some _ => cases htype.symm.trans hfn
      subst hnone
      rcases hsplit extra hextra with hextra | ⟨b, hb, rfl⟩
      · obtain ⟨⟨e₂, partner⟩, -, htype', -, -⟩ := hdecision extra hextra
        cases partner with
        | none | some _ => cases htype'.symm.trans hfp
      · obtain rfl : b = a := Option.some.inj ha
        exact fun hsat => firstFit_maximal hx hb ((compatible_iff hok).2 hsat)
    · cases hfn

end Pairs

namespace Listings

/-- Two expectations of the same pump and two findings: one pair, one miss and one extra. -/
theorem matchFindings_partition_pump : ∃ pairs,
    MatchingPartition text defaultFamilyMappingRegistry
      [expects "one" ["P-1"], expects "again" ["P-1"]] findings pairs := by
  obtain ⟨pairs, hpairs⟩ := exists_pairs (x := matchFindings text defaultFamilyMappingRegistry
    (fun _ => []) [expects "one" ["P-1"], expects "again" ["P-1"]] findings) (by decide +kernel)
  exact ⟨pairs, matchFindings_partition hpairs⟩

end Listings

end Intel4Ops.GroundTruth
