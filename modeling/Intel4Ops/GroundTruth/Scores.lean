import Intel4Ops.GroundTruth.Matcher

/-!
# Ground-truth validation: what the scores count

The matching loop is first fit over the compatibility of expectations and production findings. Its
counts therefore add up on both sides, and at least half of what a maximum matching finds is found.
Which of several compatible findings an expectation takes depends on the listing; where the
expectations that share a finding accept the same findings, the counts do not.
-/

namespace Intel4Ops.GroundTruth

open Lib List Except

/-! ## The loop is first fit -/

section Loop

variable {Expected Pair : Type} {rules : Rules Expected Pair}

/-- Family or domain match, and the entities overlap. -/
def Rules.Compatible (rules : Rules Expected Pair) (expected : Expected)
    (actual : PrioritizedFinding) : Prop :=
  match entityKeys (rules.entities expected) with
  | .ok keys => rules.accepts expected keys actual = true
  | .error _ => False

instance (rules : Rules Expected Pair) (expected : Expected) (actual : PrioritizedFinding) :
    Decidable (rules.Compatible expected actual) := by
  unfold Rules.Compatible
  exact match entityKeys (rules.entities expected) with
    | .ok _ => inferInstanceAs (Decidable (_ = true))
    | .error _ => inferInstanceAs (Decidable False)

/-- The pairs of the rules say what they are and whom they pair. -/
structure Labelled (rules : Rules Expected Pair) (matchType : Pair → MatchType)
    (view : Pair → Option Expected × Option PrioritizedFinding) : Prop where
  missed : ∀ {expected keys pair}, rules.missed expected keys = .ok pair →
    matchType pair = .falseNegative ∧ view pair = (some expected, none)
  found : ∀ expected keys actual, matchType (rules.found expected keys actual) = .truePositive ∧
    view (rules.found expected keys actual) = (some expected, some actual)

/-- The type of the pair of an expectation with or without a partner. -/
def outcome : Option PrioritizedFinding → MatchType
  | some _ => .truePositive
  | none => .falseNegative

theorem find?_accepts {expected : Expected} {keys : List EntityKey}
    (hkeys : entityKeys (rules.entities expected) = .ok keys)
    (unmatched : List PrioritizedFinding) :
    unmatched.find? (rules.accepts expected keys) =
      unmatched.find? fun actual => decide (rules.Compatible expected actual) := by
  congr 1
  funext actual
  simp only [Rules.Compatible, hkeys, Bool.decide_eq_true]

theorem matchLoop_eq_firstFit {matchType : Pair → MatchType}
    {view : Pair → Option Expected × Option PrioritizedFinding}
    (hlabelled : Labelled rules matchType view) {expected : List Expected}
    {actual left : List PrioritizedFinding} {pairs : List Pair}
    (h : matchLoop rules expected actual = .ok (pairs, left)) :
    pairs.map (fun pair => (matchType pair, view pair)) =
        (firstFit rules.Compatible expected actual).1.map (fun x => (outcome x.2, some x.1, x.2)) ∧
      left = (firstFit rules.Compatible expected actual).2 := by
  induction expected generalizing actual pairs left with
  | nil =>
    obtain ⟨rfl, rfl⟩ := Prod.mk.inj (ok.inj h)
    exact ⟨rfl, rfl⟩
  | cons e rest ih =>
    unfold matchLoop at h
    obtain ⟨keys, hkeys, h⟩ := bind_eq_ok.1 h
    have hsame := find?_accepts hkeys actual
    split at h
    case h_1 hfind =>
      obtain ⟨pair, hpair, h⟩ := bind_eq_ok.1 h
      obtain ⟨⟨pairs', left'⟩, hloop, h⟩ := bind_eq_ok.1 h
      obtain ⟨rfl, rfl⟩ := Prod.mk.inj (ok.inj h)
      obtain ⟨hpairs, hleft⟩ := ih hloop
      rw [firstFit_of_none (hsame.symm.trans hfind)]
      refine ⟨?_, hleft⟩
      obtain ⟨htype, hview⟩ := hlabelled.missed hpair
      rw [map_cons, hpairs, htype, hview]
      rfl
    case h_2 found hfind =>
      obtain ⟨⟨pairs', left'⟩, hloop, h⟩ := bind_eq_ok.1 h
      obtain ⟨rfl, rfl⟩ := Prod.mk.inj (ok.inj h)
      obtain ⟨hpairs, hleft⟩ := ih hloop
      rw [firstFit_of_some (hsame.symm.trans hfind)]
      refine ⟨?_, hleft⟩
      obtain ⟨htype, hview⟩ := hlabelled.found e keys found
      rw [map_cons, hpairs, htype, hview]
      rfl

end Loop

/-! ## Counts -/

/-- The numbers of true positives, false positives and false negatives. -/
structure Counts where
  (truePositives falsePositives falseNegatives : ℕ)
  deriving DecidableEq

/-- The pairs of each type. -/
def countTypes (types : List MatchType) : Counts :=
  ⟨types.count .truePositive, types.count .falsePositive, types.count .falseNegative⟩

/-- The counts of a matching by the rules: both sides are counted once, what is paired is a
matching, no matching has twice as many pairs, and where expectations that share a finding accept
the same findings none has more. -/
structure CountsFit {Expected Pair : Type} (rules : Rules Expected Pair) (expected : List Expected)
    (actual : List PrioritizedFinding) (counts : Counts) : Prop where
  expected_total : counts.truePositives + counts.falseNegatives = expected.length
  actual_total : counts.truePositives + counts.falsePositives = actual.length
  matching : Matching rules.Compatible expected actual counts.truePositives
  half : ∀ n, Matching rules.Compatible expected actual n → n ≤ 2 * counts.truePositives
  maximum : SharedPartners rules.Compatible expected actual →
    ∀ n, Matching rules.Compatible expected actual n → n ≤ counts.truePositives

def firstFitCounts {Expected Pair : Type} (rules : Rules Expected Pair) (expected : List Expected)
    (actual : List PrioritizedFinding) : Counts :=
  let n := firstFitCount rules.Compatible expected actual
  ⟨n, actual.length - n, expected.length - n⟩

theorem count_outcome (partners : List (Option PrioritizedFinding)) :
    (partners.map outcome).count .truePositive = partners.countP (·.isSome) ∧
      (partners.map outcome).count .falsePositive = 0 ∧
      (partners.map outcome).count .falseNegative =
        partners.length - partners.countP (·.isSome) := by
  induction partners with
  | nil => exact ⟨rfl, rfl, rfl⟩
  | cons partner partners ih =>
    have hle : partners.countP (·.isSome) ≤ partners.length := countP_le_length
    obtain ⟨htp, hfp, hfn⟩ := ih
    cases partner with
    | none =>
      refine ⟨by simpa [outcome] using htp, by simpa [outcome] using hfp, ?_⟩
      simp only [map_cons, outcome, count_cons_self, hfn, length_cons,
        countP_cons, Option.isSome_none]
      simp only [Bool.false_eq_true, if_false]
      omega
    | some a =>
      refine ⟨by simpa [outcome] using htp, by simpa [outcome] using hfp, ?_⟩
      simp only [map_cons, outcome, length_cons, countP_cons, Option.isSome_some,
        if_true]
      rw [count_cons_of_ne (by decide), hfn]
      omega

section Fit

variable {Expected Pair : Type} {rules : Rules Expected Pair} {expected : List Expected}
  {actual left : List PrioritizedFinding}

theorem firstFit_lengths (rules : Rules Expected Pair) (expected : List Expected)
    (actual : List PrioritizedFinding) :
    firstFitCount rules.Compatible expected actual ≤ expected.length ∧
      firstFitCount rules.Compatible expected actual +
        (firstFit rules.Compatible expected actual).2.length = actual.length := by
  constructor
  · calc firstFitCount rules.Compatible expected actual
        ≤ (firstFit rules.Compatible expected actual).1.length := countP_le_length
      _ = expected.length := by
        rw [← length_map (fun x : Expected × Option PrioritizedFinding => x.1), map_fst_firstFit]
  · have hlength := (firstFit_perm (R := rules.Compatible) expected actual).length_eq
    rw [length_append, length_filterMap_eq_countP] at hlength
    exact hlength

theorem countTypes_matchLoop {matchType : Pair → MatchType}
    {view : Pair → Option Expected × Option PrioritizedFinding}
    (hlabelled : Labelled rules matchType view) {pairs : List Pair}
    (h : matchLoop rules expected actual = .ok (pairs, left)) :
    countTypes (pairs.map matchType ++ left.map fun _ => MatchType.falsePositive) =
      firstFitCounts rules expected actual := by
  obtain ⟨hpairs, rfl⟩ := matchLoop_eq_firstFit hlabelled h
  have htypes : pairs.map matchType =
      ((firstFit rules.Compatible expected actual).1.map (·.2)).map outcome := by
    have := congrArg (List.map Prod.fst) hpairs
    simpa [map_map, Function.comp_def] using this
  obtain ⟨htp, hfp, hfn⟩ := count_outcome ((firstFit rules.Compatible expected actual).1.map (·.2))
  have hcount : ((firstFit rules.Compatible expected actual).1.map (·.2)).countP (·.isSome) =
      firstFitCount rules.Compatible expected actual := by
    rw [countP_map]
    rfl
  have hexpected : ((firstFit rules.Compatible expected actual).1.map (·.2)).length =
      expected.length := by
    rw [length_map, ← length_map (fun x : Expected × Option PrioritizedFinding => x.1),
      map_fst_firstFit]
  obtain ⟨-, hleft⟩ := firstFit_lengths rules expected actual
  rw [hcount] at htp hfn
  rw [hexpected] at hfn
  simp only [countTypes, firstFitCounts, htypes, count_append, htp, hfp, hfn, map_const',
    count_replicate]
  congr 1
  simp only [beq_self_eq_true, if_true]
  omega

theorem countsFit_firstFit (expected : List Expected) (actual : List PrioritizedFinding) :
    CountsFit rules expected actual (firstFitCounts rules expected actual) := by
  obtain ⟨hle, hleft⟩ := firstFit_lengths rules expected actual
  refine ⟨?_, ?_, matching_firstFit expected actual, fun n h => h.le_two_mul_firstFitCount,
    fun hshared n h => h.le_firstFitCount hshared⟩
  · exact Nat.add_sub_cancel' hle
  · simp only [firstFitCounts]
    omega

/-- Where expectations that share a finding accept the same findings, the listing does not
matter. -/
theorem firstFitCounts_perm (hshared : SharedPartners rules.Compatible expected actual)
    {expected' : List Expected} {actual' : List PrioritizedFinding}
    (hexpected : expected.Perm expected') (hactual : actual.Perm actual') :
    firstFitCounts rules expected' actual' = firstFitCounts rules expected actual := by
  simp only [firstFitCounts, firstFitCount_perm hshared hexpected hactual, hexpected.length_eq,
    hactual.length_eq]

end Fit

/-! ## The two matchers -/

def ScoreSummary.counts (s : ScoreSummary) : Counts :=
  ⟨s.truePositiveCount, s.falsePositiveCount, s.falseNegativeCount⟩

def LeakageScoreSummary.counts (s : LeakageScoreSummary) : Counts :=
  ⟨s.truePositiveCount, s.falsePositiveCount, s.falseNegativeCount⟩

theorem count_map_eq {Pair : Type} (matchType : Pair → MatchType) (t : MatchType)
    (pairs : List Pair) :
    (pairs.map matchType).count t = (pairs.filter (matchType · = t)).length := by
  rw [count_eq_countP, countP_map, countP_eq_length_filter]
  rfl

theorem score_counts (text : Text) (pairs : List MatchedPair) :
    (score text pairs).counts = countTypes (pairs.map (·.matchType)) := by
  simp only [score, ScoreSummary.counts, countTypes, count_map_eq]

theorem scoreLeakage_counts (pairs : List LeakageMatchedPair) :
    (scoreLeakage pairs).counts = countTypes (pairs.map (·.matchType)) := by
  simp only [scoreLeakage, LeakageScoreSummary.counts, countTypes, count_map_eq]

theorem labelled_findingRules (text : Text) (registry : FamilyRegistry)
    (labels : UUID → List String) :
    Labelled (findingRules text registry labels) (·.matchType) fun p => (p.expected, p.actual) where
  missed {expected keys pair} h := by
    obtain ⟨sorted, -, h⟩ := bind_eq_ok.1 h
    obtain rfl := ok.inj h
    exact ⟨rfl, rfl⟩
  found _ _ _ := ⟨rfl, rfl⟩

theorem labelled_leakageRules (registry : FamilyRegistry) :
    Labelled (leakageRules registry) (·.matchType) fun p => (p.expected, p.actual) where
  missed {expected keys pair} h := by
    obtain rfl := ok.inj h
    exact ⟨rfl, rfl⟩
  found _ _ _ := ⟨rfl, rfl⟩

variable {actual : List PrioritizedFinding} {registry : FamilyRegistry}

theorem matchFindings_counts {text : Text} {labels : UUID → List String}
    {expected : List ValidationExpectedFinding} {pairs : List MatchedPair}
    (h : matchFindings text registry labels expected actual = .ok pairs) :
    (score text pairs).counts =
      firstFitCounts (findingRules text registry labels) expected actual := by
  obtain ⟨⟨matched, left⟩, hloop, h⟩ := bind_eq_ok.1 h
  obtain rfl := ok.inj h
  rw [score_counts, ← countTypes_matchLoop (labelled_findingRules text registry labels) hloop,
    map_append, map_map]
  rfl

theorem matchLeakage_counts {leakage : List ValidationLeakageTruth}
    {pairs : List LeakageMatchedPair} (h : matchLeakage registry leakage actual = .ok pairs) :
    (scoreLeakage pairs).counts =
      if leakage = [] then ⟨0, 0, 0⟩ else firstFitCounts (leakageRules registry) leakage actual := by
  cases leakage with
  | nil =>
    obtain rfl := ok.inj h
    rfl
  | cons x leakage =>
    obtain ⟨⟨matched, left⟩, hloop, h⟩ := bind_eq_ok.1 h
    obtain rfl := ok.inj h
    rw [if_neg (cons_ne_nil _ _), scoreLeakage_counts,
      ← countTypes_matchLoop (labelled_leakageRules registry) hloop, map_append, map_map]
    rfl

/-- The counts of both scores fit their matchings, and listings do not change them where
expectations that share a finding accept the same findings. Without leakage truth nothing is
counted. -/
theorem scores_fit {text : Text} {registry : FamilyRegistry} {labels : UUID → List String}
    {expected : List ValidationExpectedFinding} {leakage : List ValidationLeakageTruth}
    {actual : List PrioritizedFinding} {pairs : List MatchedPair}
    {leakagePairs : List LeakageMatchedPair}
    (hfindings : matchFindings text registry labels expected actual = .ok pairs)
    (hleakage : matchLeakage registry leakage actual = .ok leakagePairs) :
    (CountsFit (findingRules text registry labels) expected actual (score text pairs).counts ∧
      (SharedPartners (findingRules text registry labels).Compatible expected actual →
        ∀ expected' actual' pairs', expected.Perm expected' → actual.Perm actual' →
          matchFindings text registry labels expected' actual' = .ok pairs' →
          (score text pairs').counts = (score text pairs).counts)) ∧
    (leakage = [] → (scoreLeakage leakagePairs).counts = ⟨0, 0, 0⟩) ∧
    (leakage ≠ [] →
      CountsFit (leakageRules registry) leakage actual (scoreLeakage leakagePairs).counts ∧
      (SharedPartners (leakageRules registry).Compatible leakage actual →
        ∀ leakage' actual' pairs', leakage.Perm leakage' → actual.Perm actual' →
          matchLeakage registry leakage' actual' = .ok pairs' →
          (scoreLeakage pairs').counts = (scoreLeakage leakagePairs).counts)) := by
  refine ⟨⟨?_, ?_⟩, ?_, fun hne => ⟨?_, ?_⟩⟩
  · rw [matchFindings_counts hfindings]
    exact countsFit_firstFit expected actual
  · intro hshared expected' actual' pairs' hexpected hactual hok
    rw [matchFindings_counts hfindings, matchFindings_counts hok]
    exact firstFitCounts_perm hshared hexpected hactual
  · intro hempty
    rw [matchLeakage_counts hleakage, if_pos hempty]
  · rw [matchLeakage_counts hleakage, if_neg hne]
    exact countsFit_firstFit leakage actual
  · intro hshared leakage' actual' pairs' hperm hactual hok
    have hne' : leakage' ≠ [] := fun hempty => hne (hempty ▸ hperm).eq_nil
    rw [matchLeakage_counts hleakage, matchLeakage_counts hok, if_neg hne, if_neg hne']
    exact firstFitCounts_perm hshared hperm hactual

/-! ## Two listings -/

namespace Listings

def text : Text where
  ofJson _ := ""
  lower := id
  strip := id
  isUpper _ := true
  decimal _ := none

/-- An entity of the ground truth. -/
def pump (key : String) : Json := .obj [("entity_type", .str "asset"), ("canonical_key", .str key)]

def expects (code : String) (keys : List String) : ValidationExpectedFinding :=
  { expectedFindingCode := code, domain := some "maintenance", severity := "high"
    entities := keys.map pump, evidenceRefs := [], expectedEconomicImpact := none
    expectedDetectionFamily := none }

def leaks (code : String) (keys : List String) : ValidationLeakageTruth :=
  { truthLeakageId := code, entities := keys.map pump
    detectionFamily := some "MAINTENANCE_ECONOMICS", trueLeakageValue := none
    recoverableValue := none, currency := none }

def production (id : UUID) (key : String) : PrioritizedFinding :=
  { finding := ⟨id, "MAINT-001-REPEATED-FAILURE", "high", [⟨"asset", key⟩]⟩
    impactedDomains := ["maintenance"], observedValuesByCurrency := [] }

def findings : List PrioritizedFinding := [production 1 "P-1", production 2 "P-2"]

theorem exists_pairs {α : Type} {x : Except MatchError α} (h : x.isOk = true) : ∃ a, x = .ok a := by
  cases x with
  | ok a => exact ⟨a, rfl⟩
  | error e => cases h

/-- Both pumps are reported. When the expectation that accepts both comes first, it takes the
finding that the other one needs. -/
theorem not_listing_free : ¬ ∀ (text : Text) (registry : FamilyRegistry)
    (labels : UUID → List String) (expected expected' : List ValidationExpectedFinding)
    (actual : List PrioritizedFinding) (pairs pairs' : List MatchedPair),
    expected.Perm expected' → matchFindings text registry labels expected actual = .ok pairs →
    matchFindings text registry labels expected' actual = .ok pairs' →
    (score text pairs).counts = (score text pairs').counts := by
  intro h
  obtain ⟨pairs, hpairs⟩ := exists_pairs (x := matchFindings text [] (fun _ => [])
    [expects "both" ["P-1", "P-2"], expects "one" ["P-1"]] findings) (by decide +kernel)
  obtain ⟨pairs', hpairs'⟩ := exists_pairs (x := matchFindings text [] (fun _ => [])
    [expects "one" ["P-1"], expects "both" ["P-1", "P-2"]] findings) (by decide +kernel)
  have hcounts := h text [] (fun _ => []) _ _ findings pairs pairs' (List.Perm.swap _ _ _) hpairs
    hpairs'
  rw [matchFindings_counts hpairs, matchFindings_counts hpairs'] at hcounts
  revert hcounts
  decide +kernel

/-- One expectation and one leakage of the same pump: the counts fit. -/
theorem scores_fit_pump : ∃ pairs leakagePairs,
    CountsFit (findingRules text defaultFamilyMappingRegistry fun _ => []) [expects "one" ["P-1"]]
        findings (score text pairs).counts ∧
      CountsFit (leakageRules defaultFamilyMappingRegistry) [leaks "one" ["P-1"]] findings
        (scoreLeakage leakagePairs).counts := by
  obtain ⟨pairs, hpairs⟩ := exists_pairs (x := matchFindings text defaultFamilyMappingRegistry
    (fun _ => []) [expects "one" ["P-1"]] findings) (by decide +kernel)
  obtain ⟨leakagePairs, hleakage⟩ := exists_pairs (x := matchLeakage defaultFamilyMappingRegistry
    [leaks "one" ["P-1"]] findings) (by decide +kernel)
  have hfit := scores_fit hpairs hleakage
  exact ⟨pairs, leakagePairs, hfit.1.1, (hfit.2.2 (cons_ne_nil _ _)).1⟩

end Listings

end Intel4Ops.GroundTruth
