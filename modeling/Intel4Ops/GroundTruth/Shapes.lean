import Intel4Ops.GroundTruth.Scores

/-!
# Ground-truth validation: the shapes that can be scored

The normalizer copies the elements of an `entities` list as they are, and the integrity check does
not look at them. Matching takes a key from each element, and an expectation that nothing matches
sorts its keys. An accepted package can be scored against every list of production findings exactly
when every element is an object with scalar parts and the keys of each list can be compared.
-/

namespace Intel4Ops.GroundTruth

open Lib List

/-- The elements have keys (they are objects whose type and key are scalars or missing), and the
keys can be compared. -/
def WellShaped (entities : List Json) : Prop :=
  ∃ keys, entities.mapM entityKey = .ok keys ∧ ∀ a ∈ keys, ∀ b ∈ keys, ComparableKeys a b

/-! ## When the loop raises -/

section Loop

variable {Expected Pair : Type} {rules : Rules Expected Pair}

theorem matchLoop_isOk {expected : List Expected} (hkeys : ∀ e ∈ expected,
      ∃ keys, entityKeys (rules.entities e) = .ok keys ∧ ∃ pair, rules.missed e keys = .ok pair)
    (actual : List PrioritizedFinding) :
    ∃ result, matchLoop rules expected actual = .ok result := by
  induction expected generalizing actual with
  | nil => exact ⟨_, rfl⟩
  | cons e rest ih =>
    obtain ⟨keys, hkeysOf, pair, hpair⟩ := hkeys e mem_cons_self
    have hrest := ih fun e' he' => hkeys e' (mem_cons_of_mem _ he')
    unfold matchLoop
    simp only [hkeysOf, ok_bind]
    split
    case h_1 =>
      obtain ⟨result, hloop⟩ := hrest actual
      simp only [hpair, hloop, ok_bind]
      exact ⟨_, rfl⟩
    case h_2 found _ =>
      obtain ⟨result, hloop⟩ := hrest (actual.erase found)
      simp only [hloop, ok_bind]
      exact ⟨_, rfl⟩

theorem matchLoop_nil_ok {expected : List Expected}
    {result : List Pair × List PrioritizedFinding}
    (h : matchLoop rules expected [] = .ok result) : ∀ e ∈ expected,
      ∃ keys, entityKeys (rules.entities e) = .ok keys ∧ ∃ pair, rules.missed e keys = .ok pair := by
  induction expected generalizing result with
  | nil => exact fun _ he => absurd he not_mem_nil
  | cons e rest ih =>
    unfold matchLoop at h
    obtain ⟨keys, hkeys, h⟩ := bind_eq_ok.1 h
    obtain ⟨pair, hpair, h⟩ := bind_eq_ok.1 h
    obtain ⟨result', hloop, -⟩ := bind_eq_ok.1 h
    intro e' he'
    rcases mem_cons.1 he' with rfl | he'
    · exact ⟨keys, hkeys, pair, hpair⟩
    · exact ih hloop e' he'

end Loop

theorem wellShaped_iff (expected : ValidationExpectedFinding) : WellShaped expected.entities ↔
    ∃ keys, entityKeys expected.entities = .ok keys ∧
      ∃ pair, falseNegative expected keys = .ok pair := by
  simp only [WellShaped, entityKeys, falseNegative, sortKeys, bind_eq_ok, ensure_eq_ok, pure_eq_ok]
  constructor
  · rintro ⟨keys, hkeys, hcomparable⟩
    refine ⟨keys.dedup, ⟨keys, hkeys, rfl⟩, _, _, ⟨(), fun a ha b hb => ?_, rfl⟩, rfl⟩
    exact hcomparable a (mem_dedup.1 ha) b (mem_dedup.1 hb)
  · rintro ⟨_, ⟨keys, hkeys, rfl⟩, _, _, ⟨_, hcomparable, -⟩, -⟩
    refine ⟨keys, hkeys, fun a ha b hb => ?_⟩
    exact hcomparable a (mem_dedup.2 ha) b (mem_dedup.2 hb)

/-! ## Accepted packages -/

/-- The package can be scored: matching its findings against any production findings does not
raise, with any registry and any labels. -/
def Scorable (text : Text) (package : NormalizedPackage) : Prop :=
  ∀ registry labels actual, ∃ pairs,
    matchFindings text registry labels (package.expectedFindings.map (·.persisted)) actual =
      .ok pairs

theorem normalizeFindings_ok {text : Text} {index : ℕ} {seenCodes : List String} {raw : List Json}
    {findings : List NormalizedExpectedFinding}
    (h : normalizeFindings text index seenCodes raw = .ok findings) :
    (findings.map (·.truthFindingId)).Nodup ∧
      ∀ f ∈ findings, f.truthFindingId ∉ seenCodes ∧ f.linkedLeakageId = none := by
  induction raw generalizing index seenCodes findings with
  | nil =>
    obtain rfl := Except.ok.inj h
    exact ⟨List.nodup_nil, fun _ hf => absurd hf not_mem_nil⟩
  | cons x raw ih =>
    obtain ⟨finding, hfinding, h⟩ := bind_eq_ok.1 h
    obtain ⟨rest, hrest, h⟩ := bind_eq_ok.1 h
    obtain rfl := Except.ok.inj h
    obtain ⟨hnodup, hall⟩ := ih hrest
    have hnew : finding.truthFindingId ∉ seenCodes ∧ finding.linkedLeakageId = none := by
      cases x with
      | obj fields =>
        simp only [normalizeFinding, bind_eq_ok, ensure_eq_ok, pure_eq_ok] at hfinding
        obtain ⟨code, -, _, hcode, _, -, _, -, _, -, _, -, _, -, rfl⟩ := hfinding
        exact ⟨hcode, rfl⟩
      | _ => cases hfinding
    constructor
    · rw [map_cons, nodup_cons]
      refine ⟨fun hmem => ?_, hnodup⟩
      obtain ⟨f, hf, hcode⟩ := mem_map.1 hmem
      exact (hall f hf).1 (hcode ▸ mem_cons_self)
    · intro f hf
      rcases mem_cons.1 hf with rfl | hf
      · exact hnew
      · exact ⟨fun hseen => (hall f hf).1 (mem_cons_of_mem _ hseen), (hall f hf).2⟩

theorem checkDuplicates_of_nodup {ids : List String} (h : ids.Nodup) (documentRole : String) :
    checkDuplicates ids documentRole = [] := by
  have hnone : ids.filter (fun id => 1 < ids.count id) = [] := by
    rw [filter_eq_nil_iff]
    intro id _ hcount
    have hle := nodup_iff_count_le_one.1 h id
    exact absurd (of_decide_eq_true hcount) (by omega)
  rw [checkDuplicates, hnone]
  rfl

theorem integrity_of_normalized {text : Text} {payload : List (String × Json)}
    {package : NormalizedPackage} (h : normalizeGroundTruth text payload = .ok package) :
    ∀ issue ∈ validatePackageIntegrity text package, issue.severity ≠ .error := by
  simp only [normalizeGroundTruth, bind_eq_ok, pure_eq_ok] at h
  obtain ⟨raw, -, findings, hfindings, cleanAreas, -, tolerance, -, rfl⟩ := h
  obtain ⟨hnodup, hall⟩ := normalizeFindings_ok hfindings
  have hdangling : findings.filter
      (fun f => decide (Dangling ([] : List String) f.linkedLeakageId)) = [] := by
    rw [filter_eq_nil_iff]
    intro f hf hdangling
    obtain ⟨id, hid, -⟩ := of_decide_eq_true hdangling
    rw [(hall f hf).2] at hid
    cases hid
  intro issue hissue
  simp only [validatePackageIntegrity, checkDuplicates_of_nodup hnodup, map_nil,
    checkDuplicates_of_nodup List.nodup_nil, hdangling, nil_append, flatMap_nil,
    filter_nil, append_nil, mem_map] at hissue
  obtain ⟨f, -, rfl⟩ := hissue
  intro hseverity
  cases hseverity

namespace Raised

open Listings

def payload (entities : List Json) : List (String × Json) :=
  [("expected_findings", .arr [.obj [("expected_finding_code", .str "EF-1"),
    ("domain", .str "maintenance"), ("severity", .str "high"), ("entities", .arr entities)]])]

end Raised

end Intel4Ops.GroundTruth
