import Intel4Ops.Semantic.Confidence

/-!
# Corroboration of proposals

Proposals of a provider compete with candidates that have evidence of their own. They never raise
the confidence of a concept that has such evidence and are never accepted without any; a concept
that only a provider proposes may still win the ranking, but then as one to be flagged.
-/

namespace Intel4Ops.Semantic

open Lib List

/-! ## Candidates with evidence of their own -/

theorem bestWeights_of_nodup {evidence : List Evidence}
    (h : (evidence.map (·.componentType)).Nodup) (hweight : ∀ e ∈ evidence, 0 ≤ e.weight) :
    bestWeights evidence = (evidence.map (·.weight)).sum := by
  rw [bestWeights, firsts_of_nodup h, map_map]
  congr 1
  refine map_congr_left ?_
  intro e he
  rw [Function.comp_apply, group_of_nodup h he]
  exact max_eq_right (hweight e he)

variable {c : Candidate} {others : List Candidate}

theorem Independent.evidence_ne_nil (h : Independent c) : c.evidence ≠ [] := by
  cases h with
  | aliasMatch | neighbor | sibling | crossDataset => exact cons_ne_nil _ _

theorem Independent.not_isAi (h : Independent c) : ∀ e ∈ c.evidence, e.isAi = false := by
  cases h with
  | aliasMatch dataset field concept describe patterns roles datatypes rank =>
    cases patterns <;> cases roles <;> cases datatypes <;>
      simp [aliasCandidate, aliasEvidence, Evidence.isAi]
  | neighbor => simp [neighborCandidate, singleCandidate, Evidence.isAi]
  | sibling => simp [siblingCandidate, singleCandidate, Evidence.isAi]
  | crossDataset => simp [crossDatasetCandidate, singleCandidate, Evidence.isAi]

theorem Independent.confidence_eq (h : Independent c) :
    c.confidence = min (98 / 100) (bestWeights c.evidence) := by
  rw [bestWeights_of_nodup]
  · cases h with
    | aliasMatch dataset field concept describe patterns roles datatypes rank =>
      cases patterns <;> cases roles <;> cases datatypes <;>
        norm_num [aliasCandidate, aliasEvidence]
    | neighbor => norm_num [neighborCandidate, singleCandidate]
    | sibling => norm_num [siblingCandidate, singleCandidate]
    | crossDataset => norm_num [crossDatasetCandidate, singleCandidate]
  · cases h with
    | aliasMatch dataset field concept describe patterns roles datatypes rank =>
      cases patterns <;> cases roles <;> cases datatypes <;>
        simp [aliasCandidate, aliasEvidence]
    | neighbor | sibling | crossDataset => exact nodup_singleton _
  · cases h with
    | aliasMatch dataset field concept describe patterns roles datatypes rank =>
      cases patterns <;> cases roles <;> cases datatypes <;>
        norm_num [aliasCandidate, aliasEvidence]
    | neighbor => norm_num [neighborCandidate, singleCandidate]
    | sibling => norm_num [siblingCandidate, singleCandidate]
    | crossDataset => norm_num [crossDatasetCandidate, singleCandidate]

theorem AiProposed.evidence_ne_nil (h : AiProposed c) : c.evidence ≠ [] := by
  cases h
  exact cons_ne_nil _ _

theorem AiProposed.isAi (h : AiProposed c) : ∀ e ∈ c.evidence, e.isAi = true := by
  cases h
  simp [aiCandidate, singleCandidate, Evidence.isAi]

/-! ## Merged candidates -/

theorem mergeGroup_evidence (concept : String) (candidates : List Candidate) :
    (mergeGroup concept candidates).evidence = candidates.flatMap (·.evidence) := by
  unfold mergeGroup
  split
  · simp
  · rfl

theorem mergeGroup_concept (candidates : List Candidate) (concept : String) :
    (mergeGroup concept (candidatesFor candidates concept)).concept = concept := by
  unfold mergeGroup
  split
  · rename_i c hc
    have hmem : c ∈ candidatesFor candidates concept := hc ▸ mem_singleton_self c
    exact (mem_group.1 hmem).2
  · rfl

theorem mergeGroup_confidence (concept : String) {given proposed : List Candidate}
    (hgiven : ∀ c ∈ given, Independent c) (hproposed : ∀ c ∈ proposed, AiProposed c)
    (hne : given ≠ []) :
    (mergeGroup concept (given ++ proposed)).confidence =
      min (98 / 100) (bestWeights (given.flatMap (·.evidence))) := by
  have hindependent : ((given ++ proposed).flatMap (·.evidence)).filter (!·.isAi) =
      given.flatMap (·.evidence) := by
    rw [flatMap_append, filter_append, filter_eq_self.2, filter_eq_nil_iff.2, append_nil]
    · intro e he
      obtain ⟨c, hc, he⟩ := mem_flatMap.1 he
      simp [(hproposed c hc).isAi e he]
    · intro e he
      obtain ⟨c, hc, he⟩ := mem_flatMap.1 he
      simp [(hgiven c hc).not_isAi e he]
  obtain ⟨c, rest, rfl⟩ := exists_cons_of_ne_nil hne
  have hc := hgiven c (mem_cons_self ..)
  have hevidence : (c :: rest).flatMap (·.evidence) ≠ [] := by
    rw [flatMap_cons]
    exact append_ne_nil_of_left_ne_nil hc.evidence_ne_nil _
  unfold mergeGroup
  split
  · -- a single candidate keeps its own confidence
    rename_i d hd
    rw [cons_append] at hd
    obtain ⟨rfl, hnil⟩ := List.cons.inj hd
    obtain ⟨rfl, -⟩ := append_eq_nil_iff.1 hnil
    rw [hc.confidence_eq]
    simp
  · simp only [mergedConfidence, hindependent, if_pos hevidence]

/-! ## Ranking -/

theorem mem_mergeCandidates {candidates : List Candidate} {m : Candidate} :
    m ∈ mergeCandidates candidates ↔ ∃ concept ∈ candidates.map (·.concept),
      m = mergeGroup concept (candidatesFor candidates concept) := by
  simp only [mergeCandidates, concepts, mem_map, mem_firsts, eq_comm]

theorem mergeCandidates_nodup (candidates : List Candidate) :
    (mergeCandidates candidates).Nodup := by
  refine Nodup.map_on ?_ (nodup_firsts _)
  intro k _ l _ heq
  rw [← mergeGroup_concept candidates k, ← mergeGroup_concept candidates l, heq]

theorem le_of_rankCandidates {candidates : List Candidate} {best : Candidate}
    (h : rankCandidates candidates = best :: others) (hc : c ∈ candidates) :
    c.confidence ≤ best.confidence := by
  have hsorted : (rankCandidates candidates).Pairwise (fun a b => b.confidence ≤ a.confidence) := by
    have : Std.Total (fun a b : Candidate => b.confidence ≤ a.confidence) :=
      ⟨fun a b => le_total b.confidence a.confidence⟩
    have : IsTrans Candidate (fun a b => b.confidence ≤ a.confidence) :=
      ⟨fun a b c hab hbc => le_trans hbc hab⟩
    exact pairwise_insertionSort _ _
  have hmem : c ∈ rankCandidates candidates := (mem_insertionSort _).2 hc
  rw [h] at hsorted hmem
  rcases mem_cons.1 hmem with rfl | hmem
  · exact le_rfl
  · exact (pairwise_cons.1 hsorted).1 c hmem

theorem lt_of_rankCandidates {candidates : List Candidate} {best : Candidate}
    (h : rankCandidates candidates = best :: others) (hnodup : candidates.Nodup)
    (hbefore : [c, best].Sublist candidates) : c.confidence < best.confidence := by
  have hc : c ∈ candidates := hbefore.subset (mem_cons_self ..)
  refine lt_of_le_of_ne (le_of_rankCandidates h hc) ?_
  intro heq
  have : Std.Total (fun a b : Candidate => b.confidence ≤ a.confidence) :=
    ⟨fun a b => le_total b.confidence a.confidence⟩
  have : IsTrans Candidate (fun a b => b.confidence ≤ a.confidence) :=
    ⟨fun a b c hab hbc => le_trans hbc hab⟩
  have hsorted : [c, best].Sublist (rankCandidates candidates) :=
    pair_sublist_insertionSort heq.ge hbefore
  have hnodup' : (rankCandidates candidates).Nodup := (perm_insertionSort _ _).nodup_iff.2 hnodup
  rw [h] at hsorted hnodup'
  -- the best candidate is the first one, so nothing stands before it
  cases hsorted with
  | cons _ hsub | cons_cons _ hsub => exact (nodup_cons.1 hnodup').1 (hsub.subset (by simp))

/-! ## Reconciliation -/

def conceptConfidence (candidates : List Candidate) (concept : String) : ℚ :=
  (mergeGroup concept (candidatesFor candidates concept)).confidence

/-- Proposals next to candidates with evidence of their own: what the decision on both owes to the
latter. -/
structure ProposalsCapped (dataset field : String) (thresholds : Thresholds)
    (given proposed : List Candidate) : Prop where
  /-- Nothing is accepted on proposals alone. -/
  accepted : (reconcile dataset field (given ++ proposed) thresholds).status = .autoAccepted →
    ∃ c ∈ given ++ proposed,
      (reconcile dataset field (given ++ proposed) thresholds).selectedConcept = some c.concept ∧
        ∃ e ∈ c.evidence, e.isAi = false
  /-- A proposal does not raise the confidence of a concept with evidence of its own. -/
  confidence : ∀ concept ∈ concepts given,
    conceptConfidence (given ++ proposed) concept ≤ conceptConfidence given concept
  /-- The confidence of the decision is that of the concept it selects. -/
  selected : ∀ concept,
    (reconcile dataset field (given ++ proposed) thresholds).selectedConcept = some concept →
      (reconcile dataset field (given ++ proposed) thresholds).confidence =
        conceptConfidence (given ++ proposed) concept
  /-- A concept that is only proposed is flagged, and wins by a higher confidence only. -/
  outranked : ∀ concept,
    (reconcile dataset field (given ++ proposed) thresholds).selectedConcept = some concept →
      concept ∉ concepts given →
        (reconcile dataset field (given ++ proposed) thresholds).status ≠ .autoAccepted ∧
          ∀ other ∈ concepts given, conceptConfidence given other <
            (reconcile dataset field (given ++ proposed) thresholds).confidence

/-- A decision that selects a concept is made for the best of the merged candidates. -/
theorem reconcile_selected {dataset field concept : String} {thresholds : Thresholds}
    {candidates : List Candidate}
    (h : (reconcile dataset field candidates thresholds).selectedConcept = some concept) :
    ∃ others, rankCandidates (mergeCandidates candidates) =
        mergeGroup concept (candidatesFor candidates concept) :: others ∧
      concept ∈ candidates.map (·.concept) ∧
      (reconcile dataset field candidates thresholds).confidence =
        conceptConfidence candidates concept ∧
      (reconcile dataset field candidates thresholds).status =
        reconciledStatus thresholds (mergeGroup concept (candidatesFor candidates concept))
          others := by
  cases hranked : rankCandidates (mergeCandidates candidates) with
  | nil =>
    simp only [reconcile, hranked] at h
    cases h
  | cons best others =>
    simp only [reconcile, hranked] at h ⊢
    have hbest : best ∈ mergeCandidates candidates := by
      have hmem : best ∈ rankCandidates (mergeCandidates candidates) := by
        rw [hranked]
        exact mem_cons_self ..
      exact (mem_insertionSort _).1 hmem
    obtain ⟨k, hk, rfl⟩ := mem_mergeCandidates.1 hbest
    rw [mergeGroup_concept] at h
    obtain rfl := Option.some.inj h
    exact ⟨others, rfl, hk, rfl, rfl⟩

theorem reconciledStatus_eq_autoAccepted {thresholds : Thresholds} {best : Candidate}
    (h : reconciledStatus thresholds best others = .autoAccepted) : isAiOnly best = false := by
  by_contra hai
  simp only [Bool.not_eq_false] at hai
  simp only [reconciledStatus, hai, or_true, and_true] at h
  split at h
  · cases h
  · exact absurd h ‹_›

theorem pair_sublist_mergeCandidates {given proposed : List Candidate} {k l : String}
    (hk : k ∈ concepts given) (hl : l ∉ concepts given)
    (hl' : l ∈ (given ++ proposed).map (·.concept)) :
    [mergeGroup k (candidatesFor (given ++ proposed) k),
      mergeGroup l (candidatesFor (given ++ proposed) l)].Sublist
        (mergeCandidates (given ++ proposed)) := by
  have hpair : [k, l].Sublist (concepts (given ++ proposed)) := by
    rw [concepts, map_append, firsts_append]
    have hfirst : [k].Sublist (concepts given) := singleton_sublist.2 hk
    refine hfirst.append (singleton_sublist.2 ?_)
    rw [concepts, mem_firsts] at hl
    rw [map_append, mem_append] at hl'
    refine mem_filter.2 ⟨mem_firsts.2 (hl'.resolve_left hl), ?_⟩
    simpa using hl
  exact hpair.map fun concept => mergeGroup concept (candidatesFor (given ++ proposed) concept)

namespace ContradictedProposal

/-- An alias match with a value pattern and a dataset role. -/
def technician : Candidate :=
  aliasCandidate "ds" "f" "technician_id" (fun _ => "") true true false 0

/-- A confident proposal of another concept. -/
def customer : Candidate := aiCandidate "openai:gpt-test" "ds" "f" "customer_id" "" (90 / 100)

theorem technician_independent : ∀ c ∈ [technician], Independent c := by
  intro c hc
  rw [mem_singleton.1 hc]
  exact .aliasMatch ..

theorem customer_proposed : ∀ c ∈ [customer], AiProposed c := by
  intro c hc
  rw [mem_singleton.1 hc]
  exact .proposal _ _ _ _ _ _ (by norm_num) (by norm_num)

end ContradictedProposal

end Intel4Ops.Semantic
