import Intel4Ops.Causal.Confirmed
import Intel4Ops.Lib.DepthFirst
import Mathlib.Data.List.MinMax

/-!
# Chains of causes

The search for cycles among the visible edges, the paths from a root cause to its terminal impact
and the version of a chain that records the path with the highest score. The score multiplies the
confidences of the edges in decimal arithmetic of 28 digits, which is exact for up to seven edges.
-/

namespace Intel4Ops.Causal

open Lib Lib.Decimal Lib.DepthFirst List

/-! ## The model -/

structure CausalChain where
  (id organizationId rootCauseNodeId terminalImpactNodeId : UUID)

structure CausalChainVersion where
  (organizationId chainId : UUID)
  versionNumber : ℕ
  edgeIds : List UUID
  pathScore : ℚ
  weakestLinkConfidence : Option ℚ
  occurrenceCount : ℕ
  deriving DecidableEq

/-- The visible edges from a node. -/
def outgoing (db : Db) (org : UUID) : UUID → List CausalEdge := (traverse db org).1

/-- The nodes that have outgoing edges, in the order of their first ones. -/
def outgoingKeys (db : Db) (org : UUID) : List UUID :=
  ((visibleEdges db org).map (·.sourceNodeId)).eraseDups

/-- A depth that the recursions over the graph do not reach. -/
def searchDepth (db : Db) (org : UUID) : ℕ := 2 * (visibleEdges db org).length + 2

/-- `RootCauseRankingService.detect_cycles` -/
def detectCycles (db : Db) (org : UUID) : Option (List (List UUID)) :=
  (search (outgoing db org) (·.targetNodeId) (searchDepth db org) (outgoingKeys db org)).map
    (·.cycles)

/-- `RootCauseRankingService.find_paths`; the set of visited nodes that it passes along is never
read. -/
def findPaths (db : Db) (org root terminal : UUID) :
    Option (Except CausalError (List (List CausalEdge))) :=
  (detectCycles db org).bind fun cycles =>
    if cycles = [] then
      (walk (outgoing db org) (·.targetNodeId) terminal (searchDepth db org) root [] []).map .ok
    else some (.error (fail "cycle_detected" "a cycle was detected among confirmed causal edges"))

def missingConfidence (edge : CausalEdge) : CausalError :=
  fail "missing_edge_confidence" ("causal edge " ++ toString edge.id ++
    " cannot be ranked without calculated confidence") 409

/-- One more edge: the score so far and the least confidence so far. -/
def scoreStep (scored : ℚ × Option ℚ) (edge : CausalEdge) : Except CausalError (ℚ × Option ℚ) := do
  let weight ← orFail edge.confidenceScore (missingConfidence edge)
  return (context (scored.1 * weight),
    some (scored.2.elim weight fun weakest => if weight < weakest then weight else weakest))

/-- `RootCauseRankingService.score_path` -/
def scorePath (path : List CausalEdge) : Except CausalError (ℚ × Option ℚ) :=
  path.foldlM scoreStep (1, none)

/-- The first of the paths with the highest score. -/
def bestPath (paths : List (List CausalEdge)) : Except CausalError (List CausalEdge) := do
  let scores ← paths.mapM fun path => (scorePath path).map (path, ·.1)
  return ((scores.argmax (·.2)).map (·.1)).getD []

/-- The score and the weakest confidence of the best path, if there is one. -/
def chainScore (best : List CausalEdge) : Except CausalError (ℚ × Option ℚ) :=
  if best = [] then .ok (0, none) else scorePath best

def storedWeakest : Option ℚ → Except CausalError (Option ℚ)
  | none => .ok none
  | some weakest => (orFail (numeric 5 4 weakest) (.dataError "weakest_link_confidence")).map some

def nextVersion (versions : List CausalChainVersion) (chainId : UUID) : ℕ :=
  (((versions.filter (·.chainId = chainId)).map (·.versionNumber)).max?).elim 1 (· + 1)

def recordVersion (versions : List CausalChainVersion) (org : UUID) (chain : CausalChain)
    (best : List CausalEdge) :
    Except CausalError (List CausalChainVersion × CausalChainVersion) := do
  let (score, weakest) ← chainScore best
  let pathScore ← orFail (numeric 12 10 score) (.dataError "path_score")
  let weakestLinkConfidence ← storedWeakest weakest
  let version : CausalChainVersion :=
    { organizationId := org, chainId := chain.id, versionNumber := nextVersion versions chain.id
      edgeIds := best.map (·.id), pathScore, weakestLinkConfidence
      occurrenceCount := best.length }
  return (versions ++ [version], version)

/-- `RootCauseRankingService.compute_chain_version` -/
def computeChainVersion (db : Db) (versions : List CausalChainVersion) (org : UUID)
    (chain : CausalChain) :
    Option (Except CausalError (List CausalChainVersion × CausalChainVersion)) :=
  (findPaths db org chain.rootCauseNodeId chain.terminalImpactNodeId).map fun found => do
    let paths ← found
    let best ← bestPath paths
    recordVersion versions org chain best

/-! ## The graph -/

/-- The edges have identifiers of their own, and their confidences fit the column. -/
structure EdgesStored (db : Db) : Prop where
  ids : Table.Unique (·.id) db.edges
  scores : ∀ e ∈ db.edges, ∀ score ∈ e.confidenceScore, IsScore score

section

variable {db : Db} {org : UUID}

variable {a : UUID}

theorem mem_outgoing {e : CausalEdge} :
    e ∈ outgoing db org a ↔ e ∈ visibleEdges db org ∧ e.sourceNodeId = a := by
  rw [outgoing, traverse, mem_filter, decide_eq_true_iff]

theorem outgoing_nodup (hdb : EdgesStored db) (a : UUID) : (outgoing db org a).Nodup :=
  ((hdb.ids.of_map _).filter _).filter _

/-- The ends of the visible edges, and one more node. -/
def graphNodes (db : Db) (org root : UUID) : Finset UUID :=
  insert root (((visibleEdges db org).map (·.sourceNodeId)).toFinset ∪
    ((visibleEdges db org).map (·.targetNodeId)).toFinset)

theorem graphNodes_closed (root : UUID) :
    Closed (outgoing db org) (·.targetNodeId) (graphNodes db org root) := by
  intro a _ e he
  have htarget : e.targetNodeId ∈ (visibleEdges db org).map (·.targetNodeId) :=
    mem_map_of_mem (mem_outgoing.1 he).1
  exact Finset.mem_insert_of_mem (Finset.mem_union_right _ (mem_toFinset.2 htarget))

theorem card_graphNodes (root : UUID) : (graphNodes db org root).card < searchDepth db org := by
  have hsources := toFinset_card_le ((visibleEdges db org).map (·.sourceNodeId))
  have htargets := toFinset_card_le ((visibleEdges db org).map (·.targetNodeId))
  have hunion := Finset.card_union_le ((visibleEdges db org).map (·.sourceNodeId)).toFinset
    ((visibleEdges db org).map (·.targetNodeId)).toFinset
  have hinsert := Finset.card_insert_le root
    (((visibleEdges db org).map (·.sourceNodeId)).toFinset ∪
      ((visibleEdges db org).map (·.targetNodeId)).toFinset)
  rw [length_map] at hsources htargets
  rw [graphNodes, searchDepth]
  omega

theorem mem_outgoingKeys :
    a ∈ outgoingKeys db org ↔ ∃ e ∈ visibleEdges db org, e.sourceNodeId = a := by
  rw [outgoingKeys, mem_eraseDups, mem_map]

/-- A path of the visible edges. -/
def CausalPath (db : Db) (org : UUID) : UUID → List CausalEdge → UUID → Prop :=
  IsPath (outgoing db org) (·.targetNodeId)

instance CausalPath.decidable (db : Db) (org a : UUID) (path : List CausalEdge) (b : UUID) :
    Decidable (CausalPath db org a path b) :=
  inferInstanceAs (Decidable (IsPath (outgoing db org) (·.targetNodeId) a path b))

/-- The visible edges close no cycle. -/
def AcyclicGraph (db : Db) (org : UUID) : Prop := Acyclic (outgoing db org) (·.targetNodeId)

/-- The search for cycles ends, reports only cycles, and reports none just when there is none. -/
theorem exists_detectCycles (db : Db) (org : UUID) : ∃ cycles, detectCycles db org = some cycles ∧
      (∀ walk ∈ cycles, ClosedWalk (outgoing db org) (·.targetNodeId) walk) ∧
        (cycles = [] ↔ AcyclicGraph db org) := by
  have hkeys : ∀ a ∈ outgoingKeys db org, a ∈ graphNodes db org 0 := by
    intro a ha
    obtain ⟨e, he, rfl⟩ := mem_outgoingKeys.1 ha
    exact Finset.mem_insert_of_mem (Finset.mem_union_left _ (mem_toFinset.2 (mem_map_of_mem he)))
  have hcover : ∀ a, outgoing db org a ≠ [] → a ∈ outgoingKeys db org := by
    intro a ha
    obtain ⟨e, he⟩ := exists_mem_of_ne_nil _ ha
    obtain ⟨hvisible, hsource⟩ := mem_outgoing.1 he
    exact mem_outgoingKeys.2 ⟨e, hvisible, hsource⟩
  obtain ⟨t, ht, hclosed, hacyclic⟩ :=
    exists_search (graphNodes_closed 0) (card_graphNodes 0) hkeys hcover
  refine ⟨t.cycles, ?_, hclosed, hacyclic⟩
  rw [detectCycles, ht]
  rfl

/-- In a graph without cycles the search for paths ends with every path, each once. -/
theorem exists_findPaths (hdb : EdgesStored db) (hacyclic : AcyclicGraph db org)
    (root terminal : UUID) :
    ∃ paths, findPaths db org root terminal = some (.ok paths) ∧ paths.Nodup ∧
      ∀ path, path ∈ paths ↔ path ≠ [] ∧ CausalPath db org root path terminal := by
  obtain ⟨cycles, hcycles, -, hnil⟩ := exists_detectCycles db org
  have hroot : ∀ a ∈ [] ++ [root], a ∈ graphNodes db org root := by
    intro a ha
    rw [mem_singleton.1 ha]
    exact Finset.mem_insert_self _ _
  obtain ⟨found, hfound, hnodup, hmem⟩ := exists_walk (graphNodes_closed root) hacyclic
    (outgoing_nodup hdb) (searchDepth db org) List.nodup_nil hroot (isChain_singleton root)
    (card_graphNodes root) [] []
  refine ⟨found, ?_, hnodup, fun path => ?_⟩
  · rw [findPaths, hcycles, Option.bind_some, if_pos (hnil.2 hacyclic), hfound]
    rfl
  · rw [hmem]
    refine and_congr_right fun _ => ⟨?_, fun hpath => ⟨path, rfl, hpath⟩⟩
    rintro ⟨rest, rfl, hrest⟩
    exact hrest

end

/-! ## Scores -/

/-- The product of numbers in decimal arithmetic of 28 digits. -/
def decimalProduct (weights : List ℚ) : ℚ :=
  weights.foldl (fun score weight => context (score * weight)) 1

/-- The confidences of the edges that have one. -/
def confidences (path : List CausalEdge) : List ℚ := path.filterMap (·.confidenceScore)

def Confident (path : List CausalEdge) : Prop := ∀ e ∈ path, e.confidenceScore ≠ none

section

variable {score weakest : ℚ} {weights : List ℚ} {path : List CausalEdge}

theorem IsScore.hasPlaces (h : IsScore score) : Rounding.HasPlaces 4 score := by
  rw [(numeric_eq_some.1 h.stored).1]
  exact halfUp.hasPlaces_places 4 score

theorem IsScore.exact (h : IsScore score) : Exact score := by
  refine exact_of_hasPlaces h.hasPlaces ?_
  rw [abs_of_nonneg h.nonneg]
  exact h.le_one.trans_lt (by norm_num)

theorem context_mul_bounds (hscore : 0 ≤ score ∧ score ≤ 1 ∧ Exact score) {weight : ℚ}
    (hweight : IsScore weight) :
    0 ≤ context (score * weight) ∧ context (score * weight) ≤ score ∧
      context (score * weight) ≤ weight := by
  obtain ⟨hnonneg, hle, hexact⟩ := hscore
  have hproduct : 0 ≤ score * weight := mul_nonneg hnonneg hweight.nonneg
  refine ⟨context_nonneg hproduct, ?_, ?_⟩
  · exact context_le_of_exact hproduct hexact (mul_le_of_le_one_right hnonneg hweight.le_one)
  · exact context_le_of_exact hproduct hweight.exact (mul_le_of_le_one_left hweight.nonneg hle)

theorem foldl_context_bounds (hscore : 0 ≤ score ∧ score ≤ 1 ∧ Exact score)
    (hweights : ∀ weight ∈ weights, IsScore weight) :
    0 ≤ weights.foldl (fun score weight => context (score * weight)) score ∧
      weights.foldl (fun score weight => context (score * weight)) score ≤ score ∧
        ∀ weight ∈ weights,
          weights.foldl (fun score weight => context (score * weight)) score ≤ weight := by
  induction weights generalizing score with
  | nil => exact ⟨hscore.1, le_rfl, fun _ h => absurd h not_mem_nil⟩
  | cons first weights ih =>
    obtain ⟨hfirst, hweights⟩ := forall_mem_cons.1 hweights
    obtain ⟨hnonneg, hle, hle_first⟩ := context_mul_bounds hscore hfirst
    obtain ⟨hresult, hresult_le, hresult_weights⟩ :=
      ih ⟨hnonneg, hle.trans hscore.2.1, exact_context _⟩ hweights
    refine ⟨hresult, hresult_le.trans hle, fun weight hweight => ?_⟩
    rcases mem_cons.1 hweight with rfl | hweight
    · exact hresult_le.trans hle_first
    · exact hresult_weights weight hweight

theorem exact_one : Exact 1 := by decide +kernel

theorem decimalProduct_bounds (hweights : ∀ weight ∈ weights, IsScore weight) :
    0 ≤ decimalProduct weights ∧ decimalProduct weights ≤ 1 ∧
      ∀ weight ∈ weights, decimalProduct weights ≤ weight :=
  foldl_context_bounds ⟨zero_le_one, le_rfl, exact_one⟩ hweights

theorem foldl_context_eq {places : ℕ} (hplaces : Rounding.HasPlaces (4 * places) score)
    (hscore : 0 ≤ score ∧ score ≤ 1) (hweights : ∀ weight ∈ weights, IsScore weight)
    (hlength : places + weights.length ≤ 7) :
    weights.foldl (fun score weight => context (score * weight)) score =
      score * weights.prod := by
  induction weights generalizing score places with
  | nil => rw [foldl_nil, prod_nil, mul_one]
  | cons first weights ih =>
    obtain ⟨hfirst, hweights⟩ := forall_mem_cons.1 hweights
    rw [length_cons] at hlength
    have hproduct : Rounding.HasPlaces (4 * (places + 1)) (score * first) := by
      obtain ⟨m, hm⟩ := hplaces
      obtain ⟨n, hn⟩ := hfirst.hasPlaces
      refine ⟨m * n, ?_⟩
      rw [hm, hn, Nat.mul_succ, pow_add]
      push_cast
      field_simp
    have hnonneg : 0 ≤ score * first := mul_nonneg hscore.1 hfirst.nonneg
    have hle : score * first ≤ 1 := mul_le_one₀ hscore.2 hfirst.nonneg hfirst.le_one
    have hexact : context (score * first) = score * first := by
      rcases hle.eq_or_lt with hone | hlt
      · rw [hone]
        exact exact_one
      · refine exact_of_hasPlaces hproduct ?_
        rw [abs_of_nonneg hnonneg]
        refine hlt.trans_le (one_le_zpow₀ (by norm_num) ?_)
        push_cast
        omega
    rw [foldl_cons, hexact, ih hproduct ⟨hnonneg, hle⟩ hweights (by omega), prod_cons, mul_assoc]

theorem decimalProduct_eq_prod (hweights : ∀ weight ∈ weights, IsScore weight)
    (hlength : weights.length ≤ 7) : decimalProduct weights = weights.prod := by
  have hplaces : Rounding.HasPlaces (4 * 0) (1 : ℚ) := ⟨1, by norm_num⟩
  rw [decimalProduct, foldl_context_eq hplaces ⟨zero_le_one, le_rfl⟩ hweights (by omega), one_mul]

theorem foldlM_scoreStep (hpath : Confident path) (score : ℚ) (weakest : Option ℚ) :
    path.foldlM scoreStep (score, weakest) =
      .ok ((confidences path).foldl (fun score weight => context (score * weight)) score,
        (weakest.toList ++ confidences path).min?) := by
  induction path generalizing score weakest with
  | nil => cases weakest <;> rfl
  | cons e path ih =>
    obtain ⟨hconfident, hpath⟩ := forall_mem_cons.1 hpath
    obtain ⟨weight, hweight⟩ := Option.ne_none_iff_exists'.1 hconfident
    have hconfidences : confidences (e :: path) = weight :: confidences path :=
      filterMap_cons_some hweight
    have hleast : ∀ least rest, ((some (Option.elim least weight fun weakest =>
        if weight < weakest then weight else weakest)).toList ++ rest : List ℚ).min? =
          (least.toList ++ weight :: rest).min? := by
      intro least rest
      cases least with
      | none => rfl
      | some weakest =>
        have hmin : (if weight < weakest then weight else weakest) = min weakest weight := by
          rw [min_comm, min_def_lt]
        simp only [Option.elim_some, Option.toList_some, singleton_append, List.min?_cons',
          foldl_cons, hmin]
    have hstep : scoreStep (score, weakest) e = .ok (context (score * weight), some
        (weakest.elim weight fun weakest => if weight < weakest then weight else weakest)) := by
      rw [scoreStep, hweight]
      rfl
    rw [foldlM_cons, hstep, ok_bind, ih hpath, hleast, hconfidences, foldl_cons]

theorem scorePath_of_confident (hpath : Confident path) :
    scorePath path = .ok (decimalProduct (confidences path), (confidences path).min?) :=
  foldlM_scoreStep hpath 1 none

theorem scorePath_of_not_confident (hpath : ¬ Confident path) :
    ∃ e ∈ path, e.confidenceScore = none ∧ scorePath path = .error (missingConfidence e) := by
  have hfail : ∀ scored : ℚ × Option ℚ, ∃ e ∈ path, e.confidenceScore = none ∧
      path.foldlM scoreStep scored = .error (missingConfidence e) := by
    induction path with
    | nil => exact absurd (fun e he => absurd he not_mem_nil) hpath
    | cons e path ih =>
      intro scored
      cases hscore : e.confidenceScore with
      | none =>
        refine ⟨e, mem_cons_self, hscore, ?_⟩
        rw [foldlM_cons, scoreStep, hscore]
        rfl
      | some weight =>
        have hrest : ¬ Confident path := by
          intro hrest
          refine hpath (forall_mem_cons.2 ⟨?_, hrest⟩)
          rw [hscore]
          exact Option.some_ne_none weight
        obtain ⟨e', he', hnone, hfail⟩ := ih hrest _
        refine ⟨e', mem_cons_of_mem _ he', hnone, ?_⟩
        rw [foldlM_cons, scoreStep, hscore, orFail_some, ok_bind]
        exact hfail
  exact hfail (1, none)

variable {paths : List (List CausalEdge)}

theorem bestPath_of_confident (hpaths : ∀ path ∈ paths, Confident path) :
    ∃ best, bestPath paths = .ok best ∧ (paths = [] → best = []) ∧
      (paths ≠ [] → best ∈ paths ∧ ∀ path ∈ paths,
        decimalProduct (confidences path) ≤ decimalProduct (confidences best)) := by
  have hscores : paths.mapM (fun path => (scorePath path).map (path, ·.1)) =
      .ok (paths.map fun path => (path, decimalProduct (confidences path))) := by
    refine mapM_eq_map fun path hpath => ?_
    rw [scorePath_of_confident (hpaths path hpath)]
    rfl
  rw [bestPath, hscores, ok_bind]
  cases hbest : (paths.map fun path => (path, decimalProduct (confidences path))).argmax (·.2) with
  | none =>
    have hempty := map_eq_nil_iff.1 (argmax_eq_none.1 hbest)
    exact ⟨[], rfl, fun _ => rfl, fun hne => absurd hempty hne⟩
  | some scored =>
    obtain ⟨best, hmem, rfl⟩ := mem_map.1 (argmax_mem hbest)
    refine ⟨best, rfl, fun hempty => ?_, fun _ => ⟨hmem, fun path hpath => ?_⟩⟩
    · rw [hempty] at hmem
      exact absurd hmem not_mem_nil
    · have hmem' : (path, decimalProduct (confidences path)) ∈
          paths.map fun path => (path, decimalProduct (confidences path)) :=
        mem_map_of_mem hpath
      have hle := le_of_mem_argmax (f := fun scored : List CausalEdge × ℚ => scored.2) hmem' hbest
      exact hle

theorem exists_of_mapM_eq_error {α β γ : Type} {f : α → Except γ β} {as : List α} {e : γ}
    (h : as.mapM f = .error e) : ∃ a ∈ as, f a = .error e := by
  induction as with
  | nil => cases h
  | cons a as ih =>
    rw [mapM_cons, bind_eq_error] at h
    rcases h with h | ⟨b, -, h⟩
    · exact ⟨a, mem_cons_self, h⟩
    · rcases bind_eq_error.1 h with h | ⟨bs, -, h⟩
      · obtain ⟨a', ha', herror⟩ := ih h
        exact ⟨a', mem_cons_of_mem _ ha', herror⟩
      · exact absurd h pure_ne_error

theorem bestPath_of_not_confident (hpath : path ∈ paths) (hmissing : ¬ Confident path) :
    ∃ path ∈ paths, ∃ e ∈ path, e.confidenceScore = none ∧
      bestPath paths = .error (missingConfidence e) := by
  obtain ⟨e, -, -, hfail⟩ := scorePath_of_not_confident hmissing
  have hfail' : (scorePath path).map (path, ·.1) = .error (missingConfidence e) := by
    rw [hfail]
    rfl
  obtain ⟨error, herror⟩ := mapM_eq_error_of_mem
    (f := fun path => (scorePath path).map (path, ·.1)) hpath hfail'
  obtain ⟨first, hfirst, hfirst_error⟩ := exists_of_mapM_eq_error herror
  have hnot : ¬ Confident first := by
    intro hconfident
    rw [scorePath_of_confident hconfident] at hfirst_error
    cases hfirst_error
  obtain ⟨e', he', hnone, hfirst_fail⟩ := scorePath_of_not_confident hnot
  rw [hfirst_fail] at hfirst_error
  obtain rfl := Except.error.inj hfirst_error
  refine ⟨first, hfirst, e', he', hnone, ?_⟩
  rw [bestPath, herror]
  rfl

end

/-! ## Versions -/

section

variable {db : Db} {org : UUID} {versions : List CausalChainVersion} {chain : CausalChain}

/-- The version records a path whose score is the highest, with its least confidence. -/
structure Records (db : Db) (org : UUID) (chain : CausalChain) (version : CausalChainVersion)
    (best : List CausalEdge) : Prop where
  path : best ≠ [] ∧ CausalPath db org chain.rootCauseNodeId best chain.terminalImpactNodeId
  edgeIds : version.edgeIds = best.map (·.id)
  highest : ∀ path ≠ [],
    CausalPath db org chain.rootCauseNodeId path chain.terminalImpactNodeId →
      decimalProduct (confidences path) ≤ decimalProduct (confidences best)
  score : version.pathScore = halfUp.places 10 (decimalProduct (confidences best))
  weakest : version.weakestLinkConfidence = (confidences best).min?
  bounds : ∃ weakest, version.weakestLinkConfidence = some weakest ∧ 0 ≤ version.pathScore ∧
    version.pathScore ≤ weakest

variable {path : List CausalEdge}

variable {a b : UUID}

theorem mem_visibleEdges_of_path (hpath : CausalPath db org a path b) :
    ∀ e ∈ path, e ∈ visibleEdges db org := by
  induction path generalizing a with
  | nil => exact fun e he => absurd he not_mem_nil
  | cons e path ih =>
    exact forall_mem_cons.2 ⟨(mem_outgoing.1 hpath.1).1, ih hpath.2⟩

theorem confidences_isScore (hdb : EdgesStored db) (hpath : CausalPath db org a path b) :
    ∀ weight ∈ confidences path, IsScore weight := by
  intro weight hweight
  obtain ⟨e, he, hscore⟩ := mem_filterMap.1 hweight
  exact hdb.scores e (mem_of_mem_filter (mem_visibleEdges_of_path hpath e he)) weight hscore

theorem recordVersion_nil (org : UUID) : recordVersion versions org chain [] = .ok
      (versions ++ [⟨org, chain.id, nextVersion versions chain.id, [], 0, none, 0⟩],
        ⟨org, chain.id, nextVersion versions chain.id, [], 0, none, 0⟩) := by
  have hzero : numeric 12 10 0 = some 0 := by decide +kernel
  rw [recordVersion, chainScore, if_pos rfl, ok_bind]
  dsimp only
  rw [hzero]
  rfl

theorem exists_recordVersion (versions : List CausalChainVersion) (org : UUID)
    (chain : CausalChain) {best : List CausalEdge} (hne : best ≠ [])
    (hconfident : Confident best) (hscores : ∀ weight ∈ confidences best, IsScore weight) :
    ∃ version weakest,
      recordVersion versions org chain best = .ok (versions ++ [version], version) ∧
      version.edgeIds = best.map (·.id) ∧
      version.pathScore = halfUp.places 10 (decimalProduct (confidences best)) ∧
      version.weakestLinkConfidence = some weakest ∧ (confidences best).min? = some weakest := by
  have hsome : ∃ weakest, (confidences best).min? = some weakest := by
    rw [← Option.ne_none_iff_exists', Ne, List.min?_eq_none_iff]
    obtain ⟨e, he⟩ := exists_mem_of_ne_nil _ hne
    obtain ⟨weight, hweight⟩ := Option.ne_none_iff_exists'.1 (hconfident e he)
    exact ne_nil_of_mem (mem_filterMap.2 ⟨e, he, hweight⟩)
  obtain ⟨weakest, hweakest⟩ := hsome
  have hscore := hscores weakest (List.min?_mem hweakest)
  obtain ⟨hnonneg, hle, -⟩ := decimalProduct_bounds hscores
  have hstored : numeric 12 10 (decimalProduct (confidences best)) =
      some (halfUp.places 10 (decimalProduct (confidences best))) := by
    have hone : halfUp.places 10 1 = 1 := by decide +kernel
    refine numeric_eq_some.2 ⟨rfl, ?_⟩
    rw [abs_of_nonneg (halfUp.places_nonneg hnonneg)]
    exact ((halfUp.places_mono hle).trans_eq hone).trans_lt (by norm_num)
  have hrecord : recordVersion versions org chain best = .ok
      (versions ++ [⟨org, chain.id, nextVersion versions chain.id, best.map (·.id),
        halfUp.places 10 (decimalProduct (confidences best)), some weakest, best.length⟩],
        ⟨org, chain.id, nextVersion versions chain.id, best.map (·.id),
          halfUp.places 10 (decimalProduct (confidences best)), some weakest, best.length⟩) := by
    rw [recordVersion, chainScore, if_neg hne, scorePath_of_confident hconfident, ok_bind]
    dsimp only
    rw [hstored, hweakest, storedWeakest, hscore.stored]
    rfl
  exact ⟨_, weakest, hrecord, rfl, rfl, rfl, hweakest⟩

/-- In a graph without cycles a version records the best path, if every path has all its
confidences. -/
theorem exists_computeChainVersion (hdb : EdgesStored db) (hacyclic : AcyclicGraph db org)
    (versions : List CausalChainVersion)
    (hconfident : ∀ path,
      CausalPath db org chain.rootCauseNodeId path chain.terminalImpactNodeId → Confident path) :
    ∃ version, computeChainVersion db versions org chain =
        some (.ok (versions ++ [version], version)) ∧
      ((∃ path ≠ [], CausalPath db org chain.rootCauseNodeId path chain.terminalImpactNodeId) →
        ∃ best, Records db org chain version best) ∧
      ((¬ ∃ path ≠ [], CausalPath db org chain.rootCauseNodeId path chain.terminalImpactNodeId) →
        version.edgeIds = [] ∧ version.pathScore = 0 ∧ version.weakestLinkConfidence = none) := by
  obtain ⟨paths, hpaths, -, hmem⟩ := exists_findPaths hdb hacyclic chain.rootCauseNodeId
    chain.terminalImpactNodeId
  obtain ⟨best, hbest, hempty, hnonempty⟩ := bestPath_of_confident
    fun path hpath => hconfident path ((hmem path).1 hpath).2
  have hcompute : computeChainVersion db versions org chain =
      some (recordVersion versions org chain best) := by
    rw [computeChainVersion, hpaths, Option.map_some, ok_bind, hbest]
    rfl
  by_cases hnone : paths = []
  · have hno : ¬ ∃ path ≠ [],
        CausalPath db org chain.rootCauseNodeId path chain.terminalImpactNodeId := by
      rintro ⟨path, hpath⟩
      have hin := (hmem path).2 hpath
      rw [hnone] at hin
      exact absurd hin not_mem_nil
    rw [hcompute, hempty hnone, recordVersion_nil]
    exact ⟨_, rfl, fun hsome => absurd hsome hno, fun _ => ⟨rfl, rfl, rfl⟩⟩
  · obtain ⟨hbest_mem, hhighest⟩ := hnonempty hnone
    obtain ⟨hbest_ne, hbest_path⟩ := (hmem best).1 hbest_mem
    have hscores := confidences_isScore hdb hbest_path
    obtain ⟨version, weakest, hrecord, hids, hscore, hweakest, hmin⟩ :=
      exists_recordVersion versions org chain hbest_ne (hconfident best hbest_path) hscores
    rw [hcompute, hrecord]
    refine ⟨version, rfl, fun _ => ⟨best, ⟨hbest_ne, hbest_path⟩, hids, fun path hne hpath => ?_,
      hscore, hweakest.trans hmin.symm, weakest, hweakest, ?_, ?_⟩, fun hno => ?_⟩
    · exact hhighest path ((hmem path).2 ⟨hne, hpath⟩)
    · rw [hscore]
      exact halfUp.places_nonneg (decimalProduct_bounds hscores).1
    · -- the least confidence has ten places, so rounding does not lift the score above it
      have hle := (decimalProduct_bounds hscores).2.2 weakest (List.min?_mem hmin)
      have hplaces : Rounding.HasPlaces 10 weakest := by
        obtain ⟨n, hn⟩ := (hscores weakest (List.min?_mem hmin)).hasPlaces
        refine ⟨n * 10 ^ 6, ?_⟩
        rw [hn]
        push_cast
        field_simp
        norm_num
      rw [hscore]
      exact (halfUp.places_mono hle).trans_eq (halfUp.places_of_hasPlaces hplaces)
    · exact absurd ⟨best, hbest_ne, hbest_path⟩ hno

theorem computeChainVersion_of_missing (hdb : EdgesStored db) (hacyclic : AcyclicGraph db org)
    (versions : List CausalChainVersion) (hne : path ≠ [])
    (hpath : CausalPath db org chain.rootCauseNodeId path chain.terminalImpactNodeId)
    (hmissing : ¬ Confident path) :
    ∃ e ∈ visibleEdges db org, e.confidenceScore = none ∧
      computeChainVersion db versions org chain = some (.error (missingConfidence e)) := by
  obtain ⟨paths, hpaths, -, hmem⟩ := exists_findPaths hdb hacyclic chain.rootCauseNodeId
    chain.terminalImpactNodeId
  obtain ⟨first, hfirst, e, he, hnone, hbest⟩ :=
    bestPath_of_not_confident ((hmem path).2 ⟨hne, hpath⟩) hmissing
  refine ⟨e, mem_visibleEdges_of_path ((hmem first).1 hfirst).2 e he, hnone, ?_⟩
  rw [computeChainVersion, hpaths, Option.map_some, ok_bind, hbest]
  rfl

theorem Records.largest_prod (hdb : EdgesStored db) {version : CausalChainVersion}
    {best : List CausalEdge} (h : Records db org chain version best)
    (hshort : ∀ path, CausalPath db org chain.rootCauseNodeId path chain.terminalImpactNodeId →
      path.length ≤ 7) (hne : path ≠ [])
    (hpath : CausalPath db org chain.rootCauseNodeId path chain.terminalImpactNodeId) :
    (confidences path).prod ≤ (confidences best).prod := by
  have hprod : ∀ {path : List CausalEdge},
      CausalPath db org chain.rootCauseNodeId path chain.terminalImpactNodeId →
        decimalProduct (confidences path) = (confidences path).prod := fun {path} hpath =>
    decimalProduct_eq_prod (confidences_isScore hdb hpath)
      ((length_filterMap_le _ path).trans (hshort path hpath))
  rw [← hprod hpath, ← hprod h.path.2]
  exact h.highest path hne hpath

/-- The searches of the causal graph end and are exact, and a version of a chain records the path
of the highest score, whose product is the largest if no path has more than seven edges. -/
theorem causalChains_exact (db : Db) (hdb : EdgesStored db) (org : UUID) :
    (∃ cycles, detectCycles db org = some cycles ∧
      (∀ walk ∈ cycles, ClosedWalk (outgoing db org) (·.targetNodeId) walk) ∧
        (cycles = [] ↔ AcyclicGraph db org)) ∧
    (AcyclicGraph db org → ∀ root terminal, ∃ paths,
      findPaths db org root terminal = some (.ok paths) ∧ paths.Nodup ∧
        ∀ path, path ∈ paths ↔ path ≠ [] ∧ CausalPath db org root path terminal) ∧
    (AcyclicGraph db org → ∀ (versions : List CausalChainVersion) (chain : CausalChain),
      ((∃ path, CausalPath db org chain.rootCauseNodeId path chain.terminalImpactNodeId ∧
          ¬ Confident path) →
        ∃ e ∈ visibleEdges db org, e.confidenceScore = none ∧
          computeChainVersion db versions org chain = some (.error (missingConfidence e))) ∧
      ((∀ path, CausalPath db org chain.rootCauseNodeId path chain.terminalImpactNodeId →
          Confident path) →
        ∃ version, computeChainVersion db versions org chain =
            some (.ok (versions ++ [version], version)) ∧
          ((¬ ∃ path ≠ [],
              CausalPath db org chain.rootCauseNodeId path chain.terminalImpactNodeId) →
            version.edgeIds = [] ∧ version.pathScore = 0 ∧ version.weakestLinkConfidence = none) ∧
          ((∃ path ≠ [], CausalPath db org chain.rootCauseNodeId path chain.terminalImpactNodeId) →
            ∃ best, Records db org chain version best ∧
              ((∀ path, CausalPath db org chain.rootCauseNodeId path chain.terminalImpactNodeId →
                  path.length ≤ 7) →
                ∀ path ≠ [],
                  CausalPath db org chain.rootCauseNodeId path chain.terminalImpactNodeId →
                    (confidences path).prod ≤ (confidences best).prod)))) := by
  refine ⟨exists_detectCycles db org,
    fun hacyclic root terminal => exists_findPaths hdb hacyclic root terminal,
    fun hacyclic versions chain => ⟨?_, fun hconfident => ?_⟩⟩
  · rintro ⟨path, hpath, hmissing⟩
    have hne : path ≠ [] := by
      rintro rfl
      exact hmissing fun e he => absurd he not_mem_nil
    exact computeChainVersion_of_missing hdb hacyclic versions hne hpath hmissing
  · obtain ⟨version, hversion, hrecords, hnone⟩ :=
      exists_computeChainVersion hdb hacyclic versions hconfident
    refine ⟨version, hversion, hnone, fun hpath => ?_⟩
    obtain ⟨best, hbest⟩ := hrecords hpath
    exact ⟨best, hbest, fun hshort path hne hpath => hbest.largest_prod hdb hshort hne hpath⟩

end

/-! ## Two products in one rounding -/

/-- A version records a path with the largest product of confidences. -/
def RecordsLargest (db : Db) (org : UUID) (chain : CausalChain) : Prop :=
  ∃ version best, computeChainVersion db [] org chain = some (.ok ([version], version)) ∧
    best ≠ [] ∧ CausalPath db org chain.rootCauseNodeId best chain.terminalImpactNodeId ∧
      version.edgeIds = best.map (·.id) ∧
        ∀ path ≠ [], CausalPath db org chain.rootCauseNodeId path chain.terminalImpactNodeId →
          (confidences path).prod ≤ (confidences best).prod

theorem isScore_of_le {n : ℕ} (h : n ≤ 10000) : IsScore ((n : ℚ) / 10000) where
  stored := by
    have hplaces : Rounding.HasPlaces 4 ((n : ℚ) / 10000) := ⟨n, by norm_num⟩
    have hle : (n : ℚ) ≤ 10000 := by exact_mod_cast h
    rw [numeric_eq_some, halfUp.places_of_hasPlaces hplaces]
    refine ⟨rfl, ?_⟩
    rw [abs_of_nonneg (by positivity), div_lt_iff₀ (by norm_num)]
    norm_num
    linarith
  nonneg := by positivity
  le_one := by
    rw [div_le_one (by norm_num)]
    exact_mod_cast h

namespace CloseScores

/-- An edge with a confidence of so many ten-thousandths. -/
def edge (id source target score : ℕ) : CausalEdge :=
  { id, organizationId := 7, sourceNodeId := source, targetNodeId := target, edgeType := .causes
    hypothesisId := id + 100, confidenceScore := some (score / 10000), evidenceCount := 1
    contradictionCount := 0 }

def hypothesis (e : CausalEdge) : CausalHypothesis :=
  { id := e.hypothesisId, organizationId := 7, sourceNodeId := e.sourceNodeId
    targetNodeId := e.targetNodeId, proposedEdgeType := .causes, methodId := 1
    lifecycleStatus := .confirmed, temporalLagSeconds := none, contentHash := toString e.id
    createdByUserId := 3 }

/-- The edges as identifier, source, target and confidence. -/
def lowerRows : List (ℕ × ℕ × ℕ × ℕ) :=
  [(1, 0, 1, 3583), (2, 1, 2, 3711), (3, 2, 3, 3819), (4, 3, 4, 4861), (5, 4, 5, 5237),
    (6, 5, 6, 5373), (7, 6, 7, 7239), (8, 7, 20, 7559)]

def higherRows : List (ℕ × ℕ × ℕ × ℕ) :=
  [(11, 0, 11, 2617), (12, 11, 12, 4003), (13, 12, 13, 4126), (14, 13, 14, 4252),
    (15, 14, 15, 4538), (16, 15, 16, 5957), (17, 16, 17, 7871), (18, 17, 20, 9719)]

def edges (rows : List (ℕ × ℕ × ℕ × ℕ)) : List CausalEdge :=
  rows.map fun row => edge row.1 row.2.1 row.2.2.1 row.2.2.2

/-- Two paths of eight edges from one node to another. -/
def db : Db where
  hypotheses := (edges (lowerRows ++ higherRows)).map hypothesis
  edges := edges (lowerRows ++ higherRows)

def chain : CausalChain := ⟨50, 7, 0, 20⟩

theorem edgesStored : EdgesStored db where
  ids := (by decide : (db.edges.map (·.id)).Nodup)
  scores := by
    have hrows : ∀ row ∈ lowerRows ++ higherRows, row.2.2.2 ≤ 10000 := by decide
    intro e he score hscore
    obtain ⟨row, hrow, rfl⟩ := mem_map.1 he
    obtain rfl := Option.some.inj hscore
    exact isScore_of_le (hrows row hrow)

/-- The version records the first path, whose product is smaller by the last of thirty digits. -/
def version : CausalChainVersion :=
  ⟨7, 50, 1, [1, 2, 3, 4, 5, 6, 7, 8], 38006281 / 10 ^ 10, some (3583 / 10000), 8⟩

theorem computed : detectCycles db 7 = some [] ∧
    computeChainVersion db [] 7 chain = some (.ok ([version], version)) ∧
    [1, 2, 3, 4, 5, 6, 7, 8].filterMap (fun id => db.edges.find? (·.id = id)) = edges lowerRows ∧
    CausalPath db 7 0 (edges lowerRows) 20 ∧ CausalPath db 7 0 (edges higherRows) 20 ∧
    (confidences (edges lowerRows)).prod < (confidences (edges higherRows)).prod := by
  decide +kernel

theorem acyclic : AcyclicGraph db 7 := by
  obtain ⟨cycles, hcycles, -, hnil⟩ := exists_detectCycles db 7
  exact hnil.1 (Option.some.inj (hcycles.symm.trans computed.1))

variable {path : List CausalEdge}

theorem confident {a b : UUID} (hpath : CausalPath db 7 a path b) : Confident path := by
  intro e he
  have hmem : e ∈ db.edges := mem_of_mem_filter (mem_visibleEdges_of_path hpath e he)
  obtain ⟨row, -, rfl⟩ := mem_map.1 hmem
  exact Option.some_ne_none _

theorem eq_of_ids (hpath : ∀ e ∈ path, e ∈ db.edges)
    (hids : path.map (·.id) = [1, 2, 3, 4, 5, 6, 7, 8]) : path = edges lowerRows := by
  have hfind : ∀ e ∈ path, db.edges.find? (·.id = e.id) = some e := fun e he =>
    edgesStored.ids.find?_eq_some (hpath e he) (decide_eq_true rfl) fun _ _ => of_decide_eq_true
  have hpath_eq : (path.map (·.id)).filterMap (fun id => db.edges.find? (·.id = id)) = path := by
    rw [filterMap_map]
    exact (filterMap_congr hfind).trans filterMap_some
  rw [← hpath_eq, hids]
  exact computed.2.2.1

/-- The two products differ beyond the digits of the context, and the version records the first
path. -/
theorem not_recordsLargest : ¬ RecordsLargest db 7 chain := by
  rintro ⟨recorded, best, hrecorded, -, hbest, hids, hlargest⟩
  obtain ⟨-, hlower, -, -, hhigher, hlt⟩ := computed
  rw [hlower, Option.some.injEq, Except.ok.injEq, Prod.mk.injEq] at hrecorded
  rw [← hrecorded.2] at hids
  have hmem : ∀ e ∈ best, e ∈ db.edges := fun e he =>
    mem_of_mem_filter (mem_visibleEdges_of_path hbest e he)
  obtain rfl := eq_of_ids hmem hids.symm
  exact absurd (hlargest _ (by decide) hhigher) (not_le.2 hlt)

end CloseScores

namespace NoConfidence

/-- One edge without a confidence. -/
def edge : CausalEdge :=
  { id := 1, organizationId := 7, sourceNodeId := 0, targetNodeId := 20, edgeType := .causes
    hypothesisId := 101, confidenceScore := none, evidenceCount := 1, contradictionCount := 0 }

def db : Db where
  hypotheses := [CloseScores.hypothesis edge]
  edges := [edge]

theorem edgesStored : EdgesStored db where
  ids := (by decide : (db.edges.map (·.id)).Nodup)
  scores := by
    intro e he score hscore
    rw [mem_singleton.1 he] at hscore
    cases hscore

theorem computed : detectCycles db 7 = some [] ∧
    computeChainVersion db [] 7 CloseScores.chain = some (.error (missingConfidence edge)) := by
  decide +kernel

theorem acyclic : AcyclicGraph db 7 := by
  obtain ⟨cycles, hcycles, -, hnil⟩ := exists_detectCycles db 7
  exact hnil.1 (Option.some.inj (hcycles.symm.trans computed.1))

theorem not_recordsLargest : ¬ RecordsLargest db 7 CloseScores.chain := by
  rintro ⟨version, best, hversion, -⟩
  rw [computed.2] at hversion
  cases hversion

end NoConfidence

/-- In two graphs without cycles no path of the largest product is recorded: the products of one
are equal in 28 digits, and the edge of the other has no confidence. -/
theorem largest_product_not_recorded : (EdgesStored CloseScores.db ∧ AcyclicGraph CloseScores.db 7 ∧
      ¬ RecordsLargest CloseScores.db 7 CloseScores.chain) ∧
    EdgesStored NoConfidence.db ∧ AcyclicGraph NoConfidence.db 7 ∧
      ¬ RecordsLargest NoConfidence.db 7 CloseScores.chain :=
  ⟨⟨CloseScores.edgesStored, CloseScores.acyclic, CloseScores.not_recordsLargest⟩,
    NoConfidence.edgesStored, NoConfidence.acyclic, NoConfidence.not_recordsLargest⟩

/-- The version of the close scores records a path of the highest score. -/
theorem closeScores_recorded : ∃ version best,
    computeChainVersion CloseScores.db [] 7 CloseScores.chain = some (.ok ([version], version)) ∧
      Records CloseScores.db 7 CloseScores.chain version best := by
  have hexact := (causalChains_exact CloseScores.db CloseScores.edgesStored 7).2.2
    CloseScores.acyclic [] CloseScores.chain
  obtain ⟨version, hversion, -, hrecords⟩ := hexact.2 fun _ hpath => CloseScores.confident hpath
  obtain ⟨-, -, -, hpath, -⟩ := CloseScores.computed
  obtain ⟨best, hbest, -⟩ := hrecords ⟨_, by decide, hpath⟩
  exact ⟨version, best, hversion, hbest⟩

end Intel4Ops.Causal
