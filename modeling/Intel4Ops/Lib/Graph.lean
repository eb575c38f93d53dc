import Mathlib.Data.Finset.Card
import Mathlib.Data.Finset.Union

/-!
# Finite directed graphs and a search with a budget

A graph is a list of arcs. `search` is the breadth-first search that stops after a number of
rounds, or as soon as it has seen too many nodes. It is exact within its horizon: it finds the
target just when a short enough walk leads there through a small enough neighbourhood.
-/

namespace Lib.Graph

open List

variable {α : Type*} {arcs arcs' : List (α × α)} {a b u v : α} {m n : ℕ}

/-! ## Walks -/

/-- A walk of `n` arcs from one node to another. -/
inductive Walk (arcs : List (α × α)) : ℕ → α → α → Prop
  | nil (a : α) : Walk arcs 0 a a
  | cons {n : ℕ} {a b c : α} (harc : (a, b) ∈ arcs) (hwalk : Walk arcs n b c) :
      Walk arcs (n + 1) a c

/-- No walk along at least one arc leads back to its start. -/
def Acyclic (arcs : List (α × α)) : Prop := ∀ n a, ¬ Walk arcs (n + 1) a a

namespace Walk

theorem append {c : α} (h : Walk arcs m a b) (h' : Walk arcs n b c) : Walk arcs (m + n) a c := by
  induction h with
  | nil a => simpa using h'
  | @cons m a b _ harc _ ih =>
    rw [Nat.add_right_comm]
    exact .cons harc (ih h')

theorem snoc {c : α} (h : Walk arcs n a b) (harc : (b, c) ∈ arcs) : Walk arcs (n + 1) a c :=
  h.append (.cons harc (.nil c))

theorem exists_snoc (h : Walk arcs (n + 1) a b) : ∃ c, Walk arcs n a c ∧ (c, b) ∈ arcs := by
  induction n generalizing a with
  | zero =>
    cases h with
    | cons harc hwalk =>
      cases hwalk
      exact ⟨a, .nil a, harc⟩
  | succ n ih =>
    cases h with
    | cons harc hwalk =>
      obtain ⟨c, hc, hlast⟩ := ih hwalk
      exact ⟨c, .cons harc hc, hlast⟩

theorem mono (hsub : arcs ⊆ arcs') (h : Walk arcs n a b) : Walk arcs' n a b := by
  induction h with
  | nil a => exact .nil a
  | cons harc _ ih => exact .cons (hsub harc) ih

/-- A walk in a graph with one more arc avoids that arc, or goes to its tail before it takes it
for the first time. -/
theorem of_snoc_arc (h : Walk (arcs ++ [(u, v)]) n a b) :
    Walk arcs n a b ∨ ∃ i j, i + 1 + j = n ∧ Walk arcs i a u ∧ Walk (arcs ++ [(u, v)]) j v b := by
  induction h with
  | nil a => exact .inl (.nil a)
  | @cons n a b c harc hwalk ih =>
    rcases mem_append.1 harc with harc | harc
    · rcases ih with hold | ⟨i, j, hlen, htail, hrest⟩
      · exact .inl (.cons harc hold)
      · exact .inr ⟨i + 1, j, by omega, .cons harc htail, hrest⟩
    · simp only [mem_singleton, Prod.mk.injEq] at harc
      obtain ⟨rfl, rfl⟩ := harc
      exact .inr ⟨0, n, by omega, .nil a, hwalk⟩

/-- A closed walk that uses the last arc leaves a walk back from its head to its tail that does
not use it; the head lies on the closed walk. -/
theorem closed_of_snoc_arc (h : Walk (arcs ++ [(u, v)]) (n + 1) a a) : Walk arcs (n + 1) a a ∨
      ∃ i j k, i + j = n + 1 ∧ k ≤ n ∧ Walk (arcs ++ [(u, v)]) i a v ∧
        Walk (arcs ++ [(u, v)]) j v a ∧ Walk arcs k v u := by
  rcases h.of_snoc_arc with hold | ⟨i, j, hlen, htail, hrest⟩
  · exact .inl hold
  · have hin := htail.mono (subset_append_left arcs [(u, v)])
    refine .inr ⟨i + 1, j, ?_⟩
    rcases (hrest.append hin).of_snoc_arc with hback | ⟨i', j', hlen', hback, -⟩
    · exact ⟨j + i, by omega, by omega, hin.snoc (by simp), hrest, hback⟩
    · exact ⟨i', by omega, by omega, hin.snoc (by simp), hrest, hback⟩

end Walk

/-! ## Neighbourhoods -/

variable [DecidableEq α]

/-- The nodes that an arc leads to from a node of `s`. -/
def heads (arcs : List (α × α)) (s : Finset α) : Finset α :=
  ((arcs.filter fun e => e.1 ∈ s).map (·.2)).toFinset

/-- The nodes within `n` arcs of `a`. -/
def ball (arcs : List (α × α)) (a : α) : ℕ → Finset α
  | 0 => {a}
  | n + 1 => ball arcs a n ∪ heads arcs (ball arcs a n)

@[simp] theorem mem_heads {s : Finset α} : b ∈ heads arcs s ↔ ∃ a ∈ s, (a, b) ∈ arcs := by
  simp only [heads, mem_toFinset, mem_map, mem_filter, decide_eq_true_eq]
  constructor
  · rintro ⟨⟨a, c⟩, ⟨harc, ha⟩, rfl⟩
    exact ⟨a, ha, harc⟩
  · rintro ⟨a, ha, harc⟩
    exact ⟨(a, b), ⟨harc, ha⟩, rfl⟩

theorem heads_union (s t : Finset α) : heads arcs (s ∪ t) = heads arcs s ∪ heads arcs t := by
  ext b
  simp only [mem_heads, Finset.mem_union]
  constructor
  · rintro ⟨a, ha | ha, harc⟩
    · exact .inl ⟨a, ha, harc⟩
    · exact .inr ⟨a, ha, harc⟩
  · rintro (⟨a, ha, harc⟩ | ⟨a, ha, harc⟩)
    · exact ⟨a, .inl ha, harc⟩
    · exact ⟨a, .inr ha, harc⟩

theorem heads_mono {s t : Finset α} (harcs : arcs ⊆ arcs') (hst : s ⊆ t) :
    heads arcs s ⊆ heads arcs' t := by
  intro b hb
  obtain ⟨a, ha, harc⟩ := mem_heads.1 hb
  exact mem_heads.2 ⟨a, hst ha, harcs harc⟩

theorem ball_subset_succ (a : α) (n : ℕ) : ball arcs a n ⊆ ball arcs a (n + 1) :=
  Finset.subset_union_left

theorem ball_mono (a : α) (h : m ≤ n) : ball arcs a m ⊆ ball arcs a n := by
  induction n, h using Nat.le_induction with
  | base => exact Finset.Subset.refl _
  | succ n _ ih => exact ih.trans (ball_subset_succ a n)

theorem ball_mono_arcs (harcs : arcs ⊆ arcs') (a : α) (n : ℕ) : ball arcs a n ⊆ ball arcs' a n := by
  induction n with
  | zero => exact Finset.Subset.refl _
  | succ n ih => exact Finset.union_subset_union ih (heads_mono harcs ih)

theorem ball_eq_of_closed (hclosed : heads arcs (ball arcs a m) ⊆ ball arcs a m) (h : m ≤ n) :
    ball arcs a n = ball arcs a m := by
  induction n, h using Nat.le_induction with
  | base => rfl
  | succ n _ ih =>
    rw [ball, ih]
    exact Finset.union_eq_left.2 hclosed

theorem mem_ball_of_walk (h : Walk arcs n a b) : b ∈ ball arcs a n := by
  induction n generalizing b with
  | zero =>
    cases h
    exact Finset.mem_singleton_self a
  | succ n ih =>
    obtain ⟨c, hc, harc⟩ := h.exists_snoc
    exact Finset.mem_union_right _ (mem_heads.2 ⟨c, ih hc, harc⟩)

theorem exists_walk_of_mem_ball (h : b ∈ ball arcs a n) : ∃ m ≤ n, Walk arcs m a b := by
  induction n generalizing b with
  | zero =>
    obtain rfl := Finset.mem_singleton.1 h
    exact ⟨0, le_rfl, .nil b⟩
  | succ n ih =>
    rcases Finset.mem_union.1 h with h | h
    · obtain ⟨m, hm, hwalk⟩ := ih h
      exact ⟨m, by omega, hwalk⟩
    · obtain ⟨c, hc, harc⟩ := mem_heads.1 h
      obtain ⟨m, hm, hwalk⟩ := ih hc
      exact ⟨m + 1, by omega, hwalk.snoc harc⟩

/-! ## The search -/

/-- The rounds of the search that are left, with the frontier and the nodes seen so far. -/
def searchLoop (arcs : List (α × α)) (limit : ℕ) (target : α) : ℕ → Finset α → Finset α → Bool
  | 0, _, _ => false
  | rounds + 1, frontier, seen =>
    if frontier = ∅ then false
    else
      let next := heads arcs frontier
      if target ∈ next then true
      else
        let frontier' := next \ seen
        let seen' := seen ∪ frontier'
        if limit ≤ seen'.card then false
        else searchLoop arcs limit target rounds frontier' seen'

/-- Search for `target` along at least one arc from `start`, in at most `rounds` rounds and while
fewer than `limit` nodes are seen. -/
def search (arcs : List (α × α)) (limit rounds : ℕ) (start target : α) : Bool :=
  searchLoop arcs limit target rounds {start} {start}

/-- After `i` rounds the search has seen the nodes within `i` arcs, and has followed every arc from
those that are not in the frontier. -/
structure SearchInv (arcs : List (α × α)) (start target : α) (i : ℕ) (frontier seen : Finset α) :
    Prop where
  seen_eq : seen = ball arcs start i
  subset : frontier ⊆ seen
  followed : heads arcs (seen \ frontier) ⊆ seen
  missed : target ∉ heads arcs (seen \ frontier)

variable {frontier seen : Finset α} {i limit rounds : ℕ}

theorem SearchInv.heads_seen {start target : α} (h : SearchInv arcs start target i frontier seen) :
    heads arcs seen = heads arcs frontier ∪ heads arcs (seen \ frontier) := by
  rw [← heads_union, Finset.union_sdiff_of_subset h.subset]

theorem SearchInv.ball_succ {start target : α} (h : SearchInv arcs start target i frontier seen) :
    seen ∪ (heads arcs frontier \ seen) = ball arcs start (i + 1) := by
  rw [ball, ← h.seen_eq, h.heads_seen, Finset.union_sdiff_self_eq_union, ← Finset.union_assoc,
    Finset.union_comm seen, Finset.union_assoc, Finset.union_eq_left.2 h.followed,
    Finset.union_comm]

/-- One more round without the target keeps the invariant. -/
theorem SearchInv.succ {start target : α} (h : SearchInv arcs start target i frontier seen)
    (hmiss : target ∉ heads arcs frontier) :
    SearchInv arcs start target (i + 1) (heads arcs frontier \ seen)
      (seen ∪ (heads arcs frontier \ seen)) := by
  have hold : (seen ∪ (heads arcs frontier \ seen)) \ (heads arcs frontier \ seen) = seen := by
    rw [Finset.union_sdiff_right]
    exact Finset.sdiff_eq_self_of_disjoint Finset.disjoint_sdiff
  refine ⟨h.ball_succ, Finset.subset_union_right, ?_, ?_⟩
  · rw [hold, h.ball_succ, ball, ← h.seen_eq]
    exact Finset.subset_union_right
  · rw [hold, h.heads_seen, Finset.mem_union, not_or]
    exact ⟨hmiss, h.missed⟩

theorem searchLoop_eq_true {start target : α} (h : SearchInv arcs start target i frontier seen) :
    searchLoop arcs limit target rounds frontier seen = true ↔
      ∃ d, i ≤ d ∧ d < i + rounds ∧ target ∈ heads arcs (ball arcs start d) ∧
        (i < d → (ball arcs start d).card < limit) := by
  induction rounds generalizing i frontier seen with
  | zero =>
    simp only [searchLoop, Bool.false_eq_true, false_iff]
    rintro ⟨d, hid, hdi, -⟩
    omega
  | succ rounds ih =>
    rw [searchLoop]
    by_cases hempty : frontier = ∅
    · -- An empty frontier: nothing new is ever seen.
      subst hempty
      have hclosed : heads arcs (ball arcs start i) ⊆ ball arcs start i := by
        simpa [h.seen_eq] using h.followed
      simp only [if_true, Bool.false_eq_true, false_iff]
      rintro ⟨d, hid, -, htarget, -⟩
      rw [ball_eq_of_closed hclosed hid, ← h.seen_eq] at htarget
      exact h.missed (by rwa [Finset.sdiff_empty])
    rw [if_neg hempty]
    by_cases hfound : target ∈ heads arcs frontier
    · simp only [if_pos hfound, true_iff]
      refine ⟨i, le_rfl, by omega, ?_, fun hlt => absurd hlt (lt_irrefl i)⟩
      rw [← h.seen_eq]
      exact heads_mono (Subset.refl _) h.subset hfound
    have hnot : target ∉ heads arcs (ball arcs start i) := by
      rw [← h.seen_eq, h.heads_seen, Finset.mem_union, not_or]
      exact ⟨hfound, h.missed⟩
    simp only [if_neg hfound]
    by_cases hlimit : limit ≤ (ball arcs start (i + 1)).card
    · rw [if_pos (by rwa [h.ball_succ])]
      simp only [Bool.false_eq_true, false_iff]
      rintro ⟨d, hid, -, htarget, hcard⟩
      rcases hid.eq_or_lt with rfl | hlt
      · exact hnot htarget
      · have hmono : (ball arcs start (i + 1)).card ≤ (ball arcs start d).card :=
          Finset.card_le_card (ball_mono start hlt)
        exact absurd (hcard hlt) (by omega)
    · rw [if_neg (by rwa [h.ball_succ]), ih (h.succ hfound)]
      constructor
      · rintro ⟨d, hid, hdi, htarget, hcard⟩
        refine ⟨d, by omega, by omega, htarget, fun _ => ?_⟩
        rcases hid.eq_or_lt with rfl | hlt
        · omega
        · exact hcard hlt
      · rintro ⟨d, hid, hdi, htarget, hcard⟩
        rcases hid.eq_or_lt with rfl | hlt
        · exact absurd htarget hnot
        · exact ⟨d, hlt, by omega, htarget, fun _ => hcard hlt⟩

theorem search_eq_true {start target : α} : search arcs limit rounds start target = true ↔
      ∃ d < rounds, target ∈ heads arcs (ball arcs start d) ∧
        (0 < d → (ball arcs start d).card < limit) := by
  have hinv : SearchInv arcs start target 0 {start} {start} :=
    ⟨rfl, Finset.Subset.refl _, by simp [heads], by simp⟩
  rw [search, searchLoop_eq_true hinv]
  simp only [zero_add, Nat.zero_le, true_and]

theorem exists_walk_of_search {start target : α}
    (h : search arcs limit rounds start target = true) :
    ∃ n < rounds, Walk arcs (n + 1) start target := by
  obtain ⟨d, hd, htarget, -⟩ := search_eq_true.1 h
  obtain ⟨c, hc, harc⟩ := mem_heads.1 htarget
  obtain ⟨m, hm, hwalk⟩ := exists_walk_of_mem_ball hc
  exact ⟨m, by omega, hwalk.snoc harc⟩

/-- A walk of at most `rounds` arcs is found unless its neighbourhood exhausts the node budget. -/
theorem search_of_walk {start target : α} (hn : n < rounds) (h : Walk arcs (n + 1) start target)
    (hcard : 0 < n → (ball arcs start n).card < limit) :
    search arcs limit rounds start target = true := by
  obtain ⟨c, hc, harc⟩ := h.exists_snoc
  exact search_eq_true.2 ⟨n, hn, mem_heads.2 ⟨c, mem_ball_of_walk hc, harc⟩, hcard⟩

/-! ## Cycles behind the search -/

/-- Every closed walk is longer than the search looks ahead, or passes a node whose neighbourhood
exhausts the node budget before the search has closed it. -/
def CyclesBeyond (arcs : List (α × α)) (limit rounds : ℕ) : Prop :=
  ∀ n a, Walk arcs (n + 1) a a → rounds + 2 ≤ n + 1 ∨
    ∃ v i j, i + j = n + 1 ∧ Walk arcs i a v ∧ Walk arcs j v a ∧ limit ≤ (ball arcs v (n - 1)).card

theorem cyclesBeyond_nil (limit rounds : ℕ) : CyclesBeyond ([] : List (α × α)) limit rounds := by
  intro n a h
  cases h with
  | cons harc => exact absurd harc not_mem_nil

/-- Adding an arc whose head does not find its tail keeps every cycle beyond the search. -/
theorem CyclesBeyond.snoc (h : CyclesBeyond arcs limit rounds) (huv : u ≠ v)
    (hsearch : search arcs limit rounds v u = false) :
    CyclesBeyond (arcs ++ [(u, v)]) limit rounds := by
  have hsub := subset_append_left arcs [(u, v)]
  intro n a hcycle
  rcases hcycle.closed_of_snoc_arc with hold | ⟨i, j, k, hlen, hk, hin, hout, hback⟩
  · rcases h n a hold with hlong | ⟨w, i, j, hlen, hin, hout, hcard⟩
    · exact .inl hlong
    · exact .inr ⟨w, i, j, hlen, hin.mono hsub, hout.mono hsub,
        hcard.trans (Finset.card_le_card (ball_mono_arcs hsub w _))⟩
  · by_cases hlong : rounds + 2 ≤ n + 1
    · exact .inl hlong
    refine .inr ⟨v, i, j, hlen, hin, hout, ?_⟩
    -- The way back is within the rounds of the search, so the budget must have stopped it.
    cases k with
    | zero =>
      cases hback
      exact absurd rfl huv
    | succ k =>
      by_contra hcard
      have hfound : search arcs limit rounds v u = true := by
        refine search_of_walk (by omega) hback fun _ => ?_
        have hmono : (ball arcs v k).card ≤ (ball (arcs ++ [(u, v)]) v (n - 1)).card :=
          Finset.card_le_card ((ball_mono v (by omega)).trans (ball_mono_arcs hsub v _))
        omega
      rw [hsearch] at hfound
      cases hfound

end Lib.Graph
