import Mathlib.Data.Finset.Card
import Mathlib.Data.List.Chain

/-!
# Depth-first search of a multigraph

The search for cycles with the nodes it is visiting and has visited, and the enumeration of the
paths between two nodes. Both are recursions that need not end, so they take a bound on their depth
and return nothing when it is reached. One more than the number of nodes is enough for the first,
and for the second if the graph has no cycle.
-/

namespace Lib.DepthFirst

open Relation List

variable {α β ε : Type*}

/-! ## Graphs -/

section Graph

variable (outgoing : α → List ε) (target : ε → α)

/-- An edge leads from one node to the other. -/
def Arc (a b : α) : Prop := ∃ e ∈ outgoing a, target e = b

/-- No walk along at least one edge leads back to its start. -/
def Acyclic : Prop := ∀ a, ¬ TransGen (Arc outgoing target) a a

/-- A walk along at least one edge back to its start, by its nodes. -/
structure ClosedWalk (nodes : List α) : Prop where
  chain : nodes.IsChain (Arc outgoing target)
  long : 2 ≤ nodes.length
  closed : nodes.head? = nodes.getLast?

/-- A path from one node to another, by its edges. -/
def IsPath : α → List ε → α → Prop
  | a, [], b => a = b
  | a, e :: path, b => e ∈ outgoing a ∧ IsPath (target e) path b

instance IsPath.decidable [DecidableEq α] [DecidableEq ε] :
    ∀ a path b, Decidable (IsPath outgoing target a path b)
  | a, [], b => inferInstanceAs (Decidable (a = b))
  | a, e :: path, b =>
    have := IsPath.decidable (target e) path b
    inferInstanceAs (Decidable (e ∈ outgoing a ∧ IsPath outgoing target (target e) path b))

/-- The edges of every node in the list lead to later nodes of the list. -/
def Ordered : List α → Prop
  | [] => True
  | a :: rest => (∀ e ∈ outgoing a, target e ∈ rest) ∧ Ordered rest

/-- The edges of the nodes lead to nodes. -/
def Closed (nodes : Finset α) : Prop := ∀ a ∈ nodes, ∀ e ∈ outgoing a, target e ∈ nodes

end Graph

section

variable {outgoing : α → List ε} {target : ε → α} {a b : α} {l nodes : List α} {path : List ε}

theorem isChain_concat (h : (l ++ [a]).IsChain (Arc outgoing target)) {e : ε}
    (he : e ∈ outgoing a) : (l ++ [a] ++ [target e]).IsChain (Arc outgoing target) := by
  refine h.append (isChain_singleton _) fun x hx y hy => ?_
  rw [List.getLast?_concat, Option.mem_some_iff] at hx
  rw [List.head?_cons, Option.mem_some_iff] at hy
  exact ⟨e, hx ▸ he, hy⟩

theorem closedWalk_drop [DecidableEq α] (h : (l ++ [a]).IsChain (Arc outgoing target))
    (ha : a ∈ l) : ClosedWalk outgoing target (l.drop (l.idxOf a) ++ [a]) where
  chain := by
    have hlt := idxOf_lt_length_of_mem ha
    rw [← drop_append_of_le_length hlt.le]
    exact h.drop _
  long := by
    have hlt := idxOf_lt_length_of_mem ha
    rw [length_append, length_drop, length_singleton]
    omega
  closed := by
    have hlt := idxOf_lt_length_of_mem ha
    rw [List.getLast?_concat, drop_eq_getElem_cons hlt, cons_append, List.head?_cons, getElem_idxOf]

theorem ClosedWalk.transGen (h : ClosedWalk outgoing target nodes) :
    ∃ a, TransGen (Arc outgoing target) a a := by
  obtain ⟨hchain, hlong, hclosed⟩ := h
  match nodes, hlong with
  | a :: b :: rest, _ =>
    rw [isChain_cons_cons] at hchain
    refine ⟨a, TransGen.head' hchain.1 ?_⟩
    refine relationReflTransGen_of_exists_isChain_cons rest hchain.2 ?_
    rw [List.head?_cons, List.getLast?_cons_cons, List.getLast?_eq_some_getLast (by simp)]
      at hclosed
    exact (Option.some.inj hclosed).symm

theorem IsPath.reflTransGen (h : IsPath outgoing target a path b) :
    ReflTransGen (Arc outgoing target) a b := by
  induction path generalizing a with
  | nil => rw [show a = b from h]
  | cons e path ih => exact ReflTransGen.head ⟨e, h.1, rfl⟩ (ih h.2)

theorem Acyclic.eq_nil (hacyclic : Acyclic outgoing target) (h : IsPath outgoing target a path a) :
    path = [] := by
  cases path with
  | nil => rfl
  | cons e path => exact absurd (TransGen.head' ⟨e, h.1, rfl⟩ h.2.reflTransGen) (hacyclic a)

theorem Ordered.not_transGen (h : Ordered outgoing target l) :
    ∀ a ∈ l, ¬ TransGen (Arc outgoing target) a a := by
  induction l with
  | nil => exact fun a ha => absurd ha not_mem_nil
  | cons first rest ih =>
    intro a ha hcycle
    rcases mem_cons.1 ha with rfl | ha
    · -- the first node is left for a later one, which then lies on the cycle
      obtain ⟨next, ⟨e, he, rfl⟩, hback⟩ := TransGen.head'_iff.1 hcycle
      exact ih h.2 (target e) (h.1 e he) (TransGen.tail' hback ⟨e, he, rfl⟩)
    · exact ih h.2 a ha hcycle

end

/-! ## Cycles -/

/-- What the search has found: the nodes on the way to the present one, as a set and in order, the
nodes it has left, and the cycles. -/
structure Search (α : Type*) where
  visiting : List α := []
  visited : List α := []
  stack : List α := []
  cycles : List (List α) := []

section Cycles

variable (outgoing : α → List ε) (target : ε → α)

section Visit

variable [DecidableEq α]

/-- The node is being visited. -/
def Search.enter (s : Search α) (node : α) : Search α :=
  { s with visiting := node :: s.visiting, stack := s.stack ++ [node] }

/-- The node has been visited. -/
def Search.leave (s : Search α) (node : α) : Search α :=
  { s with
    visiting := s.visiting.erase node, stack := s.stack.dropLast, visited := node :: s.visited }

/-- Visit a node: a node that is being visited closes a cycle. -/
def visit : ℕ → α → Search α → Option (Search α)
  | 0, _, _ => none
  | depth + 1, node, s =>
    if node ∈ s.visiting then
      some { s with cycles := s.cycles ++ [s.stack.drop (s.stack.idxOf node) ++ [node]] }
    else if node ∈ s.visited then some s
    else do
      let s ← (outgoing node).foldlM (fun s e => visit depth (target e) s) (s.enter node)
      return s.leave node

/-- Visit every node that has not been visited. -/
def search (depth : ℕ) (keys : List α) : Option (Search α) :=
  keys.foldlM (fun s node =>
    if node ∈ s.visited then some s else visit outgoing target depth node { s with stack := [] }) {}

end Visit

/-- What the search keeps: the reported cycles are cycles, and until there is one, the edges of
the nodes that were left lead to nodes that were left before. -/
structure Sound (s : Search α) : Prop where
  visiting : ∀ a, a ∈ s.visiting ↔ a ∈ s.stack
  nodup : s.stack.Nodup
  closed : ∀ walk ∈ s.cycles, ClosedWalk outgoing target walk
  ordered : s.cycles = [] → Ordered outgoing target s.visited

/-- The search goes on: it comes back to the same node and forgets nothing. -/
structure Extends (s t : Search α) : Prop where
  visiting : t.visiting = s.visiting
  stack : t.stack = s.stack
  visited : s.visited ⊆ t.visited
  cycles : s.cycles <+: t.cycles

variable {outgoing target} {s t u : Search α} {nodes : Finset α}

theorem Extends.refl (s : Search α) : Extends s s := ⟨rfl, rfl, fun _ ha => ha, prefix_rfl⟩

theorem Extends.trans (h : Extends s t) (h' : Extends t u) : Extends s u :=
  ⟨h'.visiting.trans h.visiting, h'.stack.trans h.stack, fun _ ha => h'.visited (h.visited ha),
    h.cycles.trans h'.cycles⟩

theorem Extends.cycles_eq_nil (h : Extends s t) (ht : t.cycles = []) : s.cycles = [] :=
  prefix_nil.1 (ht ▸ h.cycles)

theorem foldlM_visits {step : Search α → β → Option (Search α)} (goal : β → α) {items : List β}
    (hstep : ∀ item ∈ items, ∀ s', Sound outgoing target s' → s'.stack = s.stack →
      ∃ t, step s' item = some t ∧ Sound outgoing target t ∧ Extends s' t ∧
        (t.cycles = [] → goal item ∈ t.visited))
    (hs : Sound outgoing target s) :
    ∃ t, items.foldlM step s = some t ∧ Sound outgoing target t ∧ Extends s t ∧
      (t.cycles = [] → ∀ item ∈ items, goal item ∈ t.visited) := by
  induction items generalizing s with
  | nil => exact ⟨s, rfl, hs, .refl s, fun _ _ h => absurd h not_mem_nil⟩
  | cons item items ih =>
    obtain ⟨mid, hmid, hsound, hextends, hgoal⟩ := hstep item mem_cons_self s hs rfl
    obtain ⟨t, ht, hsound', hextends', hgoals⟩ := ih (s := mid)
      (fun item' hitem s' hs' hstack => hstep item' (mem_cons_of_mem _ hitem) s' hs'
        (hstack.trans hextends.stack)) hsound
    refine ⟨t, ?_, hsound', hextends.trans hextends', fun hnil item' hitem => ?_⟩
    · rw [foldlM_cons, hmid]
      exact ht
    · rcases mem_cons.1 hitem with rfl | hitem
      · exact hextends'.visited (hgoal (hextends'.cycles_eq_nil hnil))
      · exact hgoals hnil item' hitem

theorem exists_visit [DecidableEq α] (hclosed : Closed outgoing target nodes) (depth : ℕ) {node : α}
    (hs : Sound outgoing target s) (hnode : node ∈ nodes) (hstack : ∀ a ∈ s.stack, a ∈ nodes)
    (hchain : (s.stack ++ [node]).IsChain (Arc outgoing target))
    (hdepth : nodes.card < depth + s.stack.length) :
    ∃ t, visit outgoing target depth node s = some t ∧ Sound outgoing target t ∧ Extends s t ∧
      (t.cycles = [] → node ∈ t.visited) := by
  induction depth generalizing node s with
  | zero =>
    -- the stack cannot hold more nodes than there are
    have hcard : s.stack.toFinset.card ≤ nodes.card :=
      Finset.card_le_card fun a ha => hstack a (mem_toFinset.1 ha)
    rw [toFinset_card_of_nodup hs.nodup] at hcard
    omega
  | succ depth ih =>
    rw [visit]
    by_cases hvisiting : node ∈ s.visiting
    · rw [if_pos hvisiting]
      refine ⟨_, rfl, ⟨hs.visiting, hs.nodup, fun walk hwalk => ?_, fun hnil => ?_⟩,
        ⟨rfl, rfl, fun _ ha => ha, prefix_append _ _⟩, fun hnil => ?_⟩
      · rcases mem_append.1 hwalk with hwalk | hwalk
        · exact hs.closed walk hwalk
        · rw [mem_singleton.1 hwalk]
          exact closedWalk_drop hchain ((hs.visiting node).1 hvisiting)
      · exact absurd (append_eq_nil_iff.1 hnil).2 (cons_ne_nil _ _)
      · exact absurd (append_eq_nil_iff.1 hnil).2 (cons_ne_nil _ _)
    rw [if_neg hvisiting]
    by_cases hvisited : node ∈ s.visited
    · rw [if_pos hvisited]
      exact ⟨s, rfl, hs, .refl s, fun _ => hvisited⟩
    rw [if_neg hvisited]
    have hnot : node ∉ s.stack := fun hmem => hvisiting ((hs.visiting node).2 hmem)
    have hentered : Sound outgoing target (s.enter node) := by
      refine ⟨fun a => ?_, ?_, hs.closed, hs.ordered⟩
      · simp only [Search.enter, mem_cons, mem_append, not_mem_nil, or_false, hs.visiting a]
        exact or_comm
      · show (s.stack ++ [node]).Nodup
        rw [← concat_eq_append]
        exact hs.nodup.concat hnot
    have hstep : ∀ e ∈ outgoing node, ∀ s', Sound outgoing target s' →
        s'.stack = s.stack ++ [node] → ∃ t, visit outgoing target depth (target e) s' = some t ∧
          Sound outgoing target t ∧ Extends s' t ∧ (t.cycles = [] → target e ∈ t.visited) := by
      intro e he s' hs' hstack'
      refine ih hs' (hclosed node hnode e he) (fun a ha => ?_) ?_ ?_
      · rw [hstack'] at ha
        rcases mem_append.1 ha with ha | ha
        · exact hstack a ha
        · rwa [mem_singleton.1 ha]
      · rw [hstack']
        exact isChain_concat hchain he
      · rw [hstack', length_append, length_singleton]
        omega
    obtain ⟨t, ht, hsound, hextends, hgoals⟩ := foldlM_visits target hstep hentered
    have hleave : Extends s (t.leave node) :=
      ⟨(congrArg (·.erase node) hextends.visiting).trans (erase_cons_head node s.visiting),
        (congrArg List.dropLast hextends.stack).trans dropLast_concat,
        fun a ha => mem_cons_of_mem _ (hextends.visited ha), hextends.cycles⟩
    refine ⟨t.leave node, by rw [ht]; rfl, ⟨fun a => ?_, ?_, hsound.closed, fun hnil => ?_⟩,
      hleave, fun _ => mem_cons_self⟩
    · rw [hleave.visiting, hleave.stack]
      exact hs.visiting a
    · rw [hleave.stack]
      exact hs.nodup
    · exact ⟨hgoals hnil, hsound.ordered hnil⟩

theorem exists_search [DecidableEq α] (hclosed : Closed outgoing target nodes) {depth : ℕ}
    {keys : List α} (hdepth : nodes.card < depth) (hkeys : ∀ a ∈ keys, a ∈ nodes)
    (hcover : ∀ a, outgoing a ≠ [] → a ∈ keys) :
    ∃ t, search outgoing target depth keys = some t ∧
      (∀ walk ∈ t.cycles, ClosedWalk outgoing target walk) ∧
        (t.cycles = [] ↔ Acyclic outgoing target) := by
  have hstart : Sound outgoing target ({} : Search α) :=
    ⟨fun _ => Iff.rfl, List.nodup_nil, fun _ h => absurd h not_mem_nil, fun _ => trivial⟩
  have hstep : ∀ node ∈ keys, ∀ s', Sound outgoing target s' → s'.stack = [] →
      ∃ t, (if node ∈ s'.visited then some s'
          else visit outgoing target depth node { s' with stack := [] }) = some t ∧
        Sound outgoing target t ∧ Extends s' t ∧ (t.cycles = [] → node ∈ t.visited) := by
    intro node hnode s' hs' hstack
    by_cases hvisited : node ∈ s'.visited
    · rw [if_pos hvisited]
      exact ⟨s', rfl, hs', .refl s', fun _ => hvisited⟩
    · rw [if_neg hvisited]
      have hsame : { s' with stack := [] } = s' := by
        rw [← hstack]
      rw [hsame]
      refine exists_visit hclosed depth hs' (hkeys node hnode) ?_ ?_ ?_
      · rw [hstack]
        exact fun a ha => absurd ha not_mem_nil
      · rw [hstack]
        exact isChain_singleton _
      · rw [hstack]
        exact hdepth
  obtain ⟨t, ht, hsound, -, hgoals⟩ := foldlM_visits (fun node => node) hstep hstart
  refine ⟨t, ht, hsound.closed, fun hnil a hcycle => ?_, fun hacyclic => ?_⟩
  · obtain ⟨b, ⟨e, he, -⟩, -⟩ := TransGen.head'_iff.1 hcycle
    have hkey := hcover a (ne_nil_of_mem he)
    exact (hsound.ordered hnil).not_transGen a (hgoals hnil a hkey) hcycle
  · rw [eq_nil_iff_forall_not_mem]
    intro walk hwalk
    obtain ⟨a, ha⟩ := (hsound.closed walk hwalk).transGen
    exact hacyclic a ha

end Cycles

/-! ## Paths -/

section Paths

variable [DecidableEq α] (outgoing : α → List ε) (target : ε → α) (terminal : α)

/-- Add the paths from a node to the terminal node, behind the path to the node. -/
def walk : ℕ → α → List ε → List (List ε) → Option (List (List ε))
  | 0, _, _, _ => none
  | depth + 1, node, path, paths =>
    if node = terminal ∧ path ≠ [] then some (paths ++ [path])
    else (outgoing node).foldlM (fun paths e => walk depth (target e) (path ++ [e]) paths) paths

variable {outgoing target terminal} {nodes : Finset α} {path : List ε} {paths : List (List ε)}

theorem exists_foldlM_walk {depth : ℕ} {edges : List ε}
    (hstep : ∀ e ∈ edges, ∀ paths, ∃ found,
      walk outgoing target terminal depth (target e) (path ++ [e]) paths = some (paths ++ found) ∧
        found.Nodup ∧ ∀ p, p ∈ found ↔
          ∃ rest, p = path ++ e :: rest ∧ IsPath outgoing target (target e) rest terminal)
    (hnodup : edges.Nodup) (paths : List (List ε)) :
    ∃ found, edges.foldlM
        (fun paths e => walk outgoing target terminal depth (target e) (path ++ [e]) paths) paths =
          some (paths ++ found) ∧
      found.Nodup ∧ ∀ p, p ∈ found ↔ ∃ e ∈ edges, ∃ rest,
        p = path ++ e :: rest ∧ IsPath outgoing target (target e) rest terminal := by
  induction edges generalizing paths with
  | nil =>
    refine ⟨[], congrArg some (append_nil paths).symm, List.nodup_nil, fun p => ?_⟩
    exact ⟨fun h => absurd h not_mem_nil, fun ⟨e, he, _⟩ => absurd he not_mem_nil⟩
  | cons e edges ih =>
    obtain ⟨hnot, hnodup⟩ := nodup_cons.1 hnodup
    obtain ⟨first, hfirst, hfirst_nodup, hmem_first⟩ := hstep e mem_cons_self paths
    obtain ⟨others, hothers, hothers_nodup, hmem_others⟩ :=
      ih (fun e he => hstep e (mem_cons_of_mem _ he)) hnodup (paths ++ first)
    refine ⟨first ++ others, ?_, ?_, fun p => ?_⟩
    · rw [foldlM_cons, hfirst, ← append_assoc]
      exact hothers
    · refine hfirst_nodup.append hothers_nodup fun p hp hp' => ?_
      -- the paths differ in the edge behind the common path
      obtain ⟨rest, rfl, -⟩ := (hmem_first p).1 hp
      obtain ⟨e', he', rest', hsame, -⟩ := (hmem_others _).1 hp'
      obtain ⟨rfl, -⟩ := List.cons.inj (append_cancel_left hsame)
      exact hnot he'
    · rw [mem_append, hmem_first, hmem_others, exists_mem_cons_iff]

theorem exists_walk (hclosed : Closed outgoing target nodes) (hacyclic : Acyclic outgoing target)
    (hnodup : ∀ a, (outgoing a).Nodup) (depth : ℕ) {node : α} {seen : List α}
    (hseen : seen.Nodup) (hmem : ∀ a ∈ seen ++ [node], a ∈ nodes)
    (hchain : (seen ++ [node]).IsChain (Arc outgoing target))
    (hdepth : nodes.card < depth + seen.length) (path : List ε) (paths : List (List ε)) :
    ∃ found, walk outgoing target terminal depth node path paths = some (paths ++ found) ∧
      found.Nodup ∧ ∀ p, p ∈ found ↔
        p ≠ [] ∧ ∃ rest, p = path ++ rest ∧ IsPath outgoing target node rest terminal := by
  induction depth generalizing node seen path paths with
  | zero =>
    have hcard : seen.toFinset.card ≤ nodes.card := Finset.card_le_card fun a ha =>
      hmem a (mem_append_left _ (mem_toFinset.1 ha))
    rw [toFinset_card_of_nodup hseen] at hcard
    omega
  | succ depth ih =>
    rw [walk]
    by_cases hend : node = terminal ∧ path ≠ []
    · rw [if_pos hend]
      obtain ⟨rfl, hpath⟩ := hend
      refine ⟨[path], rfl, nodup_singleton path, fun p => ?_⟩
      rw [mem_singleton]
      constructor
      · rintro rfl
        exact ⟨hpath, [], (append_nil p).symm, rfl⟩
      · rintro ⟨-, rest, rfl, hrest⟩
        rw [hacyclic.eq_nil hrest, append_nil]
    rw [if_neg hend]
    have hnode : node ∈ nodes := hmem node mem_concat_self
    -- an edge back to the present walk would close a cycle
    have hfresh : node ∉ seen := by
      intro hback
      obtain ⟨a, ha⟩ := (closedWalk_drop hchain hback).transGen
      exact hacyclic a ha
    have hstep : ∀ e ∈ outgoing node, ∀ paths, ∃ found,
        walk outgoing target terminal depth (target e) (path ++ [e]) paths = some (paths ++ found) ∧
          found.Nodup ∧ ∀ p, p ∈ found ↔
            ∃ rest, p = path ++ e :: rest ∧ IsPath outgoing target (target e) rest terminal := by
      intro e he paths
      have hseen' : (seen ++ [node]).Nodup := by
        rw [← concat_eq_append]
        exact hseen.concat hfresh
      have hmem' : ∀ a ∈ seen ++ [node] ++ [target e], a ∈ nodes := by
        intro a ha
        rcases mem_append.1 ha with ha | ha
        · exact hmem a ha
        · rw [mem_singleton.1 ha]
          exact hclosed node hnode e he
      have hdepth' : nodes.card < depth + (seen ++ [node]).length := by
        rw [length_append, length_singleton]
        omega
      obtain ⟨found, hfound, hfound_nodup, hmem_found⟩ :=
        ih hseen' hmem' (isChain_concat hchain he) hdepth' (path ++ [e]) paths
      refine ⟨found, hfound, hfound_nodup, fun p => ?_⟩
      rw [hmem_found]
      constructor
      · rintro ⟨-, rest, rfl, hrest⟩
        exact ⟨rest, append_assoc path [e] rest, hrest⟩
      · rintro ⟨rest, rfl, hrest⟩
        exact ⟨append_ne_nil_of_right_ne_nil _ (cons_ne_nil _ _), rest,
          (append_assoc path [e] rest).symm, hrest⟩
    obtain ⟨found, hfound, hfound_nodup, hmem_found⟩ := exists_foldlM_walk hstep (hnodup node) paths
    refine ⟨found, hfound, hfound_nodup, fun p => ?_⟩
    rw [hmem_found]
    constructor
    · rintro ⟨e, he, rest, rfl, hrest⟩
      exact ⟨append_ne_nil_of_right_ne_nil _ (cons_ne_nil _ _), e :: rest, rfl, he, hrest⟩
    · rintro ⟨hne, rest, rfl, hrest⟩
      cases rest with
      | nil =>
        rw [append_nil] at hne
        exact absurd ⟨hrest, hne⟩ hend
      | cons e rest => exact ⟨e, hrest.1, rest, rfl, hrest.2⟩

end Paths

end Lib.DepthFirst
