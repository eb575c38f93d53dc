import Intel4Ops.Lib.Graph

/-!
# Precedence cycles

The directed edges between activity types may form loops. For every edge a path back from its head
to its tail is searched, depth first, and the edges of the loops that are found are collected.

A branch of the search never returns to a type it has left, which is why it ends. No edge is missed
by that: a walk to the target can be cut short where it returns, and then it leaves its start for
good.
-/

namespace Intel4Ops.Process

open Lib.Graph List

variable {α : Type*} [DecidableEq α] {arcs : List (α × α)}

/-! ## Source -/

variable {a b : α} {visited : Finset α} {path : List α} {n : ℕ}

/-- The successors of every activity type. They are a set, so their order is unknown. -/
structure Adjacency (arcs : List (α × α)) where
  successors : α → List α
  mem_successors : ∀ {a b}, b ∈ successors a ↔ (a, b) ∈ arcs

/-- The arcs whose heads are still ahead of a branch, and whether the branch has just left its
start. -/
def remaining (arcs : List (α × α)) (start : α) (visited : Finset α) : ℕ :=
  2 * arcs.countP (·.2 ∉ insert start visited) + if start ∈ visited then 0 else 1

omit [DecidableEq α] in
theorem countP_lt_countP {β : Type*} {bs : List β} {b : β} (hb : b ∈ bs) {p q : β → Bool}
    (hpq : ∀ c, p c = true → q c = true) (hp : p b = false) (hq : q b = true) :
    bs.countP p < bs.countP q := by
  obtain ⟨front, back, rfl⟩ := append_of_mem hb
  have hfront : front.countP p ≤ front.countP q := countP_mono_left fun c _ => hpq c
  have hback : back.countP p ≤ back.countP q := countP_mono_left fun c _ => hpq c
  simp only [countP_append, countP_cons, hp, hq]
  simp only [Bool.false_eq_true, if_false, if_true]
  omega

theorem remaining_lt {start next : α} (harc : (start, next) ∈ arcs) (hnext : next ∉ visited) :
    remaining arcs next (insert start visited) < remaining arcs start visited := by
  rw [remaining, remaining]
  by_cases hself : next = start
  · subst hself
    rw [Finset.insert_idem, if_pos (Finset.mem_insert_self next visited), if_neg hnext]
    omega
  · have hfresh : next ∉ insert start visited := by
      rw [Finset.mem_insert, not_or]
      exact ⟨hself, hnext⟩
    have hlt := countP_lt_countP harc
      (p := fun e => decide (e.2 ∉ insert next (insert start visited)))
      (q := fun e => decide (e.2 ∉ insert start visited))
      (fun e he => decide_eq_true fun h =>
        of_decide_eq_true he (Finset.mem_insert_of_mem h))
      (decide_eq_false fun h => h (Finset.mem_insert_self next _)) (decide_eq_true hfresh)
    split_ifs <;> omega

/-- A path from `start` to `target` that avoids the visited types, if the search finds one. -/
def findPath (graph : Adjacency arcs) (target : α) (start : α) (visited : Finset α) :
    Option (List α) :=
  if start = target ∧ visited.Nonempty then some [start]
  else (graph.successors start).attach.findSome? fun next =>
    if _hnext : next.1 ∈ visited then none
    else (findPath graph target next.1 (insert start visited)).map (start :: ·)
termination_by remaining arcs start visited
decreasing_by exact remaining_lt (graph.mem_successors.1 next.2) _hnext

/-- The consecutive pairs of a path. -/
def steps (path : List α) : List (α × α) := path.zip path.tail

/-- The edges of all loops that were found, as a set. -/
def detectPrecedenceCycles (graph : Adjacency arcs) : Finset (α × α) :=
  (arcs.flatMap fun e =>
    match findPath graph e.1 e.2 ∅ with
    | none => []
    | some path => steps (e.1 :: e.2 :: path.tail)).toFinset

/-! ## Paths that are found -/

theorem findPath_eq (graph : Adjacency arcs) (target start : α) (visited : Finset α) :
    findPath graph target start visited =
      if start = target ∧ visited.Nonempty then some [start]
      else (graph.successors start).findSome? fun next =>
        if next ∈ visited then none
        else (findPath graph target next (insert start visited)).map (start :: ·) := by
  rw [findPath]
  simp only [dite_eq_ite]
  congr 1
  conv_rhs => rw [← unattach_attach (l := graph.successors start)]
  exact List.findSome?_subtype fun _ _ => rfl

theorem findPath_eq_some {graph : Adjacency arcs} {target start : α}
    (h : findPath graph target start visited = some path) :
    start = target ∧ path = [start] ∨
      ∃ next rest, (start, next) ∈ arcs ∧ next ∉ visited ∧
        findPath graph target next (insert start visited) = some rest ∧ path = start :: rest := by
  rw [findPath_eq] at h
  split at h
  case isTrue hbase => exact .inl ⟨hbase.1, (Option.some.inj h).symm⟩
  case isFalse =>
    obtain ⟨next, hnext, h⟩ := exists_of_findSome?_eq_some h
    split at h
    case isTrue => exact absurd h (Option.some_ne_none path).symm
    case isFalse hfresh =>
      obtain ⟨rest, hrest, rfl⟩ := Option.map_eq_some_iff.1 h
      exact .inr ⟨next, rest, graph.mem_successors.1 hnext, hfresh, hrest, rfl⟩

theorem isChain_findPath {graph : Adjacency arcs} {target start : α}
    (h : findPath graph target start visited = some path) :
    path.IsChain (fun a b => (a, b) ∈ arcs) ∧ path.head? = some start ∧
      path.getLast? = some target := by
  induction path generalizing start visited with
  | nil =>
    obtain ⟨-, hpath⟩ | ⟨next, rest, -, -, -, hpath⟩ := findPath_eq_some h
    · exact absurd hpath (cons_ne_nil _ _).symm
    · exact absurd hpath (cons_ne_nil _ _).symm
  | cons a path ih =>
    obtain ⟨rfl, hpath⟩ | ⟨next, rest, harc, -, hrest, hpath⟩ := findPath_eq_some h
    · obtain ⟨rfl, rfl⟩ := List.cons.inj hpath
      exact ⟨isChain_singleton _, rfl, rfl⟩
    · obtain ⟨rfl, rfl⟩ := List.cons.inj hpath
      obtain ⟨hchain, hhead, hlast⟩ := ih hrest
      refine ⟨isChain_cons.2 ⟨?_, hchain⟩, rfl, ?_⟩
      · intro b hb
        rw [hhead, Option.mem_some_iff] at hb
        exact hb ▸ harc
      · rw [List.getLast?_cons, hlast]
        rfl

/-! ## Walks that are found -/

theorem exists_walk_leaving (h : Walk arcs n a b) (c : α) :
    Walk (arcs.filter fun e => e.2 ≠ c) n a b ∨
      ∃ m ≤ n, Walk (arcs.filter fun e => e.2 ≠ c) m c b := by
  induction h with
  | nil a => exact .inl (.nil a)
  | @cons n a b d harc _ ih =>
    obtain hfree | ⟨m, hm, hleave⟩ := ih
    · by_cases hb : b = c
      · subst hb
        exact .inr ⟨n, n.le_succ, hfree⟩
      · exact .inl (.cons (mem_filter.2 ⟨harc, decide_eq_true hb⟩) hfree)
    · exact .inr ⟨m, hm.trans n.le_succ, hleave⟩

/-- The arcs that do not lead to a visited type. -/
def fresh (arcs : List (α × α)) (visited : Finset α) : List (α × α) := arcs.filter (·.2 ∉ visited)

theorem mem_fresh {e : α × α} : e ∈ fresh arcs visited ↔ e ∈ arcs ∧ e.2 ∉ visited := by
  rw [fresh, mem_filter, decide_eq_true_eq]

theorem exists_arc_of_walk {start target : α} (hne : start ≠ target)
    (h : Walk (fresh arcs visited) n start target) :
    ∃ m < n, ∃ next, (start, next) ∈ arcs ∧ next ∉ visited ∧
      Walk (fresh arcs (insert start visited)) m next target := by
  have hsub : (fresh arcs visited).filter (fun e => e.2 ≠ start) ⊆
      fresh arcs (insert start visited) := by
    intro e he
    obtain ⟨he, hstart⟩ := mem_filter.1 he
    obtain ⟨harc, hfresh⟩ := mem_fresh.1 he
    rw [mem_fresh, Finset.mem_insert, not_or]
    exact ⟨harc, of_decide_eq_true hstart, hfresh⟩
  obtain ⟨m, hm, hleave⟩ : ∃ m ≤ n,
      Walk ((fresh arcs visited).filter fun e => e.2 ≠ start) m start target := by
    obtain hfree | hleave := exists_walk_leaving h start
    · exact ⟨n, le_rfl, hfree⟩
    · exact hleave
  cases hleave with
  | nil => exact absurd rfl hne
  | @cons m _ next _ harc hwalk =>
    obtain ⟨harc, hnext⟩ := mem_fresh.1 (mem_filter.1 harc).1
    exact ⟨m, hm, next, harc, hnext, hwalk.mono hsub⟩

/-- A walk over types that were not visited leads the search to its target. By induction on the
length of the walk: the search goes on from the first arc of the walk that leaves its start for
good. -/
theorem isSome_findPath (graph : Adjacency arcs) {start target : α} (hne : start ≠ target)
    (h : Walk (fresh arcs visited) n start target) :
    (findPath graph target start visited).isSome = true := by
  induction n using Nat.strong_induction_on generalizing start visited with
  | _ n ih =>
    obtain ⟨m, hm, next, harc, hnext, hwalk⟩ := exists_arc_of_walk hne h
    rw [findPath_eq, if_neg fun hbase => hne hbase.1, List.findSome?_isSome_iff]
    refine ⟨next, graph.mem_successors.2 harc, ?_⟩
    rw [if_neg hnext, Option.isSome_map]
    by_cases htarget : next = target
    · rw [findPath_eq, if_pos ⟨htarget, Finset.insert_nonempty start visited⟩]
      rfl
    · exact ih m hm htarget hwalk

omit [DecidableEq α] in
theorem exists_walk_of_isChain (hchain : path.IsChain fun a b => (a, b) ∈ arcs)
    (hhead : path.head? = some a) (hlast : path.getLast? = some b) : ∃ n, Walk arcs n a b := by
  induction path generalizing a with
  | nil => exact absurd hhead (Option.some_ne_none a).symm
  | cons c path ih =>
    obtain rfl := Option.some.inj hhead
    cases path with
    | nil =>
      obtain rfl := Option.some.inj hlast
      exact ⟨0, .nil c⟩
    | cons d path =>
      obtain ⟨harc, hchain⟩ := isChain_cons_cons.1 hchain
      obtain ⟨n, hwalk⟩ := ih hchain rfl (by rwa [List.getLast?_cons_cons] at hlast)
      exact ⟨n + 1, .cons harc hwalk⟩

theorem isSome_findPath_iff (graph : Adjacency arcs) {u v : α} (harc : (u, v) ∈ arcs) :
    (findPath graph u v ∅).isSome = true ↔ ∃ n, Walk arcs n v u := by
  constructor
  · intro h
    obtain ⟨path, hpath⟩ := Option.isSome_iff_exists.1 h
    obtain ⟨hchain, hhead, hlast⟩ := isChain_findPath hpath
    exact exists_walk_of_isChain hchain hhead hlast
  · rintro ⟨n, hwalk⟩
    by_cases hself : v = u
    · -- Nothing is visited yet, so the search takes the arc of the type to itself.
      subst hself
      rw [findPath_eq, if_neg fun hbase => Finset.not_nonempty_empty hbase.2,
        List.findSome?_isSome_iff]
      refine ⟨v, graph.mem_successors.2 harc, ?_⟩
      rw [if_neg (Finset.notMem_empty v), findPath_eq,
        if_pos ⟨rfl, Finset.insert_nonempty v ∅⟩]
      rfl
    · exact isSome_findPath graph hself
        (hwalk.mono fun e he => mem_fresh.2 ⟨he, Finset.notMem_empty e.2⟩)

/-! ## Loops -/

omit [DecidableEq α] in
theorem spec_steps (hchain : path.IsChain fun a b => (a, b) ∈ arcs) (hhead : path.head? = some a)
    (hlast : path.getLast? = some b) {e : α × α} (he : e ∈ steps path) :
    e ∈ arcs ∧ (∃ n, Walk arcs n a e.1) ∧ ∃ n, Walk arcs n e.2 b := by
  induction path generalizing a with
  | nil => exact absurd he not_mem_nil
  | cons c path ih =>
    obtain rfl := Option.some.inj hhead
    cases path with
    | nil => exact absurd he not_mem_nil
    | cons d path =>
      obtain ⟨harc, hchain⟩ := isChain_cons_cons.1 hchain
      rw [List.getLast?_cons_cons] at hlast
      obtain rfl | he := mem_cons.1 he
      · exact ⟨harc, ⟨0, .nil c⟩, exists_walk_of_isChain hchain rfl hlast⟩
      · obtain ⟨he, ⟨n, hwalk⟩, hback⟩ := ih hchain rfl hlast he
        exact ⟨he, ⟨n + 1, .cons harc hwalk⟩, hback⟩

theorem loop_of_findPath {graph : Adjacency arcs} {u v : α} (harc : (u, v) ∈ arcs)
    (h : findPath graph u v ∅ = some path) :
    (u :: v :: path.tail).IsChain (fun a b => (a, b) ∈ arcs) ∧
      (u :: v :: path.tail).getLast? = some u := by
  obtain ⟨hchain, hhead, hlast⟩ := isChain_findPath h
  have hpath : v :: path.tail = path := cons_head?_tail hhead
  rw [hpath]
  refine ⟨isChain_cons.2 ⟨?_, hchain⟩, by rw [List.getLast?_cons, hlast]; rfl⟩
  intro b hb
  rw [hhead, Option.mem_some_iff] at hb
  exact hb ▸ harc

theorem mem_detectPrecedenceCycles (graph : Adjacency arcs) (e : α × α) :
    e ∈ detectPrecedenceCycles graph ↔ e ∈ arcs ∧ ∃ n, Walk arcs n e.2 e.1 := by
  rw [detectPrecedenceCycles, mem_toFinset, mem_flatMap]
  constructor
  · rintro ⟨arc, harc, he⟩
    split at he
    case h_1 => exact absurd he not_mem_nil
    case h_2 path hpath =>
      obtain ⟨hchain, hlast⟩ := loop_of_findPath harc hpath
      obtain ⟨he, ⟨m, hin⟩, n, hout⟩ := spec_steps hchain rfl hlast he
      exact ⟨he, n + m, hout.append hin⟩
  · rintro ⟨he, hback⟩
    obtain ⟨path, hpath⟩ := Option.isSome_iff_exists.1 ((isSome_findPath_iff graph he).2 hback)
    refine ⟨e, he, ?_⟩
    rw [hpath]
    exact mem_cons_self

/-- The edges that are found are those on loops, and without them no loop is left. -/
theorem detectPrecedenceCycles_exact (arcs : List (α × α)) (graph : Adjacency arcs) :
    (∀ e, e ∈ detectPrecedenceCycles graph ↔ e ∈ arcs ∧ ∃ n, Walk arcs n e.2 e.1) ∧
      Acyclic (arcs.filter (· ∉ detectPrecedenceCycles graph)) := by
  refine ⟨mem_detectPrecedenceCycles graph, ?_⟩
  intro n a hloop
  cases hloop with
  | @cons _ _ b _ harc hback =>
    -- the first arc of a loop that is left would have been found
    obtain ⟨harc, hleft⟩ := mem_filter.1 harc
    exact of_decide_eq_true hleft ((mem_detectPrecedenceCycles graph (a, b)).2
      ⟨harc, n, hback.mono filter_sublist.subset⟩)

end Intel4Ops.Process
