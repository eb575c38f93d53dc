import Intel4Ops.Lib.Graph

/-!
# A bounded traversal of a multigraph

A queue of nodes with their depths, a list of the nodes found so far and a list of the edges
followed. Nodes beyond a depth are not expanded, and a node that is new when the budget is spent is
dropped with the edge to it. While nothing is dropped, the traversal finds every node at its least
depth.
-/

namespace Lib.Traversal

open Lib.Graph List

variable {α ε : Type*}

/-! ## The loop -/

structure Limits where
  (maxDepth maxNodes : ℕ)

structure State (α ε : Type*) where
  found : List α
  edges : List ε
  queue : List (α × ℕ)
  depthReached : ℕ := 0
  truncated : Bool := false

def start (root : α) : State α ε where
  found := [root]
  edges := []
  queue := [(root, 0)]

section Keep

variable [DecidableEq ε]

/-- The edge is kept once. -/
def State.keep (s : State α ε) (e : ε) : State α ε :=
  { s with edges := if e ∈ s.edges then s.edges else s.edges ++ [e] }

@[simp] theorem State.mem_keep_edges {s : State α ε} {e e' : ε} :
    e' ∈ (s.keep e).edges ↔ e' ∈ s.edges ∨ e' = e := by
  rw [State.keep]
  split
  case isTrue he =>
    constructor
    · exact .inl
    · rintro (h | rfl)
      · exact h
      · exact he
  case isFalse => simp

end Keep

variable [DecidableEq α] [DecidableEq ε]

/-- A new node is put into the queue, and dropped when the budget is spent. -/
def State.discover (s : State α ε) (lim : Limits) (depth : ℕ) (link : ε × α) : State α ε :=
  if lim.maxNodes ≤ s.found.length then { s with truncated := true }
  else { s with
    found := s.found ++ [link.2], queue := s.queue ++ [(link.2, depth + 1)] }.keep link.1

/-- Follow an edge to the node at its other end; new nodes may be filtered out. -/
def follow (lim : Limits) (admits : α → Bool) (depth : ℕ) (s : State α ε) (link : ε × α) :
    State α ε :=
  if link.2 ∈ s.found then s.keep link.1
  else if admits link.2 then s.discover lim depth link
  else s

/-- Take a node from the queue and follow its edges, unless it lies at the largest depth. -/
def expand (lim : Limits) (admits : α → Bool) (adjacent : α → List (ε × α)) (s : State α ε)
    (current : α × ℕ) (queue : List (α × ℕ)) : State α ε :=
  let s := { s with queue, depthReached := max s.depthReached current.2 }
  if lim.maxDepth ≤ current.2 then s
  else (adjacent current.1).foldl (follow lim admits current.2) s

/-- Go on until the queue is empty; `none` when the fuel is used up before. -/
def loop (lim : Limits) (admits : α → Bool) (adjacent : α → List (ε × α)) :
    ℕ → State α ε → Option (State α ε)
  | 0, _ => none
  | fuel + 1, s =>
    match s.queue with
    | [] => some s
    | current :: queue => loop lim admits adjacent fuel (expand lim admits adjacent s current queue)

/-! ## The invariant -/

section Invariant

variable (lim : Limits) (admits : α → Bool) (adjacent : α → List (ε × α)) (root : α)
  (arcs : List (α × α))

/-- What holds between two edges. `popped` are the queue entries that were taken out, in order, and
`followed` the edges that were followed, with the depth of the node that they were followed from. -/
structure Inv (s : State α ε) (popped : List (α × ℕ)) (followed : List (ℕ × ε × α)) : Prop where
  found_eq : s.found = (popped ++ s.queue).map (·.1)
  nodup : s.found.Nodup
  bounded : s.found.length ≤ lim.maxNodes
  root_mem : (root, 0) ∈ popped ++ s.queue
  sorted : (popped ++ s.queue).Pairwise fun x y => x.2 ≤ y.2
  /-- Every entry lies within its depth. -/
  sound : ∀ x ∈ popped ++ s.queue, x.1 ∈ ball arcs root x.2 ∧ x.2 ≤ lim.maxDepth
  edges_sound : ∀ e ∈ s.edges, ∃ x ∈ popped, x.2 < lim.maxDepth ∧
    ∃ b ∈ s.found, (e, b) ∈ adjacent x.1
  /-- A followed edge was kept, and its end has an entry that is at most one deeper. -/
  complete : s.truncated = false → ∀ link ∈ followed, admits link.2.2 = true →
    link.2.1 ∈ s.edges ∧ ∃ x ∈ popped ++ s.queue, x.1 = link.2.2 ∧ x.2 ≤ link.1 + 1

/-- While the edges of a node at `depth` are followed, no entry is deeper than the next level, and
those in the queue are at least as deep as the node. -/
structure AtLevel (s : State α ε) (popped : List (α × ℕ)) (depth : ℕ) : Prop where
  cap : ∀ x ∈ popped ++ s.queue, x.2 ≤ depth + 1
  floor : ∀ x ∈ s.queue, depth ≤ x.2

variable {lim admits adjacent root arcs}
variable {s : State α ε} {popped : List (α × ℕ)} {followed : List (ℕ × ε × α)}

omit [DecidableEq ε] in
theorem Inv.mem_found (h : Inv lim admits adjacent root arcs s popped followed) {b : α} :
    b ∈ s.found ↔ ∃ x ∈ popped ++ s.queue, x.1 = b := by
  rw [h.found_eq, mem_map]

variable {depth fuel : ℕ}

/-- An edge to a node that is found already. -/
theorem Inv.keep (h : Inv lim admits adjacent root arcs s popped followed) {a b : α} {e : ε}
    (hlevel : AtLevel s popped depth) (ha : (a, depth) ∈ popped) (hdepth : depth < lim.maxDepth)
    (hlink : (e, b) ∈ adjacent a) (hb : b ∈ s.found) :
    Inv lim admits adjacent root arcs (s.keep e) popped (followed ++ [(depth, e, b)]) where
  found_eq := h.found_eq
  nodup := h.nodup
  bounded := h.bounded
  root_mem := h.root_mem
  sorted := h.sorted
  sound := h.sound
  edges_sound := by
    intro e' he'
    rcases State.mem_keep_edges.1 he' with he' | rfl
    · exact h.edges_sound e' he'
    · exact ⟨(a, depth), ha, hdepth, b, hb, hlink⟩
  complete := by
    intro htruncated link hfollowed hadmits
    rcases mem_append.1 hfollowed with hfollowed | hfollowed
    · obtain ⟨he, hx⟩ := h.complete htruncated link hfollowed hadmits
      exact ⟨State.mem_keep_edges.2 (.inl he), hx⟩
    · rw [mem_singleton] at hfollowed
      subst hfollowed
      obtain ⟨x, hx, hxb⟩ := h.mem_found.1 hb
      exact ⟨State.mem_keep_edges.2 (.inr rfl), x, hx, hxb, hlevel.cap x hx⟩

omit [DecidableEq ε] in
theorem Inv.discover (h : Inv lim admits adjacent root arcs s popped followed) {a b : α}
    (hlevel : AtLevel s popped depth) (ha : (a, depth) ∈ popped) (hdepth : depth < lim.maxDepth)
    (harc : (a, b) ∈ arcs) (hb : b ∉ s.found) (hbudget : s.found.length < lim.maxNodes) :
    Inv lim admits adjacent root arcs
      { s with found := s.found ++ [b], queue := s.queue ++ [(b, depth + 1)] } popped followed where
  found_eq := by simp [h.found_eq]
  nodup := by
    rw [List.nodup_append]
    refine ⟨h.nodup, nodup_singleton b, ?_⟩
    intro x hx y hy
    rw [mem_singleton] at hy
    exact fun hxy => hb (hy ▸ hxy ▸ hx)
  bounded := by
    rw [length_append, length_singleton]
    exact hbudget
  root_mem := by
    rw [← append_assoc]
    exact mem_append_left _ h.root_mem
  sorted := by
    rw [← append_assoc, pairwise_append]
    refine ⟨h.sorted, pairwise_singleton _ _, ?_⟩
    intro x hx y hy
    rw [mem_singleton] at hy
    subst hy
    exact hlevel.cap x hx
  sound := by
    intro x hx
    rw [← append_assoc, mem_append, mem_singleton] at hx
    rcases hx with hx | rfl
    · exact h.sound x hx
    · have hball := (h.sound (a, depth) (mem_append_left _ ha)).1
      exact ⟨Finset.mem_union_right _ (mem_heads.2 ⟨a, hball, harc⟩), hdepth⟩
  edges_sound := by
    intro e' he'
    obtain ⟨x, hx, hx', c, hc, hlink⟩ := h.edges_sound e' he'
    exact ⟨x, hx, hx', c, mem_append_left _ hc, hlink⟩
  complete := by
    intro htruncated link hfollowed hadmits
    obtain ⟨he, x, hx, hxb⟩ := h.complete htruncated link hfollowed hadmits
    refine ⟨he, x, ?_, hxb⟩
    rw [← append_assoc]
    exact mem_append_left _ hx

omit [DecidableEq ε] in
/-- An edge that is not followed, because its end is filtered out or because of the budget. -/
theorem Inv.skip (h : Inv lim admits adjacent root arcs s popped followed) {link : ℕ × ε × α}
    {truncated : Bool} (hskip : truncated = false → s.truncated = false ∧ admits link.2.2 = false) :
    Inv lim admits adjacent root arcs { s with truncated } popped (followed ++ [link]) where
  found_eq := h.found_eq
  nodup := h.nodup
  bounded := h.bounded
  root_mem := h.root_mem
  sorted := h.sorted
  sound := h.sound
  edges_sound := h.edges_sound
  complete := by
    intro htruncated link' hfollowed hadmits
    obtain ⟨hs, hfiltered⟩ := hskip htruncated
    rcases mem_append.1 hfollowed with hfollowed | hfollowed
    · exact h.complete hs link' hfollowed hadmits
    · rw [mem_singleton] at hfollowed
      subst hfollowed
      rw [hfiltered] at hadmits
      exact absurd hadmits Bool.false_ne_true

/-- One edge of a node keeps the invariant. -/
theorem Inv.follow (h : Inv lim admits adjacent root arcs s popped followed) {a : α}
    {link : ε × α} (hlevel : AtLevel s popped depth) (ha : (a, depth) ∈ popped)
    (hdepth : depth < lim.maxDepth) (hlink : link ∈ adjacent a) (harc : (a, link.2) ∈ arcs) :
    Inv lim admits adjacent root arcs (follow lim admits depth s link) popped
        (followed ++ [(depth, link)]) ∧
      AtLevel (follow lim admits depth s link) popped depth := by
  obtain ⟨e, b⟩ := link
  rw [Traversal.follow]
  split
  case isTrue hb => exact ⟨h.keep hlevel ha hdepth hlink hb, hlevel.cap, hlevel.floor⟩
  case isFalse hb =>
    split
    case isTrue hadmits =>
      rw [State.discover]
      split
      case isTrue =>
        exact ⟨h.skip fun hfalse => absurd hfalse Bool.noConfusion, hlevel.cap, hlevel.floor⟩
      case isFalse hbudget =>
        have hnew := h.discover hlevel ha hdepth harc hb (not_le.1 hbudget)
        have hlevel' : AtLevel { s with
            found := s.found ++ [b], queue := s.queue ++ [(b, depth + 1)] } popped depth := by
          constructor
          · intro x hx
            rw [← append_assoc, mem_append, mem_singleton] at hx
            rcases hx with hx | rfl
            · exact hlevel.cap x hx
            · exact le_rfl
          · intro x hx
            rcases mem_append.1 hx with hx | hx
            · exact hlevel.floor x hx
            · rw [mem_singleton] at hx
              subst hx
              exact Nat.le_succ depth
        refine ⟨hnew.keep hlevel' ha hdepth hlink ?_, hlevel'.cap, hlevel'.floor⟩
        exact mem_append_right _ mem_cons_self
    case isFalse hadmits =>
      exact ⟨h.skip fun hs => ⟨hs, Bool.not_eq_true _ ▸ hadmits⟩, hlevel.cap, hlevel.floor⟩

theorem Inv.foldl_follow {a : α} (ha : (a, depth) ∈ popped) (hdepth : depth < lim.maxDepth)
    (links : List (ε × α)) (hlinks : ∀ link ∈ links, link ∈ adjacent a ∧ (a, link.2) ∈ arcs) :
    ∀ {s : State α ε} {followed : List (ℕ × ε × α)},
      Inv lim admits adjacent root arcs s popped followed → AtLevel s popped depth →
      Inv lim admits adjacent root arcs (links.foldl (Traversal.follow lim admits depth) s) popped
          (followed ++ links.map fun link => (depth, link)) ∧
        AtLevel (links.foldl (Traversal.follow lim admits depth) s) popped depth := by
  induction links with
  | nil =>
    intro s followed h hlevel
    simpa using ⟨h, hlevel⟩
  | cons link links ih =>
    intro s followed h hlevel
    obtain ⟨hlink, harc⟩ := hlinks link mem_cons_self
    obtain ⟨h', hlevel'⟩ := h.follow hlevel ha hdepth hlink harc
    have hrest := ih (fun l hl => hlinks l (mem_cons_of_mem _ hl)) h' hlevel'
    simpa using hrest

/-! ## Rounds -/

/-- What holds between two nodes: every edge of the nodes that were taken out was followed, and no
entry is more than one deeper than those in the queue. -/
structure Between (lim : Limits) (admits : α → Bool) (adjacent : α → List (ε × α)) (root : α)
    (arcs : List (α × α)) (s : State α ε) (popped : List (α × ℕ)) : Prop where
  near : ∀ x ∈ popped ++ s.queue, ∀ y ∈ s.queue, x.2 ≤ y.2 + 1
  inv : ∃ followed, Inv lim admits adjacent root arcs s popped followed ∧
    ∀ x ∈ popped, x.2 < lim.maxDepth → ∀ link ∈ adjacent x.1, (x.2, link) ∈ followed

omit [DecidableEq ε] in
theorem between_start (hnodes : 0 < lim.maxNodes) :
    Between lim admits adjacent root arcs (start root) [] where
  near := by simp [start]
  inv := by
    refine ⟨[], ⟨rfl, nodup_singleton root, hnodes, mem_cons_self, ?_, ?_, ?_, ?_⟩, ?_⟩
    · exact pairwise_singleton _ _
    · simp [start, ball]
    · simp [start]
    · simp
    · simp

omit [DecidableEq ε] in
theorem Inv.pop (h : Inv lim admits adjacent root arcs s popped followed) {current : α × ℕ}
    {queue : List (α × ℕ)} (hqueue : s.queue = current :: queue) (depthReached : ℕ) :
    Inv lim admits adjacent root arcs { s with queue, depthReached } (popped ++ [current])
      followed := by
  have happend : popped ++ s.queue = popped ++ [current] ++ queue := by
    rw [hqueue, append_assoc, singleton_append]
  exact {
    found_eq := happend ▸ h.found_eq
    nodup := h.nodup
    bounded := h.bounded
    root_mem := happend ▸ h.root_mem
    sorted := happend ▸ h.sorted
    sound := happend ▸ h.sound
    edges_sound := by
      intro e he
      obtain ⟨x, hx, hx', c, hc, hlink⟩ := h.edges_sound e he
      exact ⟨x, mem_append_left _ hx, hx', c, hc, hlink⟩
    complete := happend ▸ h.complete }

/-- One round: a node is taken out of the queue, and its edges are followed. -/
theorem Between.expand (harcs : ∀ a, ∀ link ∈ adjacent a, (a, link.2) ∈ arcs)
    (h : Between lim admits adjacent root arcs s popped) {current : α × ℕ} {queue : List (α × ℕ)}
    (hqueue : s.queue = current :: queue) :
    Between lim admits adjacent root arcs (expand lim admits adjacent s current queue)
      (popped ++ [current]) := by
  obtain ⟨followed, hinv, hcovers⟩ := h.inv
  have happend : popped ++ s.queue = popped ++ [current] ++ queue := by
    rw [hqueue, append_assoc, singleton_append]
  have hpop := hinv.pop hqueue (max s.depthReached current.2)
  have hcap : ∀ x ∈ popped ++ [current] ++ queue, x.2 ≤ current.2 + 1 := by
    intro x hx
    exact h.near x (happend ▸ hx) current (hqueue ▸ mem_cons_self)
  have hfloor : ∀ x ∈ queue, current.2 ≤ x.2 := by
    have hsorted := hqueue ▸ (pairwise_append.1 hinv.sorted).2.1
    exact (pairwise_cons.1 hsorted).1
  rw [Traversal.expand]
  split
  case isTrue hdeep =>
    refine ⟨fun x hx y hy => ?_, followed, hpop, ?_⟩
    · have := hcap x hx
      have := hfloor y hy
      omega
    · intro x hx hlt
      rcases mem_append.1 hx with hx | hx
      · exact hcovers x hx hlt
      · rw [mem_singleton] at hx
        subst hx
        omega
  case isFalse hdepth =>
    have hmem : (current.1, current.2) ∈ popped ++ [current] := mem_append_right _ mem_cons_self
    obtain ⟨hinv', hlevel⟩ := Inv.foldl_follow hmem (not_le.1 hdepth) (adjacent current.1)
      (fun link hlink => ⟨hlink, harcs _ link hlink⟩) hpop ⟨hcap, hfloor⟩
    refine ⟨fun x hx y hy => ?_, _, hinv', ?_⟩
    · have := hlevel.cap x hx
      have := hlevel.floor y hy
      omega
    · intro x hx hlt link hlink
      rcases mem_append.1 hx with hx | hx
      · exact mem_append_left _ (hcovers x hx hlt link hlink)
      · rw [mem_singleton] at hx
        subst hx
        exact mem_append_right _ (mem_map.2 ⟨link, hlink, rfl⟩)

theorem exists_loop (harcs : ∀ a, ∀ link ∈ adjacent a, (a, link.2) ∈ arcs) :
    ∀ {fuel : ℕ} {s : State α ε} {popped : List (α × ℕ)},
      Between lim admits adjacent root arcs s popped → lim.maxNodes < fuel + popped.length →
      ∃ t popped', loop lim admits adjacent fuel s = some t ∧
        Between lim admits adjacent root arcs t popped' ∧ t.queue = [] := by
  intro fuel
  induction fuel with
  | zero =>
    intro s popped h hfuel
    obtain ⟨followed, hinv, -⟩ := h.inv
    have hlen : popped.length ≤ s.found.length := by
      rw [hinv.found_eq, length_map, length_append]
      exact Nat.le_add_right _ _
    have := hinv.bounded
    omega
  | succ fuel ih =>
    intro s popped h hfuel
    rw [loop]
    split
    case h_1 hqueue => exact ⟨s, popped, rfl, h, hqueue⟩
    case h_2 current queue hqueue =>
      apply ih (h.expand harcs hqueue)
      rw [length_append, length_singleton]
      omega

/-! ## What was found -/

variable (lim adjacent root arcs) in
/-- What a finished traversal has found. -/
structure Traversed (t : State α ε) : Prop where
  nodup : t.found.Nodup
  bounded : t.found.length ≤ lim.maxNodes
  root_mem : root ∈ t.found
  within : ∀ a ∈ t.found, a ∈ ball arcs root lim.maxDepth
  closed : ∀ e ∈ t.edges, ∃ a ∈ t.found, ∃ b ∈ t.found, (e, b) ∈ adjacent a
  /-- Nothing was dropped: all nodes within the depth. -/
  nodes : t.truncated = false → ∀ a, a ∈ t.found ↔ a ∈ ball arcs root lim.maxDepth
  /-- Nothing was dropped: all edges of the nodes before the last level. -/
  edges : t.truncated = false → ∀ e, e ∈ t.edges ↔
    ∃ n < lim.maxDepth, ∃ a ∈ ball arcs root n, ∃ b, (e, b) ∈ adjacent a

omit [DecidableEq ε] in
theorem Between.exists_entry (h : Between lim admits adjacent root arcs s popped)
    (hqueue : s.queue = []) (htruncated : s.truncated = false) (hadmits : ∀ b, admits b = true)
    (hlinks : ∀ a b, (a, b) ∈ arcs → ∃ e, (e, b) ∈ adjacent a) {n : ℕ} (hn : n ≤ lim.maxDepth)
    {a : α} (ha : a ∈ ball arcs root n) : ∃ x ∈ popped, x.1 = a ∧ x.2 ≤ n := by
  obtain ⟨followed, hinv, hcovers⟩ := h.inv
  have hpopped : popped ++ s.queue = popped := by rw [hqueue, append_nil]
  induction n generalizing a with
  | zero =>
    obtain rfl := Finset.mem_singleton.1 ha
    exact ⟨(a, 0), hpopped ▸ hinv.root_mem, rfl, le_rfl⟩
  | succ n ih =>
    rcases Finset.mem_union.1 ha with ha | ha
    · obtain ⟨x, hx, hxa, hle⟩ := ih (by omega) ha
      exact ⟨x, hx, hxa, by omega⟩
    · obtain ⟨c, hc, harc⟩ := mem_heads.1 ha
      obtain ⟨x, hx, rfl, hle⟩ := ih (by omega) hc
      obtain ⟨e, he⟩ := hlinks _ _ harc
      have hfollowed := hcovers x hx (by omega) (e, a) he
      obtain ⟨-, y, hy, hya, hdeep⟩ := hinv.complete htruncated _ hfollowed (hadmits a)
      exact ⟨y, hpopped ▸ hy, hya, by omega⟩

omit [DecidableEq ε] in
theorem Between.traversed (h : Between lim admits adjacent root arcs s popped)
    (hqueue : s.queue = []) (hadmits : ∀ b, admits b = true)
    (hlinks : ∀ a b, (a, b) ∈ arcs → ∃ e, (e, b) ∈ adjacent a) :
    Traversed lim adjacent root arcs s := by
  obtain ⟨followed, hinv, hcovers⟩ := h.inv
  have hpopped : popped ++ s.queue = popped := by rw [hqueue, append_nil]
  have hwithin : ∀ a ∈ s.found, a ∈ ball arcs root lim.maxDepth := by
    intro a ha
    obtain ⟨x, hx, rfl⟩ := hinv.mem_found.1 ha
    obtain ⟨hball, hdepth⟩ := hinv.sound x hx
    exact ball_mono root hdepth hball
  have hmem : ∀ x ∈ popped, x.1 ∈ s.found := fun x hx =>
    hinv.mem_found.2 ⟨x, mem_append_left _ hx, rfl⟩
  refine {
    nodup := hinv.nodup
    bounded := hinv.bounded
    root_mem := hinv.mem_found.2 ⟨(root, 0), hinv.root_mem, rfl⟩
    within := hwithin
    closed := ?_
    nodes := ?_
    edges := ?_ }
  · intro e he
    obtain ⟨x, hx, -, b, hb, hlink⟩ := hinv.edges_sound e he
    exact ⟨x.1, hmem x hx, b, hb, hlink⟩
  · intro htruncated a
    refine ⟨hwithin a, fun ha => ?_⟩
    obtain ⟨x, hx, rfl, -⟩ := h.exists_entry hqueue htruncated hadmits hlinks le_rfl ha
    exact hmem x hx
  · intro htruncated e
    constructor
    · intro he
      obtain ⟨x, hx, hdepth, b, -, hlink⟩ := hinv.edges_sound e he
      exact ⟨x.2, hdepth, x.1, (hinv.sound x (mem_append_left _ hx)).1, b, hlink⟩
    · rintro ⟨n, hn, a, ha, b, hlink⟩
      obtain ⟨x, hx, rfl, hle⟩ := h.exists_entry hqueue htruncated hadmits hlinks hn.le ha
      exact (hinv.complete htruncated _ (hcovers x hx (by omega) _ hlink) (hadmits b)).1

theorem exists_traversed (hnodes : 0 < lim.maxNodes) (hfuel : lim.maxNodes < fuel)
    (hadmits : ∀ b, admits b = true) (hlinks : ∀ a b, (a, b) ∈ arcs ↔ ∃ e, (e, b) ∈ adjacent a) :
    ∃ t, loop lim admits adjacent fuel (start root) = some t ∧
      Traversed lim adjacent root arcs t := by
  have harcs : ∀ a, ∀ link ∈ adjacent a, (a, link.2) ∈ arcs := fun a link hlink =>
    (hlinks a link.2).2 ⟨link.1, hlink⟩
  obtain ⟨t, popped, hloop, hbetween, hqueue⟩ :=
    exists_loop (s := start root) harcs (between_start hnodes) (by simpa using hfuel)
  exact ⟨t, hloop, hbetween.traversed hqueue hadmits fun a b => (hlinks a b).1⟩

end Invariant

end Lib.Traversal
