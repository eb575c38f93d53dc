import Intel4Ops.Lib.Except
import Intel4Ops.Lib.Service
import Intel4Ops.Lib.Table

/-!
# Overlapping transactions

A transaction goes on statement by statement, over tables that other transactions commit to in
between. A phase can hold a lock: a statement that would enter it waits as long as another
transaction holds the same lock, and the lock is held to the end of the transaction. What a
transaction has read under its lock stays true until it commits.
-/

namespace Lib.Overlap

open List Table Except Prod

/-! ## Transactions -/

/-- A transaction in flight: what was asked for, and how far it is. -/
structure Transaction (κ φ : Type*) where
  id : ℕ
  call : κ
  phase : φ

/-- The committed tables and the transactions in flight. -/
structure State (δ κ φ : Type*) where
  db : δ
  inflight : List (Transaction κ φ)

/-- What comes of a statement. -/
inductive Outcome (δ φ ρ ε : Type*)
  | moved (phase : φ)
  | committed (db : δ) (reply : ρ)
  | failed (e : ε)

/-- How transactions start and go on, and the lock that they hold in a phase. -/
structure Protocol (δ κ φ ρ ε Λ : Type*) where
  begun : φ
  statement : δ → κ → φ → Outcome δ φ ρ ε
  lock : κ → φ → Option Λ

/-- What happens next: a transaction begins, goes on, or is rolled back. -/
inductive Event (κ : Type*)
  | begin (id : ℕ) (call : κ)
  | advance (id : ℕ)
  | rollback (id : ℕ)

variable {δ κ φ ρ ε Λ : Type*}

/-- No other transaction holds the lock. -/
def State.Free (s : State δ κ φ) (p : Protocol δ κ φ ρ ε Λ) (id : ℕ) (lock : Option Λ) : Prop :=
  ∀ u ∈ s.inflight, u.id ≠ id → lock.isSome = true → p.lock u.call u.phase ≠ lock

instance [DecidableEq Λ] (s : State δ κ φ) (p : Protocol δ κ φ ρ ε Λ) (id : ℕ)
    (lock : Option Λ) : Decidable (s.Free p id lock) :=
  inferInstanceAs (Decidable (∀ _ ∈ _, _))

/-- Without a transaction. -/
def State.without (s : State δ κ φ) (id : ℕ) : State δ κ φ :=
  { s with inflight := s.inflight.filter (·.id ≠ id) }

/-- A transaction in another phase. -/
def State.withPhase (s : State δ κ φ) (id : ℕ) (phase : φ) : State δ κ φ :=
  { s with inflight := update (·.id = id) (fun t => { t with phase := phase }) s.inflight }

/-- One event, answered with the call and the reply that it commits; an event that cannot happen now
fails. -/
def Protocol.service [DecidableEq Λ] (p : Protocol δ κ φ ρ ε Λ) :
    Service (State δ κ φ) (Event κ) (Option (κ × ρ)) Unit
  | s, .begin id call =>
    if ∀ t ∈ s.inflight, t.id ≠ id then
      .ok ({ s with inflight := s.inflight ++ [⟨id, call, p.begun⟩] }, none)
    else .error ()
  | s, .advance id =>
    match s.inflight.find? (·.id = id) with
    | none => .error ()
    | some t =>
      match p.statement s.db t.call t.phase with
      | .moved phase =>
        if s.Free p id (p.lock t.call phase) then .ok (s.withPhase id phase, none) else .error ()
      | .committed db reply => .ok ({ s.without id with db := db }, some (t.call, reply))
      | .failed _ => .ok (s.without id, none)
  | s, .rollback id => .ok (s.without id, none)

/-- The calls that events commit, in the order of their commits. -/
def Protocol.commits [DecidableEq Λ] (p : Protocol δ κ φ ρ ε Λ) :
    State δ κ φ → List (Event κ) → List κ
  | _, [] => []
  | s, event :: events =>
    (match p.service s event with
      | .ok (_, some (call, _)) => [call]
      | _ => []) ++ p.commits (p.service.next s event) events

/-! ## What an event does -/

/-- The cases of an event that happens. -/
inductive Happens (p : Protocol δ κ φ ρ ε Λ) (s : State δ κ φ) :
    Event κ → State δ κ φ → Option (κ × ρ) → Prop
  | begun (id : ℕ) (call : κ) (hnew : ∀ t ∈ s.inflight, t.id ≠ id) : Happens p s (.begin id call)
        { s with inflight := s.inflight ++ [⟨id, call, p.begun⟩] } none
  | moved (t : Transaction κ φ) (phase : φ) (ht : t ∈ s.inflight)
      (hmoved : p.statement s.db t.call t.phase = .moved phase)
      (hfree : s.Free p t.id (p.lock t.call phase)) :
      Happens p s (.advance t.id) (s.withPhase t.id phase) none
  | committed (t : Transaction κ φ) (db : δ) (reply : ρ) (ht : t ∈ s.inflight)
      (hcommitted : p.statement s.db t.call t.phase = .committed db reply) :
      Happens p s (.advance t.id) { s.without t.id with db := db } (some (t.call, reply))
  | failed (t : Transaction κ φ) (e : ε) (ht : t ∈ s.inflight)
      (hfailed : p.statement s.db t.call t.phase = .failed e) :
      Happens p s (.advance t.id) (s.without t.id) none
  | rolledBack (id : ℕ) : Happens p s (.rollback id) (s.without id) none

variable {p : Protocol δ κ φ ρ ε Λ} {s s' : State δ κ φ} {event : Event κ}

theorem happens [DecidableEq Λ] {reply : Option (κ × ρ)} (h : p.service s event = .ok (s', reply)) :
    Happens p s event s' reply := by
  cases event with
  | begin id call =>
    simp only [Protocol.service] at h
    split at h
    · rename_i hnew
      cases h
      exact .begun id call hnew
    · cases h
  | rollback id =>
    simp only [Protocol.service, ok.injEq, mk.injEq] at h
    obtain ⟨rfl, rfl⟩ := h
    exact .rolledBack id
  | advance id =>
    simp only [Protocol.service] at h
    split at h
    · cases h
    · rename_i t hfind
      obtain ⟨ht, rfl⟩ := find?_spec hfind
      split at h
      · rename_i phase hmoved
        split at h
        · rename_i hfree
          cases h
          exact .moved t phase ht hmoved hfree
        · cases h
      · rename_i db reply hcommitted
        cases h
        exact .committed t db reply ht hcommitted
      · rename_i e hfailed
        cases h
        exact .failed t e ht hfailed

/-! ## What holds of every run -/

/-- What a protocol keeps, as long as its commits meet `G`: `Inv` of the committed tables, and
`Knows` of what a transaction has read. A commit leaves alone what others know that do not hold its
lock. -/
structure Protocol.Keeps (p : Protocol δ κ φ ρ ε Λ) (G : δ → κ → φ → Prop) (Inv : δ → Prop)
    (Knows : δ → κ → φ → Prop) : Prop where
  begun : ∀ db call, Knows db call p.begun
  unlocked : ∀ call, p.lock call p.begun = none
  moved : ∀ {db call phase phase'}, Inv db → Knows db call phase →
    p.statement db call phase = .moved phase' → Knows db call phase'
  committed : ∀ {db call phase db' reply}, Inv db → Knows db call phase → G db call phase →
    p.statement db call phase = .committed db' reply → Inv db'
  frame : ∀ {db call phase db' reply}, Inv db → Knows db call phase →
    p.statement db call phase = .committed db' reply → ∀ call' phase', Knows db call' phase' →
      (∀ l ∈ p.lock call phase, p.lock call' phase' ≠ some l) → Knows db' call' phase'

/-- The tables are in order, no two transactions hold one lock, and what each has read is true. -/
structure Sound (p : Protocol δ κ φ ρ ε Λ) (Inv : δ → Prop) (Knows : δ → κ → φ → Prop)
    (s : State δ κ φ) : Prop where
  db : Inv s.db
  ids : (s.inflight.map (·.id)).Nodup
  exclusive : ∀ t ∈ s.inflight, ∀ u ∈ s.inflight, t.id ≠ u.id →
    ∀ l ∈ p.lock t.call t.phase, p.lock u.call u.phase ≠ some l
  knows : ∀ t ∈ s.inflight, Knows s.db t.call t.phase

/-- The transaction that goes on meets `G`. -/
def Meets (G : δ → κ → φ → Prop) (s : State δ κ φ) (event : Event κ) : Prop :=
  ∀ t ∈ s.inflight, event = .advance t.id → G s.db t.call t.phase

variable {G : δ → κ → φ → Prop} {Inv : δ → Prop} {Knows : δ → κ → φ → Prop}

theorem sound_start {db : δ} (h : Inv db) : Sound p Inv Knows ⟨db, []⟩ where
  db := h
  ids := List.nodup_nil
  exclusive _ ht := absurd ht not_mem_nil
  knows _ ht := absurd ht not_mem_nil

theorem Sound.imp {Inv' : δ → Prop} (h : Sound p Inv Knows s) (himp : Inv s.db → Inv' s.db) :
    Sound p Inv' Knows s :=
  ⟨himp h.db, h.ids, h.exclusive, h.knows⟩

theorem Sound.without (h : Sound p Inv Knows s) (id : ℕ) : Sound p Inv Knows (s.without id) where
  db := h.db
  ids := h.ids.sublist (filter_sublist.map _)
  exclusive t ht u hu := h.exclusive t (mem_of_mem_filter ht) u (mem_of_mem_filter hu)
  knows t ht := h.knows t (mem_of_mem_filter ht)

theorem Sound.begin (hkeeps : p.Keeps G Inv Knows) (h : Sound p Inv Knows s) {id : ℕ} (call : κ)
    (hnew : ∀ t ∈ s.inflight, t.id ≠ id) :
    Sound p Inv Knows { s with inflight := s.inflight ++ [⟨id, call, p.begun⟩] } where
  db := h.db
  ids := by
    rw [map_append, List.nodup_append]
    refine ⟨h.ids, nodup_singleton _, ?_⟩
    intro a ha b hb heq
    obtain ⟨t, ht, rfl⟩ := mem_map.1 ha
    rw [map_singleton, mem_singleton] at hb
    exact hnew t ht (heq.trans hb)
  exclusive t ht u hu hne l hl := by
    rcases mem_append.1 ht with ht | ht
    · rcases mem_append.1 hu with hu | hu
      · exact h.exclusive t ht u hu hne l hl
      · rw [mem_singleton.1 hu, hkeeps.unlocked]
        exact fun h => by cases h
    · rw [mem_singleton.1 ht, hkeeps.unlocked] at hl
      cases hl
  knows t ht := by
    rcases mem_append.1 ht with ht | ht
    · exact h.knows t ht
    · rw [mem_singleton.1 ht]
      exact hkeeps.begun s.db call

variable {t : Transaction κ φ}

section

variable (hkeeps : p.Keeps G Inv Knows)
include hkeeps

/-- A transaction that goes on keeps what it knows, and its new lock is free. -/
theorem Sound.move (h : Sound p Inv Knows s) {phase : φ} (ht : t ∈ s.inflight)
    (hmoved : p.statement s.db t.call t.phase = .moved phase)
    (hfree : s.Free p t.id (p.lock t.call phase)) : Sound p Inv Knows (s.withPhase t.id phase) := by
  have hone : ∀ u ∈ s.inflight, u.id = t.id → u = t := fun u hu hid =>
    inj_on_of_nodup_map h.ids hu ht hid
  have hcases : ∀ u ∈ (s.withPhase t.id phase).inflight,
      u = { t with phase := phase } ∨ u ∈ s.inflight ∧ u.id ≠ t.id := by
    intro u hu
    obtain ⟨v, hv, rfl⟩ := mem_update.1 hu
    by_cases hid : v.id = t.id
    · rw [hone v hv hid, if_pos (decide_eq_true rfl)]
      exact .inl rfl
    · rw [if_neg (by simpa using hid)]
      exact .inr ⟨hv, hid⟩
  refine ⟨h.db, ?_, ?_, ?_⟩
  · have hids : (s.withPhase t.id phase).inflight.map (·.id) = s.inflight.map (·.id) :=
      map_update _ _ fun _ => rfl
    rw [hids]
    exact h.ids
  · intro u hu v hv hne l hl
    rcases hcases u hu with rfl | ⟨hu, huid⟩
    · rcases hcases v hv with rfl | ⟨hv, hvid⟩
      · exact absurd rfl hne
      · have hlock : p.lock t.call phase = some l := hl
        rw [← hlock]
        exact hfree v hv hvid (by rw [hlock]; rfl)
    · rcases hcases v hv with rfl | ⟨hv, hvid⟩
      · intro hlock
        have hsome : (p.lock t.call phase).isSome = true := by rw [hlock]; rfl
        exact hfree u hu huid hsome (hl.trans hlock.symm)
      · exact h.exclusive u hu v hv hne l hl
  · intro u hu
    rcases hcases u hu with rfl | ⟨hu, -⟩
    · exact hkeeps.moved h.db (h.knows t ht) hmoved
    · exact h.knows u hu

/-- A commit keeps the tables in order and what the other transactions know. -/
theorem Sound.commit (h : Sound p Inv Knows s) {db : δ} {reply : ρ} (ht : t ∈ s.inflight)
    (hG : G s.db t.call t.phase)
    (hcommitted : p.statement s.db t.call t.phase = .committed db reply) :
    Sound p Inv Knows { s.without t.id with db := db } where
  db := hkeeps.committed h.db (h.knows t ht) hG hcommitted
  ids := (h.without t.id).ids
  exclusive := (h.without t.id).exclusive
  knows u hu := by
    obtain ⟨hu, hid⟩ := mem_filter.1 hu
    have hne : t.id ≠ u.id := fun heq => by simp [heq] at hid
    exact hkeeps.frame h.db (h.knows t ht) hcommitted _ _ (h.knows u hu) (h.exclusive t ht u hu hne)

theorem Sound.step [DecidableEq Λ] (h : Sound p Inv Knows s) (hG : Meets G s event)
    {reply : Option (κ × ρ)} (hok : p.service s event = .ok (s', reply)) :
    Sound p Inv Knows s' := by
  cases happens hok with
  | begun id call hnew => exact h.begin hkeeps call hnew
  | moved t phase ht hmoved hfree => exact h.move hkeeps ht hmoved hfree
  | committed t db reply ht hcommitted => exact h.commit hkeeps ht (hG t ht rfl) hcommitted
  | failed t e ht hfailed => exact h.without t.id
  | rolledBack id => exact h.without id

/-- However transactions overlap, the tables stay in order and every transaction knows what it has
read. -/
theorem Sound.run [DecidableEq Λ] (h : Sound p Inv Knows s) {events : List (Event κ)}
    (hG : p.service.AllSteps (Meets G) s events) : Sound p Inv Knows (p.service.run s events) :=
  Service.run_invariant_of h (fun hsound hmeets hok => hsound.step hkeeps hmeets hok) hG

end

theorem Sound.run_always [DecidableEq Λ] (hkeeps : p.Keeps (fun _ _ _ => True) Inv Knows)
    (h : Sound p Inv Knows s) (events : List (Event κ)) :
    Sound p Inv Knows (p.service.run s events) :=
  Service.run_invariant h (fun hsound hok => hsound.step hkeeps (fun _ _ _ => trivial) hok) events

/-- An event for a transaction in flight runs its next statement. -/
theorem Sound.service_advance [DecidableEq Λ] (h : Sound p Inv Knows s) (ht : t ∈ s.inflight) :
    p.service s (.advance t.id) =
      match p.statement s.db t.call t.phase with
      | .moved phase =>
        if s.Free p t.id (p.lock t.call phase) then .ok (s.withPhase t.id phase, none)
        else .error ()
      | .committed db reply => .ok ({ s.without t.id with db := db }, some (t.call, reply))
      | .failed _ => .ok (s.without t.id, none) := by
  have hfind : s.inflight.find? (·.id = t.id) = some t := by
    cases hfound : s.inflight.find? (·.id = t.id) with
    | none => exact absurd (decide_eq_true rfl) (List.find?_eq_none.1 hfound t ht)
    | some u =>
      obtain ⟨hu, hid⟩ := find?_spec hfound
      rw [inj_on_of_nodup_map h.ids hu ht hid]
  simp only [Protocol.service, hfind]

/-! ## Transactions one by one -/

/-- If every commit does what serving its call at once does, the committed calls succeed when they
are served one by one, in the order of the commits, and leave the same tables. -/
theorem Sound.serial [DecidableEq Λ] (hkeeps : p.Keeps (fun _ _ _ => True) Inv Knows)
    {serve : Service δ κ ρ ε} (hserve : ∀ {db call phase db' reply}, Knows db call phase →
      p.statement db call phase = .committed db' reply → serve db call = .ok (db', reply))
    (h : Sound p Inv Knows s) (events : List (Event κ)) :
    (p.commits s events).foldlM (fun db call => (serve db call).map fst) s.db =
      .ok (p.service.run s events).db := by
  induction events generalizing s with
  | nil => rfl
  | cons event events ih =>
    have hnext : Sound p Inv Knows (p.service.next s event) := h.run_always hkeeps [event]
    rw [Service.run_cons, ← ih hnext, Protocol.commits, foldlM_append]
    cases hok : p.service s event with
    | error e =>
      rw [Service.next_of_error hok]
      rfl
    | ok result =>
      obtain ⟨s', committed⟩ := result
      rw [Service.next_of_ok hok]
      cases happens hok with
      | committed t db' reply ht hcommitted =>
        simp [hserve (h.knows t ht) hcommitted, Except.map]
      | begun | moved | failed | rolledBack => rfl

end Lib.Overlap
