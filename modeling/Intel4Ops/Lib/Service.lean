import Mathlib.Tactic.Common
import Mathlib.Logic.Relation

/-!
# Transactional services and their runs

A service answers a request against a stored state: it commits a new state together with a reply,
or fails. A failed request is rolled back, so it leaves the stored state as it was. `run` folds a
list of requests over a state, and the rules below lift what one committed request preserves to
what every run preserves.
-/

namespace Lib

/-- A service over states `σ`: a request `α` commits a state with a reply `ρ`, or fails with `ε`. -/
abbrev Service (σ α ρ ε : Type*) := σ → α → Except ε (σ × ρ)

namespace Service

variable {σ α ρ ε : Type*}

/-- The stored state after one request; a failed request is rolled back. -/
def next (step : Service σ α ρ ε) (s : σ) (a : α) : σ :=
  match step s a with
  | .ok (s', _) => s'
  | .error _ => s

/-- The stored state after a list of requests, served in order. -/
def run (step : Service σ α ρ ε) (s : σ) (as : List α) : σ := as.foldl step.next s

/-- `t` is the stored state after some list of requests served from a state of `Init`. -/
def Reachable (step : Service σ α ρ ε) (Init : σ → Prop) (t : σ) : Prop :=
  ∃ s as, Init s ∧ step.run s as = t

/-- Every request of the list meets `G` in the state in which it is served. -/
def AllSteps (step : Service σ α ρ ε) (G : σ → α → Prop) : σ → List α → Prop
  | _, [] => True
  | s, a :: as => G s a ∧ AllSteps step G (step.next s a) as

instance AllSteps.decidable (step : Service σ α ρ ε) (G : σ → α → Prop)
    [∀ s a, Decidable (G s a)] : ∀ s as, Decidable (AllSteps step G s as)
  | _, [] => inferInstanceAs (Decidable True)
  | s, a :: as =>
    have := AllSteps.decidable step G (step.next s a) as
    inferInstanceAs (Decidable (_ ∧ _))

variable {step : Service σ α ρ ε}

variable {s : σ} {as : List α}

theorem next_of_ok {s' : σ} {a : α} {r : ρ} (h : step s a = .ok (s', r)) : step.next s a = s' := by
  simp only [next, h]

theorem next_of_error {a : α} {e : ε} (h : step s a = .error e) : step.next s a = s := by
  simp only [next, h]

/-- A committed reply is the reply of the operation behind it. -/
theorem reply_ok {β : Type*} {x : Except ε (σ × β)} {wrap : β → ρ} {r : ρ}
    (h : x.map (Prod.map id wrap) = .ok (s, r)) : ∃ b, x = .ok (s, b) ∧ r = wrap b := by
  cases x with
  | error e => cases h
  | ok p =>
    simp only [Except.map, Except.ok.injEq] at h
    have hstate : p.1 = s := congrArg Prod.fst h
    exact ⟨p.2, by rw [← hstate], (congrArg Prod.snd h).symm⟩

/-- A request either commits or leaves the stored state as it was. -/
theorem next_cases (step : Service σ α ρ ε) (s : σ) (a : α) :
    (∃ s' r, step s a = .ok (s', r) ∧ step.next s a = s') ∨
      (∃ e, step s a = .error e ∧ step.next s a = s) := by
  cases h : step s a with
  | ok p => exact .inl ⟨p.1, p.2, rfl, next_of_ok h⟩
  | error e => exact .inr ⟨e, rfl, next_of_error h⟩

@[simp] theorem run_nil (s : σ) : step.run s [] = s := rfl

@[simp] theorem run_cons (s : σ) (a : α) (as : List α) :
    step.run s (a :: as) = step.run (step.next s a) as := rfl

theorem run_append (s : σ) (as bs : List α) : step.run s (as ++ bs) = step.run (step.run s as) bs :=
  List.foldl_append ..

@[simp] theorem allSteps_nil (G : σ → α → Prop) (s : σ) : step.AllSteps G s [] := trivial

@[simp] theorem allSteps_cons (G : σ → α → Prop) (s : σ) (a : α) (as : List α) :
    step.AllSteps G s (a :: as) ↔ G s a ∧ step.AllSteps G (step.next s a) as := Iff.rfl

/-- A condition on every step splits at any point of the run. -/
theorem allSteps_append (G : σ → α → Prop) (s : σ) (as bs : List α) :
    step.AllSteps G s (as ++ bs) ↔ step.AllSteps G s as ∧ step.AllSteps G (step.run s as) bs := by
  induction as generalizing s with
  | nil => simp
  | cons a as ih => simp only [List.cons_append, allSteps_cons, run_cons, ih, and_assoc]

/-- A condition on every step says the same at every point where the run can be cut. -/
theorem allSteps_iff {G : σ → α → Prop} :
    step.AllSteps G s as ↔ ∀ bs a cs, as = bs ++ a :: cs → G (step.run s bs) a := by
  constructor
  · rintro h bs a cs rfl
    exact ((allSteps_append G s bs (a :: cs)).1 h).2.1
  · intro h
    induction as generalizing s with
    | nil => trivial
    | cons a as ih =>
      refine ⟨h [] a as rfl, ih fun bs b cs has => ?_⟩
      exact h (a :: bs) b cs (congrArg (a :: ·) has)

theorem allSteps_true (s : σ) (as : List α) : step.AllSteps (fun _ _ => True) s as := by
  induction as generalizing s with
  | nil => trivial
  | cons a as ih => exact ⟨trivial, ih _⟩

/-- Invariant rule: what holds at the start and is kept by every committed request that meets `G`
holds after every run whose requests all meet `G`. -/
theorem run_invariant_of {G : σ → α → Prop} {P : σ → Prop} (h0 : P s)
    (hstep : ∀ {s a s' r}, P s → G s a → step s a = .ok (s', r) → P s')
    (hG : step.AllSteps G s as) : P (step.run s as) := by
  induction as generalizing s with
  | nil => exact h0
  | cons a as ih =>
    refine ih ?_ hG.2
    rcases next_cases step s a with ⟨s', r, hok, hnext⟩ | ⟨e, -, hnext⟩
    · rw [hnext]; exact hstep h0 hG.1 hok
    · rw [hnext]; exact h0

/-- What every request does in the states that the invariant describes, every request of the run
does. -/
theorem allSteps_of_invariant {G H : σ → α → Prop} {P : σ → Prop} (h0 : P s)
    (hstep : ∀ {s a s' r}, P s → G s a → step s a = .ok (s', r) → P s')
    (hH : ∀ {s a}, P s → G s a → H s a) (hG : step.AllSteps G s as) : step.AllSteps H s as := by
  rw [allSteps_iff]
  rintro bs a cs rfl
  obtain ⟨hbefore, ha, -⟩ := (allSteps_append G s bs (a :: cs)).1 hG
  exact hH (run_invariant_of h0 hstep hbefore) ha

/-- Invariant rule without a condition on the requests. -/
theorem run_invariant {P : σ → Prop} (h0 : P s)
    (hstep : ∀ {s a s' r}, P s → step s a = .ok (s', r) → P s') (as : List α) : P (step.run s as) :=
  run_invariant_of (G := fun _ _ => True) h0 (fun hP _ h => hstep hP h) (allSteps_true s as)

/-- Frame rule: a reflexive and transitive relation that every committed request respects relates
the two ends of every run. -/
theorem run_frame {R : σ → σ → Prop} (hrefl : ∀ s, R s s)
    (htrans : ∀ {s t u}, R s t → R t u → R s u)
    (hstep : ∀ {s a s' r}, step s a = .ok (s', r) → R s s') (s : σ) (as : List α) :
    R s (step.run s as) :=
  run_invariant (P := fun t => R s t) (hrefl s) (fun hR h => htrans hR (hstep h)) as

namespace Reachable

variable {Init : σ → Prop}

/-- Serving more requests from a reachable state reaches another one. -/
theorem run {s : σ} (h : step.Reachable Init s) (as : List α) :
    step.Reachable Init (step.run s as) := by
  obtain ⟨s0, bs, h0, rfl⟩ := h
  exact ⟨s0, bs ++ as, h0, run_append ..⟩

/-- A property of the initial states that every committed request keeps holds in every reachable
state. -/
theorem induction {P : σ → Prop} {t : σ} (h : step.Reachable Init t) (h0 : ∀ {s}, Init s → P s)
    (hstep : ∀ {s a s' r}, P s → step s a = .ok (s', r) → P s') : P t := by
  obtain ⟨s, as, hs, rfl⟩ := h
  exact run_invariant (h0 hs) hstep as

end Reachable

end Service

end Lib
