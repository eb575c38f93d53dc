import Mathlib.Tactic.Common

/-!
# Guards and lookups in `Except`

Operations that check, look up and then write are written as `do` blocks in `Except`. The lemmas
here invert such a block: a block that returns `.ok` names every intermediate result and every
guard that held.
-/

namespace Lib

open List

universe u v

variable {ε : Type u} {α β : Type v}

/-- Fail with `e` unless `c` holds. -/
def ensure (c : Prop) [Decidable c] (e : ε) : Except ε Unit := if c then .ok () else .error e

/-- The value of a lookup, or the failure `e` when nothing was found. -/
def orFail (o : Option α) (e : ε) : Except ε α :=
  match o with
  | some a => .ok a
  | none => .error e

variable {f : α → Except ε β} {x : Except ε α} {e : ε} {a : α} {as : List α}

theorem bind_eq_ok {b : β} : (x >>= f) = .ok b ↔ ∃ a, x = .ok a ∧ f a = .ok b := by
  cases x with
  | ok a | error e => simp [bind, Except.bind]

@[simp] theorem ensure_eq_ok {c : Prop} [Decidable c] {u : Unit} : ensure c e = .ok u ↔ c := by
  by_cases hc : c <;> simp [ensure, hc]

@[simp] theorem orFail_eq_ok {o : Option α} : orFail o e = .ok a ↔ o = some a := by
  cases o <;> simp [orFail]

@[simp] theorem pure_eq_ok {b : α} : (pure a : Except ε α) = .ok b ↔ a = b := by
  simp [pure, Except.pure]

theorem map_eq_ok {f : α → β} {b : β} : x.map f = .ok b ↔ ∃ a, x = .ok a ∧ f a = b := by
  cases x with
  | ok a | error e => simp [Except.map]

/-- A block fails with the failure of its first step, or of what follows it. -/
theorem bind_eq_error : (x >>= f) = .error e ↔ x = .error e ∨ ∃ a, x = .ok a ∧ f a = .error e := by
  cases x with
  | ok a | error e' => simp [bind, Except.bind]

@[simp] theorem ensure_eq_error {c : Prop} [Decidable c] {e' : ε} :
    ensure c e = .error e' ↔ ¬ c ∧ e = e' := by
  by_cases hc : c <;> simp [ensure, hc]

@[simp] theorem orFail_eq_error {o : Option α} {e' : ε} :
    orFail o e = .error e' ↔ o = none ∧ e = e' := by
  cases o <;> simp [orFail]

@[simp] theorem pure_ne_error : (pure a : Except ε α) ≠ .error e := nofun

theorem ensure_of {c : Prop} [Decidable c] (h : c) : ensure c e = .ok () := by
  simp [ensure, h]

theorem ensure_of_not {c : Prop} [Decidable c] (h : ¬ c) : ensure c e = .error e := by
  simp [ensure, h]

@[simp] theorem orFail_some : orFail (some a) e = .ok a := rfl

@[simp] theorem orFail_none : orFail (none : Option α) e = .error e := rfl

@[simp] theorem ok_bind (a : α) (f : α → Except ε β) : (Except.ok a >>= f) = f a := rfl

@[simp] theorem error_bind (e : ε) (f : α → Except ε β) :
    ((.error e : Except ε α) >>= f) = .error e := rfl

theorem bind_of_map {γ : Type v} (x : Except ε α) (f : α → β) (g : β → Except ε γ) :
    (x.map f >>= g) = x >>= fun a => g (f a) := by
  cases x with
  | ok a | error e => rfl

theorem map_of_bind {γ : Type v} (x : Except ε α) (f : α → Except ε β) (g : β → γ) :
    (x >>= f).map g = x >>= fun a => (f a).map g := by
  cases x with
  | ok a | error e => rfl

/-- What follows a block matters only for the result that the block has. -/
theorem bind_congr_ok {g : α → Except ε β} (h : ∀ a, x = .ok a → f a = g a) :
    (x >>= f) = x >>= g := by
  cases x with
  | ok a => exact h a rfl
  | error e => rfl

theorem foldlM_eq_error {γ : Type*} {f : α → γ → Except ε α} {cs : List γ} :
    cs.foldlM f a = .error e ↔ ∃ before c after a', cs = before ++ c :: after ∧
      before.foldlM f a = .ok a' ∧ f a' c = .error e := by
  induction cs generalizing a with
  | nil => simp [pure, Except.pure]
  | cons c cs ih =>
    rw [foldlM_cons, bind_eq_error]
    constructor
    · rintro (h | ⟨a₁, hstep, hrest⟩)
      · exact ⟨[], c, cs, a, rfl, rfl, h⟩
      · obtain ⟨before, d, after, a', rfl, hbefore, hd⟩ := ih.1 hrest
        refine ⟨c :: before, d, after, a', rfl, ?_, hd⟩
        rw [foldlM_cons, hstep]
        exact hbefore
    · rintro ⟨before, d, after, a', hcs, hbefore, hd⟩
      cases before with
      | nil =>
        obtain ⟨rfl, rfl⟩ := List.cons.inj hcs
        obtain rfl : a = a' := pure_eq_ok.1 hbefore
        exact .inl hd
      | cons c' before =>
        obtain ⟨rfl, rfl⟩ := List.cons.inj hcs
        rw [foldlM_cons, bind_eq_ok] at hbefore
        obtain ⟨a₁, hstep, hbefore⟩ := hbefore
        exact .inr ⟨a₁, hstep, ih.2 ⟨before, d, after, a', rfl, hbefore, hd⟩⟩

/-- The results of a block over a list are those of its elements. -/
theorem mem_of_mapM_eq_ok {γ : Type*} {f : γ → Except ε α} {cs : List γ} (h : cs.mapM f = .ok as) :
    a ∈ as ↔ ∃ c ∈ cs, f c = .ok a := by
  induction cs generalizing as with
  | nil =>
    rw [mapM_nil, pure_eq_ok] at h
    simp [← h]
  | cons c cs ih =>
    rw [mapM_cons, bind_eq_ok] at h
    obtain ⟨a₁, hfirst, h⟩ := h
    obtain ⟨as', hrest, h⟩ := bind_eq_ok.1 h
    obtain rfl := pure_eq_ok.1 h
    simp only [mem_cons, ih hrest, exists_eq_or_imp, hfirst, Except.ok.injEq]
    exact or_congr eq_comm Iff.rfl

theorem exists_mapM_eq_ok {γ : Type*} {f : γ → Except ε α} {cs : List γ}
    (h : ∀ c ∈ cs, ∃ a, f c = .ok a) : ∃ as, cs.mapM f = .ok as := by
  induction cs with
  | nil => exact ⟨[], rfl⟩
  | cons c cs ih =>
    obtain ⟨a, ha⟩ := h c (mem_cons_self ..)
    obtain ⟨as, has⟩ := ih fun d hd => h d (mem_cons_of_mem _ hd)
    refine ⟨a :: as, ?_⟩
    rw [mapM_cons, ha, has]
    rfl

theorem mapM_eq_filterMap {γ : Type*} {f : γ → Except ε α} {cs : List γ}
    (h : ∀ c ∈ cs, ∃ a, f c = .ok a) : cs.mapM f = .ok (cs.filterMap fun c => (f c).toOption) := by
  induction cs with
  | nil => rfl
  | cons c cs ih =>
    obtain ⟨⟨a, ha⟩, hcs⟩ := forall_mem_cons.1 h
    have hsome : (f c).toOption = some a := by rw [ha]; rfl
    rw [mapM_cons, ha, ok_bind, ih hcs, filterMap_cons_some (f := fun c => (f c).toOption) hsome]
    rfl

theorem exists_mapM_map {γ : Type*} {δ : Type*} {f : γ → Except ε α} {g : α → δ} {k : γ → δ}
    {cs : List γ} (h : ∀ c ∈ cs, ∃ a, f c = .ok a ∧ g a = k c) :
    ∃ as, cs.mapM f = .ok as ∧ as.map g = cs.map k := by
  induction cs with
  | nil => exact ⟨[], rfl, rfl⟩
  | cons c cs ih =>
    obtain ⟨⟨a, ha, hread⟩, hcs⟩ := forall_mem_cons.1 h
    obtain ⟨as, has, hmap⟩ := ih hcs
    refine ⟨a :: as, ?_, ?_⟩
    · rw [mapM_cons, ha, ok_bind, has]
      rfl
    · rw [map_cons, map_cons, hread, hmap]

theorem mapM_eq_map {γ : Type*} {f : γ → Except ε α} {g : γ → α} {cs : List γ}
    (h : ∀ c ∈ cs, f c = .ok (g c)) : cs.mapM f = .ok (cs.map g) := by
  induction cs with
  | nil => rfl
  | cons c cs ih =>
    obtain ⟨hc, hcs⟩ := forall_mem_cons.1 h
    rw [mapM_cons, hc, ok_bind, ih hcs]
    rfl

theorem mapM_eq_error_of_mem {γ : Type*} {f : γ → Except ε α} {cs : List γ} {c : γ} (hc : c ∈ cs)
    (h : f c = .error e) : ∃ e', cs.mapM f = .error e' := by
  induction cs with
  | nil => cases hc
  | cons d cs ih =>
    rw [mapM_cons]
    cases hd : f d with
    | error e' => exact ⟨e', rfl⟩
    | ok a =>
      rcases mem_cons.1 hc with rfl | hc
      · rw [h] at hd
        cases hd
      · obtain ⟨e', he'⟩ := ih hc
        exact ⟨e', by rw [ok_bind, he']; rfl⟩

/-- A block over a list goes through just where it does for each element. -/
theorem mapM_eq_ok_iff {γ : Type*} {f : γ → Except ε α} {cs : List γ} : cs.mapM f = .ok as ↔
      (∀ c ∈ cs, ∃ a, f c = .ok a) ∧ as = cs.filterMap fun c => (f c).toOption := by
  constructor
  · intro h
    have hall : ∀ c ∈ cs, ∃ a, f c = .ok a := by
      intro c hc
      cases hfc : f c with
      | ok a => exact ⟨a, rfl⟩
      | error e =>
        obtain ⟨e', he'⟩ := mapM_eq_error_of_mem hc hfc
        rw [he'] at h
        cases h
    rw [mapM_eq_filterMap hall] at h
    exact ⟨hall, (Except.ok.inj h).symm⟩
  · rintro ⟨hall, rfl⟩
    exact mapM_eq_filterMap hall

theorem exists_mapM_perm {γ : Type*} {f : γ → Except ε α} {cs cs' : List γ} (hperm : cs.Perm cs')
    (h : cs.mapM f = .ok as) : ∃ as', cs'.mapM f = .ok as' ∧ as.Perm as' := by
  obtain ⟨hall, rfl⟩ := mapM_eq_ok_iff.1 h
  exact ⟨_, mapM_eq_filterMap fun c hc => hall c (hperm.mem_iff.2 hc), hperm.filterMap _⟩

theorem mapM_orFail {γ : Type*} {f : γ → Option α} {cs : List γ} (h : ∀ c ∈ cs, (f c).isSome) :
    cs.mapM (fun c => orFail (f c) e) = .ok (cs.filterMap f) := by
  induction cs with
  | nil => rfl
  | cons c cs ih =>
    obtain ⟨hc, hcs⟩ := forall_mem_cons.1 h
    obtain ⟨a, ha⟩ := Option.isSome_iff_exists.1 hc
    rw [mapM_cons, ha, orFail_some, ok_bind, ih hcs, filterMap_cons_some ha]
    rfl

end Lib
