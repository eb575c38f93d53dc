import Mathlib.Data.List.Perm.Subperm

/-!
# Greedy bipartite matching

First fit walks through one side and gives every element the first compatible partner that is left.
`Matching R as bs n` says that some matching of the relation `R` pairs `n` elements. First fit is a
matching, and every matching has at most twice its size. It is a maximum matching when the elements
of the left side that share a partner have the same partners.
-/

namespace Lib

open List Prod

variable {α β : Type*} [DecidableEq β]

/-- There is a matching of `n` pairs: partners are taken from `bs`, each at most once. -/
inductive Matching (R : α → β → Prop) : List α → List β → ℕ → Prop
  | nil (bs : List β) : Matching R [] bs 0
  | skip (a : α) {as : List α} {bs : List β} {n : ℕ} (h : Matching R as bs n) :
      Matching R (a :: as) bs n
  | pair {a : α} {as : List α} {b : β} {bs : List β} {n : ℕ} (hb : b ∈ bs) (hR : R a b)
      (h : Matching R as (bs.erase b) n) : Matching R (a :: as) bs (n + 1)

namespace Matching

variable {R : α → β → Prop} {as as' : List α} {bs bs' : List β} {n : ℕ}

section

variable (h : Matching R as bs n)
include h

theorem perm_right (hbs : bs.Perm bs') : Matching R as bs' n := by
  induction h generalizing bs' with
  | nil => exact .nil bs'
  | skip a h ih => exact .skip a (ih hbs)
  | pair hb hR h ih => exact .pair (hbs.mem_iff.1 hb) hR (ih (hbs.erase _))

theorem perm_left (has : as.Perm as') : Matching R as' bs n := by
  induction has generalizing bs n with
  | nil => exact h
  | cons a _ ih =>
    cases h with
    | skip _ h => exact .skip a (ih h)
    | pair hb hR h => exact .pair hb hR (ih h)
  | trans _ _ ih ih' => exact ih' (ih h)
  | swap a b as =>
    cases h with
    | skip _ h =>
      cases h with
      | skip _ h => exact .skip a (.skip b h)
      | pair hb hR h => exact .pair hb hR (.skip b h)
    | @pair _ _ y _ _ hb hR h =>
      cases h with
      | skip _ h => exact .skip a (.pair hb hR h)
      | @pair _ _ x _ _ hb' hR' h =>
        rw [erase_comm] at h
        refine .pair (mem_of_mem_erase hb') hR' (.pair ?_ hR h)
        by_cases hxy : x = y
        · rwa [hxy] at hb' ⊢
        · exact (mem_erase_of_ne (Ne.symm hxy)).2 hb

theorem of_subperm (hbs : bs.Subperm bs') : Matching R as bs' n := by
  induction h generalizing bs' with
  | nil => exact .nil bs'
  | skip a h ih => exact .skip a (ih hbs)
  | pair hb hR h ih => exact .pair (hbs.subset hb) hR (ih (hbs.erase _))

/-- One partner less costs at most one pair. -/
theorem erase (b : β) : ∃ m, Matching R as (bs.erase b) m ∧ n ≤ m + 1 := by
  induction h with
  | nil bs => exact ⟨0, .nil _, Nat.zero_le _⟩
  | skip a h ih =>
    obtain ⟨m, hm, hle⟩ := ih
    exact ⟨m, .skip a hm, hle⟩
  | @pair a as b' bs n hb' hR h ih =>
    by_cases hsame : b' = b
    · refine ⟨n, .skip a ?_, Nat.le_refl _⟩
      rwa [← hsame]
    · obtain ⟨m, hm, hle⟩ := ih
      rw [erase_comm] at hm
      exact ⟨m + 1, .pair ((mem_erase_of_ne hsame).2 hb') hR hm, by omega⟩

end

/-- A partner can be replaced by one that suits everyone whom it suits. -/
theorem replace {b b' : β} (h : Matching R as (b :: bs) n)
    (hsuits : ∀ a ∈ as, R a b → R a b') : Matching R as (b' :: bs) n := by
  generalize hleft : b :: bs = left at h
  induction h generalizing bs with
  | nil => exact .nil _
  | skip a h ih => exact .skip a (ih (fun a' ha' => hsuits a' (mem_cons_of_mem _ ha')) hleft)
  | @pair a as x left n hx hR h ih =>
    subst hleft
    have hrest : ∀ a' ∈ as, R a' b → R a' b' := fun a' ha' => hsuits a' (mem_cons_of_mem _ ha')
    by_cases hbx : b = x
    · -- The replaced partner was taken here.
      refine .pair (mem_cons_self (a := b')) (hsuits a mem_cons_self (hbx ▸ hR)) ?_
      rw [erase_cons_head]
      rwa [hbx, erase_cons_head] at h
    · rw [erase_cons_tail (by simpa using hbx)] at h ih
      have hxbs : x ∈ bs := (mem_cons.1 hx).resolve_left (Ne.symm hbx)
      refine .pair (mem_cons_of_mem _ hxbs) hR ?_
      by_cases hb'x : b' = x
      · rw [hb'x, erase_cons_head]
        refine (ih hrest rfl).perm_right ?_
        rw [hb'x]
        exact (perm_cons_erase hxbs).symm
      · rw [erase_cons_tail (by simpa using hb'x)]
        exact ih hrest rfl

theorem erase_swap {b b' : β} (hb : b ∈ bs) (hb' : b' ∈ bs) (h : Matching R as (bs.erase b') n)
    (hsuits : ∀ a ∈ as, R a b → R a b') : Matching R as (bs.erase b) n := by
  by_cases hsame : b = b'
  · rwa [hsame]
  · have hb1 : b ∈ bs.erase b' := (mem_erase_of_ne hsame).2 hb
    have hb2 : b' ∈ bs.erase b := (mem_erase_of_ne (Ne.symm hsame)).2 hb'
    have hreplaced := (h.perm_right (perm_cons_erase hb1)).replace hsuits
    rw [erase_comm] at hreplaced
    exact hreplaced.perm_right (perm_cons_erase hb2).symm

end Matching

/-! ## First fit -/

/-- What first fit decides: the partner of each element of the left side, and what is left of the
right side. -/
def firstFit (R : α → β → Prop) [∀ a b, Decidable (R a b)] :
    List α → List β → List (α × Option β) × List β
  | [], bs => ([], bs)
  | a :: as, bs =>
    match bs.find? (R a) with
    | some b => map ((a, some b) :: ·) id (firstFit R as (bs.erase b))
    | none => map ((a, none) :: ·) id (firstFit R as bs)

/-- The number of pairs of first fit. -/
def firstFitCount (R : α → β → Prop) [∀ a b, Decidable (R a b)] (as : List α) (bs : List β) : ℕ :=
  (firstFit R as bs).1.countP (·.2.isSome)

section FirstFit

variable {R : α → β → Prop} [∀ a b, Decidable (R a b)] {as : List α} {bs : List β} {a : α} {n : ℕ}

theorem firstFit_of_some {b : β} (h : bs.find? (R a) = some b) :
    firstFit R (a :: as) bs = map ((a, some b) :: ·) id (firstFit R as (bs.erase b)) := by
  simp only [firstFit, h]

theorem firstFit_of_none (h : bs.find? (R a) = none) :
    firstFit R (a :: as) bs = map ((a, none) :: ·) id (firstFit R as bs) := by
  simp only [firstFit, h]

theorem firstFitCount_of_some {b : β} (h : bs.find? (R a) = some b) :
    firstFitCount R (a :: as) bs = firstFitCount R as (bs.erase b) + 1 := by
  simp [firstFitCount, firstFit_of_some h]

theorem firstFitCount_of_none (h : bs.find? (R a) = none) :
    firstFitCount R (a :: as) bs = firstFitCount R as bs := by
  simp [firstFitCount, firstFit_of_none h]

omit [DecidableEq β] in
theorem find?_compatible {b : β} (h : bs.find? (R a) = some b) : b ∈ bs ∧ R a b :=
  ⟨mem_of_find?_eq_some h, by simpa using List.find?_some h⟩

omit [DecidableEq β] in
theorem find?_incompatible (h : bs.find? (R a) = none) {b : β} (hb : b ∈ bs) : ¬ R a b := by
  simpa using List.find?_eq_none.1 h b hb

/-- Every element of the left side is decided once, in its order. -/
theorem map_fst_firstFit (as : List α) (bs : List β) : (firstFit R as bs).1.map (·.1) = as := by
  induction as generalizing bs with
  | nil => rfl
  | cons a as ih =>
    cases hfind : bs.find? (R a) with
    | some b =>
      rw [firstFit_of_some hfind]
      exact congrArg (a :: ·) (ih _)
    | none =>
      rw [firstFit_of_none hfind]
      exact congrArg (a :: ·) (ih _)

theorem firstFit_perm (as : List α) (bs : List β) :
    ((firstFit R as bs).1.filterMap (·.2) ++ (firstFit R as bs).2).Perm bs := by
  induction as generalizing bs with
  | nil => exact List.Perm.refl _
  | cons a as ih =>
    cases hfind : bs.find? (R a) with
    | some b =>
      rw [firstFit_of_some hfind]
      exact ((ih (bs.erase b)).cons b).trans (perm_cons_erase (find?_compatible hfind).1).symm
    | none =>
      rw [firstFit_of_none hfind]
      exact ih bs

theorem firstFit_compatible {b : β} (h : (a, some b) ∈ (firstFit R as bs).1) : R a b := by
  induction as generalizing bs with
  | nil => cases h
  | cons x as ih =>
    cases hfind : bs.find? (R x) with
    | some y =>
      rw [firstFit_of_some hfind] at h
      rcases mem_cons.1 h with heq | h
      · obtain ⟨rfl, hb⟩ := mk.inj heq
        obtain rfl := Option.some.inj hb
        exact (find?_compatible hfind).2
      · exact ih h
    | none =>
      rw [firstFit_of_none hfind] at h
      rcases mem_cons.1 h with heq | h
      · cases (mk.inj heq).2
      · exact ih h

theorem firstFit_maximal (h : (a, none) ∈ (firstFit R as bs).1) {b : β}
    (hb : b ∈ (firstFit R as bs).2) : ¬ R a b := by
  induction as generalizing bs with
  | nil => cases h
  | cons x as ih =>
    cases hfind : bs.find? (R x) with
    | some y =>
      rw [firstFit_of_some hfind] at h hb
      rcases mem_cons.1 h with heq | h
      · cases (mk.inj heq).2
      · exact ih h hb
    | none =>
      rw [firstFit_of_none hfind] at h hb
      rcases mem_cons.1 h with heq | h
      · obtain ⟨rfl, -⟩ := mk.inj heq
        exact find?_incompatible hfind ((firstFit_perm as bs).mem_iff.1 (mem_append_right _ hb))
      · exact ih h hb

theorem matching_firstFit (as : List α) (bs : List β) :
    Matching R as bs (firstFitCount R as bs) := by
  induction as generalizing bs with
  | nil => exact .nil bs
  | cons a as ih =>
    cases hfind : bs.find? (R a) with
    | some b =>
      rw [firstFitCount_of_some hfind]
      obtain ⟨hb, hR⟩ := find?_compatible hfind
      exact .pair hb hR (ih _)
    | none =>
      rw [firstFitCount_of_none hfind]
      exact .skip a (ih bs)

theorem Matching.le_two_mul_firstFitCount (h : Matching R as bs n) :
    n ≤ 2 * firstFitCount R as bs := by
  induction as generalizing bs n with
  | nil =>
    cases h
    exact Nat.zero_le _
  | cons a as ih =>
    cases hfind : bs.find? (R a) with
    | none =>
      rw [firstFitCount_of_none hfind]
      cases h with
      | skip _ h => exact ih h
      | pair hb hR _ => exact absurd hR (find?_incompatible hfind hb)
    | some b =>
      rw [firstFitCount_of_some hfind]
      cases h with
      | skip _ h =>
        obtain ⟨m, hm, hle⟩ := h.erase b
        have := ih hm
        omega
      | pair _ _ h =>
        obtain ⟨m, hm, hle⟩ := h.erase b
        rw [erase_comm] at hm
        -- The partner that the matching gives to `a` is put back.
        have := ih (hm.of_subperm (erase_sublist).subperm)
        omega

/-- Elements that share a partner have the same partners. -/
def SharedPartners (R : α → β → Prop) (as : List α) (bs : List β) : Prop :=
  ∀ a ∈ as, ∀ a' ∈ as, ∀ b ∈ bs, R a b → R a' b → ∀ b' ∈ bs, R a b' → R a' b'

/-- Where elements that share a partner have the same partners, first fit is a maximum matching. -/
theorem Matching.le_firstFitCount (hshared : SharedPartners R as bs) (h : Matching R as bs n) :
    n ≤ firstFitCount R as bs := by
  induction as generalizing bs n with
  | nil =>
    cases h
    exact Nat.zero_le _
  | cons a as ih =>
    have htail : ∀ b : β, SharedPartners R as (bs.erase b) := fun b x hx y hy z hz hxz hyz w hw =>
      hshared x (mem_cons_of_mem _ hx) y (mem_cons_of_mem _ hy) z
        (mem_of_mem_erase hz) hxz hyz w (mem_of_mem_erase hw)
    cases hfind : bs.find? (R a) with
    | none =>
      rw [firstFitCount_of_none hfind]
      cases h with
      | skip _ h =>
        refine ih (fun x hx y hy => ?_) h
        exact hshared x (mem_cons_of_mem _ hx) y (mem_cons_of_mem _ hy)
      | pair hb hR _ => exact absurd hR (find?_incompatible hfind hb)
    | some b =>
      rw [firstFitCount_of_some hfind]
      obtain ⟨hb, hR⟩ := find?_compatible hfind
      cases h with
      | skip _ h =>
        obtain ⟨m, hm, hle⟩ := h.erase b
        have := ih (htail b) hm
        omega
      | pair hb' hR' h =>
        -- Whoever the matching gives the partner of first fit can take the one of the matching.
        have hswap := h.erase_swap hb hb' fun x hx hxb =>
          hshared a mem_cons_self x (mem_cons_of_mem _ hx) b hb hR hxb _ hb' hR'
        have := ih (htail b) hswap
        omega

theorem firstFitCount_perm (hshared : SharedPartners R as bs) {as' : List α} {bs' : List β}
    (has : as.Perm as') (hbs : bs.Perm bs') : firstFitCount R as' bs' = firstFitCount R as bs := by
  have hshared' : SharedPartners R as' bs' := fun a ha a' ha' b hb hab ha'b b' hb' hab' =>
    hshared a (has.mem_iff.2 ha) a' (has.mem_iff.2 ha') b (hbs.mem_iff.2 hb) hab ha'b b'
      (hbs.mem_iff.2 hb') hab'
  refine Nat.le_antisymm ?_ ?_
  · exact (((matching_firstFit as' bs').perm_left has.symm).perm_right hbs.symm).le_firstFitCount
      hshared
  · exact (((matching_firstFit as bs).perm_left has).perm_right hbs).le_firstFitCount hshared'

end FirstFit

end Lib
