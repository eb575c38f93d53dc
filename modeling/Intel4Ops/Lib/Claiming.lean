import Mathlib.Data.List.Pairwise
import Mathlib.Tactic.Common

/-!
# Successive claims

Passes are made in order. A pass that is entered takes items, and what it takes may claim keys;
later passes are told the keys that are claimed. Where no pass takes an item whose key is claimed,
no two passes hold items that claim a common key.
-/

namespace Lib.Claiming

open List

variable {τ σ κ : Type*} (enter : τ → Bool) (take : τ → List κ → List σ) (claims : σ → List κ)

/-- The passes over some tags, each with the items that it takes. -/
def passes : List τ → List κ → List (τ × List σ)
  | [], _ => []
  | t :: ts, claimed =>
    if enter t then
      (t, take t claimed) :: passes ts (claimed ++ (take t claimed).flatMap claims)
    else passes ts claimed

variable {enter take claims}

variable {p : τ × List σ} {ts : List τ}

theorem exists_take {claimed : List κ} (hp : p ∈ passes enter take claims ts claimed) :
    ∃ before, p.2 = take p.1 before := by
  induction ts generalizing claimed with
  | nil => cases hp
  | cons t ts ih =>
    rw [passes] at hp
    split at hp
    · rcases mem_cons.1 hp with rfl | hp
      · exact ⟨claimed, rfl⟩
      · exact ih hp
    · exact ih hp

/-- No two items claim a common key. -/
def Disjoint (claims : σ → List κ) (p q : τ × List σ) : Prop :=
  ∀ s ∈ p.2, ∀ s' ∈ q.2, ∀ k ∈ claims s, k ∉ claims s'

instance : Std.Symm (Disjoint (τ := τ) claims) :=
  ⟨fun _ _ h s hs s' hs' k hk hk' => h s' hs' s hs k hk' hk⟩

section

variable (htake : ∀ t claimed, ∀ s ∈ take t claimed, ∀ k ∈ claims s, k ∉ claimed)
include htake

theorem not_mem_claims {claimed : List κ} (hp : p ∈ passes enter take claims ts claimed) {s : σ}
    (hs : s ∈ p.2) {k : κ} (hk : k ∈ claimed) : k ∉ claims s := by
  induction ts generalizing claimed with
  | nil => cases hp
  | cons t ts ih =>
    rw [passes] at hp
    split at hp
    · rcases mem_cons.1 hp with rfl | hp
      · exact fun hks => htake t claimed s hs k hks hk
      · exact ih hp (mem_append_left _ hk)
    · exact ih hp hk

theorem pairwise_passes (ts : List τ) (claimed : List κ) :
    (passes enter take claims ts claimed).Pairwise (Disjoint claims) := by
  induction ts generalizing claimed with
  | nil => exact Pairwise.nil
  | cons t ts ih =>
    rw [passes]
    split
    · refine Pairwise.cons (fun q hq s hs s' hs' k hk => ?_) (ih _)
      exact not_mem_claims htake hq hs' (mem_append_right _ (mem_flatMap.2 ⟨s, hs, hk⟩))
    · exact ih _

theorem disjoint_of_ne {claimed : List κ} {q : τ × List σ}
    (hp : p ∈ passes enter take claims ts claimed) (hq : q ∈ passes enter take claims ts claimed)
    (hne : p.1 ≠ q.1) : Disjoint claims p q :=
  (pairwise_passes htake ts claimed).forall hp hq fun heq => hne (congrArg Prod.fst heq)

end

end Lib.Claiming
