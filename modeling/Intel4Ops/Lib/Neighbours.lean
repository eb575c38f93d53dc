import Mathlib.Data.Set.Finite.Lemmas
import Mathlib.Data.Set.Finite.List

/-!
# Neighbours in an order

Two elements are consecutive among others if the second comes after the first and nothing comes
between them. The pairs of neighbours of a sorted list are the consecutive ones of its elements, and
in a finite set every element that is not alone is one of two consecutive ones.
-/

namespace Lib

open List

variable {α τ : Type*} [LinearOrder τ] {f : α → τ}

/-! ## Consecutive elements -/

/-- The second element comes after the first, and no other one between them. -/
structure Consecutive (f : α → τ) (s : Set α) (a b : α) : Prop where
  left : a ∈ s
  right : b ∈ s
  lt : f a < f b
  between : ∀ c ∈ s, ¬ (f a < f c ∧ f c < f b)

theorem exists_next {s : Set α} (hs : s.Finite) {a b : α} (ha : a ∈ s) (hb : b ∈ s)
    (hlt : f a < f b) : ∃ c, Consecutive f s a c := by
  have hlater : {c ∈ s | f a < f c}.Finite := hs.subset fun c hc => hc.1
  obtain ⟨c, hc, hmin⟩ := Set.exists_min_image _ f hlater ⟨b, hb, hlt⟩
  exact ⟨c, ha, hc.1, hc.2, fun d hd hbetween =>
    absurd (hmin d ⟨hd, hbetween.1⟩) (not_le.2 hbetween.2)⟩

theorem exists_previous {s : Set α} (hs : s.Finite) {a b : α} (ha : a ∈ s) (hb : b ∈ s)
    (hlt : f a < f b) : ∃ c, Consecutive f s c b := by
  have hearlier : {c ∈ s | f c < f b}.Finite := hs.subset fun c hc => hc.1
  obtain ⟨c, hc, hmax⟩ := Set.exists_max_image _ f hearlier ⟨a, ha, hlt⟩
  exact ⟨c, hc.1, hb, hc.2, fun d hd hbetween =>
    absurd (hmax d ⟨hd, hbetween.2⟩) (not_le.2 hbetween.1)⟩

/-! ## Neighbours in a list -/

/-- Each element with the one after it. -/
def neighbours (l : List α) : List (α × α) := l.zip l.tail

theorem map_fst_neighbours (l : List α) : (neighbours l).map Prod.fst = l.dropLast := by
  induction l with
  | nil => rfl
  | cons a l ih =>
    cases l with
    | nil => rfl
    | cons b l =>
      rw [dropLast_cons_cons, ← ih]
      rfl

theorem map_snd_neighbours (l : List α) : (neighbours l).map Prod.snd = l.tail :=
  map_snd_zip (by rw [length_tail]; exact Nat.sub_le _ _)

theorem length_neighbours (l : List α) : (neighbours l).length = l.length - 1 := by
  rw [← length_map (f := Prod.fst), map_fst_neighbours, length_dropLast]

/-- The neighbours in a sorted list are the consecutive ones of its elements. -/
theorem mem_neighbours {l : List α} (h : l.Pairwise fun a b => f a < f b) {a b : α} :
    (a, b) ∈ neighbours l ↔ Consecutive f {c | c ∈ l} a b := by
  induction l with
  | nil => exact iff_of_false not_mem_nil fun hab => absurd hab.left not_mem_nil
  | cons c l ih =>
    obtain ⟨hfirst, hrest⟩ := pairwise_cons.1 h
    cases l with
    | nil =>
      refine iff_of_false not_mem_nil fun hab => ?_
      obtain rfl := mem_singleton.1 hab.left
      obtain rfl := mem_singleton.1 hab.right
      exact lt_irrefl _ hab.lt
    | cons d l =>
      have hsplit : neighbours (c :: d :: l) = (c, d) :: neighbours (d :: l) := rfl
      rw [hsplit, mem_cons, ih hrest, Prod.mk.injEq]
      constructor
      · rintro (⟨rfl, rfl⟩ | hab)
        · refine ⟨mem_cons_self, mem_cons_of_mem _ mem_cons_self, hfirst _ mem_cons_self, ?_⟩
          rintro e he ⟨hae, heb⟩
          rcases mem_cons.1 he with rfl | he
          · exact lt_irrefl _ hae
          · rcases mem_cons.1 he with rfl | he
            · exact lt_irrefl _ heb
            · exact lt_asymm heb ((pairwise_cons.1 hrest).1 e he)
        · refine ⟨mem_cons_of_mem _ hab.left, mem_cons_of_mem _ hab.right, hab.lt, ?_⟩
          rintro e he ⟨hae, heb⟩
          rcases mem_cons.1 he with rfl | he
          · exact lt_asymm hae (hfirst a hab.left)
          · exact hab.between e he ⟨hae, heb⟩
      · intro hab
        have hright : b ∈ d :: l := by
          rcases mem_cons.1 hab.right with rfl | hb
          · rcases mem_cons.1 hab.left with rfl | ha
            · exact absurd hab.lt (lt_irrefl _)
            · exact absurd hab.lt (lt_asymm (hfirst a ha))
          · exact hb
        rcases mem_cons.1 hab.left with rfl | hleft
        · left
          refine ⟨rfl, ?_⟩
          rcases mem_cons.1 hright with rfl | hb
          · rfl
          · exact absurd ⟨hfirst d mem_cons_self, (pairwise_cons.1 hrest).1 b hb⟩
              (hab.between d (mem_cons_of_mem _ mem_cons_self))
        · exact .inr ⟨hleft, hright, hab.lt, fun e he =>
            hab.between e (mem_cons_of_mem _ he)⟩

/-! ## Sorting by a key that decides -/

theorem pairwise_lt_insertionSort {r : α → α → Prop} [DecidableRel r] [Std.Total r] [IsTrans α r]
    (hr : ∀ a b, r a b → f a ≤ f b) {l : List α} (h : (l.map f).Nodup) :
    (l.insertionSort r).Pairwise fun a b => f a < f b := by
  have hnodup : ((l.insertionSort r).map f).Nodup := ((perm_insertionSort r l).map f).nodup_iff.2 h
  have hne : (l.insertionSort r).Pairwise fun a b => f a ≠ f b := pairwise_map.1 hnodup
  exact ((pairwise_insertionSort r l).and hne).imp fun {a b} hab =>
    lt_of_le_of_ne (hr a b hab.1) hab.2

end Lib
