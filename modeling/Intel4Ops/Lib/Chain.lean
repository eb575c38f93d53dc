import Mathlib.Data.List.Range
import Mathlib.Data.List.Sort

/-!
# Chains of rows

A list whose neighbours are related: what one link says of its two ends, the chain says of the whole
list.
-/

namespace Lib.Chain

open List

variable {α β : Type*} {R : α → α → Prop} {l : List α}

theorem map_eq_range' {number : α → ℕ} (h : l.IsChain R)
    (hstep : ∀ a b, R a b → number b = number a + 1) {n : ℕ}
    (hfirst : ∀ a ∈ l.head?, number a = n) : l.map number = List.range' n l.length := by
  induction l generalizing n with
  | nil => rfl
  | cons a l ih =>
    obtain ⟨hnext, htail⟩ := isChain_cons.1 h
    have ha : number a = n := hfirst a rfl
    rw [map_cons, length_cons, List.range'_succ, ha, ih htail]
    intro b hb
    rw [hstep a b (hnext b hb), ha]

theorem forall_mem_dropLast {P : α → Prop} (h : l.IsChain R) (hlink : ∀ a b, R a b → P a) :
    ∀ a ∈ l.dropLast, P a := by
  induction l with
  | nil =>
    intro a ha
    exact absurd ha not_mem_nil
  | cons b l ih =>
    obtain ⟨hnext, htail⟩ := isChain_cons.1 h
    cases l with
    | nil =>
      intro a ha
      exact absurd ha not_mem_nil
    | cons c l =>
      intro a ha
      rcases mem_cons.1 ha with rfl | ha
      · exact hlink a c (hnext c rfl)
      · exact ih htail a ha

theorem eq_of_mem {f : α → β} (h : l.IsChain R) (hkeep : ∀ a b, R a b → f a = f b) :
    ∀ a ∈ l, ∀ b ∈ l, f a = f b := by
  have hfirst : ∀ a ∈ l, l.head?.map f = some (f a) := by
    induction l with
    | nil =>
      intro a ha
      exact absurd ha not_mem_nil
    | cons c l ih =>
      obtain ⟨hnext, htail⟩ := isChain_cons.1 h
      intro a ha
      rcases mem_cons.1 ha with rfl | ha
      · rfl
      · have hrest := ih htail a ha
        obtain ⟨b, hb, heq⟩ := Option.map_eq_some_iff.1 hrest
        show some (f c) = _
        rw [hkeep c b (hnext b hb), heq]
  intro a ha b hb
  exact Option.some.inj ((hfirst a ha).symm.trans (hfirst b hb))

theorem exists_eq_append {a : α} (h : l.IsChain R) (ha : a ∈ l) (hlast : ∀ b ∈ l, ¬ R a b) :
    ∃ before, l = before ++ [a] := by
  obtain ⟨before, after, rfl⟩ := append_of_mem ha
  cases after with
  | nil => exact ⟨before, rfl⟩
  | cons b after =>
    obtain ⟨-, hrest⟩ := isChain_split.1 h
    obtain ⟨hlink, -⟩ := isChain_cons_cons.1 hrest
    exact absurd hlink (hlast b (by simp))

theorem head?_insertionSort {number : α → ℕ} (h : l.Pairwise fun a b => number a < number b) :
    (l.insertionSort fun a b => number b ≤ number a).head? = l.getLast? := by
  have hinsert : ∀ (a : α) (m : List α), (∀ b ∈ m, number a < number b) →
      m.orderedInsert (fun a b => number b ≤ number a) a = m ++ [a] := by
    intro a m
    induction m with
    | nil => exact fun _ => rfl
    | cons b m ih =>
      intro hlt
      have hb : ¬ number b ≤ number a := Nat.not_le.2 (hlt b mem_cons_self)
      rw [orderedInsert_cons, if_neg hb, ih fun c hc => hlt c (mem_cons_of_mem b hc), cons_append]
  have hsort : l.insertionSort (fun a b => number b ≤ number a) = l.reverse := by
    induction l with
    | nil => rfl
    | cons a l ih =>
      obtain ⟨ha, htail⟩ := pairwise_cons.1 h
      rw [insertionSort_cons, ih htail, reverse_cons]
      exact hinsert a l.reverse fun b hb => ha b (mem_reverse.1 hb)
  rw [hsort, List.head?_reverse]

end Lib.Chain
