import Mathlib.Order.WellFoundedSet
import Mathlib.Algebra.Order.Group.Defs

/-!
# Orders of items that need each other

A relation says which items an item needs. An order of the items is topological when every item
stands after those it needs; the order that takes the least available item each time is the
lexicographically least one. The totals of an item are the weights of the chains that end at it,
and the greatest of them follows from the greatest totals of what it needs.
-/

namespace Lib.Precedence

open Relation List

variable {α : Type*} {P Q : List α → α → Prop} {l l' items done : List α} {a b c : α}

/-! ## Induction along a list -/

/-- Every entry of a list stands in the relation with the entries before it. -/
def Each (P : List α → α → Prop) (l : List α) : Prop :=
  ∀ before a rest, l = before ++ a :: rest → P before a

theorem each_nil : Each P [] := fun _ _ _ h => absurd h (by simp)

theorem Each.snoc (h : Each P l) (ha : P l a) : Each P (l ++ [a]) := by
  intro before b rest heq
  rcases eq_nil_or_concat rest with rfl | ⟨rest, c, rfl⟩
  · obtain ⟨rfl, hb⟩ := append_inj' heq rfl
    obtain rfl : a = b := by simpa using hb
    exact ha
  · have hsplit : l ++ [a] = (before ++ b :: rest) ++ [c] := by simpa using heq
    exact h before b rest (append_inj' hsplit rfl).1

/-- What follows for an entry from its predecessors holds for every entry. -/
theorem Each.induct (h : Each P l) (step : ∀ before a, P before a →
    (∀ before' b rest, before = before' ++ b :: rest → Q before' b) → Q before a) :
    Each Q l := by
  suffices hall : ∀ n before a rest, before.length = n → l = before ++ a :: rest → Q before a from
    fun before a rest => hall _ before a rest rfl
  intro n
  induction n using Nat.strong_induction_on with
  | _ n ih =>
    rintro before a rest rfl hl
    apply step before a (h before a rest hl)
    rintro before' b rest' rfl
    exact ih _ (by simp) before' b (rest' ++ a :: rest) rfl (by simp [hl])

theorem Each.of_mem (h : Each P l) (ha : a ∈ l) :
    ∃ before, before ⊆ l ∧ a ∉ before ∧ P before a := by
  obtain ⟨before, rest, rfl, hfresh⟩ := eq_append_cons_of_mem ha
  exact ⟨before, subset_append_left _ _, hfresh, h before a rest rfl⟩

/-! ## Topological orders -/

variable (Needs : α → α → Prop)

/-- An item needs itself, directly or through others. -/
def Cyclic : Prop := ∃ a, TransGen Needs a a

/-- Every item stands after those that it needs. -/
def Ordered (l : List α) : Prop := Each (fun before a => ∀ b, Needs a b → b ∈ before) l

/-- The item is still to come, and all that it needs is done. -/
structure Available (items done : List α) (a : α) : Prop where
  mem : a ∈ items
  fresh : a ∉ done
  needs : ∀ b, Needs a b → b ∈ done

/-- Every item is the least one that is available where it stands. -/
def LeastFirst [LE α] (items l : List α) : Prop :=
  Each (fun before a => Available Needs items before a ∧
    ∀ b, Available Needs items before b → a ≤ b) l

variable {Needs}

theorem LeastFirst.ordered [LE α] (h : LeastFirst Needs items l) : Ordered Needs l :=
  fun before a rest hl => (h before a rest hl).1.needs

theorem Ordered.not_cyclic (h : Ordered Needs l) (hl : ∀ a b, Needs a b → a ∈ l) :
    ¬ Cyclic Needs := by
  have hbefore : Each (fun before a => ∀ b, TransGen Needs a b → b ∈ before) l := by
    refine Each.induct h fun before a hneeds ih b hab => ?_
    obtain ⟨c, hac, hcb⟩ := TransGen.head'_iff.1 hab
    rcases reflTransGen_iff_eq_or_transGen.1 hcb with rfl | hcb
    · exact hneeds b hac
    · obtain ⟨before', rest, rfl⟩ := append_of_mem (hneeds c hac)
      exact mem_append_left _ (ih before' c rest rfl b hcb)
  rintro ⟨a, ha⟩
  obtain ⟨b, hab, -⟩ := TransGen.head'_iff.1 ha
  obtain ⟨before, -, hfresh, hall⟩ := hbefore.of_mem (hl a b hab)
  exact hfresh (hall a ha)

/-- Without a cycle, some item is available as long as one is left. -/
theorem exists_available (hacyclic : ¬ Cyclic Needs) (hclosed : ∀ a b, Needs a b → b ∈ items)
    (ha : a ∈ items) (hleft : a ∉ done) : ∃ b, Available Needs items done b := by
  have : IsTrans α (Function.swap (TransGen Needs)) := ⟨fun _ _ _ h h' => h'.trans h⟩
  have : Std.Irrefl (Function.swap (TransGen Needs)) := ⟨fun a h => hacyclic ⟨a, h⟩⟩
  have : IsStrictOrder α (Function.swap (TransGen Needs)) := {}
  have hfinite : {b | b ∈ items ∧ b ∉ done}.Finite := (finite_toSet items).subset fun b hb => hb.1
  by_contra hnone
  have hwell := hfinite.wellFoundedOn (r := Function.swap (TransGen Needs))
  -- An item that is left needs another one that is left.
  refine hwell.induction (P := fun _ => False) ⟨ha, hleft⟩ fun b hb ih => ?_
  apply hnone
  refine ⟨b, hb.1, hb.2, fun c hbc => ?_⟩
  by_contra hc
  exact ih c ⟨hclosed b c hbc, hc⟩ (.single hbc)

/-- The order that takes the least available item is the lexicographically least one. -/
theorem LeastFirst.lex_le [LinearOrder α] (h : LeastFirst Needs items l)
    (hordered : Ordered Needs l') (hnodup : l'.Nodup) (hmem : ∀ a, a ∈ l' ↔ a ∈ items) :
    l = l' ∨ List.Lex (· < ·) l l' := by
  suffices hall : ∀ x x' before : List α, l = before ++ x → l' = before ++ x' →
      x = x' ∨ List.Lex (· < ·) x x' from hall l l' [] rfl rfl
  intro x
  induction x with
  | nil =>
    intro x' before _ _
    cases x' with
    | nil => exact .inl rfl
    | cons b x' => exact .inr .nil
  | cons a x ih =>
    intro x' before hl hl'
    obtain ⟨havail, hleast⟩ := h before a x hl
    cases x' with
    | nil =>
      rw [append_nil] at hl'
      exact absurd (hl' ▸ (hmem a).2 havail.mem) havail.fresh
    | cons b x' =>
      have hb : Available Needs items before b := by
        refine ⟨(hmem b).1 (by simp [hl']), ?_, hordered before b x' hl'⟩
        rw [hl', List.nodup_append] at hnodup
        exact fun hb => hnodup.2.2 b hb b mem_cons_self rfl
      rcases (hleast b hb).eq_or_lt with rfl | hlt
      · rcases ih x' (before ++ [a]) (by simp [hl]) (by simp [hl']) with rfl | hlex
        · exact .inl rfl
        · exact .inr (.cons hlex)
      · exact .inr (.rel hlt)

/-! ## Chains -/

variable {K : Type*} [AddCommMonoid K] {weight : α → K}

/-- The weights of the chains that end at an item, in which every item needs the one before. -/
def totals (Needs : α → α → Prop) (weight : α → K) (a : α) : Set K :=
  {total | ∃ chain : List α, chain.IsChain (fun b a => Needs a b) ∧ chain.getLast? = some a ∧
    (chain.map weight).sum = total}

theorem mem_totals {s : K} : s ∈ totals Needs weight a ↔
    s = weight a ∨ ∃ b, Needs a b ∧ ∃ t ∈ totals Needs weight b, t + weight a = s := by
  constructor
  · rintro ⟨chain, hchain, hlast, rfl⟩
    obtain ⟨init, rfl⟩ := List.getLast?_eq_some_iff.1 hlast
    rcases eq_nil_or_concat init with rfl | ⟨init, b, rfl⟩
    · exact .inl (by simp)
    · rw [concat_eq_append] at hchain
      obtain ⟨hinit, -, hneeds⟩ := isChain_append.1 hchain
      refine .inr ⟨b, hneeds b (by simp) a (by simp), _, ⟨init ++ [b], hinit, by simp, rfl⟩, ?_⟩
      simp [add_assoc]
  · rintro (rfl | ⟨b, hneeds, t, ⟨chain, hchain, hlast, rfl⟩, rfl⟩)
    · exact ⟨[a], isChain_singleton a, rfl, by simp⟩
    · refine ⟨chain ++ [a], hchain.append (isChain_singleton a) ?_, by simp, by simp⟩
      intro x hx y hy
      rw [hlast, Option.mem_some_iff] at hx
      rw [List.head?_cons, Option.mem_some_iff] at hy
      exact hx ▸ hy ▸ hneeds

theorem isGreatest_totals_of_source [PartialOrder K] (h : ∀ b, ¬ Needs a b) :
    IsGreatest (totals Needs weight a) (weight a) := by
  refine ⟨mem_totals.2 (.inl rfl), fun s hs => ?_⟩
  rcases mem_totals.1 hs with rfl | ⟨b, hb, -⟩
  · exact le_rfl
  · exact absurd hb (h b)

/-- The greatest total comes through the needed item with the greatest total. -/
theorem isGreatest_totals [PartialOrder K] [IsOrderedAddMonoid K] (finish : α → K)
    (hweight : ∀ a, 0 ≤ weight a) (hb : Needs a b) (hmax : ∀ c, Needs a c → finish c ≤ finish b)
    (hneeds : ∀ c, Needs a c → IsGreatest (totals Needs weight c) (finish c)) :
    IsGreatest (totals Needs weight a) (finish b + weight a) := by
  refine ⟨mem_totals.2 (.inr ⟨b, hb, _, (hneeds b hb).1, rfl⟩), fun s hs => ?_⟩
  rcases mem_totals.1 hs with rfl | ⟨c, hc, t, ht, rfl⟩
  · have hfinish : weight b ≤ finish b := (hneeds b hb).2 (mem_totals.2 (.inl rfl))
    exact le_add_of_nonneg_left ((hweight b).trans hfinish)
  · exact add_le_add_left (((hneeds c hc).2 ht).trans (hmax c hc)) _

end Lib.Precedence
