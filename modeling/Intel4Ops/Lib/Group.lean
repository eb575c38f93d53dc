import Mathlib.Data.List.Dedup

/-!
# Grouping by a key

A dictionary of lists that is filled in the order of a list: its keys stand in the order of their
first occurrences, and the list of a key holds the elements with that key, in their order.
-/

namespace Lib

open List

variable {α κ : Type*} [DecidableEq κ]

/-- The elements of a list in the order of their first occurrences. -/
def firsts : List κ → List κ
  | [] => []
  | k :: ks => k :: (firsts ks).filter (· ≠ k)

@[simp] theorem mem_firsts {ks : List κ} {k : κ} : k ∈ firsts ks ↔ k ∈ ks := by
  induction ks with
  | nil => exact Iff.rfl
  | cons l ks ih =>
    rw [firsts, mem_cons, mem_cons, mem_filter, ih]
    by_cases hk : k = l <;> simp [hk]

theorem nodup_firsts (ks : List κ) : (firsts ks).Nodup := by
  induction ks with
  | nil => exact List.nodup_nil
  | cons k ks ih =>
    rw [firsts, nodup_cons]
    exact ⟨by simp, ih.filter _⟩

theorem firsts_append (ks ls : List κ) :
    firsts (ks ++ ls) = firsts ks ++ (firsts ls).filter (· ∉ ks) := by
  induction ks with
  | nil => simp [firsts]
  | cons k ks ih =>
    rw [cons_append, firsts, ih, firsts, filter_append, filter_filter]
    congr 2
    refine filter_congr ?_
    intro l _
    simp [not_or]

/-- The elements with a key. -/
def group (key : α → κ) (as : List α) (k : κ) : List α := as.filter (key · = k)

theorem group_append (key : α → κ) (as bs : List α) (k : κ) :
    group key (as ++ bs) k = group key as k ++ group key bs k := filter_append ..

theorem mem_group {key : α → κ} {as : List α} {k : κ} {a : α} :
    a ∈ group key as k ↔ a ∈ as ∧ key a = k := by
  simp [group]

theorem group_ne_nil {key : α → κ} {as : List α} {k : κ} :
    group key as k ≠ [] ↔ k ∈ as.map key := by
  rw [Ne, eq_nil_iff_forall_not_mem, not_forall, mem_map]
  simp only [not_not, mem_group]

theorem firsts_of_nodup {ks : List κ} (h : ks.Nodup) : firsts ks = ks := by
  induction ks with
  | nil => rfl
  | cons k ks ih =>
    obtain ⟨hk, hks⟩ := nodup_cons.1 h
    rw [firsts, ih hks, filter_eq_self.2]
    intro l hl
    simpa using fun heq : l = k => hk (heq ▸ hl)

/-- Where no key occurs twice, every element is a group of its own. -/
theorem group_of_nodup {key : α → κ} {as : List α} (h : (as.map key).Nodup) {a : α}
    (ha : a ∈ as) : group key as (key a) = [a] := by
  induction as with
  | nil => cases ha
  | cons b as ih =>
    rw [map_cons, nodup_cons] at h
    obtain ⟨hb, has⟩ := h
    rcases mem_cons.1 ha with rfl | ha
    · rw [group, filter_cons_of_pos (by simp), filter_eq_nil_iff.2]
      intro c hc
      simpa using fun heq : key c = key a => hb (heq ▸ mem_map_of_mem hc)
    · have hne : key b ≠ key a := fun heq => hb (heq ▸ mem_map_of_mem ha)
      rw [group, filter_cons_of_neg (by simpa using hne)]
      exact ih has ha

theorem flatMap_group_perm_filter (key : α → κ) (as : List α) {ks : List κ} (h : ks.Nodup) :
    (ks.flatMap (group key as)).Perm (as.filter fun a => key a ∈ ks) := by
  induction ks with
  | nil => simp
  | cons k ks ih =>
    obtain ⟨hk, hks⟩ := nodup_cons.1 h
    have hfirst : (as.filter fun a => key a ∈ k :: ks).filter (fun a => key a = k) =
        group key as k := by
      rw [filter_filter, group]
      refine filter_congr fun a _ => ?_
      by_cases ha : key a = k <;> simp [ha]
    have hrest : (as.filter fun a => key a ∈ k :: ks).filter (fun a => !decide (key a = k)) =
        as.filter fun a => key a ∈ ks := by
      rw [filter_filter]
      refine filter_congr fun a _ => ?_
      by_cases ha : key a = k
      · simp [ha, hk]
      · simp [ha]
    have hsplit := filter_append_perm (fun a => decide (key a = k))
      (as.filter fun a => key a ∈ k :: ks)
    rw [hfirst, hrest] at hsplit
    rw [flatMap_cons]
    exact ((ih hks).append_left _).trans hsplit

theorem flatMap_group_perm (key : α → κ) (as : List α) :
    ((firsts (as.map key)).flatMap (group key as)).Perm as := by
  have hall : (as.filter fun a => key a ∈ firsts (as.map key)) = as := by
    rw [filter_eq_self]
    intro a ha
    exact decide_eq_true (mem_firsts.2 (mem_map_of_mem ha))
  have hperm := flatMap_group_perm_filter key as (nodup_firsts (as.map key))
  rw [hall] at hperm
  exact hperm

theorem flatMap_group {β : Type*} (key : α → κ) (f : α → List β) (as : List α) (k : κ) :
    (as.flatMap fun a => if key a = k then f a else []) = (group key as k).flatMap f := by
  induction as with
  | nil => rfl
  | cons a as ih =>
    rw [flatMap_cons, ih, group, group]
    by_cases ha : key a = k
    · rw [if_pos ha, filter_cons_of_pos (by simpa using ha), flatMap_cons]
    · rw [if_neg ha, filter_cons_of_neg (by simpa using ha), nil_append]

omit [DecidableEq κ] in
theorem map_filterMap_sublist {f : κ → Option α} {key : α → κ}
    (h : ∀ k a, f k = some a → key a = k) (ks : List κ) :
    ((ks.filterMap f).map key).Sublist ks := by
  induction ks with
  | nil => exact Sublist.refl _
  | cons k ks ih =>
    rw [filterMap_cons]
    split
    · exact ih.cons k
    · rename_i a ha
      rw [map_cons, h k a ha]
      exact ih.cons_cons k

theorem filter_flatMap_of_nodup {F : κ → List α} {key : α → κ}
    (h : ∀ k, ∀ a ∈ F k, key a = k) {ks : List κ} (hks : ks.Nodup) {k : κ} :
    (ks.flatMap F).filter (key · = k) = if k ∈ ks then F k else [] := by
  have hpart : ∀ l, (F l).filter (key · = k) = if l = k then F l else [] := by
    intro l
    split
    case isTrue hl =>
      exact filter_eq_self.2 fun a ha => decide_eq_true ((h l a ha).trans hl)
    case isFalse hl =>
      refine filter_eq_nil_iff.2 fun a ha hka => hl ?_
      rw [← h l a ha, of_decide_eq_true hka]
  induction ks with
  | nil => rfl
  | cons l ks ih =>
    obtain ⟨hl, hks⟩ := nodup_cons.1 hks
    rw [flatMap_cons, filter_append, ih hks, hpart]
    by_cases hlk : l = k
    · subst hlk
      rw [if_pos rfl, if_neg hl, if_pos mem_cons_self, append_nil]
    · have hmem : k ∈ l :: ks ↔ k ∈ ks := by
        rw [mem_cons, or_iff_right (Ne.symm hlk)]
      rw [if_neg hlk, nil_append]
      simp only [hmem]

theorem length_dedup_eq_one {ks : List κ} :
    ks.dedup.length = 1 ↔ ks ≠ [] ∧ ∀ k ∈ ks, ∀ l ∈ ks, k = l := by
  rw [length_eq_one_iff]
  constructor
  · rintro ⟨k, hk⟩
    have hmem : ∀ l ∈ ks, l = k := fun l hl => mem_singleton.1 (hk ▸ mem_dedup.2 hl)
    refine ⟨?_, fun l hl m hm => (hmem l hl).trans (hmem m hm).symm⟩
    rintro rfl
    exact absurd hk (cons_ne_nil k []).symm
  · rintro ⟨hne, hall⟩
    obtain ⟨k, hk⟩ := exists_mem_of_ne_nil ks hne
    refine ⟨k, ?_⟩
    have hsub : ∀ l ∈ ks.dedup, l = k := fun l hl => hall l (mem_dedup.1 hl) k hk
    have hperm : ks.dedup.Perm [k] := by
      rw [perm_ext_iff_of_nodup (nodup_dedup ks) (nodup_singleton k)]
      intro l
      rw [mem_singleton]
      exact ⟨hsub l, fun hl => hl ▸ mem_dedup.2 hk⟩
    exact perm_singleton.1 hperm

/-! ## Other orders -/

theorem firsts_perm {ks ks' : List κ} (h : ks.Perm ks') : (firsts ks).Perm (firsts ks') := by
  rw [perm_ext_iff_of_nodup (nodup_firsts ks) (nodup_firsts ks')]
  intro k
  rw [mem_firsts, mem_firsts, h.mem_iff]

omit [DecidableEq κ] in
theorem flatMap_perm {R : α → α → Prop} {f g : α → List κ}
    (hfg : ∀ a a', R a a' → (f a).Perm (g a')) {as as' : List α} (h : List.Forall₂ R as as') :
    (as.flatMap f).Perm (as'.flatMap g) := by
  induction h with
  | nil => exact List.Perm.refl _
  | cons hhead _ ih => exact (hfg _ _ hhead).append ih

theorem ite_perm {c : Prop} [Decidable c] {as bs : List α} (h : as.Perm bs) :
    (if c then as else []).Perm (if c then bs else []) := by
  split
  · exact h
  · exact List.Perm.refl _

theorem not_sublist_swap {a b : α} {as : List α} (has : as.Nodup) (hab : [a, b].Sublist as) :
    ¬ [b, a].Sublist as := by
  induction as with
  | nil => cases hab
  | cons c as ih =>
    obtain ⟨hc, hnodup⟩ := nodup_cons.1 has
    intro hba
    cases hab with
    | cons _ hab =>
      cases hba with
      | cons _ hba => exact ih hnodup hab hba
      | cons_cons _ hba => exact hc (hab.subset (mem_cons_of_mem _ mem_cons_self))
    | cons_cons _ hab =>
      cases hba with
      | cons _ hba => exact hc (hba.subset (mem_cons_of_mem _ mem_cons_self))
      | cons_cons _ hba => exact hc (hba.subset mem_cons_self)

/-! ## Single elements -/

/-- The element of a list with one element. -/
def only {α : Type*} : List α → Option α
  | [a] => some a
  | _ => none

theorem only_eq_some {α : Type*} {as : List α} {a : α} : only as = some a ↔ as = [a] := by
  rw [only.eq_def]
  split
  case h_1 b => simp
  case h_2 hnot => exact iff_of_false (Option.some_ne_none a).symm fun h => hnot a h

theorem only_perm {α : Type*} {as as' : List α} (h : as.Perm as') : only as = only as' := by
  apply Option.ext
  intro a
  rw [only_eq_some, only_eq_some]
  constructor
  · rintro rfl
    exact perm_singleton.1 h.symm
  · rintro rfl
    exact perm_singleton.1 h

/-! ## Anti joins -/

variable {β : Type*} {left : α → κ} {right : β → κ}

/-- The rows without a partner. -/
def antiJoin (left : α → κ) (right : β → κ) (as : List α) (bs : List β) : List α :=
  as.filter fun a => left a ∉ bs.map right

theorem mem_antiJoin {as : List α} {bs : List β} {a : α} :
    a ∈ antiJoin left right as bs ↔ a ∈ as ∧ ¬ ∃ b ∈ bs, right b = left a := by
  rw [antiJoin, mem_filter, decide_eq_true_eq, mem_map]

end Lib
