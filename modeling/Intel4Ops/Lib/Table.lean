import Mathlib.Data.List.Nodup
import Mathlib.Data.List.Perm.Basic

/-!
# Tables with unique constraints

A table is the list of its rows in insertion order. `insert` adds a row unless it clashes with a
stored one, which is what a primary key or a unique constraint does; `update` rewrites the rows a
condition selects. A key that no two rows share makes a lookup by that key exact.
-/

namespace Lib.Table

open List

variable {α κ : Type*}

/-- Add `row` behind the stored rows, unless it clashes with one of them. -/
def insert (clash : α → α → Prop) [∀ a b, Decidable (clash a b)] (row : α) (rows : List α) :
    Option (List α) :=
  if ∀ r ∈ rows, ¬ clash r row then some (rows ++ [row]) else none

/-- Add rows in turn, unless one of them clashes. -/
def insertAll (clash : α → α → Prop) [∀ a b, Decidable (clash a b)] :
    List α → List α → Option (List α)
  | [], rows => some rows
  | row :: new, rows => (insert clash row rows).bind (insertAll clash new)

/-- Rewrite every row that `p` selects with `f`. -/
def update (p : α → Bool) (f : α → α) (rows : List α) : List α :=
  rows.map fun r => if p r then f r else r

def Unique (key : α → κ) (rows : List α) : Prop := (rows.map key).Nodup

theorem find?_spec {p : α → Prop} [DecidablePred p] {rows : List α} {a : α}
    (h : rows.find? (fun r => p r) = some a) : a ∈ rows ∧ p a := by
  have hp := List.find?_some h
  exact ⟨mem_of_find?_eq_some h, of_decide_eq_true hp⟩

theorem find?_perm {rows rows' : List α} {P : α → Bool} (hperm : rows.Perm rows')
    (hone : ∀ p ∈ rows', ∀ q ∈ rows', P p = true → P q = true → p = q) :
    rows.find? P = rows'.find? P := by
  cases hfind : rows'.find? P with
  | none =>
    rw [List.find?_eq_none] at hfind ⊢
    exact fun p hp => hfind p (hperm.mem_iff.1 hp)
  | some q =>
    have hq := mem_of_find?_eq_some hfind
    cases hfind' : rows.find? P with
    | none =>
      have hnone := List.find?_eq_none.1 hfind' q (hperm.mem_iff.2 hq)
      exact absurd (List.find?_some hfind) hnone
    | some p =>
      have hp := hperm.mem_iff.1 (mem_of_find?_eq_some hfind')
      rw [hone p hp q hq (List.find?_some hfind') (List.find?_some hfind)]

section Insert

variable {clash : α → α → Prop} [∀ a b, Decidable (clash a b)] {row : α} {rows rows' : List α}

theorem insert_eq_some :
    insert clash row rows = some rows' ↔ (∀ r ∈ rows, ¬ clash r row) ∧ rows' = rows ++ [row] := by
  by_cases hfree : ∀ r ∈ rows, ¬ clash r row
  · rw [insert, if_pos hfree, Option.some.injEq, eq_comm, and_iff_right hfree]
  · rw [insert, if_neg hfree]
    constructor
    · intro h
      exact absurd h (by simp)
    · intro h
      exact absurd h.1 hfree

theorem insertAll_eq_some {new : List α} (h : insertAll clash new rows = some rows') :
    rows' = rows ++ new := by
  induction new generalizing rows with
  | nil =>
    rw [append_nil]
    exact (Option.some.inj h).symm
  | cons row new ih =>
    obtain ⟨mid, hinsert, hrest⟩ := Option.bind_eq_some_iff.1 h
    rw [ih hrest, (insert_eq_some.1 hinsert).2, append_assoc]
    rfl

end Insert

section Update

variable {p : α → Bool} {f : α → α} {rows : List α}

theorem mem_update {r' : α} : r' ∈ update p f rows ↔ ∃ r ∈ rows, r' = if p r then f r else r := by
  simp only [update, mem_map, eq_comm]

theorem mem_update_of_mem {r : α} (hr : r ∈ rows) (hp : p r = false) : r ∈ update p f rows :=
  mem_update.2 ⟨r, hr, by simp [hp]⟩

theorem mem_update_of_selected {r : α} (hr : r ∈ rows) (hp : p r = true) : f r ∈ update p f rows :=
  mem_update.2 ⟨r, hr, by simp [hp]⟩

theorem update_update (p : α → Bool) (f g : α → α) (hp : ∀ r, p (f r) = p r) (rows : List α) :
    update p g (update p f rows) = update p (fun r => g (f r)) rows := by
  rw [update, update, update, map_map]
  refine map_congr_left fun r _ => ?_
  by_cases hr : p r = true
  · simp [hr, hp]
  · simp [hr]

theorem map_update_of_selected {key : α → κ}
    (hf : ∀ r ∈ rows, p r = true → key (f r) = key r) :
    (update p f rows).map key = rows.map key := by
  rw [update, map_map]
  refine map_congr_left fun r hr => ?_
  by_cases hp : p r = true
  · simp [hp, hf r hr hp]
  · simp [hp]

theorem map_update (rows : List α) (key : α → κ) (hf : ∀ r, key (f r) = key r) :
    (update p f rows).map key = rows.map key :=
  map_update_of_selected fun r _ _ => hf r

theorem filter_update {q : α → Bool} (h : ∀ r ∈ rows, p r = true → q r = false ∧ q (f r) = false) :
    (update p f rows).filter q = rows.filter q := by
  induction rows with
  | nil => rfl
  | cons r rows ih =>
    have htail := ih fun r' hr' => h r' (mem_cons_of_mem _ hr')
    rw [update, map_cons, ← update]
    by_cases hp : p r = true
    · obtain ⟨hbefore, hafter⟩ := h r mem_cons_self hp
      rw [if_pos hp, filter_cons_of_neg (by simp [hafter]),
        filter_cons_of_neg (by simp [hbefore]), htail]
    · rw [if_neg hp, filter_cons, filter_cons, htail]

/-- A rewrite that keeps which rows a filter selects, and what is read of those, does not show. -/
theorem map_filter_update {β : Type*} {q : α → Bool} {g : α → β}
    (hq : ∀ r ∈ rows, p r = true → q (f r) = q r)
    (hg : ∀ r ∈ rows, p r = true → q r = true → g (f r) = g r) :
    ((update p f rows).filter q).map g = (rows.filter q).map g := by
  induction rows with
  | nil => rfl
  | cons r rows ih =>
    have htail := ih (fun r' hr' => hq r' (mem_cons_of_mem _ hr'))
      (fun r' hr' => hg r' (mem_cons_of_mem _ hr'))
    rw [update, map_cons, ← update]
    by_cases hp : p r = true
    · have hsame := hq r mem_cons_self hp
      rw [if_pos hp, filter_cons, filter_cons, hsame]
      by_cases hqr : q r = true
      · rw [if_pos hqr, if_pos hqr, map_cons, map_cons, htail, hg r mem_cons_self hp hqr]
      · rw [if_neg hqr, if_neg hqr, htail]
    · rw [if_neg hp, filter_cons, filter_cons]
      by_cases hqr : q r = true
      · rw [if_pos hqr, if_pos hqr, map_cons, map_cons, htail]
      · rw [if_neg hqr, if_neg hqr, htail]

theorem update_eq_self (h : ∀ r ∈ rows, p r = true → f r = r) : update p f rows = rows := by
  rw [update]
  conv_rhs => rw [← map_id rows]
  refine map_congr_left fun r hr => ?_
  by_cases hp : p r = true
  · rw [if_pos hp, h r hr hp, id]
  · rw [if_neg hp, id]

theorem countP_update_le_add (p q : α → Bool) (f : α → α) (rows : List α) :
    (update p f rows).countP q ≤ rows.countP q + rows.countP p := by
  induction rows with
  | nil => exact Nat.le_refl 0
  | cons r rows ih =>
    rw [update, map_cons, ← update, countP_cons, countP_cons, countP_cons]
    by_cases hp : p r = true
    · rw [if_pos hp, if_pos hp]
      split_ifs <;> omega
    · rw [if_neg hp, if_neg hp]
      split_ifs <;> omega

theorem countP_update_le {q : α → Bool} (h : ∀ r ∈ rows, p r = true → q (f r) = true → q r = true) :
    (update p f rows).countP q ≤ rows.countP q := by
  rw [update, countP_map]
  refine countP_mono_left fun r hr hq => ?_
  by_cases hp : p r = true
  · refine h r hr hp ?_
    simpa only [Function.comp_apply, if_pos hp] using hq
  · simpa only [Function.comp_apply, if_neg hp] using hq

end Update

namespace Unique

variable {key : α → κ} {rows : List α}

@[simp] theorem nil : Unique key ([] : List α) := List.nodup_nil

theorem append {row : α} (h : Unique key rows) (hnew : ∀ r ∈ rows, key r ≠ key row) :
    Unique key (rows ++ [row]) := by
  rw [Unique, map_append, map_singleton]
  refine Nodup.append h (nodup_singleton _) ?_
  simp only [disjoint_singleton, mem_map, not_exists, not_and]
  exact fun r hr => hnew r hr

theorem append_all {rows' : List α} (h : Unique key rows) (h' : Unique key rows')
    (hnew : ∀ r ∈ rows, ∀ r' ∈ rows', key r ≠ key r') : Unique key (rows ++ rows') := by
  rw [Unique, map_append]
  refine Nodup.append h h' ?_
  intro k hk hk'
  obtain ⟨r, hr, rfl⟩ := mem_map.1 hk
  obtain ⟨r', hr', heq⟩ := mem_map.1 hk'
  exact hnew r hr r' hr' heq.symm

/-- A constraint that forbids two rows with one key keeps the keys distinct. -/
theorem insertAll {clash : α → α → Prop} [∀ a b, Decidable (clash a b)]
    (hclash : ∀ a b, key a = key b → clash a b) {new rows' : List α} (h : Unique key rows)
    (hinsert : Table.insertAll clash new rows = some rows') : Unique key rows' := by
  induction new generalizing rows with
  | nil =>
    obtain rfl := Option.some.inj hinsert
    exact h
  | cons row new ih =>
    obtain ⟨mid, hfirst, hrest⟩ := Option.bind_eq_some_iff.1 hinsert
    obtain ⟨hfree, rfl⟩ := insert_eq_some.1 hfirst
    exact ih (h.append fun r hr hkey => hfree r hr (hclash r row hkey)) hrest

section

variable (h : Unique key rows)
include h

theorem update {p : α → Bool} {f : α → α} (hf : ∀ r, key (f r) = key r) :
    Unique key (Table.update p f rows) := by
  rw [Unique, map_update rows key hf]
  exact h

theorem update_of_selected {p : α → Bool} {f : α → α}
    (hf : ∀ r ∈ rows, p r = true → key (f r) = key r) : Unique key (Table.update p f rows) := by
  rw [Unique, map_update_of_selected hf]
  exact h

theorem eq_of_key_eq {a b : α} (ha : a ∈ rows) (hb : b ∈ rows) (hab : key a = key b) : a = b :=
  inj_on_of_nodup_map h ha hb hab

theorem find?_eq_some {p : α → Bool} {a : α} (ha : a ∈ rows) (hp : p a = true)
    (hkey : ∀ b ∈ rows, p b = true → key b = key a) :
    rows.find? p = some a := by
  cases hf : rows.find? p with
  | none => exact absurd hp (by simpa using List.find?_eq_none.1 hf a ha)
  | some b =>
    have hb := mem_of_find?_eq_some hf
    have hpb := List.find?_some hf
    rw [h.eq_of_key_eq hb ha (hkey b hb hpb)]

theorem filter (p : α → Bool) : Unique key (rows.filter p) :=
  Nodup.sublist (filter_sublist.map key) h

/-- A condition that fixes the key selects at most one row: the one that a lookup finds. -/
theorem filter_eq_toList {p : α → Bool} (hp : ∀ a b, p a = true → p b = true → key a = key b) :
    rows.filter p = (rows.find? p).toList := by
  induction rows with
  | nil => rfl
  | cons r rows ih =>
    have hcons : key r ∉ rows.map key ∧ (rows.map key).Nodup := nodup_cons.1 h
    by_cases hr : p r = true
    · have hrest : rows.filter p = [] := by
        rw [filter_eq_nil_iff]
        exact fun r' hr' hp' => hcons.1 (mem_map.2 ⟨r', hr', hp r' r hp' hr⟩)
      rw [filter_cons_of_pos hr, List.find?_cons_of_pos hr, hrest]
      rfl
    · rw [filter_cons_of_neg hr, List.find?_cons_of_neg hr]
      exact ih hcons.2

theorem countP_le_one {p : α → Bool} (hp : ∀ a b, p a = true → p b = true → key a = key b) :
    rows.countP p ≤ 1 := by
  rw [countP_eq_length_filter, h.filter_eq_toList hp]
  cases rows.find? p with
  | none => exact Nat.zero_le 1
  | some a => exact Nat.le_refl 1

end

end Unique

/-- Joining every row with at most one partner, and keeping the row, selects the rows that have a
partner. -/
theorem flatMap_toList_eq_filter {β : Type*} (partner : α → Option β) (rows : List α) :
    (rows.flatMap fun r => (partner r).toList.map fun _ => r) =
      rows.filter fun r => (partner r).isSome := by
  induction rows with
  | nil => rfl
  | cons r rows ih =>
    rw [flatMap_cons, ih]
    cases hr : partner r with
    | none | some b => simp [hr]

end Lib.Table
