import Intel4Ops.Lib.Group
import Mathlib.Algebra.BigOperators.Group.List.Basic
import Mathlib.Data.List.Induction
import Mathlib.Tactic.Ring

/-!
# Pairs of a list and dictionaries of totals

`pairs` are the pairs of a double loop over a list. A dictionary of totals adds up what is entered
under each key. What it holds for a key is the sum of the entries of that key, so it depends neither
on the order of the entries nor on how they were split before they were merged.
-/

namespace Lib

open List

/-! ## Pairs -/

section Pairs

variable {α β : Type*}

/-- Every element with every later one. -/
def pairs : List α → List (α × α)
  | [] => []
  | a :: as => as.map (fun b => (a, b)) ++ pairs as

theorem filterMap_pairs_perm {f : α → α → Option β} (hsymm : ∀ a b, f a b = f b a) {as bs : List α}
    (h : as.Perm bs) : ((pairs as).filterMap fun p => f p.1 p.2).Perm
      ((pairs bs).filterMap fun p => f p.1 p.2) := by
  induction h with
  | nil => exact List.Perm.refl _
  | cons a h ih =>
    simp only [pairs, filterMap_append]
    exact ((h.map fun b => (a, b)).filterMap _).append ih
  | swap a b as =>
    simp only [pairs, map_cons, cons_append, filterMap_cons, filterMap_append, hsymm a b]
    -- the pair of the two comes first in both, then their pairs with the rest change places
    have hswap : (((as.map fun c => (b, c)).filterMap fun p => f p.1 p.2) ++
        (as.map fun c => (a, c)).filterMap fun p => f p.1 p.2).Perm
          (((as.map fun c => (a, c)).filterMap fun p => f p.1 p.2) ++
            (as.map fun c => (b, c)).filterMap fun p => f p.1 p.2) :=
      perm_append_comm
    have hrest := hswap.append_right ((pairs as).filterMap fun p => f p.1 p.2)
    cases f b a with
    | none => simpa [append_assoc] using hrest
    | some y => simpa [append_assoc] using hrest.cons y
  | trans _ _ ih ih' => exact ih.trans ih'

theorem sum_countP_cons (s : α → α → Bool) (a : α) (as cs : List α) :
    (cs.map fun c => (a :: as).countP fun b => s c b).sum =
      (cs.map fun c => as.countP fun b => s c b).sum + cs.countP fun c => s c a := by
  induction cs with
  | nil => rfl
  | cons c cs ih =>
    rw [map_cons, sum_cons, map_cons, sum_cons, ih, countP_cons, countP_cons]
    omega

theorem countP_pairs {p q : α → Bool} {r : α → α → Bool} (hpq : ∀ a, ¬ (p a = true ∧ q a = true))
    (hr : ∀ a b, r a b = r b a) (as : List α) :
    (pairs as).countP (fun x => (p x.1 && q x.2 || q x.1 && p x.2) && r x.1 x.2) =
      ((as.filter p).map fun a => as.countP fun b => q b && r a b).sum := by
  induction as with
  | nil => rfl
  | cons a as ih =>
    have hrest := sum_countP_cons (fun c b => q b && r c b) a as (as.filter p)
    rw [pairs, countP_append, countP_map, ih]
    cases hp : p a with
    | true =>
      have hq : q a = false := Bool.not_eq_true _ ▸ fun h => hpq a ⟨hp, h⟩
      have hhead : as.countP
          ((fun x : α × α => (p x.1 && q x.2 || q x.1 && p x.2) && r x.1 x.2) ∘ fun b => (a, b)) =
            as.countP fun b => q b && r a b := countP_congr fun b _ => by simp [hp, hq]
      rw [hhead, filter_cons_of_pos hp, map_cons, sum_cons, hrest, countP_cons]
      simp [hq]
    | false =>
      have hhead : as.countP
          ((fun x : α × α => (p x.1 && q x.2 || q x.1 && p x.2) && r x.1 x.2) ∘ fun b => (a, b)) =
            (as.filter p).countP fun c => q a && r c a := by
        rw [countP_filter]
        refine countP_congr fun b _ => ?_
        simp only [Function.comp, hp, hr a b, Bool.false_and, Bool.false_or]
        cases q a <;> cases p b <;> simp
      rw [hhead, filter_cons_of_neg (by simp [hp]), hrest, Nat.add_comm]

end Pairs

/-! ## Totals -/

/-- A dictionary of totals, in the order in which its keys were first entered. -/
structure Totals (κ M : Type*) where
  entries : List (κ × M)
  nodup : (entries.map (·.1)).Nodup

namespace Totals

variable {κ M : Type*} [DecidableEq κ] [AddCommMonoid M]

/-- The total of a key, if the key was entered. -/
def get? (t : Totals κ M) (k : κ) : Option M := (t.entries.find? (·.1 = k)).map (·.2)

/-- The total of a key, zero if the key was not entered. -/
def get (t : Totals κ M) (k : κ) : M := (t.get? k).getD 0

omit [DecidableEq κ] [AddCommMonoid M] in
theorem nodup_nil : (([] : List (κ × M)).map (·.1)).Nodup := List.nodup_nil

def empty : Totals κ M := ⟨[], nodup_nil⟩

/-- The entries with one more amount. -/
def addEntries (entries : List (κ × M)) (k : κ) (m : M) : List (κ × M) :=
  if k ∈ entries.map (·.1) then entries.map fun e => if e.1 = k then (e.1, e.2 + m) else e
  else entries ++ [(k, m)]

theorem nodup_addEntries {entries : List (κ × M)} (h : (entries.map (·.1)).Nodup) (k : κ) (m : M) :
    ((addEntries entries k m).map (·.1)).Nodup := by
  rw [addEntries]
  split
  case isTrue =>
    have hkeys : (entries.map fun e => if e.1 = k then (e.1, e.2 + m) else e).map (·.1) =
        entries.map (·.1) := by
      rw [map_map]
      exact map_congr_left fun e _ => by simp only [Function.comp]; split <;> rfl
    rwa [hkeys]
  case isFalse hk =>
    rw [map_append, List.nodup_append]
    refine ⟨h, nodup_singleton k, ?_⟩
    intro k' hk' k'' hk''
    rw [map_singleton, mem_singleton] at hk''
    rintro rfl
    obtain rfl : k' = k := hk''
    exact hk hk'

/-- Enter an amount under a key. -/
def add (t : Totals κ M) (k : κ) (m : M) : Totals κ M :=
  ⟨addEntries t.entries k m, nodup_addEntries t.nodup k m⟩

/-- Enter amounts one after the other. -/
def collect (es : List (κ × M)) : Totals κ M := es.foldl (fun t e => t.add e.1 e.2) empty

/-- Enter all totals of some dictionaries into one. -/
def merge (ts : List (Totals κ M)) : Totals κ M := collect (ts.flatMap (·.entries))

omit [AddCommMonoid M] in
theorem get?_isSome (t : Totals κ M) (k : κ) :
    (t.get? k).isSome = true ↔ k ∈ t.entries.map (·.1) := by
  rw [get?, Option.isSome_map, List.find?_isSome, mem_map]
  simp only [decide_eq_true_eq]

omit [AddCommMonoid M] in
theorem mem_entries {t : Totals κ M} {k : κ} {m : M} : (k, m) ∈ t.entries ↔ t.get? k = some m := by
  rw [get?, Option.map_eq_some_iff]
  constructor
  · intro h
    have hsome : (t.entries.find? (·.1 = k)).isSome = true :=
      List.find?_isSome.2 ⟨(k, m), h, decide_eq_true rfl⟩
    obtain ⟨e, he⟩ := Option.isSome_iff_exists.1 hsome
    have hkey := List.find?_some he
    rw [decide_eq_true_eq] at hkey
    have heq := inj_on_of_nodup_map t.nodup (mem_of_find?_eq_some he) h hkey
    exact ⟨e, he, congrArg Prod.snd heq⟩
  · rintro ⟨⟨k', m'⟩, he, rfl⟩
    have hkey := List.find?_some he
    rw [decide_eq_true_eq] at hkey
    subst hkey
    exact mem_of_find?_eq_some he

theorem get_eq_sum (t : Totals κ M) (k : κ) :
    t.get k = ((group (·.1) t.entries k).map (·.2)).sum := by
  by_cases hk : k ∈ t.entries.map (·.1)
  · obtain ⟨e, he, rfl⟩ := mem_map.1 hk
    have hget : t.get? e.1 = some e.2 := mem_entries.1 he
    rw [get, hget, group_of_nodup t.nodup he]
    simp
  · have hget : t.get? k = none := by
      rw [← Option.not_isSome_iff_eq_none, get?_isSome]
      exact hk
    have hgroup : group (·.1) t.entries k = [] := by
      rw [group, filter_eq_nil_iff]
      intro e he
      rw [decide_eq_true_eq]
      exact fun heq => hk (mem_map.2 ⟨e, he, heq⟩)
    rw [get, hget, hgroup]
    rfl

theorem get?_add (t : Totals κ M) (k k' : κ) (m : M) :
    (t.add k m).get? k' = if k' = k then some (t.get k + m) else t.get? k' := by
  by_cases hk : k ∈ t.entries.map (·.1)
  · have hentries : (t.add k m).entries =
        t.entries.map fun e => if e.1 = k then (e.1, e.2 + m) else e := if_pos hk
    obtain ⟨e, he, rfl⟩ := mem_map.1 hk
    have hget : t.get? e.1 = some e.2 := mem_entries.1 he
    split
    case isTrue heq =>
      subst heq
      rw [get, hget, Option.getD_some, ← mem_entries, hentries, mem_map]
      exact ⟨e, he, if_pos rfl⟩
    case isFalse hne =>
      apply Option.ext
      intro m'
      rw [← mem_entries, ← mem_entries, hentries, mem_map]
      constructor
      · rintro ⟨e', he', heq⟩
        split at heq
        case isTrue hkey => exact absurd ((congrArg Prod.fst heq).symm.trans hkey) hne
        case isFalse => exact heq ▸ he'
      · intro hmem
        exact ⟨(k', m'), hmem, if_neg hne⟩
  · have hentries : (t.add k m).entries = t.entries ++ [(k, m)] := if_neg hk
    have hget : t.get? k = none := by
      rw [← Option.not_isSome_iff_eq_none, get?_isSome]
      exact hk
    split
    case isTrue heq =>
      subst heq
      rw [get, hget, Option.getD_none, zero_add, ← mem_entries, hentries]
      exact mem_append_right _ mem_cons_self
    case isFalse hne =>
      apply Option.ext
      intro m'
      rw [← mem_entries, ← mem_entries, hentries, mem_append, mem_singleton]
      constructor
      · rintro (h | h)
        · exact h
        · exact absurd (congrArg Prod.fst h) hne
      · exact .inl

theorem get_add (t : Totals κ M) (k k' : κ) (m : M) :
    (t.add k m).get k' = if k' = k then t.get k + m else t.get k' := by
  rw [get, get?_add]
  split
  case isTrue heq | isFalse => rfl

theorem collect_concat (es : List (κ × M)) (e : κ × M) :
    collect (es ++ [e]) = (collect es).add e.1 e.2 := by
  rw [collect, foldl_append]
  rfl

theorem get_collect (es : List (κ × M)) (k : κ) :
    (collect es).get k = ((group (·.1) es k).map (·.2)).sum := by
  induction es using List.reverseRecOn with
  | nil => rfl
  | append_singleton es e ih =>
    rw [collect_concat, get_add, group_append, map_append, sum_append, ← ih]
    by_cases hk : k = e.1
    · subst hk
      simp [group]
    · have hgroup : group (·.1) [e] k = [] := by simp [group, Ne.symm hk]
      rw [if_neg hk, hgroup]
      simp

theorem get?_isSome_collect (es : List (κ × M)) (k : κ) :
    ((collect es).get? k).isSome = true ↔ k ∈ es.map (·.1) := by
  induction es using List.reverseRecOn with
  | nil => simp [collect, empty, get?]
  | append_singleton es e ih =>
    rw [collect_concat, get?_add, map_append, mem_append, ← ih]
    by_cases hk : k = e.1
    · simp [hk]
    · simp [hk]

theorem get?_collect (es : List (κ × M)) (k : κ) : (collect es).get? k =
      if k ∈ es.map (·.1) then some ((group (·.1) es k).map (·.2)).sum else none := by
  have hsome := get?_isSome_collect es k
  have hsum := get_collect es k
  cases hget : (collect es).get? k with
  | none =>
    rw [hget] at hsome
    rw [if_neg fun hk => absurd (hsome.2 hk) Bool.false_ne_true]
  | some m =>
    rw [hget] at hsome
    rw [get, hget, Option.getD_some] at hsum
    rw [if_pos (hsome.1 rfl), hsum]

theorem get?_collect_perm {es es' : List (κ × M)} (h : es.Perm es') (k : κ) :
    (collect es).get? k = (collect es').get? k := by
  have hsum : ((group (·.1) es k).map (·.2)).sum = ((group (·.1) es' k).map (·.2)).sum :=
    ((h.filter _).map _).sum_eq
  rw [get?_collect, get?_collect, hsum]
  simp only [(h.map _).mem_iff]

/-! ## Merging -/

theorem get_merge (ts : List (Totals κ M)) (k : κ) : (merge ts).get k = (ts.map (·.get k)).sum := by
  rw [merge, get_collect]
  induction ts with
  | nil => rfl
  | cons t ts ih =>
    rw [flatMap_cons, group_append, map_append, sum_append, ih, map_cons, sum_cons, get_eq_sum]

theorem get?_isSome_merge (ts : List (Totals κ M)) (k : κ) :
    ((merge ts).get? k).isSome = true ↔ ∃ t ∈ ts, (t.get? k).isSome = true := by
  rw [merge, get?_isSome_collect, map_flatMap, mem_flatMap]
  simp only [get?_isSome]

omit [AddCommMonoid M] in
theorem get?_congr [AddCommMonoid M] {t t' : Totals κ M} {k : κ}
    (hkeys : (t.get? k).isSome = true ↔ (t'.get? k).isSome = true) (h : t.get k = t'.get k) :
    t.get? k = t'.get? k := by
  rw [get, get] at h
  cases ht : t.get? k with
  | none =>
    rw [ht] at hkeys
    cases ht' : t'.get? k with
    | none => rfl
    | some m => rw [ht'] at hkeys; exact absurd (hkeys.2 rfl) Bool.false_ne_true
  | some m =>
    rw [ht] at hkeys h
    obtain ⟨m', ht'⟩ := Option.isSome_iff_exists.1 (hkeys.1 rfl)
    rw [ht'] at h ⊢
    exact congrArg some h

theorem get?_merge_perm {ts ts' : List (Totals κ M)} (h : ts.Perm ts') (k : κ) :
    (merge ts).get? k = (merge ts').get? k :=
  get?_collect_perm (h.flatMap_right _) k

theorem get?_merge_append (ts us : List (Totals κ M)) (k : κ) :
    (merge [merge ts, merge us]).get? k = (merge (ts ++ us)).get? k := by
  apply get?_congr
  · simp only [get?_isSome_merge, mem_cons, not_mem_nil, or_false, mem_append]
    constructor
    · rintro ⟨t, rfl | rfl, h⟩
      · obtain ⟨t, ht, h⟩ := (get?_isSome_merge ts k).1 h
        exact ⟨t, .inl ht, h⟩
      · obtain ⟨t, ht, h⟩ := (get?_isSome_merge us k).1 h
        exact ⟨t, .inr ht, h⟩
    · rintro ⟨t, ht | ht, h⟩
      · exact ⟨_, .inl rfl, (get?_isSome_merge ts k).2 ⟨t, ht, h⟩⟩
      · exact ⟨_, .inr rfl, (get?_isSome_merge us k).2 ⟨t, ht, h⟩⟩
  · simp only [get_merge, map_cons, map_nil, sum_cons, sum_nil, add_zero, map_append, sum_append]

end Totals

end Lib
