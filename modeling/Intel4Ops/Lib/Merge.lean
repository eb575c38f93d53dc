import Mathlib.Data.Finmap

/-!
# Merging finite maps one after another

`mergeAll` updates an empty map with one map after the other, so that a later map wins on a shared
key. The maps are compatible when they agree on the keys that they share. Compatible maps are
exactly those whose merge does not depend on their order, and exactly those whose merge keeps every
entry of every map.
-/

namespace Lib

open List

universe u v

variable {α : Type u} {β : α → Type v} [DecidableEq α]

/-- Update an empty map with each map in turn. -/
def mergeAll (ms : List (Finmap β)) : Finmap β := ms.foldl (fun acc m => m ∪ acc) ∅

/-- The two maps have the same value at every key that both have. -/
def Agree (m m' : Finmap β) : Prop := ∀ k v v', v ∈ m.lookup k → v' ∈ m'.lookup k → v = v'

/-- Any two of the maps agree. -/
def Compatible (ms : List (Finmap β)) : Prop := ∀ m ∈ ms, ∀ m' ∈ ms, Agree m m'

/-- One of the maps has the entry. -/
def HasEntry (ms : List (Finmap β)) (k : α) (v : β k) : Prop := ∃ m ∈ ms, v ∈ m.lookup k

/-- The merge has every entry of every map. -/
def KeepsEntries (ms : List (Finmap β)) : Prop :=
  ∀ k (v : β k), HasEntry ms k v → v ∈ (mergeAll ms).lookup k

/-- The merge is the same in every order. -/
def OrderFree (ms : List (Finmap β)) : Prop := ∀ ms', ms'.Perm ms → mergeAll ms' = mergeAll ms

variable {ms ms' : List (Finmap β)} {k : α} {v : β k}

theorem mergeAll_concat (ms : List (Finmap β)) (m : Finmap β) :
    mergeAll (ms ++ [m]) = m ∪ mergeAll ms := by
  rw [mergeAll, foldl_append]
  rfl

theorem hasEntry_of_mem_mergeAll (h : v ∈ (mergeAll ms).lookup k) : HasEntry ms k v := by
  induction ms using List.reverseRecOn with
  | nil =>
    rw [mergeAll, foldl_nil, Finmap.lookup_empty] at h
    cases h
  | append_singleton ms m ih =>
    rw [mergeAll_concat, Finmap.mem_lookup_union] at h
    rcases h with hlast | ⟨-, hbefore⟩
    · exact ⟨m, by simp, hlast⟩
    · obtain ⟨m', hm', hv⟩ := ih hbefore
      exact ⟨m', mem_append_left _ hm', hv⟩

theorem mem_mergeAll_concat {m : Finmap β} (h : v ∈ m.lookup k) :
    v ∈ (mergeAll (ms ++ [m])).lookup k := by
  rw [mergeAll_concat, Finmap.mem_lookup_union]
  exact .inl h

theorem exists_mem_mergeAll (h : HasEntry ms k v) : ∃ w, w ∈ (mergeAll ms).lookup k := by
  induction ms using List.reverseRecOn with
  | nil =>
    obtain ⟨m, hm, -⟩ := h
    cases hm
  | append_singleton ms m ih =>
    by_cases hlast : k ∈ m
    · obtain ⟨w, hw⟩ := Finmap.mem_iff.1 hlast
      exact ⟨w, mem_mergeAll_concat hw⟩
    · obtain ⟨m', hm', hv⟩ := h
      rcases mem_append.1 hm' with hm' | hm'
      · obtain ⟨w, hw⟩ := ih ⟨m', hm', hv⟩
        refine ⟨w, ?_⟩
        rw [mergeAll_concat, Finmap.lookup_union_right hlast]
        exact hw
      · obtain rfl := mem_singleton.1 hm'
        exact absurd (Finmap.mem_iff.2 ⟨v, hv⟩) hlast

theorem Compatible.keepsEntries (h : Compatible ms) : KeepsEntries ms := by
  rintro k v ⟨m, hm, hv⟩
  obtain ⟨w, hw⟩ := exists_mem_mergeAll ⟨m, hm, hv⟩
  obtain ⟨m', hm', hw'⟩ := hasEntry_of_mem_mergeAll hw
  rwa [h m hm m' hm' k v w hv hw']

theorem KeepsEntries.compatible (h : KeepsEntries ms) : Compatible ms := by
  intro m hm m' hm' k v v' hv hv'
  exact Option.mem_unique (h k v ⟨m, hm, hv⟩) (h k v' ⟨m', hm', hv'⟩)

theorem Compatible.perm (h : Compatible ms) (hperm : ms'.Perm ms) : Compatible ms' :=
  fun m hm m' hm' => h m (hperm.mem_iff.1 hm) m' (hperm.mem_iff.1 hm')

theorem hasEntry_perm (hperm : ms'.Perm ms) : HasEntry ms' k v ↔ HasEntry ms k v :=
  exists_congr fun _ => and_congr_left' hperm.mem_iff

theorem KeepsEntries.mem_mergeAll_iff (h : KeepsEntries ms) :
    v ∈ (mergeAll ms).lookup k ↔ HasEntry ms k v :=
  ⟨hasEntry_of_mem_mergeAll, h k v⟩

theorem mergeAll_eq_of_hasEntry (h : Compatible ms) (h' : Compatible ms')
    (hentries : ∀ k (v : β k), HasEntry ms' k v ↔ HasEntry ms k v) :
    mergeAll ms' = mergeAll ms := by
  refine Finmap.ext_lookup fun k => Option.ext fun v => ?_
  have hleft := h'.keepsEntries.mem_mergeAll_iff (k := k) (v := v)
  have hright := h.keepsEntries.mem_mergeAll_iff (k := k) (v := v)
  exact hleft.trans ((hentries k v).trans hright.symm)

theorem Compatible.orderFree (h : Compatible ms) : OrderFree ms := by
  intro ms' hperm
  exact mergeAll_eq_of_hasEntry h (h.perm hperm) fun k v => hasEntry_perm hperm

/-- When the order does not matter, every map could have been the last one. -/
theorem OrderFree.keepsEntries (h : OrderFree ms) : KeepsEntries ms := by
  rintro k v ⟨m, hm, hv⟩
  obtain ⟨before, after, rfl⟩ := append_of_mem hm
  have hperm : (before ++ after ++ [m]).Perm (before ++ m :: after) := by
    rw [append_assoc]
    exact List.Perm.append_left before (perm_append_singleton m after)
  rw [← h _ hperm]
  exact mem_mergeAll_concat hv

theorem orderFree_iff : OrderFree ms ↔ Compatible ms :=
  ⟨fun h => h.keepsEntries.compatible, Compatible.orderFree⟩

end Lib
