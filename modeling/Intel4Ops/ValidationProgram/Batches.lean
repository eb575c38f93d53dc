import Intel4Ops.ValidationProgram.Controller

/-!
# Items of a batch

Whatever calls are made, items keep their batch and organization, and a scored item is frozen and
linked to a simulation of its organization. Every operation rewrites rows one by one, so what it
keeps is read off the rewriting of a row.
-/

namespace Intel4Ops.ValidationProgram

open Lib List Table Service Except

variable {env : Env} {store store' : Store} {item item' : SimulationBatchItem} {batchId : UUID}
  {items items' : List SimulationBatchItem} {v v' : Validation}

/-! ## What a rewritten row keeps -/

/-- The item may be read behind its score. -/
structure Linked (v : Validation) (item : SimulationBatchItem) : Prop where
  frozen : item.frozenAt ≠ none
  simulation : ∃ s ∈ v.simulations, item.validationSimulationId = some s.id ∧
    s.organizationId = item.organizationId

/-- A row keeps its batch and organization, and is scored only if it was, or is linked. -/
structure Moves (v : Validation) (item item' : SimulationBatchItem) : Prop where
  id : item'.id = item.id
  batchId : item'.batchId = item.batchId
  organizationId : item'.organizationId = item.organizationId
  scored : item'.state = .scored → Linked v item' ∨ item.state = .scored ∧
    item'.frozenAt = item.frozenAt ∧ item'.validationSimulationId = item.validationSimulationId

theorem Moves.refl (v : Validation) (item : SimulationBatchItem) : Moves v item item :=
  ⟨rfl, rfl, rfl, fun h => .inr ⟨h, rfl, rfl⟩⟩

theorem Moves.of_not_scored (hid : item'.id = item.id) (hbatch : item'.batchId = item.batchId)
    (horganization : item'.organizationId = item.organizationId) (hstate : item'.state ≠ .scored) :
    Moves v item item' :=
  ⟨hid, hbatch, horganization, fun h => absurd h hstate⟩

theorem Linked.of_same (h : Linked v item) (horganization : item'.organizationId =
    item.organizationId) (hfrozen : item'.frozenAt = item.frozenAt)
    (hlink : item'.validationSimulationId = item.validationSimulationId) : Linked v item' := by
  refine ⟨hfrozen ▸ h.frozen, ?_⟩
  obtain ⟨s, hs, hid, howner⟩ := h.simulation
  exact ⟨s, hs, hlink.trans hid, howner.trans horganization.symm⟩

theorem Moves.trans {item'' : SimulationBatchItem} (h : Moves v item item')
    (h' : Moves v item' item'') : Moves v item item'' where
  id := h'.id.trans h.id
  batchId := h'.batchId.trans h.batchId
  organizationId := h'.organizationId.trans h.organizationId
  scored := by
    intro hstate
    rcases h'.scored hstate with hlinked | ⟨hscored', hfrozen', hlink'⟩
    · exact .inl hlinked
    · rcases h.scored hscored' with hlinked | ⟨hscored, hfrozen, hlink⟩
      · exact .inl (hlinked.of_same h'.organizationId hfrozen' hlink')
      · exact .inr ⟨hscored, hfrozen'.trans hfrozen, hlink'.trans hlink⟩

theorem forall₂_refl (v : Validation) (items : List SimulationBatchItem) :
    List.Forall₂ (Moves v) items items := forall₂_same.2 fun item _ => Moves.refl v item

theorem forall₂_trans {items'' : List SimulationBatchItem}
    (h : List.Forall₂ (Moves v) items items') (h' : List.Forall₂ (Moves v) items' items'') :
    List.Forall₂ (Moves v) items items'' := by
  induction h generalizing items'' with
  | nil => exact h'
  | cons hfirst _ ih =>
    cases h' with
    | cons hfirst' hrest' => exact .cons (hfirst.trans hfirst') (ih hrest')

variable {f : SimulationBatchItem → SimulationBatchItem} {organizationId : UUID} {wave : Wave}

theorem forall₂_update {p : SimulationBatchItem → Bool} (h : ∀ item, Moves v item (f item))
    (items : List SimulationBatchItem) : List.Forall₂ (Moves v) items (update p f items) := by
  induction items with
  | nil => exact .nil
  | cons item items ih =>
    refine .cons ?_ ih
    dsimp only
    split
    · exact h item
    · exact Moves.refl v item

/-! ## What a state satisfies -/

/-- What every call keeps. -/
structure Sound (store : Store) : Prop where
  batchIds : Table.Unique SimulationBatch.id store.batches
  itemIds : Table.Unique SimulationBatchItem.id store.items
  owned : ∀ item ∈ store.items, ∃ batch ∈ store.batches, batch.id = item.batchId ∧
    batch.organizationId = item.organizationId
  linked : ∀ item ∈ store.items, item.state = .scored → Linked store.validation item

theorem ids_of_moves (h : List.Forall₂ (Moves v) items items') :
    items'.map SimulationBatchItem.id = items.map SimulationBatchItem.id := by
  induction h with
  | nil => rfl
  | cons hfirst _ ih => rw [map_cons, map_cons, hfirst.id, ih]

theorem mem_of_moves (h : List.Forall₂ (Moves v) items items') (hitem : item' ∈ items') :
    ∃ item ∈ items, Moves v item item' := by
  induction h with
  | nil => cases hitem
  | cons hfirst _ ih =>
    rcases mem_cons.1 hitem with rfl | hitem
    · exact ⟨_, mem_cons_self, hfirst⟩
    · obtain ⟨item, hmem, hmoves⟩ := ih hitem
      exact ⟨item, mem_cons_of_mem _ hmem, hmoves⟩

theorem Linked.extends (h : Linked v item) (hv : v.Extends v') : Linked v' item := by
  obtain ⟨s, hs, hrest⟩ := h.simulation
  exact ⟨h.frozen, s, hv s hs, hrest⟩

/-- Rewritten rows, with batches that keep their organizations and simulations that stay. -/
theorem Sound.moves (h : Sound store) {batches : List SimulationBatch}
    (hbatches : batches.map (fun b => (b.id, b.organizationId)) =
      store.batches.map fun b => (b.id, b.organizationId))
    (hv : store.validation.Extends v) (hitems : List.Forall₂ (Moves v) store.items items)
    (jobs : List AgentJob) : Sound ⟨batches, items, jobs, v⟩ where
  batchIds := by
    have hids : batches.map SimulationBatch.id = store.batches.map SimulationBatch.id := by
      have hfirst := congrArg (List.map Prod.fst) hbatches
      rw [map_map, map_map] at hfirst
      exact hfirst
    rw [Table.Unique, hids]
    exact h.batchIds
  itemIds := by
    rw [Table.Unique, ids_of_moves hitems]
    exact h.itemIds
  owned := by
    intro item' hitem'
    obtain ⟨item, hitem, hmoves⟩ := mem_of_moves hitems hitem'
    obtain ⟨batch, hbatch, hid, horganization⟩ := h.owned item hitem
    have hmem : (batch.id, batch.organizationId) ∈
        batches.map fun b => (b.id, b.organizationId) := by
      rw [hbatches]
      exact mem_map_of_mem hbatch
    obtain ⟨batch', hbatch', heq⟩ := mem_map.1 hmem
    obtain ⟨hid', horganization'⟩ := Prod.mk.inj heq
    refine ⟨batch', hbatch', ?_, ?_⟩
    · rw [hid', hid, hmoves.batchId]
    · rw [horganization', horganization, hmoves.organizationId]
  linked := by
    intro item' hitem' hstate
    obtain ⟨item, hitem, hmoves⟩ := mem_of_moves hitems hitem'
    rcases hmoves.scored hstate with hlinked | ⟨hscored, hfrozen, hlink⟩
    · exact hlinked
    · exact ((h.linked item hitem hscored).of_same hmoves.organizationId hfrozen hlink).extends hv

theorem Validation.Extends.refl (v : Validation) : v.Extends v := fun _ => id

theorem Sound.rewrite (h : Sound store) (hitems : List.Forall₂ (Moves store.validation) store.items
    items) (jobs : List AgentJob) :
    Sound ⟨store.batches, items, jobs, store.validation⟩ :=
  h.moves rfl (Validation.Extends.refl _) hitems jobs

/-! ## Preparing -/

theorem setItem_moves (id : UUID) (h : ∀ item, Moves v item (f item))
    (items : List SimulationBatchItem) :
    List.Forall₂ (Moves v) items (setItem items id f) := forall₂_update h items

theorem block_moves (reason : String) (item : SimulationBatchItem) :
    Moves v item (item.block reason) := by
  refine Moves.of_not_scored rfl rfl rfl ?_
  intro hstate
  cases hstate

theorem moveTo_moves {state : SimulationBatchItemState} (hstate : state ≠ .scored)
    (item : SimulationBatchItem) : Moves v item (item.moveTo state) :=
  Moves.of_not_scored rfl rfl rfl hstate

theorem withCase_moves (analysisCase : UUID) (item : SimulationBatchItem) :
    Moves v item (item.withCase analysisCase) := ⟨rfl, rfl, rfl, fun h => .inr ⟨h, rfl, rfl⟩⟩

/-- The rows of a session come from those of the store. -/
structure Session.From (v : Validation) (items : List SimulationBatchItem) (s : Session) :
    Prop where
  committed : List.Forall₂ (Moves v) items s.committed
  current : List.Forall₂ (Moves v) items s.current

theorem importing_moves (s : Session) (item : SimulationBatchItem) :
    List.Forall₂ (Moves v) s.current (setItem s.current item.id (·.moveTo .importing)) := by
  apply setItem_moves
  intro item
  apply moveTo_moves
  intro hstate
  cases hstate

variable {prep : Preparation} {s : Session} {now : Instant}

theorem importItem_ok {s' : Session} (h : s.From v items) (hok : s.importItem prep item = .ok s') :
    s'.From v items := by
  unfold Session.importItem at hok
  have himporting := forall₂_trans h.current (importing_moves (v := v) s item)
  split_ifs at hok
  · obtain rfl := ok.inj hok
    exact h
  · obtain rfl := ok.inj hok
    exact ⟨h.committed, forall₂_trans h.current (setItem_moves _ (block_moves _) _)⟩
  · dsimp only at hok
    split at hok
    case h_4 analysisCase committed _ =>
      obtain rfl := ok.inj hok
      have hrows := forall₂_trans himporting (setItem_moves item.id (withCase_moves analysisCase) _)
      refine ⟨?_, hrows⟩
      dsimp only
      split
      · exact hrows
      · exact himporting
    all_goals cases hok

theorem importItem_error (h : s.From v items) (herror : s.importItem prep item = .error items') :
    List.Forall₂ (Moves v) items items' := by
  unfold Session.importItem at herror
  have himporting := forall₂_trans h.current (importing_moves (v := v) s item)
  split_ifs at herror
  dsimp only at herror
  split at herror
  case h_1 =>
    obtain rfl := error.inj herror
    exact h.committed
  case h_2 =>
    obtain rfl := error.inj herror
    exact himporting
  case h_3 analysisCase _ =>
    obtain rfl := error.inj herror
    exact forall₂_trans himporting (setItem_moves item.id (withCase_moves analysisCase) _)
  case h_4 => cases herror

theorem importItems_from (store : Store) (batchId : UUID) (prep : Preparation) :
    (∀ s, store.importItems batchId prep = .ok s → s.From v store.items) ∧
      ∀ committed, store.importItems batchId prep = .error committed →
        List.Forall₂ (Moves v) store.items committed := by
  unfold Store.importItems
  have hstart : (Session.mk store.items store.items []).From v store.items :=
    ⟨forall₂_refl v _, forall₂_refl v _⟩
  generalize Session.mk store.items store.items [] = s at hstart
  generalize store.itemsOf batchId = selected
  induction selected generalizing s with
  | nil =>
    refine ⟨?_, ?_⟩
    · intro s' hs'
      obtain rfl := pure_eq_ok.1 hs'
      exact hstart
    · intro committed herror
      cases herror
  | cons item selected ih =>
    rw [foldlM_cons]
    cases hitem : s.importItem prep item with
    | ok s' => exact ih s' (importItem_ok hstart hitem)
    | error committed =>
      refine ⟨?_, ?_⟩
      · intro s' hs'
        cases hs'
      · intro committed' herror
        obtain rfl := error.inj herror
        exact importItem_error hstart hitem

theorem Validation.Extends.trans {v'' : Validation} (h : v.Extends v') (h' : v'.Extends v'') :
    v.Extends v'' := fun s hs => h' s (h s hs)

theorem createSimulation_extends (v : Validation) (simulation : ValidationSimulation) :
    v.Extends (v.createSimulation simulation) := fun _ hs => mem_append_left _ hs

/-- What a registration leaves, whether or not a truth is refused, has all simulations. -/
def Validation.Grows {α : Type} (v : Validation) : Except Validation (Validation × α) → Prop
  | .ok result => v.Extends result.1
  | .error v' => v.Extends v'

theorem registerReadyPackage_grows (v : Validation) (organizationId : UUID) (prep : Preparation)
    (cases : List (String × UUID)) (package : Package) :
    v.Grows (v.registerReadyPackage organizationId prep cases package) := by
  unfold Validation.registerReadyPackage
  split
  · split
    · exact Validation.Extends.refl v
    · split
      · exact Validation.Extends.refl v
      · exact Validation.Extends.refl v
  · split
    · exact Validation.Extends.refl v
    · dsimp only
      split
      · exact createSimulation_extends v _
      · exact createSimulation_extends v _

theorem Validation.Grows.map {α β : Type} {x : Except Validation (Validation × α)}
    {f : Validation × α → Validation × β} (h : v.Grows x) (hf : ∀ r, (f r).1 = r.1) :
    v.Grows (x.map f) := by
  cases x with
  | ok result =>
    show v.Extends (f result).1
    rw [hf]
    exact h
  | error v' => exact h

theorem registerCorpus_grows (v : Validation) (organizationId : UUID) (prep : Preparation)
    (cases : List (String × UUID)) (packages : List Package) :
    v.Grows (v.registerCorpus organizationId prep cases packages) := by
  induction packages generalizing v with
  | nil => exact Validation.Extends.refl v
  | cons package packages ih =>
    unfold Validation.registerCorpus
    split
    · have hfirst := registerReadyPackage_grows v organizationId prep cases package
      split
      case h_1 v' hregister =>
        rw [hregister] at hfirst
        exact hfirst
      case h_2 v' outcome hregister =>
        rw [hregister] at hfirst
        have hrest : v.Grows (v'.registerCorpus organizationId prep cases packages) := by
          have hv' := ih v'
          cases hcorpus : v'.registerCorpus organizationId prep cases packages with
          | ok result | error v'' =>
            rw [hcorpus] at hv'
            exact hfirst.trans hv'
        exact hrest.map fun _ => rfl
    · exact (ih v).map fun _ => rfl

theorem blockUnregistered_moves (batchId : UUID) (ok : List String)
    (items : List SimulationBatchItem) :
    List.Forall₂ (Moves v) items (blockUnregistered batchId ok items) :=
  forall₂_update (block_moves _) items

theorem registerImported_sound (h : Sound store) (batch : SimulationBatch) (prep : Preparation)
    (hs : ∀ v, s.From v store.items) : Sound (store.registerImported batch prep s).1 := by
  unfold Store.registerImported
  split
  · exact h.rewrite (hs _).current store.jobs
  · dsimp only
    have hgrows := registerCorpus_grows store.validation batch.organizationId prep s.cases
      prep.corpus
    split
    case h_1 validation hregister =>
      rw [hregister] at hgrows
      exact h.moves rfl hgrows (hs _).current store.jobs
    case h_2 validation outcomes hregister =>
      rw [hregister] at hgrows
      exact h.moves rfl hgrows (forall₂_trans (hs _).current (blockUnregistered_moves _ _ _))
        store.jobs

theorem prepareBatch_sound (h : Sound store) {raised : Option Error}
    (hok : store.prepareBatch batchId prep = .ok (store', raised)) : Sound store' := by
  obtain ⟨batch, -, hok⟩ := bind_eq_ok.1 hok
  have hfrom := fun v => importItems_from (v := v) store batchId prep
  split at hok
  case h_1 committed hitems =>
    obtain rfl := congrArg Prod.fst (pure_eq_ok.1 hok)
    exact h.rewrite ((hfrom _).2 committed hitems) store.jobs
  case h_2 session hitems =>
    have hsound := registerImported_sound h batch prep fun v => (hfrom v).1 session hitems
    rw [pure_eq_ok.1 hok] at hsound
    exact hsound

/-! ## Running -/

/-- A row that stands for one of the items, and is linked when it is scored. -/
structure Ran (v : Validation) (items : List SimulationBatchItem) (row : SimulationBatchItem) :
    Prop where
  source : ∃ item ∈ items, row.id = item.id ∧ row.batchId = item.batchId ∧
    row.organizationId = item.organizationId
  scored : row.state = .scored → Linked v row

theorem forall₂_mem (h : List.Forall₂ (Moves v) items items') :
    List.Forall₂ (fun item item' => item ∈ items ∧ Moves v item item') items items' := by
  induction h with
  | nil => exact .nil
  | cons hfirst _ ih =>
    refine .cons ⟨mem_cons_self, hfirst⟩ (ih.imp ?_)
    exact fun _ _ h => ⟨mem_cons_of_mem _ h.1, h.2⟩

theorem rowOf_moves {rows : List SimulationBatchItem}
    (hunique : Table.Unique SimulationBatchItem.id items)
    (hitems : List.Forall₂ (Moves v) items items') (hrows : ∀ row ∈ rows, Ran v items row) :
    List.Forall₂ (Moves v) items (items'.map (rowOf rows)) := by
  rw [forall₂_map_right_iff]
  refine (forall₂_mem hitems).imp ?_
  rintro item item' ⟨hmem, hmoves⟩
  unfold rowOf
  cases hfind : rows.find? fun row => row.id = item'.id with
  | none => exact hmoves
  | some row =>
    obtain ⟨hrow, hid⟩ := find?_spec hfind
    obtain ⟨⟨source, hsource, hsourceId, hbatch, horganization⟩, hscored⟩ := hrows row hrow
    have hsame : source.id = item.id := by rw [← hsourceId, hid, hmoves.id]
    obtain rfl := hunique.eq_of_key_eq hsource hmem hsame
    exact ⟨hsourceId, hbatch, horganization, fun h => .inl (hscored h)⟩

theorem lastOfEach_subset (items : List SimulationBatchItem) : lastOfEach items ⊆ items := by
  induction items with
  | nil => exact Subset.refl _
  | cons item items ih =>
    unfold lastOfEach
    split
    · exact subset_cons_of_subset _ ih
    · exact cons_subset_cons _ ih

theorem runnable_subset (store : Store) (batchId : UUID) :
    store.runnable batchId ⊆ store.itemsOf batchId := fun _ hitem =>
  mem_of_mem_filter (lastOfEach_subset _ hitem)

theorem mem_itemsOf :
    item ∈ store.itemsOf batchId ↔ item ∈ store.items ∧ item.batchId = batchId := by
  simp [Store.itemsOf]

theorem freezeAndScore_ran
    (hsource : ∃ source ∈ items, item.id = source.id ∧ item.batchId = source.batchId ∧
      item.organizationId = source.organizationId)
    (hsimulation : ∀ id, item.validationSimulationId = some id →
      ∃ s ∈ v.simulations, s.id = id ∧ s.organizationId = item.organizationId)
    (h : item.freezeAndScore v organizationId now = .ok item') : Ran v items item' := by
  obtain ⟨simulationId, hlink, h⟩ := bind_eq_ok.1 h
  rw [orFail_eq_ok] at hlink
  obtain ⟨results, -, h⟩ := bind_eq_ok.1 h
  obtain ⟨s, hs, hid, horganization⟩ := hsimulation simulationId hlink
  split at h
  · obtain rfl := pure_eq_ok.1 h
    refine ⟨hsource, ?_⟩
    intro hstate
    cases hstate
  · obtain rfl := pure_eq_ok.1 h
    dsimp only
    split
    · exact ⟨hsource, fun _ => ⟨Option.some_ne_none _, s, hs, hlink.trans (congrArg _ hid.symm),
        horganization⟩⟩
    · exact ⟨hsource, fun _ => ⟨Option.some_ne_none _, s, hs, hlink.trans (congrArg _ hid.symm),
        horganization⟩⟩

theorem finish_ran (hitem : item ∈ items)
    (h : (item.moveTo .productionRunning).finish wave item.organizationId now = .ok item') :
    Ran wave.validation items item' := by
  unfold SimulationBatchItem.finish at h
  dsimp only at h
  split_ifs at h
  · refine freezeAndScore_ran ?_ ?_ h
    · exact ⟨item, hitem, rfl, rfl, rfl⟩
    · intro id hid
      obtain ⟨s, hs, rfl⟩ := Option.map_eq_some_iff.1 hid
      obtain ⟨hmem, horganization, -⟩ := find?_spec hs
      exact ⟨s, hmem, rfl, horganization⟩
  · obtain rfl := ok.inj h
    refine ⟨⟨item, hitem, rfl, rfl, rfl⟩, ?_⟩
    intro hstate
    cases hstate

theorem Sound.batch (h : Sound store) {batch : SimulationBatch}
    (hbatch : store.getBatch batchId = .ok batch) (hitem : item ∈ store.itemsOf batchId) :
    batch.organizationId = item.organizationId := by
  rw [Store.getBatch, orFail_eq_ok] at hbatch
  obtain ⟨hmem, hid⟩ := find?_spec hbatch
  obtain ⟨hitem, hbatchId⟩ := mem_itemsOf.1 hitem
  obtain ⟨other, hother, hotherId, horganization⟩ := h.owned item hitem
  have hsame : other.id = batch.id := by rw [hotherId, hbatchId, hid]
  obtain rfl := h.batchIds.eq_of_key_eq hother hmem hsame
  exact horganization

theorem runBatch_sound (h : Sound store) {raised : Option Error}
    (hv : store.validation.Extends wave.validation)
    (hok : store.runBatch batchId wave now = .ok (store', raised)) : Sound store' := by
  obtain ⟨batch, hbatch, hok⟩ := bind_eq_ok.1 hok
  have hrunning : ∀ row ∈ (store.runnable batchId).map (·.moveTo .productionRunning),
      Ran wave.validation store.items row := by
    intro row hrow
    obtain ⟨item, hitem, rfl⟩ := mem_map.1 hrow
    refine ⟨⟨item, (mem_itemsOf.1 (runnable_subset _ _ hitem)).1, rfl, rfl, rfl⟩, ?_⟩
    intro hstate
    cases hstate
  have hrows := rowOf_moves h.itemIds (forall₂_refl wave.validation store.items) hrunning
  dsimp only at hok
  split_ifs at hok
  · obtain rfl := congrArg Prod.fst (pure_eq_ok.1 hok)
    exact h
  · split at hok
    case h_1 =>
      obtain rfl := congrArg Prod.fst (pure_eq_ok.1 hok)
      exact h.moves rfl hv hrows store.jobs
    case h_2 rows hfinish =>
      obtain rfl := congrArg Prod.fst (pure_eq_ok.1 hok)
      refine h.moves rfl hv (rowOf_moves h.itemIds hrows ?_) store.jobs
      intro row hrow
      obtain ⟨moved, hmoved, hrow⟩ := (mem_of_mapM_eq_ok hfinish).1 hrow
      obtain ⟨item, hitem, rfl⟩ := mem_map.1 hmoved
      have hitemOf := runnable_subset _ _ hitem
      rw [h.batch hbatch hitemOf] at hrow
      exact finish_ran (mem_itemsOf.1 hitemOf).1 hrow

/-! ## The other operations -/

theorem selectBatch_sound (h : Sound store) {corpus : List Package} {name : String}
    {batchSize : ℕ} {itemIds : List UUID} {reply : UUID}
    (hok : store.selectBatch organizationId corpus name batchSize batchId itemIds =
      .ok (store', reply)) : Sound store' := by
  simp only [Store.selectBatch, bind_eq_ok, ensure_eq_ok, orFail_eq_ok, pure_eq_ok] at hok
  obtain ⟨_, -, _, -, batches, hbatches, items, hitems, heq⟩ := hok
  obtain rfl := congrArg Prod.fst heq
  have hadded := insertAll_eq_some hitems
  obtain ⟨hfree, rfl⟩ := insert_eq_some.1 hbatches
  refine ⟨h.batchIds.append hfree, h.itemIds.insertAll (fun _ _ => id) hitems, ?_, ?_⟩
  · intro item hitem
    rw [hadded] at hitem
    rcases mem_append.1 hitem with hitem | hitem
    · obtain ⟨batch, hbatch, hrest⟩ := h.owned item hitem
      exact ⟨batch, mem_append_left _ hbatch, hrest⟩
    · rw [← map_uncurry_zip_eq_zipWith] at hitem
      obtain ⟨entry, -, rfl⟩ := mem_map.1 hitem
      exact ⟨_, mem_append_right _ (mem_singleton_self _), rfl, rfl⟩
  · intro item hitem hstate
    rw [hadded] at hitem
    rcases mem_append.1 hitem with hitem | hitem
    · exact h.linked item hitem hstate
    · rw [← map_uncurry_zip_eq_zipWith] at hitem
      obtain ⟨entry, -, rfl⟩ := mem_map.1 hitem
      cases hstate

theorem createMissClassificationJobs_sound (h : Sound store) {newId : UUID → String → UUID}
    {reply : List (SimulationBatchItem × List AgentJob)}
    (hok : store.createMissClassificationJobs env batchId newId = .ok (store', reply)) :
    Sound store' := by
  obtain ⟨classified, -, hok⟩ := bind_eq_ok.1 hok
  obtain rfl := congrArg Prod.fst (pure_eq_ok.1 hok)
  refine h.rewrite (forall₂_update (moveTo_moves ?_) _) _
  intro hstate
  cases hstate

theorem buildDecisionPackage_sound (h : Sound store) {package : DecisionPackage}
    (hok : store.buildDecisionPackage batchId = .ok (store', package)) : Sound store' := by
  obtain ⟨batch, -, hok⟩ := bind_eq_ok.1 hok
  obtain rfl := congrArg Prod.fst (pure_eq_ok.1 hok)
  refine h.moves ?_ (Validation.Extends.refl _) (forall₂_update (moveTo_moves ?_) _) _
  · exact map_update _ _ fun _ => rfl
  · intro hstate
    cases hstate

theorem pauseForSafety_sound (h : Sound store) {reason : String}
    (hok : store.pauseForSafety batchId reason = .ok store') : Sound store' := by
  obtain ⟨batch, -, hok⟩ := bind_eq_ok.1 hok
  obtain rfl := pure_eq_ok.1 hok
  refine h.moves ?_ (Validation.Extends.refl _) (forall₂_refl _ _) _
  exact map_update _ _ fun _ => rfl

theorem serve_sound (h : Sound store) {call : Call} {reply : Reply}
    (hok : service env store call = .ok (store', reply)) : Sound store' := by
  cases call with
  | selectBatch organizationId corpus name batchSize batchId itemIds =>
    obtain ⟨_, hok, -⟩ := reply_ok hok
    exact selectBatch_sound h hok
  | prepareBatch batchId prep =>
    obtain ⟨_, hok, -⟩ := reply_ok hok
    exact prepareBatch_sound h hok
  | runBatch batchId wave now =>
    obtain ⟨_, hv, hok⟩ := bind_eq_ok.1 hok
    rw [ensure_eq_ok] at hv
    obtain ⟨_, hok, -⟩ := reply_ok hok
    exact runBatch_sound h hv hok
  | createMissClassificationJobs batchId newId =>
    obtain ⟨_, hok, -⟩ := reply_ok hok
    exact createMissClassificationJobs_sound h hok
  | buildDecisionPackage batchId =>
    obtain ⟨_, hok, -⟩ := reply_ok hok
    exact buildDecisionPackage_sound h hok
  | pauseForSafety batchId reason =>
    obtain ⟨paused, hpaused, heq⟩ := map_eq_ok.1 hok
    obtain rfl := congrArg Prod.fst heq
    exact pauseForSafety_sound h hpaused
  | jobsChanged jobs =>
    obtain rfl := congrArg Prod.fst (ok.inj hok)
    exact h.rewrite (forall₂_refl _ _) jobs
  | validated validation =>
    obtain ⟨_, hv, hok⟩ := bind_eq_ok.1 hok
    rw [ensure_eq_ok] at hv
    obtain rfl := congrArg Prod.fst (pure_eq_ok.1 hok)
    exact h.moves rfl hv (forall₂_refl _ _) store.jobs

theorem Sound.empty : Sound .empty where
  batchIds := Table.Unique.nil
  itemIds := Table.Unique.nil
  owned := fun _ hitem => absurd hitem not_mem_nil
  linked := fun _ hitem => absurd hitem not_mem_nil

theorem sound_run (env : Env) (calls : List Call) : Sound ((service env).run .empty calls) :=
  run_invariant Sound.empty (fun h hok => serve_sound h hok) calls

end Intel4Ops.ValidationProgram
