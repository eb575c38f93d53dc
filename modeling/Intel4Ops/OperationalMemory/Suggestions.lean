import Intel4Ops.OperationalMemory.Retrieval

/-!
# Complete and repeatable suggestions

A request is to be answered with the best of all eligible memories in the order of their ranking,
whatever the order of the rows, and a repeated request with the answer of the first one. The query
takes twenty rows of a table without an order before it looks at staleness and ranking, and the
record of an answer counts what was suggested instead of what was evaluated. So the answer is as it
should be where there is nothing to suggest, or where no row is cut off and no candidate is left
out.
-/

namespace Intel4Ops.OperationalMemory

open Lib List Table

/-! ## What is claimed of a request -/

def stored (env : Env) (calls : List StoreCall) : Store := (storeService env).run .empty calls

/-- A row of the query, behind the refresh. -/
def Db.row (db : Db) (around : Surroundings) (now : Instant) (item : Item) : Except Error Row := do
  let version ← db.currentVersion item
  return (item.refreshed version around now, version)

def Db.rows (db : Db) (around : Surroundings) (now : Instant) (items : List Item) : List Row :=
  items.filterMap fun item => (db.row around now item).toOption

def Db.matching (db : Db) (w : Wanted) : List Item := db.items.filter fun item => w.Matches item

def Db.eligibleOf (db : Db) (around : Surroundings) (now : Instant) (items : List Item) :
    List Row :=
  (db.rows around now items).filter fun row => Row.Eligible row now

/-- Every row that may be suggested. -/
def Db.eligible (db : Db) (around : Surroundings) (now : Instant) (w : Wanted) : List Row :=
  db.eligibleOf around now (db.matching w)

/-- The first rows in the order of their ranking. -/
def Wanted.best (w : Wanted) (env : Env) (rows : List Row) : List Row :=
  (w.ranked env rows).take w.payload.maxSuggestions

def Store.reordered (store : Store) (items : List Item) : Store :=
  { store with memory := ⟨items, store.memory.versions⟩ }

/-- The answer to a call. -/
def Store.reply (store : Store) (env : Env) (call : RetrieveCall) :
    Except Error (Store × MemoryRetrieveRead) :=
  store.retrieve env call.around call.organizationId call.payload call.now

/-- The ids and the rank of a suggestion. -/
def MemorySuggestion.reference (s : MemorySuggestion) : UUID × UUID × ℕ :=
  (s.memoryId, s.versionId, s.rank)

/-- The suggestions of an answer by their ids and ranks. -/
def MemoryRetrieveRead.references (read : MemoryRetrieveRead) : List (UUID × UUID × ℕ) :=
  read.suggestions.map (·.reference)

/-- The row is suggested, in front of every suggestion from another context. -/
def MemoryRetrieveRead.Leads (read : MemoryRetrieveRead) (row : Row) : Prop :=
  ∃ s ∈ read.suggestions, s.memoryId = row.1.id ∧
    ∀ t ∈ read.suggestions, .exactContextSignature ∉ t.matchReasons → s.rank < t.rank

/-- What is claimed of a request that is not a repetition. -/
structure Store.Faithful (store : Store) (env : Env) (call : RetrieveCall) (w : Wanted) : Prop where
  complete : ∀ items, items.Perm store.memory.items →
    ∃ store' read, (store.reordered items).reply env call = .ok (store', read) ∧
      read.suggestions = w.suggestions (w.best env (store.memory.eligible call.around call.now w))
  exactFirst : ∀ row ∈ store.memory.eligible call.around call.now w,
    row.1.contextSignature = w.signature →
      ∃ store' read, store.reply env call = .ok (store', read) ∧ read.Leads row
  replayed : ∀ (later : List StoreCall) (again : RetrieveCall),
    again.organizationId = call.organizationId → again.payload = call.payload →
    (∃ w', validateRetrieve env again.around.catalog again.organizationId again.payload =
      .ok w') →
      ∃ store' read store'' read', store.reply env call = .ok (store', read) ∧
        ((storeService env).run store' later).reply env again = .ok (store'', read') ∧
        read'.evaluatedCount = read.evaluatedCount ∧ read'.references = read.references

/-! ## Refreshed memory -/

variable {env : Env} {db db' : Db} {store store' : Store} {around : Surroundings} {now : Instant}
  {item item' : Item} {items items' : List Item} {v : Version} {w : Wanted} {row : Row}
  {rows rows' : List Row}

/-- What a refresh leaves as it was. -/
structure SameMemory (item item' : Item) : Prop where
  id : item'.id = item.id
  organizationId : item'.organizationId = item.organizationId
  category : item'.category = item.category
  number : item'.currentVersionNumber = item.currentVersionNumber
  status : item'.currentStatus = item.currentStatus
  support : item'.supportCount = item.supportCount
  contradiction : item'.contradictionCount = item.contradictionCount

theorem SameMemory.refl (item : Item) : SameMemory item item := ⟨rfl, rfl, rfl, rfl, rfl, rfl, rfl⟩

theorem Item.refreshed_same (item : Item) (v : Version) (around : Surroundings) (now : Instant) :
    SameMemory item (item.refreshed v around now) := by
  unfold Item.refreshed
  split
  · exact ⟨rfl, rfl, rfl, rfl, rfl, rfl, rfl⟩
  · split_ifs <;> exact ⟨rfl, rfl, rfl, rfl, rfl, rfl, rfl⟩

theorem SameMemory.currentVersion (h : SameMemory item item') :
    db.currentVersion item' = db.currentVersion item := by
  rw [Db.currentVersion, Db.currentVersion, h.id, h.organizationId, h.number, h.status]

/-- Memory in which every item is rewritten to one with the same memory is kept. -/
theorem Kept.same {g : Item → Item} (h : Kept env db)
    (hsame : ∀ i ∈ db.items, SameMemory i (g i)) : Kept env ⟨db.items.map g, db.versions⟩ := by
  refine ⟨?_, ?_, ⟨?_, ?_⟩, h.labelled⟩
  · have hids : (db.items.map g).map Item.id = db.items.map Item.id := by
      rw [map_map]
      exact map_congr_left fun i hi => (hsame i hi).id
    rw [Table.Unique, hids]
    exact h.ids
  · intro v hv
    obtain ⟨i, hi, hid⟩ := h.owned v hv
    exact ⟨g i, mem_map_of_mem hi, (hsame i hi).id.trans hid⟩
  · intro j hj
    obtain ⟨i, hi, rfl⟩ := mem_map.1 hj
    have hs := hsame i hi
    have hversions : (Db.mk (db.items.map g) db.versions).versionsOf (g i) = db.versionsOf i :=
      versionsOf_congr hs.id
    have hchain := h.remembered.chain i hi
    rw [hversions]
    refine ⟨?_, hchain.first, hchain.linked, ?_, ?_, ?_⟩
    · rw [hs.number]
      exact hchain.numbered
    · rw [hs.support, hs.contradiction, hs.number]
      exact hchain.counted
    · rw [hs.status]
      exact hchain.confirmed
    · rw [hs.category]
      exact hchain.requested
  · intro j hj
    obtain ⟨i, hi, rfl⟩ := mem_map.1 hj
    have hs := hsame i hi
    obtain ⟨v, hv, hlast, hstatus⟩ := h.remembered.current i hi
    refine ⟨v, ?_, ?_, ?_⟩
    · have hcurrent : (Db.mk (db.items.map g) db.versions).currentVersion (g i) =
          db.currentVersion i := hs.currentVersion
      rw [hcurrent, hv]
    · have hversions : (Db.mk (db.items.map g) db.versions).versionsOf (g i) = db.versionsOf i :=
        versionsOf_congr hs.id
      rw [hversions, hlast]
    · rw [hs.status, hstatus]

def storedItem (rows : List Row) (item : Item) : Item :=
  ((rows.find? fun row => row.1.id = item.id).map (·.1)).getD item

def Db.Refreshed (db : Db) (rows : List Row) : Prop :=
  ∀ row ∈ rows, ∃ item ∈ db.items, SameMemory item row.1

theorem storedItem_same (h : Kept env db) (hrows : db.Refreshed rows) (hitem : item ∈ db.items) :
    SameMemory item (storedItem rows item) := by
  unfold storedItem
  cases hfind : rows.find? fun row => row.1.id = item.id with
  | none => exact SameMemory.refl item
  | some row =>
    obtain ⟨hrow, hid⟩ := find?_spec hfind
    obtain ⟨other, hother, hsame⟩ := hrows row hrow
    obtain rfl : other = item := h.ids.eq_of_key_eq hother hitem (hsame.id.symm.trans hid)
    exact hsame

theorem Kept.refreshed (h : Kept env db) (hrows : db.Refreshed rows) : Kept env (db.store rows) :=
  h.same fun _ hitem => storedItem_same h hrows hitem

/-! ## What a committed call does -/

/-- Items and versions that are there stay. -/
structure Grows (db db' : Db) : Prop where
  items : ∀ item ∈ db.items, ∃ item' ∈ db'.items, item'.id = item.id ∧
    item'.organizationId = item.organizationId
  versions : ∀ v ∈ db.versions, v ∈ db'.versions

theorem Grows.refl (db : Db) : Grows db db :=
  ⟨fun item hitem => ⟨item, hitem, rfl, rfl⟩, fun _ => id⟩

theorem Grows.trans {db'' : Db} (h : Grows db db') (h' : Grows db' db'') : Grows db db'' where
  items := by
    intro item hitem
    obtain ⟨item', hitem', hid, horganization⟩ := h.items item hitem
    obtain ⟨item'', hitem'', hid', horganization'⟩ := h'.items item' hitem'
    exact ⟨item'', hitem'', hid'.trans hid, horganization'.trans horganization⟩
  versions := fun v hv => h'.versions v (h.versions v hv)

theorem grows_append (h : Advances item item') (hunique : Table.Unique Item.id db.items)
    (hitem : item ∈ db.items) :
    Grows db ⟨update (·.id = item.id) (fun _ => item') db.items, db.versions ++ [v]⟩ where
  items := by
    intro other hother
    by_cases hid : other.id = item.id
    · obtain rfl := hunique.eq_of_key_eq hother hitem hid
      exact ⟨item', mem_update_of_selected hother (decide_eq_true rfl), h.id, h.organizationId⟩
    · exact ⟨other, mem_update_of_mem hother (decide_eq_false hid), rfl, rfl⟩
  versions := fun _ hv => mem_append_left _ hv

theorem MemoryStep.grows (h : Kept env db) (hstep : MemoryStep env db db') : Grows db db' := by
  cases hstep with
  | replay => exact Grows.refl db
  | found c item version now =>
    exact ⟨fun other hother => ⟨other, mem_append_left _ hother, rfl, rfl⟩,
      fun _ hv => mem_append_left _ hv⟩
  | observed c item prior version now _ hitem =>
    exact grows_append (item.observed_advances prior c.value now) h.ids hitem
  | decided payload item prior version status value now hitem =>
    exact grows_append (item.decided_advances status now) h.ids hitem

theorem grows_store (h : Kept env db) (hrows : db.Refreshed rows) : Grows db (db.store rows) where
  items := by
    intro item hitem
    have hsame := storedItem_same h hrows hitem
    exact ⟨storedItem rows item, mem_map_of_mem hitem, hsame.id, hsame.organizationId⟩
  versions := fun _ => id

/-- What one committed call does to the store. -/
inductive StoreStep (env : Env) (store : Store) : Store → Prop
  | written (memory : Db) (hmemory : MemoryStep env store.memory memory) :
      StoreStep env store { store with memory := memory }
  | answered (w : Wanted) (rows selected : List Row) (now : Instant)
      (hnew : store.priorEvents w.organizationId w.payload.idempotencyKey = [])
      (hrows : store.memory.Refreshed rows) :
      StoreStep env store
        { memory := store.memory.store rows, events := store.events ++ w.events selected now }
  | replayed : StoreStep env store store

theorem row_ok (h : db.row around now item = .ok row) :
    db.currentVersion item = .ok row.2 ∧ row.1 = item.refreshed row.2 around now := by
  obtain ⟨version, hversion, h⟩ := bind_eq_ok.1 h
  obtain rfl := pure_eq_ok.1 h
  exact ⟨hversion, rfl⟩

theorem row_same (h : db.row around now item = .ok row) : SameMemory item row.1 := by
  rw [(row_ok h).2]
  exact item.refreshed_same row.2 around now

theorem mem_rows : row ∈ db.rows around now items ↔
    ∃ item ∈ items, db.row around now item = .ok row := by
  rw [Db.rows, mem_filterMap]
  refine exists_congr fun item => and_congr_right fun _ => ?_
  cases db.row around now item with
  | error e | ok row' => simp [Except.toOption]

def Db.Current (db : Db) (items : List Item) : Prop :=
  ∀ item ∈ items, ∃ v, db.currentVersion item = .ok v

theorem Kept.current (h : Kept env db) (hitems : ∀ item ∈ items, item ∈ db.items) :
    db.Current items := by
  intro item hitem
  obtain ⟨v, hv, -⟩ := h.remembered.current item (hitems item hitem)
  exact ⟨v, hv⟩

theorem Db.Current.rows_ok (h : db.Current items) (around : Surroundings) (now : Instant) :
    ∀ item ∈ items, ∃ row, db.row around now item = .ok row := by
  intro item hitem
  obtain ⟨v, hv⟩ := h item hitem
  exact ⟨(item.refreshed v around now, v), by rw [Db.row, hv]; rfl⟩

theorem scan_eq (h : db.Current items) :
    db.scan around now items = .ok (db.rows around now items) :=
  mapM_eq_filterMap (h.rows_ok around now)

theorem scan_refreshed (h : db.scan around now items = .ok rows)
    (hitems : ∀ item ∈ items, item ∈ db.items) : db.Refreshed rows := by
  intro row hrow
  obtain ⟨item, hitem, hrow⟩ := (mem_of_mapM_eq_ok h).1 hrow
  exact ⟨item, hitems item hitem, row_same hrow⟩

theorem validateRetrieve_ok {catalog : Catalog} {organizationId : UUID}
    {payload : MemoryRetrieveRequest}
    (h : validateRetrieve env catalog organizationId payload = .ok w) :
    w.organizationId = organizationId ∧ w.payload = payload := by
  simp only [validateRetrieve, bind_eq_ok, pure_eq_ok] at h
  obtain ⟨_, -, _, -, _, -, _, -, rfl⟩ := h
  exact ⟨rfl, rfl⟩

theorem retrieve_step {organizationId : UUID} {payload : MemoryRetrieveRequest}
    {read : MemoryRetrieveRead}
    (h : store.retrieve env around organizationId payload now = .ok (store', read)) :
    StoreStep env store store' := by
  obtain ⟨w, hw, h⟩ := bind_eq_ok.1 h
  obtain ⟨rfl, rfl⟩ := validateRetrieve_ok hw
  split at h
  case h_1 hnew =>
    obtain ⟨rows, hrows, h⟩ := bind_eq_ok.1 h
    obtain rfl := congrArg Prod.fst (pure_eq_ok.1 h)
    refine .answered w rows _ now hnew (scan_refreshed hrows ?_)
    exact fun item hitem => mem_of_mem_filter (mem_of_mem_take hitem)
  case h_2 =>
    obtain ⟨_, -, h⟩ := bind_eq_ok.1 h
    obtain ⟨_, -, h⟩ := bind_eq_ok.1 h
    obtain rfl := congrArg Prod.fst (pure_eq_ok.1 h)
    exact .replayed

theorem storeService_step {call : StoreCall} {reply : StoreReply}
    (h : storeService env store call = .ok (store', reply)) : StoreStep env store store' := by
  cases call with
  | write call =>
    obtain ⟨⟨memory, written⟩, hresult, heq⟩ := map_eq_ok.1 h
    obtain rfl := congrArg Prod.fst heq
    exact .written memory (serve_step hresult)
  | retrieve call =>
    obtain ⟨read, hread, -⟩ := Service.reply_ok h
    exact retrieve_step hread

/-! ## Every state -/

theorem StoreStep.kept (h : Kept env store.memory) (hstep : StoreStep env store store') :
    Kept env store'.memory := by
  cases hstep with
  | written memory hmemory => exact hmemory.kept h
  | answered w rows selected now hnew hrows => exact h.refreshed hrows
  | replayed => exact h

theorem StoreStep.grows (h : Kept env store.memory) (hstep : StoreStep env store store') :
    Grows store.memory store'.memory := by
  cases hstep with
  | written memory hmemory => exact hmemory.grows h
  | answered w rows selected now hnew hrows => exact grows_store h hrows
  | replayed => exact Grows.refl _

theorem kept_stored (env : Env) (calls : List StoreCall) : Kept env (stored env calls).memory :=
  Service.run_invariant (P := fun store => Kept env store.memory) (Kept.empty env)
    (fun h hok => (storeService_step hok).kept h) calls

/-! ## The records of a key -/

variable {organizationId : UUID} {key : String} {e : ReuseEvent} {selected : List Row}

/-- The records of a key in the order of their insertion. -/
def Store.recorded (store : Store) (organizationId : UUID) (key : String) : List ReuseEvent :=
  store.events.filter fun e => e.organizationId = organizationId ∧ e.idempotencyKey = key

theorem priorEvents_eq_nil :
    store.priorEvents organizationId key = [] ↔ store.recorded organizationId key = [] := by
  rw [Store.priorEvents, ← length_eq_zero_iff, length_insertionSort, length_eq_zero_iff]
  rfl

theorem mem_events (h : e ∈ w.events selected now) : e.organizationId = w.organizationId ∧
    e.idempotencyKey = w.payload.idempotencyKey ∧ e.requestFingerprint = w.payload := by
  unfold Wanted.events at h
  split at h
  · rw [mem_singleton.1 h]
    exact ⟨rfl, rfl, rfl⟩
  · obtain ⟨i, hi, rfl⟩ := mem_mapIdx.1 h
    exact ⟨rfl, rfl, rfl⟩

theorem StoreStep.recorded (hstep : StoreStep env store store')
    (hprior : store.recorded organizationId key ≠ []) :
    store'.recorded organizationId key = store.recorded organizationId key := by
  cases hstep with
  | written | replayed => rfl
  | answered w rows selected now hnew =>
    rw [priorEvents_eq_nil] at hnew
    rw [Store.recorded, filter_append]
    have hother : (w.events selected now).filter
        (fun e => e.organizationId = organizationId ∧ e.idempotencyKey = key) = [] := by
      rw [filter_eq_nil_iff]
      intro e he hkey
      obtain ⟨horganization, hidempotency, -⟩ := mem_events he
      obtain ⟨rfl, rfl⟩ := of_decide_eq_true hkey
      rw [horganization, hidempotency] at hprior
      exact hprior hnew
    rw [hother, append_nil]
    rfl

/-- What further calls leave of a store with an answer. -/
structure Carries (env : Env) (organizationId : UUID) (key : String) (store store' : Store) :
    Prop where
  kept : Kept env store'.memory
  grows : Grows store.memory store'.memory
  recorded : store'.recorded organizationId key = store.recorded organizationId key

theorem carries_run (h : Kept env store.memory) (hprior : store.recorded organizationId key ≠ [])
    (later : List StoreCall) :
    Carries env organizationId key store ((storeService env).run store later) := by
  refine Service.run_invariant (P := Carries env organizationId key store)
    ⟨h, Grows.refl _, rfl⟩ (fun hP hok => ?_) later
  have hstep := storeService_step hok
  refine ⟨hstep.kept hP.kept, hP.grows.trans (hstep.grows hP.kept), ?_⟩
  rw [hstep.recorded (by rw [hP.recorded]; exact hprior), hP.recorded]

theorem events_sorted (w : Wanted) (selected : List Row) (now : Instant) :
    (w.events selected now).Pairwise fun a b => a.eventSequence ≤ b.eventSequence := by
  unfold Wanted.events
  split
  · exact pairwise_singleton _ _
  · rw [pairwise_iff_getElem]
    intro i j hi hj hlt
    rw [getElem_mapIdx, getElem_mapIdx]
    exact Nat.succ_le_succ hlt.le

theorem priorEvents_answered {memory : Db}
    (hnew : store.priorEvents w.organizationId w.payload.idempotencyKey = []) :
    (Store.mk memory (store.events ++ w.events selected now)).priorEvents w.organizationId
      w.payload.idempotencyKey = w.events selected now := by
  have hall : (w.events selected now).filter (fun e => e.organizationId = w.organizationId ∧
      e.idempotencyKey = w.payload.idempotencyKey) = w.events selected now := by
    rw [filter_eq_self]
    intro e he
    obtain ⟨horganization, hkey, -⟩ := mem_events he
    exact decide_eq_true ⟨horganization, hkey⟩
  have hrecorded : (Store.mk memory (store.events ++ w.events selected now)).recorded
      w.organizationId w.payload.idempotencyKey = w.events selected now := by
    have hold := priorEvents_eq_nil.1 hnew
    rw [Store.recorded] at hold ⊢
    rw [filter_append, hold, hall, nil_append]
  rw [Store.priorEvents, ← Store.recorded, hrecorded]
  exact (events_sorted w selected now).insertionSort_eq

theorem events_ne_nil (w : Wanted) (selected : List Row) (now : Instant) :
    w.events selected now ≠ [] := by
  unfold Wanted.events
  split
  · exact cons_ne_nil _ _
  · rename_i hne
    rw [ne_eq, mapIdx_eq_nil_iff]
    exact hne

/-! ## Ranking -/

theorem rankingKey_id {a b : Row} (h : w.rankingKey env a = w.rankingKey env b) :
    a.1.id = b.1.id := by
  simp only [Wanted.rankingKey, EmbeddingLike.apply_eq_iff_eq, Prod.mk.injEq] at h
  obtain ⟨-, -, -, -, -, -, -, hid⟩ := h
  exact hid

theorem Wanted.ranked_rows (w : Wanted) (env : Env) (rows : List Row) :
    (w.ranked env rows).Perm rows := perm_insertionSort _ _

theorem ranked_pairwise (w : Wanted) (env : Env) (rows : List Row) :
    (w.ranked env rows).Pairwise fun a b => w.rankingKey env a ≤ w.rankingKey env b := by
  have : Std.Total (fun a b : Row => w.rankingKey env a ≤ w.rankingKey env b) :=
    ⟨fun a b => le_total _ _⟩
  have : IsTrans Row (fun a b => w.rankingKey env a ≤ w.rankingKey env b) :=
    ⟨fun a b c hab hbc => le_trans hab hbc⟩
  exact pairwise_insertionSort _ _

theorem ranked_perm (hperm : rows.Perm rows')
    (hids : Table.Unique (fun row : Row => row.1.id) rows) :
    w.ranked env rows = w.ranked env rows' := by
  have hsame : (w.ranked env rows).Perm (w.ranked env rows') :=
    ((w.ranked_rows env rows).trans hperm).trans (w.ranked_rows env rows').symm
  refine List.Perm.eq_of_pairwise ?_ (ranked_pairwise w env rows) (ranked_pairwise w env rows') hsame
  intro a b ha hb hab hba
  have ha' : a ∈ rows := (w.ranked_rows env rows).mem_iff.1 ha
  have hb' : b ∈ rows := hperm.mem_iff.2 ((w.ranked_rows env rows').mem_iff.1 hb)
  refine hids.eq_of_key_eq ha' hb' ?_
  exact rankingKey_id (le_antisymm hab hba)

theorem rankingKey_lt (env : Env) {a b : Row} (ha : a.1.contextSignature = w.signature)
    (hb : b.1.contextSignature ≠ w.signature) : w.rankingKey env a < w.rankingKey env b := by
  rw [Wanted.rankingKey, Wanted.rankingKey, Prod.Lex.lt_iff]
  left
  show decide _ < decide _
  rw [decide_eq_false (not_not_intro ha), decide_eq_true hb]
  exact Bool.false_lt_true

/-! ## An answer -/

variable {call : RetrieveCall} {read : MemoryRetrieveRead}

/-- The rows that a request under a new key selects. -/
def Db.chosen (db : Db) (env : Env) (call : RetrieveCall) (w : Wanted) : List Row :=
  w.best env (db.eligibleOf call.around call.now ((db.matching w).take 20))

/-- The answer to a request under a new key. -/
def Store.answered (store : Store) (env : Env) (call : RetrieveCall) (w : Wanted) :
    Store × MemoryRetrieveRead :=
  let considered := (store.memory.matching w).take 20
  let selected := store.memory.chosen env call w
  ({ memory := store.memory.store (store.memory.rows call.around call.now considered)
     events := store.events ++ w.events selected call.now }, {
    requestFingerprint := w.payload
    evaluatedCount := (store.memory.eligibleOf call.around call.now considered).length
    suggestions := w.suggestions selected })

theorem reply_new (hcurrent : store.memory.Current store.memory.items)
    (hw : validateRetrieve env call.around.catalog call.organizationId call.payload = .ok w)
    (hnew : store.priorEvents call.organizationId call.payload.idempotencyKey = []) :
    store.reply env call = .ok (store.answered env call w) := by
  have hitems : store.memory.Current ((store.memory.matching w).take 20) := fun item hitem =>
    hcurrent item (mem_of_mem_filter (mem_of_mem_take hitem))
  rw [Store.reply, Store.retrieve, hw, ok_bind, hnew]
  show store.answer env call.around call.now w = _
  rw [Store.answer]
  show (store.memory.scan _ _ ((store.memory.matching w).take 20) >>= _) = _
  rw [scan_eq hitems, ok_bind]
  show Except.ok (_, MemoryRetrieveRead.mk _ (w.ranked env _).length _) = _
  rw [(w.ranked_rows env _).length_eq]
  rfl

theorem rows_ids (h : db.Current items) (around : Surroundings) (now : Instant) :
    (db.rows around now items).map (fun row => row.1.id) = items.map (·.id) := by
  induction items with
  | nil => rfl
  | cons item items ih =>
    obtain ⟨hitem, hitems⟩ := forall_mem_cons.1 h
    obtain ⟨row, hrow⟩ := h.rows_ok around now item (mem_cons_self ..)
    have hsome : (db.row around now item).toOption = some row := by rw [hrow]; rfl
    have hcons : db.rows around now (item :: items) = row :: db.rows around now items :=
      filterMap_cons_some (f := fun item => (db.row around now item).toOption) hsome
    rw [hcons, map_cons, map_cons, ih hitems, (row_same hrow).id]

theorem matching_subset (db : Db) (w : Wanted) : db.matching w ⊆ db.items :=
  fun _ => mem_of_mem_filter

theorem eligible_unique (h : Kept env db) (around : Surroundings) (now : Instant) (w : Wanted) :
    Table.Unique (fun row : Row => row.1.id) (db.eligible around now w) := by
  have hmatching : db.Current (db.matching w) := h.current (matching_subset db w)
  refine Table.Unique.filter ?_ _
  rw [Table.Unique, rows_ids hmatching]
  exact h.ids.filter _

theorem eligibleOf_perm (hperm : items.Perm items') :
    (db.eligibleOf around now items).Perm (db.eligibleOf around now items') :=
  (hperm.filterMap _).filter _

theorem mem_eligibleOf : row ∈ db.eligibleOf around now items ↔
    row ∈ db.rows around now items ∧ row.Eligible now := by
  rw [Db.eligibleOf, mem_filter, decide_eq_true_iff]

theorem eligibleOf_subset (h : items ⊆ items') :
    db.eligibleOf around now items ⊆ db.eligibleOf around now items' := by
  intro row hrow
  rw [mem_eligibleOf, mem_rows] at hrow ⊢
  obtain ⟨⟨item, hitem, hok⟩, heligible⟩ := hrow
  exact ⟨⟨item, h hitem, hok⟩, heligible⟩

/-- There is nothing to suggest, or the query cuts nothing off and nothing that it finds is left
out. -/
def Db.Small (db : Db) (call : RetrieveCall) (w : Wanted) : Prop :=
  db.eligible call.around call.now w = [] ∨ (db.matching w).length ≤ 20 ∧
    (db.eligible call.around call.now w).length ≤ w.payload.maxSuggestions

instance (db : Db) (call : RetrieveCall) (w : Wanted) : Decidable (db.Small call w) :=
  inferInstanceAs (Decidable (_ ∨ _ ∧ _))

/-- What the query finds is all there is, whatever the order of the rows. -/
theorem Db.Small.considered (h : db.Small call w) (hperm : items.Perm db.items) :
    ((Db.mk items db.versions).eligibleOf call.around call.now
      (((Db.mk items db.versions).matching w).take 20)).Perm
        (db.eligible call.around call.now w) := by
  have hmatching : ((Db.mk items db.versions).matching w).Perm (db.matching w) := hperm.filter _
  rcases h with hnone | ⟨hfew, -⟩
  · have hsubset : ((Db.mk items db.versions).matching w).take 20 ⊆ db.matching w :=
      fun item hitem => hmatching.mem_iff.1 (mem_of_mem_take hitem)
    have hempty : db.eligibleOf call.around call.now
        (((Db.mk items db.versions).matching w).take 20) = [] := by
      apply eq_nil_iff_forall_not_mem.2
      intro row hrow
      have hmem : row ∈ db.eligible call.around call.now w := eligibleOf_subset hsubset hrow
      rw [hnone] at hmem
      exact not_mem_nil hmem
    rw [hnone]
    exact List.Perm.of_eq hempty
  · rw [take_of_length_le (by rw [hmatching.length_eq]; exact hfew)]
    exact eligibleOf_perm hmatching

theorem Db.Small.chosen (h : db.Small call w) (hkept : Kept env db)
    (hperm : items.Perm db.items) :
    (Db.mk items db.versions).chosen env call w =
      w.best env (db.eligible call.around call.now w) := by
  have hsame := h.considered hperm
  have hunique := eligible_unique hkept call.around call.now w
  rw [Db.chosen, Wanted.best, Wanted.best, ranked_perm hsame.symm hunique]

theorem leads_of_small (env : Env) (hread : read.suggestions = w.suggestions (w.ranked env rows))
    (hrow : row ∈ rows) (hcontext : row.1.contextSignature = w.signature) : read.Leads row := by
  have hranked : row ∈ w.ranked env rows := (w.ranked_rows env rows).mem_iff.2 hrow
  obtain ⟨i, hi, rfl⟩ := getElem_of_mem hranked
  unfold MemoryRetrieveRead.Leads
  rw [hread, Wanted.suggestions]
  refine ⟨_, mem_mapIdx.2 ⟨i, hi, rfl⟩, rfl, ?_⟩
  intro t ht hother
  obtain ⟨j, hj, rfl⟩ := mem_mapIdx.1 ht
  show i + 1 < j + 1
  have hdifferent : (w.ranked env rows)[j].1.contextSignature ≠ w.signature := by
    intro hsame
    apply hother
    show MatchReason.exactContextSignature ∈ w.reasons _
    simp [Wanted.reasons, hsame]
  by_contra hle
  have hlt := rankingKey_lt env hcontext hdifferent
  rcases Nat.lt_or_eq_of_le (Nat.le_of_not_lt fun h => hle (Nat.succ_lt_succ h)) with hji | rfl
  · have hsorted := pairwise_iff_getElem.1 (ranked_pairwise w env rows) j i hj hi hji
    exact absurd hlt (not_lt.2 hsorted)
  · exact hdifferent hcontext

/-! ## A repeated request -/

/-- What a record refers to. -/
def ReuseEvent.reference (e : ReuseEvent) : UUID × UUID × ℕ :=
  match e.outcome with
  | .retrieved memoryId memoryVersionId rank _ => (memoryId, memoryVersionId, rank)
  | .noMatch => (0, 0, 0)

theorem replayed_reference (hgrows : Grows db db') {reasons : List MatchReason} {rank : ℕ}
    (he : e.outcome = .retrieved row.1.id row.2.id rank reasons)
    (hitem : ∃ item ∈ db.items, item.id = row.1.id ∧ item.organizationId = e.organizationId)
    (hversion : row.2 ∈ db.versions) (horganization : row.2.organizationId = e.organizationId) :
    ∃ s, db'.replayed e = .ok s ∧ s.reference = e.reference := by
  obtain ⟨item, hitem, hid, howner⟩ := hitem
  obtain ⟨item', hitem', hid', howner'⟩ := hgrows.items item hitem
  obtain ⟨found, hfound⟩ : ∃ found, db'.items.find? (fun i => i.organizationId = e.organizationId ∧
      i.id = row.1.id) = some found := by
    rw [← Option.isSome_iff_exists, List.find?_isSome]
    exact ⟨item', hitem', decide_eq_true ⟨howner'.trans howner, hid'.trans hid⟩⟩
  obtain ⟨version, hfoundVersion⟩ : ∃ version, db'.versions.find? (fun v => v.id = row.2.id ∧
      v.organizationId = e.organizationId) = some version := by
    rw [← Option.isSome_iff_exists, List.find?_isSome]
    exact ⟨row.2, hgrows.versions _ hversion, decide_eq_true ⟨rfl, horganization⟩⟩
  have hmemory := (find?_spec hfound).2.2
  have hversionId := (find?_spec hfoundVersion).2.1
  refine ⟨suggestion found version reasons rank, ?_, ?_⟩
  · rw [Db.replayed, he]
    show (db'.item e.organizationId row.1.id >>= _) = _
    rw [Db.item, hfound, orFail_some, ok_bind, hfoundVersion]
    rfl
  · rw [ReuseEvent.reference, he]
    show (found.id, version.id, rank) = _
    rw [hmemory, hversionId]

theorem chosen_rows (hrow : row ∈ db.chosen env call w) :
    row ∈ db.rows call.around call.now ((db.matching w).take 20) := by
  have hranked := (w.ranked_rows env _).mem_iff.1 (mem_of_mem_take hrow)
  exact (mem_eligibleOf.1 hranked).1

theorem chosen_spec (hrow : row ∈ db.chosen env call w) :
    (∃ item ∈ db.items, item.id = row.1.id ∧ item.organizationId = w.organizationId) ∧
      row.2 ∈ db.versions ∧ row.2.organizationId = w.organizationId := by
  obtain ⟨item, hitem, hok⟩ := mem_rows.1 (chosen_rows hrow)
  have hmatching := mem_of_mem_take hitem
  have howner : item.organizationId = w.organizationId :=
    (of_decide_eq_true (mem_filter.1 hmatching).2).1
  obtain ⟨hversion, hrefreshed⟩ := row_ok hok
  obtain ⟨hmem, horganization, -⟩ := find?_spec (currentVersion_eq_ok.1 hversion).1
  refine ⟨⟨item, matching_subset db w hmatching, (row_same hok).id.symm, howner⟩, hmem, ?_⟩
  rw [horganization, howner]

theorem rows_refreshed (hitems : items ⊆ db.items) : db.Refreshed (db.rows around now items) := by
  intro row hrow
  obtain ⟨item, hitem, hok⟩ := mem_rows.1 hrow
  exact ⟨item, hitems hitem, row_same hok⟩

theorem replayRetrieval_events (env : Env) (call : RetrieveCall) (w : Wanted) (now : Instant)
    (hgrows : Grows db db') (payload : MemoryRetrieveRequest) :
    ∃ read, db'.replayRetrieval payload (w.events (db.chosen env call w) now) = .ok read ∧
      read.evaluatedCount = (db.chosen env call w).length ∧
      read.references = (w.suggestions (db.chosen env call w)).map (·.reference) := by
  cases hchosen : db.chosen env call w with
  | nil => exact ⟨⟨payload, 0, []⟩, rfl, rfl, rfl⟩
  | cons first rest =>
    have hsteps : ∀ e ∈ w.events (first :: rest) now, ∃ s, db'.replayed e = .ok s ∧
        s.reference = e.reference := by
      intro e he
      obtain ⟨i, hi, rfl⟩ := mem_mapIdx.1 he
      have hrow : (first :: rest)[i] ∈ db.chosen env call w := by
        rw [hchosen]
        exact getElem_mem hi
      obtain ⟨hitem, hversion, horganization⟩ := chosen_spec hrow
      exact replayed_reference hgrows rfl hitem hversion horganization
    obtain ⟨suggestions, hsuggestions, hreferences⟩ := exists_mapM_map hsteps
    refine ⟨⟨payload, suggestions.length, suggestions⟩, ?_, ?_, ?_⟩
    · have hhead : (w.events (first :: rest) now).head?.map (·.outcome) ≠ some .noMatch := by
        simp [Wanted.events]
      rw [Db.replayRetrieval, if_neg hhead, hsuggestions]
      rfl
    · have hlength := congrArg List.length hreferences
      rw [length_map, length_map] at hlength
      show suggestions.length = _
      rw [hlength]
      exact length_mapIdx
    · show suggestions.map _ = _
      rw [hreferences]
      show List.map _ (List.mapIdx _ _) = List.map _ (List.mapIdx _ _)
      rw [mapIdx_eq_zipIdx_map, mapIdx_eq_zipIdx_map, map_map, map_map]
      rfl

theorem reply_repeated {again : RetrieveCall} {prior : List ReuseEvent}
    (hagain : ∃ w', validateRetrieve env again.around.catalog again.organizationId again.payload =
      .ok w')
    (hprior : store.priorEvents again.organizationId again.payload.idempotencyKey = prior)
    (hne : prior ≠ []) (hsame : ∀ e ∈ prior, e.requestFingerprint = again.payload)
    (hread : store.memory.replayRetrieval again.payload prior = .ok read) :
    store.reply env again = .ok (store, read) := by
  obtain ⟨w', hw'⟩ := hagain
  rw [Store.reply, Store.retrieve, hw', ok_bind, hprior]
  cases prior with
  | nil => exact absurd rfl hne
  | cons e prior =>
    show (ensure _ _ >>= _) = _
    rw [ensure_of hsame, ok_bind, hread]
    rfl

theorem repeated_reply (hkept : Kept env store.memory)
    (hw : validateRetrieve env call.around.catalog call.organizationId call.payload = .ok w)
    (hnew : store.priorEvents call.organizationId call.payload.idempotencyKey = [])
    (later : List StoreCall) {again : RetrieveCall}
    (horganization : again.organizationId = call.organizationId)
    (hpayload : again.payload = call.payload)
    (hagain : ∃ w', validateRetrieve env again.around.catalog again.organizationId again.payload =
      .ok w') :
    ∃ store'' read', ((storeService env).run (store.answered env call w).1 later).reply env again =
        .ok (store'', read') ∧
      read'.evaluatedCount = (store.memory.chosen env call w).length ∧
      read'.references = (store.answered env call w).2.references := by
  obtain ⟨horganization', hpayload'⟩ := validateRetrieve_ok hw
  rw [← horganization', ← hpayload'] at hnew
  have hrefreshed : store.memory.Refreshed
      (store.memory.rows call.around call.now ((store.memory.matching w).take 20)) :=
    rows_refreshed fun item hitem => matching_subset _ w (mem_of_mem_take hitem)
  have hevents : (store.answered env call w).1.priorEvents w.organizationId
      w.payload.idempotencyKey = w.events (store.memory.chosen env call w) call.now :=
    priorEvents_answered hnew
  have hprior : (store.answered env call w).1.recorded w.organizationId
      w.payload.idempotencyKey ≠ [] := by
    rw [ne_eq, ← priorEvents_eq_nil, hevents]
    exact events_ne_nil w _ call.now
  have hkept' : Kept env (store.answered env call w).1.memory := hkept.refreshed hrefreshed
  have hcarries := carries_run hkept' hprior later
  have hgrows := (grows_store hkept hrefreshed).trans hcarries.grows
  obtain ⟨read', hread', hcount, hreferences⟩ :=
    replayRetrieval_events env call w call.now hgrows w.payload
  have hpayload'' : again.payload = w.payload := hpayload.trans hpayload'.symm
  have horganization'' : again.organizationId = w.organizationId :=
    horganization.trans horganization'.symm
  have hlater : ((storeService env).run (store.answered env call w).1 later).priorEvents
      again.organizationId again.payload.idempotencyKey =
        w.events (store.memory.chosen env call w) call.now := by
    rw [horganization'', hpayload'', Store.priorEvents, ← Store.recorded, hcarries.recorded]
    exact hevents
  refine ⟨(storeService env).run (store.answered env call w).1 later, read', ?_, hcount,
    hreferences⟩
  refine reply_repeated hagain hlater (events_ne_nil w _ call.now) ?_ ?_
  · intro e he
    rw [(mem_events he).2.2, hpayload'']
  · rw [hpayload'']
    exact hread'

/-! ## Exactly when -/

theorem Db.Small.counts (h : db.Small call w) (env : Env) : (db.chosen env call w).length =
      (db.eligibleOf call.around call.now ((db.matching w).take 20)).length := by
  have hlength := (h.considered (List.Perm.refl db.items)).length_eq
  rw [Db.chosen, Wanted.best, length_take, (w.ranked_rows env _).length_eq]
  refine min_eq_right ?_
  show (db.eligibleOf _ _ _).length ≤ _
  rcases h with hnone | ⟨-, hfew⟩
  · rw [hnone] at hlength
    exact hlength.le.trans (Nat.zero_le _)
  · exact hlength.le.trans hfew

theorem Kept.reordered (h : Kept env store.memory) (hperm : items.Perm store.memory.items) :
    (store.reordered items).memory.Current (store.reordered items).memory.items :=
  h.current fun _ hitem => hperm.mem_iff.1 hitem

theorem faithful_of_small (hkept : Kept env store.memory)
    (hw : validateRetrieve env call.around.catalog call.organizationId call.payload = .ok w)
    (hnew : store.priorEvents call.organizationId call.payload.idempotencyKey = [])
    (hsmall : store.memory.Small call w) : store.Faithful env call w where
  complete := by
    intro items hperm
    have hreply : (store.reordered items).reply env call =
        .ok ((store.reordered items).answered env call w) :=
      reply_new (hkept.reordered hperm) hw hnew
    refine ⟨_, _, hreply, ?_⟩
    show w.suggestions _ = _
    rw [← hsmall.chosen hkept hperm]
    rfl
  exactFirst := by
    intro row hrow hcontext
    have hreply := reply_new (hkept.current fun _ => id) hw hnew
    refine ⟨_, _, hreply, leads_of_small env ?_ hrow hcontext⟩
    show w.suggestions _ = _
    have hall : store.memory.chosen env call w =
        w.best env (store.memory.eligible call.around call.now w) :=
      hsmall.chosen hkept (List.Perm.refl _)
    rw [hall, Wanted.best, take_of_length_le]
    rw [(w.ranked_rows env _).length_eq]
    rcases hsmall with hnone | ⟨-, hfew⟩
    · rw [hnone]
      exact Nat.zero_le _
    · exact hfew
  replayed := by
    intro later again horganization hpayload hagain
    have hreply := reply_new (hkept.current fun _ => id) hw hnew
    obtain ⟨store'', read', hread', hcount, hreferences⟩ :=
      repeated_reply hkept hw hnew later horganization hpayload hagain
    exact ⟨_, _, store'', read', hreply, hread', hcount.trans (hsmall.counts env), hreferences⟩

theorem exists_row_of_suggestions (h : w.suggestions rows = w.suggestions rows')
    (hrow : row ∈ rows') : ∃ other ∈ rows, other.1.id = row.1.id := by
  obtain ⟨i, hi, rfl⟩ := getElem_of_mem hrow
  have hmem : suggestion rows'[i].1 rows'[i].2 (w.reasons rows'[i].1) (i + 1) ∈
      w.suggestions rows := by
    rw [h]
    exact mem_mapIdx.2 ⟨i, hi, rfl⟩
  obtain ⟨j, hj, heq⟩ := mem_mapIdx.1 hmem
  exact ⟨rows[j], getElem_mem hj, congrArg MemorySuggestion.memoryId heq⟩

theorem matching_last (hitem : w.Matches item) (hmany : 20 < (db.matching w).length)
    (hperm : (db.items.erase item ++ [item]).Perm db.items) :
    ((Db.mk (db.items.erase item ++ [item]) db.versions).matching w).take 20 ⊆
      db.items.erase item := by
  have hsplit : (Db.mk (db.items.erase item ++ [item]) db.versions).matching w =
      (db.items.erase item).filter (fun i => w.Matches i) ++ [item] := by
    have hlast : [item].filter (fun i => w.Matches i) = [item] := by simp [hitem]
    rw [Db.matching, filter_append, hlast]
  have hlength := (hperm.filter fun i => decide (w.Matches i)).length_eq
  have hlong : 20 ≤ ((db.items.erase item).filter fun i => w.Matches i).length := by
    rw [Db.matching] at hmany hsplit
    dsimp only at hsplit
    rw [hsplit, length_append, length_singleton] at hlength
    omega
  rw [hsplit, take_append_of_le_length hlong]
  exact fun i hi => mem_of_mem_filter (mem_of_mem_take hi)

/-- Where a complete answer finds something to suggest, the query cuts nothing off: otherwise the
best item is not among its rows when it is the last one of the table. -/
theorem Store.Faithful.few (h : store.Faithful env call w) (hkept : Kept env store.memory)
    (hw : validateRetrieve env call.around.catalog call.organizationId call.payload = .ok w)
    (hnew : store.priorEvents call.organizationId call.payload.idempotencyKey = [])
    (hsome : store.memory.eligible call.around call.now w ≠ []) :
    (store.memory.matching w).length ≤ 20 := by
  by_contra hmany
  have hranked : w.ranked env (store.memory.eligible call.around call.now w) ≠ [] := by
    rw [ne_eq, ← length_eq_zero_iff, (w.ranked_rows env _).length_eq, length_eq_zero_iff]
    exact hsome
  obtain ⟨best, rest, hbest⟩ := exists_cons_of_ne_nil hranked
  have heligible : best ∈ store.memory.eligible call.around call.now w := by
    rw [← (w.ranked_rows env _).mem_iff, hbest]
    exact mem_cons_self
  obtain ⟨item, hitem, hok⟩ := mem_rows.1 (mem_eligibleOf.1 heligible).1
  have hmem : item ∈ store.memory.items := matching_subset _ w hitem
  -- the same items with that of the best row at the end
  have hperm : (store.memory.items.erase item ++ [item]).Perm store.memory.items :=
    (perm_append_singleton _ _).trans (perm_cons_erase hmem).symm
  obtain ⟨store', read, hreply, hread⟩ := h.complete _ hperm
  rw [reply_new (hkept.reordered hperm) hw hnew] at hreply
  obtain rfl := congrArg Prod.snd (Except.ok.inj hreply)
  have hfirst : best ∈ w.best env (store.memory.eligible call.around call.now w) := by
    rw [Wanted.best, hbest]
    have hpositive := w.payload.bounds.1
    obtain ⟨k, hk⟩ := Nat.exists_eq_add_of_le' hpositive
    rw [hk, take_succ_cons]
    exact mem_cons_self
  obtain ⟨row, hrow, hsame⟩ := exists_row_of_suggestions hread hfirst
  obtain ⟨other, hother, hrowOk⟩ := mem_rows.1 (chosen_rows hrow)
  have hmatches : w.Matches item := of_decide_eq_true (mem_filter.1 hitem).2
  have herased : other ∈ store.memory.items.erase item :=
    matching_last hmatches (not_le.1 hmany) hperm hother
  have hid : other.id = item.id := by
    rw [← (row_same hrowOk).id, hsame, (row_same hok).id]
  obtain rfl := hkept.ids.eq_of_key_eq (mem_of_mem_erase herased) hmem hid
  exact (Nodup.of_map _ hkept.ids).not_mem_erase herased

/-- Where a repetition counts as the first answer did, nothing that the query finds is left out. -/
theorem Store.Faithful.counted (h : store.Faithful env call w) (hkept : Kept env store.memory)
    (hw : validateRetrieve env call.around.catalog call.organizationId call.payload = .ok w)
    (hnew : store.priorEvents call.organizationId call.payload.idempotencyKey = []) :
    (store.memory.eligibleOf call.around call.now ((store.memory.matching w).take 20)).length ≤
      w.payload.maxSuggestions := by
  have hreply := reply_new (hkept.current fun _ => id) hw hnew
  obtain ⟨store', read, store'', read', hread, hread', hcount, -⟩ :=
    h.replayed [] call rfl rfl ⟨w, hw⟩
  obtain ⟨rfl, rfl⟩ := Prod.mk.inj (Except.ok.inj (hreply.symm.trans hread))
  obtain ⟨store₂, read₂, hread₂, hcount₂, -⟩ :=
    repeated_reply hkept hw hnew [] (Eq.refl call.organizationId) rfl ⟨w, hw⟩
  obtain ⟨rfl, rfl⟩ := Prod.mk.inj (Except.ok.inj (hread₂.symm.trans hread'))
  refine (hcount.symm.trans hcount₂).le.trans ?_
  exact length_take_le _ _

/-- A request that is not a repetition is answered as it should be exactly when it is small. -/
theorem faithful_iff (env : Env) (before : List StoreCall) (call : RetrieveCall) (w : Wanted)
    (hw : validateRetrieve env call.around.catalog call.organizationId call.payload = .ok w)
    (hnew : (stored env before).priorEvents call.organizationId call.payload.idempotencyKey = []) :
    (stored env before).Faithful env call w ↔ (stored env before).memory.Small call w := by
  have hkept := kept_stored env before
  constructor
  · intro h
    by_cases hsome : (stored env before).memory.eligible call.around call.now w = []
    · exact .inl hsome
    · have hfew := h.few hkept hw hnew hsome
      have hcounted := h.counted hkept hw hnew
      rw [take_of_length_le hfew] at hcounted
      exact .inr ⟨hfew, hcounted⟩
  · exact faithful_of_small hkept hw hnew

/-! ## One term in two contexts -/

namespace Contexts

open Repeated

/-- The term of a source system. -/
def inSystem (key family : String) : MemoryCandidateCreate :=
  { candidate key with sourceSystemFamily := some family }

/-- The term is recorded and confirmed for two source systems. -/
def before : List StoreCall :=
  [.write ⟨1, catalog, 0, 10, 20, .recordCandidate (inSystem "first" "sap")⟩,
    .write ⟨1, catalog, 1, 11, 21, .decide 10 ⟨"confirm", 1, .confirm, none, none, none⟩⟩,
    .write ⟨1, catalog, 2, 12, 22, .recordCandidate (inSystem "second" "maximo")⟩,
    .write ⟨1, catalog, 3, 13, 23, .decide 12 ⟨"again", 1, .confirm, none, none, none⟩⟩]

/-- One suggestion is asked for. -/
def request : MemoryRetrieveRequest where
  idempotencyKey := "ask"
  category := .terminology
  subjectKind := .term
  subject := "Work order"
  sourceSystemFamily := some "sap"
  canonicalDomain := none
  context := ⟨none, none, []⟩
  maxSuggestions := 1
  correlationId := none
  bounds := ⟨Nat.le_refl 1, Nat.succ_le_succ (Nat.zero_le 4)⟩

def question : RetrieveCall := ⟨1, ⟨catalog, ⟨[(2, .stable)], []⟩⟩, 4, request⟩

def wanted : Wanted := ⟨1, request, "work order", ⟨some "sap", none, none, none, [], none⟩⟩

theorem validated :
    validateRetrieve ascii question.around.catalog question.organizationId question.payload =
      .ok wanted := by
  decide +kernel

theorem unanswered :
    (stored ascii before).priorEvents question.organizationId question.payload.idempotencyKey = [] := by
  decide +kernel

/-- Two memories are evaluated, and the repeated answer says that it was one. -/
theorem not_faithful : ¬ (stored ascii before).Faithful ascii question wanted := by
  intro h
  have hcounted := h.counted (kept_stored ascii before) validated unanswered
  revert hcounted
  decide +kernel

/-- With one of the contexts only, the request is answered as it should be. -/
theorem faithful_single : (stored ascii (before.take 2)).Faithful ascii question wanted :=
  (faithful_iff ascii (before.take 2) question wanted validated (by decide +kernel)).2
    (by decide +kernel)

end Contexts

end Intel4Ops.OperationalMemory
