import Intel4Ops.Mapping.Attempts

/-!
# Runs that are carried out once

What one step of interleaved sessions does to the tables: it moves runs and adds none of their
results (`Moves`), or it commits the work of a session that holds the current lease (`Settled`).
`step_effect` is the inversion of a step, `exactlyOnce_run` the promises of every run in which no
commit of `fail` comes after the run that it names has ended.
-/

namespace Intel4Ops.Mapping

open Lib List Table Except Prod

/-! ## Moves -/

/-- The run is the same attempt, neither finished nor with other counts. -/
structure MappingRun.MovedFrom (run' run : MappingRun) : Prop where
  attempt : run'.SameAttempt run
  counts : run'.counts = run.counts
  unfinished : ¬ run'.Finished

/-- The pending runs that `p` selects move. -/
def MovesPending (db : Db) (p : MappingRun → Bool) (f : MappingRun → MappingRun) : Prop :=
  ∀ run ∈ db.runs, p run = true → run.Pending ∧ (f run).MovedFrom run

/-- What a step does to the tables, unless it commits results. -/
inductive Moves (db : Db) : Db → Prop
  | drawn {n : ℕ} (hn : db.nextId ≤ n) : Moves db { db with nextId := n }
  | rewritten {p : MappingRun → Bool} {f : MappingRun → MappingRun} {n : ℕ} (hn : db.nextId ≤ n)
      (h : MovesPending db p f) :
      Moves db { db with runs := update p f db.runs, nextId := n }
  | added {run : MappingRun} {rows : List MappingRunInput} (hid : run.id = db.nextId)
      (hqueued : run.status = .queued) (hrows : ∀ i ∈ rows, i.mappingRunId = db.nextId)
      (hchained : Chained (addRun db run rows)) : Moves db (addRun db run rows)

/-- What an open `retry` has read stays. -/
structure Stays (db db' : Db) : Prop where
  failed : ∀ r ∈ db.runs, r.status = .failed → r ∈ db'.runs
  inputs : ∀ r ∈ db.runs, inputRows db' r.organizationId r.id = inputRows db r.organizationId r.id

theorem MappingRun.Pending.not_failed {run : MappingRun} (h : run.Pending) :
    run.status ≠ .failed := by
  intro hfailed
  rcases h with h | h
  · rw [h] at hfailed
    cases hfailed
  · rw [h] at hfailed
    cases hfailed

theorem MappingRun.Pending.not_finished {run : MappingRun} (h : run.Pending) : ¬ run.Finished := by
  intro hfinished
  rcases h with h | h <;> rcases hfinished with h' | h' <;> rw [h] at h' <;> cases h'

section Moves

variable {db db' : Db}

theorem Moves.refl (db : Db) : Moves db db := .drawn (le_refl _)

variable {r : MappingRun}

variable {f : MappingRun → MappingRun} {p : MappingRun → Bool}

theorem MovesPending.spares (h : MovesPending db p f) (hr : r ∈ db.runs) (hended : ¬ r.Pending) :
    (if p r = true then f r else r) = r := by
  by_cases hp : p r = true
  · exact absurd (h r hr hp).1 hended
  · rw [if_neg hp]

theorem MovesPending.sameAttempt (h : MovesPending db p f) (hr : r ∈ db.runs) :
    (if p r = true then f r else r).SameAttempt r := by
  split
  · rename_i hp
    exact (h r hr hp).2.attempt
  · exact .refl r

section

variable (h : Moves db db')
include h

theorem Moves.chained (hchained : Chained db) : Chained db' := by
  cases h with
  | drawn hn =>
    exact hchained.rewrite (map_id _).symm rfl hn (fun r _ => .refl r) fun r _ _ => rfl
  | rewritten hn h =>
    exact hchained.rewrite rfl rfl hn (fun r hr => h.sameAttempt hr) fun r hr hfailed =>
      h.spares hr fun hpending => hpending.not_failed hfailed
  | added hid hqueued hrows h => exact h

theorem Moves.quiet (hchained : Chained db) : Quiet db db' := by
  refine ⟨?_, ?_, ?_⟩
  · cases h with
    | drawn hn | rewritten hn h | added hid hqueued hrows h =>
      exact ⟨rfl, rfl, rfl, rfl, rfl, rfl, rfl⟩
  · intro r' hr' r hr heq
    cases h with
    | drawn hn => rw [hchained.runIds.eq_of_key_eq hr' hr heq]
    | @rewritten p f n hn h =>
      obtain ⟨r₀, hr₀, rfl⟩ := mem_update.1 hr'
      obtain rfl : r₀ = r :=
        hchained.runIds.eq_of_key_eq hr₀ hr ((h.sameAttempt hr₀).id.symm.trans heq)
      by_cases hp : p r₀ = true
      · rw [if_pos hp]
        exact (h r₀ hr₀ hp).2.counts
      · rw [if_neg hp]
    | added hid hqueued hrows h =>
      rcases mem_append.1 hr' with hr' | hr'
      · rw [hchained.runIds.eq_of_key_eq hr' hr heq]
      · rw [mem_singleton.1 hr', hid] at heq
        exact absurd heq.symm (hchained.drawn r hr).ne
  · intro r' hr' hfinished
    cases h with
    | drawn hn => exact hr'
    | @rewritten p f n hn h =>
      obtain ⟨r₀, hr₀, rfl⟩ := mem_update.1 hr'
      by_cases hp : p r₀ = true
      · rw [if_pos hp] at hfinished
        exact absurd hfinished (h r₀ hr₀ hp).2.unfinished
      · rw [if_neg hp]
        exact hr₀
    | @added run rows hid hqueued hrows h =>
      rcases mem_append.1 hr' with hr' | hr'
      · exact hr'
      · obtain rfl := mem_singleton.1 hr'
        have hpending : r'.Pending := .inl hqueued
        exact absurd hfinished hpending.not_finished

theorem Moves.ended_mem (hr : r ∈ db.runs) (hended : ¬ r.Pending) : r ∈ db'.runs := by
  cases h with
  | drawn hn => exact hr
  | rewritten hn h => exact mem_update.2 ⟨r, hr, (h.spares hr hended).symm⟩
  | added hid hqueued hrows h => exact mem_append_left _ hr

theorem Moves.kept : FinishedKept db db' := by
  intro r hr hfinished
  exact ⟨r, h.ended_mem hr fun hpending => hpending.not_finished hfinished, rfl, rfl⟩

theorem Moves.stays (hchained : Chained db) : Stays db db' := by
  constructor
  · intro r hr hfailed
    exact h.ended_mem hr fun hpending => hpending.not_failed hfailed
  · intro r hr
    cases h with
    | drawn hn | rewritten hn h => rfl
    | added hid hqueued hrows h => exact hchained.inputRows_addRun hrows hr

end

end Moves

/-! ## The operations move runs -/

theorem MappingRun.MovedFrom.of_status {run' run : MappingRun} (hattempt : run'.SameAttempt run)
    (hcounts : run'.counts = run.counts) (hstatus : run'.Pending ∨ run'.status = .failed) :
    run'.MovedFrom run where
  attempt := hattempt
  counts := hcounts
  unfinished hfinished := by
    rcases hstatus with hpending | hfailed
    · exact hpending.not_finished hfinished
    · rcases hfinished with h | h
      · rw [h] at hfailed
        cases hfailed
      · rw [h] at hfailed
        cases hfailed

theorem MappingRun.movedFrom_claimed (run : MappingRun) (workerId : String) (leaseId : UUID)
    (now : Instant) : (run.claimed workerId leaseId now).MovedFrom run :=
  .of_status ⟨rfl, rfl, rfl, rfl, rfl⟩ rfl (.inl (.inr rfl))

theorem MappingRun.movedFrom_failed (run : MappingRun) (code : String) (retryable : Bool) :
    (run.failed code retryable).MovedFrom run :=
  .of_status ⟨rfl, rfl, rfl, rfl, rfl⟩ rfl (.inr rfl)

theorem MappingRun.movedFrom_markFailed (run : MappingRun) (code : String) (retryable : Bool) :
    (run.markFailed code retryable).MovedFrom run :=
  .of_status ⟨rfl, rfl, rfl, rfl, rfl⟩ rfl (.inr rfl)

theorem MappingRun.HeldBy.pending {run : MappingRun} {claim : MappingExecutionClaim}
    (h : run.HeldBy claim) : run.Pending :=
  .inr h.2.2.1

section Operations

variable {db db' : Db} {org : UUID} {run : MappingRun}

theorem Chained.claimRow_moves (h : Chained db) (hrun : run ∈ db.runs)
    (hqueued : run.status = .queued) (workerId : String) (now : Instant) :
    Moves db (claimRow db run workerId now).1 := by
  refine .rewritten (Nat.le_succ _) fun r hr hid => ?_
  obtain rfl : r = run := h.runIds.eq_of_key_eq hr hrun (of_decide_eq_true hid)
  exact ⟨.inl hqueued, r.movedFrom_claimed workerId db.nextId now⟩

theorem Chained.claimNext_moves (h : Chained db) (locked : List UUID) (workerId : String)
    (now : Instant) : Moves db (((claimNext db locked workerId now).map (·.1)).getD db) := by
  unfold Mapping.claimNext
  cases hnext : nextQueued db locked with
  | none => exact .refl db
  | some run =>
    have hmem := mem_of_mem_head? hnext
    rw [(perm_insertionSort _ _).mem_iff, mem_filter] at hmem
    exact h.claimRow_moves hmem.1 (of_decide_eq_true hmem.2).1 workerId now

variable {now : Instant}

variable {runId : UUID} {p : Db × MappingRun × Bool}

theorem Chained.claimRun_moves (h : Chained db) {locked : List UUID} {workerId : String}
    {p : Db × MappingExecutionClaim} (hclaim : claimRun db locked org runId workerId now = .ok p) :
    Moves db p.1 := by
  unfold Mapping.claimRun at hclaim
  split at hclaim
  · rename_i run hfind
    obtain ⟨hrun, -, -, hqueued, -⟩ := find?_spec hfind
    obtain rfl := ok.inj hclaim
    exact h.claimRow_moves hrun hqueued workerId now
  · simp [bind_eq_ok] at hclaim

theorem heartbeat_moves (db : Db) (claim : MappingExecutionClaim) (now : Instant) :
    Moves db (heartbeat db claim now).1 := by
  refine .rewritten (le_refl _) fun r hr hheld => ?_
  have hheld : r.HeldBy claim := of_decide_eq_true hheld
  exact ⟨hheld.pending, .of_status ⟨rfl, rfl, rfl, rfl, rfl⟩ rfl (.inl hheld.pending)⟩

theorem mem_staleRuns {locked : List UUID} {staleAfter : ℤ} {limit : ℕ}
    (h : run ∈ staleRuns db locked now staleAfter limit) :
    run ∈ db.runs ∧ run.status = .running := by
  have hmem := mem_of_mem_take h
  rw [(perm_insertionSort _ _).mem_iff, mem_filter] at hmem
  exact ⟨hmem.1, (of_decide_eq_true hmem.2).1.1⟩

theorem Chained.recoverStale_moves (h : Chained db) (locked : List UUID) (now : Instant)
    (staleAfter : ℤ) (limit : ℕ) : Moves db (recoverStale db locked now staleAfter limit).1 := by
  refine .rewritten (le_refl _) fun r hr hid => ?_
  obtain ⟨stale, hstale, heq⟩ := mem_map.1 (of_decide_eq_true hid)
  obtain ⟨hmem, hrunning⟩ := mem_staleRuns hstale
  obtain rfl : stale = r := h.runIds.eq_of_key_eq hmem hr heq
  exact ⟨.inr hrunning, stale.movedFrom_failed _ true⟩

theorem failClaimed_moves (db : Db) (claim : MappingExecutionClaim) (code : String)
    (retryable : Bool) : Moves db ((failClaimed db claim code retryable).getD db) := by
  unfold failClaimed
  split
  · refine .rewritten (le_refl _) fun r hr hheld => ?_
    have hheld : r.HeldBy claim := of_decide_eq_true hheld
    exact ⟨hheld.pending, r.movedFrom_failed code retryable⟩
  · exact .refl db

/-- A commit of `fail` moves its run, if that is still pending. -/
theorem writeFailing_moves (hpending : ∀ r ∈ db.runs, r.id = runId → r.Pending) (code : String)
    (retryable : Bool) : Moves db (writeFailing db runId code retryable) :=
  .rewritten (le_refl _) fun r hr hid =>
    ⟨hpending r hr (of_decide_eq_true hid), r.movedFrom_markFailed code retryable⟩

theorem Chained.submit_moves (h : Chained db) {payload : MappingRunCreate} {print : String}
    (hsubmit : submit db org payload print now = .ok p) : Moves db p.1 := by
  unfold Mapping.submit at hsubmit
  split at hsubmit
  · split at hsubmit
    · obtain rfl := ok.inj hsubmit
      exact .refl db
    · cases hsubmit
  · simp only [bind_eq_ok, pure_eq_ok] at hsubmit
    obtain ⟨-, -, rfl⟩ := hsubmit
    have hrows : ∀ i ∈ submittedInputs org db.nextId payload.records,
        i.mappingRunId = db.nextId := by
      intro i hi
      obtain ⟨p, -, rfl⟩ := mem_map.1 hi
      rfl
    exact .added rfl rfl hrows (h.submitted rfl rfl rfl hrows)

theorem Chained.writeRetry_moves (h : Chained db) {predecessor : MappingRun} {key : String}
    (hmem : predecessor ∈ db.runs) (hfailed : predecessor.status = .failed)
    (hretryable : predecessor.failureRetryable = some true) (hretry : writeRetry db org predecessor
      (inputRows db predecessor.organizationId predecessor.id) key now = .ok p) : Moves db p.1 := by
  obtain ⟨db', child, created⟩ := p
  rcases writeRetry_cases hretry with rfl | ⟨hfree, rfl⟩
  · exact .refl db'
  · refine .added rfl rfl ?_ (h.retried hmem hfailed hretryable hfree)
    intro i hi
    obtain ⟨i₀, -, rfl⟩ := mem_map.1 hi
    rfl

end Operations

/-! ## The commit of a session that holds the lease -/

section Settle

variable {db db' : Db} {claim : MappingExecutionClaim} {counted : MappingRun} {work : Work}

/-- The work of a session is written as a whole, with the run that it belongs to. -/
theorem settleRun_ok (h : settleRun db claim counted work = .ok (some db')) :
    (∃ r ∈ db.runs, r.HeldBy claim) ∧
      db'.runs = update (fun r => r.HeldBy claim) (·.settled counted) db.runs ∧
      db'.results = db.results ++ work.results ∧ db'.inputs = db.inputs ∧
      db'.nextId = db.nextId := by
  simp only [settleRun, Work.write, bind_eq_ok, orFail_eq_ok, pure_eq_ok] at h
  obtain ⟨-, ⟨entities, -, events, -, metrics, -, results, hresults, links, -, rfl⟩, h⟩ := h
  split at h
  · rename_i hheld
    obtain rfl : _ = db' := Option.some.inj (pure_eq_ok.1 h)
    obtain ⟨r, hr, hclaim⟩ := any_eq_true.1 hheld
    exact ⟨⟨r, hr, of_decide_eq_true hclaim⟩, rfl, insertAll_eq_some hresults, rfl, rfl⟩
  · cases pure_eq_ok.1 h

theorem MappingRun.settled_finished (run counted : MappingRun) : (run.settled counted).Finished :=
  counted.finish_status none none

theorem settleRun_settles (hchained : Chained db)
    (hwork : ∀ r ∈ work.results, r.mappingRunId = claim.runId)
    (h : settleRun db claim counted work = .ok (some db')) : Settles db db' claim := by
  obtain ⟨hheld, hruns, hresults, -, -⟩ := settleRun_ok h
  refine ⟨hheld, ?_, ?_, work.results, hresults, hwork⟩
  · intro r' hr' hid
    rw [hruns] at hr'
    obtain ⟨r, hr, rfl⟩ := mem_update.1 hr'
    obtain ⟨holder, hholder, hclaim⟩ := hheld
    have hsame : (if decide (r.HeldBy claim) = true then r.settled counted else r).id = r.id := by
      split <;> rfl
    obtain rfl : r = holder := by
      apply hchained.runIds.eq_of_key_eq hr hholder
      rw [hclaim.1, ← hid, hsame]
    rw [if_pos (decide_eq_true hclaim)]
    exact r.settled_finished counted
  · intro r' hr' hid
    rw [hruns] at hr'
    obtain ⟨r, hr, rfl⟩ := mem_update.1 hr'
    split at hid
    · rename_i hclaim
      exact absurd (of_decide_eq_true hclaim).1 hid
    · rename_i hclaim
      rw [if_neg hclaim]
      exact hr

variable {r : MappingRun}

theorem settled_spares (hended : ¬ r.Pending) :
    (if decide (r.HeldBy claim) = true then r.settled counted else r) = r := by
  rw [if_neg]
  intro hclaim
  exact hended (of_decide_eq_true hclaim : r.HeldBy claim).pending

theorem settleRun_chained (hchained : Chained db)
    (h : settleRun db claim counted work = .ok (some db')) : Chained db' := by
  obtain ⟨-, hruns, -, hinputs, hsupply⟩ := settleRun_ok h
  refine hchained.rewrite hruns hinputs hsupply.ge (fun r hr => ?_) fun r hr hfailed => ?_
  · split
    · exact ⟨rfl, rfl, rfl, rfl, rfl⟩
    · exact .refl r
  · exact settled_spares fun hpending => hpending.not_failed hfailed

section

variable (h : settleRun db claim counted work = .ok (some db'))
include h

theorem settleRun_ended_mem (hr : r ∈ db.runs) (hended : ¬ r.Pending) : r ∈ db'.runs := by
  obtain ⟨-, hruns, -, -, -⟩ := settleRun_ok h
  rw [hruns]
  exact mem_update.2 ⟨r, hr, (settled_spares hended).symm⟩

theorem settleRun_kept : FinishedKept db db' := by
  intro r hr hfinished
  exact ⟨r, settleRun_ended_mem h hr fun hpending => hpending.not_finished hfinished, rfl, rfl⟩

theorem settleRun_stays : Stays db db' := by
  refine ⟨fun r hr hfailed => ?_, fun r hr => ?_⟩
  · exact settleRun_ended_mem h hr fun hpending => hpending.not_failed hfailed
  · obtain ⟨-, -, -, hinputs, -⟩ := settleRun_ok h
    rw [inputRows, inputRows, hinputs]

end

end Settle

/-! ## One step of the sessions -/

/-- What a session carries belongs to its run, and what an open `retry` has read is still so. -/
def Session.Valid (db : Db) : Session → Prop
  | .executing claim run _ _ => run.id = claim.runId
  | .finishing claim _ work => ∀ r ∈ work.results, r.mappingRunId = claim.runId
  | .aborting _ _ => True
  | .failing _ _ _ => True
  | .retrying _ predecessor inputs _ => predecessor ∈ db.runs ∧ predecessor.status = .failed ∧
      predecessor.failureRetryable = some true ∧
      inputs = inputRows db predecessor.organizationId predecessor.id

/-- The tables are chained, and the sessions are valid. -/
structure Coherent (w : World) : Prop where
  chained : Chained w.db
  sessions : ∀ s ∈ w.sessions, s.2.Valid w.db

/-- The sessions after a step are sessions of before, or valid. -/
def Opens (w w' : World) : Prop := ∀ s ∈ w'.sessions, s ∈ w.sessions ∨ s.2.Valid w'.db

/-- What a step does. -/
inductive Effect (w w' : World) (a : Action) : Prop
  | moves (h : Moves w.db w'.db) (hopens : Opens w w')
  | settles (tx : TxId) (now : Instant) (claim : MappingExecutionClaim) (counted : MappingRun)
      (work : Work) (haction : a = .commit tx now)
      (hsession : w.session tx = some (.finishing claim counted work))
      (h : settleRun w.db claim counted work = .ok (some w'.db)) (hopens : Opens w w')

theorem Session.Valid.stays {db db' : Db} {s : Session} (h : s.Valid db) (hstays : Stays db db') :
    s.Valid db' := by
  cases s with
  | executing claim run version inputs | finishing claim counted work => exact h
  | aborting claim code | failing runId code retryable => trivial
  | retrying org predecessor inputs key =>
    obtain ⟨hmem, hfailed, hretryable, hinputs⟩ := h
    refine ⟨hstays.failed predecessor hmem hfailed, hfailed, hretryable, ?_⟩
    rw [hinputs, hstays.inputs predecessor hmem]

section Sessions

variable {env : Env} {w w' : World} {tx : TxId} {s : Session} {db : Db}

theorem World.mem_of_session (h : w.session tx = some s) : (tx, s) ∈ w.sessions := by
  obtain ⟨⟨tx', s'⟩, hfind, rfl⟩ := Option.map_eq_some_iff.1 h
  obtain ⟨hmem, rfl⟩ := find?_spec hfind
  exact hmem

theorem Coherent.valid (h : Coherent w) (hsession : w.session tx = some s) : s.Valid w.db :=
  h.sessions _ (World.mem_of_session hsession)

theorem opens_of_eq (h : w'.sessions = w.sessions) : Opens w w' := fun _ hs => .inl (h ▸ hs)

theorem World.finish_opens (w : World) (tx : TxId) (db : Db) : Opens w (w.finish tx db) :=
  fun _ hs => .inl (mem_filter.1 hs).1

theorem World.proceed_opens (w : World) (tx : TxId) (hvalid : s.Valid db) :
    Opens w (w.proceed tx s db) := by
  intro s' hs'
  rcases mem_append.1 hs' with hs' | hs'
  · exact .inl (mem_filter.1 hs').1
  · rw [mem_singleton.1 hs']
    exact .inr hvalid

theorem World.load_opens (hvalid : s.Valid w.db) (h : w.load tx s = .ok (w', ())) :
    w'.db = w.db ∧ Opens w w' := by
  simp only [World.load, bind_eq_ok, orFail_eq_ok, pure_eq_ok] at h
  obtain ⟨sessions, hinsert, rfl, -⟩ := h
  obtain ⟨-, rfl⟩ := insert_eq_some.1 hinsert
  refine ⟨rfl, fun s' hs' => ?_⟩
  rcases mem_append.1 hs' with hs' | hs'
  · exact .inl hs'
  · rw [mem_singleton.1 hs']
    exact .inr hvalid

theorem served_eq_ok {α : Type} {x : Raises α} {a : α} : served x = .ok a ↔ x = .ok a := by
  cases x with
  | ok b | error e => simp [served]

variable {a : Action}

theorem Effect.of_load (h : w.load tx s = .ok (w', ())) (hvalid : s.Valid w.db) :
    Effect w w' a := by
  obtain ⟨hdb, hopens⟩ := World.load_opens hvalid h
  exact .moves (hdb ▸ .refl w.db) hopens

theorem executeRead_effect {claim : MappingExecutionClaim}
    (hread : readExecution w.db claim = .ok s) (h : w.load tx s = .ok (w', ())) :
    Effect w w' a := by
  simp only [readExecution, bind_eq_ok, orFail_eq_ok, pure_eq_ok] at hread
  obtain ⟨run, hfind, version, -, rfl⟩ := hread
  obtain ⟨-, hid, -⟩ := find?_spec hfind
  exact .of_load h hid

theorem retryRead_effect {org runId : UUID} {key : String}
    (h : retryRead w tx org runId key = .ok (w', ())) : Effect w w' a := by
  simp only [retryRead, bind_eq_ok, served_eq_ok] at h
  obtain ⟨read, hread, h⟩ := h
  cases read with
  | found child =>
    obtain ⟨rfl, -⟩ := mk.inj (pure_eq_ok.1 h)
    exact .moves (.refl _) (opens_of_eq rfl)
  | retryable predecessor inputs =>
    obtain ⟨hmem, -, rfl, hfailed, hretryable, hinputs, -⟩ := readRetry_retryable hread
    exact .of_load h ⟨hmem, hfailed, hretryable, hinputs⟩

theorem executeWork_effect (hw : Coherent w) (h : executeWork env w tx = .ok (w', ())) :
    Effect w w' a := by
  unfold executeWork at h
  split at h
  · rename_i claim run version inputs hsession
    have hid : run.id = claim.runId := hw.valid hsession
    split at h
    · rename_i mapped counted hmapped
      obtain ⟨rfl, -⟩ := mk.inj (ok.inj h)
      obtain ⟨rs, hleaves⟩ := mapRecords_leaves hmapped
      refine .moves (.drawn hleaves.supply) (w.proceed_opens tx ?_)
      show ∀ r ∈ mapped.results.drop w.db.results.length, r.mappingRunId = claim.runId
      rw [hleaves.results, drop_left]
      intro r hr
      rw [hleaves.ofRun r hr, hid]
    · obtain ⟨rfl, -⟩ := mk.inj (ok.inj h)
      exact .moves (.refl _) (w.proceed_opens tx trivial)
  · cases h

theorem commit_effect (hw : Coherent w) {now : Instant} (hlate : ¬ CommitsLate w (.commit tx now))
    (h : commit w tx now = .ok (w', ())) : Effect w w' (.commit tx now) := by
  unfold commit at h
  split at h
  · rename_i claim counted work hsession
    split at h
    · rename_i outcome hsettle
      obtain ⟨rfl, -⟩ := mk.inj (ok.inj h)
      cases outcome with
      | none => exact .moves (.refl _) (w.finish_opens tx _)
      | some db =>
        exact .settles tx now claim counted work rfl hsession hsettle (w.finish_opens tx db)
    · obtain ⟨rfl, -⟩ := mk.inj (ok.inj h)
      exact .moves (.refl _) (w.proceed_opens tx trivial)
  · rename_i claim code hsession
    obtain ⟨rfl, -⟩ := mk.inj (ok.inj h)
    exact .moves (failClaimed_moves w.db claim code false) (w.finish_opens tx _)
  · rename_i runId code retryable hsession
    obtain ⟨rfl, -⟩ := mk.inj (ok.inj h)
    refine .moves (writeFailing_moves (fun r hr hid => ?_) code retryable) (w.finish_opens tx _)
    -- The run is still pending, because the commit is not late.
    by_contra hended
    refine hlate ⟨runId, ?_, r, hr, hid, hended⟩
    simp only [World.failure, hsession, Option.mem_def]
  · rename_i org predecessor inputs key hsession
    obtain ⟨hmem, hfailed, hretryable, rfl⟩ := hw.valid hsession
    split at h
    · rename_i p hretry
      obtain ⟨rfl, -⟩ := mk.inj (ok.inj h)
      exact .moves (hw.chained.writeRetry_moves hmem hfailed hretryable hretry)
        (w.finish_opens tx _)
    · obtain ⟨rfl, -⟩ := mk.inj (ok.inj h)
      exact .moves (.refl _) (w.finish_opens tx _)
  · cases h

/-- One step of a coherent world, if it does not commit a `fail` too late. -/
theorem step_effect (hw : Coherent w) (hlate : ¬ CommitsLate w a)
    (hok : step env w a = .ok (w', ())) : Effect w w' a := by
  cases a with
  | submit org payload print now =>
    simp only [step, bind_eq_ok, served_eq_ok, pure_eq_ok, mk.injEq] at hok
    obtain ⟨submitted, hsubmit, rfl, -⟩ := hok
    exact .moves (hw.chained.submit_moves hsubmit) (opens_of_eq rfl)
  | claimNext locked workerId now =>
    obtain ⟨rfl, -⟩ := mk.inj (ok.inj hok)
    exact .moves (hw.chained.claimNext_moves locked workerId now) (opens_of_eq rfl)
  | claimRun locked org runId workerId now =>
    simp only [step, bind_eq_ok, served_eq_ok, pure_eq_ok, mk.injEq] at hok
    obtain ⟨claimed, hclaim, rfl, -⟩ := hok
    exact .moves (hw.chained.claimRun_moves hclaim) (opens_of_eq rfl)
  | heartbeat claim now =>
    obtain ⟨rfl, -⟩ := mk.inj (ok.inj hok)
    exact .moves (heartbeat_moves w.db claim now) (opens_of_eq rfl)
  | recoverStale locked now staleAfter limit =>
    obtain ⟨rfl, -⟩ := mk.inj (ok.inj hok)
    exact .moves (hw.chained.recoverStale_moves locked now staleAfter limit) (opens_of_eq rfl)
  | failClaimed claim code retryable =>
    obtain ⟨rfl, -⟩ := mk.inj (ok.inj hok)
    exact .moves (failClaimed_moves w.db claim code retryable) (opens_of_eq rfl)
  | executeRead tx claim =>
    simp only [step, bind_eq_ok, served_eq_ok] at hok
    obtain ⟨session, hread, hload⟩ := hok
    exact executeRead_effect hread hload
  | executeWork tx now => exact executeWork_effect hw hok
  | failRead tx org runId code retryable =>
    simp only [step, bind_eq_ok, served_eq_ok] at hok
    obtain ⟨run, -, hload⟩ := hok
    exact .of_load hload trivial
  | retryRead tx org runId key => exact retryRead_effect hok
  | commit tx now => exact commit_effect hw hlate hok
  | rollback tx =>
    obtain ⟨rfl, -⟩ := mk.inj (ok.inj hok)
    exact .moves (.refl _) (w.finish_opens tx _)

theorem Effect.coherent (h : Effect w w' a) (hw : Coherent w) : Coherent w' := by
  have hstep : Chained w'.db ∧ Stays w.db w'.db ∧ Opens w w' := by
    cases h with
    | moves h hopens => exact ⟨h.chained hw.chained, h.stays hw.chained, hopens⟩
    | settles tx now claim counted work _ _ h hopens =>
      exact ⟨settleRun_chained hw.chained h, settleRun_stays h, hopens⟩
  obtain ⟨hchained, hstays, hopens⟩ := hstep
  refine ⟨hchained, fun s hs => ?_⟩
  rcases hopens s hs with hs | hvalid
  · exact (hw.sessions s hs).stays hstays
  · exact hvalid

/-- A step that is not taken, or that does not commit a `fail` too late, keeps the promises. -/
theorem Coherent.exactlyOnce (hw : Coherent w) (hlate : ¬ CommitsLate w a) :
    ExactlyOnce env w a := by
  have heffect : Effect w ((step env).next w a) a := by
    rcases Service.next_cases (step env) w a with ⟨w', ⟨⟩, hok, hnext⟩ | ⟨e, -, hnext⟩
    · rw [hnext]
      exact step_effect hw hlate hok
    · rw [hnext]
      exact .moves (.refl _) (opens_of_eq rfl)
  refine ⟨?_, ?_, (heffect.coherent hw).chained.linear⟩
  · cases heffect with
    | moves h _ => exact .inl (h.quiet hw.chained)
    | settles tx now claim counted work haction hsession h _ =>
      exact .inr ⟨tx, now, claim, counted, work, haction, hsession,
        settleRun_settles hw.chained (hw.valid hsession) h⟩
  · cases heffect with
    | moves h _ => exact h.kept
    | settles tx now claim counted work _ _ h _ => exact settleRun_kept h

theorem Coherent.start (db : Db) : Coherent ⟨db.withoutRuns, []⟩ where
  chained := {
    runIds := Unique.nil
    drawn := fun _ h => absurd h not_mem_nil
    inputDrawn := fun _ h => absurd h not_mem_nil
    root := fun _ h => absurd h not_mem_nil
    follows := fun _ => isChain_nil
    first := fun _ _ h => by cases h }
  sessions _ h := absurd h not_mem_nil

/-- In every run of interleaved sessions in which no `fail` commits after its run has ended, every
step keeps the promises. -/
theorem exactlyOnce_run (env : Env) (db : Db) (actions : List Action)
    (h : (step env).AllSteps (fun w a => ¬ CommitsLate w a) ⟨db.withoutRuns, []⟩ actions) :
    (step env).AllSteps (ExactlyOnce env) ⟨db.withoutRuns, []⟩ actions :=
  Service.allSteps_of_invariant (Coherent.start db)
    (fun hw hlate hok => (step_effect hw hlate hok).coherent hw)
    (fun hw hlate => hw.exactlyOnce hlate) h

end Sessions

/-! ## A failure that comes too late -/

namespace LateFailure

/-- One record, which misses its amount. -/
def payload : MappingRunCreate := ⟨6, 1, 7, "run", [⟨5, []⟩]⟩

/-- The run is submitted and claimed, and read by its worker and by a `fail`. -/
def readTwice : List Action :=
  [.submit 9 payload "print" 0, .claimNext [] "worker" 1, .executeRead 1 ⟨100, 9, 101⟩,
    .failRead 2 9 100 "STOPPED" true, .executeWork 1 2]

/-- The `fail` commits first, the worker loses its lease, and the retry of the run completes. -/
def failedInTime : List Action :=
  readTwice ++ [.commit 2 3, .commit 1 4, .retryRead 3 9 100 "again", .commit 3 5,
    .claimRun [] 9 104 "worker" 6, .executeRead 4 ⟨104, 9, 105⟩, .executeWork 4 7, .commit 4 8]

/-- The worker commits first. -/
def completed : List Action := readTwice ++ [.commit 1 3]

theorem exactlyOnce_failedInTime :
    (step Env.words).AllSteps (ExactlyOnce Env.words) ⟨AbortedRun.db.withoutRuns, []⟩
      failedInTime :=
  exactlyOnce_run Env.words AbortedRun.db failedInTime (by decide +kernel)

/-- The run is partially completed, and the `fail` that has read it running marks it failed. -/
theorem overwritten :
    let w := (step Env.words).run ⟨AbortedRun.db.withoutRuns, []⟩ completed
    ∃ r ∈ w.db.runs, r.status = .partiallyCompleted ∧
      ∀ r' ∈ ((step Env.words).next w (.commit 2 4)).db.runs, r'.id = r.id →
        r'.status ≠ r.status := by
  decide +kernel

theorem not_exactlyOnce :
    ¬ (step Env.words).AllSteps (ExactlyOnce Env.words) ⟨AbortedRun.db.withoutRuns, []⟩
      (completed ++ [.commit 2 4]) := by
  intro h
  obtain ⟨-, hlast, -⟩ := (Service.allSteps_append _ _ completed [.commit 2 4]).1 h
  obtain ⟨r, hr, hstatus, hchanged⟩ := overwritten
  obtain ⟨r', hr', hid, hkept⟩ := hlast.kept r hr (.inr hstatus)
  exact hchanged r' hr' hid hkept

end LateFailure

end Intel4Ops.Mapping
