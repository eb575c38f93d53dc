import Intel4Ops.CrossDomain.Model

/-!
# Revenue gaps

Completed work is without revenue if it is identified and no revenue dataset of the case has a row
of the same record. A run counts the rows that some dataset alone does not match, by the text of
their keys. The two agree exactly where a row with revenue is matched by every dataset, and a row
without an identifier is matched by one without.
-/

namespace Intel4Ops.CrossDomain

open Lib List

variable {env : Env} {run : Run} {ops : OperationsDataset} {row : Row}

/-! ## Records -/

/-- The record that a row is about, if its key is not missing. -/
def recordKey (env : Env) (direct : Bool) (dates : List Cell) (row : Row) :
    Option (String × Option ℤ) :=
  if direct then (env.identifier row.eventId).map fun id => (id, none)
  else do
    let route ← env.identifier row.routeId
    let date ← env.toDate dates row.eventDate
    return (route, some date)

/-- The record of an operations row, as it is compared with a revenue frame. -/
def operationsRecord (env : Env) (ops rev : Frame) (row : Row) : Option (String × Option ℤ) :=
  if sharedKey ops rev then recordKey env (directKey ops rev) (datesOf (ops.completed env)) row
  else none

/-- The record of a revenue row, as it is compared with an operations frame. -/
def revenueRecord (env : Env) (ops rev : Frame) (row : Row) : Option (String × Option ℤ) :=
  if sharedKey ops rev then recordKey env (directKey ops rev) (datesOf rev.rows) row else none

/-- A row has an identifier that some revenue dataset could have; where there is no revenue dataset,
an identifier by the columns of its own frame. -/
def Identified (env : Env) (run : Run) (ops : OperationsDataset) (row : Row) : Prop :=
  (∃ rev ∈ run.revenue, (operationsRecord env ops.frame rev row).isSome) ∨
    run.revenue = [] ∧ (operationsRecord env ops.frame ops.frame row).isSome

def HasRevenue (env : Env) (ops : OperationsDataset) (rev : Frame) (row : Row) : Prop :=
  ∃ other ∈ rev.rows, ∃ key ∈ operationsRecord env ops.frame rev row,
    revenueRecord env ops.frame rev other = some key

def WithoutRevenue (env : Env) (run : Run) (ops : OperationsDataset) (row : Row) : Prop :=
  Identified env run ops row ∧ ∀ rev ∈ run.revenue, ¬ HasRevenue env ops rev row

/-- A run counts exactly the completed rows without revenue. -/
def CountsGaps (env : Env) (run : Run) : Prop :=
  ∀ ops ∈ run.operations, ∀ row ∈ ops.frame.completed env,
    run.Counts env ops row ↔ WithoutRevenue env run ops row

/-! ## What a run counts -/

/-- A revenue dataset has a row with the same text as key. -/
def TextMatched (env : Env) (ops : OperationsDataset) (rev : Frame) (row : Row) : Prop :=
  ∃ other ∈ rev.rows,
    textKey env (directKey ops.frame rev) (datesOf rev.rows) other =
      textKey env (directKey ops.frame rev) (datesOf (ops.frame.completed env)) row

variable {rev ops' rev' a b : Frame} {run' : Run}

theorem mem_unmatchedRows : row ∈ unmatchedRows env ops.frame rev ↔
      row ∈ ops.frame.completed env ∧ ¬ TextMatched env ops rev row :=
  mem_antiJoin

/-- The outcome of a pair is a gap with a row exactly if the pair shares a key and does not match
the row. -/
theorem revenueGap_iff :
    (∃ unmatched, runLostActivityToRevenueGap env ops.frame rev = .revenueGap unmatched ∧
        row ∈ unmatched) ↔
      sharedKey ops.frame rev = true ∧ row ∈ ops.frame.completed env ∧
        ¬ TextMatched env ops rev row := by
  rw [← mem_unmatchedRows, runLostActivityToRevenueGap]
  constructor
  · rintro ⟨unmatched, houtcome, hrow⟩
    split at houtcome
    · cases houtcome
    · split at houtcome
      · cases houtcome
      · rename_i hshared
        split at houtcome
        · cases houtcome
        · cases houtcome
          exact ⟨by simpa using hshared, hrow⟩
  · rintro ⟨hshared, hrow⟩
    have hcompleted : ops.frame.completed env ≠ [] := ne_nil_of_mem (mem_unmatchedRows.1 hrow).1
    refine ⟨unmatchedRows env ops.frame rev, ?_, hrow⟩
    rw [if_neg hcompleted, if_neg (by simp [hshared]), if_neg (ne_nil_of_mem hrow)]

/-- A completed row counts exactly if some revenue dataset that shares a key does not match it. -/
theorem counts_iff (hrow : row ∈ ops.frame.completed env) :
    run.Counts env ops row ↔ run.executes ops = true ∧
      ∃ rev ∈ run.revenue, sharedKey ops.frame rev = true ∧ ¬ TextMatched env ops rev row := by
  unfold Run.Counts Run.outcomes
  cases hexecutes : run.executes ops with
  | false => simp
  | true =>
    simp only [if_true, mem_map, true_and]
    constructor
    · rintro ⟨unmatched, ⟨rev, hrev, houtcome⟩, hmem⟩
      obtain ⟨hshared, -, hmatched⟩ := revenueGap_iff.1 ⟨unmatched, houtcome, hmem⟩
      exact ⟨rev, hrev, hshared, hmatched⟩
    · rintro ⟨rev, hrev, hshared, hmatched⟩
      obtain ⟨unmatched, houtcome, hmem⟩ := revenueGap_iff.2 ⟨hshared, hrow, hmatched⟩
      exact ⟨unmatched, ⟨rev, hrev, houtcome⟩, hmem⟩

/-! ## When a run counts the gaps -/

/-- The texts of the keys lead to the records. -/
structure Legible (env : Env) (run : Run) : Prop where
  /-- Where the stage does not execute, there is no gap. -/
  idle : ∀ ops ∈ run.operations, run.executes ops = false →
    ∀ row ∈ ops.frame.completed env, ¬ WithoutRevenue env run ops row
  /-- A row with revenue in one dataset is matched by every dataset that shares a key. -/
  everywhere : ∀ ops ∈ run.operations, run.executes ops = true →
    ∀ row ∈ ops.frame.completed env, (∃ rev ∈ run.revenue, HasRevenue env ops rev row) →
      ∀ rev ∈ run.revenue, sharedKey ops.frame rev = true → TextMatched env ops rev row
  /-- So is a row without an identifier. -/
  unidentified : ∀ ops ∈ run.operations, run.executes ops = true →
    ∀ row ∈ ops.frame.completed env, ¬ Identified env run ops row →
      ∀ rev ∈ run.revenue, sharedKey ops.frame rev = true → TextMatched env ops rev row
  /-- Some dataset does not match a row without revenue, by the text of another key. -/
  somewhere : ∀ ops ∈ run.operations, run.executes ops = true →
    ∀ row ∈ ops.frame.completed env, WithoutRevenue env run ops row →
      ∃ rev ∈ run.revenue, sharedKey ops.frame rev = true ∧ ¬ TextMatched env ops rev row

theorem countsGaps_iff_legible (env : Env) (run : Run) : CountsGaps env run ↔ Legible env run := by
  constructor
  · intro h
    have hmatched : ∀ ops ∈ run.operations, run.executes ops = true →
        ∀ row ∈ ops.frame.completed env, ¬ WithoutRevenue env run ops row →
          ∀ rev ∈ run.revenue, sharedKey ops.frame rev = true → TextMatched env ops rev row := by
      intro ops hops hexecutes row hrow hrevenue rev hrev hshared
      by_contra hmatched
      exact hrevenue ((h ops hops row hrow).1
        ((counts_iff hrow).2 ⟨hexecutes, rev, hrev, hshared, hmatched⟩))
    constructor
    · intro ops hops hidle row hrow hgap
      obtain ⟨hexecutes, -⟩ := (counts_iff hrow).1 ((h ops hops row hrow).2 hgap)
      rw [hidle] at hexecutes
      cases hexecutes
    · rintro ops hops hexecutes row hrow ⟨rev, hrev, hrevenue⟩
      exact hmatched ops hops hexecutes row hrow fun hgap => hgap.2 rev hrev hrevenue
    · intro ops hops hexecutes row hrow hidentified
      exact hmatched ops hops hexecutes row hrow fun hgap => hidentified hgap.1
    · intro ops hops hexecutes row hrow hgap
      exact ((counts_iff hrow).1 ((h ops hops row hrow).2 hgap)).2
  · intro h ops hops row hrow
    rw [counts_iff hrow]
    constructor
    · rintro ⟨hexecutes, rev, hrev, hshared, hmatched⟩
      refine ⟨?_, fun other hother hrevenue => ?_⟩
      · by_contra hidentified
        exact hmatched (h.unidentified ops hops hexecutes row hrow hidentified rev hrev hshared)
      · exact hmatched
          (h.everywhere ops hops hexecutes row hrow ⟨other, hother, hrevenue⟩ rev hrev hshared)
    · intro hgap
      cases hexecutes : run.executes ops with
      | false => exact absurd hgap (h.idle ops hops hexecutes row hrow)
      | true => exact ⟨rfl, h.somewhere ops hops hexecutes row hrow hgap⟩

/-! ## Rearranged rows -/

/-- Two frames have the same columns. -/
structure Frame.SameColumns (a b : Frame) : Prop where
  eventId : a.hasEventId = b.hasEventId
  status : a.hasStatus = b.hasStatus
  routeId : a.hasRouteId = b.hasRouteId
  eventDate : a.hasEventDate = b.hasEventDate

/-- Two runs have the same rows, in another order, and the revenue rows split over the datasets in
another way. The datasets have the same columns, and a date reads the same in every column. -/
structure Rearranged (env : Env) (run run' : Run) : Prop where
  operations : List.Forall₂ (fun ops ops' =>
    ops.frame.SameColumns ops'.frame ∧ ops.frame.rows.Perm ops'.frame.rows)
      run.operations run'.operations
  columns : ∀ rev ∈ run.revenue, ∀ rev' ∈ run'.revenue, rev.SameColumns rev'
  some : run.revenue = [] ↔ run'.revenue = []
  rows : (run.revenue.flatMap (·.rows)).Perm (run'.revenue.flatMap (·.rows))
  dates : ∀ dates dates' cell, env.toDate dates cell = env.toDate dates' cell

theorem Frame.SameColumns.sharedKey {ops : Frame} (hops : ops.SameColumns ops')
    (hrev : rev.SameColumns rev') : sharedKey ops rev = sharedKey ops' rev' := by
  simp only [CrossDomain.sharedKey, directKey, fallbackKey, hops.eventId, hops.routeId,
    hops.eventDate, hrev.eventId, hrev.routeId, hrev.eventDate]

theorem Frame.SameColumns.directKey {ops : Frame} (hops : ops.SameColumns ops')
    (hrev : rev.SameColumns rev') : directKey ops rev = directKey ops' rev' := by
  simp only [CrossDomain.directKey, hops.eventId, hrev.eventId]

theorem recordKey_dates (hdates : ∀ dates dates' cell, env.toDate dates cell = env.toDate dates' cell)
    (direct : Bool) (dates dates' : List Cell) :
    recordKey env direct dates row = recordKey env direct dates' row := by
  unfold recordKey
  rw [hdates dates dates']

section

variable {ops' : OperationsDataset} {run' : Run}

variable {rev rev' : Frame}

theorem operationsRecord_congr
    (hdates : ∀ dates dates' cell, env.toDate dates cell = env.toDate dates' cell)
    {ops ops' : Frame} (hops : ops.SameColumns ops') (hrev : rev.SameColumns rev') :
    operationsRecord env ops rev row = operationsRecord env ops' rev' row := by
  unfold operationsRecord
  rw [hops.sharedKey hrev, hops.directKey hrev, recordKey_dates hdates]

theorem revenueRecord_congr
    (hdates : ∀ dates dates' cell, env.toDate dates cell = env.toDate dates' cell)
    {ops ops' : Frame} (hops : ops.SameColumns ops') (hrev : rev.SameColumns rev') :
    revenueRecord env ops rev row = revenueRecord env ops' rev' row := by
  unfold revenueRecord
  rw [hops.sharedKey hrev, hops.directKey hrev, recordKey_dates hdates]

theorem WithoutRevenue.rearranged (h : Rearranged env run run')
    (hops : ops.frame.SameColumns ops'.frame) (hgap : WithoutRevenue env run ops row) :
    WithoutRevenue env run' ops' row := by
  obtain ⟨hidentified, hnone⟩ := hgap
  constructor
  · rcases hidentified with ⟨rev, hrev, hkey⟩ | ⟨hnil, hkey⟩
    · have hsome : run'.revenue ≠ [] := fun hnil => by
        rw [h.some.2 hnil] at hrev
        cases hrev
      obtain ⟨rev', hrev'⟩ := exists_mem_of_ne_nil _ hsome
      refine Or.inl ⟨rev', hrev', ?_⟩
      rw [← operationsRecord_congr h.dates hops (h.columns rev hrev rev' hrev')]
      exact hkey
    · refine Or.inr ⟨h.some.1 hnil, ?_⟩
      rw [← operationsRecord_congr h.dates hops hops]
      exact hkey
  · rintro rev' hrev' ⟨other, hother, key, hkey, hrecord⟩
    -- The revenue row stands in some dataset of the first run.
    obtain ⟨source, hsource, hin⟩ := mem_flatMap.1
      (h.rows.mem_iff.2 (mem_flatMap.2 ⟨rev', hrev', hother⟩))
    have hcolumns := h.columns source hsource rev' hrev'
    refine hnone source hsource ⟨other, hin, key, ?_, ?_⟩
    · rw [operationsRecord_congr h.dates hops hcolumns]
      exact hkey
    · rw [revenueRecord_congr h.dates hops hcolumns]
      exact hrecord

end

theorem Frame.SameColumns.symm (h : a.SameColumns b) : b.SameColumns a :=
  ⟨h.eventId.symm, h.status.symm, h.routeId.symm, h.eventDate.symm⟩

theorem Rearranged.symm (h : Rearranged env run run') : Rearranged env run' run where
  operations := by
    refine (Forall₂.flip h.operations).imp fun ops' ops hsame => ?_
    exact ⟨hsame.1.symm, hsame.2.symm⟩
  columns rev' hrev' rev hrev := (h.columns rev hrev rev' hrev').symm
  some := h.some.symm
  rows := h.rows.symm
  dates := h.dates

theorem Frame.SameColumns.mem_completed (h : a.SameColumns b) (hrows : a.rows.Perm b.rows) :
    row ∈ a.completed env ↔ row ∈ b.completed env := by
  unfold Frame.completed
  rw [h.status]
  split
  · rw [mem_filter, mem_filter, hrows.mem_iff]
  · exact Iff.rfl

/-- Two runs count the same completed rows. -/
def CountSame (env : Env) (run run' : Run) : Prop :=
  List.Forall₂ (fun ops ops' => ∀ row ∈ ops.frame.completed env,
    run.Counts env ops row ↔ run'.Counts env ops' row) run.operations run'.operations

theorem Rearranged.countSame (h : Rearranged env run run') (hgaps : CountsGaps env run)
    (hgaps' : CountsGaps env run') : CountSame env run run' := by
  have hsame := (forall₂_and_left _ _).2 ⟨fun ops hops => hgaps ops hops, h.operations⟩
  have hsame' := Forall₂.flip ((forall₂_and_left _ _).2
    ⟨fun ops' hops' => hgaps' ops' hops', Forall₂.flip hsame⟩)
  refine hsame'.imp ?_
  rintro ops ops' ⟨hcounts', hcounts, hcolumns, hrows⟩ row hrow
  rw [hcounts row hrow, hcounts' row ((hcolumns.mem_completed hrows).1 hrow)]
  exact ⟨fun hgap => hgap.rearranged h hcolumns, fun hgap => hgap.rearranged h.symm hcolumns.symm⟩

namespace SplitRevenue

/-- The text of integer-valued floats, and letters without case or blanks. -/
def plain : Env where
  floatText value := toString value.num ++ ".0"
  casefold text := text
  split text := [text]
  toDate _ _ := none

def trip : Row := { eventId := .text "T-1", status := .text "completed" }

/-- A completed trip. -/
def trips : OperationsDataset := ⟨⟨true, true, false, false, [trip]⟩, true⟩

/-- Its revenue stands in the first of two files. -/
def split : Run where
  ready := true
  operations := [trips]
  revenue := [⟨true, false, false, false, [{ eventId := .text "T-1" }]⟩,
    ⟨true, false, false, false, [{ eventId := .text "T-2" }]⟩]

end SplitRevenue

end Intel4Ops.CrossDomain
