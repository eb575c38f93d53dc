import Intel4Ops.Lib.Group
import Mathlib.Data.Rat.Defs

/-!
# Completed work and revenue

The rule compares one operations frame with one revenue frame: the completed rows whose key, as
text, is the key of no revenue row are reported as work without revenue. The key is the identifier
of the event, or the route and the date where only these are shared. The run compares every
operations dataset with every revenue dataset.
-/

namespace Intel4Ops.CrossDomain

open Lib

/-! ## Cells -/

/-- A cell of a frame. -/
inductive Cell
  | none
  | nan
  | nat
  | text (value : String)
  | int (value : ℤ)
  | float (value : ℚ)
  deriving DecidableEq

/-- The text and the date functions of the language and its libraries. -/
structure Env where
  /-- `repr` of a float. -/
  floatText : ℚ → String
  /-- `str.casefold` -/
  casefold : String → String
  /-- `str.split` without arguments. -/
  split : String → List String
  /-- The date of a cell of a column, by the format `pandas.to_datetime` finds in the column. -/
  toDate : List Cell → Cell → Option ℤ

/-- `str` -/
def Env.str (env : Env) : Cell → String
  | .none => "None"
  | .nan => "nan"
  | .nat => "NaT"
  | .text value => value
  | .int value => toString value
  | .float value => env.floatText value

/-- The identifier that a cell writes; text, an integer and a float can write the same one. -/
def Env.identifier (env : Env) : Cell → Option String
  | .none | .nan | .nat => Option.none
  | .text value => some value
  | .int value => some (toString value)
  | .float value => some (if value.den = 1 then toString value.num else env.floatText value)

/-! ## Frames -/

/-- The cells that the rule reads of a row. -/
structure Row where
  eventId : Cell := .none
  status : Cell := .none
  routeId : Cell := .none
  eventDate : Cell := .none
  deriving DecidableEq

/-- A canonical frame: the columns that it has, among those that the rule reads, and its rows. -/
structure Frame where
  hasEventId : Bool
  hasStatus : Bool := false
  hasRouteId : Bool := false
  hasEventDate : Bool := false
  rows : List Row

/-! ## States -/

/-- `_CANONICAL_STATE_ALIASES` -/
def canonicalStateAliases : List (String × List String) :=
  [("OPEN", ["open", "new", "created"]),
    ("ASSIGNED", ["assigned"]),
    ("IN_PROGRESS", ["active", "in_progress", "in progress", "ongoing", "started"]),
    ("COMPLETED", ["completed", "complete", "done", "finished"]),
    ("CLOSED", ["closed", "close"]),
    ("CANCELLED", ["cancelled", "canceled", "voided", "void"])]

/-- `lookup_canonical_state`; folding the case and splitting drop the surrounding blanks too. -/
def lookupCanonicalState (env : Env) (cell : Cell) : Option String :=
  let normalized := " ".intercalate (env.split (env.casefold (env.str cell)))
  (canonicalStateAliases.find? fun entry => normalized ∈ entry.2).map (·.1)

/-- `_REVENUE_EXPECTED_OPERATIONAL_STATES` -/
def revenueExpectedStates : List String := ["COMPLETED", "CLOSED"]

/-- A row of completed or closed work. -/
def Row.isCompleted (env : Env) (row : Row) : Bool :=
  match lookupCanonicalState env row.status with
  | some state => state ∈ revenueExpectedStates
  | none => false

def Frame.completed (env : Env) (ops : Frame) : List Row :=
  if ops.hasStatus then ops.rows.filter (·.isCompleted env) else []

/-! ## One pair of datasets -/

/-- `has_direct_key` -/
def directKey (ops rev : Frame) : Bool := ops.hasEventId && rev.hasEventId

/-- `has_fallback_key` -/
def fallbackKey (ops rev : Frame) : Bool :=
  ops.hasRouteId && rev.hasRouteId && ops.hasEventDate && rev.hasEventDate

/-- Two frames share a key. -/
def sharedKey (ops rev : Frame) : Bool := directKey ops rev || fallbackKey ops rev

/-- The key of a row as the rule compares it, among rows whose dates are a column: the text of the
identifier, or the text of the route and the date. -/
def textKey (env : Env) (direct : Bool) (dates : List Cell) (row : Row) : String × Option ℤ :=
  if direct then (env.str row.eventId, none)
  else (env.str row.routeId, env.toDate dates row.eventDate)

def datesOf (rows : List Row) : List Cell := rows.map (·.eventDate)

/-- What the rule finds for one pair. -/
inductive Outcome
  | nothing
  /-- `XDOM-DATA-LINKAGE-ISSUE`, for a number of completed rows. -/
  | linkageIssue (affected : ℕ)
  /-- `XDOM-B-LOST-ACTIVITY-REVENUE-GAP`, for some completed rows. -/
  | revenueGap (unmatched : List Row)
  deriving DecidableEq

/-- The completed rows whose key is the key of no revenue row. -/
def unmatchedRows (env : Env) (ops rev : Frame) : List Row :=
  let completed := ops.completed env
  antiJoin (textKey env (directKey ops rev) (datesOf completed))
    (textKey env (directKey ops rev) (datesOf rev.rows)) completed rev.rows

/-- `run_lost_activity_to_revenue_gap` -/
def runLostActivityToRevenueGap (env : Env) (ops rev : Frame) : Outcome :=
  if ops.completed env = [] then .nothing
  else if sharedKey ops rev = false then .linkageIssue (ops.completed env).length
  else if unmatchedRows env ops rev = [] then .nothing
  else .revenueGap (unmatchedRows env ops rev)

/-! ## A run -/

/-- An operations dataset, and whether it has a trust assessment on which the publisher accepts
findings. -/
structure OperationsDataset where
  frame : Frame
  publishable : Bool

/-- The XDOM-B stage of a run: whether the pack is ready, and the datasets of the two domains. -/
structure Run where
  ready : Bool
  operations : List OperationsDataset
  revenue : List Frame

def Run.executes (run : Run) (ops : OperationsDataset) : Bool := run.ready && ops.publishable

/-- What the stage finds for a dataset, one outcome for each revenue dataset. -/
def Run.outcomes (env : Env) (run : Run) (ops : OperationsDataset) : List Outcome :=
  if run.executes ops then run.revenue.map (runLostActivityToRevenueGap env ops.frame) else []

/-- A row is counted in a revenue-gap finding of the run. -/
def Run.Counts (env : Env) (run : Run) (ops : OperationsDataset) (row : Row) : Prop :=
  ∃ unmatched, .revenueGap unmatched ∈ run.outcomes env ops ∧ row ∈ unmatched

end Intel4Ops.CrossDomain
