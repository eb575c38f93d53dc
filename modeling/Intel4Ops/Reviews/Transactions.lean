import Intel4Ops.Lib.Overlap
import Intel4Ops.Reviews.Versions

/-!
# Overlapping reviews

`submit_review` locks the row of the decision, reads its latest version and commits the review with
the version that supersedes it. A call whose expected version is not the current one fails.
-/

namespace Intel4Ops.Reviews

open Lib Overlap

/-! ## The transaction of a call -/

/-- How far a call is, with what it has read. -/
inductive Phase
  | begun
  /-- the request is checked, and the decision is locked and read -/
  | locked (action : SemanticReviewAction) (decision : SemanticInterpretationDecision)
  /-- the latest version is the expected one -/
  | checked (action : SemanticReviewAction) (decision : SemanticInterpretationDecision)
      (latest : Option SemanticDecisionVersion)
  deriving DecidableEq

/-- The reply of `submit_review`. -/
abbrev Reply := SemanticReview × SemanticDecisionVersion

def statement (env : Env) (db : Db) (call : Call) : Phase → Outcome Db Phase Reply Error
  | .begun =>
    match checkRequest env call with
    | .error e => .failed e
    | .ok action =>
      match db.decision call.organizationId call.decisionId with
      | .error e => .failed e
      | .ok decision => .moved (.locked action decision)
  | .locked action decision =>
    match db.expectedVersion call with
    | .error e => .failed e
    | .ok latest => .moved (.checked action decision latest)
  | .checked action decision latest =>
    match db.record call action decision latest with
    | .error e => .failed e
    | .ok (db', reply) => .committed db' reply

/-- The row lock is on the decision. -/
def protocol (env : Env) : Protocol Db Call Phase Reply Error UUID where
  begun := .begun
  statement := statement env
  lock call phase := if phase = .begun then none else some call.decisionId

/-- The state after events, when nothing is in flight at the start. -/
def overlapped (env : Env) (db : Db) (events : List (Event Call)) : State Db Call Phase :=
  (protocol env).service.run ⟨db, []⟩ events

end Intel4Ops.Reviews
