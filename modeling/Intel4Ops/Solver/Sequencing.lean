import Intel4Ops.Lib.Except
import Intel4Ops.Lib.Group
import Intel4Ops.Lib.Precedence
import Intel4Ops.Lib.Table
import Mathlib.Algebra.Order.Ring.Rat
import Mathlib.Data.List.ReduceOption
import Mathlib.Data.String.Basic

/-!
# Sequencing of work

`sequence_work` orders tasks by their dependencies, the least available task first, and reports
the critical path. Dictionaries are functions, durations are rationals, and the order in which the
elements of a set are listed is a parameter.
-/

namespace Intel4Ops.Solver

open Lib Lib.Precedence List

/-! ## The solver -/

/-- `SequencingTask` -/
structure SequencingTask where
  taskId : String
  duration : ℚ
  deadline : Option ℚ

/-- What ends a request: a `SolverInputError` with its text, a missing key, the maximum of nothing,
or here the bound on the rounds of a loop. -/
inductive SequencingError
  | solverInput (message : String)
  | keyError
  | valueError
  | unfinished

/-- The order in which the elements of a set are listed. -/
structure SetOrder where
  elements : List String → List String
  perm : ∀ s, (elements s).Perm s

/-- `SolverResult` -/
structure SolverResult where
  status : String
  objectiveValue : ℚ
  (orderedTaskIds criticalPathTaskIds : List String)
  earliestFinish : List (String × ℚ)
  violations : List String

/-- What the loop has computed so far. -/
structure Progress where
  (ready order : List String)
  earliestFinish : String → Option ℚ
  criticalPredecessor : String → Option (Option String)

def sorted (ids : List String) : List String := ids.insertionSort (· ≤ ·)

def predecessors (dependencies : List (String × String)) (taskId : String) : List String :=
  firsts ((dependencies.filter (·.1 = taskId)).map (·.2))

def successors (dependencies : List (String × String)) (prerequisiteId : String) : List String :=
  firsts ((dependencies.filter (·.2 = prerequisiteId)).map (·.1))

def checkDependencies (ids : List String) : List (String × String) → Except SequencingError Unit
  | [] => .ok ()
  | (taskId, prerequisiteId) :: rest => do
    ensure (taskId ∈ ids ∧ prerequisiteId ∈ ids)
      (.solverInput "dependency references an unknown task")
    ensure (taskId ≠ prerequisiteId) (.solverInput "task cannot depend on itself")
    checkDependencies ids rest

/-- `earliest_finish` at some tasks. -/
def finishes (earliestFinish : String → Option ℚ) (ids : List String) :
    Except SequencingError (List (String × ℚ)) :=
  ids.mapM fun id => (orFail (earliestFinish id) .keyError).map fun finish => (id, finish)

/-- The successors that became ready are appended. -/
def enqueue (dependencies : List (String × String)) (order ready : List String)
    (successor : String) : List String :=
  if (∀ p ∈ predecessors dependencies successor, p ∈ order) ∧ successor ∉ ready ∧
      successor ∉ order then
    ready ++ [successor]
  else ready

section Run

variable (env : SetOrder) (taskMap : String → Option SequencingTask)
  (dependencies : List (String × String))

/-- One round of the loop. -/
def sequenceTask (s : Progress) (taskId : String) (ready : List String) :
    Except SequencingError Progress := do
  let order := s.order ++ [taskId]
  let keyed ← finishes s.earliestFinish (env.elements (predecessors dependencies taskId))
  let critical := keyed.argmax (·.2)
  let task ← orFail (taskMap taskId) .keyError
  let finish := critical.elim 0 (·.2) + task.duration
  let ready := (sorted (successors dependencies taskId)).foldl (enqueue dependencies order) ready
  return {
    ready := sorted ready
    order := order
    earliestFinish := Function.update s.earliestFinish taskId (some finish)
    criticalPredecessor :=
      Function.update s.criticalPredecessor taskId (some (critical.map (·.1))) }

def sequenceLoop : ℕ → Progress → Except SequencingError Progress
  | 0, s => if s.ready = [] then .ok s else .error .unfinished
  | fuel + 1, s =>
    match s.ready with
    | [] => .ok s
    | taskId :: ready => do
      let s ← sequenceTask env taskMap dependencies s taskId ready
      sequenceLoop fuel s

/-- The critical path, from its end. -/
def criticalPath (criticalPredecessor : String → Option (Option String)) :
    ℕ → Option String → Except SequencingError (List String)
  | _, none => .ok []
  | 0, some _ => .error .unfinished
  | fuel + 1, some cursor => do
    let next ← orFail (criticalPredecessor cursor) .keyError
    let path ← criticalPath criticalPredecessor fuel next
    return cursor :: path

end Run

/-- Whether a task finishes after its deadline. -/
def late (taskMap : String → Option SequencingTask) (row : String × ℚ) :
    Except SequencingError (Option String) := do
  let task ← orFail (taskMap row.1) .keyError
  return if task.deadline.any (· < row.2) then some ("deadline:" ++ row.1) else none

/-- What is reported once all tasks are in order. -/
def report (taskMap : String → Option SequencingTask) (bound : ℕ) (s : Progress) :
    Except SequencingError SolverResult := do
  let keyed ← finishes s.earliestFinish s.order
  let terminal ← orFail (keyed.argmax (·.2)) .valueError
  let path ← criticalPath s.criticalPredecessor bound (some terminal.1)
  let rows ← finishes s.earliestFinish (firsts s.order)
  let checked ← rows.mapM (late taskMap)
  let violations := checked.reduceOption
  return {
    status := if violations = [] then "solved_optimal" else "solved_feasible"
    objectiveValue := terminal.2
    orderedTaskIds := s.order
    criticalPathTaskIds := path.reverse
    earliestFinish := rows
    violations := violations }

def sequenceWork (env : SetOrder) (tasks : List SequencingTask)
    (dependencies : List (String × String)) : Except SequencingError SolverResult := do
  ensure (tasks.length ≠ 0) (.solverInput "sequencing requires at least one task")
  let ordered := tasks.insertionSort fun a b => a.taskId ≤ b.taskId
  let taskMap := fun id => ordered.reverse.find? (·.taskId = id)
  let ids := firsts (ordered.map (·.taskId))
  ensure (ids.length = tasks.length) (.solverInput "task identifiers must be unique")
  checkDependencies ids dependencies
  let ready := sorted (ids.filter fun id => predecessors dependencies id = [])
  let s ← sequenceLoop env taskMap dependencies ids.length ⟨ready, [], fun _ => none, fun _ => none⟩
  ensure (s.order.length = ids.length) (.solverInput "dependency graph contains a cycle")
  report taskMap ids.length s

/-! ## Schedules -/

/-- A task needs another one directly. -/
def Needs (dependencies : List (String × String)) (taskId prerequisiteId : String) : Prop :=
  (taskId, prerequisiteId) ∈ dependencies

def duration (tasks : List SequencingTask) (id : String) : ℚ :=
  (tasks.find? (·.taskId = id)).elim 0 (·.duration)

/-- Every task once, after those that it needs. -/
structure Topological (tasks : List SequencingTask) (dependencies : List (String × String))
    (order : List String) : Prop where
  perm : order.Perm (tasks.map (·.taskId))
  ordered : Ordered (Needs dependencies) order

/-- The path starts with a task that needs nothing and each further task needs the one before. -/
structure Critical (tasks : List SequencingTask) (dependencies : List (String × String))
    (path : List String) (total : ℚ) : Prop where
  source : ∃ first ∈ path.head?, ∀ id, ¬ Needs dependencies first id
  chain : path.IsChain fun prerequisiteId taskId => Needs dependencies taskId prerequisiteId
  mem : ∀ id ∈ path, id ∈ tasks.map (·.taskId)
  total : (path.map (duration tasks)).sum = total

/-- The first of the topological orders, with the critical path and the missed deadlines. -/
structure Schedules (tasks : List SequencingTask) (dependencies : List (String × String))
    (r : SolverResult) : Prop where
  topological : Topological tasks dependencies r.orderedTaskIds
  least : ∀ order, Topological tasks dependencies order →
    r.orderedTaskIds = order ∨ List.Lex (· < ·) r.orderedTaskIds order
  keys : r.earliestFinish.map (·.1) = r.orderedTaskIds
  finish : ∀ id finish, (id, finish) ∈ r.earliestFinish →
    IsGreatest (totals (Needs dependencies) (duration tasks) id) finish
  objective : IsGreatest {finish | ∃ id, (id, finish) ∈ r.earliestFinish} r.objectiveValue
  critical : Critical tasks dependencies r.criticalPathTaskIds r.objectiveValue
  violations : ∀ v, v ∈ r.violations ↔ ∃ task ∈ tasks, ∃ deadline finish,
    task.deadline = some deadline ∧ (task.taskId, finish) ∈ r.earliestFinish ∧
      deadline < finish ∧ v = "deadline:" ++ task.taskId

/-- A cycle is what raises, and without one the tasks are scheduled. -/
structure Sequences (tasks : List SequencingTask) (dependencies : List (String × String))
    (result : Except SequencingError SolverResult) : Prop where
  raises : (∃ message, result = .error (.solverInput message)) ↔ Cyclic (Needs dependencies)
  schedules : ¬ Cyclic (Needs dependencies) → ∃ r, result = .ok r ∧ Schedules tasks dependencies r

variable {env : SetOrder} {tasks : List SequencingTask} {dependencies : List (String × String)}
  {taskMap : String → Option SequencingTask} {s : Progress} {ids ready order : List String}
  {t u : String}

/-! ## One round -/

theorem mem_predecessors : u ∈ predecessors dependencies t ↔ Needs dependencies t u := by
  rw [predecessors, mem_firsts]
  simp [Needs]

theorem mem_successors : u ∈ successors dependencies t ↔ Needs dependencies u t := by
  rw [successors, mem_firsts]
  simp [Needs]

@[simp] theorem mem_sorted : t ∈ sorted ids ↔ t ∈ ids := mem_insertionSort _

theorem sorted_pairwise (h : ids.Nodup) : (sorted ids).Pairwise (· < ·) := by
  have hnodup : (sorted ids).Nodup := (perm_insertionSort _ ids).nodup_iff.2 h
  have hle : (sorted ids).Pairwise (· ≤ ·) := pairwise_insertionSort _ ids
  exact hle.imp₂ (fun _ _ hle hne => lt_of_le_of_ne hle hne) hnodup

theorem finishes_ok (ids : List String) {finish : String → Option ℚ}
    (h : ∀ id ∈ ids, (finish id).isSome) :
    finishes finish ids = .ok (ids.map fun id => (id, (finish id).getD 0)) := by
  refine mapM_eq_map fun id hid => ?_
  obtain ⟨f, hf⟩ := Option.isSome_iff_exists.1 (h id hid)
  rw [hf]
  rfl

theorem mem_enqueued {l : List String} : u ∈ l.foldl (enqueue dependencies order) ready ↔
    u ∈ ready ∨ u ∈ l ∧ (∀ p, Needs dependencies u p → p ∈ order) ∧ u ∉ order := by
  induction l generalizing ready with
  | nil => simp
  | cons v l ih =>
    rw [foldl_cons, ih, enqueue]
    split
    · next h =>
      obtain ⟨hneeds, -, hfresh⟩ := h
      have hneeds : ∀ p, Needs dependencies v p → p ∈ order :=
        fun p hp => hneeds p (mem_predecessors.2 hp)
      simp only [mem_append, mem_cons, not_mem_nil, or_false]
      constructor
      · rintro ((hu | rfl) | ⟨hu, hrest⟩)
        · exact .inl hu
        · exact .inr ⟨.inl rfl, hneeds, hfresh⟩
        · exact .inr ⟨.inr hu, hrest⟩
      · rintro (hu | ⟨rfl | hu, hrest⟩)
        · exact .inl (.inl hu)
        · exact .inl (.inr rfl)
        · exact .inr ⟨hu, hrest⟩
    · next h =>
      constructor
      · rintro (hu | ⟨hu, hrest⟩)
        · exact .inl hu
        · exact .inr ⟨mem_cons_of_mem v hu, hrest⟩
      · rintro (hu | ⟨hu, hrest⟩)
        · exact .inl hu
        · rcases mem_cons.1 hu with rfl | hu
          · by_contra hnot
            exact h ⟨fun p hp => hrest.1 p (mem_predecessors.1 hp),
              fun hready => hnot (.inl hready), hrest.2⟩
          · exact .inr ⟨hu, hrest⟩

theorem nodup_enqueued {l : List String} (h : ready.Nodup) :
    (l.foldl (enqueue dependencies order) ready).Nodup := by
  induction l generalizing ready with
  | nil => exact h
  | cons v l ih =>
    apply ih
    unfold enqueue
    split
    · next hv => exact List.nodup_append.2 ⟨h, nodup_singleton v, by
        rintro a ha b hb rfl
        exact hv.2.1 (mem_singleton.1 hb ▸ ha)⟩
    · exact h

/-- What the loop stored for a task: it starts at once, or when the last of those it needs ends. -/
inductive Row (tasks : List SequencingTask) (dependencies : List (String × String)) (s : Progress)
    (t : String) : Prop
  | source (hnone : ∀ p, ¬ Needs dependencies t p)
      (hfinish : s.earliestFinish t = some (duration tasks t))
      (hcritical : s.criticalPredecessor t = some none)
  | after (p : String) (f : ℚ) (hneeds : Needs dependencies t p) (hp : s.earliestFinish p = some f)
      (hmax : ∀ q, Needs dependencies t q → ∃ g ≤ f, s.earliestFinish q = some g)
      (hfinish : s.earliestFinish t = some (f + duration tasks t))
      (hcritical : s.criticalPredecessor t = some (some p))

theorem Row.congr {s' : Progress} (h : Row tasks dependencies s t)
    (hfinish : ∀ u, u = t ∨ Needs dependencies t u → s'.earliestFinish u = s.earliestFinish u)
    (hcritical : s'.criticalPredecessor t = s.criticalPredecessor t) :
    Row tasks dependencies s' t := by
  cases h with
  | source hnone hf hc => exact .source hnone ((hfinish t (.inl rfl)).trans hf) (hcritical.trans hc)
  | after p f hneeds hp hmax hf hc =>
    refine .after p f hneeds ((hfinish p (.inr hneeds)).trans hp) (fun q hq => ?_)
      ((hfinish t (.inl rfl)).trans hf) (hcritical.trans hc)
    obtain ⟨g, hg, hread⟩ := hmax q hq
    exact ⟨g, hg, (hfinish q (.inr hq)).trans hread⟩

theorem Row.isSome (h : Row tasks dependencies s t) : (s.earliestFinish t).isSome := by
  cases h with
  | source _ hfinish | after _ _ _ _ _ hfinish => rw [hfinish]; rfl

/-- The ready tasks are the available ones in order, and so were those taken before. -/
structure Sequenced (tasks : List SequencingTask) (dependencies : List (String × String))
    (ids : List String) (s : Progress) : Prop where
  nodup : s.order.Nodup
  least : LeastFirst (Needs dependencies) ids s.order
  ascending : s.ready.Pairwise (· < ·)
  mem_ready : ∀ t, t ∈ s.ready ↔ Available (Needs dependencies) ids s.order t
  row : ∀ t ∈ s.order, Row tasks dependencies s t

/-- The task map finds the tasks, as does the specification. -/
def Finds (tasks : List SequencingTask) (taskMap : String → Option SequencingTask)
    (ids : List String) : Prop :=
  ∀ id ∈ ids, ∃ task ∈ tasks, task.taskId = id ∧ taskMap id = some task ∧
    duration tasks id = task.duration

theorem Sequenced.sequenceTask_ok (env : SetOrder) (h : Sequenced tasks dependencies ids s)
    (hfinds : Finds tasks taskMap ids) (hdeps : ∀ a b, Needs dependencies a b → a ∈ ids)
    (hready : s.ready = t :: ready) :
    ∃ s', sequenceTask env taskMap dependencies s t ready = .ok s' ∧
      s'.order = s.order ++ [t] ∧ Sequenced tasks dependencies ids s' := by
  obtain ⟨hleast, hrest⟩ := pairwise_cons.1 (hready ▸ h.ascending)
  have havailable : Available (Needs dependencies) ids s.order t :=
    (h.mem_ready t).1 (hready ▸ mem_cons_self)
  obtain ⟨task, -, -, htask, hduration⟩ := hfinds t havailable.mem
  have hmem : ∀ p, p ∈ env.elements (predecessors dependencies t) ↔ Needs dependencies t p :=
    fun p => (env.perm _).mem_iff.trans mem_predecessors
  have hfinishes := finishes_ok (env.elements (predecessors dependencies t))
    fun p hp => (h.row p (havailable.needs p ((hmem p).1 hp))).isSome
  have hfresh := havailable.fresh
  generalize hkeyed : ((env.elements (predecessors dependencies t)).map
    fun id => (id, (s.earliestFinish id).getD 0)) = keyed at hfinishes
  refine ⟨⟨sorted ((sorted (successors dependencies t)).foldl
      (enqueue dependencies (s.order ++ [t])) ready), s.order ++ [t],
      Function.update s.earliestFinish t (some ((keyed.argmax (·.2)).elim 0 (·.2) + task.duration)),
      Function.update s.criticalPredecessor t (some ((keyed.argmax (·.2)).map (·.1)))⟩,
    ?_, rfl, ?_⟩
  · rw [sequenceTask]
    simp only [hfinishes, htask, orFail_some, ok_bind]
    rfl
  -- The rows of other tasks stay, since neither they nor what they need is the new task.
  have hkept : ∀ u ∈ s.order, ∀ v, v = u ∨ Needs dependencies u v → v ≠ t := by
    rintro u hu v hv rfl
    obtain ⟨before, hbefore, -, hneeds⟩ := Each.of_mem h.least.ordered hu
    rcases hv with rfl | hv
    · exact hfresh hu
    · exact hfresh (hbefore (hneeds v hv))
  have hdone : ∀ q, Needs dependencies t q → q ≠ t ∧ ∃ g, s.earliestFinish q = some g ∧
      (q, g) ∈ keyed := by
    intro q hq
    have hqo := havailable.needs q hq
    obtain ⟨g, hg⟩ := Option.isSome_iff_exists.1 (h.row q hqo).isSome
    refine ⟨fun heq => hfresh (heq ▸ hqo), g, hg, ?_⟩
    rw [← hkeyed]
    exact mem_map.2 ⟨q, (hmem q).2 hq, by rw [hg]; rfl⟩
  constructor
  · exact List.nodup_append.2 ⟨h.nodup, nodup_singleton t, fun a ha b hb heq =>
      hfresh (mem_singleton.1 hb ▸ heq ▸ ha)⟩
  · refine h.least.snoc ⟨havailable, fun b hb => ?_⟩
    rcases mem_cons.1 (hready ▸ (h.mem_ready b).2 hb) with rfl | hb
    · exact le_rfl
    · exact (hleast b hb).le
  · exact sorted_pairwise (nodup_enqueued (hrest.imp ne_of_lt))
  · intro u
    dsimp only
    rw [mem_sorted, mem_enqueued, mem_sorted, mem_successors]
    constructor
    · rintro (hu | ⟨hu, hneeds, hnew⟩)
      · have hold := (h.mem_ready u).1 (hready ▸ mem_cons_of_mem t hu)
        refine ⟨hold.mem, fun hin => ?_, fun p hp => mem_append_left _ (hold.needs p hp)⟩
        rcases mem_append.1 hin with hin | hin
        · exact hold.fresh hin
        · exact (hleast u hu).ne (mem_singleton.1 hin).symm
      · exact ⟨hdeps u t hu, hnew, hneeds⟩
    · intro hu
      by_cases hut : Needs dependencies u t
      · exact .inr ⟨hut, hu.needs, hu.fresh⟩
      · have hold : Available (Needs dependencies) ids s.order u := by
          refine ⟨hu.mem, fun hin => hu.fresh (mem_append_left _ hin), fun p hp => ?_⟩
          rcases mem_append.1 (hu.needs p hp) with hin | hin
          · exact hin
          · exact absurd (mem_singleton.1 hin ▸ hp) hut
        rcases mem_cons.1 (hready ▸ (h.mem_ready u).2 hold) with rfl | hin
        · exact absurd (mem_append_right _ (mem_singleton_self u)) hu.fresh
        · exact .inl hin
  · intro u hu
    rcases mem_append.1 hu with hu | hu
    · exact (h.row u hu).congr (fun v hv => Function.update_of_ne (hkept u hu v hv) ..)
        (Function.update_of_ne (hkept u hu u (.inl rfl)) ..)
    · obtain rfl := mem_singleton.1 hu
      cases hmax : keyed.argmax (·.2) with
      | none =>
        have hempty := argmax_eq_none.1 hmax
        refine .source (fun p hp => ?_) (by simp [hduration]) (by simp)
        obtain ⟨-, g, -, hin⟩ := hdone p hp
        rw [hempty] at hin
        exact absurd hin not_mem_nil
      | some best =>
        obtain ⟨p, hp, rfl⟩ := mem_map.1 (hkeyed ▸ argmax_mem hmax)
        obtain ⟨hne, f, hf, -⟩ := hdone p ((hmem p).1 hp)
        refine .after p f ((hmem p).1 hp) ((Function.update_of_ne hne ..).trans hf) (fun q hq => ?_)
          (by simp [hduration, hf]) (by simp)
        obtain ⟨hqne, g, hg, hin⟩ := hdone q hq
        have hle := le_of_mem_argmax (f := fun row : String × ℚ => row.2) hin hmax
        rw [hf] at hle
        exact ⟨g, hle, (Function.update_of_ne hqne ..).trans hg⟩

/-! ## The loop -/

theorem Sequenced.subset (h : Sequenced tasks dependencies ids s) : s.order ⊆ ids := by
  intro t ht
  obtain ⟨before, -, -, havailable, -⟩ := Each.of_mem h.least ht
  exact havailable.mem

theorem Sequenced.sequenceLoop_ok (env : SetOrder) (fuel : ℕ)
    (h : Sequenced tasks dependencies ids s)
    (hfinds : Finds tasks taskMap ids) (hdeps : ∀ a b, Needs dependencies a b → a ∈ ids)
    (hfuel : ids.length ≤ s.order.length + fuel) :
    ∃ s', sequenceLoop env taskMap dependencies fuel s = .ok s' ∧
      Sequenced tasks dependencies ids s' ∧ s'.ready = [] := by
  induction fuel generalizing s with
  | zero =>
    -- All tasks are in order, so none is left that could be ready.
    have hperm := h.nodup.subperm h.subset |>.perm_of_length_le hfuel
    have hnone : s.ready = [] := by
      rw [eq_nil_iff_forall_not_mem]
      intro t ht
      have havailable := (h.mem_ready t).1 ht
      exact havailable.fresh (hperm.mem_iff.2 havailable.mem)
    exact ⟨s, by rw [sequenceLoop, if_pos hnone], h, hnone⟩
  | succ fuel ih =>
    cases hready : s.ready with
    | nil => exact ⟨s, by simp only [sequenceLoop, hready], h, hready⟩
    | cons t ready =>
      obtain ⟨next, hnext, horder, hsequenced⟩ := h.sequenceTask_ok env hfinds hdeps hready
      obtain ⟨s', hloop, hrest⟩ := ih hsequenced (by rw [horder, length_append]; simp; omega)
      refine ⟨s', ?_, hrest⟩
      simp only [sequenceLoop, hready, hnext, ok_bind, hloop]

theorem sequenced_start (tasks : List SequencingTask) (dependencies : List (String × String))
    (hids : ids.Nodup) : Sequenced tasks dependencies ids
    ⟨sorted (ids.filter fun id => predecessors dependencies id = []), [], fun _ => none,
      fun _ => none⟩ where
  nodup := List.nodup_nil
  least := each_nil
  ascending := sorted_pairwise (hids.filter _)
  mem_ready t := by
    rw [mem_sorted, mem_filter, decide_eq_true_eq, eq_nil_iff_forall_not_mem]
    simp only [mem_predecessors]
    exact ⟨fun h => ⟨h.1, not_mem_nil, fun b hb => absurd hb (h.2 b)⟩,
      fun h => ⟨h.mem, fun b hb => absurd (h.needs b hb) not_mem_nil⟩⟩
  row t ht := absurd ht not_mem_nil

/-- The loop puts all tasks in order unless some of them need each other. -/
theorem Sequenced.complete_iff (h : Sequenced tasks dependencies ids s) (hready : s.ready = [])
    (hids : ids.Nodup) (hdeps : ∀ a b, Needs dependencies a b → a ∈ ids ∧ b ∈ ids) :
    s.order.length = ids.length ↔ ¬ Cyclic (Needs dependencies) := by
  constructor
  · intro hlength
    have hperm := h.nodup.subperm h.subset |>.perm_of_length_le hlength.ge
    exact h.least.ordered.not_cyclic fun a b hab => hperm.mem_iff.2 (hdeps a b hab).1
  · intro hacyclic
    refine (h.nodup.subperm h.subset).length_le.antisymm ((hids.subperm fun a ha => ?_).length_le)
    by_contra hleft
    obtain ⟨b, hb⟩ := exists_available hacyclic (fun a b hab => (hdeps a b hab).2) ha hleft
    have hin := (h.mem_ready b).2 hb
    rw [hready] at hin
    exact not_mem_nil hin

/-! ## The critical path -/

section

variable (h : Sequenced tasks dependencies ids s)
include h

theorem Sequenced.each : Each (fun before t => Available (Needs dependencies) ids before t ∧
      Row tasks dependencies s t) s.order :=
  fun before t rest hl => ⟨(h.least before t rest hl).1, h.row t (by simp [hl])⟩

/-- The finish that is stored for a task is the greatest total of the chains that end at it. -/
theorem Sequenced.isGreatest (hweight : ∀ id, 0 ≤ duration tasks id) {f : ℚ} (ht : t ∈ s.order)
    (hf : s.earliestFinish t = some f) :
    IsGreatest (totals (Needs dependencies) (duration tasks) t) f := by
  have hall : Each (fun _ t => ∀ f, s.earliestFinish t = some f →
      IsGreatest (totals (Needs dependencies) (duration tasks) t) f) s.order := by
    refine Each.induct h.each fun before t ⟨havailable, hrow⟩ ih f hf => ?_
    cases hrow with
    | source hnone hfinish =>
      obtain rfl := Option.some.inj (hfinish.symm.trans hf)
      exact isGreatest_totals_of_source hnone
    | after p g hneeds hp hmax hfinish =>
      obtain rfl := Option.some.inj (hfinish.symm.trans hf)
      have hg : (s.earliestFinish p).getD 0 = g := by rw [hp, Option.getD_some]
      rw [← hg]
      refine isGreatest_totals (fun q => (s.earliestFinish q).getD 0) hweight hneeds
        (fun q hq => ?_) fun q hq => ?_
      · obtain ⟨g', hle, hq⟩ := hmax q hq
        simpa only [hg, hq, Option.getD_some] using hle
      · obtain ⟨g', -, hfinish'⟩ := hmax q hq
        obtain ⟨before', rest, hbefore⟩ := append_of_mem (havailable.needs q hq)
        simpa only [hfinish', Option.getD_some] using ih before' q rest hbefore g' hfinish'
  obtain ⟨before, -, -, hgreatest⟩ := hall.of_mem ht
  exact hgreatest f hf

/-- Following the critical predecessors from a task gives a critical path that ends there. -/
theorem Sequenced.criticalPath_ok (hids : ∀ id ∈ ids, id ∈ tasks.map (·.taskId)) {f : ℚ}
    (ht : t ∈ s.order) (hf : s.earliestFinish t = some f) :
    ∃ path, criticalPath s.criticalPredecessor ids.length (some t) = .ok path ∧
      Critical tasks dependencies path.reverse f := by
  have hall : Each (fun before t => ∀ f, s.earliestFinish t = some f → ∃ path,
      (∀ fuel, before.length < fuel → criticalPath s.criticalPredecessor fuel (some t) = .ok path) ∧
      path.head? = some t ∧ Critical tasks dependencies path.reverse f) s.order := by
    refine Each.induct h.each fun before t ⟨havailable, hrow⟩ ih f hf => ?_
    have hstep : ∀ next path, s.criticalPredecessor t = some next →
        (∀ fuel, before.length ≤ fuel → criticalPath s.criticalPredecessor fuel next = .ok path) →
        ∀ fuel, before.length < fuel →
          criticalPath s.criticalPredecessor fuel (some t) = .ok (t :: path) := by
      intro next path hnext hpath fuel hfuel
      obtain ⟨fuel, rfl⟩ := Nat.exists_eq_add_of_lt hfuel
      rw [criticalPath, hnext, orFail_some, ok_bind, hpath _ (Nat.le_add_right _ _)]
      rfl
    cases hrow with
    | source hnone hfinish hcritical =>
      obtain rfl := Option.some.inj (hfinish.symm.trans hf)
      refine ⟨[t], hstep none [] hcritical fun fuel _ => by rw [criticalPath], rfl,
        ⟨t, rfl, hnone⟩, isChain_singleton t, ?_, by simp⟩
      simpa using hids t havailable.mem
    | after p g hneeds hp hmax hfinish hcritical =>
      obtain rfl := Option.some.inj (hfinish.symm.trans hf)
      obtain ⟨before', rest, hbefore⟩ := append_of_mem (havailable.needs p hneeds)
      obtain ⟨path, hpath, hhead, hcrit⟩ := ih before' p rest hbefore g hp
      refine ⟨t :: path, hstep (some p) path hcritical fun fuel hfuel => hpath fuel ?_, rfl, ?_⟩
      · rw [hbefore, length_append, length_cons] at hfuel
        omega
      rw [reverse_cons]
      obtain ⟨first, hfirst, hsource⟩ := hcrit.source
      refine ⟨⟨first, ?_, hsource⟩, ?_, ?_, ?_⟩
      · rw [List.head?_append, hfirst]
        rfl
      · refine hcrit.chain.append (isChain_singleton t) fun x hx y hy => ?_
        rw [List.getLast?_reverse, hhead, Option.mem_some_iff] at hx
        rw [List.head?_cons, Option.mem_some_iff] at hy
        exact hx ▸ hy ▸ hneeds
      · intro id hid
        rcases mem_append.1 hid with hid | hid
        · exact hcrit.mem id hid
        · exact mem_singleton.1 hid ▸ hids t havailable.mem
      · rw [map_append, sum_append, hcrit.total, map_singleton, sum_singleton]
  obtain ⟨before, rest, horder⟩ := append_of_mem ht
  obtain ⟨path, hpath, -, hcritical⟩ := hall before t rest horder f hf
  refine ⟨path, hpath _ ?_, hcritical⟩
  have hle := (h.nodup.subperm h.subset).length_le
  rw [horder, length_append, length_cons] at hle
  omega

end

/-! ## The promise -/

theorem checkDependencies_eq (ids : List String) (dependencies : List (String × String))
    (h : ∀ d ∈ dependencies, d.1 ∈ ids ∧ d.2 ∈ ids) :
    checkDependencies ids dependencies = if ∀ d ∈ dependencies, d.1 ≠ d.2 then .ok ()
      else .error (.solverInput "task cannot depend on itself") := by
  induction dependencies with
  | nil => rfl
  | cons d rest ih =>
    obtain ⟨hd, hrest⟩ := forall_mem_cons.1 h
    rw [checkDependencies, ensure_of hd, ok_bind, ih hrest]
    by_cases hself : d.1 = d.2
    · have hnot : ¬ ∀ d' ∈ d :: rest, d'.1 ≠ d'.2 := fun hall => hall d mem_cons_self hself
      rw [ensure_of_not (not_not.2 hself), if_neg hnot]
      rfl
    · rw [ensure_of hself, ok_bind]
      exact if_congr (by simp [hself]) rfl rfl

theorem finds_tasks (hids : Table.Unique (·.taskId) tasks) {rows : List SequencingTask}
    (hrows : rows.Perm tasks) : Finds tasks (fun id => rows.find? (·.taskId = id)) ids ↔
      ∀ id ∈ ids, id ∈ tasks.map (·.taskId) := by
  have hfind : ∀ {rows : List SequencingTask}, rows.Perm tasks → ∀ task ∈ tasks,
      rows.find? (fun row => decide (row.taskId = task.taskId)) = some task := by
    intro rows hrows task htask
    have hunique : Table.Unique (·.taskId) rows := (hrows.map _).nodup_iff.2 hids
    exact hunique.find?_eq_some (hrows.mem_iff.2 htask) (decide_eq_true rfl)
      fun b _ hb => of_decide_eq_true hb
  constructor
  · intro h id hid
    obtain ⟨task, htask, rfl, -⟩ := h id hid
    exact mem_map_of_mem htask
  · intro h id hid
    obtain ⟨task, htask, rfl⟩ := mem_map.1 (h id hid)
    exact ⟨task, htask, rfl, hfind hrows task htask, by
      rw [duration, hfind (List.Perm.refl _) task htask, Option.elim_some]⟩

theorem duration_nonneg (h : ∀ task ∈ tasks, 0 ≤ task.duration) (id : String) :
    0 ≤ duration tasks id := by
  unfold duration
  cases htask : tasks.find? (·.taskId = id) with
  | none => exact le_rfl
  | some task => exact h task (mem_of_find?_eq_some htask)

/-- The loop has put all tasks in order, so the rest of the solver goes through. -/
theorem Sequenced.schedules (h : Sequenced tasks dependencies ids s)
    (hfinds : Finds tasks taskMap ids) (hperm : ids.Perm (tasks.map (·.taskId)))
    (horder : s.order.Perm ids) (hids : Table.Unique (·.taskId) tasks) (hne : tasks ≠ [])
    (hduration : ∀ task ∈ tasks, 0 ≤ task.duration) :
    ∃ r, report taskMap ids.length s = .ok r ∧ Schedules tasks dependencies r := by
  have hall : ∀ t ∈ s.order, (s.earliestFinish t).isSome := fun t ht => (h.row t ht).isSome
  have hread : ∀ t ∈ s.order, s.earliestFinish t = some ((s.earliestFinish t).getD 0) := by
    intro t ht
    obtain ⟨f, hf⟩ := Option.isSome_iff_exists.1 (hall t ht)
    rw [hf, Option.getD_some]
  have hkeyed := finishes_ok _ hall
  generalize hrows : (s.order.map fun id => (id, (s.earliestFinish id).getD 0)) = rows at hkeyed
  have hmem : ∀ id f, (id, f) ∈ rows ↔ id ∈ s.order ∧ (s.earliestFinish id).getD 0 = f := by
    intro id f
    rw [← hrows]
    simp only [mem_map, Prod.mk.injEq]
    exact ⟨fun ⟨_, ha, hid, hf⟩ => hid ▸ ⟨ha, hf⟩, fun ⟨hid, hf⟩ => ⟨id, hid, rfl, hf⟩⟩
  obtain ⟨task, htask⟩ := exists_mem_of_ne_nil tasks hne
  have hfirst : task.taskId ∈ s.order := (horder.trans hperm).mem_iff.2 (mem_map_of_mem htask)
  cases hmax : rows.argmax (·.2) with
  | none =>
    rw [argmax_eq_none.1 hmax] at hrows
    exact absurd (map_eq_nil_iff.1 hrows) (ne_nil_of_mem hfirst)
  | some terminal =>
    obtain ⟨hterminal, hfinish⟩ := (hmem terminal.1 terminal.2).1 (argmax_mem hmax)
    obtain ⟨path, hpath, hcritical⟩ := h.criticalPath_ok (fun id hid => hperm.mem_iff.1 hid)
      hterminal (hfinish ▸ hread terminal.1 hterminal)
    -- Each task is found again when the deadlines are checked.
    have hlate : ∀ row ∈ rows, ∃ task ∈ tasks, task.taskId = row.1 ∧ late taskMap row =
        .ok (if task.deadline.any (· < row.2) then some ("deadline:" ++ row.1) else none) := by
      intro row hrow
      obtain ⟨task, htask, hid, hfound, -⟩ :=
        hfinds row.1 (horder.mem_iff.1 ((hmem row.1 row.2).1 hrow).1)
      exact ⟨task, htask, hid, by rw [late, hfound]; rfl⟩
    obtain ⟨checked, hchecked⟩ : ∃ checked, rows.mapM (late taskMap) = .ok checked :=
      exists_mapM_eq_ok fun row hrow => ⟨_, (hlate row hrow).choose_spec.2.2⟩
    have hviolations : ∀ v, v ∈ checked.reduceOption ↔
        ∃ row ∈ rows, late taskMap row = .ok (some v) := fun v => by
      rw [reduceOption_mem_iff, mem_of_mapM_eq_ok hchecked]
    have hreport : report taskMap ids.length s = .ok
        ⟨if checked.reduceOption = [] then "solved_optimal" else "solved_feasible", terminal.2,
          s.order, path.reverse, rows, checked.reduceOption⟩ := by
      rw [report, hkeyed, ok_bind, hmax, orFail_some, ok_bind, hpath, ok_bind,
        firsts_of_nodup h.nodup, hkeyed, ok_bind, hchecked]
      rfl
    refine ⟨_, hreport, ⟨horder.trans hperm, h.least.ordered⟩, fun order horder' => ?_, ?_,
      fun id f hf => ?_, ⟨⟨terminal.1, argmax_mem hmax⟩, ?_⟩, hcritical, fun v => ?_⟩
    · exact h.least.lex_le horder'.ordered (horder'.perm.nodup_iff.2 hids) fun id =>
        (horder'.perm.trans hperm.symm).mem_iff
    · rw [← hrows, map_map]
      exact map_id _
    · obtain ⟨hid, rfl⟩ := (hmem id f).1 hf
      exact h.isGreatest (duration_nonneg hduration) hid (hread id hid)
    · rintro f ⟨id, hid⟩
      exact le_of_mem_argmax (f := fun row : String × ℚ => row.2) hid hmax
    · rw [hviolations]
      constructor
      · rintro ⟨row, hrow, hv⟩
        obtain ⟨task, htask, hid, heq⟩ := hlate row hrow
        rw [heq, Except.ok.injEq] at hv
        cases hd : task.deadline with
        | none =>
          rw [hd] at hv
          cases hv
        | some d =>
          rw [hd, Option.any_some] at hv
          split at hv
          · next hlt =>
            exact ⟨task, htask, d, row.2, hd, hid ▸ hrow, of_decide_eq_true hlt,
              by rw [hid]; exact (Option.some.inj hv).symm⟩
          · cases hv
      · rintro ⟨task, htask, d, f, hd, hrow, hlt, rfl⟩
        obtain ⟨task', htask', hid, heq⟩ := hlate _ hrow
        obtain rfl := hids.eq_of_key_eq htask' htask hid
        exact ⟨_, hrow, by rw [heq, hd, Option.any_some, if_pos (decide_eq_true hlt)]⟩

theorem sequenceWork_eq (env : SetOrder) (hne : tasks ≠ []) (hids : Table.Unique (·.taskId) tasks)
    (hdeps : ∀ d ∈ dependencies, d.1 ∈ tasks.map (·.taskId) ∧ d.2 ∈ tasks.map (·.taskId)) :
    ∃ taskMap ids, Finds tasks taskMap ids ∧ ids.Perm (tasks.map (·.taskId)) ∧
      sequenceWork env tasks dependencies =
        if ∀ d ∈ dependencies, d.1 ≠ d.2 then do
          let s ← sequenceLoop env taskMap dependencies ids.length
            ⟨sorted (ids.filter fun id => predecessors dependencies id = []), [], fun _ => none,
              fun _ => none⟩
          ensure (s.order.length = ids.length) (.solverInput "dependency graph contains a cycle")
          report taskMap ids.length s
        else .error (.solverInput "task cannot depend on itself") := by
  have hordered := perm_insertionSort (fun a b : SequencingTask => a.taskId ≤ b.taskId) tasks
  have hperm := hordered.map (·.taskId)
  have hfirsts := firsts_of_nodup (hperm.nodup_iff.2 hids)
  refine ⟨_, _, (finds_tasks hids ((reverse_perm _).trans hordered)).2 fun id hid =>
    hperm.mem_iff.1 hid, hperm, ?_⟩
  have hlength : tasks.length ≠ 0 := fun h => hne (length_eq_zero_iff.1 h)
  have hcheck := checkDependencies_eq ((tasks.insertionSort
    fun a b => a.taskId ≤ b.taskId).map (·.taskId)) dependencies
    fun d hd => ⟨hperm.mem_iff.2 (hdeps d hd).1, hperm.mem_iff.2 (hdeps d hd).2⟩
  rw [sequenceWork, ensure_of hlength, ok_bind]
  dsimp only
  rw [hfirsts, ensure_of (by simp), ok_bind, hcheck]
  split
  · rw [ok_bind]
  · rfl

/-- For every request with tasks, distinct identifiers and durations that are not negative, a cycle
is what raises, and otherwise the schedule is the first topological order with its longest chains. -/
theorem sequencesWork (env : SetOrder) {tasks : List SequencingTask}
    {dependencies : List (String × String)} (hne : tasks ≠ [])
    (hids : (tasks.map (·.taskId)).Nodup) (hduration : ∀ task ∈ tasks, 0 ≤ task.duration)
    (hdeps : ∀ d ∈ dependencies, d.1 ∈ tasks.map (·.taskId) ∧ d.2 ∈ tasks.map (·.taskId)) :
    Sequences tasks dependencies (sequenceWork env tasks dependencies) := by
  obtain ⟨taskMap, ids, hfinds, hperm, heq⟩ := sequenceWork_eq env hne hids hdeps
  have hneeds : ∀ a b, Needs dependencies a b → a ∈ ids ∧ b ∈ ids := fun a b hab =>
    ⟨hperm.mem_iff.2 (hdeps _ hab).1, hperm.mem_iff.2 (hdeps _ hab).2⟩
  have hnodup : ids.Nodup := hperm.nodup_iff.2 hids
  rw [heq]
  split
  · obtain ⟨s, hloop, hs, hready⟩ := (sequenced_start tasks dependencies hnodup).sequenceLoop_ok env
      ids.length hfinds
      (fun a b hab => (hneeds a b hab).1) (by simp)
    have hcomplete := hs.complete_iff hready hnodup hneeds
    rw [hloop, ok_bind]
    by_cases hcyclic : Cyclic (Needs dependencies)
    · rw [ensure_of_not fun h => hcomplete.1 h hcyclic]
      exact ⟨iff_of_true ⟨_, rfl⟩ hcyclic, fun h => absurd hcyclic h⟩
    · have hlength := hcomplete.2 hcyclic
      have horder := (hs.nodup.subperm hs.subset).perm_of_length_le hlength.ge
      obtain ⟨r, hr, hschedules⟩ := hs.schedules hfinds hperm horder hids hne hduration
      rw [ensure_of hlength, ok_bind, hr]
      refine ⟨iff_of_false ?_ hcyclic, fun _ => ⟨r, rfl, hschedules⟩⟩
      rintro ⟨message, h⟩
      cases h
  · next hself =>
    have hcyclic : Cyclic (Needs dependencies) := by
      simp only [not_forall, not_not] at hself
      obtain ⟨d, hd, hself⟩ := hself
      exact ⟨d.1, .single (by rw [Needs, hself]; nth_rewrite 1 [← hself]; exact hd)⟩
    exact ⟨iff_of_true ⟨_, rfl⟩ hcyclic, fun h => absurd hcyclic h⟩

theorem sequencesWork_chain : Sequences [⟨"weld", 2, some 4⟩, ⟨"cut", 3, none⟩] [("weld", "cut")]
    (sequenceWork ⟨id, List.Perm.refl⟩ [⟨"weld", 2, some 4⟩, ⟨"cut", 3, none⟩]
      [("weld", "cut")]) :=
  sequencesWork ⟨id, List.Perm.refl⟩ (by simp) (by simp) (by decide +kernel) (by simp)

/-- Without tasks there is no cycle, and the request is rejected all the same. -/
theorem not_sequencesWork_nil : ¬ Sequences [] [] (sequenceWork ⟨id, List.Perm.refl⟩ [] []) := by
  intro h
  obtain ⟨a, ha⟩ := h.raises.1 ⟨_, rfl⟩
  obtain ⟨b, hab, -⟩ := Relation.TransGen.head'_iff.1 ha
  exact absurd hab not_mem_nil

end Intel4Ops.Solver
