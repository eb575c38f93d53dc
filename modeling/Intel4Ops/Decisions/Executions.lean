import Intel4Ops.Decisions.Approvals

/-!
# Executions and their fingerprints

An execution stands for its scenario and the fingerprints of its inputs, and a later execution with
the same fingerprints returns it. The payload that is solved merges the inputs in the order in which
they are read, so it is a function of the fingerprints exactly when the inputs agree on the keys
that they share and equal fingerprints mean equal entries.
-/

namespace Intel4Ops.Decisions

open Lib List

section Fingerprints

variable {env : Env} {definitions : Definitions} {db db' : Db}

/-! ## What an execution solves -/

/-! ## Payloads and entries -/

def payloadsOf (inputs : List DecisionScenarioInput) : List Payload := inputs.map (·.inputPayload)

/-- The payload of the inputs is the same in every order in which they can be read. -/
theorem orderFree_payloadsOf {inputs : List DecisionScenarioInput} : OrderFree (payloadsOf inputs) ↔
      ∀ rows, rows.Perm inputs → solverPayload rows = solverPayload inputs := by
  constructor
  · intro h rows hrows
    exact h _ (hrows.map _)
  · intro h ms hms
    have hcomp := congrFun (congrFun (eq_map_comp_perm DecisionScenarioInput.inputPayload) ms)
      inputs
    obtain ⟨rows, rfl, hrows⟩ := (iff_of_eq hcomp).2 hms
    exact h rows hrows

theorem keepsEntries_payloadsOf {inputs : List DecisionScenarioInput} :
    KeepsEntries (payloadsOf inputs) ↔ ∀ item ∈ inputs, ∀ key value,
      item.inputPayload.lookup key = some value →
        (solverPayload inputs).lookup key = some value := by
  constructor
  · intro h item hitem key value hvalue
    exact h key value ⟨_, mem_map_of_mem hitem, hvalue⟩
  · rintro h key value ⟨m, hm, hvalue⟩
    obtain ⟨item, hitem, rfl⟩ := mem_map.1 hm
    exact h item hitem key value hvalue

/-! ## A function of the fingerprints -/

def DecisionScenario.inputs (db : Db) (s : DecisionScenario) : List DecisionScenarioInput :=
  inputsOf db s.organizationId s.id

/-- An execution of one scenario would be returned for the other. -/
def SameFingerprints (env : Env) (db : Db) (s s' : DecisionScenario) : Prop :=
  s'.organizationId = s.organizationId ∧ s'.scenarioFingerprint = s.scenarioFingerprint ∧
    inputFingerprint env (s'.inputs db) = inputFingerprint env (s.inputs db)

def useCaseOf (definitions : Definitions) (s : DecisionScenario) : Option String :=
  (problemOf definitions s.content.problemVersionId).map (·.useCaseCode)

/-- However the inputs are read, the payload is the same and has every entry of every input, and a
scenario with the same fingerprints has the same use case and payload. -/
structure FunctionOfFingerprints (env : Env) (definitions : Definitions) (db : Db)
    (s : DecisionScenario) : Prop where
  orderFree : ∀ rows, rows.Perm (s.inputs db) → solverPayload rows = solverPayload (s.inputs db)
  usesEvery : ∀ rows, rows.Perm (s.inputs db) → ∀ item ∈ rows, ∀ key value,
    item.inputPayload.lookup key = some value → (solverPayload rows).lookup key = some value
  sameProblem : ∀ s' ∈ db.scenarios, SameFingerprints env db s s' →
    useCaseOf definitions s' = useCaseOf definitions s ∧
      ∀ rows rows', rows.Perm (s.inputs db) → rows'.Perm (s'.inputs db) →
        solverPayload rows' = solverPayload rows

/-- The inputs agree on the keys they share, and equal fingerprints mean the same use case and the
same entries. -/
structure EntriesDetermined (env : Env) (definitions : Definitions) (db : Db)
    (s : DecisionScenario) : Prop where
  compatible : Compatible (payloadsOf (s.inputs db))
  sameEntries : ∀ s' ∈ db.scenarios, SameFingerprints env db s s' →
    useCaseOf definitions s' = useCaseOf definitions s ∧
      ∀ key value, HasEntry (payloadsOf (s'.inputs db)) key value ↔
        HasEntry (payloadsOf (s.inputs db)) key value

theorem compatible_of_hasEntry {ms ms' : List Payload} (h : Compatible ms)
    (hentries : ∀ key value, HasEntry ms' key value ↔ HasEntry ms key value) : Compatible ms' := by
  intro m hm m' hm' key v v' hv hv'
  obtain ⟨a, ha, hav⟩ := (hentries key v).1 ⟨m, hm, hv⟩
  obtain ⟨b, hb, hbv⟩ := (hentries key v').1 ⟨m', hm', hv'⟩
  exact h a ha b hb key v v' hav hbv

theorem EntriesDetermined.functionOfFingerprints {s : DecisionScenario}
    (h : EntriesDetermined env definitions db s) :
    FunctionOfFingerprints env definitions db s where
  orderFree := orderFree_payloadsOf.1 h.compatible.orderFree
  usesEvery rows hrows := by
    have hcompatible := h.compatible.perm (hrows.map (·.inputPayload))
    exact keepsEntries_payloadsOf.1 hcompatible.keepsEntries
  sameProblem s' hs' hsame := by
    obtain ⟨huse, hentries⟩ := h.sameEntries s' hs' hsame
    have hcompatible' := compatible_of_hasEntry h.compatible hentries
    refine ⟨huse, fun rows rows' hrows hrows' => ?_⟩
    calc solverPayload rows'
        = solverPayload (s'.inputs db) := orderFree_payloadsOf.1 hcompatible'.orderFree rows' hrows'
      _ = solverPayload (s.inputs db) := mergeAll_eq_of_hasEntry h.compatible hcompatible' hentries
      _ = solverPayload rows := (orderFree_payloadsOf.1 h.compatible.orderFree rows hrows).symm

theorem FunctionOfFingerprints.entriesDetermined {s : DecisionScenario}
    (h : FunctionOfFingerprints env definitions db s) :
    EntriesDetermined env definitions db s where
  compatible := orderFree_iff.1 (orderFree_payloadsOf.2 h.orderFree)
  sameEntries s' hs' hsame := by
    obtain ⟨huse, hpayload⟩ := h.sameProblem s' hs' hsame
    have hkeeps := (orderFree_payloadsOf.2 h.orderFree).keepsEntries
    -- The other scenario has one payload too, since each of its readings has that of this one.
    have hkeeps' : KeepsEntries (payloadsOf (s'.inputs db)) := by
      refine (orderFree_payloadsOf.2 fun rows' hrows' => ?_).keepsEntries
      rw [hpayload _ rows' (.refl _) hrows', hpayload _ _ (.refl _) (.refl (s'.inputs db))]
    refine ⟨huse, fun key value => ?_⟩
    rw [← hkeeps.mem_mergeAll_iff, ← hkeeps'.mem_mergeAll_iff]
    have heq := hpayload _ _ (.refl (s.inputs db)) (.refl (s'.inputs db))
    rw [solverPayload, solverPayload] at heq
    rw [payloadsOf, payloadsOf, heq]

theorem functionOfFingerprints_iff (env : Env) (definitions : Definitions) (db : Db)
    (s : DecisionScenario) :
    FunctionOfFingerprints env definitions db s ↔ EntriesDetermined env definitions db s :=
  ⟨FunctionOfFingerprints.entriesDetermined, EntriesDetermined.functionOfFingerprints⟩

end Fingerprints

/-! ## Two inputs with items -/

namespace SharedItems

def env : Env where
  scenarioDigest content := content.scenarioName
  inputDigest sources := String.join sources
  actionDigest _ _ _ := ""
  idText id := toString id
  valueText _ := ""
  solve _ _ := .ok ⟨.solvedOptimal, some 10, [], []⟩
  readOrder inputs := inputs
  fingerprint _ _ _ _ _ := ""

def definitions : Definitions where
  versions := [⟨1, 2, true⟩]
  problems := [⟨2, none, "recovery_portfolio_selection"⟩]
  methods := [⟨3, none, "portfolio", "1.0.0", "milp", "1.0.0"⟩]

def call (drawn : ℕ) (request : Request) : Call :=
  ⟨1, 7, "analyst", 0, ⟨drawn, drawn + 1, drawn + 2⟩, definitions, request⟩

/-- The item that one finding contributes. -/
def items (itemId : String) : Json :=
  .arr [.obj [("item_id", .str itemId), ("expected_net_benefit", .num 10),
    ("required_budget", .num 4), ("required_workforce", .num 1), ("required_time", .num 2)]]

def itemIds : Json → List Json
  | .arr items => items.filterMap fun
    | .obj fields => Json.field fields "item_id"
    | _ => none
  | _ => []

/-- An input with that item, and with the limits of the portfolio. -/
def input (sourceId : UUID) (fingerprint itemId : String) : DecisionScenarioInputCreate where
  inputKind := "finding"
  sourceId
  sourceFingerprint := fingerprint
  inputPayload := [⟨"items", items itemId⟩, ⟨"budget_limit", .num 8⟩, ⟨"workforce_limit", .num 2⟩,
    ⟨"time_limit", .num 4⟩].toFinmap

/-- The identifiers of the items in a payload. -/
def idsOf (payload : Payload) : Option (List (Option Scalar)) :=
  (payload.lookup "items").map fun value => (itemIds value).map Json.scalar?

/-- A scenario with the items of two findings is validated and executed. -/
def calls : List Call :=
  [call 10 (.createScenario ⟨⟨1, 3, "Quarter", 0, 100, "UTC", none⟩, "scenario-1"⟩),
    call 20 (.addInput 10 (input 5 "a" "pump")), call 30 (.addInput 10 (input 6 "b" "valve")),
    call 40 (.validate 10), call 50 (.execute 10 ⟨"execution-1", 30, none⟩)]

/-- The tables after the requests. -/
def final : Db := (serve env).run {} calls

theorem scenarios_final : final.scenarios.map (fun s => (s.id, s.organizationId)) = [(10, 1)] := by
  decide +kernel

theorem idsOf_inputs : (inputsOf final 1 10).map (fun row => idsOf row.inputPayload) =
    [some [some (.str "pump")], some [some (.str "valve")]] := by
  decide +kernel

theorem idsOf_payload : idsOf (solverPayload (inputsOf final 1 10)) =
    some [some (.str "valve")] := by
  decide +kernel

/-- The items of the first input are gone. -/
theorem not_functionOfFingerprints : ¬ ∀ (env : Env) (definitions : Definitions)
    (calls : List Call), ∀ s ∈ ((serve env).run {} calls).scenarios,
      FunctionOfFingerprints env definitions ((serve env).run {} calls) s := by
  intro h
  have hscenario : (10, 1) ∈ final.scenarios.map fun s => (s.id, s.organizationId) := by
    rw [scenarios_final]
    exact mem_singleton_self _
  obtain ⟨s, hs, hids⟩ := mem_map.1 hscenario
  obtain ⟨hid, horg⟩ := Prod.mk.inj hids
  have hinputs : s.inputs final = inputsOf final 1 10 := by
    rw [DecisionScenario.inputs, hid, horg]
  have hpump : some [some (.str "pump")] ∈
      (inputsOf final 1 10).map fun row => idsOf row.inputPayload := by
    rw [idsOf_inputs]
    exact mem_cons_self
  obtain ⟨row, hrow, hpump⟩ := mem_map.1 hpump
  obtain ⟨value, hvalue, hids⟩ := Option.map_eq_some_iff.1 hpump
  have hkept := (h env definitions calls s hs).usesEvery _ (.refl _) row (hinputs ▸ hrow) "items"
    value hvalue
  rw [← final, hinputs] at hkept
  have hpayload := idsOf_payload
  rw [idsOf, hkept, Option.map_some, hids] at hpayload
  exact absurd hpayload (by decide)

end SharedItems

end Intel4Ops.Decisions
