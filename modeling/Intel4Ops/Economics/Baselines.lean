import Intel4Ops.Economics.Steps

/-!
# Recovery economics: approved baselines

An approval freezes a baseline: the next version, the scenario, the priority and the active
assumptions. The versions and the assumptions of the baselines are right in every run. The selected
scenario and the priority category of an approved opportunity are not protected, since `calculate`
and `prioritize` do not ask whether it is approved, and an approval does not look at the category:
they stay those of the baseline exactly in the runs in which no such request moves them.
-/

namespace Intel4Ops.Economics

open Lib List Table Service Except

variable {db db' : Db}

/-! ## Assumptions and their versions -/

/-- Two assumption rows are versions of one assumption. -/
def SameAssumption (a b : EconomicAssumption) : Prop :=
  a.opportunityId = b.opportunityId ∧ a.assumptionCode = b.assumptionCode

/-- Every assumption has exactly one active version, and it is the highest. -/
structure AssumptionVersions (rows : List EconomicAssumption) : Prop where
  ids : Table.Unique (·.id) rows
  highest : ∀ a ∈ rows, ∃ top ∈ rows, top.superseded = false ∧ SameAssumption a top ∧
    a.version ≤ top.version
  one : ∀ a ∈ rows, ∀ b ∈ rows, a.superseded = false → b.superseded = false →
    SameAssumption a b → a = b

variable {a : EconomicAssumption} {opportunityId : UUID} {b : EconomicBaselineVersion}
  {o : RecoveryOpportunity}

theorem AssumptionVersions.le_active {rows : List EconomicAssumption}
    (h : AssumptionVersions rows) {b : EconomicAssumption} (ha : a ∈ rows) (hb : b ∈ rows)
    (hactive : b.superseded = false) (hsame : SameAssumption a b) : a.version ≤ b.version := by
  obtain ⟨top, htop, htactive, htsame, hle⟩ := h.highest a ha
  have htb : SameAssumption top b := ⟨htsame.1.symm.trans hsame.1, htsame.2.symm.trans hsame.2⟩
  rwa [h.one top htop b hb htactive hactive htb] at hle

theorem mem_activeAssumptions : a ∈ activeAssumptions db opportunityId ↔
      a ∈ db.assumptions ∧ a.opportunityId = opportunityId ∧ a.superseded = false := by
  simp [activeAssumptions]

theorem previousAssumption_some {code : String}
    (h : previousAssumption db opportunityId code = some a) :
    a ∈ db.assumptions ∧ a.opportunityId = opportunityId ∧ a.superseded = false ∧
      a.assumptionCode = code := by
  have hmem := mem_of_mem_head? (Option.mem_def.2 h)
  rw [mem_insertionSort, mem_filter, mem_activeAssumptions, decide_eq_true_eq] at hmem
  exact ⟨hmem.1.1, hmem.1.2.1, hmem.1.2.2, hmem.2⟩

theorem previousAssumption_none {code : String}
    (h : previousAssumption db opportunityId code = none) (ha : a ∈ db.assumptions)
    (hactive : a.superseded = false) (ho : a.opportunityId = opportunityId) :
    a.assumptionCode ≠ code := by
  intro hcode
  rw [previousAssumption, List.head?_eq_none_iff] at h
  have hmem : a ∈ ((activeAssumptions db opportunityId).filter
      (·.assumptionCode = code)).insertionSort fun a b => b.version ≤ a.version := by
    rw [mem_insertionSort, mem_filter, mem_activeAssumptions]
    exact ⟨⟨ha, ho, hactive⟩, decide_eq_true hcode⟩
  rw [h] at hmem
  cases hmem

variable {previous : Option EconomicAssumption} {f : RecoveryOpportunity → RecoveryOpportunity}
  {id : UUID}

/-- A row behind a new version: a stored one, superseded when it is the previous version. -/
theorem mem_supersede (ha : a ∈ supersede db previous) : ∃ old ∈ db.assumptions,
      a.id = old.id ∧ SameAssumption a old ∧ a.version = old.version ∧
        (a.superseded = false → a = old ∧ ∀ p ∈ previous, old.id ≠ p.id) := by
  cases previous with
  | none => exact ⟨a, ha, rfl, ⟨rfl, rfl⟩, rfl, fun _ => ⟨rfl, fun _ hp => by cases hp⟩⟩
  | some p =>
    obtain ⟨old, hold, rfl⟩ := mem_update.1 ha
    refine ⟨old, hold, ?_⟩
    by_cases hid : old.id = p.id
    · simp [hid, SameAssumption]
    · rw [if_neg (by simpa using hid)]
      refine ⟨rfl, ⟨rfl, rfl⟩, rfl, fun _ => ⟨rfl, fun p' hp' => ?_⟩⟩
      obtain rfl := Option.some.inj hp'
      exact hid

theorem mem_supersede_of_ne (ha : a ∈ db.assumptions) (hne : ∀ p ∈ previous, a.id ≠ p.id) :
    a ∈ supersede db previous := by
  cases previous with
  | none => exact ha
  | some p => exact mem_update_of_mem ha (decide_eq_false (hne p rfl))

theorem map_id_supersede (db : Db) (previous : Option EconomicAssumption) :
    (supersede db previous).map (·.id) = db.assumptions.map (·.id) := by
  cases previous with
  | none => rfl
  | some p => exact map_update db.assumptions (·.id) fun _ => rfl

/-- A new version supersedes the active one and is higher than every stored one. -/
theorem AssumptionVersions.append (h : AssumptionVersions db.assumptions) {row : EconomicAssumption}
    (hactive : row.superseded = false)
    (hversion : row.version =
      ((previousAssumption db row.opportunityId row.assumptionCode).map (·.version)).getD 0 + 1)
    (hfresh : ∀ a ∈ db.assumptions, a.id ≠ row.id) :
    AssumptionVersions
      (supersede db (previousAssumption db row.opportunityId row.assumptionCode) ++ [row]) := by
  have hlower : ∀ a ∈ db.assumptions, SameAssumption a row → a.version ≤ row.version := by
    intro a ha hsame
    obtain ⟨top, htop, htactive, htsame, hle⟩ := h.highest a ha
    cases hprevious : previousAssumption db row.opportunityId row.assumptionCode with
    | none =>
      exact absurd (htsame.2.symm.trans hsame.2)
        (previousAssumption_none hprevious htop htactive (htsame.1.symm.trans hsame.1))
    | some p =>
      obtain ⟨hp, hpo, hpactive, hpcode⟩ := previousAssumption_some hprevious
      have hap := h.le_active ha hp hpactive ⟨hsame.1.trans hpo.symm, hsame.2.trans hpcode.symm⟩
      rw [hversion, hprevious]
      exact hap.trans (Nat.le_succ _)
  -- An active row of the new table that is a version of `row` is `row`.
  have honly : ∀ a ∈ supersede db (previousAssumption db row.opportunityId row.assumptionCode),
      a.superseded = false → ¬ SameAssumption a row := by
    intro a ha haactive hsame
    obtain ⟨old, hold, -, -, -, hkept⟩ := mem_supersede ha
    obtain ⟨rfl, hne⟩ := hkept haactive
    cases hprevious : previousAssumption db row.opportunityId row.assumptionCode with
    | none => exact previousAssumption_none hprevious hold haactive hsame.1 hsame.2
    | some p =>
      obtain ⟨hp, hpo, hpactive, hpcode⟩ := previousAssumption_some hprevious
      refine hne p hprevious (congrArg (·.id) (h.one a hold p hp haactive hpactive ?_))
      exact ⟨hsame.1.trans hpo.symm, hsame.2.trans hpcode.symm⟩
  refine ⟨?_, fun a ha => ?_, fun a ha b hb haactive hbactive hsame => ?_⟩
  · refine Table.Unique.append ?_ fun a ha hid => ?_
    · rw [Table.Unique, map_id_supersede]
      exact h.ids
    · obtain ⟨old, hold, holdid, -⟩ := mem_supersede ha
      exact hfresh old hold (holdid.symm.trans hid)
  · rcases mem_append.1 ha with ha | ha
    · obtain ⟨old, hold, -, hsame, hver, -⟩ := mem_supersede ha
      by_cases hrow : SameAssumption old row
      · refine ⟨row, mem_append_right _ (mem_singleton_self row), hactive,
          ⟨hsame.1.trans hrow.1, hsame.2.trans hrow.2⟩, ?_⟩
        rw [hver]
        exact hlower old hold hrow
      · -- The active version of another assumption is not the previous one.
        obtain ⟨top, htop, htactive, htsame, hle⟩ := h.highest old hold
        refine ⟨top, mem_append_left _ (mem_supersede_of_ne htop fun p hp hid => ?_), htactive,
          ⟨hsame.1.trans htsame.1, hsame.2.trans htsame.2⟩, hver.le.trans hle⟩
        obtain ⟨hpmem, hpo, -, hpcode⟩ := previousAssumption_some hp
        obtain rfl := h.ids.eq_of_key_eq htop hpmem hid
        exact hrow ⟨htsame.1.trans hpo, htsame.2.trans hpcode⟩
    · obtain rfl := mem_singleton.1 ha
      exact ⟨a, mem_append_right _ (mem_singleton_self a), hactive, ⟨rfl, rfl⟩, le_rfl⟩
  · rcases mem_append.1 ha with ha | ha
    · rcases mem_append.1 hb with hb | hb
      · obtain ⟨_, hold, -, -, -, hkept⟩ := mem_supersede ha
        obtain ⟨_, hold', -, -, -, hkept'⟩ := mem_supersede hb
        obtain ⟨rfl, -⟩ := hkept haactive
        obtain ⟨rfl, -⟩ := hkept' hbactive
        exact h.one a hold b hold' haactive hbactive hsame
      · obtain rfl := mem_singleton.1 hb
        exact absurd hsame (honly a ha haactive)
    · obtain rfl := mem_singleton.1 ha
      rcases mem_append.1 hb with hb | hb
      · exact absurd ⟨hsame.1.symm, hsame.2.symm⟩ (honly b hb hbactive)
      · exact (mem_singleton.1 hb).symm

theorem activeAssumptions_append (hids : Table.Unique (·.id) db.assumptions)
    {row : EconomicAssumption} (auditEvents : List EconomicAuditEvent)
    (hne : row.opportunityId ≠ opportunityId) :
    activeAssumptions { db with
      assumptions := supersede db (previousAssumption db row.opportunityId row.assumptionCode) ++
        [row], auditEvents } opportunityId = activeAssumptions db opportunityId := by
  have hrow : [row].filter (fun a => a.opportunityId = opportunityId ∧ a.superseded = false) = [] := by
    simp [hne]
  rw [activeAssumptions, filter_append, hrow, append_nil, activeAssumptions]
  cases hprevious : previousAssumption db row.opportunityId row.assumptionCode with
  | none => rfl
  | some p =>
    obtain ⟨hp, hpo, -, -⟩ := previousAssumption_some hprevious
    refine filter_update fun a ha hid => ?_
    obtain rfl := hids.eq_of_key_eq ha hp (of_decide_eq_true hid)
    have hother : a.opportunityId ≠ opportunityId := hpo ▸ hne
    simp [hother]

/-! ## Baselines and their versions -/

/-- The baselines of an opportunity, oldest first. -/
def baselinesOf (db : Db) (opportunityId : UUID) : List EconomicBaselineVersion :=
  db.baselines.filter (·.opportunityId = opportunityId)

/-- What holds of the versions in every run. -/
structure Versioned (db : Db) : Prop where
  opportunityIds : Table.Unique (·.id) db.opportunities
  assumptions : AssumptionVersions db.assumptions
  owned : ∀ b ∈ db.baselines, ∃ o ∈ db.opportunities, o.id = b.opportunityId
  versions : ∀ o ∈ db.opportunities,
    (baselinesOf db o.id).map (·.version) = List.range' 1 (o.currentBaselineVersion.getD 0)
  frozen : ∀ o ∈ db.opportunities, o.status = .approvedForAction → ∃ b ∈ baselinesOf db o.id,
    o.currentBaselineVersion = some b.version ∧
      b.assumptionVersions = (activeAssumptions db o.id).map (·.frozen)

theorem mem_baselinesOf :
    b ∈ baselinesOf db opportunityId ↔ b ∈ db.baselines ∧ b.opportunityId = opportunityId := by
  simp [baselinesOf]

theorem versioned_empty : Versioned Db.empty where
  opportunityIds := .nil
  assumptions := ⟨.nil, fun _ h => absurd h not_mem_nil, fun _ h => absurd h not_mem_nil⟩
  owned := fun _ h => absurd h not_mem_nil
  versions := fun _ h => absurd h not_mem_nil
  frozen := fun _ h => absurd h not_mem_nil

theorem Versioned.baseline_eq (h : Versioned db) (ho : o ∈ db.opportunities)
    {b' : EconomicBaselineVersion} (hb : b ∈ baselinesOf db o.id) (hb' : b' ∈ baselinesOf db o.id)
    (hversion : b.version = b'.version) : b = b' := by
  have hunique : Table.Unique (·.version) (baselinesOf db o.id) := by
    rw [Table.Unique, h.versions o ho]
    exact nodup_range'
  exact hunique.eq_of_key_eq hb hb' hversion

/-- Writing fields of an opportunity that are not versioned, without approving it. -/
theorem Versioned.write (h : Versioned db) (hid : ∀ o, (f o).id = o.id)
    (hversion : ∀ o, (f o).currentBaselineVersion = o.currentBaselineVersion)
    (hstatus : ∀ o, (f o).status = .approvedForAction → o.status = .approvedForAction) :
    Versioned (writeOpportunity db id f) := by
  refine ⟨h.opportunityIds.update hid, h.assumptions, fun b hb => ?_, fun o' ho' => ?_,
    fun o' ho' happroved => ?_⟩
  · obtain ⟨o, ho, hoid⟩ := h.owned b hb
    refine ⟨_, mem_update.2 ⟨o, ho, rfl⟩, ?_⟩
    split
    · exact (hid o).trans hoid
    · exact hoid
  · obtain ⟨o, ho, rfl⟩ := mem_update.1 ho'
    have hversions := h.versions o ho
    split
    · rw [hid, hversion]
      exact hversions
    · exact hversions
  · obtain ⟨o, ho, rfl⟩ := mem_update.1 ho'
    have hfrozen := h.frozen o ho
    split at happroved
    case isTrue hsel =>
      rw [if_pos hsel, hid, hversion]
      exact hfrozen (hstatus o happroved)
    case isFalse hsel =>
      rw [if_neg hsel]
      exact hfrozen happroved

/-- An approval adds the next baseline of its opportunity, with the active assumptions. -/
theorem Versioned.approve (h : Versioned db) (hmem : o ∈ db.opportunities)
    (hb : b.opportunityId = o.id) (hversion : b.version = o.currentBaselineVersion.getD 0 + 1)
    (hassumptions : b.assumptionVersions = (activeAssumptions db o.id).map (·.frozen)) :
    Versioned { writeOpportunity db o.id fun o =>
        { o with
          status := .approvedForAction, currentBaselineVersion := some b.version
          selectedScenarioId := some b.scenarioId } with
      baselines := db.baselines ++ [b] } := by
  have hown : [b].filter (·.opportunityId = o.id) = [b] := by simp [hb]
  have hother : ∀ id, id ≠ o.id → [b].filter (·.opportunityId = id) = [] := by
    intro id hid
    simp [hb, hid.symm]
  refine ⟨h.opportunityIds.update fun _ => rfl, h.assumptions, fun b' hb' => ?_, fun o' ho' => ?_,
    fun o' ho' happroved => ?_⟩
  · obtain ⟨r, hr, hrid⟩ : ∃ r ∈ db.opportunities, r.id = b'.opportunityId := by
      rcases mem_append.1 hb' with hb' | hb'
      · exact h.owned b' hb'
      · exact ⟨o, hmem, by rw [mem_singleton.1 hb', hb]⟩
    refine ⟨_, mem_update.2 ⟨r, hr, rfl⟩, ?_⟩
    split
    · exact hrid
    · exact hrid
  · obtain ⟨r, hr, rfl⟩ := mem_update.1 ho'
    have hversions := h.versions r hr
    rw [baselinesOf] at hversions ⊢
    rw [filter_append, map_append]
    by_cases hid : r.id = o.id
    · obtain rfl := h.opportunityIds.eq_of_key_eq hr hmem hid
      rw [if_pos (decide_eq_true rfl)]
      simp only [Option.getD_some]
      rw [hversions, hown, hversion, List.range'_1_concat]
      simp [hversion, Nat.add_comm]
    · rw [if_neg (by simpa using hid), hversions, hother r.id hid, map_nil, append_nil]
  · obtain ⟨r, hr, rfl⟩ := mem_update.1 ho'
    by_cases hid : r.id = o.id
    · obtain rfl := h.opportunityIds.eq_of_key_eq hr hmem hid
      rw [if_pos (decide_eq_true rfl)]
      exact ⟨b, mem_baselinesOf.2 ⟨mem_append_right _ (mem_singleton_self b), hb⟩, rfl,
        hassumptions⟩
    · rw [if_neg (by simpa using hid)] at happroved ⊢
      obtain ⟨b', hb', hcurrent, hfrozen⟩ := h.frozen r hr happroved
      obtain ⟨hb', hown'⟩ := mem_baselinesOf.1 hb'
      exact ⟨b', mem_baselinesOf.2 ⟨mem_append_left _ hb', hown'⟩, hcurrent, hfrozen⟩

/-- Every request keeps the versions right. -/
theorem Versioned.step (h : Versioned db) {call : Call} (hstep : EconomicsStep db call db') :
    Versioned db' := by
  cases hstep with
  | same => exact h
  | aside | addMember => exact ⟨h.opportunityIds, h.assumptions, h.owned, h.versions, h.frozen⟩
  | create o decisions auditEvents hfresh hstatus hversion =>
    refine ⟨h.opportunityIds.append hfresh, h.assumptions, fun b hb => ?_, fun o' ho' => ?_,
      fun o' ho' happroved => ?_⟩
    · obtain ⟨o', ho', hid⟩ := h.owned b hb
      exact ⟨o', mem_append_left _ ho', hid⟩
    · rcases mem_append.1 ho' with ho' | ho'
      · exact h.versions o' ho'
      · obtain rfl := mem_singleton.1 ho'
        -- A new opportunity has no baseline yet.
        have hnone : baselinesOf db o'.id = [] := by
          rw [baselinesOf, filter_eq_nil_iff]
          intro b hb hid
          obtain ⟨r, hr, hrid⟩ := h.owned b hb
          exact hfresh r hr (hrid.trans (of_decide_eq_true hid))
        rw [hversion]
        exact congrArg (List.map (·.version)) hnone
    · rcases mem_append.1 ho' with ho' | ho'
      · exact h.frozen o' ho' happroved
      · rw [mem_singleton.1 ho', hstatus] at happroved
        cases happroved
  | assume o row auditEvents hmem hmutable hrow hactive hversion hfresh =>
    rw [← hrow] at hversion ⊢
    refine ⟨h.opportunityIds, h.assumptions.append hactive hversion hfresh, h.owned, h.versions,
      fun o' ho' happroved => ?_⟩
    have hne : row.opportunityId ≠ o'.id := by
      intro hid
      obtain rfl := h.opportunityIds.eq_of_key_eq hmem ho' (hrow.symm.trans hid)
      exact hmutable happroved
    rw [activeAssumptions_append h.assumptions.ids auditEvents hne]
    exact h.frozen o' ho' happroved
  | calculate o payload row auditEvents hcalculates =>
    have hwrite : Versioned
        (writeOpportunity db o.id fun o => { o with selectedScenarioId := some row.scenarioId }) :=
      h.write (fun _ => rfl) (fun _ => rfl) fun _ => id
    exact ⟨hwrite.opportunityIds, hwrite.assumptions, hwrite.owned, hwrite.versions, hwrite.frozen⟩
  | prioritize o payload row auditEvents hprioritizes =>
    have hwrite : Versioned
        (writeOpportunity db o.id fun o => { o with priorityCategory := some row.result.category }) :=
      h.write (fun _ => rfl) (fun _ => rfl) fun _ => id
    exact ⟨hwrite.opportunityIds, hwrite.assumptions, hwrite.owned, hwrite.versions, hwrite.frozen⟩
  | decide o payload decisions auditEvents hdecides hne =>
    have hwrite : Versioned (writeOpportunity db o.id fun o =>
        { o with status := payload.decision }) :=
      h.write (fun _ => rfl) (fun _ => rfl) fun _ happroved => absurd happroved hne
    exact ⟨hwrite.opportunityIds, hwrite.assumptions, hwrite.owned, hwrite.versions, hwrite.frozen⟩
  | approve o payload b decisions auditEvents hdecides hdecision hfreezes =>
    have happrove := h.approve (get_ok hdecides.found).1 hfreezes.opportunity hfreezes.version
      hfreezes.assumptions
    exact ⟨happrove.opportunityIds, happrove.assumptions, happrove.owned, happrove.versions,
      happrove.frozen⟩

theorem versioned_run (calls : List Call) : Versioned (serve.run Db.empty calls) :=
  run_invariant versioned_empty (fun h hok => h.step (serve_economicsStep hok)) calls

/-! ## The frozen assumptions -/

/-- The baseline lists exactly one version of every assumption code of the opportunity, the
highest. -/
structure ListsHighest (db : Db) (opportunityId : UUID) (b : EconomicBaselineVersion) : Prop where
  once : (b.assumptionVersions.map (·.code)).Nodup
  highest : ∀ e ∈ b.assumptionVersions, ∃ a ∈ db.assumptions, a.opportunityId = opportunityId ∧
    a.frozen = e ∧ ∀ a' ∈ db.assumptions, SameAssumption a' a → a'.version ≤ a.version
  every : ∀ a ∈ db.assumptions, a.opportunityId = opportunityId →
    ∃ e ∈ b.assumptionVersions, e.code = a.assumptionCode

theorem AssumptionVersions.listsHighest (h : AssumptionVersions db.assumptions)
    (hb : b.assumptionVersions = (activeAssumptions db opportunityId).map (·.frozen)) :
    ListsHighest db opportunityId b := by
  refine ⟨?_, fun e he => ?_, fun a ha ho => ?_⟩
  · rw [hb, map_map]
    have hrows : (activeAssumptions db opportunityId).Nodup := Nodup.filter _ (Nodup.of_map _ h.ids)
    refine Nodup.map_on (fun a ha a' ha' hcode => ?_) hrows
    obtain ⟨hmem, ho, hactive⟩ := mem_activeAssumptions.1 ha
    obtain ⟨hmem', ho', hactive'⟩ := mem_activeAssumptions.1 ha'
    exact h.one a hmem a' hmem' hactive hactive' ⟨ho.trans ho'.symm, hcode⟩
  · rw [hb] at he
    obtain ⟨a, ha, rfl⟩ := mem_map.1 he
    obtain ⟨hmem, ho, hactive⟩ := mem_activeAssumptions.1 ha
    exact ⟨a, hmem, ho, rfl, fun a' ha' hsame => h.le_active ha' hmem hactive hsame⟩
  · obtain ⟨top, htop, hactive, hsame, -⟩ := h.highest a ha
    refine ⟨top.frozen, ?_, hsame.2.symm⟩
    rw [hb]
    exact mem_map_of_mem (mem_activeAssumptions.2 ⟨htop, hsame.1.symm.trans ho, hactive⟩)

/-! ## Pinned economics -/

/-- The opportunity shows the scenario and the priority of the baseline. -/
def ShowsBaseline (o : RecoveryOpportunity) (b : EconomicBaselineVersion) : Prop :=
  o.selectedScenarioId = some b.scenarioId ∧
    o.priorityCategory = some b.economicSnapshot.priorityCategory

/-- Approved economics are pinned: the baselines of an approved opportunity are the versions from
one to the current one, and the current one has its scenario, its priority category and the highest
version of each of its assumptions. -/
def Pinned (db : Db) : Prop :=
  ∀ o ∈ db.opportunities, o.status = .approvedForAction → ∃ b ∈ baselinesOf db o.id,
    o.currentBaselineVersion = some b.version ∧
      (baselinesOf db o.id).map (·.version) = List.range' 1 b.version ∧ ShowsBaseline o b ∧
        ListsHighest db o.id b

/-- Every approved opportunity shows its current baseline. -/
def Shown (db : Db) : Prop :=
  ∀ o ∈ db.opportunities, o.status = .approvedForAction → ∀ b ∈ baselinesOf db o.id,
    o.currentBaselineVersion = some b.version → ShowsBaseline o b

theorem Versioned.pinned_iff_shown (h : Versioned db) : Pinned db ↔ Shown db := by
  constructor
  · intro hpinned o ho happroved b hb hcurrent
    obtain ⟨b', hb', hcurrent', -, hshows, -⟩ := hpinned o ho happroved
    have hversion : b.version = b'.version := Option.some.inj (hcurrent.symm.trans hcurrent')
    rwa [h.baseline_eq ho hb hb' hversion]
  · intro hshown o ho happroved
    obtain ⟨b, hb, hcurrent, hfrozen⟩ := h.frozen o ho happroved
    refine ⟨b, hb, hcurrent, ?_, hshown o ho happroved b hb hcurrent,
      h.assumptions.listsHighest hfrozen⟩
    rw [h.versions o ho, hcurrent, Option.getD_some]

/-- The request is carried out, not refused. -/
def Carried (db : Db) (call : Call) : Prop := ∃ db' r, serve db call = .ok (db', r)

/-- The request takes a branch that moves approved economics off their baseline: it calculates
another scenario than the selected one, or prioritizes to another category than the current one, on
an approved opportunity, or approves with a prioritization of another category than the current
one; each time under a fresh key. -/
def Unpins (db : Db) (call : Call) : Prop :=
  match call.request with
  | .calculate id payload => ∃ o, get db call.organizationId id = .ok o ∧
      o.status = .approvedForAction ∧ o.selectedScenarioId ≠ some payload.scenarioId ∧
      ∀ c ∈ db.calculations, c.opportunityId = id → c.idempotencyKey ≠ payload.idempotencyKey
  | .prioritize id payload => ∃ o, get db call.organizationId id = .ok o ∧
      o.status = .approvedForAction ∧
      (∃ c priority, getCalculation db call.organizationId id payload.calculationId = .ok c ∧
        requestedPriority c payload = .ok priority ∧
        o.priorityCategory ≠ some priority.category) ∧
      ∀ p ∈ db.prioritizations, p.opportunityId = id → p.idempotencyKey ≠ payload.idempotencyKey
  | .decide id payload => ∃ o, get db call.organizationId id = .ok o ∧
      payload.decision = .approvedForAction ∧
      (∃ prioritizationId ∈ payload.prioritizationId, ∃ p,
        getPrioritization db call.organizationId id prioritizationId = .ok p ∧
        o.priorityCategory ≠ some p.result.category) ∧
      ∀ d ∈ db.decisions, d.opportunityId = id → d.idempotencyKey ≠ payload.idempotencyKey
  | _ => False

/-- Writing an opportunity keeps what approved opportunities show, when it keeps their status and
version and what the written one shows. -/
theorem Shown.write (h : Shown db) (hid : ∀ o, (f o).id = o.id)
    (hkept : ∀ o ∈ db.opportunities, o.id = id → (f o).status = .approvedForAction →
      o.status = .approvedForAction ∧ (f o).currentBaselineVersion = o.currentBaselineVersion ∧
        (f o).selectedScenarioId = o.selectedScenarioId ∧
        (f o).priorityCategory = o.priorityCategory) : Shown (writeOpportunity db id f) := by
  intro o' ho' happroved b hb hcurrent
  obtain ⟨o, ho, rfl⟩ := mem_update.1 ho'
  by_cases hsel : o.id = id
  · rw [if_pos (decide_eq_true hsel)] at happroved hb hcurrent ⊢
    obtain ⟨hstatus, hversion, hscenario, hcategory⟩ := hkept o ho hsel happroved
    rw [hid] at hb
    have hshows := h o ho hstatus b hb (hversion.symm.trans hcurrent)
    exact ⟨hscenario.trans hshows.1, hcategory.trans hshows.2⟩
  · rw [if_neg (by simpa using hsel)] at happroved hb hcurrent ⊢
    exact h o ho happroved b hb hcurrent

/-- Every request that unpins nothing keeps what approved opportunities show. -/
theorem Shown.step (h : Shown db) (hinv : Versioned db) {call : Call} (hpins : ¬ Unpins db call)
    (hstep : EconomicsStep db call db') : Shown db' := by
  have hsame : ∀ {o r : RecoveryOpportunity}, o ∈ db.opportunities →
      get db call.organizationId r.id = .ok r → o.id = r.id → o = r :=
    fun ho hget hid => hinv.opportunityIds.eq_of_key_eq ho (get_ok hget).1 hid
  cases hstep with
  | same | aside | addMember | assume => exact h
  | create o decisions auditEvents hfresh hstatus hversion =>
    intro o' ho' happroved b hb hcurrent
    rcases mem_append.1 ho' with ho' | ho'
    · exact h o' ho' happroved b hb hcurrent
    · rw [mem_singleton.1 ho', hstatus] at happroved
      cases happroved
  | calculate r payload row auditEvents hcalculates =>
    refine h.write (fun _ => rfl) fun o ho hid happroved => ⟨happroved, rfl, ?_, rfl⟩
    obtain rfl := hsame ho hcalculates.found hid
    by_contra hmoved
    refine hpins ?_
    simp only [Unpins, hcalculates.request]
    refine ⟨o, hcalculates.found, happroved, fun hselected => hmoved ?_, hcalculates.fresh⟩
    rw [hselected, hcalculates.scenario]
  | prioritize r payload row auditEvents hprioritizes =>
    refine h.write (fun _ => rfl) fun o ho hid happroved => ⟨happroved, rfl, rfl, ?_⟩
    obtain rfl := hsame ho hprioritizes.found hid
    obtain ⟨c, hc, hpriority⟩ := hprioritizes.priority
    by_contra hmoved
    refine hpins ?_
    simp only [Unpins, hprioritizes.request]
    exact ⟨o, hprioritizes.found, happroved, ⟨c, row.result, hc, hpriority, fun hcategory =>
      hmoved hcategory.symm⟩, hprioritizes.fresh⟩
  | decide r payload decisions auditEvents hdecides hne =>
    exact h.write (fun _ => rfl) fun o ho hid happroved => absurd happroved hne
  | approve r payload b decisions auditEvents hdecides hdecision hfreezes =>
    intro o' ho' happroved b' hb' hcurrent
    obtain ⟨o, ho, rfl⟩ := mem_update.1 ho'
    rw [mem_baselinesOf, mem_append, mem_singleton] at hb'
    by_cases hid : o.id = r.id
    · obtain rfl := hsame ho hdecides.found hid
      rw [if_pos (decide_eq_true rfl)] at hb' hcurrent ⊢
      have hnew : b'.version = b.version := (Option.some.inj hcurrent).symm
      obtain rfl : b' = b := by
        rcases hb'.1 with hold | hb
        · -- The stored versions are lower than the one of the new baseline.
          have hmem : b'.version ∈ (baselinesOf db o.id).map (·.version) :=
            mem_map_of_mem (mem_baselinesOf.2 ⟨hold, hb'.2⟩)
          rw [hinv.versions o ho, mem_range'_1, hnew, hfreezes.version] at hmem
          omega
        · exact hb
      refine ⟨rfl, ?_⟩
      obtain ⟨prioritizationId, hnamed, p, hp, hcategory⟩ := hfreezes.prioritization
      by_contra hother
      refine hpins ?_
      simp only [Unpins, hdecides.request]
      exact ⟨o, hdecides.found, hdecision, ⟨prioritizationId, hnamed, p, hp, fun hsame =>
        hother (hcategory ▸ hsame)⟩, hdecides.fresh⟩
    · rw [if_neg (by simpa using hid)] at happroved hb' hcurrent ⊢
      rcases hb'.1 with hold | hb
      · exact h o ho happroved b' (mem_baselinesOf.2 ⟨hold, hb'.2⟩) hcurrent
      · obtain rfl := hb
        exact absurd (hb'.2.symm.trans hfreezes.opportunity) hid

/-- An approved opportunity that is written as approved shows in both states the same baseline. -/
theorem Shown.agree (h : Shown db) (hinv : Versioned db) {o' : RecoveryOpportunity}
    (ho : o ∈ db.opportunities) (happroved : o.status = .approvedForAction) (h' : Shown db')
    (ho' : o' ∈ db'.opportunities) (hid : o'.id = o.id) (hstatus : o'.status = .approvedForAction)
    (hversion : o'.currentBaselineVersion = o.currentBaselineVersion)
    (hbaselines : db'.baselines = db.baselines) :
    o'.selectedScenarioId = o.selectedScenarioId ∧ o'.priorityCategory = o.priorityCategory := by
  obtain ⟨b, hb, hcurrent, -⟩ := hinv.frozen o ho happroved
  have hb' : b ∈ baselinesOf db' o'.id := by rwa [baselinesOf, hbaselines, hid]
  have hshows := h o ho happroved b hb hcurrent
  have hshows' := h' o' ho' hstatus b hb' (hversion.trans hcurrent)
  exact ⟨hshows'.1.trans hshows.1.symm, hshows'.2.trans hshows.2.symm⟩

theorem mem_writeOpportunity (ho : o ∈ db.opportunities)
    (f : RecoveryOpportunity → RecoveryOpportunity) :
    f o ∈ (writeOpportunity db o.id f).opportunities :=
  mem_update_of_selected ho (decide_eq_true rfl)

/-- A request that is carried out and unpins does not leave approved opportunities with what they
show. -/
theorem not_shown_of_unpins (h : Shown db) (hinv : Versioned db) {call : Call} {r : Reply}
    (hunpins : Unpins db call) (hok : serve db call = .ok (db', r)) : ¬ Shown db' := by
  intro h'
  unfold Unpins at hunpins
  split at hunpins
  case h_1 id payload hrequest =>
    obtain ⟨o, hget, happroved, hmoved, hfresh⟩ := hunpins
    simp only [serve, hrequest] at hok
    obtain ⟨c, hok, -⟩ := reply_ok hok
    rcases calculate_ok hrequest hok with ⟨-, c, hc, hco, hkey⟩ |
      ⟨o', row, auditEvents, hid, hnew, rfl⟩
    · exact hfresh c hc hco hkey
    · obtain rfl : o' = o := ok.inj (hnew.found.symm.trans (hid ▸ hget))
      have hmem := (get_ok hget).1
      refine hmoved ((h.agree hinv hmem happroved h' (mem_writeOpportunity hmem _) rfl happroved rfl
        rfl).1.symm.trans ?_)
      exact congrArg some hnew.scenario
  case h_2 id payload hrequest =>
    obtain ⟨o, hget, happroved, ⟨c, priority, hc, hpriority, hmoved⟩, hfresh⟩ := hunpins
    simp only [serve, hrequest] at hok
    obtain ⟨p, hok, -⟩ := reply_ok hok
    rcases prioritize_ok hrequest hok with ⟨-, p, hp, hpo, hkey⟩ |
      ⟨o', row, auditEvents, hid, hnew, rfl⟩
    · exact hfresh p hp hpo hkey
    · obtain rfl : o' = o := ok.inj (hnew.found.symm.trans (hid ▸ hget))
      have hmem := (get_ok hget).1
      obtain ⟨c', hc', hpriority'⟩ := hnew.priority
      rw [hid] at hc'
      obtain rfl := ok.inj (hc'.symm.trans hc)
      obtain rfl := ok.inj (hpriority'.symm.trans hpriority)
      exact hmoved (h.agree hinv hmem happroved h' (mem_writeOpportunity hmem _) rfl happroved rfl
        rfl).2.symm
  case h_3 id payload hrequest =>
    obtain ⟨o, hget, hdecision, ⟨prioritizationId, hnamed, p, hp, hmoved⟩, hfresh⟩ := hunpins
    simp only [serve, hrequest] at hok
    obtain ⟨reply, hok, -⟩ := reply_ok hok
    rcases decide_ok hrequest hok with ⟨-, d, hd, hdo, hkey⟩ |
      ⟨o', decisions, auditEvents, hid, hnew, hwritten⟩
    · exact hfresh d hd hdo hkey
    · obtain rfl : o' = o := ok.inj (hnew.found.symm.trans (hid ▸ hget))
      have hmem := (get_ok hget).1
      rcases hwritten with ⟨hne, -⟩ | ⟨-, b, hb, rfl⟩
      · exact hne hdecision
      · obtain ⟨_, hnamed', p', hp', hcategory⟩ := hb.prioritization
        obtain rfl := Option.some.inj (hnamed'.symm.trans hnamed)
        rw [hid] at hp'
        obtain rfl := ok.inj (hp'.symm.trans hp)
        have hshows := h' _ (mem_writeOpportunity hmem _) rfl b
          (mem_baselinesOf.2 ⟨mem_append_right _ (mem_singleton_self b), hb.opportunity⟩)
          rfl
        exact hmoved (hshows.2.trans (congrArg some hcategory))
  case h_4 => exact hunpins

/-! ## Whole runs -/

/-- Approved economics are pinned in every state of a run exactly when no request of the run that
is carried out unpins them. -/
theorem pinned_iff (calls : List Call) :
    (∀ as bs, calls = as ++ bs → Pinned (serve.run Db.empty as)) ↔
      serve.AllSteps (fun db call => ¬ (Carried db call ∧ Unpins db call)) Db.empty calls := by
  constructor
  · intro h
    rw [allSteps_iff]
    rintro as call bs rfl ⟨⟨db', r, hok⟩, hunpins⟩
    have hbefore := ((versioned_run as).pinned_iff_shown).1 (h as (call :: bs) rfl)
    have hafter :=
      ((versioned_run (as ++ [call])).pinned_iff_shown).1 (h (as ++ [call]) bs (by simp))
    rw [run_append, run_cons, run_nil, next_of_ok hok] at hafter
    exact not_shown_of_unpins hbefore (versioned_run as) hunpins hok hafter
  · rintro h as bs rfl
    have hprefix := ((allSteps_append _ _ as bs).1 h).1
    have hboth : Versioned (serve.run Db.empty as) ∧ Shown (serve.run Db.empty as) := by
      refine run_invariant_of (P := fun db => Versioned db ∧ Shown db)
        ⟨versioned_empty, fun _ ho => absurd ho not_mem_nil⟩ ?_ hprefix
      rintro s call s' r ⟨hinv, hshown⟩ hpins hok
      have hstep := serve_economicsStep hok
      exact ⟨hinv.step hstep, hshown.step hinv (fun hunpins => hpins ⟨⟨s', r, hok⟩, hunpins⟩) hstep⟩
    exact hboth.1.pinned_iff_shown.2 hboth.2

/-! ## A scenario calculated after the approval -/

namespace Recalculated

theorem half_unit : (0 : ℚ) ≤ 1 / 2 ∧ (1 : ℚ) / 2 ≤ 1 := by norm_num

/-- The rates and scores of the requests. -/
def half : UnitInterval := ⟨1 / 2, half_unit⟩

/-- A scenario without costs. -/
def scenario (code : String) : ScenarioCreate :=
  { scenarioCode := code, currencyCode := "EUR", lowerExposure := 0, grossExposure := 100
    upperExposure := 100, addressabilityRate := half, recoverabilityRate := half
    successProbability := half, recoveryCost := 0, benefitPeriodDays := none
    scenarioProbability := half, lower_nonneg := le_refl 0, bounds := ⟨by norm_num, le_refl 100⟩
    cost_nonneg := le_refl 0, days_pos := nofun }

def send (n : ℕ) (request : Request) : Call :=
  { organizationId := 1, actor := 7, actorRole := "organization_admin", now := n
    ids := fun i => 10 * n + i, request }

def decision (status : OpportunityStatus) : DecisionCreate :=
  { decision := status, idempotencyKey := status.value, scenarioId := some 20
    prioritizationId := some 50 }

/-- Opportunity 10 is approved with scenario 20; then scenario 30 is calculated. -/
def calls : List Call :=
  [send 1 (.create ⟨"opportunity", "source", "EUR"⟩),
    send 2 (.createScenario 10 (scenario "base")),
    send 3 (.createScenario 10 (scenario "other")),
    send 4 (.calculate 10 ⟨20, "base"⟩),
    send 5 (.prioritize 10
      { calculationId := 40, idempotencyKey := "base", profileCode := "default_enterprise"
        urgencyScore := half, confidenceScore := half, feasibilityScore := half
        strategicAlignmentScore := half, riskScore := half, dependencyReady := true
        resourceReady := true }),
    send 6 (.decide 10 (decision .underReview)),
    send 7 (.decide 10 (decision .economicallyQualified)),
    send 8 (.decide 10 (decision .approvedForAction)),
    send 9 (.calculate 10 ⟨30, "other"⟩)]

/-- The approved opportunity selects scenario 30, its baseline has scenario 20. -/
theorem not_pinned : ¬ ∀ calls : List Call, Pinned (serve.run Db.empty calls) := by
  intro h
  have hdrift : ∃ o ∈ (serve.run Db.empty calls).opportunities, o.status = .approvedForAction ∧
      ∀ b ∈ baselinesOf (serve.run Db.empty calls) o.id,
        o.selectedScenarioId ≠ some b.scenarioId := by
    decide +kernel
  obtain ⟨o, ho, happroved, hmoved⟩ := hdrift
  obtain ⟨b, hb, -, -, hshows, -⟩ := h calls o ho happroved
  exact hmoved b hb hshows.1

end Recalculated

end Intel4Ops.Economics
