import Intel4Ops.Lib.Decimal
import Intel4Ops.Lib.Window
import Intel4Ops.Mapping.Fields

/-!
# Crosswalks

`ValueCrosswalkService`: entries are added as drafts and approved later. The unique constraint on
entries compares their starting points only, and an approval compares nothing, so approved entries
for one value may apply at one instant. They do not as long as no entry is approved whose window
overlaps that of an approved one.
-/

namespace Intel4Ops.Mapping

open Lib Lib.Decimal List Table

/-! ## Entries -/

structure ValueCrosswalk where
  id : UUID
  ownerOrganizationId : Option UUID
  organizationScoped : Bool

/-- A stored entry. -/
structure CrosswalkRow extends ValueCrosswalkEntry where
  id : UUID
  sourceValue : String

/-- `ValueCrosswalkEntryCreate`, with the range of its score. -/
structure ValueCrosswalkEntryCreate where
  (sourceValue canonicalTargetValue : String)
  mappingConfidenceScore : Option ℚ
  (effectiveFrom effectiveTo : Option Instant)
  score_range : ∀ score ∈ mappingConfidenceScore, 0 ≤ score ∧ score ≤ 1

structure Crosswalks where
  /-- The supply of identifiers for entries. -/
  nextId : ℕ
  crosswalks : List ValueCrosswalk
  entries : List CrosswalkRow

/-- The instants at which an entry is effective. -/
def CrosswalkRow.window (r : CrosswalkRow) : Window Instant := ⟨r.effectiveFrom, r.effectiveTo⟩

/-- The unique constraint on entries; two open starting points are different ones. -/
def CrosswalkRow.Clashes (r r' : CrosswalkRow) : Prop :=
  r.crosswalkId = r'.crosswalkId ∧ r.normalizedSourceValue = r'.normalizedSourceValue ∧
    r.effectiveFrom.isSome ∧ r.effectiveFrom = r'.effectiveFrom

instance CrosswalkRow.decidableClashes (r r' : CrosswalkRow) : Decidable (r.Clashes r') :=
  inferInstanceAs (Decidable (_ ∧ _ ∧ _ ∧ _))

/-- `_scope_visible` -/
def ValueCrosswalk.visible (c : ValueCrosswalk) (organizationId : Option UUID) : Bool :=
  !c.organizationScoped || (organizationId.isSome && c.ownerOrganizationId == organizationId)

/-! ## Calls -/

/-- The draft of an entry; its column keeps four digits of the score. -/
def newEntry (env : Env) (id : UUID) (crosswalk : ValueCrosswalk)
    (payload : ValueCrosswalkEntryCreate) : CrosswalkRow where
  id
  crosswalkId := crosswalk.id
  ownerOrganizationId := crosswalk.ownerOrganizationId
  sourceValue := payload.sourceValue
  normalizedSourceValue := normalizeText env payload.sourceValue
  canonicalTargetValue := payload.canonicalTargetValue
  status := .draft
  effectiveFrom := payload.effectiveFrom
  effectiveTo := payload.effectiveTo
  mappingConfidenceScore := payload.mappingConfidenceScore.map (halfUp.places 4)

/-- `ValueCrosswalkService.add_entry` -/
def addEntry (env : Env) (s : Crosswalks) (crosswalkId : UUID)
    (payload : ValueCrosswalkEntryCreate) (organizationId : Option UUID) :
    Raises (Crosswalks × UUID) := do
  let crosswalk ← orFail (s.crosswalks.find? (·.id = crosswalkId)) (.service "CROSSWALK_NOT_FOUND")
  ensure (crosswalk.visible organizationId = true) (.service "CROSSWALK_NOT_FOUND")
  let entry := newEntry env s.nextId crosswalk payload
  ensure (entry.sourceValue.length ≤ 500 ∧ entry.normalizedSourceValue.length ≤ 500 ∧
    entry.canonicalTargetValue.length ≤ 500) .dataError
  ensure entry.window.Proper .integrity
  let entries ← orFail (insert CrosswalkRow.Clashes entry s.entries) .integrity
  return ({ s with entries, nextId := s.nextId + 1 }, entry.id)

def CrosswalkRow.approved (r : CrosswalkRow) : CrosswalkRow := { r with status := .approved }

/-- `ValueCrosswalkService.approve` -/
def approve (s : Crosswalks) (entryId : UUID) (organizationId : Option UUID) :
    Raises (Crosswalks × UUID) := do
  let entry ← orFail (s.entries.find? (·.id = entryId)) (.service "CROSSWALK_ENTRY_NOT_FOUND")
  let crosswalk ← orFail (s.crosswalks.find? (·.id = entry.crosswalkId)) .assertion
  ensure (crosswalk.visible organizationId = true) (.service "CROSSWALK_ENTRY_NOT_FOUND")
  return ({ s with entries := update (·.id = entryId) CrosswalkRow.approved s.entries }, entryId)

inductive CrosswalkCall
  | addEntry (crosswalkId : UUID) (payload : ValueCrosswalkEntryCreate)
    (organizationId : Option UUID)
  | approve (entryId : UUID) (organizationId : Option UUID)

/-- Each call is a transaction. -/
def crosswalkService (env : Env) : Service Crosswalks CrosswalkCall UUID Raised := fun s call =>
  match call with
  | .addEntry crosswalkId payload organizationId =>
    addEntry env s crosswalkId payload organizationId
  | .approve entryId organizationId => approve s entryId organizationId

/-! ## The store -/

/-- What every call keeps. -/
structure Crosswalks.Kept (s : Crosswalks) : Prop where
  crosswalks : Unique (·.id) s.crosswalks
  ids : Unique (·.id) s.entries
  supply : ∀ r ∈ s.entries, r.id < s.nextId
  owner : ∀ r ∈ s.entries, ∃ c ∈ s.crosswalks, c.id = r.crosswalkId ∧
    c.ownerOrganizationId = r.ownerOrganizationId
  proper : ∀ r ∈ s.entries, r.window.Proper
  score : ∀ r ∈ s.entries, ∀ score ∈ r.mappingConfidenceScore, 0 ≤ score ∧ score ≤ 1

/-- A store of crosswalks without entries. -/
structure Crosswalks.Fresh (s : Crosswalks) : Prop where
  crosswalks : Unique (·.id) s.crosswalks
  entries : s.entries = []

/-- Two entries of a crosswalk for one value, whose windows overlap. -/
def CrosswalkRow.Competes (r r' : CrosswalkRow) : Prop :=
  r.id ≠ r'.id ∧ r.crosswalkId = r'.crosswalkId ∧
    r.normalizedSourceValue = r'.normalizedSourceValue ∧ r.window.Overlaps r'.window

instance CrosswalkRow.decidableCompetes (r r' : CrosswalkRow) : Decidable (r.Competes r') :=
  inferInstanceAs (Decidable (_ ∧ _ ∧ _ ∧ _))

def Uncontested (s : Crosswalks) : CrosswalkCall → Prop
  | .addEntry _ _ _ => True
  | .approve entryId _ => ∀ r ∈ s.entries, r.id = entryId → ∀ r' ∈ s.entries,
      r'.status = .approved → ¬ r.Competes r'

instance decidableUncontested (s : Crosswalks) : (call : CrosswalkCall) →
    Decidable (Uncontested s call)
  | .addEntry _ _ _ => isTrue trivial
  | .approve entryId _ => inferInstanceAs (Decidable (∀ r ∈ s.entries, r.id = entryId →
      ∀ r' ∈ s.entries, r'.status = .approved → ¬ r.Competes r'))

/-- At most one approved entry applies to a value at an instant, and the lookup finds the same one
whatever the order of the rows is. -/
structure Unambiguous (s : Crosswalks) : Prop where
  unique : ∀ (crosswalkId organizationId : UUID) (normalized : String) (now : Instant),
    ∀ r ∈ s.entries, ∀ r' ∈ s.entries,
      r.Applies crosswalkId organizationId normalized now →
        r'.Applies crosswalkId organizationId normalized now → r = r'
  ordered : ∀ entries : List CrosswalkRow, entries.Perm s.entries →
    ∀ (crosswalkId organizationId : UUID) (normalized : String) (now : Instant),
      entries.find? (fun r => r.Applies crosswalkId organizationId normalized now) =
        s.entries.find? fun r => r.Applies crosswalkId organizationId normalized now

/-! ## What a call does -/

variable {id : UUID} {s s' : Crosswalks} {r : CrosswalkRow}

variable {crosswalkId entryId : UUID} {organizationId : Option UUID} {r' : CrosswalkRow}

theorem addEntry_eq {env : Env} {payload : ValueCrosswalkEntryCreate}
    (h : addEntry env s crosswalkId payload organizationId = .ok (s', id)) :
    ∃ crosswalk ∈ s.crosswalks, (newEntry env s.nextId crosswalk payload).window.Proper ∧
      s' = { s with
        entries := s.entries ++ [newEntry env s.nextId crosswalk payload]
        nextId := s.nextId + 1 } := by
  simp only [addEntry, bind_eq_ok, orFail_eq_ok, ensure_eq_ok, pure_eq_ok, Prod.mk.injEq,
    insert_eq_some] at h
  obtain ⟨crosswalk, hfind, -, -, -, -, -, hproper, entries, ⟨-, rfl⟩, rfl, -⟩ := h
  exact ⟨crosswalk, mem_of_find?_eq_some hfind, hproper, rfl⟩

theorem approve_eq (h : approve s entryId organizationId = .ok (s', id)) :
    s' = { s with entries := update (·.id = entryId) CrosswalkRow.approved s.entries } := by
  simp only [approve, bind_eq_ok, orFail_eq_ok, ensure_eq_ok, pure_eq_ok, Prod.mk.injEq] at h
  obtain ⟨-, -, -, -, -, -, rfl, -⟩ := h
  rfl

theorem Crosswalks.Fresh.kept (h : s.Fresh) : s.Kept where
  crosswalks := h.crosswalks
  ids := by
    rw [h.entries]
    exact Unique.nil
  supply := by simp [h.entries]
  owner := by simp [h.entries]
  proper := by simp [h.entries]
  score := by simp [h.entries]

theorem mem_approved {rows : List CrosswalkRow}
    (h : r ∈ update (·.id = entryId) CrosswalkRow.approved rows) :
    ∃ r' ∈ rows, r = { r' with status := r.status } ∧
      (r = r' ∨ r'.id = entryId ∧ r.status = .approved) := by
  obtain ⟨r', hr', rfl⟩ := mem_map.1 h
  refine ⟨r', hr', ?_⟩
  split
  case isTrue hid => exact ⟨rfl, .inr ⟨by simpa using hid, rfl⟩⟩
  case isFalse => exact ⟨rfl, .inl rfl⟩

theorem kept_step {env : Env} {call : CrosswalkCall} (hs : s.Kept)
    (h : crosswalkService env s call = .ok (s', id)) : s'.Kept := by
  cases call with
  | addEntry crosswalkId payload organizationId =>
    obtain ⟨crosswalk, hcrosswalk, hproper, rfl⟩ := addEntry_eq h
    refine ⟨hs.crosswalks, ?_, ?_, ?_, ?_, ?_⟩
    · exact hs.ids.append fun r hr => (hs.supply r hr).ne
    · rintro r hr
      rcases mem_append.1 hr with hr | hr
      · exact (hs.supply r hr).trans (Nat.lt_succ_self _)
      · rw [mem_singleton.1 hr]
        exact Nat.lt_succ_self s.nextId
    · rintro r hr
      rcases mem_append.1 hr with hr | hr
      · exact hs.owner r hr
      · rw [mem_singleton.1 hr]
        exact ⟨crosswalk, hcrosswalk, rfl, rfl⟩
    · rintro r hr
      rcases mem_append.1 hr with hr | hr
      · exact hs.proper r hr
      · rw [mem_singleton.1 hr]
        exact hproper
    · rintro r hr score hscore
      rcases mem_append.1 hr with hr | hr
      · exact hs.score r hr score hscore
      · rw [mem_singleton.1 hr] at hscore
        obtain ⟨given, hgiven, rfl⟩ := Option.mem_map.1 hscore
        obtain ⟨hlow, hhigh⟩ := payload.score_range given hgiven
        have hone : halfUp.places 4 (1 : ℚ) = 1 :=
          Rounding.places_of_hasPlaces halfUp ⟨10000, by norm_num⟩
        exact ⟨halfUp.places_nonneg hlow, hone ▸ halfUp.places_mono hhigh⟩
  | approve entryId organizationId =>
    obtain rfl := approve_eq h
    refine ⟨hs.crosswalks, hs.ids.update fun r => rfl, ?_, ?_, ?_, ?_⟩
    all_goals
      intro r hr
      obtain ⟨r', hr', hsame, -⟩ := mem_approved hr
      rw [hsame]
    · exact hs.supply r' hr'
    · exact hs.owner r' hr'
    · exact hs.proper r' hr'
    · exact hs.score r' hr'

/-! ## Competing entries -/

theorem CrosswalkRow.Competes.symm (h : r.Competes r') : r'.Competes r :=
  ⟨h.1.symm, h.2.1.symm, h.2.2.1.symm, h.2.2.2.symm⟩

/-- An entry applies where it is approved, to its owner, and while its window is open. -/
theorem applies_iff {organizationId : UUID} {normalized : String} {now : Instant} :
    r.Applies crosswalkId organizationId normalized now ↔
      r.crosswalkId = crosswalkId ∧ r.normalizedSourceValue = normalized ∧ r.status = .approved ∧
        (∀ owner ∈ r.ownerOrganizationId, owner = organizationId) ∧ r.window.Contains now :=
  Iff.rfl

theorem Crosswalks.Kept.owner_eq (hs : s.Kept) (hr : r ∈ s.entries) (hr' : r' ∈ s.entries)
    (h : r.crosswalkId = r'.crosswalkId) : r.ownerOrganizationId = r'.ownerOrganizationId := by
  obtain ⟨c, hc, hid, howner⟩ := hs.owner r hr
  obtain ⟨c', hc', hid', howner'⟩ := hs.owner r' hr'
  have hsame : c = c' := hs.crosswalks.eq_of_key_eq hc hc' (hid.trans (h.trans hid'.symm))
  rw [← howner, ← howner', hsame]

theorem unambiguous_iff (hs : s.Kept) :
    Unambiguous s ↔ ∀ r ∈ s.entries, ∀ r' ∈ s.entries, r.status = .approved →
      r'.status = .approved → ¬ r.Competes r' := by
  constructor
  · rintro h r hr r' hr' hstatus hstatus' ⟨hid, hcrosswalk, hnormalized, hoverlaps⟩
    obtain ⟨now, hnow, hnow'⟩ :=
      (Window.exists_contains_iff (hs.proper r hr) (hs.proper r' hr')).2 hoverlaps
    have howner := hs.owner_eq hr hr' hcrosswalk
    -- the owner of the crosswalk sees both entries
    have hown : ∀ owner ∈ r.ownerOrganizationId, owner = r.ownerOrganizationId.getD 0 := by
      intro owner howner
      rw [Option.mem_def.1 howner, Option.getD_some]
    have hsame := h.unique r.crosswalkId (r.ownerOrganizationId.getD 0) r.normalizedSourceValue now
      r hr r' hr' (applies_iff.2 ⟨rfl, rfl, hstatus, hown, hnow⟩)
      (applies_iff.2 ⟨hcrosswalk.symm, hnormalized.symm, hstatus', howner ▸ hown, hnow'⟩)
    exact hid (congrArg (·.id) hsame)
  · intro h
    have hunique : ∀ (crosswalkId organizationId : UUID) (normalized : String) (now : Instant),
        ∀ r ∈ s.entries, ∀ r' ∈ s.entries, r.Applies crosswalkId organizationId normalized now →
          r'.Applies crosswalkId organizationId normalized now → r = r' := by
      intro crosswalkId organizationId normalized now r hr r' hr' happlies happlies'
      obtain ⟨hcrosswalk, hnormalized, hstatus, -, hnow⟩ := applies_iff.1 happlies
      obtain ⟨hcrosswalk', hnormalized', hstatus', -, hnow'⟩ := applies_iff.1 happlies'
      by_contra hne
      refine h r hr r' hr' hstatus hstatus' ⟨fun hid => hne (hs.ids.eq_of_key_eq hr hr' hid),
        hcrosswalk.trans hcrosswalk'.symm, hnormalized.trans hnormalized'.symm, ?_⟩
      exact (Window.exists_contains_iff (hs.proper r hr) (hs.proper r' hr')).1 ⟨now, hnow, hnow'⟩
    refine ⟨hunique, fun entries hperm crosswalkId organizationId normalized now => ?_⟩
    refine find?_perm hperm fun r hr r' hr' happlies happlies' => ?_
    exact hunique crosswalkId organizationId normalized now r hr r' hr'
      (of_decide_eq_true happlies) (of_decide_eq_true happlies')

theorem unambiguous_step {env : Env} {call : CrosswalkCall} (hs : s.Kept)
    (hunambiguous : Unambiguous s) (hcall : Uncontested s call)
    (h : crosswalkService env s call = .ok (s', id)) : Unambiguous s' := by
  rw [unambiguous_iff hs] at hunambiguous
  rw [unambiguous_iff (kept_step hs h)]
  cases call with
  | addEntry crosswalkId payload organizationId =>
    obtain ⟨crosswalk, -, -, rfl⟩ := addEntry_eq h
    have hold : ∀ r ∈ s.entries ++ [newEntry env s.nextId crosswalk payload],
        r.status = .approved → r ∈ s.entries := by
      intro r hr hstatus
      rcases mem_append.1 hr with hr | hr
      · exact hr
      · rw [mem_singleton.1 hr] at hstatus
        cases hstatus
    intro r hr r' hr' hstatus hstatus'
    exact hunambiguous r (hold r hr hstatus) r' (hold r' hr' hstatus') hstatus hstatus'
  | approve entryId organizationId =>
    obtain rfl := approve_eq h
    intro r hr r' hr' hstatus hstatus' hcompetes
    obtain ⟨q, hq, hsame, hold⟩ := mem_approved hr
    obtain ⟨q', hq', hsame', hold'⟩ := mem_approved hr'
    have hcompetes : q.Competes q' := by
      rw [hsame, hsame'] at hcompetes
      exact hcompetes
    -- at most one of the two was approved just now
    rcases hold with rfl | ⟨hid, -⟩
    · rcases hold' with rfl | ⟨hid', -⟩
      · exact hunambiguous r hq r' hq' hstatus hstatus' hcompetes
      · exact hcall q' hq' hid' r hq hstatus hcompetes.symm
    · rcases hold' with rfl | ⟨hid', -⟩
      · exact hcall q hq hid r' hq' hstatus' hcompetes
      · exact hcompetes.1 (hid.trans hid'.symm)

theorem unambiguous_run {env : Env} (hs : s.Fresh) {calls : List CrosswalkCall}
    (h : (crosswalkService env).AllSteps Uncontested s calls) :
    Unambiguous ((crosswalkService env).run s calls) := by
  have hstart : Unambiguous s := (unambiguous_iff hs.kept).2 (by simp [hs.entries])
  exact (Service.run_invariant_of (P := fun s => s.Kept ∧ Unambiguous s) ⟨hs.kept, hstart⟩
    (fun hs hcall hok => ⟨kept_step hs.1 hok, unambiguous_step hs.1 hs.2 hcall hok⟩) h).2

theorem kept_run {env : Env} (hs : s.Fresh) (calls : List CrosswalkCall) :
    ((crosswalkService env).run s calls).Kept :=
  Service.run_invariant hs.kept (fun hs hok => kept_step hs hok) calls

end Intel4Ops.Mapping
