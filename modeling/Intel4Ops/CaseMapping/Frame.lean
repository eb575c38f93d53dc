import Intel4Ops.CaseMapping.Bridge

/-!
# The loop and the frame of the bridge

What one pass of the loop over the columns adds, what the loop adds where no claim is contested, and
how the renamed and the promoted columns make up the canonical frame.
-/

namespace Intel4Ops.CaseMapping

open List

variable {V : Type*}

/-! ## Readings -/

/-- The canonical field that a column claims. -/
def Reading.claim : Reading → Option String
  | known canonical => some canonical
  | promoted canonical => some canonical
  | _ => none

/-- The row of a column whose claim nothing contests. -/
def Reading.row (sourceField : String) : Reading → FieldMapping
  | known canonical => ⟨sourceField, some canonical, .autoMapped⟩
  | promoted canonical => ⟨sourceField, some canonical, .autoMapped⟩
  | uncertain canonical => ⟨sourceField, some canonical, .needsReview⟩
  | unread => ⟨sourceField, none, .ignored⟩

/-- The name of a column in the canonical frame. -/
def Reading.newName (sourceField : String) : Reading → String
  | known canonical => canonical
  | _ => sourceField

/-- The entry that a column makes in the renaming. -/
def renameEntry (field : String × Reading) : Option (String × String) :=
  match field with
  | (sourceField, .known canonical) => some (sourceField, canonical)
  | _ => none

/-- The entry that a column makes in the promotions, if its claim is not contested. -/
def promotionEntry (field : String × Reading) : Option (String × String) :=
  match field with
  | (sourceField, .promoted canonical) => some (sourceField, canonical)
  | _ => none

/-- The reading asks for a review. -/
def Reading.isUncertain : Reading → Bool
  | uncertain _ => true
  | _ => false

theorem Reading.row_sourceField (sourceField : String) (reading : Reading) :
    (reading.row sourceField).sourceField = sourceField := by
  cases reading <;> rfl

variable {canonical sourceField : String} {reading : Reading} {s : Column V}

theorem Reading.row_autoMapped (h : (reading.row sourceField).mappingStatus = .autoMapped)
    (hcanonical : (reading.row sourceField).canonicalField = some canonical) :
    reading.claim = some canonical := by
  cases reading with
  | known c | promoted c => exact hcanonical
  | uncertain c | unread => cases h

theorem readField_known {semantic : String → Option FieldDecision} :
    readField semantic sourceField = .known canonical ↔
      canonicalizeField sourceField = some canonical := by
  unfold readField
  cases hknown : canonicalizeField sourceField with
  | some c => simp
  | none =>
    refine iff_of_false ?_ (by simp)
    intro h
    dsimp only at h
    split at h
    · split at h <;> cases h
    · cases h

/-! ## One pass and the loop -/

theorem filterMap_cons_toList {α β : Type*} (f : α → Option β) (a : α) (l : List α) :
    (a :: l).filterMap f = (f a).toList ++ l.filterMap f := by
  cases h : f a with
  | none => rw [filterMap_cons_none h]; rfl
  | some b => rw [filterMap_cons_some h]; rfl

namespace Progress

variable (p : Progress) (field : String × Reading)

theorem record_renameMap :
    (p.record field).renameMap = p.renameMap ++ (renameEntry field).toList := by
  obtain ⟨sourceField, reading⟩ := field
  cases reading with
  | known canonical => rfl
  | promoted canonical =>
    simp only [record, renameEntry, Option.toList_none, append_nil]
    split <;> rfl
  | uncertain canonical | unread => exact (append_nil _).symm

theorem mem_record_mapped (canonical : String) :
    canonical ∈ (p.record field).mappedCanonicalFields ↔
      canonical ∈ p.mappedCanonicalFields ∨ field.2.claim = some canonical := by
  obtain ⟨sourceField, reading⟩ := field
  cases reading with
  | known c => simp [record, Reading.claim, eq_comm]
  | promoted c =>
    simp only [record, Reading.claim, Option.some.injEq]
    split
    · rename_i hmem
      refine ⟨.inl, fun h => h.elim id ?_⟩
      rintro rfl
      exact hmem
    · simp [eq_comm]
  | uncertain c | unread => simp [record, Reading.claim]

theorem record_mappings :
    ∃ row, row.sourceField = field.1 ∧ (p.record field).mappings = p.mappings ++ [row] := by
  obtain ⟨sourceField, reading⟩ := field
  cases reading with
  | known c | uncertain c | unread => exact ⟨_, rfl, rfl⟩
  | promoted c =>
    simp only [record]
    split
    · exact ⟨_, rfl, rfl⟩
    · exact ⟨_, rfl, rfl⟩

theorem record_of_contested {sourceField canonical : String}
    (h : canonical ∈ p.mappedCanonicalFields) :
    (p.record (sourceField, .promoted canonical)).mappings =
      p.mappings ++ [⟨sourceField, some canonical, .needsReview⟩] := by
  simp only [record, if_pos h]

theorem record_of_uncontested
    (h : ∀ canonical, field.2.claim = some canonical → canonical ∉ p.mappedCanonicalFields) :
    p.record field =
      { renameMap := p.renameMap ++ (renameEntry field).toList
        promotedColumns := p.promotedColumns ++ (promotionEntry field).toList
        mappings := p.mappings ++ [field.2.row field.1]
        mappedCanonicalFields := p.mappedCanonicalFields ++ field.2.claim.toList
        hasMappingUncertainty := p.hasMappingUncertainty || field.2.isUncertain } := by
  obtain ⟨sourceField, reading⟩ := field
  cases reading with
  | known c | unread =>
    simp [record, renameEntry, promotionEntry, Reading.claim, Reading.row, Reading.isUncertain]
  | promoted c =>
    have hfresh := h c rfl
    simp [record, renameEntry, promotionEntry, Reading.claim, Reading.row, Reading.isUncertain, hfresh]
  | uncertain c =>
    simp [record, renameEntry, promotionEntry, Reading.claim, Reading.row, Reading.isUncertain]

variable (fields : List (String × Reading))

theorem run_cons : p.run (field :: fields) = (p.record field).run fields := rfl

theorem run_renameMap : (p.run fields).renameMap = p.renameMap ++ fields.filterMap renameEntry := by
  induction fields generalizing p with
  | nil => exact (append_nil _).symm
  | cons field fields ih =>
    rw [run_cons, ih, record_renameMap, append_assoc, filterMap_cons_toList]

theorem mem_run_mapped (canonical : String) : canonical ∈ (p.run fields).mappedCanonicalFields ↔
      canonical ∈ p.mappedCanonicalFields ∨ ∃ field ∈ fields, field.2.claim = some canonical := by
  induction fields generalizing p with
  | nil => simp [run]
  | cons field fields ih =>
    rw [run_cons, ih, mem_record_mapped, or_assoc]
    simp only [exists_mem_cons_iff]

theorem run_mappings : ∃ rows : List FieldMapping, rows.map (·.sourceField) = fields.map (·.1) ∧
      (p.run fields).mappings = p.mappings ++ rows := by
  induction fields generalizing p with
  | nil => exact ⟨[], rfl, (append_nil _).symm⟩
  | cons field fields ih =>
    obtain ⟨row, hrow, hrecord⟩ := p.record_mappings field
    obtain ⟨rows, hrows, hrun⟩ := ih (p.record field)
    refine ⟨row :: rows, by rw [map_cons, hrow, hrows, map_cons], ?_⟩
    rw [run_cons, hrun, hrecord, append_assoc]
    rfl

theorem run_of_uncontested
    (h : (p.mappedCanonicalFields ++ fields.filterMap (·.2.claim)).Nodup) :
    p.run fields =
      { renameMap := p.renameMap ++ fields.filterMap renameEntry
        promotedColumns := p.promotedColumns ++ fields.filterMap promotionEntry
        mappings := p.mappings ++ fields.map fun field => field.2.row field.1
        mappedCanonicalFields := p.mappedCanonicalFields ++ fields.filterMap (·.2.claim)
        hasMappingUncertainty :=
          p.hasMappingUncertainty || fields.any fun field => field.2.isUncertain } := by
  induction fields generalizing p with
  | nil => simp [run]
  | cons field fields ih =>
    have hclaims := filterMap_cons_toList (fun field => field.2.claim) field fields
    have hfresh : ∀ c, field.2.claim = some c → c ∉ p.mappedCanonicalFields := by
      intro c hc hmem
      rw [hclaims, hc] at h
      exact (List.nodup_append.1 h).2.2 c hmem c (by simp) rfl
    have hrecord := p.record_of_uncontested field hfresh
    rw [hclaims, ← append_assoc] at h
    rw [run_cons, ih (p.record field) (by rw [hrecord]; exact h), hrecord, hclaims]
    simp only [filterMap_cons_toList renameEntry, filterMap_cons_toList promotionEntry,
      append_assoc, map_cons, any_cons, Bool.or_assoc,
      cons_append, nil_append]

end Progress

/-! ## The canonical frame -/

theorem SourceFrame.eq_of_name (df : SourceFrame V) {t : Column V} (hs : s ∈ df.columns)
    (ht : t ∈ df.columns) (h : s.name = t.name) : s = t :=
  inj_on_of_nodup_map df.distinct hs ht h

theorem SourceFrame.valuesOf_name (df : SourceFrame V) (hs : s ∈ df.columns) :
    df.valuesOf s.name = s.values := by
  unfold valuesOf
  cases hfind : df.columns.find? (·.name = s.name) with
  | none => exact absurd (decide_eq_true rfl) (List.find?_eq_none.1 hfind s hs)
  | some t =>
    have hname : t.name = s.name := by simpa using List.find?_some hfind
    rw [df.eq_of_name (mem_of_find?_eq_some hfind) hs hname]
    rfl

theorem SourceFrame.valuesOf_perm {df df' : SourceFrame V} (h : df'.columns.Perm df.columns)
    (name : String) : df'.valuesOf name = df.valuesOf name := by
  by_cases hmem : ∃ s ∈ df.columns, s.name = name
  · obtain ⟨s, hs, rfl⟩ := hmem
    rw [df.valuesOf_name hs, df'.valuesOf_name (h.mem_iff.2 hs)]
  · have hnone : ∀ l : List (Column V), l.Perm df.columns → l.find? (·.name = name) = none := by
      intro l hl
      refine List.find?_eq_none.2 fun s hs hname => hmem ⟨s, hl.mem_iff.1 hs, ?_⟩
      exact of_decide_eq_true hname
    rw [valuesOf, valuesOf, hnone _ h, hnone _ (List.Perm.refl _)]

theorem lookup_renameEntry {fields : List (String × Reading)} (h : (fields.map (·.1)).Nodup)
    {name : String} (hmem : (name, reading) ∈ fields) :
    ((fields.filterMap renameEntry).lookup name).getD name = reading.newName name := by
  induction fields with
  | nil => cases hmem
  | cons field fields ih =>
    obtain ⟨other, read⟩ := field
    obtain ⟨hother, hrest⟩ := nodup_cons.1 h
    rcases mem_cons.1 hmem with heq | hmem'
    · cases heq
      have hnone : (fields.filterMap renameEntry).lookup name = none := by
        rw [lookup_eq_none_iff]
        intro entry hentry
        obtain ⟨⟨source, r⟩, hsource, hren⟩ := mem_filterMap.1 hentry
        cases r with
        | known c =>
          cases hren
          refine bne_iff_ne.2 fun heq => hother ?_
          exact mem_map.2 ⟨_, hsource, heq.symm⟩
        | promoted c | uncertain c | unread => cases hren
      cases reading with
      | known c => simp [renameEntry, Reading.newName]
      | promoted c | uncertain c | unread =>
        rw [filterMap_cons_none rfl, hnone]
        rfl
    · have hne : name ≠ other := by
        rintro rfl
        exact hother (mem_map.2 ⟨_, hmem', rfl⟩)
      rw [← ih hrest hmem']
      cases read with
      | known c =>
        have hcons : ((other, Reading.known c) :: fields).filterMap renameEntry =
            (other, c) :: fields.filterMap renameEntry := filterMap_cons_some rfl
        rw [hcons, lookup_cons, beq_eq_false_iff_ne.2 hne]
      | promoted c | uncertain c | unread => rw [filterMap_cons_none rfl]

/-- A column as it stands in the canonical frame. -/
def renamed (semantic : String → Option FieldDecision) (column : Column V) : Column V :=
  { column with name := (readField semantic column.name).newName column.name }

theorem SourceFrame.fields_names (df : SourceFrame V) (interpreter : Interpreter V) :
    (df.fields interpreter).map (·.1) = df.columns.map (·.name) := by
  rw [fields, map_map]
  rfl

theorem renameColumns_eq (interpreter : Interpreter V) (df : SourceFrame V) :
    renameColumns ((df.fields interpreter).filterMap renameEntry) df.columns =
      df.columns.map (renamed (interpreter df.columns)) := by
  apply map_congr_left
  intro column hcolumn
  have hnodup : ((df.fields interpreter).map (·.1)).Nodup := by
    rw [df.fields_names]
    exact df.distinct
  rw [renamed, lookup_renameEntry hnodup (mem_map.2 ⟨column, hcolumn, rfl⟩)]

theorem foldl_addPromoted_first (df : SourceFrame V) (promotions : List (String × String))
    (frame : List (Column V)) : frame <+: promotions.foldl (addPromoted df) frame := by
  induction promotions generalizing frame with
  | nil => exact prefix_rfl
  | cons entry promotions ih =>
    refine List.IsPrefix.trans ?_ (ih (addPromoted df frame entry))
    unfold addPromoted
    split
    · exact prefix_rfl
    · exact prefix_append _ _

theorem renamed_first (interpreter : Interpreter V) (df : SourceFrame V)
    (domain : Option String) (detection : Option DetectionStatus) :
    df.columns.map (renamed (interpreter df.columns)) <+:
      (apply interpreter df domain detection).canonicalDataframe := by
  have hrename : renameColumns (Progress.run {} (df.fields interpreter)).renameMap df.columns =
      df.columns.map (renamed (interpreter df.columns)) := by
    rw [Progress.run_renameMap, nil_append, renameColumns_eq]
  rw [← hrename]
  exact foldl_addPromoted_first df _ _

theorem foldl_addPromoted_nodup (df : SourceFrame V) (promotions : List (String × String))
    {frame : List (Column V)} (h : (frame.map (·.name)).Nodup) :
    ((promotions.foldl (addPromoted df) frame).map (·.name)).Nodup := by
  induction promotions generalizing frame with
  | nil => exact h
  | cons entry promotions ih =>
    apply ih
    unfold addPromoted
    split
    · exact h
    · rename_i hnew
      rw [map_append]
      exact List.nodup_append.2 ⟨h, nodup_singleton _, fun a ha b hb hab =>
        hnew (by rwa [hab, mem_singleton.1 hb] at ha)⟩

theorem foldl_addPromoted_eq (df : SourceFrame V) {promotions : List (String × String)}
    (h : (promotions.map (·.2)).Nodup) (frame : List (Column V)) :
    promotions.foldl (addPromoted df) frame =
      frame ++ (promotions.filter (·.2 ∉ frame.map (·.name))).map
        fun entry => ⟨entry.2, df.valuesOf entry.1⟩ := by
  induction promotions generalizing frame with
  | nil => simp
  | cons entry promotions ih =>
    obtain ⟨hnew, hrest⟩ := nodup_cons.1 h
    rw [foldl_cons, ih hrest, addPromoted]
    split
    · rename_i hmem
      rw [filter_cons_of_neg (by simpa using hmem)]
    · rename_i hmem
      -- The added column has the name of no later promotion.
      have hlater : promotions.filter (·.2 ∉
            (frame ++ [⟨entry.2, df.valuesOf entry.1⟩] : List (Column V)).map (·.name)) =
          promotions.filter (·.2 ∉ frame.map (·.name)) := by
        refine filter_congr fun later hlater => ?_
        have hne : later.2 ≠ entry.2 := fun heq => hnew (mem_map.2 ⟨later, hlater, heq⟩)
        simp [hne]
      rw [hlater, filter_cons_of_pos (by simpa using hmem), map_cons, append_assoc]
      rfl

end Intel4Ops.CaseMapping
