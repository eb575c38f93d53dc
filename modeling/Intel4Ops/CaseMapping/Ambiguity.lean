import Intel4Ops.CaseMapping.Frame

/-!
# Ambiguous columns

A mapping is faithful if no column of the canonical frame is chosen silently: where two columns
claim one canonical field, the mapping is reviewed. The bridge is faithful exactly on the datasets
in which the columns claim distinct fields and no other column has the name of a promoted one.
-/

namespace Intel4Ops.CaseMapping

open List

variable {V : Type*} {interpreter : Interpreter V} {df : SourceFrame V} {domain : Option String}
  {detection : Option DetectionStatus}

/-! ## Faithful mappings -/

/-- The canonical field that a column of a dataset claims. -/
def claimOf (interpreter : Interpreter V) (df : SourceFrame V) (column : Column V) :
    Option String :=
  (readField (interpreter df.columns) column.name).claim

/-- The bridge never chooses silently between two columns. -/
structure FaithfulMapping (interpreter : Interpreter V) (df : SourceFrame V)
    (domain : Option String) (detection : Option DetectionStatus) : Prop where
  /-- The names of the canonical frame are distinct. -/
  distinct : ((apply interpreter df domain detection).canonicalDataframe.map (·.name)).Nodup
  /-- A canonical column holds the values of the single field that is mapped to it. -/
  values : ∀ m ∈ (apply interpreter df domain detection).fieldMappings,
    m.mappingStatus = .autoMapped → ∀ canonical, m.canonicalField = some canonical →
      (∀ other ∈ (apply interpreter df domain detection).fieldMappings,
        other.mappingStatus = .autoMapped → other.canonicalField = some canonical →
          other.sourceField = m.sourceField) ∧
      ∀ column ∈ (apply interpreter df domain detection).canonicalDataframe,
        column.name = canonical → ∀ source ∈ df.columns, source.name = m.sourceField →
          column.values = source.values
  /-- Two claims to one field lead to a review. -/
  reviewed : ∀ s ∈ df.columns, ∀ t ∈ df.columns, s.name ≠ t.name → ∀ canonical,
    claimOf interpreter df s = some canonical → claimOf interpreter df t = some canonical →
      (∃ m ∈ (apply interpreter df domain detection).fieldMappings,
        (m.sourceField = s.name ∨ m.sourceField = t.name) ∧ m.mappingStatus = .needsReview) ∧
      (apply interpreter df domain detection).overallStatus = .needsReview
  /-- Every source field has one row. -/
  once : ∀ s ∈ df.columns, ((apply interpreter df domain detection).fieldMappings.countP fun m =>
    m.sourceField = s.name) = 1
  /-- The order of the columns makes no other difference than an order. -/
  permutes : ∀ df' : SourceFrame V, df'.columns.Perm df.columns →
    (apply interpreter df' domain detection).canonicalDataframe.Perm
      (apply interpreter df domain detection).canonicalDataframe ∧
    (apply interpreter df' domain detection).fieldMappings.Perm
      (apply interpreter df domain detection).fieldMappings ∧
    (apply interpreter df' domain detection).overallStatus =
      (apply interpreter df domain detection).overallStatus

/-- No two columns claim one canonical field. -/
def DistinctClaims (interpreter : Interpreter V) (df : SourceFrame V) : Prop :=
  ∀ s ∈ df.columns, ∀ t ∈ df.columns, ∀ canonical,
    claimOf interpreter df s = some canonical → claimOf interpreter df t = some canonical →
      s.name = t.name

/-- The columns of a dataset leave the bridge no choice. -/
structure Unambiguous (interpreter : Interpreter V) (df : SourceFrame V)
    (domain : Option String) (detection : Option DetectionStatus) : Prop where
  claims : DistinctClaims interpreter df
  /-- A column that keeps the name of a promoted field has the values of the promoted column. -/
  kept : ∀ s ∈ df.columns, ∀ canonical,
    readField (interpreter df.columns) s.name = .promoted canonical → ∀ t ∈ df.columns,
      t.name = canonical → canonicalizeField canonical = none → t.values = s.values
  /-- No column has the name under which a missing field is reported. -/
  unreserved : ∀ field ∈ requiredFields domain detection,
    (∀ s ∈ df.columns, claimOf interpreter df s ≠ some field) →
      ∀ s ∈ df.columns, s.name ≠ "<missing:" ++ field ++ ">"

/-! ## Unambiguous columns are mapped faithfully -/

variable {canonical : String} {df' : SourceFrame V} {s t : Column V}

theorem claimOf_known {column : Column V} (h : canonicalizeField column.name = some canonical) :
    claimOf interpreter df column = some canonical := by
  rw [claimOf, readField_known.2 h]
  rfl

theorem mem_fields {field : String × Reading} : field ∈ df.fields interpreter ↔
      ∃ s ∈ df.columns, (s.name, readField (interpreter df.columns) s.name) = field :=
  mem_map

theorem DistinctClaims.nodup (h : DistinctClaims interpreter df) :
    ((df.fields interpreter).filterMap (·.2.claim)).Nodup := by
  rw [SourceFrame.fields, filterMap_map, List.Nodup, pairwise_filterMap]
  have hnames := pairwise_map.1 df.distinct
  refine hnames.imp_of_mem fun {s t} hs ht hne c hc c' hc' heq => ?_
  exact hne (h s hs t ht c hc (heq ▸ hc'))

theorem DistinctClaims.run (h : DistinctClaims interpreter df) :
    Progress.run {} (df.fields interpreter) =
      { renameMap := (df.fields interpreter).filterMap renameEntry
        promotedColumns := (df.fields interpreter).filterMap promotionEntry
        mappings := (df.fields interpreter).map fun field => field.2.row field.1
        mappedCanonicalFields := (df.fields interpreter).filterMap (·.2.claim)
        hasMappingUncertainty := (df.fields interpreter).any fun field => field.2.isUncertain } :=
  Progress.run_of_uncontested {} _ h.nodup

theorem DistinctClaims.promotions_nodup (h : DistinctClaims interpreter df) :
    (((df.fields interpreter).filterMap promotionEntry).map (·.2)).Nodup := by
  refine Nodup.sublist ?_ h.nodup
  induction df.fields interpreter with
  | nil => exact Sublist.slnil
  | cons field fields ih =>
    rw [filterMap_cons_toList, filterMap_cons_toList, map_append]
    refine Sublist.append ?_ ih
    obtain ⟨sourceField, reading⟩ := field
    cases reading with
    | known c | uncertain c | unread => exact nil_sublist _
    | promoted c => exact Sublist.refl _

theorem Unambiguous.apply_eq (h : Unambiguous interpreter df domain detection) :
    apply interpreter df domain detection =
      let frame := df.columns.map (renamed (interpreter df.columns))
      let fields := df.fields interpreter
      let missing := missingRequired (requiredFields domain detection)
        (fields.filterMap (·.2.claim))
      { canonicalDataframe := frame ++
          ((fields.filterMap promotionEntry).filter (·.2 ∉ frame.map (·.name))).map
            fun entry => ⟨entry.2, df.valuesOf entry.1⟩
        fieldMappings := (fields.map fun field => field.2.row field.1) ++ missing.map missingRow
        overallStatus :=
          if missing ≠ [] ∨ (fields.any fun field => field.2.isUncertain) = true then .needsReview
          else .autoMapped } := by
  simp only [apply, h.claims.run, renameColumns_eq,
    foldl_addPromoted_eq df h.claims.promotions_nodup]

theorem Unambiguous.perm (h : Unambiguous interpreter df domain detection)
    (hperm : df'.columns.Perm df.columns) : Unambiguous interpreter df' domain detection := by
  have hcolumns : (df'.columns : Multiset (Column V)) = df.columns := Multiset.coe_eq_coe.2 hperm
  have hclaim : ∀ s, claimOf interpreter df' s = claimOf interpreter df s := by
    intro s
    rw [claimOf, claimOf, hcolumns]
  obtain ⟨hclaims, hkept, hunreserved⟩ := h
  refine ⟨?_, ?_, ?_⟩
  · simpa only [DistinctClaims, hclaim, hperm.mem_iff] using hclaims
  · simpa only [hcolumns, hperm.mem_iff] using hkept
  · simpa only [hclaim, hperm.mem_iff] using hunreserved

theorem Reading.newName_cases (sourceField : String) (reading : Reading) :
    (∃ canonical, reading = .known canonical ∧ reading.newName sourceField = canonical) ∨
      reading.newName sourceField = sourceField := by
  cases reading with
  | known canonical => exact .inl ⟨canonical, rfl, rfl⟩
  | promoted canonical | uncertain canonical | unread => exact .inr rfl

/-- A column that stands in the frame under the name of a known field claims the field. -/
theorem claimOf_newName (hs : readField (interpreter df.columns) s.name = .known canonical)
    (ht : (readField (interpreter df.columns) t.name).newName t.name = canonical) :
    claimOf interpreter df t = some canonical := by
  rcases (readField (interpreter df.columns) t.name).newName_cases t.name with
    ⟨c, hread, hname⟩ | hname
  · rw [claimOf, hread, ← ht, hname]
    rfl
  · have hself := canonicalizeField_self (canonicalizeField_mem (readField_known.1 hs))
    rw [← ht, hname] at hself ⊢
    exact claimOf_known hself

section

variable (h : Unambiguous interpreter df domain detection)
include h

theorem Unambiguous.newName_ne (hs : s ∈ df.columns) (ht : t ∈ df.columns) (hne : s.name ≠ t.name) :
    (readField (interpreter df.columns) s.name).newName s.name ≠
      (readField (interpreter df.columns) t.name).newName t.name := by
  intro heq
  rcases (readField (interpreter df.columns) s.name).newName_cases s.name with
    ⟨c, hread, hname⟩ | hname
  · exact hne (h.claims s hs t ht c (claimOf_newName hread hname)
      (claimOf_newName hread (heq.symm.trans hname)))
  · rcases (readField (interpreter df.columns) t.name).newName_cases t.name with
      ⟨c, hread, htname⟩ | htname
    · exact hne (h.claims s hs t ht c (claimOf_newName hread (heq.trans htname))
        (claimOf_newName hread htname))
    · exact hne (hname.symm.trans (heq.trans htname))

theorem Unambiguous.renamed_nodup :
    ((df.columns.map (renamed (interpreter df.columns))).map (·.name)).Nodup := by
  rw [map_map, List.Nodup, pairwise_map]
  have hnames := pairwise_map.1 df.distinct
  exact hnames.imp_of_mem fun hs ht hne => h.newName_ne hs ht hne

theorem Unambiguous.autoMapped {m : FieldMapping}
    (hm : m ∈ (apply interpreter df domain detection).fieldMappings)
    (hstatus : m.mappingStatus = .autoMapped) (hfield : m.canonicalField = some canonical) :
    ∃ s ∈ df.columns, s.name = m.sourceField ∧ claimOf interpreter df s = some canonical := by
  rw [h.apply_eq] at hm
  rcases mem_append.1 hm with hm | hm
  · obtain ⟨field, hfields, rfl⟩ := mem_map.1 hm
    obtain ⟨s, hs, rfl⟩ := mem_fields.1 hfields
    exact ⟨s, hs, (Reading.row_sourceField _ _).symm, Reading.row_autoMapped hstatus hfield⟩
  · obtain ⟨field, -, rfl⟩ := mem_map.1 hm
    cases hstatus

theorem Unambiguous.values_eq {column : Column V} (hs : s ∈ df.columns)
    (hclaim : claimOf interpreter df s = some column.name)
    (hcolumn : column ∈ (apply interpreter df domain detection).canonicalDataframe) :
    column.values = s.values := by
  rw [h.apply_eq] at hcolumn
  rcases mem_append.1 hcolumn with hcolumn | hcolumn
  · obtain ⟨t, ht, rfl⟩ := mem_map.1 hcolumn
    show t.values = s.values
    rcases (readField (interpreter df.columns) t.name).newName_cases t.name with
      ⟨c, hread, hname⟩ | hname
    · -- The column was renamed to the field.
      have htclaim := claimOf_newName hread hname
      have hsclaim : claimOf interpreter df s = some c := hclaim.trans (congrArg some hname)
      rw [df.eq_of_name ht hs (h.claims t ht s hs c htclaim hsclaim)]
    · -- The column kept its name, which is the name of the field.
      have hsclaim : claimOf interpreter df s = some t.name := hclaim.trans (congrArg some hname)
      cases hknown : canonicalizeField t.name with
      | some c =>
        have hnewName : (readField (interpreter df.columns) t.name).newName t.name = c := by
          rw [readField_known.2 hknown]
          rfl
        have htclaim : claimOf interpreter df t = some t.name := by
          rw [claimOf_known hknown, ← hname, hnewName]
        rw [df.eq_of_name ht hs (h.claims t ht s hs _ htclaim hsclaim)]
      | none =>
        have hread : readField (interpreter df.columns) s.name = .promoted t.name := by
          rw [claimOf] at hsclaim
          cases hread : readField (interpreter df.columns) s.name with
          | known c =>
            rw [hread] at hsclaim
            cases hsclaim
            have hself := canonicalizeField_self (canonicalizeField_mem (readField_known.1 hread))
            rw [hknown] at hself
            cases hself
          | promoted c =>
            rw [hread] at hsclaim
            cases hsclaim
            rfl
          | uncertain c | unread =>
            rw [hread] at hsclaim
            cases hsclaim
        exact h.kept s hs t.name hread t ht rfl hknown
  · obtain ⟨entry, hentry, rfl⟩ := mem_map.1 hcolumn
    obtain ⟨field, hfields, hpromotion⟩ := mem_filterMap.1 (mem_filter.1 hentry).1
    obtain ⟨t, ht, rfl⟩ := mem_fields.1 hfields
    cases hread : readField (interpreter df.columns) t.name with
    | promoted c =>
      rw [hread] at hpromotion
      cases hpromotion
      have htclaim : claimOf interpreter df t = some c := by rw [claimOf, hread]; rfl
      rw [← df.eq_of_name ht hs (h.claims t ht s hs c htclaim hclaim)]
      exact df.valuesOf_name ht
    | known c | uncertain c | unread => rw [hread] at hpromotion; cases hpromotion

end

/-! ## Rows -/

theorem mem_missing {field : String} : field ∈ missingRequired (requiredFields domain detection)
        (Progress.run {} (df.fields interpreter)).mappedCanonicalFields ↔
      field ∈ requiredFields domain detection ∧
        ∀ s ∈ df.columns, claimOf interpreter df s ≠ some field := by
  rw [missingRequired, mem_insertionSort, mem_filter]
  refine and_congr_right fun _ => ?_
  rw [decide_eq_true_eq, Progress.mem_run_mapped]
  constructor
  · intro hnone s hs hclaim
    exact hnone (.inr ⟨_, mem_fields.2 ⟨s, hs, rfl⟩, hclaim⟩)
  · rintro hnone (hmem | ⟨field, hfields, hclaim⟩)
    · cases hmem
    · obtain ⟨s, hs, rfl⟩ := mem_fields.1 hfields
      exact hnone s hs hclaim

theorem countP_rows (hs : s ∈ df.columns) :
    ((apply interpreter df domain detection).fieldMappings.countP fun m =>
        m.sourceField = s.name) = 1 ↔
      ∀ field ∈ requiredFields domain detection,
        (∀ t ∈ df.columns, claimOf interpreter df t ≠ some field) →
          s.name ≠ "<missing:" ++ field ++ ">" := by
  obtain ⟨rows, hnames, hrows⟩ := Progress.run_mappings {} (df.fields interpreter)
  have hone : rows.countP (fun m => m.sourceField = s.name) = 1 := by
    have hcount : (rows.map (·.sourceField)).count s.name = 1 := by
      rw [hnames, df.fields_names]
      exact count_eq_one_of_mem df.distinct (mem_map_of_mem hs)
    rw [List.count, countP_map] at hcount
    rw [← hcount]
    refine countP_congr fun m _ => ?_
    simp
  show List.countP _ ((Progress.run {} (df.fields interpreter)).mappings ++ _) = 1 ↔ _
  rw [hrows, nil_append, countP_append, hone]
  simp only [Nat.add_eq_left, countP_eq_zero, mem_map, forall_exists_index, and_imp,
    decide_eq_true_eq]
  constructor
  · intro hnone field hrequired hunclaimed heq
    exact hnone _ field (mem_missing.2 ⟨hrequired, hunclaimed⟩) rfl heq.symm
  · rintro hnone m field hmissing rfl heq
    obtain ⟨hrequired, hunclaimed⟩ := mem_missing.1 hmissing
    exact hnone field hrequired hunclaimed heq.symm

/-! ## Orders of the columns -/

theorem SourceFrame.fields_perm (interpreter : Interpreter V) {df : SourceFrame V}
    (h : df'.columns.Perm df.columns) : (df'.fields interpreter).Perm (df.fields interpreter) := by
  rw [fields, fields, Multiset.coe_eq_coe.2 h]
  exact h.map _

theorem Unambiguous.apply_perm (h : Unambiguous interpreter df domain detection)
    (hperm : df'.columns.Perm df.columns) :
    (apply interpreter df' domain detection).canonicalDataframe.Perm
      (apply interpreter df domain detection).canonicalDataframe ∧
    (apply interpreter df' domain detection).fieldMappings.Perm
      (apply interpreter df domain detection).fieldMappings ∧
    (apply interpreter df' domain detection).overallStatus =
      (apply interpreter df domain detection).overallStatus := by
  have hfields := SourceFrame.fields_perm interpreter hperm
  have hmissing : missingRequired (requiredFields domain detection)
      ((df'.fields interpreter).filterMap (·.2.claim)) =
      missingRequired (requiredFields domain detection)
        ((df.fields interpreter).filterMap (·.2.claim)) := by
    unfold missingRequired
    refine congrArg _ (filter_congr fun field _ => ?_)
    exact decide_eq_decide.2 (not_congr (hfields.filterMap _).mem_iff)
  have huncertain : ((df'.fields interpreter).any fun field => field.2.isUncertain) =
      (df.fields interpreter).any fun field => field.2.isUncertain := by
    rw [Bool.eq_iff_iff, any_eq_true, any_eq_true]
    simp only [hfields.mem_iff]
  have hframe : (df'.columns.map (renamed (interpreter df'.columns))).Perm
      (df.columns.map (renamed (interpreter df.columns))) := by
    rw [Multiset.coe_eq_coe.2 hperm]
    exact hperm.map _
  rw [(h.perm hperm).apply_eq, h.apply_eq]
  refine ⟨hframe.append ?_, (hfields.map _).append (by rw [hmissing]), ?_⟩
  · have hvalues : (fun entry : String × String =>
        (⟨entry.2, df'.valuesOf entry.1⟩ : Column V)) =
        fun entry => ⟨entry.2, df.valuesOf entry.1⟩ := by
      funext entry
      rw [SourceFrame.valuesOf_perm hperm]
    rw [hvalues]
    have habsent : ∀ entry : String × String,
        decide (entry.2 ∉ (df'.columns.map (renamed (interpreter df'.columns))).map (·.name)) =
        decide (entry.2 ∉ (df.columns.map (renamed (interpreter df.columns))).map (·.name)) := by
      intro entry
      exact decide_eq_decide.2 (not_congr (hframe.map (·.name)).mem_iff)
    simp only [habsent]
    exact ((hfields.filterMap _).filter _).map _
  · simp only [hmissing, huncertain]

theorem not_perm_of_promoted {rest : List (Column V)} {first second : SourceFrame V}
    (hfirst : first.columns = t :: s :: rest) (hsecond : second.columns = s :: t :: rest)
    (hclaim : claimOf interpreter first s = some canonical)
    (hread : readField (interpreter first.columns) t.name = .promoted canonical) :
    ¬ (apply interpreter first domain detection).fieldMappings.Perm
      (apply interpreter second domain detection).fieldMappings := by
  intro hperm
  have hcolumns : (second.columns : Multiset (Column V)) = first.columns := by
    rw [hfirst, hsecond]
    exact Multiset.coe_eq_coe.2 (List.Perm.swap _ _ _)
  -- The promotion comes first, and its row is mapped.
  have hmem : (⟨t.name, some canonical, .autoMapped⟩ : FieldMapping) ∈
      (apply interpreter first domain detection).fieldMappings := by
    refine mem_append_left _ ?_
    rw [SourceFrame.fields, hfirst, map_cons, Progress.run_cons, ← hfirst, hread]
    obtain ⟨rows, -, hrows⟩ :=
      Progress.run_mappings (Progress.record {} (t.name, .promoted canonical))
      ((s :: rest).map fun column => (column.name, readField (interpreter first.columns) column.name))
    rw [hrows]
    exact mem_append_left _ (mem_singleton_self _)
  rw [hperm.mem_iff] at hmem
  -- In the other order its row is the second one.
  obtain ⟨hsnames, hnames⟩ := nodup_cons.1 (show ((s :: t :: rest).map (·.name)).Nodup by
    rw [← hsecond]
    exact second.distinct)
  obtain ⟨htnames, -⟩ := nodup_cons.1 hnames
  rcases mem_append.1 hmem with hmem | hmem
  · rw [SourceFrame.fields, hsecond, map_cons, map_cons, Progress.run_cons,
      Progress.run_cons, ← hsecond, hcolumns, hread] at hmem
    obtain ⟨row, hrow, hrecord⟩ := Progress.record_mappings {}
      (s.name, readField (interpreter first.columns) s.name)
    have hmapped := (Progress.mem_record_mapped {}
      (s.name, readField (interpreter first.columns) s.name) canonical).2 (.inr hclaim)
    generalize Progress.record {} (s.name, readField (interpreter first.columns) s.name) = p
      at hmem hrecord hmapped
    obtain ⟨rows, hrows, hrun⟩ := Progress.run_mappings (p.record (t.name, .promoted canonical))
      (rest.map fun column => (column.name, readField (interpreter first.columns) column.name))
    rw [hrun, p.record_of_contested hmapped, hrecord] at hmem
    rcases mem_append.1 hmem with hmem | hmem
    · rcases mem_append.1 hmem with hmem | hmem
      · obtain rfl := mem_singleton.1 hmem
        exact hsnames (mem_cons.2 (.inl hrow.symm))
      · cases mem_singleton.1 hmem
    · have hsource := mem_map_of_mem (f := FieldMapping.sourceField) hmem
      rw [hrows, map_map] at hsource
      exact htnames hsource
  · obtain ⟨field, -, hfield⟩ := mem_map.1 hmem
    have hstatus := congrArg FieldMapping.mappingStatus hfield
    cases hstatus

/-! ## When the bridge is faithful -/

theorem SourceFrame.exists_orders (hs : s ∈ df.columns) (ht : t ∈ df.columns)
    (hne : s.name ≠ t.name) :
    ∃ (rest : List (Column V)) (first second : SourceFrame V),
      first.columns = t :: s :: rest ∧ second.columns = s :: t :: rest ∧
        first.columns.Perm df.columns ∧ second.columns.Perm df.columns := by
  obtain ⟨before, later, hsplit⟩ := append_of_mem ht
  have htfirst : (t :: (before ++ later)).Perm df.columns := by
    rw [hsplit]
    exact perm_middle.symm
  have hsrest : s ∈ before ++ later := by
    rcases mem_cons.1 (htfirst.mem_iff.2 hs) with rfl | hmem
    · exact absurd rfl hne
    · exact hmem
  obtain ⟨before', later', hsplit'⟩ := append_of_mem hsrest
  have hfirst : (t :: s :: (before' ++ later')).Perm df.columns := by
    refine List.Perm.trans (List.Perm.cons t ?_) htfirst
    rw [hsplit']
    exact perm_middle.symm
  have hsecond : (s :: t :: (before' ++ later')).Perm df.columns :=
    (List.Perm.swap t s _).trans hfirst
  exact ⟨before' ++ later',
    ⟨t :: s :: (before' ++ later'), (hfirst.map (·.name)).nodup_iff.2 df.distinct⟩,
    ⟨s :: t :: (before' ++ later'), (hsecond.map (·.name)).nodup_iff.2 df.distinct⟩,
    rfl, rfl, hfirst, hsecond⟩

theorem FaithfulMapping.promoted_name (h : FaithfulMapping interpreter df domain detection)
    (hs : s ∈ df.columns) (ht : t ∈ df.columns)
    (hclaim : claimOf interpreter df s = some canonical)
    (hread : readField (interpreter df.columns) t.name = .promoted canonical) :
    s.name = t.name := by
  by_contra hne
  obtain ⟨rest, first, second, hfirst, hsecond, hfperm, hsperm⟩ :=
    SourceFrame.exists_orders hs ht hne
  have hcolumns : (first.columns : Multiset (Column V)) = df.columns := Multiset.coe_eq_coe.2 hfperm
  have hfclaim : claimOf interpreter first s = some canonical := by
    rw [claimOf, hcolumns]
    exact hclaim
  have hfread : readField (interpreter first.columns) t.name = .promoted canonical := by
    rw [hcolumns]
    exact hread
  have hrows := (h.permutes first hfperm).2.1.trans (h.permutes second hsperm).2.1.symm
  exact not_perm_of_promoted hfirst hsecond hfclaim hfread hrows

theorem FaithfulMapping.claims (h : FaithfulMapping interpreter df domain detection)
    (hs : s ∈ df.columns) (ht : t ∈ df.columns)
    (hsclaim : claimOf interpreter df s = some canonical)
    (htclaim : claimOf interpreter df t = some canonical) : s.name = t.name := by
  cases hsread : readField (interpreter df.columns) s.name with
  | promoted c =>
    rw [claimOf, hsread] at hsclaim
    cases hsclaim
    exact (h.promoted_name ht hs htclaim hsread).symm
  | known c =>
    rw [claimOf, hsread] at hsclaim
    cases hsclaim
    cases htread : readField (interpreter df.columns) t.name with
    | promoted c' =>
      have hsclaim : claimOf interpreter df s = some canonical := by rw [claimOf, hsread]; rfl
      rw [claimOf, htread] at htclaim
      cases htclaim
      exact h.promoted_name hs ht hsclaim htread
    | known c' =>
      -- Both columns are renamed to the field.
      rw [claimOf, htread] at htclaim
      cases htclaim
      have hnodup : ((df.columns.map (renamed (interpreter df.columns))).map (·.name)).Nodup := by
        exact h.distinct.sublist (Sublist.map _
          (renamed_first interpreter df domain detection).sublist)
      rw [map_map] at hnodup
      refine congrArg _ (inj_on_of_nodup_map hnodup hs ht ?_)
      show (readField (interpreter df.columns) s.name).newName s.name =
        (readField (interpreter df.columns) t.name).newName t.name
      rw [hsread, htread]
      rfl
    | uncertain c' | unread => rw [claimOf, htread] at htclaim; cases htclaim
  | uncertain c | unread => rw [claimOf, hsread] at hsclaim; cases hsclaim

/-- The bridge is faithful exactly where the columns leave it no choice. -/
theorem faithfulMapping_iff (interpreter : Interpreter V) (df : SourceFrame V)
    (domain : Option String) (detection : Option DetectionStatus) :
    FaithfulMapping interpreter df domain detection ↔
      Unambiguous interpreter df domain detection := by
  constructor
  · intro h
    have hclaims : DistinctClaims interpreter df :=
      fun s hs t ht canonical hsclaim htclaim => h.claims hs ht hsclaim htclaim
    have hunreserved : ∀ field ∈ requiredFields domain detection,
        (∀ s ∈ df.columns, claimOf interpreter df s ≠ some field) →
          ∀ s ∈ df.columns, s.name ≠ "<missing:" ++ field ++ ">" :=
      fun field hrequired hunclaimed s hs =>
        (countP_rows hs).1 (h.once s hs) field hrequired hunclaimed
    refine ⟨hclaims, ?_, hunreserved⟩
    intro s hs canonical hread t ht hname hkept
    subst hname
    have hclaim : claimOf interpreter df s = some t.name := by rw [claimOf, hread]; rfl
    -- The row of the promoted column, and the column that kept its name.
    have hrow : (⟨s.name, some t.name, .autoMapped⟩ : FieldMapping) ∈
        (apply interpreter df domain detection).fieldMappings := by
      refine mem_append_left _ ?_
      rw [hclaims.run]
      refine mem_map.2 ⟨_, mem_fields.2 ⟨s, hs, rfl⟩, ?_⟩
      rw [hread]
      rfl
    have hcolumn : t ∈ (apply interpreter df domain detection).canonicalDataframe := by
      apply (renamed_first interpreter df domain detection).subset
      refine mem_map.2 ⟨t, ht, ?_⟩
      rcases (readField (interpreter df.columns) t.name).newName_cases t.name with
        ⟨c, hknown, -⟩ | hname
      · rw [readField_known.1 hknown] at hkept
        cases hkept
      · rw [renamed, hname]
    exact (h.values _ hrow rfl t.name rfl).2 t hcolumn rfl s hs rfl
  · intro h
    refine ⟨?_, ?_, ?_, fun s hs => (countP_rows hs).2 fun field hrequired hunclaimed =>
      h.unreserved field hrequired hunclaimed s hs, fun df' hperm => h.apply_perm hperm⟩
    · exact foldl_addPromoted_nodup df _ (by
        rw [Progress.run_renameMap, nil_append, renameColumns_eq]
        exact h.renamed_nodup)
    · intro m hm hstatus canonical hfield
      obtain ⟨s, hs, hname, hclaim⟩ := h.autoMapped hm hstatus hfield
      constructor
      · intro other hother hostatus hofield
        obtain ⟨t, ht, htname, htclaim⟩ := h.autoMapped hother hostatus hofield
        rw [← htname, ← hname]
        exact h.claims t ht s hs canonical htclaim hclaim
      · rintro column hcolumn rfl source hsource hsname
        rw [← df.eq_of_name hs hsource (hname.trans hsname.symm)]
        exact h.values_eq hs hclaim hcolumn
    · intro s hs t ht hne canonical hsclaim htclaim
      exact absurd (h.claims s hs t ht canonical hsclaim htclaim) hne

namespace TwoIdentifiers

/-- A dataset with a trip and a job, both known names of one field. -/
def frame : SourceFrame String where
  columns := [⟨"trip_id", ["T-1"]⟩, ⟨"job_id", ["J-1"]⟩]
  distinct := by decide

/-- Both columns are called `operational_event_id` in the canonical frame. -/
theorem both_renamed :
    ¬ FaithfulMapping (fun _ _ => none) frame (some "operations") (some .confirmed) := by
  intro h
  have hnames : ((apply (fun _ _ => none) frame (some "operations")
      (some .confirmed)).canonicalDataframe.map (·.name)) =
      ["operational_event_id", "operational_event_id"] := by
    decide +kernel
  have hdistinct := h.distinct
  rw [hnames] at hdistinct
  exact absurd hdistinct (by decide)

end TwoIdentifiers

end Intel4Ops.CaseMapping
