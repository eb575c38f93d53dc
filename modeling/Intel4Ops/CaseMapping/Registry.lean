import Mathlib.Data.String.Basic

/-!
# Canonical fields

A registry lists the canonical fields and the names that customers give them. A column is resolved
by its normalized name, and else by its words, if these leave one canonical field only.
-/

namespace Intel4Ops.CaseMapping

open List

/-! ## Words of a name -/

/-- `_TOKEN_SYNONYMS` -/
def tokenSynonym : String → String
  | "reference" => "id"
  | "ref" => "id"
  | "number" => "id"
  | "num" => "id"
  | "no" => "id"
  | "identifier" => "id"
  | "hrs" => "hours"
  | "hr" => "hours"
  | "qty" => "quantity"
  | "amt" => "amount"
  | token => token

/-- `_SAFE_EXTRA_TOKENS` -/
def safeExtraTokens : List String := ["actual", "reported", "recorded", "source", "customer"]

/-- A line under each small letter or digit that a capital follows. -/
def camelSplit : List Char → List Char
  | a :: b :: rest =>
    if (a.isLower || a.isDigit) && b.isUpper then a :: '_' :: camelSplit (b :: rest)
    else a :: camelSplit (b :: rest)
  | text => text

/-- `str.lower`, as far as it makes letters of the alphabet. -/
def lower (c : Char) : List Char :=
  if c = '\u212a' then ['k'] else if c = '\u0130' then ['i', '\u0307'] else [c.toLower]

/-- `_split_tokens`; surrounding blanks are separators like all others. -/
def splitTokens (name : String) : List String :=
  let text := (camelSplit name.toList).flatMap lower
  ((text.splitOnP fun c => !c.isAlphanum).filter (· ≠ [])).map fun token =>
    tokenSynonym (String.ofList token)

/-- `_normalize` -/
def normalize (name : String) : String := "_".intercalate (splitTokens name)

/-! ## The registry -/

/-- `CANONICAL_FIELD_ALIASES` -/
def canonicalFieldAliases : List (String × List String) :=
  [("asset_id",
      ["asset_id", "asset_ref", "asset_number", "vehicle_id", "vehicle_ref", "vehicle_number",
       "equipment_id", "equipment_ref", "equipment_number", "machine_id", "machine_ref",
       "machine_number", "unit_id", "unit_ref", "pump_id", "compressor_id", "bus_number"]),
    ("failure_code", ["failure_code", "failure_type", "defect_code", "fault_code", "issue_code"]),
    ("downtime_hours",
      ["downtime_hours", "downtime_hrs", "down_hours", "downtime", "outage_hours", "outage_hrs"]),
    ("repair_cost",
      ["repair_cost", "repair_amount", "maintenance_cost", "maintenance_cost_cfa",
       "maintenance_amount", "service_cost"]),
    ("operational_event_id",
      ["operational_event_id", "trip_id", "job_id", "job_ref", "job_number", "service_ticket_id",
       "service_order_id", "production_order_id", "work_order_id", "work_order_ref",
       "work_order_number", "dispatch_id", "dispatch_ref"]),
    ("operational_event_status", ["status", "trip_status", "job_status", "work_order_status"]),
    ("activity_category",
      ["event_type", "activity_type", "service_type", "maintenance_type", "work_type"]),
    ("operational_event_start",
      ["start_time", "start_date", "started_at", "scheduled_start", "trip_start", "job_start",
       "dispatch_date"]),
    ("operational_event_end",
      ["end_time", "end_date", "ended_at", "completed_at", "scheduled_end", "trip_end",
       "job_end", "return_date"]),
    ("fuel_quantity", ["fuel_quantity", "fuel_qty", "fuel_volume", "fuel_liters", "fuel_gallons"]),
    ("transaction_amount",
      ["amount", "revenue_amount", "fare", "invoice_amount", "invoice_total", "billed_amount",
       "bill_amount", "customer_invoice"]),
    ("route_id", ["route_id", "route_ref", "route"]),
    ("depot_id", ["depot_id", "depot_ref", "depot", "location_id", "location_ref"]),
    ("event_date",
      ["event_date", "date", "occurred_at", "failure_date", "transaction_date", "invoice_date",
       "service_date", "work_date", "event_timestamp", "timestamp"]),
    ("invoice_id", ["invoice_id", "invoice_ref", "invoice_number", "bill_id", "bill_number"]),
    ("customer_id", ["customer_id", "customer_ref", "client_id", "client_ref", "account_id"]),
    ("employee_id",
      ["employee_id", "employee_ref", "technician_id", "technician_ref", "worker_id",
       "worker_ref"]),
    ("labor_hours", ["labor_hours", "labor_hrs", "worked_hours", "hours_worked", "time_hours"]),
    ("quantity", ["quantity", "qty", "units", "unit_count"]),
    ("unit_rate", ["unit_rate", "hourly_rate", "labor_rate", "rate_per_hour", "unit_price"]),
    ("cost_amount", ["cost_amount", "total_cost", "actual_cost"])]

def canonicalFields : List String := canonicalFieldAliases.map (·.1)

/-- The words of a column are those of a known name, but for harmless ones. -/
def TokensMatch (source known : List String) : Prop :=
  known ≠ [] ∧ (∀ token ∈ known, token ∈ source) ∧
    ∀ token ∈ source, token ∈ known ∨ token ∈ safeExtraTokens

instance (source known : List String) : Decidable (TokensMatch source known) :=
  inferInstanceAs (Decidable (_ ∧ _ ∧ _))

/-- `_infer_unique_token_match` -/
def inferUniqueTokenMatch (sourceField : String) : Option String :=
  let source := splitTokens sourceField
  if source = [] then none
  else
    let candidates := canonicalFieldAliases.filter fun entry =>
      (entry.1 :: entry.2).any fun known => TokensMatch source (splitTokens known)
    match candidates with
    | [entry] => some entry.1
    | _ => none

/-- `canonicalize_field` -/
def canonicalizeField (sourceField : String) : Option String :=
  let normalized := normalize sourceField
  if normalized ∈ canonicalFields then some normalized
  else
    match canonicalFieldAliases.find? fun entry => normalized ∈ entry.2.map normalize with
    | some entry => some entry.1
    | none => inferUniqueTokenMatch sourceField

variable {canonical sourceField : String}

theorem inferUniqueTokenMatch_mem (h : inferUniqueTokenMatch sourceField = some canonical) :
    canonical ∈ canonicalFields := by
  simp only [inferUniqueTokenMatch] at h
  split at h
  · cases h
  · split at h
    · rename_i entry hentry
      cases h
      have hmem : entry ∈ [entry] := mem_singleton_self entry
      rw [← hentry] at hmem
      exact mem_map_of_mem (mem_filter.1 hmem).1
    · cases h

theorem canonicalizeField_mem (h : canonicalizeField sourceField = some canonical) :
    canonical ∈ canonicalFields := by
  simp only [canonicalizeField] at h
  split at h
  · rename_i hmem
    cases h
    exact hmem
  · split at h
    · rename_i entry hentry
      cases h
      exact mem_map_of_mem (mem_of_find?_eq_some hentry)
    · exact inferUniqueTokenMatch_mem h

theorem normalize_canonical : ∀ canonical ∈ canonicalFields, normalize canonical = canonical := by
  decide +kernel

theorem canonicalizeField_self (h : canonical ∈ canonicalFields) :
    canonicalizeField canonical = some canonical := by
  simp only [canonicalizeField, normalize_canonical canonical h]
  exact if_pos h

end Intel4Ops.CaseMapping
