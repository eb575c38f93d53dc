import Intel4Ops.Lib.Binary64
import Intel4Ops.Lib.Ident
import Intel4Ops.Lib.Special
import Intel4Ops.Trust.Readiness
import Mathlib.Data.Finset.Card

/-!
# Trust rules

The ten rules of `app/engines/trust_engine.py` over records of JSON values. Whatever the order of the
records is, a rule fails, or it has one outcome that counts the records that violate it.
-/

namespace Intel4Ops.Trust

open Lib List Except

/-! ## Values -/

/-- A JSON value, where integers are told from other numbers. -/
inductive Value
  | null
  | bool (b : Bool)
  | int (n : ℤ)
  | float (x : ℚ)
  | str (s : String)
  | arr (items : List Value)
  | obj (fields : List (String × Value))

/-- A dictionary. -/
abbrev Record := List (String × Value)

abbrev RuleConfig := List (String × Value)

inductive RuleError
  | keyError
  | valueError
  | typeError
  | overflowError
  deriving DecidableEq

/-- What the rules take from Python's library. -/
structure Env where
  /-- `str(value)` of a value that is no string -/
  text : Value → String
  upper : String → String
  /-- `not value.strip()` -/
  isBlank : String → Bool
  /-- `datetime.fromisoformat(value.replace("Z", "+00:00"))`, without an offset in UTC -/
  fromisoformat : String → Option Instant
  /-- `Decimal(text)` -/
  decimal : String → Option Special
  /-- `float(text)` -/
  floatOfText : String → Option Special
  floatOfInt : ℤ → Option ℚ
  intOfText : String → Option ℤ
  /-- `now - timedelta(days=days)` -/
  earlier : Instant → ℤ → Option Instant

namespace Value

def isNull : Value → Bool
  | null => true
  | _ => false

/-- The value as a member of a set, if it can be hashed. -/
def scalar? : Value → Option Scalar
  | null => some .null
  | bool b => some (.num (if b then 1 else 0))
  | int n => some (.num n)
  | float x => some (.num x)
  | str s => some (.str s)
  | _ => none

/-- `not value` -/
def falsy : Value → Bool
  | null => true
  | bool b => !b
  | int n => n == 0
  | float x => x == 0
  | str s => s == ""
  | arr items => items.isEmpty
  | obj fields => fields.isEmpty

/-- `isinstance(value, type_map[name])`, and nothing is of an unknown type. -/
def isInstance : Value → String → Bool
  | bool _, name => name == "integer" || name == "number" || name == "boolean"
  | int _, name => name == "integer" || name == "number"
  | float _, name => name == "number"
  | str _, name => name == "string"
  | arr _, name => name == "array"
  | obj _, name => name == "object"
  | null, _ => false

end Value

/-- `record.get(field)` -/
def fieldOf (record : Record) (field : String) : Value := (record.lookup field).getD .null

namespace Env

variable (env : Env)

def str : Value → String
  | .str s => s
  | value => env.text value

/-- `_as_float` -/
def asFloat : Value → Except RuleError Special
  | .bool b => .ok (.finite (if b then 1 else 0))
  | .int n => (orFail (env.floatOfInt n) .overflowError).map .finite
  | .float x => .ok (.finite x)
  | .str s => orFail (env.floatOfText s) .valueError
  | _ => .error .valueError

/-- `_as_int` -/
def asInt : Value → Except RuleError ℤ
  | .bool b => .ok (if b then 1 else 0)
  | .int n => .ok n
  | .str s => orFail (env.intOfText s) .valueError
  | _ => .error .valueError

/-- `Decimal(str(value))` -/
def toDecimal (value : Value) : Except Signal Special :=
  orFail (env.decimal (env.str value)) .invalidOperation

/-- `_parse_datetime` -/
def parseDatetime : Value → Option Instant
  | .str s => env.fromisoformat s
  | _ => none

/-- Neither null nor blank is what a required field may be. -/
def blank : Value → Bool
  | .null => true
  | .str s => env.isBlank s
  | _ => false

end Env

/-- `_as_list` -/
def asList : Value → Except RuleError (List Value)
  | .arr items => .ok items
  | _ => .error .valueError

/-- `_as_dict` -/
def asDict : Value → Except RuleError (List (String × Value))
  | .obj fields => .ok fields
  | _ => .error .valueError

/-- `config[key]` -/
def required (config : RuleConfig) (key : String) : Except RuleError Value :=
  orFail (config.lookup key) .keyError

/-- `str(config[key])` -/
def textOf (env : Env) (config : RuleConfig) (key : String) : Except RuleError String :=
  (required config key).map env.str

/-- `[str(item) for item in _as_list(config[key])]` -/
def textsOf (env : Env) (config : RuleConfig) (key : String) : Except RuleError (List String) := do
  let items ← asList (← required config key)
  return items.map env.str

/-! ## Outcomes -/

/-- `_as_float(config.get("maximum_affected_percentage", default))` -/
def maximumOf (env : Env) (config : RuleConfig) (default : ℚ) : Except RuleError Special :=
  match config.lookup "maximum_affected_percentage" with
  | some value => env.asFloat value
  | none => .ok (.finite default)

def percentageOf (checked affected : ℕ) : Double :=
  if checked = 0 then 0 else .nearest (affected * 100 / checked)

/-- `percentage <= maximum` -/
def Within (percentage : Double) : Special → Prop
  | .finite maximum => percentage.value ≤ maximum
  | .infinite negative => negative = false
  | .nan _ => False

instance (percentage : Double) : (maximum : Special) → Decidable (Within percentage maximum)
  | .finite maximum => inferInstanceAs (Decidable (percentage.value ≤ maximum))
  | .infinite negative => inferInstanceAs (Decidable (negative = false))
  | .nan _ => isFalse id

/-- `BaseTrustRule._outcome`, in the arithmetic of doubles. -/
def ruleOutcome (checked affected : ℕ) (maximum : Special) : RuleOutcome where
  status :=
    if affected = 0 then .passed
    else if Within (percentageOf checked affected) maximum then .warning
    else .failed
  checkedCount := checked
  affectedCount := affected
  score := some (Double.round (max 0 (100 - percentageOf checked affected)) 2).value

/-- A rule reads its configuration, counts the affected records, and then reads the maximum. -/
def execute {α : Type} (env : Env) (config : RuleConfig) (default : ℚ) (read : Except RuleError α)
    (count : α → List Record → Except RuleError ℕ) (records : List Record) :
    Except RuleError RuleOutcome := do
  let settings ← read
  let affected ← count settings records
  let maximum ← maximumOf env config default
  return ruleOutcome records.length affected maximum

/-! ## Loops -/

/-- The loops over records and their fields: the indices of the records with a bad field. -/
def markFields {β : Type} (check : Record → β → Except RuleError Bool) (fields : List β)
    (records : List Record) : Except RuleError ℕ :=
  (records.zipIdx.foldlM (fun affected entry => fields.foldlM (fun affected field =>
    (check entry.1 field).map fun bad => if bad then insert entry.2 affected else affected)
      affected) (∅ : Finset ℕ)).map Finset.card

/-- The loops over records. -/
def countRecords (check : Record → Except RuleError Bool) (records : List Record) :
    Except RuleError ℕ :=
  (records.mapM check).map (·.count true)

/-- The key of a record: the values of fields, each with what it is in a set. -/
abbrev Key := List (Option Scalar)

def keyOf (fields : List String) (record : Record) : Key :=
  fields.map fun field => (fieldOf record field).scalar?

/-- One step with a set of keys that were seen before and a count of the keys among them. -/
def see (considered : Record → Bool) (fields : List String) (s : Finset Key × ℕ)
    (record : Record) : Except RuleError (Finset Key × ℕ) :=
  if none ∈ keyOf fields record then .error .typeError
  else .ok (insert (keyOf fields record) s.1,
    if considered record = true ∧ keyOf fields record ∈ s.1 then s.2 + 1 else s.2)

def countRepeats (considered : Record → Bool) (fields : List String) (records : List Record) :
    Except RuleError ℕ :=
  (records.foldlM (see considered fields) (∅, 0)).map Prod.snd

/-! ## The rules -/

section Rules

variable (env : Env) (now : Instant) (config : RuleConfig)

/-- `RequiredFieldCompletenessRule` -/
def requiredFieldCompleteness : List Record → Except RuleError RuleOutcome :=
  execute env config 0 (textsOf env config "required_fields")
    (markFields fun record field => .ok (env.blank (fieldOf record field)))

/-- `PrimaryIdentifierUniquenessRule` -/
def primaryIdentifierUniqueness : List Record → Except RuleError RuleOutcome :=
  execute env config 0 (textOf env config "identifier_field") fun field =>
    countRepeats (fun record => !(fieldOf record field).isNull) [field]

/-- The field of a reference, and the references that there are. -/
def referencesOf : Except RuleError (String × List Scalar) := do
  let field ← textOf env config "reference_field"
  let items ← asList (← required config "valid_references")
  let valid ← items.mapM fun item => orFail item.scalar? .typeError
  return (field, valid)

/-- `value is not None and value not in valid` -/
def dangling (valid : List Scalar) (value : Value) : Except RuleError Bool :=
  (orFail value.scalar? .typeError).map fun s => Decidable.decide (s ≠ .null ∧ s ∉ valid)

/-- `ReferentialIntegrityRule` -/
def referentialIntegrity : List Record → Except RuleError RuleOutcome :=
  execute env config 0 (referencesOf env config) fun references =>
    countRecords fun record => dangling references.2 (fieldOf record references.1)

/-- A timestamp that cannot be read, or that lies outside the bounds. -/
def invalidDate (value : Value) : Bool :=
  match env.parseDatetime value with
  | none => !value.isNull
  | some t => (env.parseDatetime (fieldOf config "minimum_date")).any (t < ·) ||
      (env.parseDatetime (fieldOf config "maximum_date")).getD now < t

/-- `DateTimestampValidityRule` -/
def dateTimestampValidity : List Record → Except RuleError RuleOutcome :=
  execute env config 0 (textsOf env config "date_fields")
    (markFields fun record field => .ok (invalidDate env now config (fieldOf record field)))

/-- A comparison with a bound that may be missing. -/
def beyond (lt : Special → Except Signal Bool) (bound : Option Value) : Except Signal Bool :=
  match bound with
  | none => .ok false
  | some value => env.toDecimal value >>= lt

/-- A number outside its bounds, or no number; a null is passed over with its bounds. -/
def outOfRange (bounds value : Value) : Except RuleError Bool :=
  if value.isNull then .ok false
  else (asDict bounds).map fun limits =>
    let invalid := do
      let numeric ← env.toDecimal value
      let low ← beyond env (Special.lt numeric) (limits.lookup "minimum")
      if low then .ok true
      else beyond env (fun limit => Special.lt limit numeric) (limits.lookup "maximum")
    invalid.toOption.getD true

/-- `NumericRangeValidityRule` -/
def numericRangeValidity : List Record → Except RuleError RuleOutcome :=
  execute env config 0 (required config "numeric_ranges" >>= asDict)
    (markFields fun record range => outOfRange env range.2 (fieldOf record range.1))

/-- `default_codes` -/
def defaultCodes : List String :=
  ["USD", "EUR", "GBP", "CAD", "AUD", "JPY", "CHF", "CNY", "INR", "MXN", "BRL"]

/-- The fields with currencies, and the codes in capitals. -/
def currenciesOf : Except RuleError (List String × List String) := do
  let fields ← textsOf env config "currency_fields"
  let codes ← match config.lookup "valid_currency_codes" with
    | some value => (asList value).map (·.map env.str)
    | none => .ok defaultCodes
  return (fields, codes.map env.upper)

def invalidCurrency (valid : List String) (value : Value) : Bool :=
  !value.isNull && Decidable.decide (env.upper (env.str value) ∉ valid)

/-- `CurrencyCodeValidityRule` -/
def currencyCodeValidity : List Record → Except RuleError RuleOutcome :=
  execute env config 0 (currenciesOf env config) fun currencies =>
    markFields (fun record field => .ok (invalidCurrency env currencies.2 (fieldOf record field)))
      currencies.1

/-- The field of a timestamp, and the oldest fresh one. -/
def freshnessOf : Except RuleError (String × Instant) := do
  let field ← textOf env config "timestamp_field"
  let days ← env.asInt (← required config "maximum_age_days")
  let cutoff ← orFail (env.earlier now days) .overflowError
  return (field, cutoff)

def stale (cutoff : Instant) (value : Value) : Bool := (env.parseDatetime value).all (· < cutoff)

/-- `RecordFreshnessRule` -/
def recordFreshness : List Record → Except RuleError RuleOutcome :=
  execute env config 10 (freshnessOf env now config) fun freshness =>
    countRecords fun record => .ok (stale env freshness.2 (fieldOf record freshness.1))

/-- `LineageCompletenessRule` -/
def lineageCompleteness : List Record → Except RuleError RuleOutcome :=
  execute env config 0 (textsOf env config "lineage_fields") fun fields =>
    countRecords fun record => .ok (fields.any fun field => (fieldOf record field).falsy)

/-- `DuplicateBusinessEventRule` -/
def duplicateBusinessEvent : List Record → Except RuleError RuleOutcome :=
  execute env config 0 (textsOf env config "composite_key_fields") (countRepeats fun _ => true)

/-- `SchemaConformanceRule` -/
def schemaConformance : List Record → Except RuleError RuleOutcome :=
  execute env config 0 (required config "expected_schema" >>= asDict)
    (markFields fun record expected =>
      .ok !((fieldOf record expected.1).isInstance (env.str expected.2)))

end Rules

/-- The codes of the rules. -/
inductive TrustRule
  | requiredFieldCompleteness
  | primaryIdentifierUniqueness
  | referentialIntegrity
  | dateTimestampValidity
  | numericRangeValidity
  | currencyCodeValidity
  | recordFreshness
  | lineageCompleteness
  | duplicateBusinessEvent
  | schemaConformance
  deriving DecidableEq

namespace TrustRule

/-- `rule.execute(records, config, now)` -/
def run (env : Env) (now : Instant) (config : RuleConfig) :
    TrustRule → List Record → Except RuleError RuleOutcome
  | requiredFieldCompleteness => Trust.requiredFieldCompleteness env config
  | primaryIdentifierUniqueness => Trust.primaryIdentifierUniqueness env config
  | referentialIntegrity => Trust.referentialIntegrity env config
  | dateTimestampValidity => Trust.dateTimestampValidity env now config
  | numericRangeValidity => Trust.numericRangeValidity env config
  | currencyCodeValidity => Trust.currencyCodeValidity env config
  | recordFreshness => Trust.recordFreshness env now config
  | lineageCompleteness => Trust.lineageCompleteness env config
  | duplicateBusinessEvent => Trust.duplicateBusinessEvent env config
  | schemaConformance => Trust.schemaConformance env config

/-- The maximum where the configuration has none. -/
def defaultMaximum : TrustRule → ℚ
  | recordFreshness => 10
  | _ => 0

/-- The record violates the condition that the rule states. -/
def Violates (env : Env) (now : Instant) (config : RuleConfig) (record : Record) : TrustRule → Prop
  | requiredFieldCompleteness => ∃ fields, textsOf env config "required_fields" = .ok fields ∧
      ∃ field ∈ fields, env.blank (fieldOf record field) = true
  | referentialIntegrity => ∃ references, referencesOf env config = .ok references ∧
      dangling references.2 (fieldOf record references.1) = .ok true
  | dateTimestampValidity => ∃ fields, textsOf env config "date_fields" = .ok fields ∧
      ∃ field ∈ fields, invalidDate env now config (fieldOf record field) = true
  | numericRangeValidity => ∃ ranges, required config "numeric_ranges" >>= asDict = .ok ranges ∧
      ∃ range ∈ ranges, outOfRange env range.2 (fieldOf record range.1) = .ok true
  | currencyCodeValidity => ∃ currencies, currenciesOf env config = .ok currencies ∧
      ∃ field ∈ currencies.1, invalidCurrency env currencies.2 (fieldOf record field) = true
  | recordFreshness => ∃ freshness, freshnessOf env now config = .ok freshness ∧
      stale env freshness.2 (fieldOf record freshness.1) = true
  | lineageCompleteness => ∃ fields, textsOf env config "lineage_fields" = .ok fields ∧
      ∃ field ∈ fields, (fieldOf record field).falsy = true
  | schemaConformance => ∃ schema, required config "expected_schema" >>= asDict = .ok schema ∧
      ∃ expected ∈ schema, (fieldOf record expected.1).isInstance (env.str expected.2) = false
  | _ => False

/-- The keys that a uniqueness rule considers. -/
def Considers (env : Env) (config : RuleConfig) (records : List Record) (keys : List Key) :
    TrustRule → Prop
  | primaryIdentifierUniqueness => ∃ field, textOf env config "identifier_field" = .ok field ∧
      keys = (records.filter fun record => !(fieldOf record field).isNull).map (keyOf [field])
  | duplicateBusinessEvent => ∃ fields, textsOf env config "composite_key_fields" = .ok fields ∧
      keys = records.map (keyOf fields)
  | _ => False

/-- The number that a rule is to count: the repeated keys, or the records with a violation. -/
def Counts (env : Env) (now : Instant) (config : RuleConfig) (records : List Record)
    (affected : ℕ) (rule : TrustRule) : Prop :=
  if rule = primaryIdentifierUniqueness ∨ rule = duplicateBusinessEvent then
    ∃ keys, rule.Considers env config records keys ∧ affected + keys.toFinset.card = keys.length
  else ∃ violates : Record → Bool,
    (∀ record ∈ records, violates record = true ↔ rule.Violates env now config record) ∧
      affected = records.countP violates

/-- The rule fails on every order of the records, or has one outcome on all of them. -/
def Steady (env : Env) (now : Instant) (config : RuleConfig) (records : List Record)
    (rule : TrustRule) (P : RuleOutcome → Prop) : Prop :=
  (∀ records', records'.Perm records → ∃ e, rule.run env now config records' = .error e) ∨
    ∃ outcome, (∀ records', records'.Perm records →
      rule.run env now config records' = .ok outcome) ∧ P outcome

/-- What an outcome says of the records, where `fails` is when the rule is failed. -/
structure Counted (env : Env) (now : Instant) (config : RuleConfig) (records : List Record)
    (rule : TrustRule) (fails : ℕ → Double → Special → Prop) (outcome : RuleOutcome) : Prop where
  checked : outcome.checkedCount = records.length
  affected_le : outcome.affectedCount ≤ outcome.checkedCount
  counts : rule.Counts env now config records outcome.affectedCount
  passed : outcome.status = .passed ↔ outcome.affectedCount = 0
  failed : ∃ maximum, maximumOf env config rule.defaultMaximum = .ok maximum ∧
    (outcome.status = .failed ↔ fails outcome.affectedCount
      (percentageOf outcome.checkedCount outcome.affectedCount) maximum)

end TrustRule

/-! ## The loops count -/

/-- A count that succeeds for every order of the records or for none, with one result. -/
structure Tallies (count : List Record → Except RuleError ℕ) (tally : List Record → ℕ) : Prop where
  succeeds : ∀ {records records' n}, records.Perm records' → count records = .ok n →
    ∃ n', count records' = .ok n'
  eq : ∀ {records n}, count records = .ok n → n = tally records
  perm : ∀ {records records'}, records.Perm records' → tally records = tally records'
  le : ∀ records, tally records ≤ records.length

/-- What a check says where it does not fail. -/
def holds (check : Record → Except RuleError Bool) (record : Record) : Bool :=
  (check record).toOption.getD false

theorem tallies_countRecords (check : Record → Except RuleError Bool) :
    Tallies (countRecords check) fun records => records.countP (holds check) where
  succeeds := by
    intro records records' n hperm h
    obtain ⟨found, hfound, -⟩ := map_eq_ok.1 h
    obtain ⟨found', hfound', -⟩ := exists_mapM_perm hperm hfound
    exact ⟨_, map_eq_ok.2 ⟨found', hfound', rfl⟩⟩
  eq := by
    intro records n h
    obtain ⟨found, hfound, rfl⟩ := map_eq_ok.1 h
    clear h
    induction records generalizing found with
    | nil =>
      obtain rfl := pure_eq_ok.1 hfound
      rfl
    | cons record records ih =>
      rw [mapM_cons] at hfound
      obtain ⟨b, hb, hfound⟩ := bind_eq_ok.1 hfound
      obtain ⟨rest, hrest, hfound⟩ := bind_eq_ok.1 hfound
      obtain rfl := pure_eq_ok.1 hfound
      have hholds : holds check record = b := by rw [holds, hb]; rfl
      rw [count_cons, ih rest hrest, countP_cons, hholds]
      cases b <;> rfl
  perm := fun hperm => hperm.countP_eq _
  le := fun records => countP_le_length

/-- A field of the record is bad. -/
def anyField {β : Type} (check : Record → β → Except RuleError Bool) (fields : List β)
    (record : Record) : Except RuleError Bool :=
  fields.foldlM (fun bad field => (check record field).map (bad || ·)) false

theorem anyField_eq {β : Type} {check : Record → β → Except RuleError Bool} {fields : List β}
    {record : Record} {b₀ b : Bool}
    (h : fields.foldlM (fun bad field => (check record field).map (bad || ·)) b₀ = .ok b) :
    b = true ↔ b₀ = true ∨ ∃ field ∈ fields, check record field = .ok true := by
  induction fields generalizing b₀ with
  | nil =>
    obtain rfl := pure_eq_ok.1 h
    simp
  | cons field fields ih =>
    rw [foldlM_cons] at h
    obtain ⟨b₁, hb₁, h⟩ := bind_eq_ok.1 h
    obtain ⟨bad, hbad, rfl⟩ := map_eq_ok.1 hb₁
    rw [ih h, Bool.or_eq_true, or_assoc]
    simp only [mem_cons, exists_eq_or_imp, hbad, ok.injEq]

theorem foldlM_insert {β : Type} (check : Record → β → Except RuleError Bool) (fields : List β)
    (record : Record) (index : ℕ) (affected : Finset ℕ) (b₀ : Bool) :
    fields.foldlM (fun affected field => (check record field).map fun bad =>
        if bad then insert index affected else affected)
        (if b₀ then insert index affected else affected) =
      (fields.foldlM (fun bad field => (check record field).map (bad || ·)) b₀).map fun b =>
        if b then insert index affected else affected := by
  induction fields generalizing b₀ with
  | nil => rfl
  | cons field fields ih =>
    rw [foldlM_cons, foldlM_cons]
    cases check record field with
    | error e => rfl
    | ok bad =>
      refine Eq.trans ?_ (ih (b₀ || bad))
      show fields.foldlM _ (if bad then _ else _) = _
      congr 1
      cases b₀ <;> cases bad <;> simp

theorem markFields_eq {β : Type} (check : Record → β → Except RuleError Bool) (fields : List β) :
    markFields check fields = countRecords (anyField check fields) := by
  funext records
  have hloop : ∀ (records : List Record) (k : ℕ) (affected : Finset ℕ), (∀ i ∈ affected, i < k) →
      ((records.zipIdx k).foldlM (fun affected entry => fields.foldlM (fun affected field =>
        (check entry.1 field).map fun bad => if bad then insert entry.2 affected else affected)
          affected) affected).map Finset.card =
        (records.mapM (anyField check fields)).map (affected.card + ·.count true) := by
    intro records
    induction records with
    | nil => exact fun k affected _ => rfl
    | cons record records ih =>
      intro k affected hbelow
      rw [zipIdx_cons, foldlM_cons, mapM_cons]
      have hfields := foldlM_insert check fields record k affected false
      rw [if_neg Bool.false_ne_true] at hfields
      dsimp only
      rw [hfields, ← anyField]
      cases anyField check fields record with
      | error e => rfl
      | ok b =>
        have hbelow' : ∀ i ∈ if b then insert k affected else affected, i < k + 1 := by
          intro i hi
          cases b with
          | false => exact Nat.lt_succ_of_lt (hbelow i hi)
          | true =>
            rcases Finset.mem_insert.1 hi with rfl | hi
            · exact Nat.lt_succ_self _
            · exact Nat.lt_succ_of_lt (hbelow i hi)
        have hcard : (if b then insert k affected else affected).card =
            affected.card + if b then 1 else 0 := by
          cases b with
          | false => rfl
          | true => exact Finset.card_insert_of_notMem fun hk => (hbelow k hk).false
        refine (ih (k + 1) _ hbelow').trans ?_
        show _ = ((records.mapM _ >>= _ : Except _ _)).map _
        cases records.mapM (anyField check fields) with
        | error e => rfl
        | ok found =>
          show ok _ = ok (affected.card + List.count true (b :: found))
          rw [hcard, count_cons]
          cases b with
          | false => rfl
          | true =>
            show ok (affected.card + 1 + _) = ok (affected.card + (_ + 1))
            rw [Nat.add_right_comm, Nat.add_assoc]
  have h := hloop records 0 ∅ fun i hi => absurd hi (Finset.notMem_empty i)
  simp only [Finset.card_empty, Nat.zero_add] at h
  exact h

/-- The keys of the records that are considered. -/
def consideredKeys (considered : Record → Bool) (fields : List String) (records : List Record) :
    List Key :=
  (records.filter considered).map (keyOf fields)

section Repeats

variable {considered : Record → Bool} {fields : List String} {records records' : List Record}

variable {s s' : Finset Key × ℕ}

theorem see_ok {record : Record} (h : see considered fields s record = .ok s') :
    none ∉ keyOf fields record ∧ s' = (insert (keyOf fields record) s.1,
      if considered record = true ∧ keyOf fields record ∈ s.1 then s.2 + 1 else s.2) := by
  rw [see] at h
  split at h
  · cases h
  · next hkey => exact ⟨hkey, (ok.inj h).symm⟩

theorem see_loop (hkey : ∀ r r', keyOf fields r = keyOf fields r' → considered r = considered r')
    (h : records.foldlM (see considered fields) s = .ok s') :
    (∀ record ∈ records, none ∉ keyOf fields record) ∧
      s'.2 + ((consideredKeys considered fields records).toFinset \ s.1).card =
        s.2 + (consideredKeys considered fields records).length := by
  induction records generalizing s with
  | nil =>
    obtain rfl := pure_eq_ok.1 h
    exact ⟨fun _ hr => absurd hr not_mem_nil, by simp [consideredKeys]⟩
  | cons record records ih =>
    rw [foldlM_cons] at h
    obtain ⟨s₁, hs₁, h⟩ := bind_eq_ok.1 h
    obtain ⟨hhashed, rfl⟩ := see_ok hs₁
    obtain ⟨hrest, hcount⟩ := ih h
    refine ⟨forall_mem_cons.2 ⟨hhashed, hrest⟩, ?_⟩
    dsimp only at hcount
    rw [Finset.sdiff_insert] at hcount
    cases hconsidered : considered record with
    | false =>
      have hnot : keyOf fields record ∉
          (consideredKeys considered fields records).toFinset \ s.1 := by
        intro hmem
        obtain ⟨r, hr, heq⟩ := mem_map.1 (mem_toFinset.1 (Finset.mem_sdiff.1 hmem).1)
        have hsame := (hkey r record heq).symm.trans (mem_filter.1 hr).2
        exact Bool.false_ne_true (hconsidered.symm.trans hsame)
      rw [Finset.erase_eq_of_notMem hnot, if_neg (by simp [hconsidered])] at hcount
      rwa [consideredKeys, filter_cons_of_neg (by simp [hconsidered]), ← consideredKeys]
    | true =>
      rw [consideredKeys, filter_cons_of_pos hconsidered, map_cons, ← consideredKeys,
        toFinset_cons, length_cons]
      by_cases hseen : keyOf fields record ∈ s.1
      · have hnot : keyOf fields record ∉
            (consideredKeys considered fields records).toFinset \ s.1 :=
          fun hmem => (Finset.mem_sdiff.1 hmem).2 hseen
        rw [Finset.erase_eq_of_notMem hnot, if_pos ⟨hconsidered, hseen⟩] at hcount
        rw [Finset.insert_sdiff_of_mem _ hseen]
        omega
      · rw [if_neg fun hboth => hseen hboth.2] at hcount
        rw [Finset.insert_sdiff_of_notMem _ hseen]
        have hcard := Finset.card_erase_add_one (Finset.mem_insert_self (keyOf fields record)
          ((consideredKeys considered fields records).toFinset \ s.1))
        rw [Finset.erase_insert_eq_erase] at hcard
        omega

theorem tallies_countRepeats
    (hkey : ∀ r r', keyOf fields r = keyOf fields r' → considered r = considered r') :
    Tallies (countRepeats considered fields) fun records =>
      (consideredKeys considered fields records).length -
        (consideredKeys considered fields records).toFinset.card where
  succeeds := by
    intro records records' n hperm h
    obtain ⟨s, hs, -⟩ := map_eq_ok.1 h
    have hhashed := (see_loop hkey hs).1
    have hloop : ∀ (records : List Record) (s : Finset Key × ℕ),
        (∀ record ∈ records, none ∉ keyOf fields record) →
          ∃ s', records.foldlM (see considered fields) s = .ok s' := by
      intro records
      induction records with
      | nil => exact fun s _ => ⟨s, rfl⟩
      | cons record records ih =>
        intro s hall
        rw [foldlM_cons, see, if_neg (hall record mem_cons_self)]
        exact ih _ fun r hr => hall r (mem_cons_of_mem _ hr)
    obtain ⟨s', hs'⟩ := hloop records' (∅, 0) fun r hr => hhashed r (hperm.mem_iff.2 hr)
    exact ⟨s'.2, map_eq_ok.2 ⟨s', hs', rfl⟩⟩
  eq := by
    intro records n h
    obtain ⟨s, hs, rfl⟩ := map_eq_ok.1 h
    have hcount := (see_loop hkey hs).2
    dsimp only at hcount
    rw [Finset.sdiff_empty] at hcount
    omega
  perm := by
    intro records records' hperm
    have hkeys : (consideredKeys considered fields records).Perm
        (consideredKeys considered fields records') := (hperm.filter _).map _
    rw [hkeys.length_eq, toFinset_eq_of_perm _ _ hkeys]
  le := by
    intro records
    refine (Nat.sub_le _ _).trans ?_
    rw [consideredKeys, length_map]
    exact length_filter_le _ _

end Repeats

/-! ## Every rule -/

section Steady

variable {env : Env} {now : Instant} {config : RuleConfig} {records records' : List Record}
  {α β : Type} {read : Except RuleError α} {count : α → List Record → Except RuleError ℕ}
  {tally : α → List Record → ℕ} {default : ℚ} {n : ℕ}

theorem execute_ok {outcome : RuleOutcome}
    (h : execute env config default read count records = .ok outcome) :
    ∃ a affected maximum, read = .ok a ∧ count a records = .ok affected ∧
      maximumOf env config default = .ok maximum ∧
      outcome = ruleOutcome records.length affected maximum := by
  obtain ⟨a, hread, h⟩ := bind_eq_ok.1 h
  obtain ⟨affected, hcount, h⟩ := bind_eq_ok.1 h
  obtain ⟨maximum, hmaximum, h⟩ := bind_eq_ok.1 h
  exact ⟨a, affected, maximum, hread, hcount, hmaximum, (pure_eq_ok.1 h).symm⟩

theorem execute_perm (htallies : ∀ a, read = .ok a → Tallies (count a) (tally a))
    {outcome : RuleOutcome} (hperm : records.Perm records')
    (h : execute env config default read count records = .ok outcome) :
    execute env config default read count records' = .ok outcome := by
  obtain ⟨a, affected, maximum, hread, hcount, hmaximum, rfl⟩ := execute_ok h
  have ha := htallies a hread
  obtain ⟨affected', hcount'⟩ := ha.succeeds hperm hcount
  have hsame : affected' = affected := by
    rw [ha.eq hcount', ha.eq hcount, ha.perm hperm]
  rw [execute, hread, ok_bind, hcount', ok_bind, hmaximum, ok_bind, hsame, hperm.length_eq]
  rfl

theorem ruleOutcome_failed (checked affected : ℕ) (maximum : Special) :
    (ruleOutcome checked affected maximum).status = .failed ↔
      0 < affected ∧ ¬ Within (percentageOf checked affected) maximum := by
  rw [ruleOutcome, Nat.pos_iff_ne_zero]
  dsimp only
  split_ifs with hzero hwithin
  · simp [hzero]
  · simp [hwithin]
  · simp [hzero, hwithin]

theorem ruleOutcome_passed (checked affected : ℕ) (maximum : Special) :
    (ruleOutcome checked affected maximum).status = .passed ↔ affected = 0 := by
  rw [ruleOutcome]
  dsimp only
  split_ifs with hzero hwithin
  · simp [hzero]
  · simp [hzero]
  · simp [hzero]

theorem execute_steady (rule : TrustRule)
    (hrun : rule.run env now config = execute env config rule.defaultMaximum read count)
    (htallies : ∀ a, read = .ok a → Tallies (count a) (tally a))
    (hcounts : ∀ a n, read = .ok a → count a records = .ok n →
      rule.Counts env now config records n) :
    rule.Steady env now config records (rule.Counted env now config records
      fun affected percentage maximum => 0 < affected ∧ ¬ Within percentage maximum) := by
  rw [TrustRule.Steady, hrun]
  cases hresult : execute env config rule.defaultMaximum read count records with
  | error e =>
    refine .inl fun records' hperm => ?_
    cases hresult' : execute env config rule.defaultMaximum read count records' with
    | error e' => exact ⟨e', rfl⟩
    | ok outcome =>
      have hok := execute_perm htallies hperm hresult'
      rw [hresult] at hok
      cases hok
  | ok outcome =>
    refine .inr ⟨outcome, fun records' hperm => execute_perm htallies hperm.symm hresult, ?_⟩
    obtain ⟨a, affected, maximum, hread, hcount, hmaximum, rfl⟩ := execute_ok hresult
    have ha := htallies a hread
    exact
      { checked := rfl
        affected_le := (ha.eq hcount).le.trans (ha.le records)
        counts := hcounts a affected hread hcount
        passed := ruleOutcome_passed _ _ _
        failed := ⟨maximum, hmaximum, ruleOutcome_failed _ _ _⟩ }

theorem tallies_markFields (check : Record → β → Except RuleError Bool) (fields : List β) :
    Tallies (markFields check fields) fun records =>
      records.countP (holds (anyField check fields)) := by
  rw [markFields_eq]
  exact tallies_countRecords _

variable {rule : TrustRule}

/-- A loop over records counts the violations that its check finds. -/
theorem counts_records {check : Record → Except RuleError Bool}
    (hrule : ¬ (rule = .primaryIdentifierUniqueness ∨ rule = .duplicateBusinessEvent))
    (h : countRecords check records = .ok n) (hviolates : ∀ record b, check record = .ok b →
      (b = true ↔ rule.Violates env now config record)) : rule.Counts env now config records n := by
  rw [TrustRule.Counts, if_neg hrule]
  refine ⟨holds check, fun record hrecord => ?_, (tallies_countRecords check).eq h⟩
  obtain ⟨found, hfound, -⟩ := map_eq_ok.1 h
  obtain ⟨b, hb⟩ := (mapM_eq_ok_iff.1 hfound).1 record hrecord
  rw [holds, hb]
  exact hviolates record b hb

theorem counts_fields {check : Record → β → Except RuleError Bool} {fields : List β}
    (hrule : ¬ (rule = .primaryIdentifierUniqueness ∨ rule = .duplicateBusinessEvent))
    (h : markFields check fields records = .ok n)
    (hviolates : ∀ record, (∃ field ∈ fields, check record field = .ok true) ↔
      rule.Violates env now config record) : rule.Counts env now config records n := by
  rw [markFields_eq] at h
  refine counts_records hrule h fun record b hb => ?_
  rw [anyField_eq hb, ← hviolates]
  simp

theorem counts_repeats {considered : Record → Bool} {fields : List String}
    (hrule : rule = .primaryIdentifierUniqueness ∨ rule = .duplicateBusinessEvent)
    (hkey : ∀ r r', keyOf fields r = keyOf fields r' → considered r = considered r')
    (h : countRepeats considered fields records = .ok n)
    (hconsiders : rule.Considers env config records (consideredKeys considered fields records)) :
    rule.Counts env now config records n := by
  rw [TrustRule.Counts, if_pos hrule]
  refine ⟨_, hconsiders, ?_⟩
  have hle := toFinset_card_le (consideredKeys considered fields records)
  rw [(tallies_countRepeats hkey).eq h]
  omega

theorem exists_ok_iff {a : α} (h : read = .ok a) {p : α → Prop} :
    (∃ a', read = .ok a' ∧ p a') ↔ p a := by
  simp [h]

theorem isNull_eq {field : String} {r r' : Record} (h : keyOf [field] r = keyOf [field] r') :
    (!(fieldOf r field).isNull) = !(fieldOf r' field).isNull := by
  have hscalar : (fieldOf r field).scalar? = (fieldOf r' field).scalar? := (List.cons.inj h).1
  have hnull : ∀ value : Value, value.isNull = (value.scalar? == some .null) := by
    intro value
    cases value <;> rfl
  rw [hnull, hnull, hscalar]

/-- Every rule fails on every order of the records, or counts its violations on every order. -/
theorem steadily_counted (env : Env) (now : Instant) (config : RuleConfig) (records : List Record)
    (rule : TrustRule) : rule.Steady env now config records
      (rule.Counted env now config records fun affected percentage maximum =>
        0 < affected ∧ ¬ Within percentage maximum) := by
  cases rule with
  | requiredFieldCompleteness | dateTimestampValidity =>
    refine execute_steady _ rfl (fun _ _ => tallies_markFields _ _) fun fields n hread h =>
      counts_fields (by simp) h fun record => ?_
    simp only [TrustRule.Violates, exists_ok_iff hread, ok.injEq]
  | primaryIdentifierUniqueness =>
    refine execute_steady _ rfl (fun _ _ => tallies_countRepeats fun _ _ => isNull_eq)
      fun field n hread h => counts_repeats (.inl rfl) (fun _ _ => isNull_eq) h ⟨field, hread, rfl⟩
  | referentialIntegrity =>
    refine execute_steady _ rfl (fun _ _ => tallies_countRecords _) fun references n hread h =>
      counts_records (by simp) h fun record b hb => ?_
    simp only [TrustRule.Violates, exists_ok_iff hread, hb, ok.injEq]
  | numericRangeValidity =>
    refine execute_steady _ rfl (fun _ _ => tallies_markFields _ _) fun ranges n hread h =>
      counts_fields (by simp) h fun record => ?_
    simp only [TrustRule.Violates, exists_ok_iff hread]
  | currencyCodeValidity =>
    refine execute_steady _ rfl (fun _ _ => tallies_markFields _ _) fun currencies n hread h =>
      counts_fields (by simp) h fun record => ?_
    simp only [TrustRule.Violates, exists_ok_iff hread, ok.injEq]
  | recordFreshness =>
    refine execute_steady _ rfl (fun _ _ => tallies_countRecords _) fun freshness n hread h =>
      counts_records (by simp) h fun record b hb => ?_
    simp only [TrustRule.Violates, exists_ok_iff hread, ok.inj hb]
  | lineageCompleteness =>
    refine execute_steady _ rfl (fun _ _ => tallies_countRecords _) fun fields n hread h =>
      counts_records (by simp) h fun record b hb => ?_
    rw [← ok.inj hb]
    simp only [TrustRule.Violates, exists_ok_iff hread, any_eq_true]
  | duplicateBusinessEvent =>
    refine execute_steady _ rfl (fun _ _ => tallies_countRepeats fun _ _ _ => rfl)
      fun fields n hread h => counts_repeats (.inr rfl) (fun _ _ _ => rfl) h ⟨fields, hread, ?_⟩
    rw [consideredKeys, filter_true]
  | schemaConformance =>
    refine execute_steady _ rfl (fun _ _ => tallies_markFields _ _) fun schema n hread h =>
      counts_fields (by simp) h fun record => ?_
    simp only [TrustRule.Violates, exists_ok_iff hread, ok.injEq, Bool.not_eq_true']

end Steady

/-! ## A negative maximum -/

/-- `percentage > maximum` -/
def Exceeds (percentage : Double) : Special → Prop
  | .finite maximum => maximum < percentage.value
  | .infinite negative => negative = true
  | .nan _ => False

namespace NegativeMaximum

def env : Env where
  text _ := ""
  upper := id
  isBlank text := text == ""
  fromisoformat _ := none
  decimal _ := none
  floatOfText _ := none
  floatOfInt n := some n
  intOfText _ := none
  earlier _ _ := none

def config : RuleConfig := [("lineage_fields", .arr []), ("maximum_affected_percentage", .int (-5))]

theorem run_passed : TrustRule.lineageCompleteness.run env 0 config [] =
    .ok ⟨.passed, 0, 0, some 100⟩ := by
  decide +kernel

/-- None of no records is affected, which is more than the maximum, and the rule passes. -/
theorem not_failed : ¬ ∀ (env : Env) (now : Instant) (config : RuleConfig) (records : List Record)
    (rule : TrustRule), rule.Steady env now config records
      (rule.Counted env now config records fun _ percentage maximum =>
        Exceeds percentage maximum) := by
  intro h
  rcases h env 0 config [] .lineageCompleteness with herror | ⟨outcome, hok, hcounted⟩
  · obtain ⟨e, he⟩ := herror [] (.refl _)
    rw [run_passed] at he
    cases he
  · have hpassed := hok [] (.refl _)
    rw [run_passed] at hpassed
    obtain rfl := ok.inj hpassed
    obtain ⟨maximum, hmaximum, hfailed⟩ := hcounted.failed
    obtain rfl : Special.finite (-5) = maximum := ok.inj hmaximum
    have hexceeds : Exceeds (percentageOf 0 0) (.finite (-5)) := by
      show (-5 : ℚ) < (percentageOf 0 0).value
      decide +kernel
    cases hfailed.2 hexceeds

end NegativeMaximum

end Intel4Ops.Trust
