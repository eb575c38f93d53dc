import Intel4Ops.Lib.Calendar
import Intel4Ops.Lib.Group
import Intel4Ops.Lib.Special
import Mathlib.Data.List.Sort

/-!
# Job-to-cash leakage: the engine

`detect_job_to_cash` over the canonical records of a run. A record has a type, an identifier and
fields whose values are those of a JSON document. Decimals are exact here; a failure is the first
exception that leaves the engine.
-/

namespace Intel4Ops.JobToCash

open Lib

/-! ## Records -/

/-- A Python value. A number keeps the text that `str` gives it; lists and dictionaries are known by
that text only. -/
inductive Value
  | null
  | bool (b : Bool)
  | number (x : ℚ) (text : String)
  | text (s : String)
  | other (text : String) (truthy : Bool)
  deriving DecidableEq

namespace Value

/-- `str(value)` -/
def str : Value → String
  | null => "None"
  | bool b => if b then "True" else "False"
  | number _ printed => printed
  | text s => s
  | other printed _ => printed

/-- `bool(value)` -/
def truthy : Value → Bool
  | null => false
  | bool b => b
  | number x _ => x ≠ 0
  | text s => s ≠ ""
  | other _ truthy => truthy

def number? : Value → Option ℚ
  | bool b => some (if b then 1 else 0)
  | number x _ => some x
  | _ => none

/-- `a == b` -/
def same (a b : Value) : Bool :=
  match a.number?, b.number? with
  | some x, some y => x = y
  | none, none => a = b
  | _, _ => false

end Value

/-- The types of records that the engine looks at; the other types are passed over. -/
inductive RecordType
  | job | invoice | timeEntry | material | expense | payment | documentation | other
  deriving DecidableEq

/-- The text of a type; `other` stands for the types that the engine passes over. -/
def RecordType.value : RecordType → String
  | job => "job"
  | invoice => "invoice"
  | timeEntry => "time_entry"
  | material => "material"
  | expense => "expense"
  | payment => "payment"
  | documentation => "documentation"
  | other => "other"

/-- `CanonicalRecord.engine_record()` -/
structure Row where
  type : RecordType
  id : Value
  data : List (String × Value)
  deriving DecidableEq

/-- `row.get(key)` -/
def Row.get (row : Row) (key : String) : Option Value := (row.data.find? (·.1 = key)).map (·.2)

/-- `str(row.get(key))` -/
def Row.text (row : Row) (key : String) : String := ((row.get key).getD .null).str

/-- The exceptions that leave the engine. -/
inductive Error
  | valueError
  | keyError (key : String)
  | invalidOperation
  deriving DecidableEq

/-- A result of decimal arithmetic, whose signals are raised. -/
def arithmetic {α : Type} (result : Except Signal α) : Except Error α :=
  match result with
  | .ok value => .ok value
  | .error _ => .error .invalidOperation

/-- `_money` -/
def money (row : Row) (key : String) : Except Error Special :=
  orFail (Special.ofText? (((row.get key).map (·.str)).getD "0")) .invalidOperation

/-- `_date`, as the number of its day -/
def date (value : Value) : Except Error ℤ :=
  orFail (Calendar.fromIsoFormat? (value.str.toList.take 10)) .valueError

/-- `_date(row[key])` -/
def dateAt (row : Row) (key : String) : Except Error ℤ := do
  let value ← orFail (row.get key) (.keyError key)
  date value

/-! ## Findings -/

/-- The codes of a leakage. -/
inductive Code
  | completedUnbilled | underbilling | missingBillableTime | missingMaterialsExpenses | invoiceDelay
  | paymentDelay | negativeMargin | documentationBlocker
  deriving DecidableEq

def Code.value : Code → String
  | completedUnbilled => "COMPLETED_UNBILLED"
  | underbilling => "UNDERBILLING"
  | missingBillableTime => "MISSING_BILLABLE_TIME"
  | missingMaterialsExpenses => "MISSING_MATERIALS_EXPENSES"
  | invoiceDelay => "INVOICE_DELAY"
  | paymentDelay => "PAYMENT_DELAY"
  | negativeMargin => "NEGATIVE_MARGIN"
  | documentationBlocker => "DOCUMENTATION_BLOCKER"

def Code.reason : Code → String
  | completedUnbilled => "Completed job has no valid invoice"
  | underbilling => "Invoice is below governed billable value"
  | missingBillableTime => "Approved time is absent from billing"
  | missingMaterialsExpenses => "Billable materials or expenses are absent"
  | invoiceDelay => "Invoice exceeded completion-to-invoice target"
  | paymentDelay => "Invoice remains outstanding after due date"
  | negativeMargin => "Governed job cost exceeds revenue"
  | documentationBlocker => "Required billing documentation is missing or invalid"

/-- `Leakage` -/
structure Leakage where
  code : Code
  jobId : String
  exposure : Special
  reason : String
  evidenceIds : List String

/-- `_leak` -/
def leak (code : Code) (jobId : String) (exposure : Special) (row : Row) : Leakage where
  code := code
  jobId := jobId
  exposure := exposure
  reason := code.reason
  evidenceIds := [row.type.value ++ ":" ++ row.id.str]

/-! ## The rows of a job -/

/-- The jobs under their identifiers: of two rows with one identifier the later one counts. -/
def jobs (rows : List Row) : List (String × Row) :=
  let rows := rows.filter (·.type = .job)
  (firsts (rows.map (·.id.str))).filterMap fun jobId =>
    ((rows.filter (·.id.str = jobId)).getLast?).map fun row => (jobId, row)

def jobInvoices (rows : List Row) (jobId : String) : List Row :=
  rows.filter fun row => row.type = .invoice ∧ row.text "job_id" = jobId ∧
    ((row.get "valid").getD (.bool true)).truthy

def jobTime (rows : List Row) (jobId : String) : List Row :=
  rows.filter fun row => row.type = .timeEntry ∧ row.text "job_id" = jobId

def jobMaterials (rows : List Row) (jobId : String) : List Row :=
  rows.filter fun row =>
    (row.type = .material ∨ row.type = .expense) ∧ row.text "job_id" = jobId

def requiredDocuments (rows : List Row) (jobId : String) : List Row :=
  rows.filter fun row => row.type = .documentation ∧ row.text "job_id" = jobId ∧
    ((row.get "required").getD .null).truthy

def invoicePayments (rows : List Row) (invoice : Row) : List Row :=
  rows.filter fun row =>
    row.type = .payment ∧ ((row.get "invoice_id").getD .null).same invoice.id

/-- The sum of an amount over rows. -/
def total (rows : List Row) (key : String) : Except Error Special := do
  let amounts ← rows.mapM (money · key)
  arithmetic (Special.sum amounts)

/-! ## The rules -/

/-- What the rules read of a job. -/
structure Amounts where
  (billableTime billedTime billableOther billedOther invoiceTotal expected : Special)
  (completed window : ℤ)

def amountsOf (rows : List Row) (jobId : String) (job : Row) : Except Error Amounts := do
  let billableTime ← total (jobTime rows jobId) "billable_amount"
  let billedTime ← total (jobTime rows jobId) "billed_amount"
  let billableOther ← total (jobMaterials rows jobId) "billable_amount"
  let billedOther ← total (jobMaterials rows jobId) "billed_amount"
  let invoiceTotal ← total (jobInvoices rows jobId) "amount"
  let billable ← arithmetic (billableTime.add billableOther)
  let charges ← money job "contractual_charges"
  let expected ← arithmetic (billable.add charges)
  let completed ← date ((job.get "completed_at").getD .null)
  let window ← orFail
    (Numeral.int? (((job.get "billing_window_days").map (·.str)).getD "5")) .valueError
  return ⟨billableTime, billedTime, billableOther, billedOther, invoiceTotal, expected, completed,
    window⟩

/-- A completed job without a valid invoice, after the billing window. -/
def completedUnbilled (amounts : Amounts) (invoices : List Row) (asOf : ℤ) (jobId : String)
    (job : Row) : List Leakage :=
  if job.get "status" = some (.text "completed") ∧ invoices = [] ∧
      amounts.window < asOf - amounts.completed then
    [leak .completedUnbilled jobId amounts.expected job]
  else []

/-- A finding of the difference where one amount is below another. -/
def shortfall (code : Code) (jobId : String) (row : Row) (amount target : Special) :
    Except Error (List Leakage) := do
  let below ← arithmetic (amount.lt target)
  if below then do
    let exposure ← arithmetic (target.sub amount)
    return [leak code jobId exposure row]
  else return []

/-- Valid invoices below the billable value. -/
def underbilling (amounts : Amounts) (invoices : List Row) (jobId : String) (job : Row) :
    Except Error (List Leakage) :=
  if invoices = [] then .ok []
  else shortfall .underbilling jobId job amounts.invoiceTotal amounts.expected

def earliest : List ℤ → Option ℤ
  | [] => none
  | day :: days => some (days.foldl min day)

/-- A first invoice after the billing window. -/
def invoiceDelay (amounts : Amounts) (invoices : List Row) (jobId : String) (job : Row) :
    Except Error (List Leakage) := do
  let issued ← invoices.mapM (dateAt · "issued_at")
  match earliest issued with
  | none => return []
  | some first =>
    if amounts.window < first - amounts.completed then
      return [leak .invoiceDelay jobId amounts.invoiceTotal job]
    else return []

/-- An invoice that is due and not paid in full. -/
def paymentDelay (rows : List Row) (asOf : ℤ) (jobId : String) (invoice : Row) :
    Except Error (List Leakage) := do
  let due ← dateAt invoice "due_at"
  let paid ← total (invoicePayments rows invoice) "amount"
  if due < asOf then do
    let amount ← money invoice "amount"
    shortfall .paymentDelay jobId invoice paid amount
  else return []

/-- `invoice_total or _money(job, "expected_revenue")` -/
def revenueOf (invoiceTotal : Special) (job : Row) : Except Error Special :=
  if invoiceTotal = .finite 0 then money job "expected_revenue" else .ok invoiceTotal

/-- Costs above the revenue. -/
def negativeMargin (amounts : Amounts) (jobId : String) (job : Row) :
    Except Error (List Leakage) := do
  let revenue ← revenueOf amounts.invoiceTotal job
  let costs ← money job "governed_cost"
  shortfall .negativeMargin jobId job revenue costs

/-- Required documentation that is not valid. -/
def documentationBlocker (rows : List Row) (amounts : Amounts) (jobId : String) (job : Row) :
    List Leakage :=
  if ∃ document ∈ requiredDocuments rows jobId, ((document.get "valid").getD .null).truthy = false
  then [leak .documentationBlocker jobId amounts.expected job]
  else []

/-- The findings of one job, in the order of the rules. -/
def detectJob (rows : List Row) (asOf : ℤ) (jobId : String) (job : Row) :
    Except Error (List Leakage) := do
  let invoices := jobInvoices rows jobId
  let amounts ← amountsOf rows jobId job
  let underbilled ← underbilling amounts invoices jobId job
  let missingTime ← shortfall .missingBillableTime jobId job amounts.billedTime amounts.billableTime
  let missingOther ←
    shortfall .missingMaterialsExpenses jobId job amounts.billedOther amounts.billableOther
  let invoicedLate ← invoiceDelay amounts invoices jobId job
  let paidLate ← invoices.mapM (paymentDelay rows asOf jobId)
  let negative ← negativeMargin amounts jobId job
  return completedUnbilled amounts invoices asOf jobId job ++ underbilled ++ missingTime ++
    missingOther ++ invoicedLate ++ paidLate.flatten ++ negative ++
    documentationBlocker rows amounts jobId job

/-- The order of the findings: by job, then by code. -/
def Leakage.le (a b : Leakage) : Prop :=
  a.jobId < b.jobId ∨ a.jobId = b.jobId ∧ a.code.value ≤ b.code.value

instance : DecidableRel Leakage.le := fun a b =>
  inferInstanceAs (Decidable (a.jobId < b.jobId ∨ a.jobId = b.jobId ∧ a.code.value ≤ b.code.value))

/-- `detect_job_to_cash` -/
def detectJobToCash (rows : List Row) (asOf : ℤ) : Except Error (List Leakage) := do
  let found ← (jobs rows).mapM fun job => detectJob rows asOf job.1 job.2
  return found.flatten.insertionSort Leakage.le

end Intel4Ops.JobToCash
