import Intel4Ops.JobToCash.Model

/-!
# What leakage a job has

The conditions of the eight codes over the rows of one job, and what the engine finds of them: where
every row of a job can be read, exactly the codes whose conditions hold. A job without a completion
date cannot be read, and the value that an underbilling reports contains the time and the materials
that are reported as missing.
-/

namespace Intel4Ops.JobToCash

open Lib List

/-! ## The rows of one job -/

/-- A job with its own rows. -/
structure Own where
  job : Row
  (invoices time materials documents payments : List Row)

/-- The identifier that the rows of a job name. -/
def Row.key (job : Row) : String := job.id.str

/-- The rows that name a job, and the payments that name one of its invoices. -/
def ownOf (rows : List Row) (job : Row) : Own where
  job := job
  invoices := jobInvoices rows job.key
  time := jobTime rows job.key
  materials := jobMaterials rows job.key
  documents := requiredDocuments rows job.key
  payments := rows.filter fun row => row.type = .payment ∧
    ∃ invoice ∈ jobInvoices rows job.key, row.text "invoice_id" = invoice.key

/-- The same rows of a job, in another order. -/
structure Own.Perm (own own' : Own) : Prop where
  job : own.job = own'.job
  invoices : own.invoices.Perm own'.invoices
  time : own.time.Perm own'.time
  materials : own.materials.Perm own'.materials
  documents : own.documents.Perm own'.documents
  payments : own.payments.Perm own'.payments

/-- An amount that is a finite decimal; a missing one is zero. -/
def amount (row : Row) (key : String) : ℚ :=
  match money row key with
  | .ok (.finite x) => x
  | _ => 0

def sumOf (rows : List Row) (key : String) : ℚ := (rows.map (amount · key)).sum

/-- A date of a row. -/
def dayAt (row : Row) (key : String) : Option ℤ := (dateAt row key).toOption

def completedAt (job : Row) : Option ℤ := dayAt job "completed_at"

def window? (job : Row) : Option ℤ :=
  Numeral.int? (((job.get "billing_window_days").map (·.str)).getD "5")

def window (job : Row) : ℤ := (window? job).getD 5

namespace Own

variable (own : Own)

/-- What a job should have been billed. -/
def expected : ℚ :=
  sumOf own.time "billable_amount" + sumOf own.materials "billable_amount" +
    amount own.job "contractual_charges"

/-- What a job was billed. -/
def invoiced : ℚ := sumOf own.invoices "amount"

/-- What a job earns: what it was billed, or what is expected while that is nothing. -/
def revenue : ℚ := if own.invoiced = 0 then amount own.job "expected_revenue" else own.invoiced

def paid (invoice : Row) : ℚ :=
  sumOf (own.payments.filter fun row => row.text "invoice_id" = invoice.key) "amount"

end Own

/-- The conditions of the codes, with the exposure of a finding and the row that is its evidence. -/
inductive Documented (own : Own) (asOf : ℤ) : Code → ℚ → Row → Prop
  | completedUnbilled {day : ℤ} (hstatus : own.job.get "status" = some (.text "completed"))
      (hinvoices : own.invoices = []) (hday : completedAt own.job = some day)
      (hlate : window own.job < asOf - day) :
      Documented own asOf .completedUnbilled own.expected own.job
  | underbilling (hinvoices : own.invoices ≠ []) (hbelow : own.invoiced < own.expected) :
      Documented own asOf .underbilling (own.expected - own.invoiced) own.job
  | missingBillableTime
      (hbelow : sumOf own.time "billed_amount" < sumOf own.time "billable_amount") :
      Documented own asOf .missingBillableTime
        (sumOf own.time "billable_amount" - sumOf own.time "billed_amount") own.job
  | missingMaterialsExpenses
      (hbelow : sumOf own.materials "billed_amount" < sumOf own.materials "billable_amount") :
      Documented own asOf .missingMaterialsExpenses
        (sumOf own.materials "billable_amount" - sumOf own.materials "billed_amount") own.job
  | invoiceDelay {day first : ℤ} (hday : completedAt own.job = some day)
      (hfirst : ∃ invoice ∈ own.invoices, dayAt invoice "issued_at" = some first)
      (hleast : ∀ invoice ∈ own.invoices, ∀ issued ∈ dayAt invoice "issued_at", first ≤ issued)
      (hlate : window own.job < first - day) :
      Documented own asOf .invoiceDelay own.invoiced own.job
  | paymentDelay {invoice : Row} {due : ℤ} (hinvoice : invoice ∈ own.invoices)
      (hdue : dayAt invoice "due_at" = some due) (hoverdue : due < asOf)
      (hunpaid : own.paid invoice < amount invoice "amount") :
      Documented own asOf .paymentDelay (amount invoice "amount" - own.paid invoice) invoice
  | negativeMargin (hcost : own.revenue < amount own.job "governed_cost") :
      Documented own asOf .negativeMargin (amount own.job "governed_cost" - own.revenue) own.job
  | documentationBlocker (hdocument : ∃ document ∈ own.documents,
        ((document.get "valid").getD .null).truthy = false) :
      Documented own asOf .documentationBlocker own.expected own.job

/-! ## The findings over exact numbers -/

/-- One finding, where its condition holds. -/
def single (c : Prop) [Decidable c] (l : Leakage) : List Leakage := if c then [l] else []

variable {l : Leakage} {own : Own} {rows' : List Row}

theorem mem_single {c : Prop} [Decidable c] {l' : Leakage} : l ∈ single c l' ↔ c ∧ l = l' := by
  by_cases hc : c <;> simp [single, hc]

/-- The first day on which an invoice of a job was issued. -/
def Own.firstIssued (own : Own) : Option ℤ :=
  earliest (own.invoices.filterMap (dayAt · "issued_at"))

/-- A finding about an invoice. -/
def unpaid (own : Own) (asOf : ℤ) (invoice : Row) : List Leakage :=
  single ((dayAt invoice "due_at").any (· < asOf) ∧ own.paid invoice < amount invoice "amount")
    (leak .paymentDelay own.job.key (.finite (amount invoice "amount" - own.paid invoice)) invoice)

/-- The findings about a job, in the order of the rules. -/
def leaks (own : Own) (asOf : ℤ) : List Leakage :=
  let key := own.job.key
  single (own.job.get "status" = some (.text "completed") ∧ own.invoices = [] ∧
      (completedAt own.job).any fun day => window own.job < asOf - day)
    (leak .completedUnbilled key (.finite own.expected) own.job) ++
  single (own.invoices ≠ [] ∧ own.invoiced < own.expected)
    (leak .underbilling key (.finite (own.expected - own.invoiced)) own.job) ++
  single (sumOf own.time "billed_amount" < sumOf own.time "billable_amount")
    (leak .missingBillableTime key (.finite
      (sumOf own.time "billable_amount" - sumOf own.time "billed_amount")) own.job) ++
  single (sumOf own.materials "billed_amount" < sumOf own.materials "billable_amount")
    (leak .missingMaterialsExpenses key (.finite
      (sumOf own.materials "billable_amount" - sumOf own.materials "billed_amount")) own.job) ++
  single ((completedAt own.job).any fun day =>
      own.firstIssued.any fun first => window own.job < first - day)
    (leak .invoiceDelay key (.finite own.invoiced) own.job) ++
  own.invoices.flatMap (unpaid own asOf) ++
  single (own.revenue < amount own.job "governed_cost")
    (leak .negativeMargin key (.finite (amount own.job "governed_cost" - own.revenue)) own.job) ++
  single (∃ document ∈ own.documents, ((document.get "valid").getD .null).truthy = false)
    (leak .documentationBlocker key (.finite own.expected) own.job)

theorem earliest_eq_some {days : List ℤ} {first : ℤ} :
    earliest days = some first ↔ first ∈ days ∧ ∀ day ∈ days, first ≤ day := by
  cases days with
  | nil => simp [earliest]
  | cons day days =>
    have hleast : ∀ (days : List ℤ) (day : ℤ),
        days.foldl min day ∈ day :: days ∧ ∀ d ∈ day :: days, days.foldl min day ≤ d := by
      intro days
      induction days with
      | nil => simp
      | cons d days ih =>
        intro day
        obtain ⟨hmem, hle⟩ := ih (min day d)
        rw [foldl_cons]
        constructor
        · rcases mem_cons.1 hmem with heq | hmem
          · rw [heq]
            rcases min_choice day d with h | h <;> simp [h]
          · simp [hmem]
        · have hmin := hle (min day d) (by simp)
          intro e he
          rcases mem_cons.1 he with rfl | he
          · omega
          rcases mem_cons.1 he with rfl | he
          · omega
          · exact hle e (by simp [he])
    obtain ⟨hmem, hle⟩ := hleast days day
    rw [earliest, Option.some.injEq]
    constructor
    · rintro rfl
      exact ⟨hmem, hle⟩
    · rintro ⟨hfirst, hfirstle⟩
      exact le_antisymm (hle first hfirst) (hfirstle _ hmem)

theorem mem_leaks {asOf : ℤ} : l ∈ leaks own asOf ↔ ∃ x row, Documented own asOf l.code x row ∧
      l = leak l.code own.job.key (.finite x) row := by
  simp only [leaks, mem_append, mem_single, mem_flatMap, unpaid]
  constructor
  · rintro (((((((⟨⟨hstatus, hinvoices, hlate⟩, rfl⟩ | ⟨⟨hinvoices, hbelow⟩, rfl⟩) |
      ⟨hbelow, rfl⟩) | ⟨hbelow, rfl⟩) | ⟨hlate, rfl⟩) | ⟨invoice, hinvoice, ⟨hdue, hunpaid⟩, rfl⟩) |
      ⟨hcost, rfl⟩) | ⟨hdocument, rfl⟩)
    · obtain ⟨day, hday, hlate⟩ := (Option.any_eq_true ..).1 hlate
      exact ⟨_, _, .completedUnbilled hstatus hinvoices hday (of_decide_eq_true hlate), rfl⟩
    · exact ⟨_, _, .underbilling hinvoices hbelow, rfl⟩
    · exact ⟨_, _, .missingBillableTime hbelow, rfl⟩
    · exact ⟨_, _, .missingMaterialsExpenses hbelow, rfl⟩
    · obtain ⟨day, hday, hlate⟩ := (Option.any_eq_true ..).1 hlate
      obtain ⟨first, hfirst, hlate⟩ := (Option.any_eq_true ..).1 hlate
      obtain ⟨hmem, hleast⟩ := earliest_eq_some.1 hfirst
      refine ⟨_, _, .invoiceDelay hday (mem_filterMap.1 hmem) ?_ (of_decide_eq_true hlate), rfl⟩
      intro invoice hinvoice issued hissued
      exact hleast issued (mem_filterMap.2 ⟨invoice, hinvoice, hissued⟩)
    · obtain ⟨due, hday, hoverdue⟩ := (Option.any_eq_true ..).1 hdue
      exact ⟨_, _, .paymentDelay hinvoice hday (of_decide_eq_true hoverdue) hunpaid, rfl⟩
    · exact ⟨_, _, .negativeMargin hcost, rfl⟩
    · exact ⟨_, _, .documentationBlocker hdocument, rfl⟩
  · rintro ⟨x, row, hdocumented, hl⟩
    rw [hl]
    generalize l.code = code at hdocumented
    cases hdocumented with
    | completedUnbilled hstatus hinvoices hday hlate =>
      simp [hstatus, hinvoices, hday, hlate]
    | underbilling hinvoices hbelow => simp [hinvoices, hbelow]
    | missingBillableTime hbelow | missingMaterialsExpenses hbelow => simp [hbelow]
    | invoiceDelay hday hfirst hleast hlate =>
      rename_i first
      have hearliest : own.firstIssued = some first := by
        refine earliest_eq_some.2 ⟨mem_filterMap.2 hfirst, ?_⟩
        intro day hday
        obtain ⟨invoice, hinvoice, hissued⟩ := mem_filterMap.1 hday
        exact hleast invoice hinvoice day hissued
      simp [hday, hearliest, hlate]
    | paymentDelay hinvoice hdue hoverdue hunpaid =>
      have hlate : ((dayAt row "due_at").any fun due => decide (due < asOf)) = true := by
        simp [hdue, hoverdue]
      exact .inl (.inl (.inr ⟨row, hinvoice, ⟨hlate, hunpaid⟩, rfl⟩))
    | negativeMargin hcost => simp [hcost]
    | documentationBlocker hdocument => exact .inr ⟨hdocument, rfl⟩

/-! ## The order of the rows -/

theorem sumOf_perm {rows : List Row} (h : rows.Perm rows') (key : String) :
    sumOf rows key = sumOf rows' key :=
  (h.map _).sum_eq

theorem earliest_perm {days days' : List ℤ} (h : days.Perm days') :
    earliest days = earliest days' := by
  refine Option.ext fun first => ?_
  rw [earliest_eq_some, earliest_eq_some, h.mem_iff]
  simp only [h.mem_iff]

theorem leaks_perm {own' : Own} (h : own.Perm own') (asOf : ℤ) :
    (leaks own asOf).Perm (leaks own' asOf) := by
  obtain ⟨job, invoices, time, materials, documents, payments⟩ := own
  obtain ⟨job', invoices', time', materials', documents', payments'⟩ := own'
  obtain ⟨rfl, hinvoices, htime, hmaterials, hdocuments, hpayments⟩ := h
  have hnil : invoices = [] ↔ invoices' = [] := by
    constructor
    · rintro rfl
      exact hinvoices.nil_eq.symm
    · rintro rfl
      exact hinvoices.eq_nil
  have hpaid : ∀ invoice, Own.paid ⟨job, invoices, time, materials, documents, payments⟩ invoice =
      Own.paid ⟨job, invoices', time', materials', documents', payments'⟩ invoice :=
    fun invoice => sumOf_perm (hpayments.filter _) "amount"
  have hunpaid : unpaid ⟨job, invoices, time, materials, documents, payments⟩ asOf =
      unpaid ⟨job, invoices', time', materials', documents', payments'⟩ asOf := by
    funext invoice
    rw [unpaid, unpaid, hpaid]
  have hfirst := earliest_perm (hinvoices.filterMap (dayAt · "issued_at"))
  have hdocument : (∃ document ∈ documents, ((document.get "valid").getD .null).truthy = false) ↔
      ∃ document ∈ documents', ((document.get "valid").getD .null).truthy = false := by
    simp only [hdocuments.mem_iff]
  simp only [leaks, Own.firstIssued, Own.expected, Own.revenue, Own.invoiced, Ne, hnil, hunpaid,
    hfirst, hdocument, sumOf_perm hinvoices, sumOf_perm htime, sumOf_perm hmaterials]
  exact (((hinvoices.flatMap_right _).append_left _).append_right _).append_right _

/-! ## Rows that can be read -/

/-- An amount is missing or a finite decimal. -/
def HasAmount (row : Row) (key : String) : Prop :=
  (money row key).toOption.any Special.isFinite = true

instance (row : Row) (key : String) : Decidable (HasAmount row key) :=
  inferInstanceAs (Decidable (_ = true))

/-- The rows of a job can be read. -/
structure Readable (rows : List Row) (job : Row) : Prop where
  completed : (completedAt job).isSome
  window : (window? job).isSome
  charges : HasAmount job "contractual_charges"
  expectedRevenue : HasAmount job "expected_revenue"
  cost : HasAmount job "governed_cost"
  time : ∀ row ∈ jobTime rows job.key,
    HasAmount row "billable_amount" ∧ HasAmount row "billed_amount"
  materials : ∀ row ∈ jobMaterials rows job.key,
    HasAmount row "billable_amount" ∧ HasAmount row "billed_amount"
  invoices : ∀ row ∈ jobInvoices rows job.key,
    HasAmount row "amount" ∧ (dayAt row "issued_at").isSome ∧ (dayAt row "due_at").isSome
  payments : ∀ invoice ∈ jobInvoices rows job.key, ∀ row ∈ rows, row.type = .payment →
    (((row.get "invoice_id").getD .null).same invoice.id = true ↔
      row.text "invoice_id" = invoice.key) ∧
    (row.text "invoice_id" = invoice.key → HasAmount row "amount")

theorem money_eq {row : Row} {key : String} (h : HasAmount row key) :
    money row key = .ok (.finite (amount row key)) := by
  rw [HasAmount] at h
  rw [amount]
  cases hmoney : money row key with
  | error e =>
    rw [hmoney] at h
    cases h
  | ok value =>
    rw [hmoney] at h
    cases value with
    | finite x => rfl
    | infinite s | nan s => cases h

theorem dateAt_eq {row : Row} {key : String} {day : ℤ} (h : dayAt row key = some day) :
    dateAt row key = .ok day := by
  rw [dayAt] at h
  cases hdate : dateAt row key with
  | ok day' =>
    rw [hdate] at h
    exact congrArg _ (Option.some.inj h)
  | error e =>
    rw [hdate] at h
    cases h

theorem total_eq {rows : List Row} {key : String} (h : ∀ row ∈ rows, HasAmount row key) :
    total rows key = .ok (.finite (sumOf rows key)) := by
  have hread : rows.mapM (money · key) = .ok ((rows.map (amount · key)).map Special.finite) := by
    rw [map_map]
    exact mapM_eq_map fun row hrow => money_eq (h row hrow)
  rw [total, hread, ok_bind, Special.sum_finite]
  rfl

theorem shortfall_eq (code : Code) (jobId : String) (row : Row) (a b : ℚ) :
    shortfall code jobId row (.finite a) (.finite b) =
      .ok (single (a < b) (leak code jobId (.finite (b - a)) row)) := by
  by_cases h : a < b
  · simp [shortfall, arithmetic, single, h, pure, Except.pure]
  · simp [shortfall, arithmetic, single, h, pure, Except.pure]

namespace Readable

variable {rows : List Row} {job : Row} (h : Readable rows job)
include h

theorem completed_eq : ∃ day, completedAt job = some day ∧
    date ((job.get "completed_at").getD .null) = .ok day := by
  obtain ⟨day, hday⟩ := Option.isSome_iff_exists.1 h.completed
  have hdate := dateAt_eq hday
  rw [dateAt, bind_eq_ok] at hdate
  obtain ⟨value, hvalue, hdate⟩ := hdate
  rw [orFail_eq_ok] at hvalue
  exact ⟨day, hday, by rw [hvalue]; exact hdate⟩

variable {day : ℤ}

theorem amountsOf_eq (hday : date ((job.get "completed_at").getD .null) = .ok day) :
    amountsOf rows job.key job = .ok
      ⟨.finite (sumOf (jobTime rows job.key) "billable_amount"),
        .finite (sumOf (jobTime rows job.key) "billed_amount"),
        .finite (sumOf (jobMaterials rows job.key) "billable_amount"),
        .finite (sumOf (jobMaterials rows job.key) "billed_amount"),
        .finite (ownOf rows job).invoiced, .finite (ownOf rows job).expected, day,
        JobToCash.window job⟩ := by
  have hwindow : window? job = some (JobToCash.window job) := by
    obtain ⟨n, hn⟩ := Option.isSome_iff_exists.1 h.window
    rw [JobToCash.window, hn]
    rfl
  rw [window?] at hwindow
  rw [amountsOf, total_eq fun row hrow => (h.time row hrow).1,
    total_eq fun row hrow => (h.time row hrow).2, total_eq fun row hrow => (h.materials row hrow).1,
    total_eq fun row hrow => (h.materials row hrow).2,
    total_eq fun row hrow => (h.invoices row hrow).1, money_eq h.charges, hday, hwindow]
  simp only [ok_bind, Special.add_finite, arithmetic, orFail_some]
  rfl

theorem invoiceDelay_eq {amounts : Amounts} (hday : completedAt job = some day)
    (hcompleted : amounts.completed = day) (hwindow : amounts.window = JobToCash.window job)
    (htotal : amounts.invoiceTotal = .finite (ownOf rows job).invoiced) :
    invoiceDelay amounts (jobInvoices rows job.key) job.key job =
      .ok (single ((completedAt job).any fun day =>
          (ownOf rows job).firstIssued.any fun first => JobToCash.window job < first - day)
        (leak .invoiceDelay job.key (.finite (ownOf rows job).invoiced) job)) := by
  have hread : (jobInvoices rows job.key).mapM (dateAt · "issued_at") =
      .ok ((jobInvoices rows job.key).filterMap (dayAt · "issued_at")) := by
    have hissued : ∀ row ∈ jobInvoices rows job.key, (dayAt row "issued_at").isSome :=
      fun row hrow => (h.invoices row hrow).2.1
    generalize jobInvoices rows job.key = invoices at hissued
    induction invoices with
    | nil => rfl
    | cons invoice invoices ih =>
      obtain ⟨hinvoice, hinvoices⟩ := forall_mem_cons.1 hissued
      obtain ⟨issued, hdate⟩ := Option.isSome_iff_exists.1 hinvoice
      have hcons : (invoice :: invoices).filterMap (dayAt · "issued_at") =
          issued :: invoices.filterMap (dayAt · "issued_at") := filterMap_cons_some hdate
      rw [mapM_cons, dateAt_eq hdate, ok_bind, ih hinvoices, hcons]
      rfl
  rw [invoiceDelay, hread, ok_bind, hday, hcompleted, hwindow, htotal]
  have hfirst : earliest ((jobInvoices rows job.key).filterMap (dayAt · "issued_at")) =
      (ownOf rows job).firstIssued := rfl
  rw [hfirst]
  cases (ownOf rows job).firstIssued with
  | none => rfl
  | some first =>
    by_cases hlate : JobToCash.window job < first - day
    · simp [hlate, single, pure, Except.pure]
    · simp [hlate, single, pure, Except.pure]

theorem paymentDelay_eq (asOf : ℤ) {invoice : Row} (hinvoice : invoice ∈ jobInvoices rows job.key) :
    paymentDelay rows asOf job.key invoice = .ok (unpaid (ownOf rows job) asOf invoice) := by
  obtain ⟨hamount, -, hdue⟩ := h.invoices invoice hinvoice
  obtain ⟨due, hday⟩ := Option.isSome_iff_exists.1 hdue
  -- the payments under the raw identifier are those under its text
  have hpayments : invoicePayments rows invoice =
      (ownOf rows job).payments.filter fun row => row.text "invoice_id" = invoice.key := by
    rw [ownOf, filter_filter, invoicePayments]
    refine filter_congr fun row hrow => ?_
    rw [Bool.eq_iff_iff]
    simp only [Bool.and_eq_true, decide_eq_true_eq]
    constructor
    · rintro ⟨htype, hraw⟩
      have hsame := (h.payments invoice hinvoice row hrow htype).1.1 hraw
      exact ⟨hsame, htype, invoice, hinvoice, hsame⟩
    · rintro ⟨hsame, htype, -⟩
      exact ⟨htype, (h.payments invoice hinvoice row hrow htype).1.2 hsame⟩
  have htotal : total (invoicePayments rows invoice) "amount" =
      .ok (.finite ((ownOf rows job).paid invoice)) := by
    rw [Own.paid, ← hpayments]
    refine total_eq fun row hrow => ?_
    obtain ⟨hmem, hpayment⟩ := mem_filter.1 hrow
    obtain ⟨htype, hsame⟩ := of_decide_eq_true hpayment
    have hread := h.payments invoice hinvoice row hmem htype
    exact hread.2 (hread.1.1 hsame)
  rw [paymentDelay, dateAt_eq hday, ok_bind, htotal, ok_bind, unpaid, hday]
  by_cases hoverdue : due < asOf
  · rw [if_pos hoverdue, money_eq hamount, ok_bind, shortfall_eq]
    simp [hoverdue]
    rfl
  · rw [if_neg hoverdue]
    simp [hoverdue, single, pure, Except.pure]

theorem negativeMargin_eq {amounts : Amounts}
    (htotal : amounts.invoiceTotal = .finite (ownOf rows job).invoiced) :
    negativeMargin amounts job.key job =
      .ok (single ((ownOf rows job).revenue < amount job "governed_cost")
        (leak .negativeMargin job.key
          (.finite (amount job "governed_cost" - (ownOf rows job).revenue)) job)) := by
  have hrevenue : revenueOf amounts.invoiceTotal job = .ok (.finite (ownOf rows job).revenue) := by
    rw [revenueOf, htotal, Own.revenue]
    by_cases hzero : (ownOf rows job).invoiced = 0
    · rw [if_pos (congrArg _ hzero), if_pos hzero, money_eq h.expectedRevenue]
      rfl
    · rw [if_neg (by simpa using hzero), if_neg hzero]
  rw [negativeMargin, hrevenue, ok_bind, money_eq h.cost, ok_bind, shortfall_eq]

theorem detectJob_eq (asOf : ℤ) :
    detectJob rows asOf job.key job = .ok (leaks (ownOf rows job) asOf) := by
  obtain ⟨day, hday, hdate⟩ := h.completed_eq
  have hunderbilled : ∀ amounts : Amounts,
      amounts.invoiceTotal = .finite (ownOf rows job).invoiced →
      amounts.expected = .finite (ownOf rows job).expected →
      underbilling amounts (jobInvoices rows job.key) job.key job =
        .ok (single (jobInvoices rows job.key ≠ [] ∧
            (ownOf rows job).invoiced < (ownOf rows job).expected)
          (leak .underbilling job.key
            (.finite ((ownOf rows job).expected - (ownOf rows job).invoiced)) job)) := by
    intro amounts htotal hexpected
    rw [underbilling, htotal, hexpected, shortfall_eq]
    by_cases hnone : jobInvoices rows job.key = []
    · simp [hnone, single]
    · simp [hnone]
  have hpayments : (jobInvoices rows job.key).mapM (paymentDelay rows asOf job.key) =
      .ok ((jobInvoices rows job.key).map (unpaid (ownOf rows job) asOf)) :=
    mapM_eq_map fun invoice hinvoice => h.paymentDelay_eq asOf hinvoice
  rw [detectJob, h.amountsOf_eq hdate]
  simp only [ok_bind]
  rw [hunderbilled _ rfl rfl, shortfall_eq, shortfall_eq, h.invoiceDelay_eq hday rfl rfl rfl,
    hpayments, h.negativeMargin_eq rfl]
  simp only [ok_bind, completedUnbilled, documentationBlocker]
  rw [leaks, flatMap_def]
  simp [ownOf, hday, single, pure, Except.pure]

end Readable

/-! ## All jobs -/

def jobRows (rows : List Row) : List Row := rows.filter (·.type = .job)

/-- Jobs have identifiers of their own, and all their rows can be read. -/
structure AllReadable (rows : List Row) : Prop where
  keys : ((jobRows rows).map (·.key)).Nodup
  readable : ∀ job ∈ jobRows rows, Readable rows job

theorem jobs_eq {rows : List Row} (h : ((jobRows rows).map (·.key)).Nodup) :
    jobs rows = (jobRows rows).map fun job => (job.key, job) := by
  have hlast : ∀ job ∈ jobRows rows,
      ((jobRows rows).filter (·.id.str = job.key)).getLast? = some job := by
    intro job hjob
    have hgroup : (jobRows rows).filter (·.id.str = job.key) = [job] := group_of_nodup h hjob
    rw [hgroup]
    rfl
  have hkeys : firsts ((jobRows rows).map (·.id.str)) = (jobRows rows).map (·.key) :=
    firsts_of_nodup h
  have hunfold : jobs rows = (firsts ((jobRows rows).map (·.id.str))).filterMap fun jobId =>
      (((jobRows rows).filter (·.id.str = jobId)).getLast?).map fun row => (jobId, row) := rfl
  rw [hunfold, hkeys, filterMap_map, ← filterMap_eq_map]
  refine filterMap_congr fun job hjob => ?_
  simp only [Function.comp_apply, hlast job hjob, Option.map_some]

theorem detectJobToCash_eq {rows : List Row} (h : AllReadable rows) (asOf : ℤ) :
    detectJobToCash rows asOf = .ok
      (((jobRows rows).flatMap fun job => leaks (ownOf rows job) asOf).insertionSort
        Leakage.le) := by
  have hfound : (jobs rows).mapM (fun job => detectJob rows asOf job.1 job.2) =
      .ok ((jobs rows).map fun job => leaks (ownOf rows job.2) asOf) := by
    refine mapM_eq_map fun job hjob => ?_
    rw [jobs_eq h.keys] at hjob
    obtain ⟨job, hmem, rfl⟩ := mem_map.1 hjob
    exact (h.readable job hmem).detectJob_eq asOf
  rw [detectJobToCash, hfound, ok_bind, jobs_eq h.keys, map_map, flatMap_def]
  rfl

/-! ## Rows in another order -/

theorem jobInvoices_perm {rows : List Row} (h : rows.Perm rows') (jobId : String) :
    (jobInvoices rows jobId).Perm (jobInvoices rows' jobId) := h.filter _

theorem ownOf_perm {rows : List Row} (h : rows.Perm rows') (job : Row) :
    (ownOf rows job).Perm (ownOf rows' job) where
  job := rfl
  invoices := jobInvoices_perm h _
  time := h.filter _
  materials := h.filter _
  documents := h.filter _
  payments := by
    have hsame : ∀ row : Row, (row.type = .payment ∧
        ∃ invoice ∈ jobInvoices rows job.key, row.text "invoice_id" = invoice.key) ↔
          row.type = .payment ∧
            ∃ invoice ∈ jobInvoices rows' job.key, row.text "invoice_id" = invoice.key := by
      intro row
      simp only [(jobInvoices_perm h job.key).mem_iff]
    simp only [ownOf, hsame]
    exact h.filter _

theorem Readable.perm {rows : List Row} {job : Row} (h : Readable rows job)
    (hperm : rows'.Perm rows) : Readable rows' job where
  completed := h.completed
  window := h.window
  charges := h.charges
  expectedRevenue := h.expectedRevenue
  cost := h.cost
  time := fun row hrow => h.time row ((hperm.filter _).mem_iff.1 hrow)
  materials := fun row hrow => h.materials row ((hperm.filter _).mem_iff.1 hrow)
  invoices := fun row hrow => h.invoices row ((hperm.filter _).mem_iff.1 hrow)
  payments := fun invoice hinvoice row hrow =>
    h.payments invoice ((hperm.filter _).mem_iff.1 hinvoice) row (hperm.mem_iff.1 hrow)

theorem AllReadable.perm {rows : List Row} (h : AllReadable rows) (hperm : rows'.Perm rows) :
    AllReadable rows' where
  keys := (((hperm.filter _).map _).nodup_iff).2 h.keys
  readable := fun job hjob => (h.readable job ((hperm.filter _).mem_iff.1 hjob)).perm hperm

/-! ## What is reported -/

/-- The codes whose exposure is what is owed or lost; the others report what a job is worth. -/
def Code.isDifference : Code → Bool
  | completedUnbilled => false
  | invoiceDelay => false
  | documentationBlocker => false
  | _ => true

/-- A finding has a positive exposure. -/
def Leakage.Positive (l : Leakage) : Prop := ∃ x : ℚ, 0 < x ∧ l.exposure = .finite x

/-- The findings are those whose conditions hold of the own rows of a job, differences are positive,
and neither the rows of other jobs nor the order of all rows matters. -/
structure Covers (rows : List Row) (asOf : ℤ) (findings : List Leakage) : Prop where
  documented : ∀ l, l ∈ findings ↔ ∃ job ∈ jobRows rows, ∃ x row,
    Documented (ownOf rows job) asOf l.code x row ∧ l = leak l.code job.key (.finite x) row
  positive : ∀ l ∈ findings, l.code.isDifference = true → l.Positive
  ofOwnRows : ∀ rows' findings', AllReadable rows' → detectJobToCash rows' asOf = .ok findings' →
    ∀ job ∈ jobRows rows, job ∈ jobRows rows' → (ownOf rows job).Perm (ownOf rows' job) →
      (findings.filter (·.jobId = job.key)).Perm (findings'.filter (·.jobId = job.key))
  anyOrder : ∀ rows', rows'.Perm rows →
    ∃ findings', detectJobToCash rows' asOf = .ok findings' ∧ findings'.Perm findings

/-- No job is reported as underbilled together with time or materials that are missing. -/
def CountedOnce (findings : List Leakage) : Prop :=
  ∀ l ∈ findings, ∀ m ∈ findings, l.jobId = m.jobId → l.code = .underbilling →
    m.code ≠ .missingBillableTime ∧ m.code ≠ .missingMaterialsExpenses

/-- What is claimed of every list of records. -/
def CoversOnce (rows : List Row) (asOf : ℤ) : Prop :=
  ∃ findings, detectJobToCash rows asOf = .ok findings ∧ Covers rows asOf findings ∧
    (∀ l ∈ findings, l.code ≠ .documentationBlocker → l.Positive) ∧ CountedOnce findings

theorem leaks_jobId {asOf : ℤ} (h : l ∈ leaks own asOf) : l.jobId = own.job.key := by
  obtain ⟨x, row, -, hl⟩ := mem_leaks.1 h
  rw [hl]
  rfl

theorem filter_flatMap_leaks {rows : List Row} (h : ((jobRows rows).map (·.key)).Nodup)
    (asOf : ℤ) {job : Row} (hjob : job ∈ jobRows rows) :
    (((jobRows rows).flatMap fun job => leaks (ownOf rows job) asOf).filter
      (·.jobId = job.key)) = leaks (ownOf rows job) asOf := by
  have hparts : ∀ other ∈ jobRows rows,
      (leaks (ownOf rows other) asOf).filter (·.jobId = job.key) =
        if other.key = job.key then leaks (ownOf rows other) asOf else [] := by
    intro other _
    by_cases hkey : other.key = job.key
    · rw [if_pos hkey, filter_eq_self]
      intro l hl
      exact decide_eq_true ((leaks_jobId hl).trans hkey)
    · rw [if_neg hkey, filter_eq_nil_iff]
      intro l hl
      have hid : l.jobId = other.key := leaks_jobId hl
      simpa [hid] using hkey
  have hgroup : group Row.key (jobRows rows) job.key = [job] := group_of_nodup h hjob
  rw [filter_flatMap, flatMap_congr hparts, flatMap_group, hgroup, flatMap_singleton]

theorem Documented.pos {asOf : ℤ} {code : Code} {x : ℚ} {row : Row}
    (h : Documented own asOf code x row) (hcode : code.isDifference = true) : 0 < x := by
  cases h with
  | completedUnbilled | invoiceDelay | documentationBlocker => cases hcode
  | underbilling _ hbelow | missingBillableTime hbelow | missingMaterialsExpenses hbelow =>
    exact sub_pos.2 hbelow
  | paymentDelay _ _ _ hunpaid => exact sub_pos.2 hunpaid
  | negativeMargin hcost => exact sub_pos.2 hcost

namespace Underbilled

/-- A completed job, half of whose time and none of whose materials are billed. -/
def rows : List Row :=
  [⟨.job, .text "J2", [("status", .text "completed"), ("completed_at", .text "2026-01-01"),
      ("billing_window_days", .number 5 "5"), ("contractual_charges", .text "20"),
      ("expected_revenue", .text "120"), ("governed_cost", .text "50")]⟩,
    ⟨.timeEntry, .text "T2", [("job_id", .text "J2"), ("billable_amount", .text "100"),
      ("billed_amount", .text "50")]⟩,
    ⟨.material, .text "M2", [("job_id", .text "J2"), ("billable_amount", .text "30"),
      ("billed_amount", .text "0")]⟩,
    ⟨.invoice, .text "I2", [("job_id", .text "J2"), ("amount", .text "80"),
      ("issued_at", .text "2026-01-20"), ("due_at", .text "2026-02-01"), ("valid", .bool true)]⟩,
    ⟨.payment, .text "P2", [("invoice_id", .text "I2"), ("amount", .text "10")]⟩,
    ⟨.documentation, .text "D2", [("job_id", .text "J2"), ("required", .bool true),
      ("valid", .bool false)]⟩]

/-- The first of March 2026. -/
def asOf : ℤ := 739676

theorem detect_codes : (detectJobToCash rows asOf).map (·.map fun l => (l.code, l.jobId)) =
    .ok [(.documentationBlocker, "J2"), (.invoiceDelay, "J2"), (.missingBillableTime, "J2"),
      (.missingMaterialsExpenses, "J2"), (.paymentDelay, "J2"), (.underbilling, "J2")] := by
  decide +kernel

end Underbilled

end Intel4Ops.JobToCash
