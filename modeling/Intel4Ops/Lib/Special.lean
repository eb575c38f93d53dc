import Intel4Ops.Lib.Except
import Intel4Ops.Lib.Json

/-!
# Decimal numbers with special values

Decimals with infinities and with numbers that are none. An operation is exact on finite numbers
and signals where its result is not defined; a quiet number that is none passes through.
-/

namespace Lib

open List

/-- A decimal. -/
inductive Special
  | finite (value : ℚ)
  | infinite (negative : Bool)
  | nan (signaling : Bool)
  deriving DecidableEq

/-- The signals of decimal arithmetic that are raised. -/
inductive Signal
  | invalidOperation
  | divisionByZero

namespace Special

def isFinite : Special → Bool
  | finite _ => true
  | _ => false

def isNan : Special → Bool
  | nan _ => true
  | _ => false

/-- The result of an operation with a number that is none. -/
def propagate (a b : Special) : Option (Except Signal Special) :=
  if a = nan true ∨ b = nan true then some (.error .invalidOperation)
  else if a = nan false ∨ b = nan false then some (.ok (nan false))
  else none

/-- `a + b` of numbers. -/
def addNumbers : Special → Special → Except Signal Special
  | finite a, finite b => .ok (finite (a + b))
  | infinite s, infinite t => if s = t then .ok (infinite s) else .error .invalidOperation
  | infinite s, _ => .ok (infinite s)
  | _, b => .ok b

/-- `a + b` -/
def add (a b : Special) : Except Signal Special := (propagate a b).getD (addNumbers a b)

/-- `-b` in a difference. -/
def neg : Special → Special
  | finite a => finite (-a)
  | infinite s => infinite (!s)
  | nan s => nan s

/-- `a - b` -/
def sub (a b : Special) : Except Signal Special := a.add b.neg

/-- `a / b` of numbers. -/
def divNumbers : Special → Special → Except Signal Special
  | infinite _, infinite _ => .error .invalidOperation
  | infinite s, finite b => .ok (infinite (xor s (decide (b < 0))))
  | finite a, finite b =>
    if b = 0 then .error (if a = 0 then .invalidOperation else .divisionByZero)
    else .ok (finite (a / b))
  | finite _, _ => .ok (finite 0)
  | _, b => .ok b

/-- `a / b` -/
def div (a b : Special) : Except Signal Special := (propagate a b).getD (divNumbers a b)

/-- `a * b` for a positive `b`. -/
def scale (b : ℚ) : Special → Except Signal Special
  | finite a => .ok (finite (a * b))
  | nan true => .error .invalidOperation
  | a => .ok a

/-- `abs(a)` -/
def abs : Special → Except Signal Special
  | finite a => .ok (finite |a|)
  | infinite _ => .ok (infinite false)
  | nan true => .error .invalidOperation
  | nan false => .ok (nan false)

/-- `a < b`; a number that is none is not ordered. -/
def lt : Special → Special → Except Signal Bool
  | nan _, _ => .error .invalidOperation
  | _, nan _ => .error .invalidOperation
  | finite a, finite b => .ok (a < b)
  | infinite s, infinite t => .ok (s && !t)
  | infinite s, finite _ => .ok s
  | finite _, infinite t => .ok (!t)

/-- `sum(values, Decimal(0))` -/
def sum (values : List Special) : Except Signal Special := values.foldlM add (finite 0)

/-- One step of `min` and `max`: the candidate replaces the best so far if it is before it. -/
def extremum (before : Special → Special → Except Signal Bool) (best candidate : Special) :
    Except Signal Special :=
  (before candidate best).map fun better => if better then candidate else best

/-- `Decimal(text)`, where digits may be grouped by underscores. -/
def ofText? (text : String) : Option Special :=
  let unsigned : List Char → Option (Bool → Special) := fun cs =>
    if cs = "inf".toList ∨ cs = "infinity".toList then some infinite
    else if cs.take 3 = "nan".toList ∧ (cs.drop 3).all Char.isDigit then some fun _ => nan false
    else if cs.take 4 = "snan".toList ∧ (cs.drop 4).all Char.isDigit then some fun _ => nan true
    else (Numeral.scientific cs).map fun x negative => finite (if negative then -x else x)
  match ((Numeral.strip text).filter (· ≠ '_')).map Char.toLower with
  | '-' :: cs => (unsigned cs).map (· true)
  | '+' :: cs => (unsigned cs).map (· false)
  | cs => (unsigned cs).map (· false)

/-! ## Finite operands -/

@[simp] theorem sub_finite (a b : ℚ) : sub (finite a) (finite b) = .ok (finite (a - b)) := by
  simp [sub, neg, add, propagate, addNumbers, sub_eq_add_neg]

@[simp] theorem scale_finite (a b : ℚ) : scale b (finite a) = .ok (finite (a * b)) := rfl

theorem div_finite (a : ℚ) {b : ℚ} (hb : b ≠ 0) :
    div (finite a) (finite b) = .ok (finite (a / b)) := by
  simp [div, propagate, divNumbers, hb]

theorem div_zero (a : ℚ) : ∃ signal, div (finite a) (finite 0) = .error signal := by
  simp [div, propagate, divNumbers]

@[simp] theorem add_finite (a b : ℚ) : add (finite a) (finite b) = .ok (finite (a + b)) := by
  simp [add, propagate, addNumbers]

@[simp] theorem lt_finite (a b : ℚ) : lt (finite a) (finite b) = .ok (a < b) := rfl

theorem sum_finite (values : List ℚ) : sum (values.map finite) = .ok (finite values.sum) := by
  have hfold : ∀ a : ℚ,
      (values.map finite).foldlM add (finite a) = .ok (finite (a + values.sum)) := by
    induction values with
    | nil =>
      intro a
      simp [pure, Except.pure]
    | cons value values ih =>
      intro a
      rw [map_cons, foldlM_cons, add_finite, ok_bind, ih, sum_cons, add_assoc]
  have hsum := hfold 0
  rwa [zero_add] at hsum

/-! ## When an operation on two operands signals -/

theorem sub_eq_error (a b : Special) : (∃ e, sub a b = .error e) ↔
      a = nan true ∨ b = nan true ∨ ∃ s, a = infinite s ∧ b = infinite s := by
  cases a with
  | finite x =>
    cases b with
    | finite y => simp
    | infinite t => simp [sub, neg, add, propagate, addNumbers]
    | nan signaling => cases signaling <;> simp [sub, neg, add, propagate]
  | infinite s =>
    cases b with
    | finite y => simp [sub, neg, add, propagate, addNumbers]
    | infinite t => cases s <;> cases t <;> simp [sub, neg, add, propagate, addNumbers]
    | nan signaling => cases signaling <;> simp [sub, neg, add, propagate]
  | nan signaling =>
    cases signaling
    · cases b with
      | finite y | infinite t => simp [sub, neg, add, propagate]
      | nan signaling => cases signaling <;> simp [sub, neg, add, propagate]
    · simp [sub, add, propagate]

theorem div_eq_error {a b : Special} (h : ¬ (a.isFinite = true ∧ b.isFinite = true)) :
    (∃ e, div a b = .error e) ↔
      a = nan true ∨ b = nan true ∨ ∃ s t, a = infinite s ∧ b = infinite t := by
  cases a with
  | finite x =>
    cases b with
    | finite y => exact absurd ⟨rfl, rfl⟩ h
    | infinite t => simp [div, propagate, divNumbers]
    | nan signaling => cases signaling <;> simp [div, propagate]
  | infinite s =>
    cases b with
    | finite y | infinite t => simp [div, propagate, divNumbers]
    | nan signaling => cases signaling <;> simp [div, propagate]
  | nan signaling =>
    cases signaling
    · cases b with
      | finite y | infinite t => simp [div, propagate]
      | nan signaling => cases signaling <;> simp [div, propagate]
    · simp [div, propagate]

theorem div_ne_signaling {a b result : Special} (h : div a b = .ok result) : result ≠ nan true := by
  unfold div propagate at h
  split_ifs at h with h₁ h₂
  · cases h
  · obtain rfl : nan false = result := Except.ok.inj h
    simp
  · rw [not_or] at h₁
    rw [Option.getD_none] at h
    rintro rfl
    cases a with
    | finite x =>
      cases b with
      | finite y => by_cases hy : y = 0 <;> simp [divNumbers, hy] at h
      | infinite t | nan t => simp [divNumbers] at h
    | infinite s => cases b <;> simp_all [divNumbers]
    | nan s => cases b <;> simp_all

theorem scale_eq_error (b : ℚ) (a : Special) : (∃ e, scale b a = .error e) ↔ a = nan true := by
  cases a with
  | finite x | infinite s => simp [scale]
  | nan signaling => cases signaling <;> simp [scale]

theorem div_scale_eq_error (a b : Special) (c : ℚ) :
    (∃ e, (div a b >>= scale c) = .error e) ↔ ∃ e, div a b = .error e := by
  cases hdiv : div a b with
  | error e => simp
  | ok result =>
    rw [ok_bind, scale_eq_error]
    exact iff_of_false (div_ne_signaling hdiv) (by simp)

/-! ## When a sum signals -/

/-- A sum signals at a signaling number, and where infinities of both signs meet before any number
that is none. -/
def SumInvalid (values : List Special) : Prop :=
  nan true ∈ values ∨ (∀ s, infinite s ∈ values.takeWhile fun value => !value.isNan)

theorem sum_from_nan (values : List Special) :
    (∃ e, values.foldlM add (nan false) = .error e) ↔ nan true ∈ values := by
  induction values with
  | nil => simp [pure, Except.pure]
  | cons value values ih =>
    rw [foldlM_cons]
    cases value with
    | finite x | infinite s => simpa [add, propagate, bind, Except.bind] using ih
    | nan signaling =>
      cases signaling
      · simpa [add, propagate, bind, Except.bind] using ih
      · simp [add, propagate, bind, Except.bind]

theorem sum_from_infinite (s : Bool) (values : List Special) :
    (∃ e, values.foldlM add (infinite s) = .error e) ↔
      nan true ∈ values ∨ infinite (!s) ∈ values.takeWhile fun value => !value.isNan := by
  induction values with
  | nil => simp [pure, Except.pure]
  | cons value values ih =>
    rw [foldlM_cons]
    cases value with
    | finite x => simpa [add, propagate, addNumbers, isNan, bind, Except.bind] using ih
    | infinite t =>
      by_cases hst : s = t
      · subst hst
        simpa [add, propagate, addNumbers, isNan, bind, Except.bind] using ih
      · have ht : t = !s := by cases s <;> cases t <;> simp_all
        simp [add, propagate, addNumbers, isNan, ht, bind, Except.bind]
    | nan signaling =>
      cases signaling
      · simpa [add, propagate, isNan, bind, Except.bind] using sum_from_nan values
      · simp [add, propagate, bind, Except.bind]

theorem sum_from_finite (a : ℚ) (values : List Special) :
    (∃ e, values.foldlM add (finite a) = .error e) ↔ SumInvalid values := by
  unfold SumInvalid
  induction values generalizing a with
  | nil => simp [pure, Except.pure]
  | cons value values ih =>
    rw [foldlM_cons]
    cases value with
    | finite x => simpa [add, propagate, addNumbers, isNan, bind, Except.bind] using ih (a + x)
    | infinite t =>
      have hboth : (∀ s, infinite s ∈
          (infinite t :: values).takeWhile fun value => !value.isNan) ↔
            infinite (!t) ∈ values.takeWhile fun value => !value.isNan := by
        cases t <;> simp [isNan]
      rw [hboth]
      simpa [add, propagate, addNumbers, bind, Except.bind] using sum_from_infinite t values
    | nan signaling =>
      cases signaling
      · simpa [add, propagate, isNan, bind, Except.bind] using sum_from_nan values
      · simp [add, propagate, bind, Except.bind]

theorem sum_eq_error (values : List Special) :
    (∃ e, sum values = .error e) ↔ SumInvalid values := sum_from_finite 0 values

theorem add_ne_signaling {a b total : Special} (h : add a b = .ok total) : total ≠ nan true := by
  unfold add propagate at h
  split_ifs at h with h₁ h₂
  · cases h
  · obtain rfl : nan false = total := Except.ok.inj h
    simp
  · rw [not_or] at h₁
    rw [Option.getD_none] at h
    rintro rfl
    cases a with
    | finite x => cases b <;> simp_all [addNumbers]
    | infinite s =>
      cases b with
      | finite y => cases h
      | infinite t =>
        by_cases hst : s = t
        · simp [addNumbers, hst] at h
        · simp [addNumbers, hst] at h
      | nan t => cases h
    | nan s => cases b <;> simp_all

theorem sum_ne_signaling {values : List Special} {total : Special} (h : sum values = .ok total) :
    total ≠ nan true := by
  have hstep : ∀ (acc : Special) (values : List Special), acc ≠ nan true →
      values.foldlM add acc = .ok total → total ≠ nan true := by
    intro acc values
    induction values generalizing acc with
    | nil =>
      intro hacc h
      obtain rfl : acc = total := Except.ok.inj h
      exact hacc
    | cons value values ih =>
      intro hacc h
      rw [foldlM_cons] at h
      cases hadd : add acc value with
      | error e =>
        rw [hadd] at h
        cases h
      | ok next =>
        rw [hadd] at h
        exact ih next (add_ne_signaling hadd) h
  exact hstep (finite 0) values (by simp) h

/-! ## When an extremum signals -/

/-- A comparison of numbers. -/
structure Ordering (before : Special → Special → Except Signal Bool) : Prop where
  signals : ∀ a b, (∃ e, before a b = .error e) ↔ a.isNan = true ∨ b.isNan = true

theorem lt_ordering : Ordering lt where
  signals a b := by cases a <;> cases b <;> simp [lt, isNan]

theorem gt_ordering : Ordering (fun a b => lt b a) where
  signals a b := by cases a <;> cases b <;> simp [lt, isNan]

theorem extremum_eq_error {before : Special → Special → Except Signal Bool}
    (h : Ordering before) (best : Special) (values : List Special) :
    (∃ e, values.foldlM (extremum before) best = .error e) ↔
      values ≠ [] ∧ ∃ value ∈ best :: values, value.isNan = true := by
  induction values generalizing best with
  | nil => simp [pure, Except.pure]
  | cons value values ih =>
    have hsignals := h.signals value best
    rw [foldlM_cons, extremum]
    cases hbefore : before value best with
    | error e =>
      have hnan : value.isNan = true ∨ best.isNan = true := hsignals.1 ⟨e, hbefore⟩
      simp only [Except.map, bind, Except.bind, Except.error.injEq, exists_eq', true_iff]
      refine ⟨cons_ne_nil _ _, ?_⟩
      rcases hnan with hnan | hnan
      · exact ⟨value, by simp, hnan⟩
      · exact ⟨best, by simp, hnan⟩
    | ok better =>
      have hnone : ¬ (value.isNan = true ∨ best.isNan = true) := by
        rw [← hsignals, hbefore]
        rintro ⟨e, he⟩
        cases he
      rw [not_or] at hnone
      have hnext : (if better = true then value else best).isNan ≠ true := by
        split
        · exact hnone.1
        · exact hnone.2
      refine (ih _).trans ?_
      simp only [mem_cons, exists_eq_or_imp, hnext, hnone.1, hnone.2, Bool.false_eq_true, false_or]
      constructor
      · rintro ⟨-, hnan⟩
        exact ⟨cons_ne_nil _ _, hnan⟩
      · rintro ⟨-, v, hv, hnan⟩
        exact ⟨ne_nil_of_mem hv, v, hv, hnan⟩

end Special

end Lib
