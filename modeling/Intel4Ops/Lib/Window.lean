import Mathlib.Order.Lattice
import Mathlib.Data.Option.Basic
import Mathlib.Tactic.Common

/-!
# Windows of time

Half-open windows whose bounds may be open. Two proper windows overlap, each starting before the
other ends, exactly if some instant lies in both.
-/

namespace Lib

variable {τ : Type*}

structure Window (τ : Type*) where
  (start stop : Option τ)

namespace Window

section

variable [LinearOrder τ]

/-- The instant lies in the window. -/
def Contains (w : Window τ) (t : τ) : Prop := (∀ a ∈ w.start, a ≤ t) ∧ ∀ b ∈ w.stop, t < b

def StartsBefore (w w' : Window τ) : Prop := ∀ a ∈ w.start, ∀ b ∈ w'.stop, a < b

/-- The window starts before it ends. -/
def Proper (w : Window τ) : Prop := w.StartsBefore w

def Overlaps (w w' : Window τ) : Prop := w.StartsBefore w' ∧ w'.StartsBefore w

instance (w w' : Window τ) : Decidable (w.StartsBefore w') :=
  inferInstanceAs (Decidable (∀ a ∈ w.start, ∀ b ∈ w'.stop, a < b))

instance (w w' : Window τ) : Decidable (w.Overlaps w') := inferInstanceAs (Decidable (_ ∧ _))

instance (w : Window τ) : Decidable w.Proper := inferInstanceAs (Decidable (w.StartsBefore w))

theorem Overlaps.symm {w w' : Window τ} (h : w.Overlaps w') : w'.Overlaps w := ⟨h.2, h.1⟩

theorem Contains.startsBefore {w w' : Window τ} {t : τ} (h : w.Contains t) (h' : w'.Contains t) :
    w.StartsBefore w' := fun a ha b hb => (h.1 a ha).trans_lt (h'.2 b hb)

theorem Overlaps.contains_start {w w' : Window τ} {a : τ} (h : w.Overlaps w') (hw : w.Proper)
    (ha : a ∈ w.start) (hle : ∀ a' ∈ w'.start, a' ≤ a) : w.Contains a ∧ w'.Contains a := by
  refine ⟨⟨fun a' ha' => ?_, hw a ha⟩, hle, h.1 a ha⟩
  exact (Option.mem_unique ha' ha).le

variable [NoMinOrder τ] [Nonempty τ]

theorem exists_lt_stops (w w' : Window τ) : ∃ t, (∀ b ∈ w.stop, t < b) ∧ ∀ b ∈ w'.stop, t < b := by
  cases hstop : w.stop with
  | none =>
    cases hstop' : w'.stop with
    | none => exact ⟨Classical.arbitrary τ, by simp, by simp⟩
    | some b' =>
      obtain ⟨t, ht⟩ := exists_lt b'
      exact ⟨t, by simp, by simpa using ht⟩
  | some b =>
    cases hstop' : w'.stop with
    | none =>
      obtain ⟨t, ht⟩ := exists_lt b
      exact ⟨t, by simpa using ht, by simp⟩
    | some b' =>
      obtain ⟨t, ht⟩ := exists_lt (min b b')
      exact ⟨t, by simpa using ht.trans_le (min_le_left _ _),
        by simpa using ht.trans_le (min_le_right _ _)⟩

theorem exists_contains_iff {w w' : Window τ} (hw : w.Proper) (hw' : w'.Proper) :
    (∃ t, w.Contains t ∧ w'.Contains t) ↔ w.Overlaps w' := by
  constructor
  · rintro ⟨t, h, h'⟩
    exact ⟨h.startsBefore h', h'.startsBefore h⟩
  · intro h
    cases hstart : w.start with
    | none =>
      cases hstart' : w'.start with
      | none =>
        obtain ⟨t, ht, ht'⟩ := exists_lt_stops w w'
        exact ⟨t, ⟨by simp [hstart], ht⟩, ⟨by simp [hstart'], ht'⟩⟩
      | some a' =>
        exact ⟨a', (h.symm.contains_start hw' hstart' (by simp [hstart])).symm⟩
    | some a =>
      cases hstart' : w'.start with
      | none => exact ⟨a, h.contains_start hw hstart (by simp [hstart'])⟩
      | some a' =>
        rcases le_total a a' with hle | hle
        · exact ⟨a', (h.symm.contains_start hw' hstart' (by simpa [hstart] using hle)).symm⟩
        · exact ⟨a, h.contains_start hw hstart (by simpa [hstart'] using hle)⟩

end

end Window

end Lib
