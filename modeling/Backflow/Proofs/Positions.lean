import Mathlib.Algebra.Group.Nat.Defs
import Mathlib.Data.List.TakeWhile
import Backflow.Location

namespace Backflow.Location

/-- The place where a text ends: one line more than it has line feeds, and one column more than there are characters
after the last of them. -/
def endOf (s : List Char) : Location := ⟨s.count '\n' + 1, (s.reverse.takeWhile (· ≠ '\n')).length + 1⟩

def Before (l m : Location) : Prop := l.line < m.line ∨ l.line = m.line ∧ l.col < m.col

instance (l m : Location) : Decidable (l.Before m) :=
  inferInstanceAs (Decidable (l.line < m.line ∨ l.line = m.line ∧ l.col < m.col))

/-- The numbers that are reported are the line and the column themselves. -/
def Exact (l : Location) : Prop := l.numbers.1.toNat = l.line ∧ l.numbers.2.toNat = l.col

variable {l m n : Location} {s t u v : List Char}

theorem endOf_concat (s : List Char) (c : Char) : endOf (s ++ [c]) = (endOf s).step c := by
  by_cases hc : c = '\n'
  · simp [endOf, step, hc]
  · simp [endOf, step, hc]

theorem endOf_append (s t : List Char) : endOf (s ++ t) = (endOf s).advance t := by
  induction t generalizing s with
  | nil => simp
  | cons c t ih => rw [advance_cons, ← endOf_concat, ← ih, List.append_assoc, List.singleton_append]

theorem Before.trans (h : l.Before m) (h' : m.Before n) : l.Before n := by
  unfold Before at *
  omega

theorem not_before_self (l : Location) : ¬ l.Before l := by
  unfold Before
  omega

theorem Before.asymm (h : l.Before m) : ¬ m.Before l := fun h' => not_before_self l (h.trans h')

theorem before_step (l : Location) (c : Char) : l.Before (l.step c) := by
  unfold step Before
  split <;> simp

theorem before_advance (l : Location) (h : s ≠ []) : l.Before (l.advance s) := by
  induction s generalizing l with
  | nil => exact absurd rfl h
  | cons c s ih =>
      cases s with
      | nil => exact before_step l c
      | cons d s => exact (before_step l c).trans (ih _ (List.cons_ne_nil d s))

theorem before_endOf_append (s : List Char) (h : t ≠ []) : (endOf s).Before (endOf (s ++ t)) :=
  endOf_append s t ▸ before_advance _ h

theorem eq_of_endOf_eq (htext : s ++ u = t ++ v) (h : endOf s = endOf t) : s = t := by
  rcases List.append_eq_append_iff.1 htext with ⟨w, rfl, _⟩ | ⟨w, rfl, _⟩
  · cases w with
    | nil => rw [List.append_nil]
    | cons c w => exact absurd (h ▸ before_endOf_append s (List.cons_ne_nil c w)) (not_before_self _)
  · cases w with
    | nil => rw [List.append_nil]
    | cons c w => exact absurd (h ▸ before_endOf_append t (List.cons_ne_nil c w)) (not_before_self _)

theorem line_endOf_le (s : List Char) : (endOf s).line ≤ s.length + 1 :=
  Nat.succ_le_succ List.count_le_length

theorem col_endOf_le (s : List Char) : (endOf s).col ≤ s.length + 1 := by
  have h := (List.takeWhile_prefix (l := s.reverse) (· ≠ '\n')).length_le
  rw [List.length_reverse] at h
  exact Nat.succ_le_succ h

end Backflow.Location
