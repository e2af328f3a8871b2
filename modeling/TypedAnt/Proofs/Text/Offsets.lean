import Mathlib.Order.Bounds.Basic
import TypedAnt.Proofs.Text.Columns

/-!
# From columns to characters

A column stands behind as many characters of its line as it has units for.  This is the whole
of what `Units.offset` computes: how it behaves between characters, inside a wide one and
behind the end of the line follows from it.
-/

namespace TypedAnt
namespace Units

variable {line : List Char} {column : Int} {i : Nat}

/-!
# The characters before a column
-/

theorem offset_le_length (u : Units) (line : List Char) (column : Int) :
    u.offset line column ≤ line.length := by
  induction line generalizing column with
  | nil => exact Nat.le_refl 0
  | cons c cs ih =>
      rw [offset]
      split
      · exact Nat.zero_le _
      · exact Nat.succ_le_succ (ih _)

theorem count_take_le_iff (u : Units) (hcolumn : 0 ≤ column) (hi : i ≤ line.length) :
    (u.count (line.take i) : Int) ≤ column ↔ i ≤ u.offset line column := by
  induction line generalizing column i with
  | nil =>
      cases Nat.le_zero.mp hi
      simp [hcolumn]
  | cons c cs ih =>
      cases i with
      | zero => simp [hcolumn]
      | succ i =>
          have hrest : i ≤ cs.length := Nat.le_of_succ_le_succ hi
          rw [List.take_succ_cons, count_cons, offset]
          split
          · omega
          · rw [Nat.add_le_add_iff_right, ← ih (by omega) hrest]
            omega

theorem offset_isGreatest (u : Units) (line : List Char) (hcolumn : 0 ≤ column) :
    IsGreatest {i | i ≤ line.length ∧ (u.count (line.take i) : Int) ≤ column}
      (u.offset line column) := by
  have hlength := u.offset_le_length line column
  constructor
  · exact ⟨hlength, (u.count_take_le_iff hcolumn hlength).mpr (Nat.le_refl _)⟩
  · intro i hi
    exact (u.count_take_le_iff hcolumn hi.1).mp hi.2

/-!
# What follows for single columns
-/

theorem offset_mono (u : Units) (line : List Char) {further : Int} (hcolumn : 0 ≤ column)
    (h : column ≤ further) : u.offset line column ≤ u.offset line further := by
  refine (u.offset_isGreatest line hcolumn).mono
    (u.offset_isGreatest line (Int.le_trans hcolumn h)) ?_
  intro i hi
  exact ⟨hi.1, Int.le_trans hi.2 h⟩

theorem offset_of_count_le (u : Units) (h : (u.count line : Int) ≤ column) :
    u.offset line column = line.length := by
  have hcolumn : 0 ≤ column := by omega
  have hall : line.length ≤ u.offset line column := by
    rw [← u.count_take_le_iff hcolumn (Nat.le_refl _), List.take_length]
    exact h
  exact Nat.le_antisymm (u.offset_le_length line column) hall

/-- A column inside a character, or at its start, stands at the start of it. -/
theorem offset_inside (u : Units) {before after : List Char} {c : Char}
    (hstart : (u.count before : Int) ≤ column) (hstop : column < u.count before + u.width c) :
    u.offset (before ++ c :: after) column = before.length := by
  have hcolumn : 0 ≤ column := by omega
  have hlength : before.length < (before ++ c :: after).length := by simp
  apply Nat.le_antisymm
  · rw [← Nat.lt_succ_iff, ← Nat.not_le, ← u.count_take_le_iff hcolumn hlength]
    have htake : (before ++ c :: after).take (before.length + 1) = before ++ [c] :=
      List.take_length_add_append 1
    rw [htake, count_append, count_cons, count_nil]
    omega
  · rw [← u.count_take_le_iff hcolumn hlength.le, List.take_left]
    exact hstart

/--
A column stands behind the greatest number of characters at the beginning of its line that take
no more units than it counts.  So a further column stands behind as many characters or more, a
column past the end of the line stands at its end, one inside a wide character stands
before it, and the column that counts the units of some characters at the beginning of the
line leads back to them.
-/
theorem offset_inverts_count (u : Units) (line : List Char) (column : Int) (hcolumn : 0 ≤ column) :
    IsGreatest {i | i ≤ line.length ∧ (u.count (line.take i) : Int) ≤ column}
        (u.offset line column) ∧
      (∀ further, column ≤ further → u.offset line column ≤ u.offset line further) ∧
      (u.count line ≤ column → u.offset line column = line.length) ∧
      (∀ before c after, line = before ++ c :: after → u.count before ≤ column →
        column < u.count before + u.width c → u.offset line column = before.length) ∧
      ∀ i ≤ line.length, u.offset line (u.count (line.take i)) = i := by
  refine ⟨u.offset_isGreatest line hcolumn, ?_, u.offset_of_count_le, ?_, ?_⟩
  · intro further h
    exact u.offset_mono line hcolumn h
  · intro before c after hline hstart hstop
    rw [hline]
    exact u.offset_inside hstart hstop
  · intro i hi
    have hback := u.offset_count (line.take i) (line.drop i)
    rwa [List.take_append_drop, List.length_take_of_le hi] at hback

def wideLine : List Char :=
  ['é', '😀', 'x']

theorem offset_inverts_count_wideLine :
    (0 : Int) ≤ 5 ∧ utf8.count wideLine = 7 ∧
      IsGreatest {i | i ≤ 3 ∧ (utf8.count (wideLine.take i) : Int) ≤ 5} (utf8.offset wideLine 5) ∧
      utf8.offset wideLine 5 = 1 ∧ utf8.offset wideLine 5 ≤ utf8.offset wideLine 8 ∧
      utf8.offset wideLine 8 = 3 ∧ utf8.offset wideLine 6 = 2 := by
  have hfive := offset_inverts_count utf8 wideLine 5 (by decide)
  have height := offset_inverts_count utf8 wideLine 8 (by decide)
  rcases hfive with ⟨hgreatest, hmono, _, hinside, hback⟩
  rcases height with ⟨_, _, hend, _, _⟩
  exact ⟨by decide, rfl, hgreatest, hinside ['é'] '😀' ['x'] rfl (by decide) (by decide),
    hmono 8 (by decide), hend (by decide), hback 2 (by decide)⟩

end Units
end TypedAnt
