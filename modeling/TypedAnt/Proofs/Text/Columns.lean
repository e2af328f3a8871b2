import TypedAnt.Text
import TypedAnt.Text.Units

/-!
# Lines and columns

How the characters of a text fall into lines, and that a column which counts the code units of
the beginning of a line leads back to the end of that beginning.
-/

namespace TypedAnt
namespace Units

variable {u : Units} {xs ys : List Char}

/-!
# Code units
-/

theorem width_pos (u : Units) (c : Char) : 0 < u.width c := by
  cases u with
  | utf8 =>
      simp only [width]
      split
      · decide
      · split
        · decide
        · split <;> decide
  | utf16 =>
      simp only [width]
      split <;> decide
  | utf32 => exact Nat.one_pos

@[simp]
theorem count_nil (u : Units) : u.count [] = 0 :=
  rfl

@[simp]
theorem count_cons (u : Units) (c : Char) (cs : List Char) :
    u.count (c :: cs) = u.width c + u.count cs :=
  rfl

@[simp]
theorem count_append (u : Units) (xs ys : List Char) :
    u.count (xs ++ ys) = u.count xs + u.count ys := by
  induction xs with
  | nil => rw [List.nil_append, count_nil, Nat.zero_add]
  | cons c xs ih => rw [List.cons_append, count_cons, count_cons, ih, Nat.add_assoc]

theorem width_newline (u : Units) : u.width '\n' = 1 := by
  cases u <;> rfl

theorem offset_count (u : Units) (xs ys : List Char) :
    u.offset (xs ++ ys) (u.count xs) = xs.length := by
  induction xs with
  | nil =>
      cases ys with
      | nil => rfl
      | cons c ys =>
          have hpos := u.width_pos c
          simp [offset, hpos]
  | cons c xs ih =>
      have hnext : ¬((u.count (c :: xs) : Int) < u.width c) := by
        rw [count_cons]
        omega
      have hrest : (u.count (c :: xs) : Int) - u.width c = u.count xs := by
        rw [count_cons]
        omega
      rw [List.cons_append, offset, if_neg hnext, hrest, ih, List.length_cons]

end Units

namespace Text

variable {xs ys : List Char} {separator : Char}

/-!
# Lines
-/

theorem splitAt_cons_self (cs : List Char) :
    splitAt separator (separator :: cs) = [] :: splitAt separator cs := by
  simp [splitAt]

theorem splitAt_ne_nil (separator : Char) (cs : List Char) : splitAt separator cs ≠ [] := by
  cases cs with
  | nil => simp [splitAt]
  | cons c cs =>
      unfold splitAt
      split
      · simp
      · split <;> simp

theorem splitAt_cons_of_ne {c : Char} {cs run : List Char} {more : List (List Char)}
    (hc : c ≠ separator) (h : splitAt separator cs = run :: more) :
    splitAt separator (c :: cs) = (c :: run) :: more := by
  simp [splitAt, hc, h]

theorem splitAt_append_of_not_mem {run : List Char} {more : List (List Char)}
    (hxs : separator ∉ xs) (h : splitAt separator ys = run :: more) :
    splitAt separator (xs ++ ys) = (xs ++ run) :: more := by
  induction xs with
  | nil => exact h
  | cons c xs ih =>
      have hc : c ≠ separator := fun heq => hxs (heq ▸ List.mem_cons_self)
      exact splitAt_cons_of_ne hc (ih fun hmem => hxs (List.mem_cons_of_mem _ hmem))

theorem dropReturn_append (h : xs.getLast? ≠ some '\r') :
    ∃ zs, dropReturn (xs ++ ys) = xs ++ zs := by
  unfold dropReturn
  split
  · rename_i hlast
    cases hys : ys.reverse with
    | nil =>
        rw [List.reverse_eq_nil_iff.mp hys, List.append_nil] at hlast
        exact absurd hlast h
    | cons c rest =>
        have hys' : ys = rest.reverse ++ [c] := by
          rw [← List.reverse_reverse ys, hys, List.reverse_cons]
        refine ⟨rest.reverse, ?_⟩
        rw [hys', ← List.append_assoc, List.dropLast_concat]
  · exact ⟨ys, rfl⟩

theorem length_dropReturn_le (xs : List Char) : (dropReturn xs).length ≤ xs.length := by
  unfold dropReturn
  split
  · rw [List.length_dropLast]
    omega
  · exact Nat.le_refl _

theorem getElem?_lines {text : String} {n : Nat} {run : List Char} {more : List (List Char)}
    (h : (splitAt '\n' text.toList).drop n = run :: more) :
    (lines text)[n]? = some (dropReturn run) := by
  have hrun : (splitAt '\n' text.toList)[n]? = some run := by
    rw [← List.head?_drop, h]
    rfl
  simp [lines, hrun]

theorem lineAt_of_getElem? {text : String} {n : Nat} {line : List Char}
    (h : (lines text)[n]? = some line) : lineAt text n = line := by
  change (lines text).getD n [] = line
  rw [List.getD_eq_getElem?_getD, h]
  rfl

end Text
end TypedAnt
