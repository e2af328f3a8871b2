import TypedAnt.Position
import TypedAnt.Proofs.Token.Lexing

/-!
# Ranges of tokens

The range of a token of a text covers the characters of the token on its line, whatever the
code units that columns are counted in.  A newline and the end of the text have no
characters on their line: they stand at its end.
-/

namespace TypedAnt

/-- The numbers of lines and columns of the text are those of positions. -/
structure Text.Fits (units : Units) (text : String) : Prop where
  lines : ((lines text).length : Int) < Position.limit
  columns : ∀ line ∈ Text.lines text, (units.count line : Int) < Position.limit

def Units.slice (units : Units) (line : List Char) (start stop : Int) : List Char :=
  (line.take (units.offset line stop)).drop (units.offset line start)

/-- The range stands on the line of the token and holds its characters there. -/
def Token.Covered (t : Token) (units : Units) (text : String) (range : Range) : Prop :=
  ∃ n : Nat, ∃ line, (Text.lines text)[n]? = some line ∧ t.line - 1 = n ∧
    range.start.line = n ∧ range.stop.line = n ∧
    match t.kind with
    | .eof =>
        range.start.character = units.count line ∧ range.stop.character = units.count line
    | .newline =>
        range.start.character = units.count line ∧ range.stop.character = units.count line + 1
    | _ => units.slice line range.start.character range.stop.character = t.value.toList

theorem Units.slice_append (units : Units) (xs ys zs : List Char) :
    units.slice (xs ++ ys ++ zs) (units.count xs) (units.count xs + units.count ys) = ys := by
  have hstop : (units.count xs + units.count ys : Int) = units.count (xs ++ ys) := by
    rw [count_append]
    rfl
  unfold slice
  rw [hstop, units.offset_count (xs ++ ys) zs, List.take_left, List.append_assoc,
    units.offset_count xs (ys ++ zs), List.drop_left]

namespace Token

variable {t : Token} {units : Units} {text : String} {n : Nat} {line before : List Char}

theorem range_of_before (hfits : Text.Fits units text) (hline : (Text.lines text)[n]? = some line)
    (hn : t.line = n + 1) (hbefore : line.take (t.column - 1).toNat = before)
    (hstop : (units.count before + units.count t.value.toList : Int) ≤ Position.limit) :
    t.range units text =
      .ok ⟨⟨n, units.count before⟩, ⟨n, units.count before + units.count t.value.toList⟩⟩ := by
  have hcolumns : t.columns units text =
      (units.count before, units.count before + units.count t.value.toList) := by
    simp only [columns, hn, Int.add_sub_cancel, Text.lineAt_of_getElem? hline, hbefore]
  have hlines : (n : Int) < Position.limit := by
    rcases List.getElem?_eq_some_iff.mp hline with ⟨hlt, _⟩
    have hlimit := hfits.lines
    omega
  have hnumbers : ∀ k : Nat, (k : Int) ≤ Position.limit →
      Position.ofNumbers n k = .ok ⟨n, k⟩ := by
    intro k hk
    unfold Position.ofNumbers
    rw [if_neg (by omega), if_neg (by omega)]
  have hzero : max (t.line - 1) 0 = n := by omega
  simp only [range, hcolumns, hzero]
  rw [hnumbers _ (by omega), hnumbers _ (by push_cast; omega)]
  rfl

/-!
# Tokens on their lines
-/

theorem covered_inside {kind : TokenKind} {value after : List Char} (hfits : Text.Fits units text)
    (hlexeme : Lexeme kind value) (hkind : kind ≠ .newline)
    (hsplit : text.toList = before ++ (value ++ after)) :
    ∃ range, (behind before kind value).range units text = .ok range ∧
      (behind before kind value).Covered units text range := by
  rcases Place.line_inside hsplit hlexeme.ne_nil (hlexeme.newline_not_mem hkind)
    (hlexeme.getLast?_ne_return hkind) with ⟨n, seg, zs, hplace, hline⟩
  have hwidth := hfits.columns _ (List.mem_of_getElem? hline)
  rw [Units.count_append, Units.count_append] at hwidth
  have hchars : (behind before kind value).value.toList = value := by simp [behind]
  have hbefore : (seg ++ value ++ zs).take ((behind before kind value).column - 1).toNat = seg := by
    simp [behind, hplace]
  refine ⟨_, range_of_before hfits hline (by simp [behind, hplace]) hbefore ?_, ?_⟩
  · rw [hchars]
    omega
  · refine ⟨n, _, hline, by simp [behind, hplace], rfl, rfl, ?_⟩
    rw [hchars]
    split
    · rename_i heof
      subst heof
      cases hlexeme
    · rename_i hnewline
      exact absurd hnewline hkind
    · exact units.slice_append seg value zs

theorem range_at_end {rest value : List Char} {more : List (List Char)} {k : Nat} (kind : TokenKind)
    (hfits : Text.Fits units text) (hsplit : text.toList = before ++ rest)
    (hrest : Text.splitAt '\n' rest = [] :: more) (hvalue : units.count value = k) (hk : k ≤ 1) :
    ∃ n : Nat, ∃ line, (Text.lines text)[n]? = some line ∧
      (behind before kind value).line - 1 = n ∧
      (behind before kind value).range units text =
        .ok ⟨⟨n, units.count line⟩, ⟨n, units.count line + k⟩⟩ := by
  rcases Place.line_end hsplit hrest with ⟨n, column, line, hplace, hline, hlength⟩
  have hwidth := hfits.columns _ (List.mem_of_getElem? hline)
  have hchars : units.count (behind before kind value).value.toList = k := by
    simpa [behind] using hvalue
  have hbefore : line.take ((behind before kind value).column - 1).toNat = line := by
    have hall := List.take_of_length_le hlength
    simpa [behind, hplace] using hall
  have hrange := range_of_before hfits hline
    (show (behind before kind value).line = n + 1 by simp [behind, hplace]) hbefore
    (by rw [hchars]; omega)
  rw [hchars] at hrange
  exact ⟨n, line, hline, by simp [behind, hplace], hrange⟩

theorem covered_of_located (h : t.Located text.toList) (hfits : Text.Fits units text) :
    ∃ range, t.range units text = .ok range ∧ t.Covered units text range := by
  cases h with
  | @lexeme kind value before after hlexeme hsplit =>
      by_cases hkind : kind = .newline
      · subst hkind
        cases hlexeme
        have hcount : units.count ['\n'] = 1 := by simp [Units.width_newline]
        rcases range_at_end .newline hfits hsplit (Text.splitAt_cons_self after) hcount
          (Nat.le_refl 1) with ⟨n, line, hline, hn, hrange⟩
        exact ⟨_, hrange, n, line, hline, hn, rfl, rfl, rfl, rfl⟩
      · exact covered_inside hfits hlexeme hkind hsplit
  | eof =>
      rcases range_at_end .eof hfits (List.append_nil _).symm rfl units.count_nil (Nat.zero_le 1)
        with ⟨n, line, hline, hn, hrange⟩
      exact ⟨_, hrange, n, line, hline, hn, rfl, rfl, rfl, Int.add_zero _⟩

end Token
end TypedAnt
