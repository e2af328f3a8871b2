import TypedAnt.Proofs.Token.Scanning

/-!
# Line by line

No piece of a text goes beyond the end of its line.  Where a line ends, the scanner finds what
it would find where the text ends, so the parts of a text before and behind a line break are
lexed each as if it stood alone.
-/

namespace TypedAnt

/-!
# Pieces before a line break
-/

variable {cs more : List Char} {kind : TokenKind} {text : List Char}

theorem Lexeme.prefix_of_line (h : Lexeme kind text) (hcs : cs ≠ [])
    (hbegin : text <+: cs ++ '\n' :: more) : text <+: cs := by
  by_cases hkind : kind = .newline
  · subst hkind
    cases h
    have hlength : ['\n'].length ≤ cs.length := List.length_pos_iff.mpr hcs
    exact (List.isPrefix_append_of_length hlength).mp hbegin
  · exact prefix_of_mark_not_mem hbegin (h.newline_not_mem hkind)

theorem Lexeme.Longest.before_newline (h : Longest kind text cs) (more : List Char) :
    Longest kind text (cs ++ '\n' :: more) where
  lexeme := h.lexeme
  isPrefix := h.isPrefix.trans (List.prefix_append _ _)
  length_le other longer hlexeme hbegin := by
    have hcs : cs ≠ [] := h.isPrefix.ne_nil h.lexeme.ne_nil
    exact h.length_le other longer hlexeme (hlexeme.prefix_of_line hcs hbegin)
  kind_eq := h.kind_eq

theorem NoLexeme.before_newline (h : NoLexeme cs) (hcs : cs ≠ []) (more : List Char) :
    NoLexeme (cs ++ '\n' :: more) := by
  intro kind text hlexeme hbegin
  exact h kind text hlexeme (hlexeme.prefix_of_line hcs hbegin)

namespace Piece

theorem takeWhile_isLineChar_append (xs ys : List Char) :
    (xs ++ '\n' :: ys).takeWhile isLineChar = xs.takeWhile isLineChar := by
  induction xs with
  | nil => rfl
  | cons c xs ih =>
      rw [List.cons_append, List.takeWhile_cons, List.takeWhile_cons, ih]

theorem ne_nil_of_head? {c : Char} (h : cs.head? = some c) : cs ≠ [] := by
  rintro rfl
  cases h

theorem head?_before_newline {c : Char} (h : cs.head? = some c) (more : List Char) :
    (cs ++ '\n' :: more).head? = some c := by
  rw [List.head?_append_of_ne_nil _ (ne_nil_of_head? h), h]

/-- What is cut off a text is also cut off when a line break and more follow the text. -/
theorem Cut.before_newline {piece : Piece} (h : Cut cs piece) (more : List Char) :
    Cut (cs ++ '\n' :: more) piece := by
  cases h with
  | token hlongest hcomment =>
      apply Cut.token (hlongest.before_newline more)
      intro hbegin
      exact hcomment (prefix_of_mark_not_mem hbegin (by decide))
  | blank hc hhead => exact .blank hc (head?_before_newline hhead more)
  | comment hbegin =>
      rw [← takeWhile_isLineChar_append cs more]
      exact .comment (hbegin.trans (List.prefix_append _ _))
  | stray hnone hc hhead =>
      exact .stray (hnone.before_newline (ne_nil_of_head? hhead) more) hc
        (head?_before_newline hhead more)
  | unclosed hnone hhead =>
      rw [← takeWhile_isLineChar_append cs more]
      exact .unclosed (hnone.before_newline (ne_nil_of_head? hhead) more)
        (head?_before_newline hhead more)

theorem Scanned.append_newline {pieces others : List Piece} (h : Scanned cs pieces)
    (hmore : Scanned more others) :
    Scanned (cs ++ '\n' :: more) (pieces ++ token .newline ['\n'] :: others) := by
  induction h with
  | done =>
      have hcut : Cut ((token .newline ['\n']).text ++ more) (token .newline ['\n']) :=
        .token (Lexeme.longest_newline more) (not_comment_of_ne (by decide))
      exact .next hcut hmore
  | @next piece rest pieces hcut _ ih =>
      have hcut' := hcut.before_newline more
      rw [List.append_assoc] at hcut' ⊢
      exact .next hcut' ih

theorem split_append_newline (cs more : List Char) :
    split (cs ++ '\n' :: more) = split cs ++ token .newline ['\n'] :: split more :=
  (scanned_split _).unique ((scanned_split cs).append_newline (scanned_split more))

end Piece

/-!
# Places behind a line break
-/

def Place.down (count : Nat) (p : Place) : Place :=
  ⟨p.line + count, p.column⟩

def Token.down (count : Nat) (t : Token) : Token :=
  { t with line := t.line + count }

def LexError.down (count : Nat) (e : LexError) : LexError :=
  { e with place := e.place.down count }

theorem Place.behind_newline (before cs : List Char) :
    Place.behind (before ++ '\n' :: cs) = (Place.behind cs).down (before.count '\n' + 1) := by
  have hcolumn : ((before ++ '\n' :: cs).reverse.takeWhile Piece.isLineChar) =
      cs.reverse.takeWhile Piece.isLineChar := by
    rw [List.reverse_append, List.reverse_cons, List.append_assoc, List.singleton_append]
    exact Piece.takeWhile_isLineChar_append _ _
  have hline : (before ++ '\n' :: cs).count '\n' = cs.count '\n' + (before.count '\n' + 1) := by
    rw [List.count_append, List.count_cons_self, Nat.add_comm, Nat.add_assoc, Nat.add_comm 1]
  unfold behind down
  rw [hcolumn, hline, Nat.add_assoc]

theorem Place.token_down (count : Nat) (p : Place) (kind : TokenKind) (text : List Char) :
    (p.down count).token kind text = (p.token kind text).down count := by
  simp [Place.token, Place.down, Token.down]

namespace Piece

theorem withBefore_append (before : List Char) (pieces others : List Piece) :
    withBefore before (pieces ++ others) =
      withBefore before pieces ++ withBefore (before ++ pieces.flatMap Piece.text) others := by
  induction pieces generalizing before with
  | nil => simp [withBefore]
  | cons piece pieces ih =>
      rw [List.cons_append, withBefore, withBefore, ih, List.flatMap_cons, List.append_assoc]
      rfl

theorem withBefore_newline (before cs : List Char) (pieces : List Piece) :
    withBefore (before ++ '\n' :: cs) pieces =
      (withBefore cs pieces).map (Prod.map (before ++ '\n' :: ·) id) := by
  induction pieces generalizing cs with
  | nil => rfl
  | cons piece pieces ih =>
      rw [withBefore, withBefore, List.map_cons, ← ih, List.append_assoc]
      rfl

theorem tokenAt?_newline (before : List Char) (found : List Char × Piece) :
    tokenAt? (Prod.map (before ++ '\n' :: ·) id found) =
      (tokenAt? found).map (Token.down (before.count '\n' + 1)) := by
  rcases found with ⟨cs, piece⟩
  cases piece with
  | token kind text =>
      change some ((Place.behind (before ++ '\n' :: cs)).token kind text) = _
      rw [Place.behind_newline, Place.token_down]
      rfl
  | _ => rfl

theorem errorAt?_newline (before : List Char) (found : List Char × Piece) :
    errorAt? (Prod.map (before ++ '\n' :: ·) id found) =
      (errorAt? found).map (LexError.down (before.count '\n' + 1)) := by
  rcases found with ⟨cs, piece⟩
  cases piece with
  | stray c =>
      change some (LexError.mk (Place.behind (before ++ '\n' :: cs)) (.stray c)) = _
      rw [Place.behind_newline]
      rfl
  | unclosed text =>
      change some (LexError.mk (Place.behind (before ++ '\n' :: cs)) .unclosed) = _
      rw [Place.behind_newline]
      rfl
  | _ => rfl

/--
What is read off the pieces of two texts with a line break between them, if behind the break it
only has to be moved down.
-/
theorem filterMap_split_append {α : Type} {read : List Char × Piece → Option α} {down : α → α}
    {cs : List Char} (more : List Char)
    (hdown : ∀ found, read (Prod.map (cs ++ '\n' :: ·) id found) = (read found).map down) :
    (withBefore [] (split (cs ++ '\n' :: more))).filterMap read =
      (withBefore [] (split cs)).filterMap read ++
        ((read (cs, token .newline ['\n'])).toList ++
          ((withBefore [] (split more)).filterMap read).map down) := by
  have hbehind : (withBefore (cs ++ '\n' :: []) (split more)).filterMap read =
      ((withBefore [] (split more)).filterMap read).map down := by
    rw [withBefore_newline, List.filterMap_map, List.map_filterMap]
    apply List.filterMap_congr
    intro found _
    exact hdown found
  rw [split_append_newline, withBefore_append, flatMap_split, List.nil_append, withBefore,
    List.filterMap_append, List.filterMap_cons, ← hbehind]
  cases read (cs, token .newline ['\n']) <;> rfl

end Piece

namespace Lexed

theorem ofText_eq (text : String) :
    ofText text =
      ⟨(Piece.withBefore [] (Piece.split text.toList)).filterMap Piece.tokenAt? ++
          [(Place.behind text.toList).token .eof []],
        (Piece.withBefore [] (Piece.split text.toList)).filterMap Piece.errorAt?⟩ := by
  have hlexed := ofPieces_behind [] (Piece.split text.toList)
  rw [List.nil_append, Piece.flatMap_split] at hlexed
  exact hlexed

/--
A text is lexed line by line.  Up to a line break its tokens are those of the text before it, with
a newline in the place of the end of the file.  The tokens behind the break are those of the
text behind it, as many lines further down as lines have ended by then.  The errors
are those of the two texts in the same way.
-/
theorem lines_lexed_apart (a b : String) :
    ∃ body eof, (ofText a).tokens = body ++ [eof] ∧ eof.kind = .eof ∧
      (ofText (a ++ "\n" ++ b)).tokens =
        body ++ ⟨.newline, "\n", eof.line, eof.column⟩ ::
          (ofText b).tokens.map (Token.down (a.toList.count '\n' + 1)) ∧
      (ofText (a ++ "\n" ++ b)).errors =
        (ofText a).errors ++ (ofText b).errors.map (LexError.down (a.toList.count '\n' + 1)) := by
  have hchars : (a ++ "\n" ++ b).toList = a.toList ++ '\n' :: b.toList := by
    simp
  have hend : (Place.behind (a.toList ++ '\n' :: b.toList)).token .eof [] =
      ((Place.behind b.toList).token .eof []).down (a.toList.count '\n' + 1) := by
    rw [Place.behind_newline, Place.token_down]
  have htokens := Piece.filterMap_split_append b.toList (Piece.tokenAt?_newline a.toList)
  have herrors := Piece.filterMap_split_append b.toList (Piece.errorAt?_newline a.toList)
  rw [ofText_eq a, ofText_eq b, ofText_eq (a ++ "\n" ++ b), hchars, hend, htokens, herrors]
  refine ⟨_, _, rfl, rfl, ?_, rfl⟩
  rw [List.map_append, List.append_assoc]
  rfl

end Lexed
end TypedAnt
