import TypedAnt.Proofs.Token.LongestMatch
import TypedAnt.Token.Lexing

/-!
# Scanning

A text is cut into pieces from left to right.  A token is the longest lexeme that what is left
begins with, and characters are passed over or rejected only where the rules say so.  The
rules leave no choice: a text is cut in one way only.  Every token and every error has the
place where its piece starts.
-/

namespace TypedAnt

/-!
# Pieces
-/

namespace Piece

variable {c : Char} {cs rest : List Char} {piece other : Piece} {pieces others : List Piece}

/-- What the first piece of `cs` can be. -/
inductive Cut (cs : List Char) : Piece → Prop where
  | token {kind : TokenKind} {text : List Char} :
      Lexeme.Longest kind text cs →
      ¬ ['/', '/'] <+: cs →
      Cut cs (token kind text)
  | blank {c : Char} :
      c ∈ [' ', '\t', '\r'] →
      cs.head? = some c →
      Cut cs (blank c)
  | comment :
      ['/', '/'] <+: cs →
      Cut cs (comment (cs.takeWhile isLineChar))
  | stray {c : Char} :
      NoLexeme cs →
      c ∉ [' ', '\t', '\r', '"'] →
      cs.head? = some c →
      Cut cs (stray c)
  | unclosed :
      NoLexeme cs →
      cs.head? = some '"' →
      Cut cs (unclosed (cs.takeWhile isLineChar))

/-- The pieces are cut off one after the other until nothing is left. -/
inductive Scanned : List Char → List Piece → Prop where
  | done : Scanned [] []
  | next {piece : Piece} {rest : List Char} {pieces : List Piece} :
      Cut (piece.text ++ rest) piece →
      Scanned rest pieces →
      Scanned (piece.text ++ rest) (piece :: pieces)

theorem Scanned.flatMap_text (h : Scanned cs pieces) : pieces.flatMap text = cs := by
  induction h with
  | done => rfl
  | next _ _ ih => rw [List.flatMap_cons, ih]

/-!
# The pieces of a text are longest matches
-/

theorem not_comment_of_ne (h : c ≠ '/') : ¬ ['/', '/'] <+: c :: rest := by
  intro hbegin
  exact h (List.cons_prefix_cons.mp hbegin).1.symm

theorem noLexeme_of_startsWith
    (h : ∀ kind text, Lexeme kind text → text <+: c :: rest → kind.startsWith c = true → False) :
    NoLexeme (c :: rest) := by
  intro kind text hlexeme hbegin
  cases text with
  | nil => exact hlexeme.ne_nil rfl
  | cons d ds =>
      cases (List.cons_prefix_cons.mp hbegin).1
      exact h kind _ hlexeme hbegin hlexeme.startsWith

theorem cut_quoted (rest : List Char) : Cut ('"' :: rest) (quoted rest) := by
  unfold quoted
  split
  · rename_i tail htail
    exact .token (Lexeme.longest_string htail) (not_comment_of_ne (by decide))
  · rename_i hnone
    change Cut _ (unclosed (('"' :: rest).takeWhile isLineChar))
    refine .unclosed (noLexeme_of_startsWith ?_) rfl
    intro kind text hlexeme hbegin hstart
    have hfamily := TokenKind.family_eq hstart (l := .string) rfl
    cases kind with
    | string =>
        rcases hlexeme with ⟨tail, rfl, hclosed⟩
        have hsome := StringLiteral.closeQuote_of_closed hclosed (List.cons_prefix_cons.mp hbegin).2
        rw [hnone] at hsome
        cases hsome
    | _ => cases hfamily

theorem cut_first (c : Char) (rest : List Char) : Cut (c :: rest) (first c rest) := by
  fun_cases first c rest with
  | case1 hnewline =>
      rw [eq_of_beq hnewline]
      exact .token (Lexeme.longest_newline rest) (not_comment_of_ne (by decide))
  | case2 _ hblank =>
      refine .blank ?_ rfl
      simpa [or_assoc] using hblank
  | case3 _ _ hcomment =>
      rw [Bool.and_eq_true, beq_iff_eq, beq_iff_eq] at hcomment
      rcases hcomment with ⟨rfl, hnext⟩
      rcases List.head?_eq_some_iff.mp hnext with ⟨more, rfl⟩
      exact .comment ⟨more, rfl⟩
  | case4 _ _ _ hdigit =>
      rcases Lexeme.longest_number hdigit rest with ⟨kind, text, hpiece, hlongest⟩
      rw [hpiece]
      exact .token hlongest (not_comment_of_ne (Numeral.ne_of_digit hdigit (by decide)))
  | case5 _ _ _ _ hword =>
      rcases Lexeme.longest_word hword rest with ⟨kind, text, hpiece, hlongest⟩
      rw [hpiece]
      refine .token hlongest (not_comment_of_ne ?_)
      intro heq
      rw [heq, TokenKind.isWordStart_of_mem_marks (by decide +kernel)] at hword
      cases hword
  | case6 _ _ _ _ _ hquote =>
      rw [eq_of_beq hquote]
      exact cut_quoted rest
  | case7 _ _ hcomment _ _ _ op hop =>
      refine .token (Lexeme.longest_operator hop) ?_
      intro hbegin
      rcases hbegin with ⟨more, heq⟩
      cases heq
      exact hcomment rfl
  | case8 hnewline hblank hcomment hdigit hword hquote hop =>
      refine .stray (noLexeme_of_startsWith ?_) ?_ rfl
      · intro kind text hlexeme hbegin hstart
        cases kind with
        | int | float => exact hdigit hstart
        | string => exact hquote hstart
        | ident | keyword => exact hword hstart
        | op => exact Lexeme.operator?_of_lexeme hlexeme hbegin hop
        | newline => exact hnewline hstart
        | eof => cases hstart
      · simp only [Bool.or_eq_true, beq_iff_eq, not_or] at hblank hquote
        simp [hblank, hquote]

theorem scanned_split (cs : List Char) : Scanned cs (split cs) := by
  fun_induction split cs with
  | case1 => exact .done
  | case2 c rest piece ih =>
      have hcut : Cut (c :: rest) piece := cut_first c rest
      have hsplit : piece.text ++ rest.drop (piece.text.length - 1) = c :: rest :=
        (starts_first c rest).append_drop
      rw [← hsplit] at hcut ⊢
      exact .next hcut ih

/-!
# A text is cut in one way only
-/

theorem startsWith_blank (kind : TokenKind) (hc : c ∈ [' ', '\t', '\r']) :
    kind.startsWith c = false := by
  have hall : [' ', '\t', '\r'].all (fun c => !kind.startsWith c) = true := by
    cases kind <;> decide +kernel
  simpa using List.all_eq_true.mp hall c hc

theorem noLexeme_of_blank (hc : c ∈ [' ', '\t', '\r']) (hhead : cs.head? = some c) :
    NoLexeme cs := by
  rcases List.head?_eq_some_iff.mp hhead with ⟨rest, rfl⟩
  refine noLexeme_of_startsWith ?_
  intro kind text _ _ hstart
  rw [startsWith_blank kind hc] at hstart
  cases hstart

theorem head?_of_comment (h : ['/', '/'] <+: cs) : cs.head? = some '/' := by
  rcases h with ⟨more, rfl⟩
  rfl

theorem not_noLexeme_of_comment (h : ['/', '/'] <+: cs) : ¬ NoLexeme cs := by
  rcases h with ⟨more, rfl⟩
  intro hnone
  have hslash : Lexeme .op ['/'] := by
    simp [Lexeme, Token.operators]
  exact hnone .op ['/'] hslash ⟨'/' :: more, rfl⟩

theorem Cut.eq_token {kind : TokenKind} {text : List Char} (h : Lexeme.Longest kind text cs)
    (hcomment : ¬ ['/', '/'] <+: cs) (hother : Cut cs other) : other = .token kind text := by
  have hsome : ¬ NoLexeme cs := fun hnone => hnone kind text h.lexeme h.isPrefix
  cases hother with
  | @token kind' text' h' _ =>
      have hlength : text'.length = text.length :=
        Nat.le_antisymm (h.length_le _ _ h'.lexeme h'.isPrefix)
          (h'.length_le _ _ h.lexeme h.isPrefix)
      cases (List.prefix_of_prefix_length_le h'.isPrefix h.isPrefix hlength.le).eq_of_length hlength
      rw [h.kind_eq kind' h'.lexeme]
  | blank hc hhead => exact absurd (noLexeme_of_blank hc hhead) hsome
  | comment h' => exact absurd h' hcomment
  | stray hnone _ _ => exact absurd hnone hsome
  | unclosed hnone _ => exact absurd hnone hsome

theorem Cut.eq_comment (h : ['/', '/'] <+: cs) (hother : Cut cs other) :
    other = .comment (cs.takeWhile isLineChar) := by
  cases hother with
  | token h' hcomment => exact absurd h hcomment
  | blank hc hhead => exact absurd (noLexeme_of_blank hc hhead) (not_noLexeme_of_comment h)
  | comment _ => rfl
  | stray hnone _ _ => exact absurd hnone (not_noLexeme_of_comment h)
  | unclosed hnone _ => exact absurd hnone (not_noLexeme_of_comment h)

theorem Cut.eq_blank (hc : c ∈ [' ', '\t', '\r']) (hhead : cs.head? = some c)
    (hother : Cut cs other) : other = .blank c := by
  cases hother with
  | token h' hcomment => exact (Cut.eq_token h' hcomment (.blank hc hhead)).symm
  | comment h' => exact (Cut.eq_comment h' (.blank hc hhead)).symm
  | blank _ hhead' =>
      cases hhead.symm.trans hhead'
      rfl
  | stray _ hc' hhead' =>
      cases hhead.symm.trans hhead'
      simp_all
  | unclosed _ hhead' =>
      cases hhead.symm.trans hhead'
      simp at hc

theorem Cut.unique (h : Cut cs piece) (hother : Cut cs other) : piece = other := by
  cases h with
  | token h' hcomment => exact (Cut.eq_token h' hcomment hother).symm
  | comment h' => exact (Cut.eq_comment h' hother).symm
  | blank hc hhead => exact (Cut.eq_blank hc hhead hother).symm
  | stray hnone hc hhead =>
      cases hother with
      | token h' hcomment => exact Cut.eq_token h' hcomment (.stray hnone hc hhead)
      | comment h' => exact Cut.eq_comment h' (.stray hnone hc hhead)
      | blank hc' hhead' => exact Cut.eq_blank hc' hhead' (.stray hnone hc hhead)
      | stray _ _ hhead' =>
          cases hhead.symm.trans hhead'
          rfl
      | unclosed _ hhead' =>
          cases hhead.symm.trans hhead'
          simp at hc
  | unclosed hnone hhead =>
      cases hother with
      | token h' hcomment => exact Cut.eq_token h' hcomment (.unclosed hnone hhead)
      | comment h' => exact Cut.eq_comment h' (.unclosed hnone hhead)
      | blank hc' hhead' => exact Cut.eq_blank hc' hhead' (.unclosed hnone hhead)
      | stray _ hc' hhead' =>
          cases hhead.symm.trans hhead'
          simp at hc'
      | unclosed _ _ => rfl

theorem takeWhile_isLineChar_ne_nil (hhead : cs.head? = some c) (hc : c ≠ '\n') :
    cs.takeWhile isLineChar ≠ [] := by
  rcases List.head?_eq_some_iff.mp hhead with ⟨rest, rfl⟩
  simp [isLineChar, hc]

theorem Cut.text_ne_nil (h : Cut cs piece) : piece.text ≠ [] := by
  cases h with
  | token h' _ => exact h'.lexeme.ne_nil
  | blank _ _ => simp [text]
  | comment h' => exact takeWhile_isLineChar_ne_nil (head?_of_comment h') (by decide)
  | stray _ _ _ => simp [text]
  | unclosed _ hhead => exact takeWhile_isLineChar_ne_nil hhead (by decide)

theorem Scanned.unique (h : Scanned cs pieces) (hother : Scanned cs others) : pieces = others := by
  induction h generalizing others with
  | done =>
      generalize hcs : ([] : List Char) = cs at hother
      cases hother with
      | done => rfl
      | next hcut _ => exact absurd (List.append_eq_nil_iff.mp hcs.symm).1 hcut.text_ne_nil
  | @next piece rest pieces hcut _ ih =>
      generalize hcs : piece.text ++ rest = cs at hother hcut
      cases hother with
      | done => exact absurd (List.append_eq_nil_iff.mp hcs).1 hcut.text_ne_nil
      | next hcut' hrest =>
          cases hcut.unique hcut'
          cases List.append_cancel_left hcs
          rw [ih hrest]

end Piece

/-!
# Places

The lines of a text are counted by its newlines, and the columns of a line by its characters.
-/

def Place.behind (before : List Char) : Place :=
  ⟨1 + before.count '\n', 1 + (before.reverse.takeWhile Piece.isLineChar).length⟩

theorem Place.next_behind (before : List Char) (c : Char) :
    (Place.behind before).next c = Place.behind (before ++ [c]) := by
  by_cases hc : c = '\n'
  · subst hc
    simp [Place.next, Place.behind, Piece.isLineChar, Nat.add_assoc]
  · have hline : Piece.isLineChar c = true := by
      simpa [Piece.isLineChar] using hc
    simp [Place.next, Place.behind, hline, hc, Nat.add_assoc]

theorem Place.after_behind (before cs : List Char) :
    (Place.behind before).after cs = Place.behind (before ++ cs) := by
  induction cs generalizing before with
  | nil => simp [Place.after]
  | cons c cs ih =>
      have hstep : (Place.behind before).after (c :: cs) =
          (Place.behind (before ++ [c])).after cs := by
        rw [← Place.next_behind]
        rfl
      rw [hstep, ih, List.append_assoc, List.singleton_append]

theorem Place.after_line {cs : List Char} (h : '\n' ∉ cs) :
    Place.start.after cs = ⟨1, cs.length + 1⟩ := by
  have hline : ∀ c ∈ cs.reverse, Piece.isLineChar c = true := by
    intro c hc
    have hne : c ≠ '\n' := by
      rintro rfl
      exact h (List.mem_reverse.mp hc)
    simpa [Piece.isLineChar] using hne
  have hbehind : Place.start.after cs = Place.behind cs := Place.after_behind [] cs
  rw [hbehind, Place.behind, List.count_eq_zero_of_not_mem h, List.takeWhile_eq_self_iff.mpr hline,
    List.length_reverse, Nat.add_comm 1 cs.length]

def Place.token (p : Place) (kind : TokenKind) (text : List Char) : Token :=
  ⟨kind, String.ofList text, p.line, p.column⟩

namespace Piece

/-- The pieces with what stands before each of them. -/
def withBefore (before : List Char) : List Piece → List (List Char × Piece)
  | [] => []
  | piece :: pieces => (before, piece) :: withBefore (before ++ piece.text) pieces

/-- The token that a piece is, if it is one, at the place where the piece starts. -/
def tokenAt? : List Char × Piece → Option Token
  | (before, token kind text) => some ((Place.behind before).token kind text)
  | _ => none

def errorAt? : List Char × Piece → Option LexError
  | (before, stray c) => some ⟨Place.behind before, .stray c⟩
  | (before, unclosed _) => some ⟨Place.behind before, .unclosed⟩
  | _ => none

end Piece

namespace Lexed

theorem ofPieces_behind (before : List Char) (pieces : List Piece) :
    ofPieces (Place.behind before) pieces =
      ⟨(Piece.withBefore before pieces).filterMap Piece.tokenAt? ++
          [(Place.behind (before ++ pieces.flatMap Piece.text)).token .eof []],
        (Piece.withBefore before pieces).filterMap Piece.errorAt?⟩ := by
  induction pieces generalizing before with
  | nil =>
      rw [List.flatMap_nil, List.append_nil]
      rfl
  | cons piece pieces ih =>
      have hrest := ih (before ++ piece.text)
      rw [← Place.after_behind, List.append_assoc, ← List.flatMap_cons] at hrest
      cases piece <;>
        · rw [ofPieces, hrest]
          rfl

/--
A text is the concatenation of pieces, each of them what has to be cut off where it stands: the
longest lexeme there, a blank, a comment, a character that starts nothing, or a string that its
line does not close.  No other pieces would do.  The tokens are the pieces that are
lexemes, in order and at their places, with the end-of-file token behind the text, and
the errors are the rejected characters and the unclosed strings.
-/
theorem tokens_are_longest_matches (text : String) :
    ∃ pieces, pieces.flatMap Piece.text = text.toList ∧ Piece.Scanned text.toList pieces ∧
      (∀ others, Piece.Scanned text.toList others → others = pieces) ∧
      (ofText text).tokens =
        (Piece.withBefore [] pieces).filterMap Piece.tokenAt? ++
          [(Place.behind text.toList).token .eof []] ∧
      (ofText text).errors = (Piece.withBefore [] pieces).filterMap Piece.errorAt? := by
  have hscanned := Piece.scanned_split text.toList
  have hlexed := ofPieces_behind [] (Piece.split text.toList)
  rw [List.nil_append, hscanned.flatMap_text] at hlexed
  have htext : ofText text = ofPieces (Place.behind []) (Piece.split text.toList) := rfl
  rw [htext, hlexed]
  exact ⟨_, hscanned.flatMap_text, hscanned, fun others h => h.unique hscanned, rfl, rfl⟩

end Lexed

end TypedAnt
