import TypedAnt.Proofs.Text.Columns
import TypedAnt.Proofs.Token.Scanning

/-!
# Line endings

A text whose lines end in line feeds may be written with a carriage return before each of them.
To the lexer the carriage return is a blank, or the last character of a comment or of a string
that is not closed.  So the tokens are the same, but for the newlines, which stand one column
further to the right.
-/

namespace TypedAnt
namespace Text

def withReturns (cs : List Char) : List Char :=
  cs.flatMap fun c => if c = '\n' then ['\r', '\n'] else [c]

def crlf (text : String) : String :=
  String.ofList (withReturns text.toList)

variable {c : Char} {cs xs ys : List Char}

@[simp]
theorem withReturns_nil : withReturns [] = [] :=
  rfl

@[simp]
theorem withReturns_newline (cs : List Char) :
    withReturns ('\n' :: cs) = '\r' :: '\n' :: withReturns cs :=
  rfl

theorem withReturns_cons (hc : c ≠ '\n') (cs : List Char) :
    withReturns (c :: cs) = c :: withReturns cs := by
  simp [withReturns, hc]

theorem withReturns_append (xs ys : List Char) :
    withReturns (xs ++ ys) = withReturns xs ++ withReturns ys := by
  simp [withReturns]

theorem withReturns_of_not_mem (h : '\n' ∉ xs) : withReturns xs = xs := by
  induction xs with
  | nil => rfl
  | cons c xs ih =>
      rw [List.mem_cons, not_or] at h
      rw [withReturns_cons (Ne.symm h.1), ih h.2]

/-!
# Lines
-/

theorem dropReturn_withReturn {run run' : List Char} (h : ¬ ['\r', '\n'] <:+: cs)
    (hrun : run' = run ∨ run' = run ++ ['\r'] ∧ run ++ ['\n'] <+: cs) :
    dropReturn run' = dropReturn run := by
  rcases hrun with rfl | ⟨rfl, hbegin⟩
  · rfl
  · have hlast : run.getLast? ≠ some '\r' := by
      intro hlast
      rcases List.getLast?_eq_some_iff.mp hlast with ⟨before, rfl⟩
      rcases hbegin with ⟨after, rfl⟩
      exact h ⟨before, after, by simp⟩
    simp [dropReturn, hlast]

theorem splitAt_withReturns (h : ¬ ['\r', '\n'] <:+: cs) :
    ∃ run more run' more', splitAt '\n' cs = run :: more ∧
      splitAt '\n' (withReturns cs) = run' :: more' ∧
      more'.map dropReturn = more.map dropReturn ∧
      (run' = run ∨ run' = run ++ ['\r'] ∧ run ++ ['\n'] <+: cs) := by
  induction cs with
  | nil => exact ⟨[], [], [], [], rfl, rfl, rfl, Or.inl rfl⟩
  | cons c cs ih =>
      have hcs : ¬ ['\r', '\n'] <:+: cs := fun hinfix => h (List.infix_cons hinfix)
      rcases ih hcs with ⟨run, more, run', more', hsplit, hsplit', hmore, hrun⟩
      by_cases hc : c = '\n'
      · subst hc
        refine ⟨[], run :: more, ['\r'], run' :: more', ?_, ?_, ?_, ?_⟩
        · rw [splitAt_cons_self, hsplit]
        · rw [withReturns_newline, ← hsplit']
          exact splitAt_cons_of_ne (by decide) (splitAt_cons_self _)
        · rw [List.map_cons, List.map_cons, hmore]
          rw [dropReturn_withReturn hcs hrun]
        · exact Or.inr ⟨rfl, ⟨cs, rfl⟩⟩
      · refine ⟨c :: run, more, c :: run', more', splitAt_cons_of_ne hc hsplit, ?_, hmore, ?_⟩
        · rw [withReturns_cons hc]
          exact splitAt_cons_of_ne hc hsplit'
        · rcases hrun with rfl | ⟨rfl, hbegin⟩
          · exact Or.inl rfl
          · exact Or.inr ⟨rfl, List.cons_prefix_cons.mpr ⟨rfl, hbegin⟩⟩

theorem lines_crlf {text : String} (h : ¬ ['\r', '\n'] <:+: text.toList) :
    lines (crlf text) = lines text := by
  rcases splitAt_withReturns h with ⟨run, more, run', more', hsplit, hsplit', hmore, hrun⟩
  unfold lines crlf
  rw [String.toList_ofList, hsplit, hsplit', List.map_cons, List.map_cons, hmore,
    dropReturn_withReturn h hrun]

theorem lineAt_crlf {text : String} (h : ¬ ['\r', '\n'] <:+: text.toList) (n : Int) :
    lineAt (crlf text) n = lineAt text n := by
  unfold lineAt
  rw [lines_crlf h]

end Text

/-!
# Lexemes
-/

open Text

variable {cs rest text : List Char} {kind : TokenKind} {pieces : List Piece}

/-- What neither holds a line feed nor ends in a carriage return is found in both texts. -/
theorem prefix_withReturns_iff (hline : '\n' ∉ text) (hlast : text.getLast? ≠ some '\r') :
    text <+: withReturns cs ↔ text <+: cs := by
  induction text generalizing cs with
  | nil => simp
  | cons c text ih =>
      rw [List.mem_cons, not_or] at hline
      cases cs with
      | nil => rfl
      | cons d cs =>
          by_cases hd : d = '\n'
          · subst hd
            constructor
            · intro hbegin
              rw [withReturns_newline, List.cons_prefix_cons] at hbegin
              rcases hbegin with ⟨rfl, hbegin⟩
              cases text with
              | nil => exact absurd rfl hlast
              | cons d text =>
                  cases (List.cons_prefix_cons.mp hbegin).1
                  exact absurd List.mem_cons_self hline.2
            · intro hbegin
              exact absurd (List.cons_prefix_cons.mp hbegin).1 (Ne.symm hline.1)
          · rw [withReturns_cons hd, List.cons_prefix_cons, List.cons_prefix_cons]
            have hrest : text.getLast? ≠ some '\r' := by
              cases text with
              | nil => simp
              | cons e text => simpa using hlast
            rw [ih hline.2 hrest]

theorem not_newline_prefix_withReturns (cs : List Char) : ¬ ['\n'] <+: withReturns cs := by
  intro hbegin
  cases cs with
  | nil => simp at hbegin
  | cons c cs =>
      by_cases hc : c = '\n'
      · subst hc
        cases (List.cons_prefix_cons.mp hbegin).1
      · rw [withReturns_cons hc] at hbegin
        exact hc (List.cons_prefix_cons.mp hbegin).1.symm

theorem Lexeme.prefix_of_withReturns (h : Lexeme kind text) (hbegin : text <+: withReturns cs) :
    text <+: cs := by
  by_cases hkind : kind = .newline
  · subst hkind
    cases h
    exact absurd hbegin (not_newline_prefix_withReturns cs)
  · exact (prefix_withReturns_iff (h.newline_not_mem hkind) (h.getLast?_ne_return hkind)).mp hbegin

theorem Lexeme.Longest.withReturns (h : Longest kind text cs) (hkind : kind ≠ .newline) :
    Longest kind text (Text.withReturns cs) where
  lexeme := h.lexeme
  isPrefix := (prefix_withReturns_iff (h.lexeme.newline_not_mem hkind)
    (h.lexeme.getLast?_ne_return hkind)).mpr h.isPrefix
  length_le other longer hlexeme hbegin :=
    h.length_le other longer hlexeme (hlexeme.prefix_of_withReturns hbegin)
  kind_eq := h.kind_eq

theorem NoLexeme.withReturns (h : NoLexeme cs) : NoLexeme (Text.withReturns cs) := by
  intro kind text hlexeme hbegin
  exact h kind text hlexeme (hlexeme.prefix_of_withReturns hbegin)

theorem comment_withReturns_iff : ['/', '/'] <+: withReturns cs ↔ ['/', '/'] <+: cs :=
  prefix_withReturns_iff (by decide) (by decide)

theorem head?_withReturns {c : Char} (h : cs.head? = some c) (hc : c ≠ '\n') :
    (withReturns cs).head? = some c := by
  rcases List.head?_eq_some_iff.mp h with ⟨rest, rfl⟩
  rw [withReturns_cons hc]
  rfl

/-!
# Tokens
-/

def Token.withReturn (t : Token) : Token :=
  if t.kind = .newline then { t with column := t.column + 1 } else t

theorem Token.withReturn_of_ne {t : Token} (h : t.kind ≠ .newline) : t.withReturn = t :=
  if_neg h

def Lexed.withReturns (lexed : Lexed) : Lexed :=
  ⟨lexed.tokens.map Token.withReturn, lexed.errors⟩

theorem Place.after_append (p : Place) (xs ys : List Char) :
    p.after (xs ++ ys) = (p.after xs).after ys :=
  List.foldl_append

namespace Piece

/-- The pieces have counterparts in the text with carriage returns. -/
def Returned (cs : List Char) (pieces : List Piece) : Prop :=
  ∃ pieces', Scanned (withReturns cs) pieces' ∧
    ∀ p, Lexed.ofPieces p pieces' = (Lexed.ofPieces p pieces).withReturns

theorem returned_newline (h : Returned rest pieces) :
    Returned ('\n' :: rest) (token .newline ['\n'] :: pieces) := by
  rcases h with ⟨pieces', hscanned, hlexed⟩
  refine ⟨blank '\r' :: token .newline ['\n'] :: pieces', ?_, ?_⟩
  · have hcut : Cut ('\n' :: withReturns rest) (token .newline ['\n']) :=
      .token (Lexeme.longest_newline _) (not_comment_of_ne (by decide))
    have hnewline : Scanned ((token .newline ['\n']).text ++ withReturns rest)
        (token .newline ['\n'] :: pieces') :=
      .next hcut hscanned
    have hreturn : Scanned ((blank '\r').text ++ '\n' :: withReturns rest)
        (blank '\r' :: token .newline ['\n'] :: pieces') :=
      .next (.blank (by decide) rfl) hnewline
    exact hreturn
  · intro p
    have hplace : (p.after ['\r']).after ['\n'] = p.after ['\n'] := rfl
    simp only [Lexed.ofPieces, text, hplace, hlexed]
    rfl

theorem returned_kept {piece : Piece} (hline : '\n' ∉ piece.text)
    (hkind : ∀ text, piece ≠ token .newline text)
    (hcut : Cut (withReturns (piece.text ++ rest)) piece) (h : Returned rest pieces) :
    Returned (piece.text ++ rest) (piece :: pieces) := by
  rcases h with ⟨pieces', hscanned, hlexed⟩
  refine ⟨piece :: pieces', ?_, ?_⟩
  · rw [withReturns_append, withReturns_of_not_mem hline] at hcut ⊢
    exact .next hcut hscanned
  · intro p
    cases piece with
    | token kind text =>
        have hne : kind ≠ .newline := fun heq => hkind text (heq ▸ rfl)
        simp only [Lexed.ofPieces, hlexed, Lexed.withReturns, List.map_cons]
        rw [Token.withReturn_of_ne hne]
    | blank c => simp only [Lexed.ofPieces, hlexed]
    | comment text => simp only [Lexed.ofPieces, hlexed]
    | stray c =>
        simp only [Lexed.ofPieces, hlexed]
        rfl
    | unclosed text =>
        simp only [Lexed.ofPieces, hlexed]
        rfl

theorem rest_of_takeWhile (h : cs.takeWhile isLineChar ++ rest = cs) :
    rest = [] ∨ ∃ more, rest = '\n' :: more := by
  have hdrop : rest = cs.dropWhile isLineChar := by
    apply List.append_cancel_left
    rw [h, List.takeWhile_append_dropWhile]
  cases rest with
  | nil => exact Or.inl rfl
  | cons c more =>
      have hhead := List.head?_dropWhile_not isLineChar cs
      rw [← hdrop] at hhead
      have hc : c = '\n' := by simpa [isLineChar] using hhead
      exact Or.inr ⟨more, by rw [hc]⟩

theorem isLineChar_of_not_mem {text : List Char} (h : '\n' ∉ text) :
    ∀ c ∈ text, isLineChar c = true := by
  intro c hc
  simp only [isLineChar, bne_iff_ne]
  intro heq
  exact h (heq ▸ hc)

theorem newline_not_mem_takeWhile (cs : List Char) : '\n' ∉ cs.takeWhile isLineChar := by
  intro hmem
  have hline := List.all_eq_true.mp (List.all_takeWhile (p := isLineChar) (l := cs)) _ hmem
  cases hline

/-- The scan of a text that starts with a carriage return passes over it. -/
theorem Scanned.of_return {pieces : List Piece} (h : Scanned ('\r' :: rest) pieces) :
    ∃ pieces', pieces = blank '\r' :: pieces' ∧ Scanned rest pieces' := by
  generalize hcs : '\r' :: rest = cs at h
  cases h with
  | done => cases hcs
  | @next piece rest' pieces' hcut hrest =>
      rw [← hcs] at hcut
      have hpiece := Cut.eq_blank (by decide) rfl hcut
      subst hpiece
      cases hcs
      exact ⟨pieces', rfl, hrest⟩

/-- Comments and strings that are not closed: the pieces that run to the end of their line. -/
inductive RunsOn : (List Char → Piece) → Prop where
  | comment : RunsOn comment
  | unclosed : RunsOn unclosed

theorem RunsOn.text_eq {make : List Char → Piece} (h : RunsOn make) (text : List Char) :
    (make text).text = text := by
  cases h <;> rfl

theorem RunsOn.ofPieces_eq {make : List Char → Piece} (h : RunsOn make) {p : Place}
    {text text' : List Char} {pieces pieces' : List Piece}
    (hrest : Lexed.ofPieces (p.after text') pieces' =
      (Lexed.ofPieces (p.after text) pieces).withReturns) :
    Lexed.ofPieces p (make text' :: pieces') =
      (Lexed.ofPieces p (make text :: pieces)).withReturns := by
  cases h with
  | comment => exact hrest
  | unclosed =>
      have herrors := congrArg Lexed.errors hrest
      have htokens := congrArg Lexed.tokens hrest
      simp only [Lexed.ofPieces, Piece.text, Lexed.withReturns] at herrors htokens ⊢
      rw [herrors, htokens]

theorem returned_line {make : List Char → Piece} (hmake : RunsOn make)
    (hcs : cs.takeWhile isLineChar ++ rest = cs)
    (hcut : Cut (withReturns cs) (make ((withReturns cs).takeWhile isLineChar)))
    (h : Returned rest pieces) : Returned cs (make (cs.takeWhile isLineChar) :: pieces) := by
  have hline := newline_not_mem_takeWhile cs
  have hend := rest_of_takeWhile hcs
  generalize cs.takeWhile isLineChar = line at hcs hline ⊢
  have hchars := isLineChar_of_not_mem hline
  rw [← hcs, withReturns_append, withReturns_of_not_mem hline,
    List.takeWhile_append_of_pos hchars] at hcut
  unfold Returned
  rw [← hcs, withReturns_append, withReturns_of_not_mem hline]
  rcases h with ⟨pieces', hscanned, hlexed⟩
  rcases hend with rfl | ⟨more, rfl⟩
  · rw [withReturns_nil, List.takeWhile_nil, List.append_nil] at hcut
    refine ⟨make line :: pieces', ?_, fun p => hmake.ofPieces_eq (hlexed _)⟩
    have hnext : Scanned ((make line).text ++ []) (make line :: pieces') := by
      apply Scanned.next _ hscanned
      rw [hmake.text_eq, withReturns_nil, List.append_nil]
      exact hcut
    rw [hmake.text_eq] at hnext
    exact hnext
  · -- What follows is scanned behind the carriage return.
    rcases hscanned.of_return with ⟨pieces'', rfl, hrest⟩
    refine ⟨make (line ++ ['\r']) :: pieces'', ?_, ?_⟩
    · have hnext : Scanned ((make (line ++ ['\r'])).text ++ '\n' :: withReturns more)
          (make (line ++ ['\r']) :: pieces'') := by
        apply Scanned.next _ hrest
        rw [hmake.text_eq, List.append_assoc]
        exact hcut
      rw [hmake.text_eq, List.append_assoc] at hnext
      exact hnext
    · intro p
      apply hmake.ofPieces_eq
      rw [Place.after_append]
      exact hlexed (p.after line)

theorem returned_of_scanned (h : Scanned cs pieces) : Returned cs pieces := by
  induction h with
  | done => exact ⟨[], .done, fun _ => rfl⟩
  | @next piece rest pieces hcut _ ih =>
      generalize hcs : piece.text ++ rest = cs at hcut
      cases hcut with
      | @token kind text hlongest hcomment =>
          subst hcs
          by_cases hkind : kind = .newline
          · subst hkind
            cases hlongest.lexeme
            exact returned_newline ih
          · refine returned_kept (hlongest.lexeme.newline_not_mem hkind) ?_ ?_ ih
            · intro text' heq
              cases heq
              exact hkind rfl
            · apply Cut.token (hlongest.withReturns hkind)
              intro hbegin
              exact hcomment (comment_withReturns_iff.mp hbegin)
      | @blank c hc hhead =>
          subst hcs
          have hne : c ≠ '\n' := by
            rintro rfl
            simp at hc
          refine returned_kept (by simpa [text] using Ne.symm hne) (by simp) ?_ ih
          exact .blank hc (head?_withReturns hhead hne)
      | comment hbegin =>
          exact returned_line .comment hcs (.comment (comment_withReturns_iff.mpr hbegin)) ih
      | @stray c hnone hc hhead =>
          subst hcs
          have hne : c ≠ '\n' := by
            rintro rfl
            exact hnone .newline ['\n'] rfl ⟨rest, rfl⟩
          refine returned_kept (by simpa [text] using Ne.symm hne) (by simp) ?_ ih
          exact .stray hnone.withReturns hc (head?_withReturns hhead hne)
      | unclosed hnone hhead =>
          have hcut := Cut.unclosed hnone.withReturns (head?_withReturns hhead (by decide))
          exact returned_line .unclosed hcs hcut ih

end Piece

theorem Lexed.ofText_crlf (text : String) : ofText (crlf text) = (ofText text).withReturns := by
  rcases Piece.returned_of_scanned (Piece.scanned_split text.toList) with ⟨pieces, hscanned, hlexed⟩
  have hpieces := (Piece.scanned_split (Text.withReturns text.toList)).unique hscanned
  unfold ofText crlf
  rw [String.toList_ofList, hpieces]
  exact hlexed .start

end TypedAnt
