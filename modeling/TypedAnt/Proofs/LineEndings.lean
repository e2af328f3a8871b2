import TypedAnt.Completion
import TypedAnt.Proofs.Rendering
import TypedAnt.Proofs.Token.LineEndings

/-!
# Independence of the line endings

It makes no difference to a report or to the names that are offered at a position whether the
lines of a text end in line feeds or in carriage returns and line feeds.  The lexer counts the
carriage return as a column before a newline, and ranges are cut off at the end of the line.
-/

namespace TypedAnt

open Text

/-- Newlines move behind carriage returns; all tokens stay on their lines. -/
def Rendering.withReturns : Rendering where
  token := Token.withReturn
  line n := n
  kind_eq t := by
    unfold Token.withReturn
    split <;> rfl
  value_eq t _ := by
    unfold Token.withReturn
    split <;> rfl
  line_eq t := by
    unfold Token.withReturn
    split <;> rfl
  fault_eq t fault h := by
    by_cases hkind : t.kind = .newline
    · rw [Token.fault?_of_ne (by rw [hkind]; decide)] at h
      cases h
    · rw [Token.withReturn_of_ne hkind]
      exact h

theorem Rendering.value_withReturns (t : Token) : (withReturns.token t).value = t.value := by
  change t.withReturn.value = t.value
  unfold Token.withReturn
  split <;> rfl

theorem Rendering.cause_withReturns (cause : SyntaxError.Cause) :
    withReturns.cause cause = cause := by
  cases cause <;> rfl

/-!
# Ranges
-/

namespace Token

variable {text : String} {t : Token}

theorem length_le_of_newline (h : t ∈ (Lexed.ofText text).tokens) (hkind : t.kind = .newline) :
    (lineAt text (t.line - 1)).length ≤ (t.column - 1).toNat := by
  cases Lexed.located_of_mem h with
  | @lexeme kind value before after hlexeme hsplit =>
      cases hkind
      cases hlexeme
      rcases Place.line_end hsplit (splitAt_cons_self after) with
        ⟨n, column, line, hplace, hline, hlength⟩
      have hn : (behind before .newline ['\n']).line - 1 = n := by
        simp [behind, hplace]
      have hcolumn : ((behind before .newline ['\n']).column - 1).toNat = column := by
        simp [behind, hplace]
      rw [hn, hcolumn, lineAt_of_getElem? hline]
      exact hlength
  | eof => cases hkind

theorem columns_withReturn (hreturns : ¬ ['\r', '\n'] <:+: text.toList)
    (h : t ∈ (Lexed.ofText text).tokens) (units : Units) :
    t.withReturn.columns units (crlf text) = t.columns units text := by
  unfold columns
  rw [lineAt_crlf hreturns]
  by_cases hkind : t.kind = .newline
  · have hlength := length_le_of_newline h hkind
    have hline : t.withReturn.line = t.line := Rendering.withReturns.line_eq t
    have hcolumn : t.withReturn.column = t.column + 1 := by
      simp [withReturn, hkind]
    have hvalue : t.withReturn.value = t.value := Rendering.value_withReturns t
    rw [hline, hcolumn, hvalue, List.take_of_length_le hlength, List.take_of_length_le (by omega)]
  · rw [withReturn_of_ne hkind]

theorem range_withReturn (hreturns : ¬ ['\r', '\n'] <:+: text.toList)
    (h : t ∈ (Lexed.ofText text).tokens) (units : Units) :
    t.withReturn.range units (crlf text) = t.range units text := by
  have hline : t.withReturn.line = t.line := Rendering.withReturns.line_eq t
  unfold range
  rw [columns_withReturn hreturns h, hline]

end Token

/-!
# Reports
-/

variable {text : String}

theorem Diagnostic.atToken_withReturn (hreturns : ¬ ['\r', '\n'] <:+: text.toList) {t : Token}
    (h : t ∈ (Lexed.ofText text).tokens) (units : Units) (label message : String) :
    atToken units (crlf text) label t.withReturn message = atToken units text label t message := by
  unfold atToken
  rw [Token.range_withReturn hreturns h]

namespace Analysis

theorem ofText_crlf (limit : Nat) (recover : Bool) (text : String) :
    ofText limit recover (crlf text) =
      (ofText limit recover text).map Rendering.withReturns.analysis := by
  have hlexed := Lexed.ofText_crlf text
  have herrors : (Lexed.ofText (crlf text)).errors = (Lexed.ofText text).errors := by
    rw [hlexed]
    rfl
  cases hcase : (Lexed.ofText text).errors with
  | nil =>
      rw [ofText_of_lexed hcase, ofText_of_lexed (herrors.trans hcase), hlexed]
      exact ofTokens_map limit recover Rendering.value_withReturns (Lexed.ended_ofText text)
  | cons e more =>
      unfold ofText
      dsimp only
      rw [herrors, hcase]
      rfl

theorem diagnostic?_withReturns (hreturns : ¬ ['\r', '\n'] <:+: text.toList) {limit : Nat}
    {recover : Bool} {a : Analysis} (h : ofText limit recover text = .ok a) (units : Units)
    (label : String) :
    (Rendering.withReturns.analysis a).diagnostic? units (crlf text) label =
      a.diagnostic? units text label := by
  unfold diagnostic? Rendering.analysis
  rcases verdict_cases h with ⟨e, more, hverdict, _⟩ | ⟨e, hverdict, hfail⟩ |
    ⟨e, hverdict, hparsed, hcheck⟩ | hverdict
  · rw [hverdict]
    rfl
  · have hmessage := Rendering.message_syntaxError (e := e) Rendering.value_withReturns
      (Rendering.cause_withReturns e.cause)
    simp only [hverdict, Rendering.verdict, SyntaxError.diagnostic, hmessage]
    rw [← Diagnostic.atToken_withReturn hreturns (rejected_token_mem hfail)]
    rfl
  · simp only [hverdict, Rendering.verdict, TypeError.diagnostic]
    rw [← Diagnostic.atToken_withReturn hreturns (illTyped_token_mem hparsed hcheck)]
    rfl
  · rw [hverdict]
    rfl

end Analysis

theorem Report.value_crlf (hreturns : ¬ ['\r', '\n'] <:+: text.toList) (limit : Nat) (units : Units)
    (recover : Bool) (uri : String) :
    (ofText limit units recover (crlf text) uri).value =
      (ofText limit units recover text uri).value := by
  unfold ofText
  rw [Analysis.ofText_crlf]
  cases Uri.label uri with
  | error fault => rfl
  | ok label =>
      cases hanalysis : Analysis.ofText limit recover text with
      | error fault => rfl
      | ok a =>
          dsimp only [Except.map]
          rw [Analysis.diagnostic?_withReturns hreturns hanalysis]
          rfl

theorem Position.stem_crlf (hreturns : ¬ ['\r', '\n'] <:+: text.toList) (units : Units)
    (position : Position) : position.stem units (crlf text) = position.stem units text := by
  unfold stem before
  rw [lineAt_crlf hreturns]

theorem Completion.value_atPosition (limit : Nat) (units : Units) (includeBuiltins : Bool)
    (text uri : String) (position : Position) :
    (atPosition limit units includeBuiltins text uri position).value =
      (Report.ofText limit units true text uri).value.map fun report =>
        names report.scopes includeBuiltins (position.stem units text) := by
  unfold atPosition
  dsimp only
  cases (Report.ofText limit units true text uri).value <;> rfl

/--
Where no carriage return stands before a line feed, one may be put before every line feed: the
report on the text stays the same, with its scopes and with its diagnostic, and so do the names
that are offered at any position.  If the one analysis fails, so does the other.
-/
theorem Report.independent_of_line_endings (limit : Nat) (units : Units)
    (recover includeBuiltins : Bool) (text uri : String) (position : Position)
    (hreturns : ¬ ['\r', '\n'] <:+: text.toList) :
    (ofText limit units recover (crlf text) uri).value =
        (ofText limit units recover text uri).value ∧
      (Completion.atPosition limit units includeBuiltins (crlf text) uri position).value =
        (Completion.atPosition limit units includeBuiltins text uri position).value := by
  constructor
  · exact value_crlf hreturns limit units recover uri
  · rw [Completion.value_atPosition, Completion.value_atPosition,
      value_crlf hreturns limit units true uri, Position.stem_crlf hreturns]

def Report.brokenBinding : String :=
  "let x // later\nfoo"

theorem Report.independent_of_line_endings_newline :
    ¬ ['\r', '\n'] <:+: brokenBinding.toList ∧ crlf brokenBinding = "let x // later\r\nfoo" ∧
      (∃ report d, (ofText 500 .utf16 true (crlf brokenBinding) "a.ta").value = .ok report ∧
        report.diagnostic = some d ∧ d.range = ⟨⟨0, 14⟩, ⟨0, 15⟩⟩) ∧
      (ofText 500 .utf16 true (crlf brokenBinding) "a.ta").value =
        (ofText 500 .utf16 true brokenBinding "a.ta").value ∧
      (Completion.atPosition 500 .utf16 true (crlf brokenBinding) "a.ta" ⟨1, 1⟩).value =
        (Completion.atPosition 500 .utf16 true brokenBinding "a.ta" ⟨1, 1⟩).value := by
  have hreturns : ¬ ['\r', '\n'] <:+: brokenBinding.toList := by decide +kernel
  have hcrlf : crlf brokenBinding = "let x // later\r\nfoo" := by decide +kernel
  have hlexed : Lexed.ofText (crlf brokenBinding) =
      ⟨[⟨.keyword, "let", 1, 1⟩, ⟨.ident, "x", 1, 5⟩, ⟨.newline, "\n", 1, 16⟩,
        ⟨.ident, "foo", 2, 1⟩, ⟨.eof, "", 2, 4⟩], []⟩ := by
    decide +kernel
  have hlabel : Uri.label "a.ta" = .ok "a.ta" := by
    decide +kernel
  have hreport : ∃ report d,
      (ofText 500 .utf16 true (crlf brokenBinding) "a.ta").value = .ok report ∧
        report.diagnostic = some d ∧ d.range = ⟨⟨0, 14⟩, ⟨0, 15⟩⟩ := by
    simp only [ofText, hlabel, Analysis.ofText, hlexed]
    exact ⟨_, _, rfl, rfl, rfl⟩
  exact ⟨hreturns, hcrlf, hreport,
    independent_of_line_endings 500 .utf16 true true brokenBinding "a.ta" ⟨1, 1⟩ hreturns⟩

end TypedAnt
