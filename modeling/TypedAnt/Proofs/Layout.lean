import TypedAnt.Proofs.Program.Numbering
import TypedAnt.Proofs.Rendering

/-!
# Independence of the layout

Two texts that lex to the same kinds and values differ in blanks, comments and carriage returns
only.  Their analyses end alike: with the same names bound to the same types, and with the same
error at the token with the same index, if there is one.  Both token lists are renderings of one
numbered list, so the two analyses are renderings of one analysis.
-/

namespace TypedAnt

/-!
# Errors that are alike
-/

/--
The errors stand at tokens with the same index and say the same.  An error about a block without
an end names the line of its opening brace, and that is the same brace in both.
-/
structure SyntaxError.Alike (tokens tokens' : List Token) (e e' : SyntaxError) : Prop where
  token : ∃ i : Nat, tokens[i]? = some e.token ∧ tokens'[i]? = some e'.token
  kind : e.cause.kind = e'.cause.kind
  message : (e.cause.kind ≠ .unclosedBlock ∧ e.message = e'.message) ∨
    ∃ (j : Nat) (brace brace' : Token), tokens[j]? = some brace ∧ tokens'[j]? = some brace' ∧
      brace.isOp "\x7b" = true ∧ brace'.isOp "\x7b" = true ∧
      e.message = "'\x7b' opened on line " ++ toString brace.line ++ " is never closed" ∧
      e'.message = "'\x7b' opened on line " ++ toString brace'.line ++ " is never closed"

structure TypeError.Alike (tokens tokens' : List Token) (e e' : TypeError) : Prop where
  token : ∃ i : Nat, tokens[i]? = some e.token ∧ tokens'[i]? = some e'.token
  kind : e.cause.kind = e'.cause.kind
  message : e.message = e'.message

inductive Verdict.Alike (tokens tokens' : List Token) : Verdict → Verdict → Prop where
  | accepted : Alike tokens tokens' .accepted .accepted
  | rejected {e e' : SyntaxError} : e.Alike tokens tokens' e' →
      Alike tokens tokens' (.rejected e) (.rejected e')
  | illTyped {e e' : TypeError} : e.Alike tokens tokens' e' →
      Alike tokens tokens' (.illTyped e) (.illTyped e')

/-!
# Renderings of one error
-/

section Renderings

variable {r r' : Rendering} {tokens : List Token}

theorem Rendering.token_getElem? (r r' : Rendering) {t : Token} (h : t ∈ tokens) :
    ∃ i : Nat, (tokens.map r.token)[i]? = some (r.token t) ∧
      (tokens.map r'.token)[i]? = some (r'.token t) := by
  rcases List.mem_iff_getElem?.mp h with ⟨i, hi⟩
  refine ⟨i, ?_, ?_⟩
  · rw [List.getElem?_map, hi]
    rfl
  · rw [List.getElem?_map, hi]
    rfl

theorem Rendering.kind_cause (cause : SyntaxError.Cause) : (r.cause cause).kind = cause.kind := by
  cases cause <;> rfl

theorem Rendering.cause_of_kind_ne {cause : SyntaxError.Cause} (h : cause.kind ≠ .unclosedBlock) :
    r.cause cause = cause := by
  cases cause with
  | unclosedBlock n => exact absurd rfl h
  | _ => rfl

theorem SyntaxError.message_of_unclosed {e : SyntaxError} {n : Int}
    (hcause : e.cause = .unclosedBlock n) :
    e.message = "'\x7b' opened on line " ++ toString n ++ " is never closed" := by
  unfold message detail
  rw [hcause]
  simp [messageOr]

theorem SyntaxError.Cause.eq_of_kind {cause : SyntaxError.Cause}
    (h : cause.kind = .unclosedBlock) : ∃ n, cause = .unclosedBlock n := by
  cases cause with
  | unclosedBlock n => exact ⟨n, rfl⟩
  | _ => cases h

theorem SyntaxError.alike_of_renderings (hvalue : ∀ t, (r.token t).value = t.value)
    (hvalue' : ∀ t, (r'.token t).value = t.value) {e : SyntaxError}
    (h : (Verdict.rejected e).Stands tokens) :
    (r.syntaxError e).Alike (tokens.map r.token) (tokens.map r'.token) (r'.syntaxError e) := by
  rcases h with ⟨htoken, hbrace⟩
  refine ⟨Rendering.token_getElem? r r' htoken, ?_, ?_⟩
  · exact (Rendering.kind_cause e.cause).trans (Rendering.kind_cause e.cause).symm
  · by_cases hkind : e.cause.kind = .unclosedBlock
    · rcases SyntaxError.Cause.eq_of_kind hkind with ⟨n, hcause⟩
      rcases hbrace n hcause with ⟨brace, hmem, hop, rfl⟩
      rcases Rendering.token_getElem? r r' hmem with ⟨j, hj, hj'⟩
      refine Or.inr ⟨j, _, _, hj, hj', ?_, ?_, ?_, ?_⟩
      · rw [r.isOp_token]
        exact hop
      · rw [r'.isOp_token]
        exact hop
      · apply message_of_unclosed
        rw [r.line_eq, Rendering.syntaxError, hcause]
        rfl
      · apply message_of_unclosed
        rw [r'.line_eq, Rendering.syntaxError, hcause]
        rfl
    · refine Or.inl ⟨?_, ?_⟩
      · rw [Rendering.syntaxError, Rendering.kind_cause]
        exact hkind
      · rw [Rendering.message_syntaxError hvalue (Rendering.cause_of_kind_ne hkind),
          Rendering.message_syntaxError hvalue' (Rendering.cause_of_kind_ne hkind)]

theorem Verdict.alike_of_renderings (hvalue : ∀ t, (r.token t).value = t.value)
    (hvalue' : ∀ t, (r'.token t).value = t.value) {v : Verdict} (h : v.Stands tokens) :
    (r.verdict v).Alike (tokens.map r.token) (tokens.map r'.token) (r'.verdict v) := by
  cases v with
  | accepted => exact .accepted
  | lexical first more => exact absurd h id
  | rejected e => exact .rejected (SyntaxError.alike_of_renderings hvalue hvalue' h)
  | illTyped e => exact .illTyped ⟨Rendering.token_getElem? r r' h, rfl, rfl⟩

theorem Verdict.Alike.accepted_iff {tokens' : List Token} {v v' : Verdict}
    (h : v.Alike tokens tokens' v') : v = .accepted ↔ v' = .accepted := by
  cases h with
  | accepted => exact Iff.rfl
  | rejected _ => simp
  | illTyped _ => simp

end Renderings

/-!
# Reports
-/

theorem Analysis.isNone_iff_of_diagnostic? {a : Analysis} {units : Units} {text label : String}
    {d : Option Diagnostic} (h : a.diagnostic? units text label = .ok d) :
    d.isNone = true ↔ a.verdict = .accepted := by
  unfold diagnostic? at h
  cases hverdict : a.verdict with
  | accepted =>
      rw [hverdict] at h
      cases h
      simp
  | lexical first more =>
      rw [hverdict] at h
      cases h
      simp
  | rejected e =>
      rw [hverdict] at h
      rcases eq_some_of_map h with ⟨placed, _, rfl⟩
      simp
  | illTyped e =>
      rw [hverdict] at h
      rcases eq_some_of_map h with ⟨placed, _, rfl⟩
      simp

/-- The analysis of a text is an analysis of numbered tokens, rendered. -/
theorem Analysis.ofText_eq_map {text : String} (limit : Nat) (recover : Bool)
    (hlexed : (Lexed.ofText text).errors = []) :
    ofText limit recover text =
      (ofTokens limit recover (numbered ((Lexed.ofText text).tokens.map Token.content))).map
        (Rendering.places (Lexed.ofText text).tokens).analysis := by
  rw [ofText_of_lexed hlexed,
    ← ofTokens_map limit recover (Rendering.value_places (Lexed.ofText text).tokens)
      (ended_numbered (Lexed.ended_ofText text)), Rendering.map_places]

namespace Report

/--
Reports on two texts with the same scopes, both with a diagnostic or both without one.  The
diagnostics are those of the verdicts on the texts, and these are alike.
-/
structure Alike (limit : Nat) (units : Units) (recover : Bool) (text text' uri : String)
    (report report' : Report) : Prop where
  scopes : report.scopes = report'.scopes
  ok : report.ok = report'.ok
  verdicts : ∃ label a a', Uri.label uri = .ok label ∧
    Analysis.ofText limit recover text = .ok a ∧ Analysis.ofText limit recover text' = .ok a' ∧
    a.diagnostic? units text label = .ok report.diagnostic ∧
    a'.diagnostic? units text' label = .ok report'.diagnostic ∧
    a.verdict.Alike (Lexed.ofText text).tokens (Lexed.ofText text').tokens a'.verdict

/--
Two texts without lexical errors that lex to the same kinds and values are analysed alike:
either both analyses fail, for the same reason, or both are reported on alike.
-/
theorem independent_of_layout (limit : Nat) (units : Units) (recover : Bool)
    (text text' uri : String) (hfits : Text.Fits units text) (hfits' : Text.Fits units text')
    (hlexed : (Lexed.ofText text).errors = []) (hlexed' : (Lexed.ofText text').errors = [])
    (hsame : (Lexed.ofText text).tokens.map Token.content =
      (Lexed.ofText text').tokens.map Token.content) :
    (∃ failure, (ofText limit units recover text uri).value = .error failure ∧
        (ofText limit units recover text' uri).value = .error failure) ∨
      ∃ report report', (ofText limit units recover text uri).value = .ok report ∧
        (ofText limit units recover text' uri).value = .ok report' ∧
        Alike limit units recover text text' uri report report' := by
  have hend := ended_numbered (Lexed.ended_ofText text)
  have htokens := Rendering.map_places (Lexed.ofText text).tokens
  have htokens' := Rendering.map_places (Lexed.ofText text').tokens
  have hrun := Analysis.ofText_eq_map limit recover hlexed
  have hrun' := Analysis.ofText_eq_map limit recover hlexed'
  rw [← hsame] at htokens' hrun'
  cases hlabel : Uri.label uri with
  | error fault =>
      refine Or.inl ⟨.uri fault, ?_, ?_⟩
      · simp [ofText, hlabel]
      · simp [ofText, hlabel]
  | ok label =>
      cases hnumbered : Analysis.ofTokens limit recover
          (numbered ((Lexed.ofText text).tokens.map Token.content)) with
      | error fault =>
          rw [hnumbered] at hrun hrun'
          refine Or.inl ⟨.numeral fault, ?_, ?_⟩
          · simp [ofText, hlabel, hrun, Except.map]
          · simp [ofText, hlabel, hrun', Except.map]
      | ok a =>
          rw [hnumbered] at hrun hrun'
          have halike := Verdict.alike_of_renderings (Rendering.value_places (Lexed.ofText text).tokens)
            (Rendering.value_places (Lexed.ofText text').tokens)
            (Analysis.stands_of_ofTokens hend hnumbered)
          rw [htokens, htokens'] at halike
          rcases exists_diagnostic? hfits hrun label with ⟨d, hd⟩
          rcases exists_diagnostic? hfits' hrun' label with ⟨d', hd'⟩
          refine Or.inr ⟨_, _, value_of_analysis hlabel hrun hd, value_of_analysis hlabel hrun' hd',
            rfl, ?_, label, _, _, hlabel, hrun, hrun', hd, hd', halike⟩
          rw [Bool.eq_iff_iff]
          exact (Analysis.isNone_iff_of_diagnostic? hd).trans
            (halike.accepted_iff.trans (Analysis.isNone_iff_of_diagnostic? hd').symm)

def openLoop : String :=
  "while true \x7b\n  a = 1"

def spacedOpenLoop : String :=
  "\twhile  true\x7b // forever\r\na=1\t"

theorem independent_of_layout_openLoop :
    Text.Fits .utf16 openLoop ∧ Text.Fits .utf16 spacedOpenLoop ∧
      (Lexed.ofText openLoop).errors = [] ∧ (Lexed.ofText spacedOpenLoop).errors = [] ∧
      (Lexed.ofText openLoop).tokens.map Token.content =
        (Lexed.ofText spacedOpenLoop).tokens.map Token.content ∧
      (Lexed.ofText openLoop).tokens ≠ (Lexed.ofText spacedOpenLoop).tokens ∧
      ((∃ failure, (ofText 500 .utf16 true openLoop "a.ta").value = .error failure ∧
          (ofText 500 .utf16 true spacedOpenLoop "a.ta").value = .error failure) ∨
        ∃ report report', (ofText 500 .utf16 true openLoop "a.ta").value = .ok report ∧
          (ofText 500 .utf16 true spacedOpenLoop "a.ta").value = .ok report' ∧
          Alike 500 .utf16 true openLoop spacedOpenLoop "a.ta" report report') := by
  have hfits : Text.Fits .utf16 openLoop := ⟨by decide +kernel, by decide +kernel⟩
  have hfits' : Text.Fits .utf16 spacedOpenLoop := ⟨by decide +kernel, by decide +kernel⟩
  have hlexed : (Lexed.ofText openLoop).errors = [] := by decide +kernel
  have hlexed' : (Lexed.ofText spacedOpenLoop).errors = [] := by decide +kernel
  have hsame : (Lexed.ofText openLoop).tokens.map Token.content =
      (Lexed.ofText spacedOpenLoop).tokens.map Token.content := by
    decide +kernel
  refine ⟨hfits, hfits', hlexed, hlexed', hsame, by decide +kernel, ?_⟩
  exact independent_of_layout 500 .utf16 true openLoop spacedOpenLoop "a.ta" hfits hfits' hlexed
    hlexed' hsame

end Report
end TypedAnt
