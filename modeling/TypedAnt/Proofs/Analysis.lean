import TypedAnt.Analysis
import TypedAnt.Proofs.Program.CorrectPrefix
import TypedAnt.Proofs.Token.Range
import TypedAnt.Proofs.Typing.Blame

/-!
# Where errors are reported

Syntax and type errors stand at tokens of the text, so the range that is reported for one
covers a token of the text.
-/

namespace TypedAnt

/-!
# Tokens of errors
-/

namespace Parsed

variable {limit : Nat} {tokens : List Token}

theorem rejected_token_mem {e : SyntaxError} (hend : Ended tokens)
    (h : (ofTokens limit tokens).failure = some (.rejected e)) : e.token ∈ tokens := by
  rcases hend with ⟨w, eof, rfl, hw, heof⟩
  rcases rejected_split hw heof h with ⟨c, rest, rfl, _, htoken, _⟩
  rw [htoken]
  cases rest <;> simp

theorem illTyped_token_mem {e : TypeError} {c : Checker} (hend : Ended tokens)
    (hparsed : (ofTokens limit tokens).failure = none)
    (h : ((ofTokens limit tokens).program.check limit c).1 = .error e) : e.token ∈ tokens := by
  have hwhole : ofTokens limit tokens = ⟨(ofTokens limit tokens).program, none⟩ := by
    rw [← hparsed]
  have hderived := derived_of_ofTokens hend hwhole
  exact Program.blames_check hderived.within.1 hderived.within.2 limit c e h

end Parsed

namespace Analysis

variable {limit : Nat} {recover : Bool} {text : String} {a : Analysis} {t : Token}

def parsed (limit : Nat) (text : String) : Parsed :=
  Parsed.ofTokens limit (Lexed.ofText text).tokens

def checked (limit : Nat) (text : String) : Except TypeError Unit :=
  ((parsed limit text).program.check limit ⟨.initial, []⟩).1

/-- The stages in their order: the first one that fails gives the verdict. -/
theorem verdict_cases (h : ofText limit recover text = .ok a) :
    (∃ e more, a.verdict = .lexical e more ∧ (Lexed.ofText text).errors = e :: more) ∨
      (∃ e, a.verdict = .rejected e ∧ (parsed limit text).failure = some (.rejected e)) ∨
      (∃ e, a.verdict = .illTyped e ∧ (parsed limit text).failure = none ∧
        checked limit text = .error e) ∨
      a.verdict = .accepted := by
  unfold ofText at h
  dsimp only at h
  split at h
  · rename_i e more herrors
    cases h
    exact Or.inl ⟨e, more, rfl, herrors⟩
  · apply Or.inr
    split at h
    · cases h
    · rename_i e hfail
      have hverdict : a.verdict = .rejected e := by
        split at h
        · split at h <;> cases h <;> rfl
        · cases h
          rfl
      exact Or.inl ⟨e, hverdict, hfail⟩
    · rename_i hfail
      apply Or.inr
      split at h
      · cases h
        exact Or.inr rfl
      · rename_i e hcheck
        cases h
        exact Or.inl ⟨e, rfl, hfail, hcheck⟩

theorem rejected_token_mem {e : SyntaxError} (h : (parsed limit text).failure = some (.rejected e)) :
    e.token ∈ (Lexed.ofText text).tokens :=
  Parsed.rejected_token_mem (Lexed.ended_ofText text) h

theorem illTyped_token_mem {e : TypeError} (hparsed : (parsed limit text).failure = none)
    (h : checked limit text = .error e) : e.token ∈ (Lexed.ofText text).tokens :=
  Parsed.illTyped_token_mem (Lexed.ended_ofText text) hparsed h

end Analysis

/-!
# Ranges of errors
-/

def Diagnostic.Placed (units : Units) (text : String) (d : Diagnostic) : Prop :=
  ∃ t ∈ (Lexed.ofText text).tokens, t.range units text = .ok d.range ∧ t.Covered units text d.range

theorem Diagnostic.placed_atToken {units : Units} {text : String} {t : Token}
    (hfits : Text.Fits units text) (ht : t ∈ (Lexed.ofText text).tokens) (label message : String) :
    ∃ d, atToken units text label t message = .ok d ∧ d.Placed units text := by
  rcases Token.covered_of_located (Lexed.located_of_mem ht) hfits with ⟨range, hrange, hcovered⟩
  refine ⟨⟨range, message, label⟩, ?_, t, ht, hrange, hcovered⟩
  unfold atToken
  rw [hrange]
  rfl

namespace Analysis

variable {limit : Nat} {recover : Bool} {units : Units} {text : String} {a : Analysis}

theorem eq_some_of_map {x : Except Position.Fault Diagnostic} {d : Option Diagnostic}
    (h : some <$> x = .ok d) : ∃ placed, x = .ok placed ∧ d = some placed := by
  cases x with
  | error fault => cases h
  | ok placed =>
      cases h
      exact ⟨placed, rfl, rfl⟩

theorem diagnostic?_cases (hfits : Text.Fits units text) (hlexed : (Lexed.ofText text).errors = [])
    (h : ofText limit recover text = .ok a) (label : String) :
    a.diagnostic? units text label = .ok none ∨
      ∃ d, a.diagnostic? units text label = .ok (some d) ∧ d.Placed units text := by
  unfold diagnostic?
  rcases verdict_cases h with ⟨e, more, _, herrors⟩ | ⟨e, hverdict, hfail⟩ |
    ⟨e, hverdict, hparsed, hcheck⟩ | hverdict
  · rw [hlexed] at herrors
    cases herrors
  · rcases Diagnostic.placed_atToken hfits (rejected_token_mem hfail) label e.message with
      ⟨d, hd, hplaced⟩
    refine Or.inr ⟨d, ?_, hplaced⟩
    simp only [hverdict, SyntaxError.diagnostic, hd]
    rfl
  · rcases Diagnostic.placed_atToken hfits (illTyped_token_mem hparsed hcheck) label e.message with
      ⟨d, hd, hplaced⟩
    refine Or.inr ⟨d, ?_, hplaced⟩
    simp only [hverdict, TypeError.diagnostic, hd]
    rfl
  · rw [hverdict]
    exact Or.inl rfl

end Analysis

namespace Report

variable {limit : Nat} {units : Units} {recover : Bool} {text uri label : String}

theorem value_of_analysis {a : Analysis} {d : Option Diagnostic} (hlabel : Uri.label uri = .ok label)
    (hanalysis : Analysis.ofText limit recover text = .ok a)
    (hd : a.diagnostic? units text label = .ok d) :
    (ofText limit units recover text uri).value = .ok ⟨a.scopes, d⟩ := by
  unfold ofText
  rw [hlabel, hanalysis]
  dsimp only
  rw [hd]

theorem exists_diagnostic? {a : Analysis} (hfits : Text.Fits units text)
    (hanalysis : Analysis.ofText limit recover text = .ok a) (label : String) :
    ∃ d, a.diagnostic? units text label = .ok d := by
  cases hlexed : (Lexed.ofText text).errors with
  | nil =>
      rcases Analysis.diagnostic?_cases hfits hlexed hanalysis label with hnone | ⟨d, hsome, _⟩
      · exact ⟨none, hnone⟩
      · exact ⟨some d, hsome⟩
  | cons e more =>
      unfold Analysis.ofText at hanalysis
      dsimp only at hanalysis
      rw [hlexed] at hanalysis
      cases hanalysis
      exact ⟨_, rfl⟩

/--
When a text has no lexical error, every error that is reported for it stands at a token
of the text, and its range is on an existing line and holds exactly that token: the
characters of the token, or the end of the line for a newline and for the end of the text.
No position of an error is ever out of range.
-/
theorem error_range_covers_token (limit : Nat) (units : Units) (recover : Bool) (text uri : String)
    (hfits : Text.Fits units text) (hlexed : (Lexed.ofText text).errors = []) :
    (∀ fault, (ofText limit units recover text uri).value ≠ .error (.position fault)) ∧
      ∀ report d, (ofText limit units recover text uri).value = .ok report →
        report.diagnostic = some d →
        ∃ t ∈ (Lexed.ofText text).tokens, t.range units text = .ok d.range ∧
          t.Covered units text d.range := by
  unfold ofText
  cases hlabel : Uri.label uri with
  | error fault => simp
  | ok label =>
      cases hanalysis : Analysis.ofText limit recover text with
      | error fault => simp
      | ok a =>
          dsimp only
          rcases Analysis.diagnostic?_cases hfits hlexed hanalysis label with
            hnone | ⟨d, hsome, hplaced⟩
          · rw [hnone]
            refine ⟨by simp, ?_⟩
            intro report d hreport hd
            cases hreport
            cases hd
          · rw [hsome]
            refine ⟨by simp, ?_⟩
            intro report d' hreport hd
            cases hreport
            cases hd
            exact hplaced

def mixedSum : String :=
  "\t\"😀\" + 1\r\n"

theorem error_range_covers_token_mixed :
    Text.Fits .utf16 mixedSum ∧ (Lexed.ofText mixedSum).errors = [] ∧
      ∃ report d, (ofText 500 .utf16 false mixedSum "a.ta").value = .ok report ∧
        report.diagnostic = some d ∧ d.range = ⟨⟨0, 6⟩, ⟨0, 7⟩⟩ ∧
        ∃ t ∈ (Lexed.ofText mixedSum).tokens, t.range .utf16 mixedSum = .ok d.range ∧
          t.Covered .utf16 mixedSum d.range := by
  have hlexed : Lexed.ofText mixedSum =
      ⟨[⟨.string, "\"😀\"", 1, 2⟩, ⟨.op, "+", 1, 6⟩, ⟨.int, "1", 1, 8⟩, ⟨.newline, "\n", 1, 10⟩,
        ⟨.eof, "", 2, 1⟩], []⟩ := by
    decide +kernel
  have hfits : Text.Fits .utf16 mixedSum := ⟨by decide +kernel, by decide +kernel⟩
  have hlabel : Uri.label "a.ta" = .ok "a.ta" := by
    decide +kernel
  have herrors : (Lexed.ofText mixedSum).errors = [] := by
    rw [hlexed]
  have hreport : ∃ report d, (ofText 500 .utf16 false mixedSum "a.ta").value = .ok report ∧
      report.diagnostic = some d ∧ d.range = ⟨⟨0, 6⟩, ⟨0, 7⟩⟩ := by
    simp only [ofText, hlabel, Analysis.ofText, hlexed]
    exact ⟨_, _, rfl, rfl, rfl⟩
  rcases hreport with ⟨report, d, hvalue, hd, hrange⟩
  exact ⟨hfits, herrors, report, d, hvalue, hd, hrange,
    (error_range_covers_token 500 .utf16 false mixedSum "a.ta" hfits herrors).2 report d hvalue hd⟩

end Report
end TypedAnt
