import TypedAnt.Proofs.Analysis
import TypedAnt.Proofs.Program.LongIntegers

/-!
# When an analysis fails

An analysis ends with a report, unless it reads an integer literal that is too long.  No other
way out is left open: every stage ends in success or in an error of its own, and every error has
a range that can be reported.
-/

namespace TypedAnt
namespace Analysis

variable {limit : Nat} {recover : Bool} {text : String}

inductive Ends (limit : Nat) (text : String) : Except Numeral.Fault Verdict → Prop where
  | lexical {e : LexError} {more : List LexError} :
      (Lexed.ofText text).errors = e :: more →
      Ends limit text (.ok (.lexical e more))
  | numeral {fault : Numeral.Fault} :
      (Lexed.ofText text).errors = [] →
      (parsed limit text).failure = some (.numeral fault) →
      Ends limit text (.error fault)
  | rejected {e : SyntaxError} :
      (Lexed.ofText text).errors = [] →
      (parsed limit text).failure = some (.rejected e) →
      Ends limit text (.ok (.rejected e))
  | illTyped {e : TypeError} :
      (Lexed.ofText text).errors = [] →
      (parsed limit text).failure = none →
      checked limit text = .error e →
      Ends limit text (.ok (.illTyped e))
  | accepted :
      (Lexed.ofText text).errors = [] →
      (parsed limit text).failure = none →
      checked limit text = .ok () →
      Ends limit text (.ok .accepted)

theorem ends_ofText (limit : Nat) (recover : Bool) (text : String) :
    Ends limit text ((ofText limit recover text).map Analysis.verdict) := by
  unfold ofText
  dsimp only
  cases herrors : (Lexed.ofText text).errors with
  | cons e more => exact .lexical herrors
  | nil =>
      dsimp only
      cases hfail : (Parsed.ofTokens limit (Lexed.ofText text).tokens).failure with
      | none =>
          cases hcheck : ((Parsed.ofTokens limit (Lexed.ofText text).tokens).program.check limit
              ⟨.initial, []⟩).1 with
          | ok _ => exact .accepted herrors hfail hcheck
          | error e => exact .illTyped herrors hfail hcheck
      | some failure =>
          cases failure with
          | numeral fault => exact .numeral herrors hfail
          | rejected e =>
              have hrejected := Ends.rejected herrors hfail
              dsimp only
              split
              · split <;> exact hrejected
              · exact hrejected

theorem Ends.not_numeral {v : Verdict} (h : Ends limit text (.ok v)) :
    ¬ ((Lexed.ofText text).errors = [] ∧
      ∃ fault, (parsed limit text).failure = some (.numeral fault)) := by
  cases h with
  | lexical herrors => simp [herrors]
  | rejected _ hfail => simp [hfail]
  | illTyped _ hfail _ => simp [hfail]
  | accepted _ hfail _ => simp [hfail]

end Analysis

namespace Report

variable {limit : Nat} {units : Units} {recover : Bool} {text uri label : String}

/-- The diagnostic is that of the first stage that ends in an error, if one does. -/
structure FirstError (limit : Nat) (units : Units) (text label : String) (report : Report) :
    Prop where
  lexical : (Lexed.ofText text).errors ≠ [] → report.diagnostic = some (.lexical label)
  rejected : (Lexed.ofText text).errors = [] →
    ∀ e, (Analysis.parsed limit text).failure = some (.rejected e) →
      ∃ d, e.diagnostic units text label = .ok d ∧ report.diagnostic = some d
  illTyped : (Lexed.ofText text).errors = [] → (Analysis.parsed limit text).failure = none →
    ∀ e, Analysis.checked limit text = .error e →
      ∃ d, e.diagnostic units text label = .ok d ∧ report.diagnostic = some d
  accepted : (Lexed.ofText text).errors = [] → (Analysis.parsed limit text).failure = none →
    Analysis.checked limit text = .ok () → report.diagnostic = none

theorem firstError_of_ends {a : Analysis} {d : Option Diagnostic}
    (hends : Analysis.Ends limit text (.ok a.verdict))
    (hd : a.diagnostic? units text label = .ok d) :
    FirstError limit units text label ⟨a.scopes, d⟩ := by
  unfold Analysis.diagnostic? at hd
  generalize a.verdict = v at hends hd
  cases hends with
  | lexical herrors =>
      cases hd
      constructor <;> simp [herrors]
  | rejected herrors hfail =>
      rcases Analysis.eq_some_of_map hd with ⟨placed, hplaced, rfl⟩
      constructor <;> simp [herrors, hfail, hplaced]
  | illTyped herrors hfail hcheck =>
      rcases Analysis.eq_some_of_map hd with ⟨placed, hplaced, rfl⟩
      constructor <;> simp [herrors, hfail, hcheck, hplaced]
  | accepted herrors hfail hcheck =>
      cases hd
      constructor <;> simp [herrors, hfail, hcheck]

theorem value_cases (limit : Nat) (recover : Bool) (hfits : Text.Fits units text)
    (hlabel : Uri.label uri = .ok label) :
    (∃ fault, (Lexed.ofText text).errors = [] ∧
        (Analysis.parsed limit text).failure = some (.numeral fault) ∧
        (ofText limit units recover text uri).value = .error (.numeral fault)) ∨
      ∃ report, (ofText limit units recover text uri).value = .ok report ∧
        FirstError limit units text label report ∧
        ¬ ((Lexed.ofText text).errors = [] ∧
          ∃ fault, (Analysis.parsed limit text).failure = some (.numeral fault)) := by
  have hends := Analysis.ends_ofText limit recover text
  cases hanalysis : Analysis.ofText limit recover text with
  | error fault =>
      rw [hanalysis] at hends
      cases hends with
      | numeral herrors hfail =>
          refine Or.inl ⟨fault, herrors, hfail, ?_⟩
          simp [ofText, hlabel, hanalysis]
  | ok a =>
      rw [hanalysis] at hends
      rcases exists_diagnostic? hfits hanalysis label with ⟨d, hd⟩
      exact Or.inr ⟨_, value_of_analysis hlabel hanalysis hd, firstError_of_ends hends hd,
        hends.not_numeral⟩

/--
An analysis fails if and only if the text has no lexical error and its parse reads an integer
literal that is too long; that literal is then the reason.  In all other cases there is a report
with at most one diagnostic, that of the first stage that ends in an error.
-/
theorem fails_iff_reads_tooLong (limit : Nat) (units : Units) (recover : Bool)
    (text uri label : String) (hfits : Text.Fits units text) (hlabel : Uri.label uri = .ok label) :
    ((∃ failure, (ofText limit units recover text uri).value = .error failure) ↔
        (Lexed.ofText text).errors = [] ∧
          Parsed.ReadsTooLong limit (Lexed.ofText text).tokens) ∧
      (∀ failure, (ofText limit units recover text uri).value = .error failure →
        ∃ n, failure = .numeral (.tooLong n) ∧ Numeral.digitLimit < n) ∧
      ∀ report, (ofText limit units recover text uri).value = .ok report →
        report.diagnostics.length ≤ 1 ∧ (report.ok = true ↔ report.diagnostics = []) ∧
          FirstError limit units text label report := by
  have hend := Lexed.ended_ofText text
  have hspelled : ∀ t ∈ (Lexed.ofText text).tokens, t.Spelled := fun _ => Lexed.spelled_of_mem
  have hiff := Parsed.numeral_iff_readsTooLong limit hend hspelled
  rw [← hiff]
  rcases value_cases limit recover hfits hlabel with
    ⟨fault, herrors, hfail, hvalue⟩ | ⟨report, hvalue, hfirst, hnot⟩
  · rw [hvalue]
    refine ⟨?_, ?_, ?_⟩
    · exact ⟨fun _ => ⟨herrors, fault, hfail⟩, fun _ => ⟨_, rfl⟩⟩
    · intro failure hfailure
      cases hfailure
      rcases Parsed.tooLong_of_numeral hend hspelled hfail with ⟨n, rfl, hlong⟩
      exact ⟨n, rfl, hlong⟩
    · intro report hreport
      cases hreport
  · rw [hvalue]
    refine ⟨?_, ?_, ?_⟩
    · constructor
      · intro hfailure
        rcases hfailure with ⟨failure, hfailure⟩
        cases hfailure
      · intro hlong
        exact absurd hlong hnot
    · intro failure hfailure
      cases hfailure
    · intro report' hreport
      cases hreport
      refine ⟨?_, ?_, hfirst⟩
      · unfold diagnostics
        cases report.diagnostic <;> simp
      · unfold diagnostics ok
        cases report.diagnostic <;> simp

end Report

/-!
# Texts of digits

A text of nothing but digits is one integer literal, so the shortest text that cannot be
analysed has one digit more than an integer may have.
-/

section Digits

variable {ds : List Char}

theorem Piece.split_of_digits (h : Numeral.Digits ds) : split ds = [token .int ds] := by
  rcases h with ⟨hne, hdigits⟩
  cases ds with
  | nil => exact absurd rfl hne
  | cons c cs =>
      have hc := hdigits c List.mem_cons_self
      have hmark {d : Char} (hd : d.toNat < 48) : (c == d) = false := by
        simpa using Numeral.ne_of_digit hc (Or.inl hd)
      have hpiece : first c cs = token .int (c :: cs) := by
        simp only [first, hmark (d := '\n') (by decide), hmark (d := ' ') (by decide),
          hmark (d := '\t') (by decide), hmark (d := '\r') (by decide),
          hmark (d := '/') (by decide), hc, number, List.takeWhile_eq_self_iff.mpr hdigits,
          List.dropWhile_eq_nil_iff.mpr hdigits]
        simp
      rw [split, hpiece]
      simp [text, split]

theorem Lexed.ofText_of_digits (h : Numeral.Digits ds) :
    ofText (String.ofList ds) =
      ⟨[⟨.int, String.ofList ds, 1, 1⟩,
        ⟨.eof, "", (Place.start.after ds).line, (Place.start.after ds).column⟩], []⟩ := by
  unfold ofText
  rw [String.toList_ofList, Piece.split_of_digits h]
  rfl

theorem Text.lines_of_digits (h : Numeral.Digits ds) : lines (String.ofList ds) = [ds] := by
  rcases Lexeme.breaks_of_digits h with ⟨hfeed, hreturn⟩
  have hsplit := splitAt_append_of_not_mem hfeed (show splitAt '\n' [] = [[]] from rfl)
  rw [List.append_nil] at hsplit
  have hkept : dropReturn ds = ds := by
    unfold dropReturn
    rw [if_neg]
    intro hlast
    exact hreturn (List.mem_of_getLast? hlast)
  simp [lines, hsplit, hkept]

theorem Units.count_utf32 (cs : List Char) : utf32.count cs = cs.length := by
  induction cs with
  | nil => rfl
  | cons c cs ih =>
      rw [count_cons, ih, List.length_cons, Nat.add_comm]
      rfl

theorem Text.fits_of_digits (h : Numeral.Digits ds) (hlength : (ds.length : Int) < Position.limit) :
    Fits .utf32 (String.ofList ds) := by
  constructor
  · rw [lines_of_digits h]
    exact (by decide : (1 : Int) < Position.limit)
  · rw [lines_of_digits h]
    simpa [Units.count_utf32] using hlength

end Digits

namespace Report

def longNumber : String :=
  String.ofList (List.replicate 4301 '7')

theorem fails_iff_reads_tooLong_longNumber :
    Text.Fits .utf32 longNumber ∧ Uri.label "a.ta" = .ok "a.ta" ∧
      (Lexed.ofText longNumber).errors = [] ∧
      Parsed.ReadsTooLong 500 (Lexed.ofText longNumber).tokens ∧
      ∃ n, (ofText 500 .utf32 true longNumber "a.ta").value = .error (.numeral (.tooLong n)) := by
  have hdigits : Numeral.Digits (List.replicate 4301 '7') := by
    constructor
    · rw [ne_eq, List.replicate_eq_nil_iff]
      decide
    · intro c hc
      rw [List.eq_of_mem_replicate hc]
      decide
  have hfits : Text.Fits .utf32 longNumber := by
    apply Text.fits_of_digits hdigits
    rw [List.length_replicate]
    decide
  have hlabel : Uri.label "a.ta" = .ok "a.ta" := by
    decide +kernel
  have hlexed := Lexed.ofText_of_digits hdigits
  have hreads : Parsed.ReadsTooLong 500 (Lexed.ofText longNumber).tokens := by
    unfold longNumber
    rw [hlexed]
    refine Or.inl ⟨rfl, _, List.mem_cons_self, rfl, ?_⟩
    rw [String.length_ofList, List.length_replicate]
    decide
  have herrors : (Lexed.ofText longNumber).errors = [] := by
    unfold longNumber
    rw [hlexed]
  have hmain := fails_iff_reads_tooLong 500 .utf32 true longNumber "a.ta" "a.ta" hfits hlabel
  refine ⟨hfits, hlabel, herrors, hreads, ?_⟩
  rcases hmain.1.mpr ⟨herrors, hreads⟩ with ⟨failure, hvalue⟩
  rcases hmain.2.1 failure hvalue with ⟨n, rfl, _⟩
  exact ⟨n, hvalue⟩

end Report
end TypedAnt
