import TypedAnt.Completion
import TypedAnt.Proofs.Recovery
import TypedAnt.Proofs.Typing.NamesInScope

/-!
# The names that are offered

Completion offers the names in scope at the point where the analysis of the text ends, as far
as they start with what has been typed.
-/

namespace TypedAnt

theorem Parsed.regular_statements {limit : Nat} {tokens : List Token}
    (h : ∀ fault, (ofTokens limit tokens).failure ≠ some (.numeral fault)) :
    ∀ s ∈ (ofTokens limit tokens).program.statements, s.Regular := by
  have hparsed : ofTokens limit tokens = ⟨⟨(body tokens).headD (endOf tokens),
      (Parser.statements limit (body tokens)).1⟩,
      (Parser.statements limit (body tokens)).2.map (Parser.Stop.failure (endOf tokens))⟩ := rfl
  rw [hparsed] at h ⊢
  cases hstop : (Parser.statements limit (body tokens)).2 with
  | none => exact (Parser.sequence_of_statements (Prod.ext rfl hstop)).regular
  | some stop =>
      cases stop with
      | numeral fault =>
          rw [hstop] at h
          exact absurd rfl (h fault)
      | rejected rest cause =>
          rcases Parser.reaches_of_statements (Prod.ext rfl hstop) with ⟨c, _, hreaches⟩
          rcases hreaches.completed with ⟨done, _, hsequence⟩
          exact hsequence.regular

namespace Analysis

variable {limit : Nat} {text : String} {a : Analysis}

def statements (limit : Nat) (text : String) : List Stmt :=
  match (Lexed.ofText text).errors with
  | [] => (parsed limit text).program.statements
  | _ :: _ => []

theorem scopes_of_recover (h : ofText limit true text = .ok a)
    (hlexed : (Lexed.ofText text).errors = []) :
    a.scopes = left limit text ∧
      ∀ fault, (parsed limit text).failure ≠ some (.numeral fault) := by
  unfold ofText at h
  dsimp only at h
  rw [hlexed] at h
  dsimp only at h
  split at h
  · cases h
  · rename_i e hfail
    refine ⟨?_, by simp [parsed, hfail]⟩
    rw [if_pos rfl] at h
    split at h
    · cases h
      rfl
    · cases h
      rfl
  · rename_i hfail
    refine ⟨?_, by simp [parsed, hfail]⟩
    split at h
    · cases h
      rfl
    · cases h
      rfl

theorem scopes_of_lexical {e : LexError} {more : List LexError} {recover : Bool}
    (h : ofText limit recover text = .ok a) (hlexed : (Lexed.ofText text).errors = e :: more) :
    a.scopes = .initial := by
  unfold ofText at h
  dsimp only at h
  rw [hlexed] at h
  cases h
  rfl

theorem stopsAt_of_recover (h : ofText limit true text = .ok a)
    (hlimit : (Lexed.ofText text).errors = [] →
      ∀ e, checked limit text = .error e → e.cause ≠ .nestingTooDeep) :
    (∃ levels, Program.StopsAt (statements limit text) levels a.scopes) ∧
      ∀ s ∈ statements limit text, s.Regular := by
  unfold statements
  cases hlexed : (Lexed.ofText text).errors with
  | nil =>
      rcases scopes_of_recover h hlexed with ⟨hscopes, hnumeral⟩
      rw [hscopes]
      exact ⟨Program.StopsAt.of_check (hlimit hlexed), Parsed.regular_statements hnumeral⟩
  | cons e more =>
      rw [scopes_of_lexical h hlexed]
      exact ⟨⟨_, .finished .nil⟩, by simp⟩

end Analysis

namespace Report

theorem analysis_of_value {limit : Nat} {units : Units} {recover : Bool} {text uri : String}
    {report : Report} (h : (ofText limit units recover text uri).value = .ok report) :
    ∃ a, Analysis.ofText limit recover text = .ok a ∧ report.scopes = a.scopes := by
  unfold ofText at h
  split at h
  · cases h
  · split at h
    · cases h
    · rename_i a hanalysis
      refine ⟨a, hanalysis, ?_⟩
      dsimp only at h
      split at h
      · cases h
      · cases h
        rfl

end Report

namespace Completion

/--
For a text that is reported on, the names offered at a position are distinct, and they are
exactly those in scope that start with the word before the position.  The analysis stops at one
point, which the rules tell: behind all statements that were parsed, or at the innermost one
that breaks the check.  In scope are the built-in functions, what the statements before
that point bind directly in the program or directly in a body around the point, and the names
and parameters of the functions around it.  Names that still hold the built-in
function of that name are left out on request.
-/
theorem offers_names_in_scope (limit : Nat) (units : Units) (includeBuiltins : Bool)
    (text uri : String) (position : Position) (report : Report)
    (hreport : (Report.ofText limit units true text uri).value = .ok report)
    (hlimit : (Lexed.ofText text).errors = [] →
      ∀ e, Analysis.checked limit text = .error e → e.cause ≠ .nestingTooDeep) :
    ∃ found levels Δ,
      (atPosition limit units includeBuiltins text uri position).value = .ok found ∧
      found.Nodup ∧
      Program.StopsAt (Analysis.statements limit text) levels Δ ∧
      (∀ levels' Δ', Program.StopsAt (Analysis.statements limit text) levels' Δ' →
        levels' = levels ∧ Δ' = Δ) ∧
      ∀ name, name ∈ found ↔
        (position.stem units text).toList <+: name.toList ∧
        ((∃ b : Builtin, b.name = name) ∨ ∃ level ∈ levels, name ∈ level.names) ∧
        (includeBuiltins = true ∨
          ¬ ∃ b : Builtin, b.name = name ∧ Δ.Binds name (.builtin b)) := by
  rcases Report.analysis_of_value hreport with ⟨a, hanalysis, hscopes⟩
  rcases Analysis.stopsAt_of_recover hanalysis hlimit with ⟨⟨levels, hstops⟩, hregular⟩
  rw [← hscopes] at hstops
  refine ⟨names report.scopes includeBuiltins (position.stem units text), levels, report.scopes,
    ?_, ?_, hstops, ?_, ?_⟩
  · unfold atPosition
    dsimp only
    rw [hreport]
  · exact (Scopes.nodup_visible report.scopes).filter _
  · intro levels' Δ' hstops'
    exact hstops.unique hstops'
  · intro name
    rw [← hstops.bound_iff hregular, ← Scopes.mem_visible_iff, ← Scopes.isBuiltin_iff]
    unfold names
    rw [List.mem_filter, Bool.and_eq_true, Bool.or_eq_true, List.isPrefixOf_iff_prefix,
      Bool.not_eq_true', Bool.not_eq_true]
    exact and_left_comm

def halfWritten : String :=
  "func half(part: int) \x7b let p = part; p = q \x7d"

theorem offers_names_in_scope_halfWritten :
    ∃ report, (Report.ofText 500 .utf16 true halfWritten "a.ta").value = .ok report ∧
      Analysis.checked 500 halfWritten =
        .error ⟨⟨.ident, "q", 1, 42⟩, .undefinedVariable "q"⟩ ∧
      (atPosition 500 .utf16 false halfWritten "a.ta" ⟨0, 11⟩).value = .ok ["part", "p"] ∧
      ∃ levels Δ, Program.StopsAt (Analysis.statements 500 halfWritten) levels Δ ∧
        ∀ name, name ∈ ["part", "p"] ↔
          (Position.stem ⟨0, 11⟩ .utf16 halfWritten).toList <+: name.toList ∧
          ((∃ b : Builtin, b.name = name) ∨ ∃ level ∈ levels, name ∈ level.names) ∧
          (false = true ∨ ¬ ∃ b : Builtin, b.name = name ∧ Δ.Binds name (.builtin b)) := by
  have hlexed : Lexed.ofText halfWritten =
      ⟨[⟨.keyword, "func", 1, 1⟩, ⟨.ident, "half", 1, 6⟩, ⟨.op, "(", 1, 10⟩,
        ⟨.ident, "part", 1, 11⟩, ⟨.op, ":", 1, 15⟩, ⟨.ident, "int", 1, 17⟩, ⟨.op, ")", 1, 20⟩,
        ⟨.op, "\x7b", 1, 22⟩, ⟨.keyword, "let", 1, 24⟩, ⟨.ident, "p", 1, 28⟩, ⟨.op, "=", 1, 30⟩,
        ⟨.ident, "part", 1, 32⟩, ⟨.op, ";", 1, 36⟩, ⟨.ident, "p", 1, 38⟩, ⟨.op, "=", 1, 40⟩,
        ⟨.ident, "q", 1, 42⟩, ⟨.op, "\x7d", 1, 44⟩, ⟨.eof, "", 1, 45⟩], []⟩ := by
    decide +kernel
  have hlabel : Uri.label "a.ta" = .ok "a.ta" := by
    decide +kernel
  have hchecked : Analysis.checked 500 halfWritten =
      .error ⟨⟨.ident, "q", 1, 42⟩, .undefinedVariable "q"⟩ := by
    unfold Analysis.checked Analysis.parsed
    rw [hlexed]
    rfl
  have hreport : ∃ report, (Report.ofText 500 .utf16 true halfWritten "a.ta").value = .ok report ∧
      names report.scopes false "p" = ["part", "p"] := by
    simp only [Report.ofText, hlabel, Analysis.ofText, hlexed]
    exact ⟨_, rfl, rfl⟩
  rcases hreport with ⟨report, hvalue, hnames⟩
  have hstem : Position.stem ⟨0, 11⟩ .utf16 halfWritten = "p" := by
    decide +kernel
  have hfound : (atPosition 500 .utf16 false halfWritten "a.ta" ⟨0, 11⟩).value =
      .ok ["part", "p"] := by
    unfold atPosition
    dsimp only
    rw [hvalue, hstem, ← hnames]
  have hlimit : ∀ e, Analysis.checked 500 halfWritten = .error e → e.cause ≠ .nestingTooDeep := by
    intro e he
    cases hchecked.symm.trans he
    simp
  rcases offers_names_in_scope 500 .utf16 false halfWritten "a.ta" ⟨0, 11⟩ report hvalue
    (fun _ => hlimit) with ⟨found, levels, Δ, hoffered, _, hstops, _, hall⟩
  cases hfound.symm.trans hoffered
  exact ⟨report, hvalue, hchecked, hfound, levels, Δ, hstops, hall⟩

end Completion
end TypedAnt
