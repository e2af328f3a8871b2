import TypedAnt.Proofs.Analysis

/-!
# Recovery from syntax errors

On request, the statements that were completed before a syntax error are checked for the
names that they bind.  That is the same as checking the program that a beginning of
the tokens spells, with nothing after it.
-/

namespace TypedAnt

namespace Parsed

variable {limit : Nat} {tokens : List Token} {stmts : List Stmt}

/-- The tokens are parsed as the program `p`, with nothing but the nesting limit in the way. -/
structure Accepted (tokens : List Token) (p : Program) : Prop where
  unlimited : ∀ limit, tokens.length ≤ limit → ofTokens limit tokens = ⟨p, none⟩
  limited : ∀ limit, ofTokens limit tokens = ⟨p, none⟩ ∨
    ∃ e, (ofTokens limit tokens).failure = some (.rejected e) ∧ e.cause = .nestingTooDeep

/-- Statements are parsed as such when nothing stands after them but the end of the text. -/
theorem accepted_of_sequence {w : List Token} {eof : Token} (h : Sequence w stmts)
    (heof : eof.kind = .eof) : Accepted (w ++ [eof]) ⟨w.headD eof, stmts⟩ where
  unlimited := by
    intro limit hlimit
    exact ofTokens_of_derived (.program h heof) hlimit
  limited := by
    intro limit
    exact ofTokens_of_derived_limited (.program h heof) limit

theorem head?_eq_token (limit : Nat) (hend : Ended tokens) :
    tokens.head? = some (ofTokens limit tokens).program.token := by
  rcases hend with ⟨w, eof, rfl, hw, heof⟩
  rw [ofTokens_append hw heof]
  cases w <;> rfl

theorem reaches_of_rejected {e : SyntaxError} (hend : Ended tokens)
    (hfail : (ofTokens limit tokens).failure = some (.rejected e)) :
    ∃ i, errorIndex? limit tokens = some i ∧ tokens[i]? = some e.token ∧
      Reaches (tokens.take i) (ofTokens limit tokens).program.statements := by
  rcases hend with ⟨w, eof, rfl, hw, heof⟩
  rcases rejected_split hw heof hfail with ⟨c, rest, rfl, hstop, htoken, hindex⟩
  refine ⟨c.length, hindex, ?_, ?_⟩
  · rw [htoken, List.append_assoc]
    cases rest <;> simp
  · rcases Parser.reaches_of_statements (Prod.ext rfl hstop) with ⟨c', hsplit, hc⟩
    cases List.append_cancel_right hsplit
    rw [ofTokens_append hw heof, List.append_assoc, List.take_left]
    exact hc

/--
The completed statements of a rejected parse are a program of their own, which stands at
the same token unless there are none of them.
-/
theorem completed_program {i : Nat} (hend : Ended tokens)
    (h : Reaches (tokens.take i) (ofTokens limit tokens).program.statements) :
    ∃ n ≤ i, ∀ eof : Token, eof.kind = .eof → ∃ p : Program,
      p.statements = (ofTokens limit tokens).program.statements ∧
        (p.token = (ofTokens limit tokens).program.token ∨ p.statements = []) ∧
        Accepted (tokens.take n ++ [eof]) p := by
  rcases h.completed with ⟨done, hdone, hsequence⟩
  have htake : tokens.take done.length = done :=
    List.prefix_iff_eq_take.mp (hdone.trans (List.take_prefix i tokens)) |>.symm
  have hlength : done.length ≤ i := by
    have hle := hdone.length_le
    rw [List.length_take] at hle
    omega
  refine ⟨done.length, hlength, ?_⟩
  intro eof heof
  refine ⟨⟨done.headD eof, _⟩, rfl, ?_, ?_⟩
  · cases done with
    | nil => exact Or.inr hsequence.of_nil
    | cons t done =>
        have hhead := head?_eq_token limit hend
        rcases hdone.trans (List.take_prefix i tokens) with ⟨rest, rfl⟩
        exact Or.inl (Option.some.inj hhead)
  · rw [htake]
    exact accepted_of_sequence hsequence heof

theorem extended_program {c : List Token} (h : Reaches c stmts) :
    ∃ suffix stmt, Ended suffix ∧ ∃ p : Program, p.statements = stmts ++ [stmt] ∧
      Accepted (c ++ suffix) p := by
  rcases h.extensible with ⟨v, stmt, hsequence⟩
  let eof : Token := ⟨.eof, "", 0, 0⟩
  have hv : NoEof v := (noEof_append.mp hsequence.noEof).2
  refine ⟨v ++ [eof], stmt, ⟨v, eof, rfl, hv, rfl⟩, ⟨(c ++ v).headD eof, _⟩, rfl, ?_⟩
  rw [← List.append_assoc]
  exact accepted_of_sequence hsequence rfl

end Parsed

theorem Program.check_congr {p q : Program} (hstatements : p.statements = q.statements)
    (htoken : p.token = q.token ∨ p.statements = []) (limit : Nat) (c : Checker) :
    p.check limit c = q.check limit c := by
  unfold check
  rw [← hstatements]
  rcases htoken with htoken | hnil
  · rw [htoken]
  · rw [hnil]
    rfl

namespace Analysis

variable {limit : Nat} {text : String} {e : SyntaxError}

def left (limit : Nat) (text : String) : Scopes :=
  ((parsed limit text).program.check limit ⟨.initial, []⟩).2.scopes

theorem ofText_of_rejected (hlexed : (Lexed.ofText text).errors = [])
    (hfail : (parsed limit text).failure = some (.rejected e)) (recover : Bool) :
    ∃ stopped, ofText limit recover text =
      .ok ⟨.rejected e, if recover then left limit text else .initial, stopped⟩ := by
  unfold parsed at hfail
  unfold ofText
  dsimp only
  rw [hlexed]
  dsimp only
  rw [hfail]
  cases recover with
  | false => exact ⟨none, rfl⟩
  | true =>
      cases hcheck : (Parsed.ofTokens limit (Lexed.ofText text).tokens).program.check limit
        ⟨.initial, []⟩ with
      | mk outcome checker =>
          have hleft : left limit text = checker.scopes := by
            unfold left parsed
            rw [hcheck]
          rw [hleft]
          cases outcome with
          | ok _ => exact ⟨none, rfl⟩
          | error stop => exact ⟨some stop, rfl⟩

end Analysis

namespace Report

variable {limit : Nat} {units : Units} {text : String} {e : SyntaxError}

theorem ofText_of_rejected (hfits : Text.Fits units text) (hlexed : (Lexed.ofText text).errors = [])
    (hfail : (Analysis.parsed limit text).failure = some (.rejected e)) {uri label : String}
    (hlabel : Uri.label uri = .ok label) :
    ∃ d, e.diagnostic units text label = .ok d ∧ ∀ recover,
      (ofText limit units recover text uri).value =
        .ok ⟨if recover then Analysis.left limit text else .initial, some d⟩ := by
  rcases Diagnostic.placed_atToken hfits (Analysis.rejected_token_mem hfail) label e.message with
    ⟨d, hd, _⟩
  refine ⟨d, hd, ?_⟩
  intro recover
  rcases Analysis.ofText_of_rejected hlexed hfail recover with ⟨stopped, hanalysis⟩
  unfold ofText
  rw [hlabel]
  dsimp only
  rw [hanalysis]
  simp only [Analysis.diagnostic?, SyntaxError.diagnostic, hd]
  rfl

/--
A text whose tokens are rejected at index `i` is recovered from as a program of its own.
The statements completed before the error are those of the first `n` tokens with an
end-of-file token after them, for some `n` up to `i`, and the check of that program leaves
the scopes that the report with recovery has.  None of the statements before the error is
missing, because the first `i` tokens can be completed to a program with exactly one
statement more.  The diagnostic is the same with and without recovery, and without it
the scopes are those of an empty program.
-/
theorem recovery_checks_completed_prefix (limit : Nat) (units : Units) (text : String)
    (e : SyntaxError) (hfits : Text.Fits units text) (hlexed : (Lexed.ofText text).errors = [])
    (hfail : (Analysis.parsed limit text).failure = some (.rejected e)) :
    ∃ i, Parsed.errorIndex? limit (Lexed.ofText text).tokens = some i ∧
      (Lexed.ofText text).tokens[i]? = some e.token ∧
      (∃ n ≤ i, ∀ eof : Token, eof.kind = .eof → ∃ p : Program,
        p.statements = (Analysis.parsed limit text).program.statements ∧
        Parsed.Accepted ((Lexed.ofText text).tokens.take n ++ [eof]) p ∧
        ∀ uri label, Uri.label uri = .ok label → ∃ d,
          e.diagnostic units text label = .ok d ∧
          (ofText limit units true text uri).value =
            .ok ⟨(p.check limit ⟨.initial, []⟩).2.scopes, some d⟩ ∧
          (ofText limit units false text uri).value = .ok ⟨.initial, some d⟩) ∧
      (∃ suffix stmt, Ended suffix ∧ ∃ p : Program,
        p.statements = (Analysis.parsed limit text).program.statements ++ [stmt] ∧
        Parsed.Accepted ((Lexed.ofText text).tokens.take i ++ suffix) p) ∧
      ∀ uri fault, Uri.label uri = .error fault → ∀ recover,
        (ofText limit units recover text uri).value = .error (.uri fault) := by
  have hend := Lexed.ended_ofText text
  rcases Parsed.reaches_of_rejected hend hfail with ⟨i, hindex, htoken, hreaches⟩
  refine ⟨i, hindex, htoken, ?_, ?_, ?_⟩
  · rcases Parsed.completed_program hend hreaches with ⟨n, hn, hcompleted⟩
    refine ⟨n, hn, ?_⟩
    intro eof heof
    rcases hcompleted eof heof with ⟨p, hstatements, hsame, haccepted⟩
    refine ⟨p, hstatements, haccepted, ?_⟩
    intro uri label hlabel
    rcases ofText_of_rejected hfits hlexed hfail hlabel with ⟨d, hd, hreport⟩
    refine ⟨d, hd, ?_, hreport false⟩
    rw [Program.check_congr hstatements hsame]
    exact hreport true
  · exact Parsed.extended_program hreaches
  · intro uri fault hlabel recover
    unfold ofText
    rw [hlabel]

def unfinishedSum : String :=
  "x = 1\ny = x +"

theorem recovery_checks_completed_prefix_sum :
    Text.Fits .utf16 unfinishedSum ∧ (Lexed.ofText unfinishedSum).errors = [] ∧
      (Analysis.parsed 500 unfinishedSum).failure =
        some (.rejected ⟨⟨.eof, "", 2, 8⟩, .expectedExpression⟩) ∧
      ∃ n ≤ 8, ∃ p : Program,
        Parsed.ofTokens 500 ((Lexed.ofText unfinishedSum).tokens.take n ++ [⟨.eof, "", 2, 1⟩]) =
          ⟨p, none⟩ ∧
        p.statements.length = 1 ∧
        ∃ d, (ofText 500 .utf16 true unfinishedSum "a.ta").value =
          .ok ⟨(p.check 500 ⟨.initial, []⟩).2.scopes, some d⟩ := by
  have hlexed : Lexed.ofText unfinishedSum =
      ⟨[⟨.ident, "x", 1, 1⟩, ⟨.op, "=", 1, 3⟩, ⟨.int, "1", 1, 5⟩, ⟨.newline, "\n", 1, 6⟩,
        ⟨.ident, "y", 2, 1⟩, ⟨.op, "=", 2, 3⟩, ⟨.ident, "x", 2, 5⟩, ⟨.op, "+", 2, 7⟩,
        ⟨.eof, "", 2, 8⟩], []⟩ := by
    decide +kernel
  have hfits : Text.Fits .utf16 unfinishedSum := ⟨by decide +kernel, by decide +kernel⟩
  have hlabel : Uri.label "a.ta" = .ok "a.ta" := by
    decide +kernel
  have herrors : (Lexed.ofText unfinishedSum).errors = [] := by
    rw [hlexed]
  have hfail : (Analysis.parsed 500 unfinishedSum).failure =
      some (.rejected ⟨⟨.eof, "", 2, 8⟩, .expectedExpression⟩) := by
    unfold Analysis.parsed
    rw [hlexed]
    rfl
  have hindex : Parsed.errorIndex? 500 (Lexed.ofText unfinishedSum).tokens = some 8 := by
    rw [hlexed]
    rfl
  have hlength : (Analysis.parsed 500 unfinishedSum).program.statements.length = 1 := by
    unfold Analysis.parsed
    rw [hlexed]
    rfl
  rcases recovery_checks_completed_prefix 500 .utf16 unfinishedSum _ hfits herrors hfail with
    ⟨i, hi, _, ⟨n, hn, hcompleted⟩, _⟩
  cases hindex.symm.trans hi
  rcases hcompleted ⟨.eof, "", 2, 1⟩ rfl with ⟨p, hstatements, haccepted, hreport⟩
  rcases hreport "a.ta" "a.ta" hlabel with ⟨d, _, hrecovered, _⟩
  have hparsed := haccepted.unlimited 500 (by simp; omega)
  rw [← hstatements] at hlength
  exact ⟨hfits, herrors, hfail, n, hn, p, hparsed, hlength, d, hrecovered⟩

end Report
end TypedAnt
