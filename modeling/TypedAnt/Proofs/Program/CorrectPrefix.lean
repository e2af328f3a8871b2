import TypedAnt.Proofs.Program.Recognition

/-!
# Where syntax errors stand

A syntax error stands at the first token with which the text stops being the beginning of
any program: what is before the token can be completed, and what ends with it cannot.
-/

namespace TypedAnt
namespace Parsed

variable {limit : Nat} {tokens : List Token}

def errorIndex? (limit : Nat) (tokens : List Token) : Option Nat :=
  match (Parser.statements limit (body tokens)).2 with
  | some (.rejected rest _) => some ((body tokens).length - rest.length)
  | _ => none

theorem rejected_split {w : List Token} {eof : Token} {e : SyntaxError} (hw : NoEof w)
    (heof : eof.kind = .eof)
    (hfail : (ofTokens limit (w ++ [eof])).failure = some (.rejected e)) :
    ∃ c rest, w = c ++ rest ∧
      (Parser.statements limit w).2 = some (.rejected rest e.cause) ∧ e.token = rest.headD eof ∧
      errorIndex? limit (w ++ [eof]) = some c.length := by
  rw [ofTokens_append hw heof] at hfail
  rcases Option.map_eq_some_iff.mp hfail with ⟨stop, hstop, heq⟩
  cases stop with
  | numeral fault => cases heq
  | rejected rest cause =>
      cases heq
      rcases Parser.viable_of_statements (Prod.ext rfl hstop) with ⟨c, _, _, rfl, _⟩
      refine ⟨c, rest, rfl, hstop, rfl, ?_⟩
      unfold errorIndex?
      rw [body_append hw heof, hstop]
      simp

/-- No text with the same tokens up to the error is accepted, however it goes on. -/
theorem failure_of_rejected {c r r' : List Token} {cause : SyntaxError.Cause} {limit' : Nat}
    (hstop : (Parser.statements limit (c ++ r)).2 = some (.rejected r cause))
    (hcause : cause ≠ .nestingTooDeep) (hsame : r.head? = r'.head?) :
    (Parser.statements limit' (c ++ r')).2 ≠ none := by
  intro hnone
  have hsequence := Parser.sequence_of_statements (Prod.ext rfl hnone)
  have hhigh := Parser.statements_of_sequence hsequence
    (show (c ++ r').length < max limit ((c ++ r').length + 1) by omega)
  have hrejected := Parser.statements_exchange
    (show limit ≤ max limit ((c ++ r').length + 1) by omega) hsame hcause hstop
  rw [hhigh] at hrejected
  cases hrejected

theorem body_of_isPrefix {c r longer : List Token} {eof : Token} (hw : NoEof (c ++ r))
    (heof : eof.kind = .eof) (h : (c ++ r ++ [eof]).take (c.length + 1) <+: longer) :
    ∃ r', r.head? = r'.head? ∧ body longer = c ++ r' := by
  rcases h with ⟨rest, rfl⟩
  rw [noEof_append] at hw
  have htake : (c ++ r ++ [eof]).take (c.length + 1) = c ++ [r.headD eof] := by
    rw [List.append_assoc, List.take_length_add_append]
    cases r <;> rfl
  rw [htake, List.append_assoc]
  cases r with
  | nil => exact ⟨[], rfl, by simpa using body_append hw.1 heof⟩
  | cons t r =>
      refine ⟨t :: body rest, rfl, ?_⟩
      have hc : ∀ u ∈ c, (u.kind != .eof) = true := by
        intro u hu
        simpa using hw.1 u hu
      have ht : (t.kind != .eof) = true := by
        have hkind := (noEof_cons.mp hw.2).1
        simpa using hkind
      unfold body
      rw [List.takeWhile_append_of_pos hc]
      simp [ht]

/--
The token of a syntax error stands at an index such that no token list is accepted
that begins with the tokens up to and including it, whatever the nesting limit, while
some token list is accepted that begins with the tokens before it.
-/
theorem error_at_first_bad_token {e : SyntaxError} (hend : Ended tokens)
    (hfail : (ofTokens limit tokens).failure = some (.rejected e))
    (hcause : e.cause ≠ .nestingTooDeep) :
    ∃ i, errorIndex? limit tokens = some i ∧ tokens[i]? = some e.token ∧
      (∀ longer, tokens.take (i + 1) <+: longer → ∀ limit', (ofTokens limit' longer).failure ≠ none) ∧
      (∃ longer p, tokens.take i <+: longer ∧ Ended longer ∧
        ∀ limit', longer.length ≤ limit' → ofTokens limit' longer = ⟨p, none⟩) := by
  rcases hend with ⟨w, eof, rfl, hw, heof⟩
  rcases rejected_split hw heof hfail with ⟨c, rest, rfl, hstop, htoken, hindex⟩
  refine ⟨c.length, hindex, ?_, ?_, ?_⟩
  · rw [htoken, List.append_assoc]
    cases rest <;> simp
  · intro longer hbegin limit' hnone
    rcases body_of_isPrefix hw heof hbegin with ⟨r', hsame, hbody⟩
    have hstatements := Option.map_eq_none_iff.mp hnone
    rw [hbody] at hstatements
    exact failure_of_rejected hstop hcause hsame hstatements
  · rcases Parser.viable_of_statements (Prod.ext rfl hstop) with ⟨c', v, stmts, hsplit, hsequence⟩
    cases List.append_cancel_right hsplit
    refine ⟨c ++ v ++ [eof], _, ?_, ⟨c ++ v, eof, rfl, hsequence.noEof, heof⟩,
      fun limit' hlimit => ofTokens_of_derived (.program hsequence heof) hlimit⟩
    rw [List.append_assoc, List.append_assoc, List.take_left]
    exact List.prefix_append _ _

def strayParenthesis : List Token :=
  [⟨.keyword, "if", 1, 1⟩, ⟨.ident, "a", 1, 4⟩, ⟨.op, "\x7b", 1, 6⟩, ⟨.op, "\x7d", 1, 7⟩,
    ⟨.newline, "\n", 1, 8⟩, ⟨.newline, "\n", 2, 1⟩, ⟨.op, ")", 3, 1⟩, ⟨.eof, "", 3, 2⟩]

theorem error_at_first_bad_token_stray :
    Ended strayParenthesis ∧
      (ofTokens 500 strayParenthesis).failure =
        some (.rejected ⟨⟨.op, ")", 3, 1⟩, .expectedExpression⟩) ∧
      errorIndex? 500 strayParenthesis = some 6 ∧
      ∃ i, errorIndex? 500 strayParenthesis = some i ∧
        strayParenthesis[i]? = some ⟨.op, ")", 3, 1⟩ ∧
        (∀ longer, strayParenthesis.take (i + 1) <+: longer →
          ∀ limit', (ofTokens limit' longer).failure ≠ none) ∧
        (∃ longer p, strayParenthesis.take i <+: longer ∧ Ended longer ∧
          ∀ limit', longer.length ≤ limit' → ofTokens limit' longer = ⟨p, none⟩) := by
  have hend : Ended strayParenthesis :=
    ⟨strayParenthesis.dropLast, ⟨.eof, "", 3, 2⟩, rfl, by simp [strayParenthesis], rfl⟩
  have hfail : (ofTokens 500 strayParenthesis).failure =
      some (.rejected ⟨⟨.op, ")", 3, 1⟩, .expectedExpression⟩) := rfl
  exact ⟨hend, hfail, rfl, error_at_first_bad_token hend hfail (by decide)⟩

end Parsed
end TypedAnt
