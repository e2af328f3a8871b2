import TypedAnt.Proofs.Numeral
import TypedAnt.Proofs.Program.Lookahead
import TypedAnt.Proofs.Program.StatementCompleteness

/-!
# Which programs are accepted

Parsing succeeds on exactly the token lists that the grammar derives, with the one program
that they derive.  The nesting limit can only come between them as a rejection for
nesting, and not at all if it is at least the number of tokens.
-/

namespace TypedAnt

namespace Token.PlainNumber

variable {t : Token}

end Token.PlainNumber

namespace Parsed

variable {w rest tokens : List Token} {eof : Token} {limit : Nat} {p : Program}

/-!
# The end of the token list
-/

theorem body_append (h : NoEof w) (heof : eof.kind = .eof) : body (w ++ eof :: rest) = w := by
  have hw : ∀ t ∈ w, (t.kind != .eof) = true := by
    intro t ht
    simpa using h t ht
  unfold body
  rw [List.takeWhile_append_of_pos hw]
  simp [heof]

theorem endOf_append (h : NoEof w) (heof : eof.kind = .eof) : endOf (w ++ eof :: rest) = eof := by
  have hfind : (w ++ eof :: rest).find? (·.kind == .eof) = some eof := by
    have hw : w.find? (·.kind == .eof) = none := by
      rw [List.find?_eq_none]
      intro t ht
      simpa using h t ht
    simp [List.find?_append, hw, heof]
  simp [endOf, hfind]

theorem ofTokens_append (h : NoEof w) (heof : eof.kind = .eof) :
    ofTokens limit (w ++ eof :: rest) =
      ⟨⟨w.headD eof, (Parser.statements limit w).1⟩,
        (Parser.statements limit w).2.map (Parser.Stop.failure eof)⟩ := by
  simp [ofTokens, body_append h heof, endOf_append h heof]

/-!
# Soundness and completeness
-/

theorem derived_of_ofTokens (hend : Ended tokens) (h : ofTokens limit tokens = ⟨p, none⟩) :
    Program.Derived tokens p := by
  rcases hend with ⟨w, eof, rfl, hw, heof⟩
  rw [ofTokens_append hw heof, Parsed.mk.injEq] at h
  rcases h with ⟨rfl, hstop⟩
  have hnone := Option.map_eq_none_iff.mp hstop
  exact .program (Parser.sequence_of_statements (Prod.ext rfl hnone)) heof

theorem ofTokens_of_derived (h : Program.Derived tokens p) (hlimit : tokens.length ≤ limit) :
    ofTokens limit tokens = ⟨p, none⟩ := by
  cases h with
  | program hsequence heof =>
      rw [List.length_append, List.length_singleton] at hlimit
      rw [ofTokens_append hsequence.noEof heof, Parser.statements_of_sequence hsequence hlimit]
      rfl

theorem derived_unique {p' : Program} (h : Program.Derived tokens p)
    (h' : Program.Derived tokens p') : p = p' := by
  have hparsed := ofTokens_of_derived h (Nat.le_refl _)
  rw [ofTokens_of_derived h' (Nat.le_refl _), Parsed.mk.injEq] at hparsed
  exact hparsed.1.symm

/-- A limit can reject a program for its nesting and for nothing else. -/
theorem ofTokens_of_derived_limited (h : Program.Derived tokens p) (limit : Nat) :
    ofTokens limit tokens = ⟨p, none⟩ ∨
      ∃ e, (ofTokens limit tokens).failure = some (.rejected e) ∧ e.cause = .nestingTooDeep := by
  cases h with
  | @program w eof stmts hsequence heof =>
      rw [ofTokens_append hsequence.noEof heof]
      -- A limit that covers the tokens as well as the given one accepts the program.
      have hhigh : Parser.statements (max limit (w.length + 1)) w = (stmts, none) :=
        Parser.statements_of_sequence hsequence (by omega)
      have hle : limit ≤ max limit (w.length + 1) := by omega
      cases hstop : (Parser.statements limit w).2 with
      | none =>
          have hsame := derived_unique
            (.program (Parser.sequence_of_statements (Prod.ext rfl hstop)) heof)
            (.program hsequence heof)
          rw [hsame]
          exact Or.inl rfl
      | some stop =>
          cases stop with
          | numeral fault =>
              have hfault := Parser.statements_numeral hle hstop
              rw [hhigh] at hfault
              cases hfault
          | rejected rest cause =>
              by_cases hcause : cause = .nestingTooDeep
              · exact Or.inr ⟨_, rfl, hcause⟩
              · rcases Parser.viable_of_statements (Prod.ext rfl hstop) with ⟨c, _, _, rfl, _⟩
                have hrejected := Parser.statements_exchange hle rfl hcause hstop
                rw [hhigh] at hrejected
                cases hrejected

/-!
# The parser and the grammar
-/

end Parsed
end TypedAnt
