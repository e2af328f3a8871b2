import TypedAnt.Proofs.Analysis
import TypedAnt.Proofs.Program.RenderedProgram
import TypedAnt.Proofs.Typing.Rendering

/-!
# Analyses of rendered tokens

After lexing, an analysis depends on the tokens alone.  If these are rendered and keep their
values, the analysis is rendered with them: it binds the same names to the same types, and the
error, if there is one, is the same at the corresponding token.
-/

namespace TypedAnt

def Rendering.verdict (r : Rendering) : Verdict → Verdict
  | .accepted => .accepted
  | .lexical first more => .lexical first more
  | .rejected e => .rejected (r.syntaxError e)
  | .illTyped e => .illTyped (r.typeError e)

def Rendering.analysis (r : Rendering) (a : Analysis) : Analysis :=
  ⟨r.verdict a.verdict, a.scopes, a.stopped.map r.typeError⟩

theorem Rendering.message_syntaxError {r : Rendering} {e : SyntaxError}
    (hvalue : ∀ t, (r.token t).value = t.value) (hcause : r.cause e.cause = e.cause) :
    (r.syntaxError e).message = e.message := by
  have hdescribe : (r.token e.token).describe = e.token.describe := by
    unfold Token.describe
    rw [r.kind_eq, hvalue]
  unfold SyntaxError.message SyntaxError.detail syntaxError
  rw [hcause, hdescribe]

def Verdict.Stands (tokens : List Token) : Verdict → Prop
  | .accepted => True
  | .lexical _ _ => False
  | .rejected e => e.token ∈ tokens ∧
      ∀ n, e.cause = .unclosedBlock n → ∃ brace ∈ tokens, brace.isOp "\x7b" = true ∧ brace.line = n
  | .illTyped e => e.token ∈ tokens

namespace Analysis

variable {r : Rendering} {tokens : List Token} {limit : Nat} {recover : Bool}

def ofTokens (limit : Nat) (recover : Bool) (tokens : List Token) : Except Numeral.Fault Analysis :=
  let parsed := Parsed.ofTokens limit tokens
  let (outcome, checker) := parsed.program.check limit ⟨.initial, []⟩
  match parsed.failure with
  | some (.numeral fault) => .error fault
  | some (.rejected error) =>
      if recover then
        match outcome with
        | .ok _ => .ok ⟨.rejected error, checker.scopes, none⟩
        | .error stop => .ok ⟨.rejected error, checker.scopes, some stop⟩
      else .ok ⟨.rejected error, .initial, none⟩
  | none =>
      match outcome with
      | .ok _ => .ok ⟨.accepted, checker.scopes, none⟩
      | .error error => .ok ⟨.illTyped error, checker.scopes, none⟩

theorem ofText_of_lexed {text : String} (h : (Lexed.ofText text).errors = []) :
    ofText limit recover text = ofTokens limit recover (Lexed.ofText text).tokens := by
  unfold ofText
  dsimp only
  rw [h]
  rfl

theorem ofTokens_map (limit : Nat) (recover : Bool) (hvalue : ∀ t, (r.token t).value = t.value)
    (hend : Ended tokens) :
    ofTokens limit recover (tokens.map r.token) =
      (ofTokens limit recover tokens).map r.analysis := by
  unfold ofTokens
  dsimp only
  rw [Parsed.ofTokens_map limit hvalue hend, Program.check_program hvalue]
  dsimp only
  cases (Parsed.ofTokens limit tokens).failure with
  | none => cases ((Parsed.ofTokens limit tokens).program.check limit ⟨.initial, []⟩).1 <;> rfl
  | some failure =>
      cases failure with
      | numeral fault => rfl
      | rejected e =>
          cases recover with
          | false => rfl
          | true => cases ((Parsed.ofTokens limit tokens).program.check limit ⟨.initial, []⟩).1 <;> rfl

theorem stands_of_ofTokens {a : Analysis} (hend : Ended tokens)
    (h : ofTokens limit recover tokens = .ok a) : a.verdict.Stands tokens := by
  unfold ofTokens at h
  dsimp only at h
  split at h
  · cases h
  · rename_i e hfail
    have hverdict : a.verdict = .rejected e := by
      split at h
      · split at h <;> cases h <;> rfl
      · cases h
        rfl
    rw [hverdict]
    constructor
    · exact Parsed.rejected_token_mem hend hfail
    · intro n hn
      exact Parsed.brace_of_unclosed hend hfail hn
  · rename_i hfail
    split at h
    · cases h
      trivial
    · rename_i e hcheck
      cases h
      exact Parsed.illTyped_token_mem hend hfail hcheck

end Analysis
end TypedAnt
