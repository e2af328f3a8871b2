import TypedAnt.Proofs.Program.Nesting
import TypedAnt.Proofs.Program.Recognition
import TypedAnt.Proofs.Program.Tracing

/-!
# The cursor is safe

Whatever tokens are handed in, parsing with a cursor ends with the outcome of parsing the tokens
that are left.  The cursor is never outside the tokens nor behind the first end-of-file
token, and no loop is stuck.
-/

namespace TypedAnt
namespace Cursor

open TypedAnt.Parser (Parse Stop)

/-!
# The statements of a program
-/

section Programs

variable {tape : Tape} {k k' : Walk} {limit : Nat}

structure Completes (tape : Tape) (stmts : List Stmt) (k k' : Walk) : Prop
    extends Inside tape k k' where
  statements : k'.statements = k.statements ++ stmts

theorem Stays.completes (h : Stays tape k k') : Completes tape [] k k' :=
  ⟨h.toInside, by rw [h.statements, List.append_nil]⟩

theorem Completes.trans {stmts more : List Stmt} {k'' : Walk} (h : Completes tape stmts k k')
    (h' : Completes tape more k' k'') : Completes tape (stmts ++ more) k k'' :=
  ⟨h.toInside.trans h'.toInside, by rw [h'.statements, h.statements, List.append_assoc]⟩

theorem atEnd_run (hk : tape.Holds k) :
    atEnd tape.tokens k = .ok (tape.left k).isEmpty k := by
  have hkind : (((tape.left k).headD tape.eof).kind == .eof) = (tape.left k).isEmpty := by
    cases hleft : tape.left k with
    | nil => simp [tape.kind_eof]
    | cons t rest => simp [tape.kind_of_left (k := k) (t := t) (by simp [hleft])]
  rw [← hkind]
  exact bind_of_ok (Traces.current_run hk)

theorem lineRound_of_nil (hk : tape.Holds k) (hleft : tape.left k = []) :
    lineRound limit () tape.tokens k = .ok (.done ()) k := by
  unfold lineRound
  rw [bind_of_ok (atEnd_run hk), hleft]
  rfl

theorem lineRound_of_cons {t : Token} {rest : List Token} (hk : tape.Holds k)
    (hleft : tape.left k = t :: rest) :
    lineRound limit () tape.tokens k =
      (statement limit >>= fun stmt => record stmt >>= fun _ => lineEnd >>= fun _ =>
        pure (.yield ())) tape.tokens k := by
  unfold lineRound
  rw [bind_of_ok (atEnd_run hk), hleft]
  rfl

theorem statement_record {stmt : Stmt} {s : List Token} (hk : tape.Holds k)
    (hstmt : Parser.statement limit (tape.left k) = .ok (stmt, s)) :
    ∃ k', Completes tape [stmt] k k' ∧ s = tape.left k' ∧
      ∀ g : Unit → Machine (ForInStep Unit),
        (statement limit >>= fun stmt => record stmt >>= g) tape.tokens k =
          g () tape.tokens k' := by
  rcases (Traces.statement limit).of_ok hk hstmt with ⟨k', hrun, rfl, hstays⟩
  refine ⟨{ k' with statements := k'.statements ++ [stmt] }, ?_, rfl, ?_⟩
  · exact ⟨⟨hstays.holds, hstays.trail⟩, by rw [← hstays.statements]⟩
  · intro g
    rw [bind_of_ok hrun]
    rfl

inductive Finishes (tape : Tape) (k : Walk) :
    List Stmt × Option Stop → EStateM.Result Halt Walk Unit → Prop where
  | ended {stmts : List Stmt} {k' : Walk} : Completes tape stmts k k' →
      Finishes tape k (stmts, none) (.ok () k')
  | stopped {stmts : List Stmt} {stop : Stop} {k' : Walk} : Completes tape stmts k k' →
      Finishes tape k (stmts, some stop) (.error (.failed (stop.failure tape.eof)) k')

theorem Finishes.cons {stmt : Stmt} {outcome : List Stmt × Option Stop}
    {result : EStateM.Result Halt Walk Unit} (h : Completes tape [stmt] k k')
    (hrest : Finishes tape k' outcome result) :
    Finishes tape k (stmt :: outcome.1, outcome.2) result := by
  cases hrest with
  | ended h' => exact .ended (h.trans h')
  | stopped h' => exact .stopped (h.trans h')

theorem lines_run {n m : Nat} (hk : tape.Holds k) (hn : (tape.left k).length < n)
    (hm : (tape.left k).length < m) :
    Finishes tape k (Parser.statementsFrom (Parser.statement limit) m (tape.left k))
      (loopFrom (lineRound limit) n () tape.tokens k) := by
  -- Both counts of rounds exceed the tokens that are left, and each line takes some of these.
  induction n generalizing m k with
  | zero => omega
  | succ n ih =>
      rcases Nat.exists_eq_add_of_lt hm with ⟨m, rfl⟩
      rw [Traces.loopFrom_succ]
      cases hleft : tape.left k with
      | nil =>
          rw [lineRound_of_nil hk hleft]
          exact .ended (Stays.refl hk).completes
      | cons t rest =>
          rw [lineRound_of_cons hk hleft, Parser.statementsFrom, ← hleft]
          cases hstmt : Parser.statement limit (tape.left k) with
          | error stop =>
              rcases (Traces.statement limit).of_error hk hstmt with ⟨k', hrun, hstays⟩
              rw [bind_of_error hrun]
              exact .stopped hstays.completes
          | ok result =>
              rcases result with ⟨stmt, s⟩
              rcases statement_record hk hstmt with ⟨k', hcompletes, rfl, hrecord⟩
              rw [hrecord]
              cases hline : Parser.lineEnd (tape.left k') with
              | error stop =>
                  rcases Traces.lineEnd.of_error hcompletes.holds hline with ⟨k'', hrun, hstays⟩
                  rw [bind_of_error hrun]
                  simp only [hline]
                  exact .stopped (hcompletes.trans hstays.completes)
              | ok result =>
                  rcases result with ⟨_, s'⟩
                  rcases Traces.lineEnd.of_ok hcompletes.holds hline with
                    ⟨k'', hrun, rfl, hstays⟩
                  have hshorter := Parser.statement_shrinks (.statement limit) hstmt
                  have hle := Parser.lineEnd_shrinks _ _ _ hline
                  rw [bind_of_ok hrun]
                  simp only [hline]
                  change Finishes tape k _ (if k.position < k''.position then
                    loopFrom (lineRound limit) n () tape.tokens k'' else .error .stuck k'')
                  rw [if_pos (tape.position_lt_of_shorter (by omega))]
                  exact .cons (by simpa using hcompletes.trans hstays.completes)
                    (ih hstays.holds (by omega) (by omega))

theorem program_run (tape : Tape) (limit : Nat) :
    ∃ k, Inside tape {} k ∧
      program limit tape.tokens {} =
        .ok ⟨⟨tape.front.headD tape.eof, (Parser.statements limit tape.front).1⟩,
          (Parser.statements limit tape.front).2.map (Stop.failure tape.eof)⟩ k := by
  have hstart : tape.Holds {} := Nat.zero_le _
  rcases Traces.skipSeparators.of_ok hstart rfl with ⟨k, hskip, hleft, hstays⟩
  have hlines : Finishes tape k
      (Parser.statementsFrom (Parser.statement limit) (tape.front.length + 1) (tape.left k))
      (lines limit tape.tokens {}) := by
    have hle : (tape.left k).length ≤ tape.front.length := by
      rw [tape.length_left]
      omega
    rw [lines, bind_of_ok hskip]
    apply lines_run hstays.holds
    · have htokens : tape.tokens.length = tape.front.length + (tape.behind.length + 1) := by
        simp [Tape.tokens]
      omega
    · omega
  rw [← hleft] at hlines
  change Finishes tape k (Parser.statements limit tape.front) _ at hlines
  rw [program, bind_of_ok (Traces.current_run hstart), finish]
  generalize Parser.statements limit tape.front = outcome at hlines ⊢
  generalize lines limit tape.tokens {} = result at hlines ⊢
  cases hlines with
  | ended h =>
      refine ⟨_, hstays.toInside.trans h.toInside, ?_⟩
      dsimp only
      rw [h.statements, hstays.statements]
      rfl
  | stopped h =>
      refine ⟨_, hstays.toInside.trans h.toInside, ?_⟩
      dsimp only
      rw [h.statements, hstays.statements]
      rfl

end Programs

/-!
# Any tokens at all
-/

section Tokens

variable {tokens : List Token} {tape : Tape}

def eofIndex (tokens : List Token) : Nat :=
  (complete tokens).findIdx (·.kind == .eof)

def upToEof (tokens : List Token) : List Token :=
  (complete tokens).take (eofIndex tokens + 1)

theorem noEof_or_exists_eof (tokens : List Token) :
    NoEof tokens ∨ ∃ w eof rest, tokens = w ++ eof :: rest ∧ NoEof w ∧ eof.kind = .eof := by
  induction tokens with
  | nil => exact Or.inl noEof_nil
  | cons t tokens ih =>
      by_cases ht : t.kind = .eof
      · exact Or.inr ⟨[], t, tokens, rfl, noEof_nil, ht⟩
      · rcases ih with hnone | ⟨w, eof, rest, rfl, hw, heof⟩
        · exact Or.inl (noEof_cons.mpr ⟨ht, hnone⟩)
        · exact Or.inr ⟨t :: w, eof, rest, rfl, noEof_cons.mpr ⟨ht, hw⟩, heof⟩

theorem exists_tape (tokens : List Token) :
    ∃ tape : Tape, tape.tokens = complete tokens ∧ tape.front = Parsed.body tokens ∧
      tape.eof = Parsed.endOf tokens := by
  rcases noEof_or_exists_eof tokens with hnone | ⟨w, eof, rest, rfl, hw, heof⟩
  · have hbody : Parsed.body tokens = tokens := by
      rw [Parsed.body, List.takeWhile_eq_self_iff]
      intro t ht
      simpa using hnone t ht
    have hfind : tokens.find? (·.kind == .eof) = none := by
      rw [List.find?_eq_none]
      intro t ht
      simpa using hnone t ht
    have hcomplete : complete tokens = tokens ++ [Parsed.endOf tokens] ∧
        (Parsed.endOf tokens).kind = .eof := by
      unfold complete Parsed.endOf
      rw [hfind]
      cases hlast : tokens.getLast? with
      | none => simp [List.getLast?_eq_none_iff.mp hlast]
      | some last => simp [hnone last (List.mem_of_getLast? hlast)]
    exact ⟨⟨tokens, Parsed.endOf tokens, [], hnone, hcomplete.2⟩, hcomplete.1.symm, hbody.symm, rfl⟩
  · have hcomplete : ∃ behind, complete (w ++ eof :: rest) = w ++ eof :: behind := by
      unfold complete
      split
      · simp_all
      · split
        · exact ⟨rest, rfl⟩
        · exact ⟨_, List.append_assoc ..⟩
    rcases hcomplete with ⟨behind, hbehind⟩
    exact ⟨⟨w, eof, behind, hw, heof⟩, hbehind.symm, (Parsed.body_append hw heof).symm,
      (Parsed.endOf_append hw heof).symm⟩

theorem eofIndex_eq (h : tape.tokens = complete tokens) : eofIndex tokens = tape.front.length := by
  have hfront : tape.front.findIdx (·.kind == .eof) = tape.front.length := by
    rw [List.findIdx_eq_length]
    intro t ht
    simpa using tape.noEof_front t ht
  unfold eofIndex
  rw [← h, Tape.tokens, List.findIdx_append, hfront, if_neg (Nat.lt_irrefl _), List.findIdx_cons]
  simp [tape.kind_eof]

theorem upToEof_eq (h : tape.tokens = complete tokens) :
    upToEof tokens = tape.front ++ [tape.eof] := by
  unfold upToEof
  rw [eofIndex_eq h, ← h, Tape.tokens, List.take_length_add_append]
  rfl

/-- Parsing depends on the tokens before the end-of-file token and on that token alone. -/
theorem ofTokens_eq (limit : Nat) (hfront : tape.front = Parsed.body tokens)
    (heof : tape.eof = Parsed.endOf tokens) :
    Parsed.ofTokens limit tokens =
      ⟨⟨tape.front.headD tape.eof, (Parser.statements limit tape.front).1⟩,
        (Parser.statements limit tape.front).2.map (Stop.failure tape.eof)⟩ := by
  rw [hfront, heof]
  rfl

theorem Traces.position_lt {α : Type} {m : Machine α} {p : Parse α}
    {R : List Token → α → Prop} {k k' : Walk} {x : α} (h : Traces tape m p)
    (hp : Parser.Reads p R) (hR : ∀ w x, R w x → w ≠ []) (hk : tape.Holds k)
    (hrun : m tape.tokens k = .ok x k') :
    k.position < k'.position ∧ k'.position ≤ tape.front.length := by
  cases hresult : p (tape.left k) with
  | error stop =>
      rcases h.of_error hk hresult with ⟨_, hrun', -⟩
      cases hrun'.symm.trans hrun
  | ok result =>
      rcases result with ⟨y, rest⟩
      rcases h.of_ok hk hresult with ⟨_, hrun', rfl, hstays⟩
      cases hrun'.symm.trans hrun
      exact ⟨tape.position_lt_of_shorter (hp.shorter hR hresult), hstays.holds⟩

end Tokens

/--
Parsing with a cursor ends with the outcome of parsing, whatever tokens are handed in: the
cursor was never outside the tokens, and no loop was stuck.  All the way it did not
pass the first end-of-file token.  Every statement and every expression that is returned
has moved it.  A limit above the number of tokens is never met, so the recursion ends by
itself.  The outcome depends on the tokens up to the first end-of-file token only.
-/
theorem cursor_stays_on_tokens (limit : Nat) (tokens : List Token) :
    (∃ k, parse limit tokens = .ok (Parsed.ofTokens limit tokens) k ∧
      ∀ p ∈ k.trail, p ≤ eofIndex tokens) ∧
      eofIndex tokens < (complete tokens).length ∧
      (∀ depth k k' stmt, k.position ≤ eofIndex tokens →
        statement depth (complete tokens) k = .ok stmt k' →
        k.position < k'.position ∧ k'.position ≤ eofIndex tokens) ∧
      (∀ depth k k' e, k.position ≤ eofIndex tokens →
        expression depth (complete tokens) k = .ok e k' →
        k.position < k'.position ∧ k'.position ≤ eofIndex tokens) ∧
      (eofIndex tokens + 1 < limit →
        (∀ e, (Parsed.ofTokens limit tokens).failure = some (.rejected e) →
          e.cause ≠ .nestingTooDeep) ∧
        ∀ limit', limit ≤ limit' → Parsed.ofTokens limit' tokens = Parsed.ofTokens limit tokens) ∧
      ∀ tokens', upToEof tokens' = upToEof tokens →
        Parsed.ofTokens limit tokens' = Parsed.ofTokens limit tokens := by
  rcases exists_tape tokens with ⟨tape, htokens, hfront, heof⟩
  have hindex := eofIndex_eq htokens
  refine ⟨?_, ?_, ?_, ?_, ?_, ?_⟩
  · rcases program_run tape limit with ⟨k, hinside, hrun⟩
    refine ⟨k, ?_, ?_⟩
    · rw [parse, ← htokens, hrun, ofTokens_eq limit hfront heof]
    · intro p hp
      rw [hindex]
      rcases hinside.trail p hp with hp | hp
      · rw [List.mem_singleton.mp hp]
        exact Nat.zero_le _
      · exact hp
  · rw [hindex, ← htokens]
    simp [Tape.tokens]
  · intro depth k k' stmt hk hrun
    rw [hindex] at hk ⊢
    rw [← htokens] at hrun
    exact (Traces.statement depth).position_lt (.statement depth) (fun _ _ => Spells.ne_nil) hk
      hrun
  · intro depth k k' e hk hrun
    rw [hindex] at hk ⊢
    rw [← htokens] at hrun
    exact (Traces.expression depth).position_lt (.expression depth)
      (fun _ _ => Spells.ne_nil_of_expr) hk hrun
  · intro hlimit
    rw [hindex] at hlimit
    rcases Parser.statements_of_roomy hlimit with ⟨hroomy, hsame⟩
    constructor
    · intro e he hcause
      rw [ofTokens_eq limit hfront heof] at he
      rcases Option.map_eq_some_iff.mp he with ⟨stop, hstop, hfailure⟩
      cases stop with
      | numeral fault => cases hfailure
      | rejected rest cause =>
          cases hfailure
          exact hroomy rest (hcause ▸ hstop)
    · intro limit' hlimit'
      rw [ofTokens_eq limit hfront heof, ofTokens_eq limit' hfront heof, hsame limit' hlimit']
  · intro tokens' hsame
    rcases exists_tape tokens' with ⟨tape', htokens', hfront', heof'⟩
    rw [upToEof_eq htokens, upToEof_eq htokens'] at hsame
    rcases List.append_inj' hsame rfl with ⟨hbody, hend⟩
    rw [ofTokens_eq limit hfront heof, ofTokens_eq limit hfront' heof', hbody,
      List.singleton_inj.mp hend]

/-- A statement, an end-of-file token, and a token behind it that nothing ends. -/
def strayTokens : List Token :=
  [⟨.keyword, "return", 1, 1⟩, ⟨.ident, "x", 1, 8⟩, ⟨.eof, "", 1, 9⟩, ⟨.op, ")", 2, 1⟩]

theorem cursor_stays_on_tokens_stray :
    eofIndex strayTokens = 2 ∧
      (∃ k, parse 4 strayTokens = .ok (Parsed.ofTokens 4 strayTokens) k ∧ ∀ p ∈ k.trail, p ≤ 2) ∧
      (∃ stmt, statement 2 (complete strayTokens) {} = .ok stmt ⟨2, [2, 1, 0], []⟩ ∧ 0 < 2) ∧
      (∃ e, expression 1 (complete strayTokens) ⟨1, [], []⟩ = .ok e ⟨2, [2], []⟩ ∧ 1 < 2) ∧
      Parsed.ofTokens 500 strayTokens = Parsed.ofTokens 4 strayTokens ∧
      upToEof (strayTokens.take 3) = upToEof strayTokens ∧
      Parsed.ofTokens 4 (strayTokens.take 3) = Parsed.ofTokens 4 strayTokens := by
  have hindex : eofIndex strayTokens = 2 := by decide
  have hsafe := cursor_stays_on_tokens 4 strayTokens
  rw [hindex] at hsafe
  rcases hsafe with ⟨hparse, -, hstmt, hexpr, hlimit, hsame⟩
  have hstatement : statement 2 (complete strayTokens) {} = .ok _ ⟨2, [2, 1, 0], []⟩ := rfl
  have hexpression : expression 1 (complete strayTokens) ⟨1, [], []⟩ = .ok _ ⟨2, [2], []⟩ := rfl
  have htake : upToEof (strayTokens.take 3) = upToEof strayTokens := by decide
  exact ⟨hindex, hparse, ⟨_, hstatement, (hstmt _ _ _ _ (by decide) hstatement).1⟩,
    ⟨_, hexpression, (hexpr _ _ _ _ (by decide) hexpression).1⟩,
    (hlimit (by decide)).2 500 (by decide), htake, hsame _ htake⟩

end Cursor
end TypedAnt
