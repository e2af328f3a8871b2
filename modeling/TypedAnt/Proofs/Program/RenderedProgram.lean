import TypedAnt.Proofs.Program.CorrectPrefix
import TypedAnt.Proofs.Program.Rendered

/-!
# Programs that have been rendered

What becomes of a whole parse when its tokens are rendered.  A rendering that keeps all values
changes nothing but the tokens in the result.  Another one may bring in integers that cannot be
read; then the first of them decides, if it stands among the tokens that the parse takes.
-/

namespace TypedAnt
namespace Parser

variable {α β : Type} {r : Rendering} {g : α → β} {c c' : List Token}

/-- How the parse of `s` can end when it has taken the tokens `c`. -/
def Ends (s c : List Token) : Option Stop → Prop
  | none => s = c
  | some (.rejected rest cause) => s = c ++ rest ∧ Opened (fun _ => False) c cause
  | some (.numeral fault) => ∃ t rest, s = c ++ t :: rest ∧ atom? t = some (.error fault)

theorem Ends.prepend {s : List Token} {stop : Option Stop} (h : Ends s c' stop) :
    Ends (c ++ s) (c ++ c') stop := by
  match stop, h with
  | none, h => exact congrArg (c ++ ·) h
  | some (.rejected rest cause), ⟨hs, hopened⟩ =>
      refine ⟨by rw [hs, List.append_assoc], ?_⟩
      intro n hn
      rcases hopened n hn with hbefore | ⟨brace, hbrace, hfound⟩
      · exact Or.inl hbefore
      · exact Or.inr ⟨brace, List.mem_append_right c hbrace, hfound⟩
  | some (.numeral fault), ⟨t, rest, hs, ht⟩ => exact ⟨t, rest, by rw [hs, List.append_assoc], ht⟩

def Behind (c : List Token) (outcome run : List Stmt × Option Stop) : Prop :=
  match c.findSome? Token.fault? with
  | some fault => run.2 = some (.numeral fault)
  | none => run = outcome

theorem Behind.of_readable {outcome run : List Stmt × Option Stop} (h : Behind c outcome run)
    (hc : Readable c) : run = outcome := by
  unfold Behind at h
  rw [hc] at h
  exact h

theorem Behind.of_fault {outcome run : List Stmt × Option Stop} (h : Behind c outcome run)
    {fault : Numeral.Fault} (hc : c.findSome? Token.fault? = some fault) :
    run.2 = some (.numeral fault) := by
  unfold Behind at h
  rw [hc] at h
  exact h

/-!
# Runs over statements
-/

def afterwards (outcome : Except Stop (α × List Token))
    (run : α → List Token → List Stmt × Option Stop) : List Stmt × Option Stop :=
  match outcome with
  | .error stop => ([], some stop)
  | .ok (x, s) => run x s

theorem behind_afterwards_error {stop : Stop} {run : α → List Token → List Stmt × Option Stop} :
    Behind c ([], some stop) (afterwards (behind c (.error stop)) run) := by
  unfold Behind
  split
  · rename_i fault hfault
    rw [behind_of_some hfault]
    rfl
  · rename_i hnone
    rw [behind_of_none hnone]
    rfl

theorem behind_afterwards_ok {x : α} {s : List Token}
    {run : α → List Token → List Stmt × Option Stop} {outcome : List Stmt × Option Stop}
    (h : Behind c' outcome (run x s)) :
    Behind (c ++ c') outcome (afterwards (behind c (.ok (x, s))) run) := by
  unfold Behind at h ⊢
  rw [List.findSome?_append]
  cases hfault : c.findSome? Token.fault? with
  | some fault =>
      rw [behind_of_some hfault]
      rfl
  | none =>
      rw [behind_of_none hfault]
      exact h

/-- On rendered tokens the second run does what the first does on the tokens themselves. -/
def Retells (r : Rendering) (run run' : List Token → List Stmt × Option Stop) : Prop :=
  ∀ s, ∃ c, Ends s c (run s).2 ∧ Readable c ∧
    Behind (c.map r.token) ((run s).1.map r.stmt, (run s).2.map r.stop) (run' (s.map r.token))

namespace Retells

theorem afterwards {p : Parse α} {q : Parse β} {run : α → List Token → List Stmt × Option Stop}
    {run' : β → List Token → List Stmt × Option Stop} (hp : Renders r (fun _ => False) g p q)
    (h : ∀ x, Retells r (run x) (run' (g x))) :
    Retells r (fun s => afterwards (p s) run) (fun s => afterwards (q s) run') := by
  intro s
  dsimp only
  cases hrun : p s with
  | ok result =>
      rcases result with ⟨x, rest⟩
      rcases hp.ok hrun with ⟨c, rfl, hc, hq⟩
      rcases h x rest with ⟨c', hends, hc', hbehind⟩
      refine ⟨c ++ c', hends.prepend, hc.append hc', ?_⟩
      rw [hq, List.map_append]
      exact behind_afterwards_ok hbehind
  | error stop =>
      cases stop with
      | rejected rest cause =>
          rcases hp.rejected hrun with ⟨c, hs, hc, hopened, hq⟩
          refine ⟨c, ⟨hs, hopened⟩, hc, ?_⟩
          rw [hq]
          exact behind_afterwards_error
      | numeral fault =>
          rcases hp.numeral hrun with ⟨c, t, rest, hs, hc, ht, hq⟩
          refine ⟨c, ⟨t, rest, hs, ht⟩, hc, ?_⟩
          rw [hq]
          exact behind_afterwards_error

theorem cons {run run' : List Token → List Stmt × Option Stop} (h : Retells r run run')
    (stmt : Stmt) :
    Retells r (fun s => (stmt :: (run s).1, (run s).2))
      (fun s => (r.stmt stmt :: (run' s).1, (run' s).2)) := by
  intro s
  rcases h s with ⟨c, hends, hc, hbehind⟩
  refine ⟨c, hends, hc, ?_⟩
  unfold Behind at hbehind ⊢
  split
  · rename_i fault hfault
    rw [hfault] at hbehind
    exact hbehind
  · rename_i hnone
    rw [hnone] at hbehind
    dsimp only at hbehind ⊢
    rw [hbehind]
    rfl

theorem statementsFrom {p q : Parse Stmt} (hp : Renders r (fun _ => False) r.stmt p q)
    (rounds : Nat) : Retells r (statementsFrom p rounds) (statementsFrom q rounds) := by
  induction rounds with
  | zero =>
      intro s
      refine ⟨[], ⟨rfl, ?_⟩, rfl, rfl⟩
      intro n hn
      cases hn
  | succ rounds ih =>
      -- One round reads a statement and the end of its line.
      have hround : Retells r
          (fun s => Parser.afterwards (p s) fun stmt s' =>
            let run := Parser.afterwards (lineEnd s') fun _ => Parser.statementsFrom p rounds
            (stmt :: run.1, run.2))
          (fun s => Parser.afterwards (q s) fun stmt s' =>
            let run := Parser.afterwards (lineEnd s') fun _ => Parser.statementsFrom q rounds
            (stmt :: run.1, run.2)) :=
        afterwards hp fun stmt => (afterwards .lineEnd fun _ => ih).cons stmt
      intro s
      cases s with
      | nil => exact ⟨[], rfl, rfl, rfl⟩
      | cons t s =>
          have hshape (p : Parse Stmt) (t : Token) (s : List Token) :
              Parser.statementsFrom p (rounds + 1) (t :: s) =
                Parser.afterwards (p (t :: s)) fun stmt s' =>
                  let run := Parser.afterwards (lineEnd s') fun _ => Parser.statementsFrom p rounds
                  (stmt :: run.1, run.2) := by
            rw [Parser.statementsFrom]
            cases p (t :: s) with
            | error stop => rfl
            | ok result =>
                dsimp only [Parser.afterwards]
                cases lineEnd result.2 <;> rfl
          have hrun := hround (t :: s)
          rw [List.map_cons] at hrun ⊢
          rw [hshape p, hshape q]
          exact hrun

theorem statements (limit : Nat) : Retells r (statements limit) (statements limit) := by
  intro s
  let run : Unit → List Token → List Stmt × Option Stop :=
    fun _ => Parser.statementsFrom (statement limit) (s.length + 1)
  have hrun : Retells r (fun s => Parser.afterwards (skipSeparators s) run)
      (fun s => Parser.afterwards (skipSeparators s) run) :=
    afterwards .skipSeparators fun _ => statementsFrom (.statement limit _) (s.length + 1)
  unfold Parser.statements
  rw [List.length_map]
  exact hrun s

end Retells

theorem statements_map (hvalue : ∀ t, (r.token t).value = t.value) (limit : Nat) (s : List Token) :
    statements limit (s.map r.token) =
      ((statements limit s).1.map r.stmt, (statements limit s).2.map r.stop) := by
  rcases Retells.statements (r := r) limit s with ⟨c, _, hc, hbehind⟩
  apply hbehind.of_readable
  have hfault : Token.fault? ∘ r.token = Token.fault? := by
    funext t
    simp only [Function.comp_apply, Token.fault?, r.kind_eq, hvalue]
  unfold Readable
  rw [List.findSome?_map, hfault]
  exact hc

end Parser

namespace Parsed

variable {r : Rendering} {tokens : List Token} {limit : Nat}

theorem noEof_map {w : List Token} (h : NoEof w) : NoEof (w.map r.token) := by
  intro u hu
  rcases List.mem_map.mp hu with ⟨t, ht, rfl⟩
  rw [r.kind_eq]
  exact h t ht

theorem headD_map (w : List Token) (eof : Token) :
    (w.map r.token).headD (r.token eof) = r.token (w.headD eof) := by
  cases w <;> rfl

theorem failure_stop (eof : Token) (stop : Parser.Stop) :
    Parser.Stop.failure (r.token eof) (r.stop stop) = r.failure (stop.failure eof) := by
  cases stop with
  | numeral fault => rfl
  | rejected rest cause =>
      rw [Rendering.stop, Parser.Stop.failure, headD_map]
      rfl

theorem ofTokens_map (limit : Nat) (hvalue : ∀ t, (r.token t).value = t.value)
    (hend : Ended tokens) :
    ofTokens limit (tokens.map r.token) =
      ⟨r.program (ofTokens limit tokens).program, (ofTokens limit tokens).failure.map r.failure⟩ := by
  rcases hend with ⟨w, eof, rfl, hw, heof⟩
  rw [List.map_append, List.map_singleton, ofTokens_append hw heof,
    ofTokens_append (noEof_map hw) ((r.kind_eq eof).trans heof), Parser.statements_map hvalue,
    headD_map, Option.map_map, Option.map_map]
  congr 2
  funext stop
  exact failure_stop eof stop

theorem body_map (tokens : List Token) : body (tokens.map r.token) = (body tokens).map r.token := by
  unfold body
  rw [List.takeWhile_map]
  congr 2
  funext t
  exact congrArg (· != TokenKind.eof) (r.kind_eq t)

theorem errorIndex?_map (limit : Nat) (hvalue : ∀ t, (r.token t).value = t.value)
    (tokens : List Token) :
    errorIndex? limit (tokens.map r.token) = errorIndex? limit tokens := by
  unfold errorIndex?
  rw [body_map, Parser.statements_map hvalue]
  cases (Parser.statements limit (body tokens)).2 with
  | none => rfl
  | some stop =>
      cases stop with
      | numeral fault => rfl
      | rejected rest cause => simp [Rendering.stop]

theorem brace_of_unclosed {e : SyntaxError} {n : Int} (hend : Ended tokens)
    (hfail : (ofTokens limit tokens).failure = some (.rejected e))
    (hcause : e.cause = .unclosedBlock n) :
    ∃ brace ∈ tokens, brace.isOp "\x7b" = true ∧ brace.line = n := by
  rcases hend with ⟨w, eof, rfl, hw, heof⟩
  rcases rejected_split hw heof hfail with ⟨c, rest, _, hstop, _, _⟩
  rcases Parser.Retells.statements (r := .refl) limit w with ⟨c', hends, _, _⟩
  rw [hstop] at hends
  rcases hends with ⟨hw', hopened⟩
  rcases hopened n hcause with hfalse | ⟨brace, hbrace, hfound⟩
  · cases hfalse
  · refine ⟨brace, ?_, hfound⟩
    rw [hw']
    simp [hbrace]

end Parsed
end TypedAnt
