import TypedAnt.Proofs.Program.Lookahead

/-!
# Room for nesting

Every level of nesting costs a token.  So a text is never rejected for nesting if the limit
exceeds the number of its tokens, and its outcome does not depend on any such limit.
-/

namespace TypedAnt
namespace Parser

variable {α β : Type} {n : Nat}

/-- On fewer than `n` tokens the parser is not rejected for nesting. -/
def Roomy (n : Nat) (p : Parse α) : Prop :=
  ∀ s rest, s.length < n → p s ≠ .error (.rejected rest .nestingTooDeep)

theorem Follows.shrinks {G : List Token → List Token → List Token → Prop} {p q : Parse α}
    (h : Follows G p q) : Shrinks p :=
  fun _ _ _ hok => (h.suffix_ok hok).length_le

namespace Roomy

/-!
# Parsers in sequence
-/

theorem zero (p : Parse α) : Roomy 0 p :=
  fun _ _ hs => absurd hs (Nat.not_lt_zero _)

theorem mono {m : Nat} {p : Parse α} (h : Roomy n p) (hle : m ≤ n) : Roomy m p :=
  fun s rest hs => h s rest (Nat.lt_of_lt_of_le hs hle)

theorem pure (x : α) : Roomy n (pure x) := by
  intro s rest _ hstop
  cases hstop

theorem reject {cause : SyntaxError.Cause} (h : cause ≠ .nestingTooDeep) :
    Roomy n (reject cause : Parse α) := by
  intro s rest _ hstop
  rw [reject_run, Except.error.injEq, Stop.rejected.injEq] at hstop
  exact h hstop.2

theorem bind {p : Parse α} {f : α → Parse β} (hp : Roomy n p)
    (hf : ∀ s x rest, s.length < n → p s = .ok (x, rest) → Roomy (rest.length + 1) (f x)) :
    Roomy n (p >>= f) := by
  intro s rest hs hstop
  rcases bind_eq_error_iff.mp hstop with hfirst | ⟨x, s', hx, hsecond⟩
  · exact hp s rest hs hfirst
  · exact hf s x s' hs hx s' rest (Nat.lt_succ_self _) hsecond

theorem bind_shrinks {p : Parse α} {f : α → Parse β} (hp : Roomy n p) (hshrinks : Shrinks p)
    (hf : ∀ x, Roomy n (f x)) : Roomy n (p >>= f) := by
  refine hp.bind fun s x rest hs hx => (hf x).mono ?_
  have hle := hshrinks s x rest hx
  omega

theorem map {p : Parse α} (hp : Roomy n p) (f : α → β) :
    Roomy n (p >>= fun x => Pure.pure (f x)) :=
  hp.bind fun _ x _ _ _ => pure (f x)

/-!
# Single tokens
-/

theorem look {γ : Type} {f : Option Token → γ} {k : γ → Parse α} (h : ∀ x, Roomy n (k x)) :
    Roomy n (look f >>= k) :=
  fun s rest hs => h (f s.head?) s rest hs

theorem accept {γ : Type} {f : Token → Option γ} {k : Option γ → Parse α}
    (hsome : ∀ x, Roomy (n - 1) (k (some x))) (hnone : Roomy n (k none)) :
    Roomy n (accept f >>= k) := by
  intro s rest hs
  rcases accept_run f s with ⟨t, x, rest', rfl, _, hrun⟩ | ⟨_, hrun⟩
  · rw [bind_of_ok hrun]
    exact hsome x rest' rest (by rw [List.length_cons] at hs; omega)
  · rw [bind_of_ok hrun]
    exact hnone s rest hs

theorem expect {p : Token → Bool} {cause : SyntaxError.Cause} {f : Token → Parse α}
    (hcause : cause ≠ .nestingTooDeep) (hf : ∀ t, Roomy n (f t)) :
    Roomy n (expect p cause >>= f) := by
  refine bind_shrinks ?_ (Follows.expect (G := Anywhere) p cause).shrinks hf
  intro s rest _ hstop
  rcases expect_run p cause s with ⟨_, _, _, _, hrun⟩ | ⟨_, hrun⟩
  · cases hrun.symm.trans hstop
  · cases hrun.symm.trans hstop
    exact hcause rfl

theorem optionalType {mark : String} {f : Option Token → Parse α} (hf : ∀ t, Roomy n (f t)) :
    Roomy n (optionalType mark >>= f) := by
  unfold Parser.optionalType
  rw [bind_assoc]
  refine accept ?_ (hf none)
  intro _
  dsimp only
  rw [bind_assoc]
  exact expect (by simp) fun t => (hf (some t)).mono (by omega)

theorem skipSeparators {f : Unit → Parse α} (hf : ∀ x, Roomy n (f x)) :
    Roomy n (skipSeparators >>= f) := by
  refine bind_shrinks ?_ (Follows.skipSeparators (G := Anywhere)).shrinks hf
  intro s rest _ hstop
  cases hstop

theorem lineEnd : Roomy n lineEnd := by
  apply look
  intro ends
  cases ends with
  | false => exact reject (by simp)
  | true =>
      intro s rest _ hstop
      cases hstop

/-!
# Repetition

There are as many rounds as tokens that are left, and one more.
-/

theorem rounds {f : Nat → Parse α} (h : ∀ m, Roomy (min n m) (f m)) :
    Roomy n (do f ((← get).length + 1)) := by
  intro s rest hs
  exact h (s.length + 1) s rest (by omega)

theorem itemsFrom {item : Parse α} (h : Roomy n item) (hshrinks : Shrinks item) (m : Nat) :
    Roomy (min n m) (itemsFrom item m) := by
  induction m with
  | zero => exact (zero _).mono (by omega)
  | succ m ih =>
      apply look
      intro closed
      cases closed with
      | true => exact pure []
      | false =>
          apply (h.mono (Nat.min_le_left n (m + 1))).bind_shrinks hshrinks
          intro x
          refine accept ?_ (pure [x])
          intro _
          exact (ih.mono (by omega)).map (x :: ·)

theorem items {item : Parse α} (h : Roomy n item) (hshrinks : Shrinks item) :
    Roomy n (items item) :=
  rounds (itemsFrom h hshrinks)

theorem growFrom {part : Expr → Parse (Option Expr)} (h : ∀ e, Roomy n (part e))
    (hadvances : ∀ e, Advances (part e)) (m : Nat) (e : Expr) :
    Roomy (min n m) (growFrom part m e) := by
  induction m generalizing e with
  | zero => exact (zero _).mono (by omega)
  | succ m ih =>
      apply ((h e).mono (Nat.min_le_left n (m + 1))).bind
      intro s found rest hs hfound
      cases found with
      | none => exact pure e
      | some e' =>
          have hshorter := hadvances e s e' rest hfound
          exact (ih e').mono (by omega)

theorem grow {part : Expr → Parse (Option Expr)} (h : ∀ e, Roomy n (part e))
    (hadvances : ∀ e, Advances (part e)) (e : Expr) : Roomy n (grow part e) :=
  rounds fun m => growFrom h hadvances m e

theorem blockRestFrom {statement : Parse Stmt} (h : Roomy n statement)
    (hstatement : Reads statement fun w stmt => Spells w (.stmt stmt)) (brace : Token) (m : Nat) :
    Roomy (min n m) (blockRestFrom statement brace m) := by
  induction m with
  | zero => exact (zero _).mono (by omega)
  | succ m ih =>
      refine accept (fun _ => pure []) (look ?_)
      intro ended
      cases ended with
      | true => exact reject (by simp)
      | false =>
          apply (h.mono (Nat.min_le_left n (m + 1))).bind
          intro s stmt rest hs hstmt
          have hshorter := statement_shrinks hstatement hstmt
          apply lineEnd.bind_shrinks lineEnd_shrinks
          intro _
          exact (ih.mono (by omega)).map (stmt :: ·)

theorem block {statement : Parse Stmt} (h : Roomy n statement)
    (hstatement : Reads statement fun w stmt => Spells w (.stmt stmt)) :
    Roomy n (block statement) := by
  refine expect (by simp) fun brace => skipSeparators fun _ => ?_
  exact (rounds (blockRestFrom h hstatement brace)).map _

/-!
# Expressions
-/

theorem operation {operand : Parse Expr} (h : Roomy n operand) (level : Nat) (left : Expr) :
    Roomy n (operation level operand left) :=
  accept (fun _ => (h.mono (by omega)).map _) (pure none)

theorem binaryLevels {operand : Parse Expr} (h : Roomy n operand)
    (hoperand : Reads operand fun w e => Spells w (.expr 7 e)) {count : Nat} (hcount : count ≤ 6) :
    Roomy n (binaryLevels operand count) := by
  induction count with
  | zero => exact h
  | succ count ih =>
      have hshrinks : Shrinks (Parser.binaryLevels operand count) :=
        (hoperand.binaryLevels (by omega)).shrinks
      exact (ih (by omega)).bind_shrinks hshrinks
        (grow (operation (ih (by omega)) _) (advances_operation hshrinks _))

/-- The expressions in parentheses stand behind a token, so they need one level less. -/
theorem arguments {expression : Parse Expr} (h : Roomy n expression)
    (hexpression : Reads expression fun w e => Spells w (.expr 1 e)) (callee : Expr) :
    Roomy (n + 1) (arguments expression callee) := by
  refine accept ?_ (pure none)
  intro t
  exact (items h hexpression.shrinks).bind_shrinks hexpression.items.shrinks fun args =>
    expect (by simp) fun _ => pure _

theorem primary {expression : Parse Expr} (h : Roomy n expression) :
    Roomy (n + 1) (primary expression) := by
  refine accept ?_ (accept ?_ (reject (by simp)))
  · intro atom
    cases atom with
    | ok e => exact pure e
    | error fault =>
        intro s rest _ hstop
        cases hstop
  · intro _
    exact h.bind fun _ e _ _ _ => expect (by simp) fun _ => pure e

theorem operand {expression : Parse Expr} (h : Roomy n expression)
    (hexpression : Reads expression fun w e => Spells w (.expr 1 e)) :
    Roomy (n + 1) (operand expression) := by
  have hshrinks : Shrinks (Parser.primary expression) := hexpression.primary.shrinks
  exact (primary h).bind_shrinks hshrinks
    (grow (arguments h hexpression) (advances_arguments hexpression))

theorem unary (depth : Nat) : Roomy depth (unary depth) := by
  induction depth with
  | zero => exact zero _
  | succ depth ih =>
      refine accept ?_ ?_
      · intro found
        exact ih.map _
      · exact operand (binaryLevels ih (.unary depth) (Nat.le_refl 6)) (.expression depth)

theorem expression (depth : Nat) : Roomy depth (expression depth) :=
  binaryLevels (unary depth) (.unary depth) (Nat.le_refl 6)

/-!
# Statements
-/

section Statements

variable {expr : Parse Expr} {body : Parse (Block Stmt)} {stmt : Parse Stmt}

theorem letBinding (h : Roomy n expr) (t : Token) : Roomy n (letBinding expr t) :=
  expect (by simp) fun _ => optionalType fun _ => expect (by simp) fun _ => h.map _

theorem param : Roomy n param :=
  expect (by simp) fun _ => expect (by simp) fun _ => expect (by simp) fun _ => pure _

theorem funcDef (h : Roomy n body) (t : Token) : Roomy n (funcDef body t) := by
  refine expect (by simp) fun name => expect (by simp) fun _ => ?_
  apply (items param Reads.param.shrinks).bind_shrinks Reads.param.items.shrinks
  intro params
  exact expect (by simp) fun _ => optionalType fun returnType => h.map _

theorem otherwise (hbody : Roomy n body) (hstmt : Roomy n stmt) :
    Roomy n (otherwise body stmt) := by
  apply look
  intro conditional
  cases conditional with
  | true => exact hstmt.map _
  | false => exact hbody.map _

theorem alternative (hbody : Roomy n body) (hstmt : Roomy n stmt) :
    Roomy n (alternative body stmt) := by
  have hother := (otherwise hbody hstmt).map some
  intro s rest hs
  rcases acceptElse_run s with ⟨gap, keyword, behind, rfl, _, _, hrun⟩ | ⟨_, hrun⟩
  · unfold Parser.alternative
    rw [bind_of_ok hrun]
    apply hother behind rest
    simp only [List.length_append, List.length_cons] at hs
    omega
  · unfold Parser.alternative
    rw [bind_of_ok hrun]
    exact pure none s rest hs

theorem conditional (hexpr : Roomy n expr) (hshrinks : Shrinks expr) (hbody : Roomy n body)
    (hshrinks' : Shrinks body) (hstmt : Roomy n stmt) (t : Token) :
    Roomy n (conditional expr body stmt t) := by
  apply hexpr.bind_shrinks hshrinks
  intro condition
  apply hbody.bind_shrinks hshrinks'
  intro thenBody
  exact (alternative hbody hstmt).map _

theorem giveBack (h : Roomy n expr) (t : Token) : Roomy n (giveBack expr t) := by
  apply look
  intro ends
  cases ends with
  | true => exact pure _
  | false => exact h.map _

theorem assignOrExpr (h : Roomy n expr) (hshrinks : Shrinks expr) :
    Roomy n (assignOrExpr expr) := by
  apply look
  intro next
  cases next with
  | none => exact reject (by simp)
  | some first =>
      apply h.bind_shrinks hshrinks
      intro e
      apply look
      intro assigned
      cases assigned with
      | false => exact pure _
      | true =>
          cases e with
          | name name => exact expect (by simp) fun sign => h.map _
          | _ => exact reject (by simp)

theorem statement (depth : Nat) : Roomy depth (statement (depth + 1)) := by
  induction depth with
  | zero => exact zero _
  | succ depth ih =>
      have hexpr := expression (depth + 1)
      have hshrinks : Shrinks (Parser.expression (depth + 1)) := (Reads.expression _).shrinks
      -- The keyword of a statement makes up for the level of all that is nested in it.
      refine accept ?_ (assignOrExpr hexpr hshrinks)
      intro found
      rcases found with ⟨t, o⟩
      have hless := hexpr.mono (Nat.le_succ depth)
      have hreads : Reads (Parser.statement (depth + 1)) fun w stmt => Spells w (.stmt stmt) :=
        .statement _
      have hbody := block ih hreads
      cases o with
      | letBinding => exact letBinding hless t
      | funcDef => exact funcDef hbody t
      | conditional => exact conditional hless hshrinks hbody hreads.block.shrinks ih t
      | whileLoop => exact hless.bind_shrinks hshrinks fun condition => hbody.map _
      | giveBack => exact giveBack hless t

end Statements
end Roomy

/-!
# Whole programs
-/

theorem Follows.eq_of_roomy {p q : Parse α} {s : List Token} (h : Follows Decided p q)
    (hp : Roomy n p) (hs : s.length < n) : q s = p s := by
  cases hrun : p s with
  | ok result =>
      rcases result with ⟨x, rest⟩
      rw [← List.append_nil s, ← List.append_nil rest] at hrun
      have hq := h.ok rfl (Or.inl rfl) hrun
      rwa [List.append_nil, List.append_nil] at hq
  | error stop =>
      cases stop with
      | numeral fault => exact h.numeral hrun
      | rejected rest cause =>
          have hcause : cause ≠ .nestingTooDeep := by
            intro hcause
            exact hp s rest hs (hcause ▸ hrun)
          rw [← List.append_nil s, ← List.append_nil rest] at hrun
          have hq := h.rejected rfl hcause hrun
          rwa [List.append_nil, List.append_nil] at hq

theorem statementsFrom_roomy {p : Parse Stmt} (hp : Roomy n p)
    (hreads : Reads p fun w stmt => Spells w (.stmt stmt)) {m : Nat} {s rest : List Token}
    (hs : s.length < n) (hm : s.length < m) :
    (statementsFrom p m s).2 ≠ some (.rejected rest .nestingTooDeep) := by
  induction m generalizing s with
  | zero => omega
  | succ m ih =>
      cases s with
      | nil => simp [statementsFrom]
      | cons t s =>
          have hline : Roomy n (line p) :=
            hp.bind_shrinks hreads.shrinks fun stmt => Roomy.lineEnd.map _
          rw [stop_statementsFrom]
          cases hrun : line p (t :: s) with
          | error stop =>
              intro hstop
              cases hstop
              exact hline _ rest hs hrun
          | ok result =>
              rcases result with ⟨stmt, s'⟩
              have hshorter := line_shrinks hreads hrun
              exact ih (by omega) (by omega)

theorem statementsFrom_congr {p q : Parse Stmt} (hshrinks : Shrinks p) {s : List Token}
    (h : ∀ s', s'.length ≤ s.length → q s' = p s') (m : Nat) :
    statementsFrom q m s = statementsFrom p m s := by
  induction m generalizing s with
  | zero => rfl
  | succ m ih =>
      cases s with
      | nil => rfl
      | cons t s =>
          rw [statementsFrom, statementsFrom, h _ (Nat.le_refl _)]
          cases hrun : p (t :: s) with
          | error stop => rfl
          | ok result =>
              rcases result with ⟨stmt, s'⟩
              have hle := hshrinks _ _ _ hrun
              cases hline : lineEnd s' with
              | error stop => simp [hline]
              | ok result =>
                  rcases result with ⟨_, s''⟩
                  have hle' := lineEnd_shrinks _ _ _ hline
                  simp only [hline]
                  rw [ih fun s3 hs3 => h s3 (by omega)]

/-- A limit that exceeds the number of tokens by two is as good as any higher one. -/
theorem statements_of_roomy {limit : Nat} {s : List Token} (hlimit : s.length + 1 < limit) :
    (∀ rest, (statements limit s).2 ≠ some (.rejected rest .nestingTooDeep)) ∧
      ∀ limit', limit ≤ limit' → statements limit' s = statements limit s := by
  have hle : (s.dropWhile Token.isSeparator).length ≤ s.length :=
    (List.dropWhile_sublist _).length_le
  cases limit with
  | zero => omega
  | succ depth =>
      constructor
      · intro rest
        exact statementsFrom_roomy (.statement depth) (.statement _) (by omega) (by omega)
      · intro limit' hlimit'
        apply statementsFrom_congr (Reads.statement _).shrinks
        intro s' hs'
        exact (Follows.statement hlimit').eq_of_roomy (.statement depth) (by omega)

end Parser
end TypedAnt
