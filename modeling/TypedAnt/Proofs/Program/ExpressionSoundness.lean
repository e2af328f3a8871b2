import TypedAnt.Proofs.Program.Reading

/-!
# Soundness of the parser of expressions

What the parsers of expressions read are the expressions of their level.  This holds for
every nesting limit: a limit only rejects, and what it rejects is the beginning of an
expression as well.
-/

namespace TypedAnt
namespace Parser
namespace Reads

/-!
# Expressions
-/

theorem growFrom {Q : List Token → Expr → Prop} {part : Expr → Parse (Option Expr)}
    (hpart : ∀ w e, Q w e →
      Reads (part e) fun v o => (o = none ∧ v = []) ∨ ∃ e', o = some e' ∧ Q (w ++ v) e')
    (rounds : Nat) {w : List Token} {e : Expr} (h : Q w e) :
    Reads (growFrom part rounds e) fun v e' => Q (w ++ v) e' := by
  induction rounds generalizing w e with
  | zero => exact reject ⟨[], e, by simpa using h⟩
  | succ rounds ih =>
      apply (hpart w e h).bind
      intro v o hread
      rcases hread with ⟨rfl, rfl⟩ | ⟨e', rfl, he'⟩
      · exact pure (by simpa using h)
      · simpa using ih he'

theorem grow {Q : List Token → Expr → Prop} {part : Expr → Parse (Option Expr)}
    (hpart : ∀ w e, Q w e →
      Reads (part e) fun v o => (o = none ∧ v = []) ∨ ∃ e', o = some e' ∧ Q (w ++ v) e')
    {w : List Token} {e : Expr} (h : Q w e) :
    Reads (grow part e) fun v e' => Q (w ++ v) e' :=
  rounds fun n => growFrom hpart (n + 1) h

theorem operation {level : Nat} {operand : Parse Expr}
    (hoperand : Reads operand fun w e => Spells w (.expr (level + 1) e)) {w : List Token}
    {left : Expr} (h : Spells w (.expr level left)) :
    Reads (operation level operand left) fun v o =>
      (o = none ∧ v = []) ∨ ∃ e, o = some e ∧ Spells (w ++ v) (.expr level e) := by
  refine accept ?_ (pure (Or.inl ⟨rfl, rfl⟩))
  intro t found hop
  rcases found with ⟨u, op⟩
  rcases BinaryOp.atLevel?_eq_some_iff.mp hop with ⟨rfl, hsymbol, rfl⟩
  refine (hoperand.bind ?_).toTracks
  intro v right hright
  refine pure (Or.inr ⟨.binary u op left right, rfl, ?_⟩)
  simpa using Spells.binary h hsymbol hright

theorem chain {level : Nat} {operand : Parse Expr} (hlow : 1 ≤ level) (hhigh : level ≤ 8)
    (hoperand : Reads operand fun w e => Spells w (.expr (level + 1) e)) :
    Reads (chain level operand) fun w e => Spells w (.expr level e) := by
  apply hoperand.bind
  intro w e he
  exact grow (Q := fun w e => Spells w (.expr level e)) (fun _ _ => operation hoperand)
    (.lift hlow hhigh he)

theorem binaryLevels {operand : Parse Expr}
    (hoperand : Reads operand fun w e => Spells w (.expr 7 e)) {count : Nat} (hcount : count ≤ 6) :
    Reads (binaryLevels operand count) fun w e => Spells w (.expr (7 - count) e) := by
  induction count with
  | zero => exact hoperand
  | succ count ih =>
      have hlevel : 7 - (count + 1) = 6 - count := by omega
      have hnext : 6 - count + 1 = 7 - count := by omega
      rw [hlevel]
      apply chain (by omega) (by omega)
      rw [hnext]
      exact ih (by omega)

theorem expressionOf {operand : Parse Expr}
    (hoperand : Reads operand fun w e => Spells w (.expr 7 e)) :
    Reads (expressionOf operand) fun w e => Spells w (.expr 1 e) :=
  binaryLevels hoperand (Nat.le_refl 6)

theorem arguments {expression : Parse Expr}
    (hexpression : Reads expression fun w e => Spells w (.expr 1 e)) {w : List Token}
    {callee : Expr} (h : Spells w (.expr 8 callee)) :
    Reads (arguments expression callee) fun v o =>
      (o = none ∧ v = []) ∨ ∃ e, o = some e ∧ Spells (w ++ v) (.expr 8 e) := by
  refine acceptOp ?_ (pure (Or.inl ⟨rfl, rfl⟩))
  intro opening hopening
  apply hexpression.items.bind
  intro v _ hread
  rcases hread with ⟨args, hlisted, hargs, rfl⟩
  apply (expectOp ")").bind
  intro _ closing hread
  rcases hread with ⟨rfl, hclosing⟩
  refine pure (Or.inr ⟨_, rfl, ?_⟩)
  simpa using Spells.call h hopening hlisted hargs hclosing

theorem completable_expr {level : Nat} (hlow : 1 ≤ level) (hhigh : level ≤ 9) :
    ∃ w e, Spells w (.expr level e) := by
  rcases Nat.le.dest hhigh with ⟨n, hn⟩
  have hname : Spells [⟨.ident, "", 0, 0⟩] (.expr (level + n) (.name ⟨.ident, "", 0, 0⟩)) := by
    rw [hn]
    exact .name rfl
  exact ⟨_, _, hname.lower hlow (by omega)⟩

/-- A number that cannot be read is no rejection, so nothing has to be completed there. -/
theorem unreadable {R : List Token → Expr → Prop} {fault : Numeral.Fault} :
    Tracks (unreadable fault) R where
  sound hok := by cases hok
  viable hstop := by cases hstop

theorem atom {t : Token} {e : Expr} (h : atom? t = some (.ok e)) : Spells [t] (.expr 9 e) := by
  unfold atom? at h
  split at h
  · rename_i hkind
    cases hread : Numeral.readInt t.value with
    | error fault => simp [hread, Except.map] at h
    | ok n =>
        simp only [hread, Except.map, Option.some.injEq, Except.ok.injEq] at h
        exact h ▸ .intLit hkind hread
  · rename_i hkind
    cases hread : Numeral.readFloat t.value with
    | error fault => simp [hread, Except.map] at h
    | ok bits =>
        simp only [hread, Except.map, Option.some.injEq, Except.ok.injEq] at h
        exact h ▸ .floatLit hkind hread
  · rename_i hkind
    cases h
    exact .stringLit hkind
  · rename_i hkind
    cases h
    exact .name hkind
  · split at h
    · rename_i hword
      cases h
      exact .trueLit hword
    · split at h
      · rename_i hword
        cases h
        exact .falseLit hword
      · cases h

theorem primary {expression : Parse Expr}
    (hexpression : Reads expression fun w e => Spells w (.expr 1 e)) :
    Reads (primary expression) fun w e => Spells w (.expr 9 e) := by
  refine accept ?_ ?_
  · intro t found hatom
    rcases found with fault | e
    · exact unreadable
    · exact (pure (atom hatom)).toTracks
  · refine acceptOp ?_ (reject (completable_expr (by omega) (by omega)))
    intro opening hopening
    apply hexpression.bind
    intro w e he
    apply (expectOp ")").bind
    intro _ closing hread
    rcases hread with ⟨rfl, hclosing⟩
    exact pure (by simpa using Spells.parens hopening he hclosing)

theorem operand {expression : Parse Expr}
    (hexpression : Reads expression fun w e => Spells w (.expr 1 e)) :
    Reads (operand expression) fun w e => Spells w (.expr 8 e) := by
  apply (primary hexpression).bind
  intro w e he
  exact grow (Q := fun w e => Spells w (.expr 8 e)) (fun _ _ => arguments hexpression)
    (.lift (by omega) (by omega) he)

theorem unary (depth : Nat) : Reads (unary depth) fun w e => Spells w (.expr 7 e) := by
  induction depth with
  | zero => exact reject (completable_expr (by omega) (by omega))
  | succ depth ih =>
      refine accept ?_ ?_
      · intro t found hop
        rcases found with ⟨u, op⟩
        rcases UnaryOp.atToken?_eq_some_iff.mp hop with ⟨rfl, hsymbol⟩
        refine (ih.bind ?_).toTracks
        intro w e he
        exact pure (by simpa using Spells.unary hsymbol he)
      · apply (operand (expressionOf ih)).imp
        intro w e he
        exact .lift (by omega) (by omega) he

theorem expression (depth : Nat) : Reads (expression depth) fun w e => Spells w (.expr 1 e) :=
  expressionOf (unary depth)

end Reads
end Parser
end TypedAnt
