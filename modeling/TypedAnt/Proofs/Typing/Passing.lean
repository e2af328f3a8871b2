import TypedAnt.Proofs.Typing.Breaking

/-!
# Where a check passes

The checkers that a check passes through: those between the statements of a row, and those
between the statements of the bodies that it enters.  Whether it succeeds or fails, and for
whatever reason, it ends in one of them.
-/

namespace TypedAnt

open Typing CheckM

namespace Stmt

inductive Opens (c : Checker) : Stmt → List Stmt → Checker → Prop where
  | own {s : Stmt} {opener : Opener} {stmts : List Stmt} {d : Checker} :
      Enters c s opener stmts d →
      Opens c s stmts d
  | elseIf {Δ : Scopes} {t : Token} {condition : Expr} {body : Block Stmt} {next : Stmt}
      {stmts : List Stmt} {d : Checker} :
      Condition c.scopes condition →
      AllTyped c.returns.head? c.scopes.enter body.statements Δ →
      Opens c next stmts d →
      Opens c (.conditional t condition body (some (.conditional next))) stmts d

/-- The check of the statements passes through a checker, between them or in one of their bodies. -/
inductive Passes : Checker → List Stmt → Checker → Prop where
  | between {c : Checker} {Δ : Scopes} {before after : List Stmt} :
      AllTyped c.returns.head? c.scopes before Δ →
      Passes c (before ++ after) ⟨Δ, c.returns⟩
  | inside {c d e : Checker} {Δ : Scopes} {s : Stmt} {stmts before after : List Stmt} :
      AllTyped c.returns.head? c.scopes before Δ →
      Opens ⟨Δ, c.returns⟩ s stmts d →
      Passes d stmts e →
      Passes c (before ++ s :: after) e

variable {root : Token} {depth : Nat} {error : TypeError} {c c' : Checker} {s : Stmt}
  {stmts : List Stmt}

/-- A check that fails in a statement ends where it started, or inside a body of the statement. -/
def EndsWithin (c : Checker) (s : Stmt) (c' : Checker) : Prop :=
  c' = c ∨ ∃ stmts d, Opens c s stmts d ∧ Passes d stmts c'

theorem passes_of_forM (h : ∀ {s c}, Raises (s.check root depth) c error c' → EndsWithin c s c')
    (hforM : Raises (stmts.forM (check root depth)) c error c') : Passes c stmts c' := by
  rcases c with ⟨Γ, returns⟩
  rcases raises_forM hforM with ⟨before, s, after, d, rfl, hbefore, hs⟩
  rcases allTyped_of_forM typed_of_check hbefore with ⟨_, Δ, hall, rfl⟩
  rcases h hs with rfl | ⟨stmts, d, hopens, hpasses⟩
  · exact .between hall
  · exact .inside hall hopens hpasses

/-!
A statement without bodies that fails has changed nothing.
-/

theorem letBinding_changes_nothing {t name : Token} {declared : Option Token} {value : Expr}
    (h : Raises ((Stmt.letBinding t name declared value).check root (depth + 1)) c error c') :
    c' = c := by
  rcases raises_typeOf h with ⟨_, heq⟩ | ⟨actual, _, hrest⟩
  · exact heq
  · cases declared with
    | none => exact absurd hrest not_raises_modify
    | some token =>
        rcases raises_attempt_bind hrest with ⟨_, heq⟩ | ⟨type, _, hrest⟩
        · exact heq
        · rcases raises_attempt_bind hrest with ⟨_, heq⟩ | ⟨_, _, hdefine⟩
          · exact heq
          · exact absurd hdefine not_raises_modify

theorem assign_changes_nothing {t name : Token} {value : Expr}
    (h : Raises ((Stmt.assign t name value).check root (depth + 1)) c error c') : c' = c := by
  rcases raises_typeOf h with ⟨_, heq⟩ | ⟨actual, _, hrest⟩
  · exact heq
  · have hmatch := raises_get_bind hrest
    split at hmatch
    · exact absurd hmatch not_raises_modify
    · split at hmatch
      · exact absurd hmatch not_raises_pure
      · exact (raises_throw hmatch).2

theorem giveBack_changes_nothing {t : Token} {value : Option Expr}
    (h : Raises ((Stmt.giveBack t value).check root (depth + 1)) c error c') : c' = c := by
  have hmatch := raises_get_bind h
  split at hmatch
  · exact (raises_throw hmatch).2
  · cases value with
    | none => exact (raises_attempt hmatch).2
    | some e =>
        rcases raises_typeOf hmatch with ⟨_, heq⟩ | ⟨type, _, hrest⟩
        · exact heq
        · exact (raises_attempt hrest).2

theorem expr_changes_nothing {t : Token} {value : Expr}
    (h : Raises ((Stmt.expr t value).check root (depth + 1)) c error c') : c' = c := by
  rcases raises_typeOf h with ⟨_, heq⟩ | ⟨type, _, hpure⟩
  · exact heq
  · exact absurd hpure not_raises_pure

theorem endsWithin_of_check (h : Raises (s.check root depth) c error c') : EndsWithin c s c' := by
  induction depth generalizing s c with
  | zero => exact Or.inl (raises_throw h).2
  | succ depth ih =>
      have hbody {opener : Opener} {stmts : List Stmt} {d : Checker}
          (henters : Enters c s opener stmts d)
          (hraises : Raises (stmts.forM (check root depth)) d error c') : EndsWithin c s c' :=
        Or.inr ⟨stmts, d, .own henters, passes_of_forM ih hraises⟩
      cases s with
      | letBinding t name declared value => exact Or.inl (letBinding_changes_nothing h)
      | assign t name value => exact Or.inl (assign_changes_nothing h)
      | funcDef t name params returnType body =>
          rcases raises_attempt_bind h with ⟨_, heq⟩ | ⟨types, hnamed, hrest⟩
          · exact Or.inl heq
          · rcases raises_attempt_bind hrest with ⟨_, heq⟩ | ⟨result, hreturns, hrest⟩
            · exact Or.inl heq
            · rcases raises_bind hrest with hdefine | ⟨_, d, hdefine, hscope⟩
              · exact absurd hdefine not_raises_modify
              · cases gives_define_iff.mp hdefine
                rcases raises_bind (raises_inScope hscope) with hparams | ⟨_, d, hparams, hfunction⟩
                · exact absurd hparams not_raises_defineAll
                · cases gives_defineAll_iff.mp hparams
                  exact hbody (.function (mapM_resolve_eq_ok_iff.mp hnamed)
                    (resolve_eq_ok_iff.mp hreturns)) (raises_inFunction hfunction)
      | conditional t condition body otherwise =>
          rcases raises_guarded h with heq | ⟨hcondition, hrest⟩
          · exact Or.inl heq
          · rcases raises_bind hrest with hthen | ⟨_, d, hthen, hother⟩
            · exact hbody (.thenBody hcondition) (raises_inScope hthen)
            · rcases allTyped_of_block typed_of_check hthen with ⟨_, ⟨Δ, hall⟩, rfl⟩
              cases otherwise with
              | none => exact absurd hother not_raises_pure
              | some otherwise =>
                  cases otherwise with
                  | block other => exact hbody (.elseBody hcondition hall) (raises_inScope hother)
                  | conditional next =>
                      rcases ih hother with heq | ⟨stmts, d, hopens, hpasses⟩
                      · exact Or.inl heq
                      · exact Or.inr ⟨stmts, d, .elseIf hcondition hall hopens, hpasses⟩
      | whileLoop t condition body =>
          rcases raises_guarded h with heq | ⟨hcondition, hloop⟩
          · exact Or.inl heq
          · exact hbody (.whileBody hcondition) (raises_inScope hloop)
      | giveBack t value => exact Or.inl (giveBack_changes_nothing h)
      | expr t value => exact Or.inl (expr_changes_nothing h)

end Stmt

/-- A check of a program ends in a checker that it passes through, whatever comes of it. -/
theorem Program.passes_check (p : Program) (limit : Nat) (c : Checker) :
    Stmt.Passes c p.statements (p.check limit c).2 := by
  rcases c with ⟨Γ, returns⟩
  rcases hcheck : p.check limit ⟨Γ, returns⟩ with ⟨outcome, c'⟩
  cases outcome with
  | ok _ =>
      rcases Stmt.allTyped_of_forM Stmt.typed_of_check hcheck with ⟨_, Δ, hall, rfl⟩
      rw [← p.statements.append_nil]
      exact .between hall
  | error error => exact Stmt.passes_of_forM Stmt.endsWithin_of_check hcheck

end TypedAnt
