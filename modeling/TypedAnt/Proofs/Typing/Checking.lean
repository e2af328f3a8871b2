import TypedAnt.Proofs.Typing.Running

/-!
# The programs that are accepted

A check succeeds exactly on the programs that the rules allow, as far as they are not too
high, and it leaves the scopes that the rules lead to.
-/

namespace TypedAnt

/-!
# Closing a scope again

Statements write to the innermost scope at most, so that nothing is left of what happened in
a scope when it is closed.
-/

namespace Scopes

def below (s : Scopes) : Option Scopes :=
  match s.locals with
  | [] => none
  | _ :: outer => some { s with locals := outer }

@[simp] theorem below_enter (s : Scopes) : s.enter.below = some s := rfl

@[simp] theorem below_define (s : Scopes) (name : String) (type : Ty) :
    (s.define name type).below = s.below := by
  unfold define below
  cases s.locals <;> rfl

@[simp] theorem below_defineAll (s : Scopes) (bindings : List (Param × Ty)) :
    (s.defineAll bindings).below = s.below := by
  induction bindings generalizing s with
  | nil => rfl
  | cons binding rest ih =>
      have hrest := ih (s.define binding.1.name.value binding.2)
      rw [below_define] at hrest
      exact hrest

theorem exit_of_below {s outer : Scopes} (h : s.below = some outer) : s.exit = outer := by
  unfold below at h
  unfold exit
  cases hlocals : s.locals with
  | nil =>
      rw [hlocals] at h
      cases h
  | cons inner rest =>
      rw [hlocals] at h
      cases h
      rfl

end Scopes

theorem Stmt.Typed.below_eq {given : Option Ty} {Γ Δ : Scopes} {s : Stmt} :
    Stmt.Typed given Γ s Δ → Δ.below = Γ.below
  | .letInferred _ | .letDeclared _ _ _ | .assignUnbound _ _ | .funcDef _ _ _ =>
      Scopes.below_define _ _ _
  | .assignBound _ _ _ | .conditional _ _ | .conditionalBlock _ _ _ | .whileLoop _ _
  | .giveNothing _ | .giveBack _ _ | .expr _ => rfl
  | .conditionalChain _ _ hnext => hnext.below_eq

theorem Stmt.AllTyped.below_eq {given : Option Ty} {Γ Δ : Scopes} {stmts : List Stmt}
    (h : Stmt.AllTyped given Γ stmts Δ) : Δ.below = Γ.below := by
  induction stmts generalizing Γ with
  | nil =>
      cases h
      rfl
  | cons s rest ih =>
      cases h with
      | cons hs hrest => exact (ih hrest).trans hs.below_eq

theorem Stmt.AllTyped.exit_eq {given : Option Ty} {Γ Δ : Scopes} {stmts : List Stmt}
    (h : Stmt.AllTyped given Γ.enter stmts Δ) : Δ.exit = Γ :=
  Scopes.exit_of_below h.below_eq

theorem Stmt.AllTyped.exit_eq_of_params {given : Option Ty} {Γ Δ : Scopes}
    {bindings : List (Param × Ty)} {stmts : List Stmt}
    (h : Stmt.AllTyped given (Γ.enter.defineAll bindings) stmts Δ) : Δ.exit = Γ := by
  apply Scopes.exit_of_below
  rw [h.below_eq, Scopes.below_defineAll, Scopes.below_enter]

open Typing CheckM

namespace Stmt

variable {root : Token} {depth : Nat} {Γ Δ : Scopes} {returns : List Ty} {c' : Checker}
  {stmts : List Stmt} {body : Block Stmt} {s : Stmt}

/-!
# Soundness
-/

section Soundness

variable (h : ∀ {s Γ c'}, Gives (s.check root depth) ⟨Γ, returns⟩ () c' →
  s.height ≤ depth ∧ ∃ Δ, Typed returns.head? Γ s Δ ∧ c' = ⟨Δ, returns⟩)

include h

theorem allTyped_of_forM (hforM : Gives (stmts.forM (check root depth)) ⟨Γ, returns⟩ () c') :
    heights stmts ≤ depth ∧ ∃ Δ, AllTyped returns.head? Γ stmts Δ ∧ c' = ⟨Δ, returns⟩ := by
  induction stmts generalizing Γ with
  | nil =>
      cases (gives_pure_iff.mp hforM).2
      exact ⟨Nat.zero_le depth, Γ, .nil, rfl⟩
  | cons s rest ih =>
      rcases gives_forM_cons_iff.mp hforM with ⟨d, hs, hrest⟩
      rcases h hs with ⟨hheight, Δ, htyped, rfl⟩
      rcases ih hrest with ⟨hheights, Θ, hall, rfl⟩
      exact ⟨Nat.max_le.mpr ⟨hheight, hheights⟩, Θ, .cons htyped hall, rfl⟩

theorem allTyped_of_block
    (hblock : Gives (inScope (body.statements.forM (check root depth))) ⟨Γ, returns⟩ () c') :
    body.height ≤ depth ∧ (∃ Δ, AllTyped returns.head? Γ.enter body.statements Δ) ∧
      c' = ⟨Γ, returns⟩ := by
  rcases gives_inScope_iff.mp hblock with ⟨d, hforM, rfl⟩
  rcases allTyped_of_forM h hforM with ⟨hheights, Δ, hall, rfl⟩
  rw [Block.height_eq, hall.exit_eq]
  exact ⟨hheights, ⟨Δ, hall⟩, rfl⟩

end Soundness

theorem typed_of_check (h : Gives (s.check root depth) ⟨Γ, returns⟩ () c') :
    s.height ≤ depth ∧ ∃ Δ, Typed returns.head? Γ s Δ ∧ c' = ⟨Δ, returns⟩ := by
  induction depth generalizing s Γ returns c' with
  | zero => exact absurd h not_gives_throw
  | succ depth ih =>
      cases s with
      | letBinding t name declared value =>
          rcases gives_typeOf_bind_iff.mp h with ⟨actual, ⟨hheight, htype⟩, hrest⟩
          refine ⟨Nat.succ_le_succ hheight, ?_⟩
          cases declared with
          | none => exact ⟨_, .letInferred htype, gives_define_iff.mp hrest⟩
          | some token =>
              rcases gives_attempt_bind_iff.mp hrest with ⟨type, hnamed, hrest⟩
              rcases gives_attempt_bind_iff.mp hrest with ⟨_, haccepts, hdefine⟩
              exact ⟨_, .letDeclared htype (resolve_some_eq_ok_iff.mp hnamed)
                (expect_eq_ok_iff.mp haccepts), gives_define_iff.mp hdefine⟩
      | assign t name value =>
          rcases gives_typeOf_bind_iff.mp h with ⟨actual, ⟨hheight, htype⟩, hrest⟩
          rw [gives_get_bind_iff] at hrest
          refine ⟨Nat.succ_le_succ hheight, ?_⟩
          split at hrest
          · rename_i hlookup
            exact ⟨_, .assignUnbound htype (Scopes.lookup_eq_none_iff.mp hlookup),
              gives_define_iff.mp hrest⟩
          · rename_i existing hlookup
            split at hrest
            · rename_i hassignable
              exact ⟨Γ, .assignBound htype (Scopes.lookup_eq_some_iff.mp hlookup)
                (Ty.assignable_iff.mp hassignable), (gives_pure_iff.mp hrest).2⟩
            · exact absurd hrest not_gives_throw
      | funcDef t name params returnType body =>
          rcases gives_attempt_bind_iff.mp h with ⟨types, hnamed, hrest⟩
          rcases gives_attempt_bind_iff.mp hrest with ⟨result, hreturns, hrest⟩
          rcases gives_bind_iff.mp hrest with ⟨_, d, hdefine, hbody⟩
          cases gives_define_iff.mp hdefine
          rcases gives_inScope_iff.mp hbody with ⟨d, hinner, rfl⟩
          rcases gives_bind_iff.mp hinner with ⟨_, d', hparams, hfunction⟩
          cases gives_defineAll_iff.mp hparams
          rcases gives_inFunction_iff.mp hfunction with ⟨d', hforM, rfl⟩
          rcases allTyped_of_forM ih hforM with ⟨hheights, Δ, hall, rfl⟩
          rw [height, Block.height_eq, hall.exit_eq_of_params]
          exact ⟨Nat.succ_le_succ hheights, _, .funcDef (mapM_resolve_eq_ok_iff.mp hnamed)
            (resolve_eq_ok_iff.mp hreturns) hall, rfl⟩
      | conditional t condition body otherwise =>
          rcases gives_condition_iff.mp h with ⟨⟨hheight, hcondition⟩, hrest⟩
          rcases gives_bind_iff.mp hrest with ⟨_, d, hblock, hother⟩
          rcases allTyped_of_block ih hblock with ⟨hbody, ⟨Δ, hall⟩, rfl⟩
          rw [height, Nat.add_le_add_iff_right, Nat.max_le, Nat.max_le]
          cases otherwise with
          | none =>
              exact ⟨⟨hheight, hbody, Nat.zero_le depth⟩, Γ, .conditional hcondition hall,
                (gives_pure_iff.mp hother).2⟩
          | some otherwise =>
              cases otherwise with
              | block other =>
                  rcases allTyped_of_block ih hother with ⟨hotherHeight, ⟨Δ', hotherAll⟩, rfl⟩
                  exact ⟨⟨hheight, hbody, hotherHeight⟩, Γ,
                    .conditionalBlock hcondition hall hotherAll, rfl⟩
              | conditional next =>
                  rcases ih hother with ⟨hnextHeight, Δ', hnext, rfl⟩
                  exact ⟨⟨hheight, hbody, hnextHeight⟩, Δ',
                    .conditionalChain hcondition hall hnext, rfl⟩
      | whileLoop t condition body =>
          rcases gives_condition_iff.mp h with ⟨⟨hheight, hcondition⟩, hblock⟩
          rcases allTyped_of_block ih hblock with ⟨hbody, ⟨Δ, hall⟩, rfl⟩
          exact ⟨Nat.succ_le_succ (Nat.max_le.mpr ⟨hheight, hbody⟩), Γ,
            .whileLoop hcondition hall, rfl⟩
      | giveBack t value =>
          have hmatch := gives_get_bind_iff.mp h
          cases returns with
          | nil => exact absurd hmatch not_gives_throw
          | cons result outer =>
              cases value with
              | none =>
                  rcases gives_attempt_iff.mp hmatch with ⟨haccepts, rfl⟩
                  exact ⟨Nat.le_add_left 1 depth, Γ, .giveNothing (expect_eq_ok_iff.mp haccepts),
                    rfl⟩
              | some e =>
                  rcases gives_typeOf_bind_iff.mp hmatch with ⟨actual, ⟨hheight, htype⟩, hexpect⟩
                  rcases gives_attempt_iff.mp hexpect with ⟨haccepts, rfl⟩
                  exact ⟨Nat.succ_le_succ hheight, Γ,
                    .giveBack htype (expect_eq_ok_iff.mp haccepts), rfl⟩
      | expr t value =>
          rcases gives_typeOf_bind_iff.mp h with ⟨type, ⟨hheight, htype⟩, hpure⟩
          exact ⟨Nat.succ_le_succ hheight, Γ, .expr htype, (gives_pure_iff.mp hpure).2⟩

/-!
# Completeness
-/

section Completeness

variable (h : ∀ {s Γ Δ}, Typed returns.head? Γ s Δ → s.height ≤ depth →
  Gives (s.check root depth) ⟨Γ, returns⟩ () ⟨Δ, returns⟩)

include h

theorem forM_of_allTyped (hall : AllTyped returns.head? Γ stmts Δ)
    (hheights : heights stmts ≤ depth) :
    Gives (stmts.forM (check root depth)) ⟨Γ, returns⟩ () ⟨Δ, returns⟩ := by
  induction stmts generalizing Γ with
  | nil =>
      cases hall
      exact gives_pure_iff.mpr ⟨rfl, rfl⟩
  | cons s rest ih =>
      rcases Nat.max_le.mp hheights with ⟨hheight, hheights⟩
      cases hall with
      | cons htyped hrest =>
          exact gives_forM_cons_iff.mpr ⟨_, h htyped hheight, ih hrest hheights⟩

theorem block_of_allTyped (hall : AllTyped returns.head? Γ.enter body.statements Δ)
    (hheight : body.height ≤ depth) :
    Gives (inScope (body.statements.forM (check root depth))) ⟨Γ, returns⟩ ()
      ⟨Γ, returns⟩ := by
  rw [Block.height_eq] at hheight
  refine gives_inScope_iff.mpr ⟨⟨Δ, returns⟩, forM_of_allTyped h hall hheight, ?_⟩
  rw [hall.exit_eq]

end Completeness

theorem check_of_typed (h : Typed returns.head? Γ s Δ) (hheight : s.height ≤ depth) :
    Gives (s.check root depth) ⟨Γ, returns⟩ () ⟨Δ, returns⟩ := by
  induction depth generalizing s Γ Δ returns with
  | zero => exact absurd hheight (Nat.not_le_of_lt s.height_pos)
  | succ depth ih =>
      generalize hgiven : returns.head? = given at h
      cases h with
      | letInferred htype =>
          exact gives_typeOf_bind_iff.mpr
            ⟨_, ⟨Nat.le_of_succ_le_succ hheight, htype⟩, gives_define_iff.mpr rfl⟩
      | letDeclared htype hnamed haccepts =>
          refine gives_typeOf_bind_iff.mpr
            ⟨_, ⟨Nat.le_of_succ_le_succ hheight, htype⟩, ?_⟩
          refine gives_attempt_bind_iff.mpr ⟨_, resolve_some_eq_ok_iff.mpr hnamed, ?_⟩
          exact gives_attempt_bind_iff.mpr
            ⟨(), expect_eq_ok_iff.mpr haccepts, gives_define_iff.mpr rfl⟩
      | assignBound htype hbinds haccepts =>
          refine gives_typeOf_bind_iff.mpr
            ⟨_, ⟨Nat.le_of_succ_le_succ hheight, htype⟩, ?_⟩
          rw [gives_get_bind_iff, Scopes.lookup_eq_some_iff.mpr hbinds]
          dsimp only
          rw [if_pos (Ty.assignable_iff.mpr haccepts)]
          exact gives_pure_iff.mpr ⟨rfl, rfl⟩
      | assignUnbound htype hunbound =>
          refine gives_typeOf_bind_iff.mpr
            ⟨_, ⟨Nat.le_of_succ_le_succ hheight, htype⟩, ?_⟩
          rw [gives_get_bind_iff, Scopes.lookup_eq_none_iff.mpr hunbound]
          exact gives_define_iff.mpr rfl
      | @funcDef _ _ Δ _ name params _ body types result hnamed hreturns hall =>
          rw [height, Block.height_eq] at hheight
          -- The body is checked with the result type of this function in front of the others.
          have hbody : Gives (body.statements.forM (check root depth)) ⟨_, result :: returns⟩ ()
              ⟨Δ, result :: returns⟩ :=
            forM_of_allTyped ih hall (Nat.le_of_succ_le_succ hheight)
          refine gives_attempt_bind_iff.mpr ⟨_, mapM_resolve_eq_ok_iff.mpr hnamed, ?_⟩
          refine gives_attempt_bind_iff.mpr ⟨_, resolve_eq_ok_iff.mpr hreturns, ?_⟩
          refine gives_bind_iff.mpr ⟨(), _, gives_define_iff.mpr rfl, ?_⟩
          refine gives_inScope_iff.mpr ⟨⟨Δ, returns⟩, ?_, ?_⟩
          · refine gives_bind_iff.mpr ⟨(), _, gives_defineAll_iff.mpr rfl, ?_⟩
            exact gives_inFunction_iff.mpr ⟨_, hbody, rfl⟩
          · rw [hall.exit_eq_of_params]
      | conditional hcondition hall =>
          rcases Nat.max_le.mp (Nat.le_of_succ_le_succ hheight) with ⟨hfirst, hrest⟩
          have hbody := (Nat.max_le.mp hrest).1
          subst hgiven
          refine gives_condition_iff.mpr ⟨⟨hfirst, hcondition⟩, gives_bind_iff.mpr
            ⟨(), _, block_of_allTyped ih hall hbody, ?_⟩⟩
          exact gives_pure_iff.mpr ⟨rfl, rfl⟩
      | conditionalBlock hcondition hall hother =>
          rcases Nat.max_le.mp (Nat.le_of_succ_le_succ hheight) with ⟨hfirst, hrest⟩
          rcases Nat.max_le.mp hrest with ⟨hbody, hotherHeight⟩
          subst hgiven
          exact gives_condition_iff.mpr ⟨⟨hfirst, hcondition⟩, gives_bind_iff.mpr
            ⟨(), _, block_of_allTyped ih hall hbody, block_of_allTyped ih hother hotherHeight⟩⟩
      | conditionalChain hcondition hall hnext =>
          rcases Nat.max_le.mp (Nat.le_of_succ_le_succ hheight) with ⟨hfirst, hrest⟩
          rcases Nat.max_le.mp hrest with ⟨hbody, hnextHeight⟩
          subst hgiven
          exact gives_condition_iff.mpr ⟨⟨hfirst, hcondition⟩, gives_bind_iff.mpr
            ⟨(), _, block_of_allTyped ih hall hbody, ih hnext hnextHeight⟩⟩
      | whileLoop hcondition hall =>
          rcases Nat.max_le.mp (Nat.le_of_succ_le_succ hheight) with ⟨hfirst, hbody⟩
          subst hgiven
          exact gives_condition_iff.mpr ⟨⟨hfirst, hcondition⟩, block_of_allTyped ih hall hbody⟩
      | giveNothing haccepts =>
          rcases List.head?_eq_some_iff.mp hgiven with ⟨outer, rfl⟩
          exact gives_get_bind_iff.mpr
            (gives_attempt_iff.mpr ⟨expect_eq_ok_iff.mpr haccepts, rfl⟩)
      | giveBack htype haccepts =>
          rcases List.head?_eq_some_iff.mp hgiven with ⟨outer, rfl⟩
          refine gives_get_bind_iff.mpr (gives_typeOf_bind_iff.mpr
            ⟨_, ⟨Nat.le_of_succ_le_succ hheight, htype⟩, ?_⟩)
          exact gives_attempt_iff.mpr ⟨expect_eq_ok_iff.mpr haccepts, rfl⟩
      | expr htype =>
          exact gives_typeOf_bind_iff.mpr
            ⟨_, ⟨Nat.le_of_succ_le_succ hheight, htype⟩, gives_pure_iff.mpr ⟨rfl, rfl⟩⟩

end Stmt

/-!
# Programs
-/

namespace Program

theorem check_eq_ok_iff {p : Program} {limit : Nat} {Γ : Scopes} {c : Checker} :
    p.check limit ⟨Γ, []⟩ = (.ok (), c) ↔
      p.height ≤ limit ∧ p.Typed Γ c.scopes ∧ c.returns = [] := by
  constructor
  · intro h
    rcases Stmt.allTyped_of_forM Stmt.typed_of_check h with ⟨hheight, Δ, hall, rfl⟩
    exact ⟨hheight, hall, rfl⟩
  · intro h
    rcases c with ⟨Δ, returns⟩
    rcases h with ⟨hheight, hall, rfl⟩
    exact Stmt.forM_of_allTyped Stmt.check_of_typed hall hheight

theorem Typed.unique {p : Program} {Γ Δ Δ' : Scopes} (h : p.Typed Γ Δ) (h' : p.Typed Γ Δ') :
    Δ = Δ' := by
  have hcheck : p.check p.height ⟨Γ, []⟩ = (.ok (), ⟨Δ, []⟩) :=
    check_eq_ok_iff.mpr ⟨Nat.le_refl _, h, rfl⟩
  have hcheck' : p.check p.height ⟨Γ, []⟩ = (.ok (), ⟨Δ', []⟩) :=
    check_eq_ok_iff.mpr ⟨Nat.le_refl _, h', rfl⟩
  rw [hcheck] at hcheck'
  cases hcheck'
  rfl

/--
A program is accepted, from whatever scopes and by a checker outside of any function, exactly
if the rules allow it and it is not too high, and the scopes are then those that the rules
lead to.  By the rules, an expression has at most one type, and a program leads
to at most one environment.
-/
theorem accepted_iff_typed (p : Program) (Γ : Scopes) :
    (∀ limit, (p.check limit ⟨Γ, []⟩).1 = .ok () ↔ p.height ≤ limit ∧ ∃ Δ, p.Typed Γ Δ) ∧
      (∀ limit c, p.check limit ⟨Γ, []⟩ = (.ok (), c) ↔
        p.height ≤ limit ∧ p.Typed Γ c.scopes ∧ c.returns = []) ∧
      (∀ Δ Δ', p.Typed Γ Δ → p.Typed Γ Δ' → Δ = Δ') ∧
      (∀ Θ e s t, HasType Θ e s → HasType Θ e t → s = t) := by
  refine ⟨?_, ?_, ?_, ?_⟩
  · intro limit
    constructor
    · intro h
      have hcheck := check_eq_ok_iff.mp (Prod.ext h rfl)
      exact ⟨hcheck.1, _, hcheck.2.1⟩
    · intro h
      rcases h with ⟨hheight, Δ, htyped⟩
      have hcheck : p.check limit ⟨Γ, []⟩ = (.ok (), ⟨Δ, []⟩) :=
        check_eq_ok_iff.mpr ⟨hheight, htyped, rfl⟩
      rw [hcheck]
  · intro limit c
    exact check_eq_ok_iff
  · intro Δ Δ' h h'
    exact h.unique h'
  · intro Θ e s t hs ht
    exact hs.unique ht

end Program
end TypedAnt
