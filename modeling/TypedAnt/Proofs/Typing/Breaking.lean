import TypedAnt.Proofs.Typing.Checking
import TypedAnt.Proofs.Typing.Raising

/-!
# The statement that breaks a check

A check that fails does so at one statement, in the checker that the statements before
it have led to: those around it are entered, and their bodies are allowed up to it.  The
rules tell which statement that is.
-/

namespace TypedAnt

inductive Opener where
  | braces
  | function (name : Token) (params : List Param) (returnType : Option Token)

structure Enclosure where
  opener : Opener
  before : List Stmt

theorem Returns.unique {declared : Option Token} {s t : Ty} (hs : Returns declared s)
    (ht : Returns declared t) : s = t := by
  have hresolve := Typing.resolve_eq_ok_iff.mpr hs
  cases hresolve.symm.trans (Typing.resolve_eq_ok_iff.mpr ht)
  rfl

namespace Stmt

/-- What a statement requires by itself, apart from its bodies. -/
def HeadTyped (given : Option Ty) (Γ : Scopes) : Stmt → Prop
  | .funcDef _ _ params returnType _ =>
      ∃ types result, List.Forall₂ (fun p type => Ty.Named p.type.value type) params types ∧
        Returns returnType result
  | .conditional _ condition _ _ | .whileLoop _ condition _ => Condition Γ condition
  | s => ∃ Δ, Typed given Γ s Δ

/-- The check of the statement gets to one of its bodies, and to the given checker there. -/
inductive Enters (c : Checker) : Stmt → Opener → List Stmt → Checker → Prop where
  | function {t name : Token} {params : List Param} {returnType : Option Token}
      {body : Block Stmt} {types : List Ty} {result : Ty} :
      List.Forall₂ (fun p type => Ty.Named p.type.value type) params types →
      Returns returnType result →
      Enters c (.funcDef t name params returnType body) (.function name params returnType)
        body.statements
        ⟨(c.scopes.define name.value (.func types result)).enter.defineAll (params.zip types),
          result :: c.returns⟩
  | thenBody {t : Token} {condition : Expr} {body : Block Stmt} {o : Option (Otherwise Stmt)} :
      Condition c.scopes condition →
      Enters c (.conditional t condition body o) .braces body.statements
        ⟨c.scopes.enter, c.returns⟩
  | elseBody {Δ : Scopes} {t : Token} {condition : Expr} {body other : Block Stmt} :
      Condition c.scopes condition →
      AllTyped c.returns.head? c.scopes.enter body.statements Δ →
      Enters c (.conditional t condition body (some (.block other))) .braces other.statements
        ⟨c.scopes.enter, c.returns⟩
  | whileBody {t : Token} {condition : Expr} {body : Block Stmt} :
      Condition c.scopes condition →
      Enters c (.whileLoop t condition body) .braces body.statements ⟨c.scopes.enter, c.returns⟩

/--
The check of the statement breaks at the statement `failing`, and in the checker `c'`.  The
bodies around `failing` are listed from the outside to the inside.
-/
inductive Breaks : Checker → Stmt → List Enclosure → Stmt → Checker → Prop where
  | itself {c : Checker} {s : Stmt} :
      ¬ s.HeadTyped c.returns.head? c.scopes →
      Breaks c s [] s c
  | elseIf {c c' : Checker} {Δ : Scopes} {t : Token} {condition : Expr} {body : Block Stmt}
      {next failing : Stmt} {trail : List Enclosure} :
      Condition c.scopes condition →
      AllTyped c.returns.head? c.scopes.enter body.statements Δ →
      Breaks c next trail failing c' →
      Breaks c (.conditional t condition body (some (.conditional next))) trail failing c'
  | inside {c d c' : Checker} {Δ : Scopes} {s stmt failing : Stmt} {opener : Opener}
      {before after : List Stmt} {trail : List Enclosure} :
      Enters c s opener (before ++ stmt :: after) d →
      AllTyped d.returns.head? d.scopes before Δ →
      Breaks ⟨Δ, d.returns⟩ stmt trail failing c' →
      Breaks c s (⟨opener, before⟩ :: trail) failing c'

/-- The check of the statements in a row breaks in the one after those in `before`. -/
inductive RunBreaks (c : Checker) :
    List Stmt → List Stmt → List Enclosure → Stmt → Checker → Prop where
  | behind {c' : Checker} {Δ : Scopes} {stmt failing : Stmt} {before after : List Stmt}
      {trail : List Enclosure} :
      AllTyped c.returns.head? c.scopes before Δ →
      Breaks ⟨Δ, c.returns⟩ stmt trail failing c' →
      RunBreaks c (before ++ stmt :: after) before trail failing c'

theorem Enters.breaks {c d c' : Checker} {s failing : Stmt} {opener : Opener}
    {stmts before : List Stmt} {trail : List Enclosure} (h : Enters c s opener stmts d)
    (hrun : RunBreaks d stmts before trail failing c') :
    Breaks c s (⟨opener, before⟩ :: trail) failing c' := by
  cases hrun with
  | behind hbefore hbreaks => exact .inside h hbefore hbreaks

open Typing CheckM

/-!
# Failed checks

What the rules ask of the statements that have no bodies.
-/

section Values

variable {given : Option Ty} {Γ Δ : Scopes} {t name : Token} {value : Expr}

theorem Typed.of_letBinding {declared : Option Token}
    (h : Typed given Γ (.letBinding t name declared value) Δ) :
    ∃ actual, HasType Γ value actual ∧
      ∀ token ∈ declared, ∃ type, Ty.Named token.value type ∧ type.Accepts actual := by
  cases h with
  | letInferred htype => exact ⟨_, htype, by simp⟩
  | letDeclared htype hnamed haccepts =>
      refine ⟨_, htype, ?_⟩
      intro token htoken
      cases htoken
      exact ⟨_, hnamed, haccepts⟩

theorem Typed.of_assign (h : Typed given Γ (.assign t name value) Δ) :
    ∃ actual, HasType Γ value actual ∧
      ∀ type, Γ.Binds name.value type → type.Accepts actual := by
  cases h with
  | assignBound htype hbinds haccepts =>
      refine ⟨_, htype, ?_⟩
      intro type hbinds'
      rw [hbinds'.unique hbinds]
      exact haccepts
  | assignUnbound htype hunbound =>
      refine ⟨_, htype, ?_⟩
      intro type hbinds
      exact absurd hunbound hbinds.not_unbound

theorem Typed.of_expr (h : Typed given Γ (.expr t value) Δ) : ∃ type, HasType Γ value type := by
  cases h with
  | expr htype => exact ⟨_, htype⟩

end Values

section Failures

variable {root : Token} {depth : Nat} {error : TypeError} {c c' : Checker} {s : Stmt}
  {stmts : List Stmt}

/-- The statement that breaks the check fails by itself, and changes nothing in doing so. -/
def FailsItself (root : Token) (error : TypeError) (failing : Stmt) (c : Checker) : Prop :=
  ∃ depth, Raises (failing.check root depth) c error c

theorem runBreaks_of_forM
    (h : ∀ {s c}, Raises (s.check root depth) c error c' →
      ∃ trail failing, Breaks c s trail failing c' ∧ failing.FailsItself root error c')
    (hforM : Raises (stmts.forM (check root depth)) c error c') :
    ∃ before trail failing, RunBreaks c stmts before trail failing c' ∧
      failing.FailsItself root error c' := by
  rcases c with ⟨Γ, returns⟩
  rcases raises_forM hforM with ⟨before, stmt, after, d, rfl, hbefore, hstmt⟩
  rcases allTyped_of_forM typed_of_check hbefore with ⟨_, Δ, hall, rfl⟩
  rcases h hstmt with ⟨trail, failing, hbreaks, hfails⟩
  exact ⟨before, trail, failing, .behind hall hbreaks, hfails⟩

theorem breaks_of_body {d : Checker} {opener : Opener} (henters : Enters c s opener stmts d)
    (h : ∀ {s c}, Raises (s.check root depth) c error c' →
      ∃ trail failing, Breaks c s trail failing c' ∧ failing.FailsItself root error c')
    (hforM : Raises (stmts.forM (check root depth)) d error c') :
    ∃ trail failing, Breaks c s trail failing c' ∧ failing.FailsItself root error c' := by
  rcases runBreaks_of_forM h hforM with ⟨before, trail, failing, hrun, hfails⟩
  exact ⟨⟨opener, before⟩ :: trail, failing, henters.breaks hrun, hfails⟩

/-!
A statement without bodies that fails is at fault by itself, and has changed nothing.
-/

theorem letBinding_at_fault {t name : Token} {declared : Option Token} {value : Expr}
    (hcause : error.cause ≠ .nestingTooDeep)
    (h : Raises ((Stmt.letBinding t name declared value).check root (depth + 1)) c error c') :
    c' = c ∧ ¬ (Stmt.letBinding t name declared value).HeadTyped c.returns.head? c.scopes := by
  rcases raises_typeOf_bind hcause h with ⟨hnone, heq⟩ | ⟨actual, htype, hrest⟩
  · refine ⟨heq, ?_⟩
    intro hhead
    rcases hhead with ⟨Δ, htyped⟩
    rcases htyped.of_letBinding with ⟨actual, htype, _⟩
    exact hnone actual htype
  · cases declared with
    | none => exact absurd hrest not_raises_modify
    | some token =>
        rcases raises_attempt_bind hrest with ⟨hunknown, heq⟩ | ⟨type, hnamed, hrest⟩
        · refine ⟨heq, ?_⟩
          intro hhead
          rcases hhead with ⟨Δ, htyped⟩
          rcases htyped.of_letBinding with ⟨_, _, hdeclared⟩
          rcases hdeclared token rfl with ⟨type, hnamed, _⟩
          exact not_returns_of_resolve hunknown (.named hnamed)
        · rcases raises_attempt_bind hrest with ⟨hrefused, heq⟩ | ⟨_, _, hdefine⟩
          · refine ⟨heq, ?_⟩
            intro hhead
            rcases hhead with ⟨Δ, htyped⟩
            rcases htyped.of_letBinding with ⟨_, hactual, hdeclared⟩
            rcases hdeclared token rfl with ⟨_, hnamed', haccepts⟩
            cases htype.unique hactual
            cases hnamed.symm.trans (resolve_some_eq_ok_iff.mpr hnamed')
            exact not_accepts_of_expect hrefused haccepts
          · exact absurd hdefine not_raises_modify

theorem assign_at_fault {t name : Token} {value : Expr} (hcause : error.cause ≠ .nestingTooDeep)
    (h : Raises ((Stmt.assign t name value).check root (depth + 1)) c error c') :
    c' = c ∧ ¬ (Stmt.assign t name value).HeadTyped c.returns.head? c.scopes := by
  rcases raises_typeOf_bind hcause h with ⟨hnone, heq⟩ | ⟨actual, htype, hrest⟩
  · refine ⟨heq, ?_⟩
    intro hhead
    rcases hhead with ⟨Δ, htyped⟩
    rcases htyped.of_assign with ⟨actual, htype, _⟩
    exact hnone actual htype
  · have hmatch := raises_get_bind hrest
    split at hmatch
    · exact absurd hmatch not_raises_modify
    · rename_i existing hlookup
      split at hmatch
      · exact absurd hmatch not_raises_pure
      · rename_i hrefused
        refine ⟨(raises_throw hmatch).2, ?_⟩
        intro hhead
        rcases hhead with ⟨Δ, htyped⟩
        rcases htyped.of_assign with ⟨_, hactual, haccepts⟩
        cases htype.unique hactual
        have hbinds := Scopes.lookup_eq_some_iff.mp hlookup
        exact hrefused (Ty.assignable_iff.mpr (haccepts existing hbinds))

theorem giveBack_at_fault {t : Token} {value : Option Expr}
    (hcause : error.cause ≠ .nestingTooDeep)
    (h : Raises ((Stmt.giveBack t value).check root (depth + 1)) c error c') :
    c' = c ∧ ¬ (Stmt.giveBack t value).HeadTyped c.returns.head? c.scopes := by
  rcases c with ⟨Γ, returns⟩
  have hmatch := raises_get_bind h
  cases returns with
  | nil =>
      refine ⟨(raises_throw hmatch).2, ?_⟩
      intro hhead
      rcases hhead with ⟨Δ, htyped⟩
      cases htyped
  | cons result outer =>
      cases value with
      | none =>
          rcases raises_attempt hmatch with ⟨hrefused, heq⟩
          refine ⟨heq, ?_⟩
          intro hhead
          rcases hhead with ⟨Δ, htyped⟩
          cases htyped with
          | giveNothing haccepts => exact not_accepts_of_expect hrefused haccepts
      | some e =>
          rcases raises_typeOf_bind hcause hmatch with ⟨hnone, heq⟩ | ⟨type, htype, hrest⟩
          · refine ⟨heq, ?_⟩
            intro hhead
            rcases hhead with ⟨Δ, htyped⟩
            cases htyped with
            | giveBack htype _ => exact hnone _ htype
          · rcases raises_attempt hrest with ⟨hrefused, heq⟩
            refine ⟨heq, ?_⟩
            intro hhead
            rcases hhead with ⟨Δ, htyped⟩
            cases htyped with
            | giveBack hactual haccepts =>
                cases htype.unique hactual
                exact not_accepts_of_expect hrefused haccepts

theorem expr_at_fault {t : Token} {value : Expr} (hcause : error.cause ≠ .nestingTooDeep)
    (h : Raises ((Stmt.expr t value).check root (depth + 1)) c error c') :
    c' = c ∧ ¬ (Stmt.expr t value).HeadTyped c.returns.head? c.scopes := by
  rcases raises_typeOf_bind hcause h with ⟨hnone, heq⟩ | ⟨type, _, hpure⟩
  · refine ⟨heq, ?_⟩
    intro hhead
    rcases hhead with ⟨Δ, htyped⟩
    rcases htyped.of_expr with ⟨type, htype⟩
    exact hnone type htype
  · exact absurd hpure not_raises_pure

theorem breaks_of_check (hcause : error.cause ≠ .nestingTooDeep)
    (h : Raises (s.check root depth) c error c') :
    ∃ trail failing, Breaks c s trail failing c' ∧ failing.FailsItself root error c' := by
  induction depth generalizing s c with
  | zero =>
      cases (raises_throw h).1
      exact absurd rfl hcause
  | succ depth ih =>
      have hself : c' = c ∧ ¬ s.HeadTyped c.returns.head? c.scopes →
          ∃ trail failing, Breaks c s trail failing c' ∧ failing.FailsItself root error c' := by
        intro hfault
        rcases hfault with ⟨rfl, hhead⟩
        exact ⟨[], s, .itself hhead, depth + 1, h⟩
      cases s with
      | letBinding t name declared value => exact hself (letBinding_at_fault hcause h)
      | assign t name value => exact hself (assign_at_fault hcause h)
      | funcDef t name params returnType body =>
          rcases raises_attempt_bind h with ⟨hunknown, heq⟩ | ⟨types, hnamed, hrest⟩
          · apply hself
            refine ⟨heq, ?_⟩
            intro hhead
            rcases hhead with ⟨types, result, hnamed, _⟩
            exact not_named_of_mapM_resolve hunknown hnamed
          · rcases raises_attempt_bind hrest with ⟨hunknown, heq⟩ | ⟨result, hreturns, hrest⟩
            · apply hself
              refine ⟨heq, ?_⟩
              intro hhead
              rcases hhead with ⟨types, result, _, hreturns⟩
              exact not_returns_of_resolve hunknown hreturns
            · rcases raises_bind hrest with hdefine | ⟨_, d, hdefine, hbody⟩
              · exact absurd hdefine not_raises_modify
              · cases gives_define_iff.mp hdefine
                rcases raises_bind (raises_inScope hbody) with hparams | ⟨_, d, hparams, hbody⟩
                · exact absurd hparams not_raises_defineAll
                · cases gives_defineAll_iff.mp hparams
                  exact breaks_of_body (.function (mapM_resolve_eq_ok_iff.mp hnamed)
                    (resolve_eq_ok_iff.mp hreturns)) ih (raises_inFunction hbody)
      | conditional t condition body otherwise =>
          rcases raises_condition hcause h with ⟨hhead, heq⟩ | ⟨hcondition, hrest⟩
          · exact hself ⟨heq, hhead⟩
          · rcases raises_bind hrest with hbody | ⟨_, d, hbody, hother⟩
            · exact breaks_of_body (.thenBody hcondition) ih (raises_inScope hbody)
            · rcases allTyped_of_block typed_of_check hbody with ⟨_, ⟨Δ, hall⟩, rfl⟩
              cases otherwise with
              | none => exact absurd hother not_raises_pure
              | some otherwise =>
                  cases otherwise with
                  | block other =>
                      exact breaks_of_body (.elseBody hcondition hall) ih (raises_inScope hother)
                  | conditional next =>
                      rcases ih hother with ⟨trail, failing, hbreaks, hfails⟩
                      exact ⟨trail, failing, .elseIf hcondition hall hbreaks, hfails⟩
      | whileLoop t condition body =>
          rcases raises_condition hcause h with ⟨hhead, heq⟩ | ⟨hcondition, hbody⟩
          · exact hself ⟨heq, hhead⟩
          · exact breaks_of_body (.whileBody hcondition) ih (raises_inScope hbody)
      | giveBack t value => exact hself (giveBack_at_fault hcause h)
      | expr t value => exact hself (expr_at_fault hcause h)

end Failures

/-!
# One statement breaks a check

A statement that is allowed does not break the check, and of the others only the first one
in each body does.
-/

section Uniqueness

variable {given : Option Ty} {Γ Δ Δ' : Scopes} {returns : List Ty} {c c' c'' d d' : Checker}
  {s failing failing' : Stmt} {stmts stmts' before before' : List Stmt} {opener opener' : Opener}
  {trail trail' : List Enclosure}

theorem named_unique {params : List Param} {types types' : List Ty}
    (h : List.Forall₂ (fun p type => Ty.Named p.type.value type) params types)
    (h' : List.Forall₂ (fun p type => Ty.Named p.type.value type) params types') :
    types = types' := by
  have hresolve := mapM_resolve_eq_ok_iff.mpr h
  cases hresolve.symm.trans (mapM_resolve_eq_ok_iff.mpr h')
  rfl

theorem AllTyped.unique (h : AllTyped returns.head? Γ stmts Δ)
    (h' : AllTyped returns.head? Γ stmts Δ') : Δ = Δ' := by
  let root : Token := ⟨.eof, "", 0, 0⟩
  have hcheck : Gives (stmts.forM (check root (heights stmts))) ⟨Γ, returns⟩ () ⟨Δ, returns⟩ :=
    forM_of_allTyped check_of_typed h (Nat.le_refl _)
  have hcheck' : Gives (stmts.forM (check root (heights stmts))) ⟨Γ, returns⟩ () ⟨Δ', returns⟩ :=
    forM_of_allTyped check_of_typed h' (Nat.le_refl _)
  cases hcheck.symm.trans hcheck'
  rfl

theorem AllTyped.split {rest : List Stmt} (h : AllTyped given Γ (before ++ rest) Δ) :
    ∃ Θ, AllTyped given Γ before Θ ∧ AllTyped given Θ rest Δ := by
  induction before generalizing Γ with
  | nil => exact ⟨Γ, .nil, h⟩
  | cons s before ih =>
      cases h with
      | cons hs hrest =>
          rcases ih hrest with ⟨Θ, hbefore, hafter⟩
          exact ⟨Θ, .cons hs hbefore, hafter⟩

theorem Typed.headTyped (h : Typed given Γ s Δ) : s.HeadTyped given Γ := by
  cases h with
  | funcDef hnamed hreturns _ => exact ⟨_, _, hnamed, hreturns⟩
  | conditional hcondition _ => exact hcondition
  | conditionalBlock hcondition _ _ => exact hcondition
  | conditionalChain hcondition _ _ => exact hcondition
  | whileLoop hcondition _ => exact hcondition
  | letInferred htype => exact ⟨_, .letInferred htype⟩
  | letDeclared htype hnamed haccepts => exact ⟨_, .letDeclared htype hnamed haccepts⟩
  | assignBound htype hbinds haccepts => exact ⟨_, .assignBound htype hbinds haccepts⟩
  | assignUnbound htype hunbound => exact ⟨_, .assignUnbound htype hunbound⟩
  | giveNothing haccepts => exact ⟨_, .giveNothing haccepts⟩
  | giveBack htype haccepts => exact ⟨_, .giveBack htype haccepts⟩
  | expr htype => exact ⟨_, .expr htype⟩

theorem Enters.headTyped (h : Enters c s opener stmts d) :
    s.HeadTyped c.returns.head? c.scopes := by
  cases h with
  | function hnamed hreturns => exact ⟨_, _, hnamed, hreturns⟩
  | thenBody hcondition => exact hcondition
  | elseBody hcondition _ => exact hcondition
  | whileBody hcondition => exact hcondition

theorem Typed.of_enters (h : Typed c.returns.head? c.scopes s Δ)
    (henters : Enters c s opener stmts d) :
    ∃ Θ, AllTyped d.returns.head? d.scopes stmts Θ := by
  generalize hgiven : c.returns.head? = given at h
  cases henters with
  | function hnamed hreturns =>
      cases h with
      | funcDef hnamed' hreturns' hall =>
          cases named_unique hnamed hnamed'
          cases hreturns.unique hreturns'
          exact ⟨_, hall⟩
  | thenBody _ =>
      cases h with
      | conditional _ hall => exact ⟨_, hgiven ▸ hall⟩
      | conditionalBlock _ hall _ => exact ⟨_, hgiven ▸ hall⟩
      | conditionalChain _ hall _ => exact ⟨_, hgiven ▸ hall⟩
  | elseBody _ _ =>
      cases h with
      | conditionalBlock _ _ hall => exact ⟨_, hgiven ▸ hall⟩
  | whileBody _ =>
      cases h with
      | whileLoop _ hall => exact ⟨_, hgiven ▸ hall⟩

theorem Typed.of_elseIf {t : Token} {condition : Expr} {body : Block Stmt} {next : Stmt}
    (h : Typed given Γ (.conditional t condition body (some (.conditional next))) Δ) :
    Typed given Γ next Δ := by
  cases h with
  | conditionalChain _ _ hnext => exact hnext

theorem Breaks.not_typed (h : Breaks c s trail failing c') (Δ : Scopes) :
    ¬ Typed c.returns.head? c.scopes s Δ := by
  induction h generalizing Δ with
  | itself hhead =>
      intro htyped
      exact hhead htyped.headTyped
  | elseIf _ _ _ ih =>
      intro htyped
      exact ih Δ htyped.of_elseIf
  | inside henters hbefore _ ih =>
      intro htyped
      rcases htyped.of_enters henters with ⟨Θ, hall⟩
      rcases hall.split with ⟨Θ', hbefore', hrest⟩
      cases hbefore.unique hbefore'
      cases hrest with
      | cons hstmt _ => exact ih _ hstmt

theorem RunBreaks.not_allTyped (h : RunBreaks c stmts before trail failing c') (Δ : Scopes) :
    ¬ AllTyped c.returns.head? c.scopes stmts Δ := by
  intro hall
  cases h with
  | behind hbefore hbreaks =>
      rcases hall.split with ⟨Θ, hbefore', hrest⟩
      cases hbefore.unique hbefore'
      cases hrest with
      | cons hstmt _ => exact hbreaks.not_typed _ hstmt

theorem Enters.unique (h : Enters c s opener stmts d) (h' : Enters c s opener' stmts' d') :
    (opener' = opener ∧ stmts' = stmts ∧ d' = d) ∨
      (∃ Θ, AllTyped d.returns.head? d.scopes stmts Θ) ∨
      ∃ Θ, AllTyped d'.returns.head? d'.scopes stmts' Θ := by
  cases h with
  | function hnamed hreturns =>
      cases h' with
      | function hnamed' hreturns' =>
          cases named_unique hnamed hnamed'
          cases hreturns.unique hreturns'
          exact Or.inl ⟨rfl, rfl, rfl⟩
  | thenBody _ =>
      cases h' with
      | thenBody _ => exact Or.inl ⟨rfl, rfl, rfl⟩
      | elseBody _ hall => exact Or.inr (Or.inl ⟨_, hall⟩)
  | elseBody _ hall =>
      cases h' with
      | thenBody _ => exact Or.inr (Or.inr ⟨_, hall⟩)
      | elseBody _ _ => exact Or.inl ⟨rfl, rfl, rfl⟩
  | whileBody _ =>
      cases h' with
      | whileBody _ => exact Or.inl ⟨rfl, rfl, rfl⟩

theorem RunBreaks.prefix_before (h : RunBreaks c stmts before trail failing c')
    {rest : List Stmt} (hstmts : stmts = before' ++ rest)
    (hall : AllTyped c.returns.head? c.scopes before' Δ) : before' <+: before := by
  cases h with
  | behind hbefore hbreaks =>
      rcases List.append_eq_append_iff.mp hstmts with ⟨more, rfl, hmore⟩ | ⟨more, rfl, _⟩
      · cases more with
        | nil => exact ⟨[], by simp⟩
        | cons stmt more =>
            cases hmore
            exact absurd hall ((RunBreaks.behind hbefore hbreaks).not_allTyped Δ)
      · exact List.prefix_append before' more

theorem RunBreaks.before_unique (h : RunBreaks c stmts before trail failing c')
    (h' : RunBreaks c stmts before' trail' failing' c'') : before' = before := by
  generalize hstmts : stmts = stmts' at h'
  cases h' with
  | behind hbefore' hbreaks' =>
      have hle := h.prefix_before hstmts hbefore'
      cases h with
      | behind hbefore hbreaks =>
          have hge := (RunBreaks.behind hbefore' hbreaks').prefix_before hstmts.symm hbefore
          exact hle.eq_of_length_le hge.length_le

/-- After `else if`, the body before it does not break the check. -/
theorem RunBreaks.not_elseIf {t : Token} {condition : Expr} {body : Block Stmt} {next : Stmt}
    (h : RunBreaks d stmts before trail failing c')
    (henters : Enters c (.conditional t condition body (some (.conditional next))) opener stmts d) :
    ¬ AllTyped c.returns.head? c.scopes.enter body.statements Δ := by
  cases henters with
  | thenBody _ => exact h.not_allTyped Δ

theorem Breaks.unique (h : Breaks c s trail failing c') (h' : Breaks c s trail' failing' c'') :
    trail' = trail ∧ failing' = failing ∧ c'' = c' := by
  induction h generalizing trail' failing' c'' with
  | itself hhead =>
      cases h' with
      | itself _ => exact ⟨rfl, rfl, rfl⟩
      | elseIf hcondition _ _ => exact absurd hcondition hhead
      | inside henters _ _ => exact absurd henters.headTyped hhead
  | elseIf hcondition hall _ ih =>
      cases h' with
      | itself hhead => exact absurd hcondition hhead
      | elseIf _ _ hbreaks => exact ih hbreaks
      | inside henters hbefore hbreaks =>
          exact absurd hall ((RunBreaks.behind hbefore hbreaks).not_elseIf henters)
  | @inside _ d _ _ _ stmt _ _ before after _ henters hbefore hbreaks ih =>
      have hrun : RunBreaks d (before ++ stmt :: after) _ _ _ _ := .behind hbefore hbreaks
      cases h' with
      | itself hhead => exact absurd henters.headTyped hhead
      | elseIf _ hall _ => exact absurd hall (hrun.not_elseIf henters)
      | @inside _ d' _ _ _ stmt' _ _ before' after' _ henters' hbefore' hbreaks' =>
          have hrun' : RunBreaks d' (before' ++ stmt' :: after') _ _ _ _ :=
            .behind hbefore' hbreaks'
          rcases henters.unique henters' with ⟨rfl, hstmts, rfl⟩ | ⟨Θ, hall⟩ | ⟨Θ, hall⟩
          · cases hrun.before_unique (hstmts ▸ hrun')
            cases List.append_cancel_left hstmts
            cases hbefore.unique hbefore'
            rcases ih hbreaks' with ⟨rfl, rfl, rfl⟩
            exact ⟨rfl, rfl, rfl⟩
          · exact absurd hall (hrun.not_allTyped Θ)
          · exact absurd hall (hrun'.not_allTyped Θ)

theorem RunBreaks.unique (h : RunBreaks c stmts before trail failing c')
    (h' : RunBreaks c stmts before' trail' failing' c'') :
    before' = before ∧ trail' = trail ∧ failing' = failing ∧ c'' = c' := by
  cases h.before_unique h'
  generalize hstmts : stmts = stmts' at h'
  cases h' with
  | behind hbefore' hbreaks' =>
      cases h with
      | behind hbefore hbreaks =>
          cases List.append_cancel_left hstmts
          cases hbefore.unique hbefore'
          exact ⟨rfl, hbreaks.unique hbreaks'⟩

end Uniqueness
end Stmt
end TypedAnt
