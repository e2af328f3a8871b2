import TypedAnt.Proofs.Typing.Running

/-!
# Failing a check

When the steps that checks are built from fail, and how they leave the checker then.  An
expression that has a type fails at the nesting limit at most, so that any other
failure is one of the typing rules.
-/

namespace TypedAnt

open Typing

/-!
# Types that are required or named
-/

namespace Typing

variable {error : TypeError}

theorem not_accepts_of_expect {t : Token} {expected actual : Ty}
    (h : expect t expected actual = .error error) : ¬ expected.Accepts actual := by
  intro haccepts
  have hok : expect t expected actual = .ok () := expect_eq_ok_iff.mpr haccepts
  cases h.symm.trans hok

theorem not_returns_of_resolve {declared : Option Token} {type : Ty}
    (h : resolve declared = .error error) : ¬ Returns declared type := by
  intro hreturns
  cases h.symm.trans (resolve_eq_ok_iff.mpr hreturns)

theorem not_named_of_mapM_resolve {params : List Param} {types : List Ty}
    (h : params.mapM (fun p => resolve (some p.type)) = .error error) :
    ¬ List.Forall₂ (fun p type => Ty.Named p.type.value type) params types := by
  intro hnamed
  cases h.symm.trans (mapM_resolve_eq_ok_iff.mpr hnamed)

end Typing

/-!
# Expressions
-/

theorem Typing.checkArgs_of_suits_limited {Γ : Scopes} {infer : Expr → Except TypeError Ty}
    {limited : TypeError} {args : List Expr} {params : List Ty}
    (h : ∀ e type, HasType Γ e type → infer e = .ok type ∨ infer e = .error limited)
    (hsuits : Suits Γ args params) :
    args.length = params.length ∧
      (checkArgs infer args params = .ok () ∨ checkArgs infer args params = .error limited) := by
  induction args generalizing params with
  | nil =>
      cases hsuits
      exact ⟨rfl, Or.inl rfl⟩
  | cons arg args ih =>
      cases hsuits with
      | cons htype haccepts hargs =>
          rcases ih hargs with ⟨hlength, hcheck⟩
          refine ⟨congrArg Nat.succ hlength, ?_⟩
          rw [checkArgs]
          rcases h arg _ htype with hok | herror
          · have hexpect : expect arg.token _ _ = .ok () := expect_eq_ok_iff.mpr haccepts
            rw [hok]
            dsimp only [bind, Except.bind]
            rw [hexpect]
            exact hcheck
          · rw [herror]
            exact Or.inr rfl

namespace Expr

variable {root : Token} {Γ : Scopes} {e : Expr} {type : Ty} {depth : Nat}

theorem infer_of_hasType_limited (h : HasType Γ e type) (depth : Nat) :
    e.infer root Γ depth = .ok type ∨
      e.infer root Γ depth = .error ⟨root, .nestingTooDeep⟩ := by
  induction depth generalizing e type with
  | zero => exact Or.inr rfl
  | succ depth ih =>
      cases h with
      | intLit => exact Or.inl rfl
      | floatLit => exact Or.inl rfl
      | stringLit => exact Or.inl rfl
      | boolLit => exact Or.inl rfl
      | name hbinds =>
          rw [infer, Scopes.lookup_eq_some_iff.mpr hbinds]
          exact Or.inl rfl
      | unary htype hyields =>
          rw [infer]
          rcases ih htype with hok | herror
          · rw [hok]
            dsimp only [bind, Except.bind]
            rw [UnaryOp.result?_eq_some_iff.mpr hyields]
            exact Or.inl rfl
          · rw [herror]
            exact Or.inr rfl
      | binary hleft hright hyields =>
          rw [infer]
          rcases ih hleft with hok | herror
          · rw [hok]
            rcases ih hright with hok | herror
            · rw [hok]
              dsimp only [bind, Except.bind]
              rw [BinaryOp.result?_eq_some_iff.mpr hyields]
              exact Or.inl rfl
            · rw [herror]
              exact Or.inr rfl
          · rw [herror]
            exact Or.inr rfl
      | call hcallee htakes hsuits =>
          rcases checkArgs_of_suits_limited (fun _ _ htype => ih htype) hsuits with
            ⟨hlength, hcheck⟩
          rw [infer]
          rcases ih hcallee with hok | herror
          · rw [hok]
            dsimp only [bind, Except.bind]
            rw [Ty.signature?_eq_some_iff.mpr htakes]
            dsimp only
            rw [if_pos hlength]
            rcases hcheck with hok | herror
            · rw [hok]
              exact Or.inl rfl
            · rw [herror]
              exact Or.inr rfl
          · rw [herror]
            exact Or.inr rfl

theorem not_hasType_of_infer {error : TypeError} (h : e.infer root Γ depth = .error error)
    (hcause : error.cause ≠ .nestingTooDeep) : ¬ HasType Γ e type := by
  intro htype
  rcases infer_of_hasType_limited htype depth with hok | herror
  · cases h.symm.trans hok
  · cases h.symm.trans herror
    exact hcause rfl

end Expr

/-!
# Steps of a check
-/

namespace CheckM

variable {α β : Type} {root : Token} {depth : Nat} {c c' : Checker} {error : TypeError}

/-- The check fails from `c` with an error, and leaves the checker `c'`. -/
def Raises (x : CheckM α) (c : Checker) (error : TypeError) (c' : Checker) : Prop :=
  x.run.run c = (.error error, c')

theorem not_raises_pure {a : α} : ¬ Raises (pure a) c error c' := by
  intro h
  cases h

theorem raises_throw {thrown : TypeError} (h : Raises (throw thrown : CheckM α) c error c') :
    error = thrown ∧ c' = c := by
  cases h
  exact ⟨rfl, rfl⟩

theorem raises_attempt {x : Except TypeError α} (h : Raises (attempt x) c error c') :
    x = .error error ∧ c' = c := by
  cases h
  exact ⟨rfl, rfl⟩

theorem not_raises_modify {f : Checker → Checker} :
    ¬ Raises (modify f : CheckM PUnit) c error c' := by
  intro h
  cases h

/-- A check in two steps fails in the first one, or in the second one from where the first led. -/
theorem raises_bind {x : CheckM α} {f : α → CheckM β} (h : Raises (x >>= f) c error c') :
    Raises x c error c' ∨ ∃ a d, Gives x c a d ∧ Raises (f a) d error c' := by
  unfold Raises at h
  rw [ExceptT.run_bind, StateT.run_bind] at h
  unfold Raises Gives
  cases hrun : x.run.run c with
  | mk outcome d =>
      rw [hrun] at h
      cases outcome with
      | error thrown =>
          cases h
          exact Or.inl rfl
      | ok a => exact Or.inr ⟨a, d, rfl, h⟩

theorem raises_attempt_bind {x : Except TypeError α} {f : α → CheckM β}
    (h : Raises (attempt x >>= f) c error c') :
    x = .error error ∧ c' = c ∨ ∃ a, x = .ok a ∧ Raises (f a) c error c' := by
  rcases raises_bind h with hfirst | ⟨a, d, hfirst, hsecond⟩
  · exact Or.inl (raises_attempt hfirst)
  · rcases gives_attempt_iff.mp hfirst with ⟨hx, rfl⟩
    exact Or.inr ⟨a, hx, hsecond⟩

theorem raises_get_bind {f : Checker → CheckM β} (h : Raises (get >>= f) c error c') :
    Raises (f c) c error c' :=
  h

theorem raises_typeOf {e : Expr} {f : Ty → CheckM β}
    (h : Raises (typeOf root depth e >>= f) c error c') :
    e.infer root c.scopes depth = .error error ∧ c' = c ∨
      ∃ type, HasType c.scopes e type ∧ Raises (f type) c error c' := by
  have hlook : Raises (attempt (e.infer root c.scopes depth) >>= f) c error c' := h
  rcases raises_attempt_bind hlook with hinfer | ⟨type, hinfer, hrest⟩
  · exact Or.inl hinfer
  · exact Or.inr ⟨type, (Expr.infer_eq_ok_iff.mp hinfer).2, hrest⟩

theorem raises_typeOf_bind {e : Expr} {f : Ty → CheckM β} (hcause : error.cause ≠ .nestingTooDeep)
    (h : Raises (typeOf root depth e >>= f) c error c') :
    (∀ type, ¬ HasType c.scopes e type) ∧ c' = c ∨
      ∃ type, HasType c.scopes e type ∧ Raises (f type) c error c' := by
  rcases raises_typeOf h with ⟨hinfer, rfl⟩ | hrest
  · exact Or.inl ⟨fun type => Expr.not_hasType_of_infer hinfer hcause, rfl⟩
  · exact Or.inr hrest

theorem raises_condition {e : Expr} {rest : CheckM Unit} (hcause : error.cause ≠ .nestingTooDeep)
    (h : Raises (do
      let type ← typeOf root depth e
      attempt (expect e.token .bool type)
      rest) c error c') :
    ¬ Condition c.scopes e ∧ c' = c ∨ Condition c.scopes e ∧ Raises rest c error c' := by
  rcases raises_typeOf_bind hcause h with ⟨hnone, rfl⟩ | ⟨type, htype, hexpect⟩
  · apply Or.inl
    refine ⟨?_, rfl⟩
    intro hcondition
    rcases hcondition with ⟨type, htype, _⟩
    exact hnone type htype
  · rcases raises_attempt_bind hexpect with ⟨hrefused, rfl⟩ | ⟨_, haccepts, hrest⟩
    · apply Or.inl
      refine ⟨?_, rfl⟩
      intro hcondition
      rcases hcondition with ⟨other, hother, haccepts⟩
      cases htype.unique hother
      exact not_accepts_of_expect hrefused haccepts
    · exact Or.inr ⟨⟨type, htype, expect_eq_ok_iff.mp haccepts⟩, hrest⟩

/-- At the nesting limit a condition may fail that holds, but then too nothing has changed. -/
theorem raises_guarded {e : Expr} {rest : CheckM Unit}
    (h : Raises (do
      let type ← typeOf root depth e
      attempt (expect e.token .bool type)
      rest) c error c') :
    c' = c ∨ Condition c.scopes e ∧ Raises rest c error c' := by
  rcases raises_typeOf h with ⟨_, heq⟩ | ⟨type, htype, hexpect⟩
  · exact Or.inl heq
  · rcases raises_attempt_bind hexpect with ⟨_, heq⟩ | ⟨_, haccepts, hrest⟩
    · exact Or.inl heq
    · exact Or.inr ⟨⟨type, htype, expect_eq_ok_iff.mp haccepts⟩, hrest⟩

/-!
What is opened before a body stays open when the body fails.
-/

theorem raises_around {before after : Checker → Checker} {body : CheckM Unit}
    (h : Raises (do modify before; body; modify after) c error c') :
    Raises body (before c) error c' := by
  rcases raises_bind h with hopen | ⟨_, d, hopen, hrest⟩
  · exact absurd hopen not_raises_modify
  · cases gives_modify_iff.mp hopen
    rcases raises_bind hrest with hbody | ⟨_, _, _, hclose⟩
    · exact hbody
    · exact absurd hclose not_raises_modify

theorem raises_inScope {body : CheckM Unit} (h : Raises (inScope body) c error c') :
    Raises body { c with scopes := c.scopes.enter } error c' :=
  raises_around h

theorem raises_inFunction {result : Ty} {body : CheckM Unit}
    (h : Raises (inFunction result body) c error c') :
    Raises body { c with returns := result :: c.returns } error c' :=
  raises_around h

theorem raises_forM {f : α → CheckM PUnit} {xs : List α} (h : Raises (xs.forM f) c error c') :
    ∃ before x after d, xs = before ++ x :: after ∧ Gives (before.forM f) c () d ∧
      Raises (f x) d error c' := by
  induction xs generalizing c with
  | nil => exact absurd h not_raises_pure
  | cons x xs ih =>
      rcases raises_bind h with hfirst | ⟨_, d, hfirst, hrest⟩
      · exact ⟨[], x, xs, c, rfl, gives_pure_iff.mpr ⟨rfl, rfl⟩, hfirst⟩
      · rcases ih hrest with ⟨before, y, after, d', rfl, hbefore, hy⟩
        exact ⟨x :: before, y, after, d', rfl, gives_forM_cons_iff.mpr ⟨d, hfirst, hbefore⟩, hy⟩

theorem not_raises_defineAll {bindings : List (Param × Ty)} :
    ¬ Raises (bindings.forM fun (p, type) => define p.name type) c error c' := by
  intro h
  rcases raises_forM h with ⟨_, _, _, _, _, _, hdefine⟩
  exact not_raises_modify hdefine

end CheckM
end TypedAnt
