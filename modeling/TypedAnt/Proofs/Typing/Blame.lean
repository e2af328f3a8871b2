import TypedAnt.Proofs.Program.Tokens
import TypedAnt.Typing

/-!
# The tokens that type errors stand at

A type error stands at a token of the tree that is checked, or at the token of the whole
program if the tree is nested too deeply.
-/

namespace TypedAnt

variable {α β : Type} {S : Token → Prop} {root : Token}

/-!
# Computations that blame tokens of a set
-/

def Blames (S : Token → Prop) (x : Except TypeError α) : Prop :=
  ∀ e, x = .error e → S e.token

namespace Blames

theorem ok (a : α) : Blames S (.ok a : Except TypeError α) := by
  intro e h
  cases h

theorem error {t : Token} {cause : TypeError.Cause} (h : S t) :
    Blames S (.error ⟨t, cause⟩ : Except TypeError α) := by
  intro e heq
  cases heq
  exact h

theorem bind {x : Except TypeError α} {f : α → Except TypeError β} (hx : Blames S x)
    (hf : ∀ a, Blames S (f a)) : Blames S (x >>= f) := by
  intro e h
  cases x with
  | error e' =>
      cases h
      exact hx e rfl
  | ok a => exact hf a e h

theorem mapM {f : α → Except TypeError β} {xs : List α} (h : ∀ x ∈ xs, Blames S (f x)) :
    Blames S (xs.mapM f) := by
  induction xs with
  | nil => exact ok []
  | cons x xs ih =>
      rw [List.mapM_cons]
      apply (h x List.mem_cons_self).bind
      intro y
      apply (ih fun x' hmem => h x' (List.mem_cons_of_mem _ hmem)).bind
      intro ys
      exact ok (y :: ys)

end Blames

/-!
# Expressions
-/

namespace Typing

theorem blames_expect {t : Token} (h : S t) (expected actual : Ty) :
    Blames S (expect t expected actual) := by
  unfold expect
  split
  · exact .ok ()
  · exact .error h

theorem blames_resolve {declared : Option Token} (h : ∀ type ∈ declared, S type) :
    Blames S (resolve declared) := by
  cases declared with
  | none => exact .ok _
  | some t =>
      rw [resolve]
      split
      · exact .ok _
      · exact .error (h t rfl)

theorem blames_checkArgs {infer : Expr → Except TypeError Ty} {args : List Expr} (params : List Ty)
    (h : ∀ arg ∈ args, Blames S (infer arg) ∧ S arg.token) :
    Blames S (checkArgs infer args params) := by
  induction args generalizing params with
  | nil => exact .ok ()
  | cons arg args ih =>
      cases params with
      | nil => exact .ok ()
      | cons param params =>
          rcases h arg List.mem_cons_self with ⟨harg, htoken⟩
          apply harg.bind
          intro actual
          apply (blames_expect htoken param actual).bind
          intro _
          exact ih params fun arg' hmem => h arg' (List.mem_cons_of_mem _ hmem)

end Typing

theorem Expr.blames_infer {e : Expr} (hroot : S root) (h : e.Within S) (scopes : Scopes)
    (depth : Nat) : Blames S (e.infer root scopes depth) := by
  induction depth generalizing e with
  | zero => exact .error hroot
  | succ depth ih =>
      cases h with
      | intLit _ => exact .ok _
      | floatLit _ => exact .ok _
      | stringLit _ => exact .ok _
      | boolLit _ => exact .ok _
      | @name t ht =>
          unfold infer
          split
          · exact .ok _
          · exact .error ht
      | unary ht hoperand =>
          apply (ih hoperand).bind
          intro type
          split
          · exact .ok _
          · exact .error ht
      | binary ht hleft hright =>
          apply (ih hleft).bind
          intro leftType
          apply (ih hright).bind
          intro rightType
          split
          · exact .ok _
          · exact .error ht
      | call ht hcallee hargs =>
          apply (ih hcallee).bind
          intro type
          split
          · exact .error hcallee.token
          · rename_i params result _
            split
            · refine (Typing.blames_checkArgs params fun arg hmem => ?_).bind fun _ => .ok result
              exact ⟨ih (hargs arg hmem), (hargs arg hmem).token⟩
            · exact .error ht

/-!
# Statements
-/

namespace CheckM

/-- If the check fails, then at a token in `S`, whatever it starts from. -/
def Blames (S : Token → Prop) (x : CheckM α) : Prop :=
  ∀ c, TypedAnt.Blames S (x.run.run c).1

namespace Blames

theorem pure (a : α) : Blames S (pure a : CheckM α) := by
  intro c
  exact .ok a

theorem throw {t : Token} {cause : TypeError.Cause} (h : S t) :
    Blames S (throw ⟨t, cause⟩ : CheckM α) := by
  intro c
  exact .error h

theorem attempt {x : Except TypeError α} (h : TypedAnt.Blames S x) : Blames S (attempt x) := by
  intro c
  exact h

theorem get : Blames S (get : CheckM Checker) := by
  intro c
  exact .ok c

theorem modify (f : Checker → Checker) : Blames S (modify f : CheckM PUnit) := by
  intro c
  exact .ok ()

theorem bind {x : CheckM α} {f : α → CheckM β} (hx : Blames S x) (hf : ∀ a, Blames S (f a)) :
    Blames S (x >>= f) := by
  intro c
  have hfirst := hx c
  cases hrun : x.run.run c with
  | mk outcome next =>
      rw [hrun] at hfirst
      rw [ExceptT.run_bind, StateT.run_bind, hrun]
      cases outcome with
      | error e => exact .error (hfirst e rfl)
      | ok a => exact hf a next

theorem forM {f : α → CheckM PUnit} {xs : List α} (h : ∀ x ∈ xs, Blames S (f x)) :
    Blames S (xs.forM f) := by
  induction xs with
  | nil => exact .pure _
  | cons x xs ih =>
      apply (h x List.mem_cons_self).bind
      intro _
      exact ih fun x' hmem => h x' (List.mem_cons_of_mem _ hmem)

theorem define (name : Token) (type : Ty) : Blames S (define name type) :=
  .modify _

theorem inScope {body : CheckM Unit} (h : Blames S body) : Blames S (inScope body) :=
  (modify _).bind fun _ => h.bind fun _ => modify _

theorem inFunction {body : CheckM Unit} (result : Ty) (h : Blames S body) :
    Blames S (inFunction result body) :=
  (modify _).bind fun _ => h.bind fun _ => modify _

theorem typeOf {e : Expr} (hroot : S root) (h : e.Within S) (depth : Nat) :
    Blames S (typeOf root depth e) :=
  get.bind fun c => .attempt (e.blames_infer hroot h c.scopes depth)

theorem condition {e : Expr} {body : CheckM Unit} (hroot : S root) (h : e.Within S) (depth : Nat)
    (hbody : Blames S body) :
    Blames S (do
      let type ← CheckM.typeOf root depth e
      CheckM.attempt (Typing.expect e.token .bool type)
      body) := by
  apply (typeOf hroot h depth).bind
  intro type
  apply (attempt (Typing.blames_expect h.token .bool type)).bind
  intro _
  exact hbody

end Blames
end CheckM

open CheckM

theorem Stmt.blames_check {s : Stmt} (hroot : S root) (h : s.Within S) (depth : Nat) :
    CheckM.Blames S (s.check root depth) := by
  induction depth generalizing s with
  | zero => exact .throw hroot
  | succ depth ih =>
      cases h with
      | @letBinding t name declared value ht hname hdeclared hvalue =>
          apply (Blames.typeOf hroot hvalue depth).bind
          intro actual
          cases declared with
          | none => exact .define name actual
          | some token =>
              apply (Blames.attempt (Typing.blames_resolve hdeclared)).bind
              intro type
              apply (Blames.attempt (Typing.blames_expect hvalue.token type actual)).bind
              intro _
              exact .define name type
      | @assign t name value ht hname hvalue =>
          apply (Blames.typeOf hroot hvalue depth).bind
          intro actual
          refine Blames.get.bind fun c => ?_
          split
          · exact .define name actual
          · split
            · exact .pure ()
            · exact .throw hname
      | @funcDef t name params returnType body ht hname hparams hreturn hbody hstmts =>
          refine (Blames.attempt (.mapM fun p hmem => ?_)).bind fun types => ?_
          · refine Typing.blames_resolve fun type htype => ?_
            cases htype
            exact (hparams p hmem).2
          · apply (Blames.attempt (Typing.blames_resolve hreturn)).bind
            intro result
            refine (Blames.define name _).bind fun _ => ?_
            refine .inScope (CheckM.Blames.bind (.forM fun _ _ => .define _ _) fun _ => ?_)
            exact .inFunction result (.forM fun stmt hmem => ih (hstmts stmt hmem))
      | @conditional t condition body otherwise ht hcondition hbody hstmts hother helse hnested =>
          apply CheckM.Blames.condition hroot hcondition depth
          apply (Blames.inScope (.forM fun stmt hmem => ih (hstmts stmt hmem))).bind
          intro _
          split
          · exact .pure ()
          · exact .inScope (.forM fun stmt hmem => ih (helse _ rfl stmt hmem))
          · exact ih (hnested _ rfl)
      | @whileLoop t condition body ht hcondition hbody hstmts =>
          apply CheckM.Blames.condition hroot hcondition depth
          exact .inScope (.forM fun stmt hmem => ih (hstmts stmt hmem))
      | @giveBack t value ht hvalue =>
          refine Blames.get.bind fun c => ?_
          split
          · exact .throw ht
          · rename_i result _ _
            cases value with
            | none => exact .attempt (Typing.blames_expect ht result .unit)
            | some e =>
                have he := hvalue e rfl
                apply (Blames.typeOf hroot he depth).bind
                intro type
                exact .attempt (Typing.blames_expect he.token result type)
      | @expr t value ht hvalue =>
          exact (Blames.typeOf hroot hvalue depth).bind fun _ => .pure ()

theorem Program.blames_check {p : Program} (hroot : S p.token)
    (h : ∀ stmt ∈ p.statements, stmt.Within S) (limit : Nat) (c : Checker) :
    Blames S (p.check limit c).1 :=
  CheckM.Blames.forM (fun stmt hmem => stmt.blames_check hroot (h stmt hmem) limit) c

end TypedAnt
