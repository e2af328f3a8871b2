import TypedAnt.Proofs.Program.Rendering
import TypedAnt.Typing

/-!
# Checking what has been rendered

A check looks at the values of tokens and at nothing else.  On a program whose tokens stand at
other places it ends in the same state, with the same error at the corresponding token.
-/

namespace TypedAnt

variable {α β : Type} {r : Rendering} {root : Token}

def Rendering.typeError (r : Rendering) (e : TypeError) : TypeError :=
  ⟨r.token e.token, e.cause⟩

/-!
# Expressions
-/

def Retold (r : Rendering) (x y : Except TypeError α) : Prop :=
  y = x.mapError r.typeError

namespace Retold

theorem ok (a : α) : Retold r (.ok a) (.ok a) :=
  rfl

theorem error (t : Token) (cause : TypeError.Cause) :
    Retold r (.error ⟨t, cause⟩ : Except TypeError α) (.error ⟨r.token t, cause⟩) :=
  rfl

theorem bind {x y : Except TypeError α} {f g : α → Except TypeError β} (hx : Retold r x y)
    (hf : ∀ a, Retold r (f a) (g a)) : Retold r (x >>= f) (y >>= g) := by
  cases hx
  cases x with
  | error e => rfl
  | ok a => exact hf a

theorem mapM {γ : Type} {f : α → Except TypeError γ} {g : β → Except TypeError γ} {h : α → β}
    (hf : ∀ x, Retold r (f x) (g (h x))) (xs : List α) :
    Retold r (xs.mapM f) ((xs.map h).mapM g) := by
  induction xs with
  | nil => exact ok []
  | cons x xs ih =>
      rw [List.map_cons, List.mapM_cons, List.mapM_cons]
      apply (hf x).bind
      intro y
      apply ih.bind
      intro ys
      exact ok (y :: ys)

end Retold

namespace Typing

theorem retold_expect (t : Token) (expected actual : Ty) :
    Retold r (expect t expected actual) (expect (r.token t) expected actual) := by
  unfold expect
  split
  · exact .ok ()
  · exact .error t _

theorem retold_resolve (hvalue : ∀ t, (r.token t).value = t.value) (declared : Option Token) :
    Retold r (resolve declared) (resolve (declared.map r.token)) := by
  cases declared with
  | none => exact .ok _
  | some t =>
      rw [Option.map_some, resolve, resolve, hvalue]
      split
      · exact .ok _
      · exact .error t _

theorem retold_checkArgs {infer infer' : Expr → Except TypeError Ty}
    (h : ∀ e, Retold r (infer e) (infer' (r.expr e))) (args : List Expr) (params : List Ty) :
    Retold r (checkArgs infer args params) (checkArgs infer' (args.map r.expr) params) := by
  induction args generalizing params with
  | nil => exact .ok ()
  | cons arg args ih =>
      cases params with
      | nil => exact .ok ()
      | cons param params =>
          apply (h arg).bind
          intro actual
          rw [r.token_expr]
          apply (retold_expect arg.token param actual).bind
          intro _
          exact ih params

end Typing

theorem Expr.retold_infer (hvalue : ∀ t, (r.token t).value = t.value) (scopes : Scopes)
    (depth : Nat) (e : Expr) :
    Retold r (e.infer root scopes depth) ((r.expr e).infer (r.token root) scopes depth) := by
  induction depth generalizing e with
  | zero => exact .error root _
  | succ depth ih =>
      cases e with
      | intLit t value => exact .ok _
      | floatLit t bits => exact .ok _
      | stringLit t value => exact .ok _
      | boolLit t value => exact .ok _
      | name t =>
          rw [Rendering.expr, infer, infer, hvalue]
          split
          · exact .ok _
          · exact .error t _
      | unary t op operand =>
          apply (ih operand).bind
          intro type
          split
          · exact .ok _
          · exact .error t _
      | binary t op left right =>
          apply (ih left).bind
          intro leftType
          apply (ih right).bind
          intro rightType
          split
          · exact .ok _
          · exact .error t _
      | call t callee args =>
          apply (ih callee).bind
          intro type
          split
          · rw [r.token_expr]
            exact .error callee.token _
          · rename_i params result _
            rw [r.exprs_eq_map, List.length_map]
            split
            · apply (Typing.retold_checkArgs ih args params).bind
              intro _
              exact .ok result
            · exact .error t _

/-!
# Statements
-/

namespace CheckM

def Retold (r : Rendering) (x y : CheckM α) : Prop :=
  ∀ c, TypedAnt.Retold r (x.run.run c).1 (y.run.run c).1 ∧ (y.run.run c).2 = (x.run.run c).2

namespace Retold

theorem pure (a : α) : Retold r (pure a) (pure a) := by
  intro c
  exact ⟨rfl, rfl⟩

theorem throw (t : Token) (cause : TypeError.Cause) :
    Retold r (throw ⟨t, cause⟩ : CheckM α) (throw ⟨r.token t, cause⟩) := by
  intro c
  exact ⟨rfl, rfl⟩

theorem attempt {x y : Except TypeError α} (h : TypedAnt.Retold r x y) :
    Retold r (attempt x) (attempt y) := by
  intro c
  exact ⟨h, rfl⟩

theorem get : Retold r (get : CheckM Checker) get := by
  intro c
  exact ⟨rfl, rfl⟩

theorem modify (f : Checker → Checker) : Retold r (modify f : CheckM PUnit) (modify f) := by
  intro c
  exact ⟨rfl, rfl⟩

theorem bind {x y : CheckM α} {f g : α → CheckM β} (hx : Retold r x y)
    (hf : ∀ a, Retold r (f a) (g a)) : Retold r (x >>= f) (y >>= g) := by
  intro c
  rw [ExceptT.run_bind, StateT.run_bind, ExceptT.run_bind, StateT.run_bind]
  rcases hx c with ⟨hresult, hstate⟩
  rcases hrun : x.run.run c with ⟨outcome, next⟩
  rcases hrun' : y.run.run c with ⟨outcome', next'⟩
  rw [hrun, hrun'] at hresult hstate
  cases hstate
  cases hresult
  cases outcome with
  | error e => exact ⟨rfl, rfl⟩
  | ok a => exact hf a next

theorem forM {f : α → CheckM PUnit} {g : β → CheckM PUnit} {h : α → β}
    (hf : ∀ x, Retold r (f x) (g (h x))) (xs : List α) :
    Retold r (xs.forM f) ((xs.map h).forM g) := by
  induction xs with
  | nil => exact .pure _
  | cons x xs ih =>
      apply (hf x).bind
      intro _
      exact ih

theorem define (hvalue : ∀ t, (r.token t).value = t.value) (name : Token) (type : Ty) :
    Retold r (define name type) (define (r.token name) type) := by
  unfold CheckM.define
  rw [hvalue]
  exact .modify _

theorem inScope {body body' : CheckM Unit} (h : Retold r body body') :
    Retold r (inScope body) (inScope body') :=
  (modify _).bind fun _ => h.bind fun _ => modify _

theorem inFunction {body body' : CheckM Unit} (result : Ty) (h : Retold r body body') :
    Retold r (inFunction result body) (inFunction result body') :=
  (modify _).bind fun _ => h.bind fun _ => modify _

theorem typeOf (hvalue : ∀ t, (r.token t).value = t.value) (depth : Nat) (e : Expr) :
    Retold r (typeOf root depth e) (typeOf (r.token root) depth (r.expr e)) :=
  get.bind fun c => .attempt (e.retold_infer hvalue c.scopes depth)

theorem expect (e : Expr) (expected actual : Ty) :
    Retold r (CheckM.attempt (Typing.expect e.token expected actual))
      (CheckM.attempt (Typing.expect (r.expr e).token expected actual)) := by
  rw [r.token_expr]
  exact .attempt (Typing.retold_expect e.token expected actual)

theorem condition (hvalue : ∀ t, (r.token t).value = t.value) (depth : Nat) (e : Expr)
    {body body' : CheckM Unit} (hbody : Retold r body body') :
    Retold r
      (do
        let type ← CheckM.typeOf root depth e
        CheckM.attempt (Typing.expect e.token .bool type)
        body)
      (do
        let type ← CheckM.typeOf (r.token root) depth (r.expr e)
        CheckM.attempt (Typing.expect (r.expr e).token .bool type)
        body') := by
  apply (typeOf hvalue depth e).bind
  intro type
  apply (expect e .bool type).bind
  intro _
  exact hbody

theorem block {f g : Stmt → CheckM Unit} (h : ∀ s, Retold r (f s) (g (r.stmt s))) (b : Block Stmt) :
    Retold r (b.statements.forM f) ((r.block b).statements.forM g) := by
  rw [r.block_statements]
  exact forM h b.statements

end Retold
end CheckM

open CheckM

theorem Stmt.retold_check (hvalue : ∀ t, (r.token t).value = t.value) (depth : Nat) (s : Stmt) :
    CheckM.Retold r (s.check root depth) ((r.stmt s).check (r.token root) depth) := by
  induction depth generalizing s with
  | zero => exact .throw root _
  | succ depth ih =>
      cases s with
      | letBinding t name declared value =>
          apply (Retold.typeOf hvalue depth value).bind
          intro actual
          cases declared with
          | none => exact .define hvalue name actual
          | some token =>
              apply (Retold.attempt (Typing.retold_resolve hvalue (some token))).bind
              intro type
              apply (Retold.expect value type actual).bind
              intro _
              exact .define hvalue name type
      | assign t name value =>
          apply (Retold.typeOf hvalue depth value).bind
          intro actual
          apply Retold.get.bind
          intro c
          rw [hvalue]
          split
          · exact .define hvalue name actual
          · split
            · exact .pure ()
            · exact .throw name _
      | funcDef t name params returnType body =>
          have hparam (p : Param) : TypedAnt.Retold r (Typing.resolve (some p.type))
              (Typing.resolve (some (r.param p).type)) :=
            Typing.retold_resolve hvalue (some p.type)
          have htypes := TypedAnt.Retold.mapM (g := fun p : Param => Typing.resolve (some p.type))
            hparam params
          apply (Retold.attempt htypes).bind
          intro types
          apply (Retold.attempt (Typing.retold_resolve hvalue returnType)).bind
          intro result
          apply (Retold.define hvalue name _).bind
          intro _
          have hparams : (params.map r.param).zip types =
              (params.zip types).map (Prod.map r.param id) := by
            rw [← List.map_id types, List.zip_map, List.map_id]
          rw [hparams]
          apply Retold.inScope
          apply CheckM.Retold.bind
          · apply CheckM.Retold.forM
            intro p
            exact .define hvalue p.1.name p.2
          · intro _
            exact .inFunction result (.block ih body)
      | conditional t condition body other =>
          apply Retold.condition hvalue depth condition
          apply (Retold.inScope (.block ih body)).bind
          intro _
          match other with
          | none => exact .pure ()
          | some (.block other) => exact .inScope (.block ih other)
          | some (.conditional stmt) => exact ih stmt
      | whileLoop t condition body =>
          apply Retold.condition hvalue depth condition
          exact .inScope (.block ih body)
      | giveBack t value =>
          apply Retold.get.bind
          intro c
          split
          · exact .throw t _
          · rename_i result _ _
            cases value with
            | none => exact .attempt (Typing.retold_expect t result .unit)
            | some e =>
                apply (Retold.typeOf hvalue depth e).bind
                intro type
                exact .expect e result type
      | expr t value => exact (Retold.typeOf hvalue depth value).bind fun _ => .pure ()

theorem Program.check_program (hvalue : ∀ t, (r.token t).value = t.value) (limit : Nat)
    (p : Program) (c : Checker) :
    (r.program p).check limit c =
      ((p.check limit c).1.mapError r.typeError, (p.check limit c).2) := by
  have hretold : CheckM.Retold r (p.statements.forM (Stmt.check p.token limit))
      ((p.statements.map r.stmt).forM (Stmt.check (r.token p.token) limit)) :=
    .forM (fun s => Stmt.retold_check hvalue limit s) p.statements
  exact Prod.ext (hretold c).1 (hretold c).2

end TypedAnt
