import TypedAnt.Proofs.Scopes
import TypedAnt.Proofs.Typing.Passing

/-!
# First-order types

A value is of a primitive type or a function that takes and returns values of primitive
types.  The type `any` stands in the parameters of built-in functions only: it accepts
everything, so that nothing would be checked any more if a value ever had it.
-/

namespace TypedAnt

namespace Ty

def Primitive (t : Ty) : Prop :=
  ∃ name, Named name t

/-- The types that values have. -/
inductive FirstOrder : Ty → Prop where
  | primitive {t : Ty} : t.Primitive → FirstOrder t
  | builtin (b : Builtin) : FirstOrder (builtin b)
  | func {params : List Ty} {result : Ty} :
      (∀ param ∈ params, param.Primitive) → result.Primitive → FirstOrder (func params result)

variable {t result : Ty} {params : List Ty}

theorem Numeric.primitive (h : t.Numeric) : t.Primitive := by
  rcases h with rfl | rfl
  · exact ⟨_, .int⟩
  · exact ⟨_, .float⟩

theorem Primitive.signature?_eq_none (h : t.Primitive) : t.signature? = none := by
  rcases h with ⟨_, hnamed⟩
  cases hnamed <;> rfl

theorem Primitive.ne_any (h : t.Primitive) : t ≠ any := by
  rcases h with ⟨_, hnamed⟩
  cases hnamed <;> simp [int, float, str, bool, unit, any]

theorem FirstOrder.ne_any (h : t.FirstOrder) : t ≠ any := by
  cases h with
  | primitive hprimitive => exact hprimitive.ne_any
  | builtin b => nofun
  | func _ _ => nofun

theorem primitive_result (b : Builtin) : (plain b.result).Primitive := by
  cases b with
  | print => exact ⟨_, .unit⟩
  | len => exact ⟨_, .int⟩
  | str => exact ⟨_, .str⟩
  | int => exact ⟨_, .int⟩
  | float => exact ⟨_, .float⟩

theorem FirstOrder.primitive_of_takes (h : t.FirstOrder) (htakes : t.Takes params result) :
    result.Primitive := by
  cases htakes with
  | func =>
      cases h with
      | primitive hprimitive => cases hprimitive.signature?_eq_none
      | func _ hresult => exact hresult
  | builtin b => exact primitive_result b

end Ty

theorem UnaryOp.Yields.primitive {op : UnaryOp} {inner type : Ty} (h : op.Yields inner type) :
    type.Primitive := by
  cases h with
  | negated hnumeric => exact hnumeric.primitive
  | negation => exact ⟨_, .bool⟩

theorem BinaryOp.Yields.primitive {op : BinaryOp} {left right type : Ty}
    (h : op.Yields left right type) : type.Primitive := by
  cases h with
  | integers _ => exact ⟨_, .int⟩
  | floats _ _ _ _ => exact ⟨_, .float⟩
  | texts => exact ⟨_, .str⟩
  | ordered _ _ _ => exact ⟨_, .bool⟩
  | equal _ _ => exact ⟨_, .bool⟩
  | numbers _ _ _ => exact ⟨_, .bool⟩
  | connected _ => exact ⟨_, .bool⟩

theorem Returns.primitive {declared : Option Token} {type : Ty} (h : Returns declared type) :
    type.Primitive := by
  cases h with
  | nothing => exact ⟨_, .unit⟩
  | named hnamed => exact ⟨_, hnamed⟩

theorem primitive_of_named {params : List Param} {types : List Ty}
    (h : List.Forall₂ (fun p type => Ty.Named p.type.value type) params types) :
    ∀ type ∈ types, type.Primitive := by
  induction h with
  | nil => simp
  | cons hnamed _ ih => exact List.forall_mem_cons.mpr ⟨⟨_, hnamed⟩, ih⟩

/-!
# Scopes with first-order types
-/

namespace Scopes

def FirstOrder (s : Scopes) : Prop :=
  s.All fun scope => ∀ binding ∈ scope, binding.2.FirstOrder

theorem firstOrder_empty : FirstOrder {} := by
  unfold FirstOrder All stack
  simp

theorem firstOrder_initial : initial.FirstOrder := by
  have hstack : initial.stack = [builtins] := rfl
  unfold FirstOrder All
  rw [hstack, List.forall_mem_singleton]
  intro binding hmem
  rcases List.mem_map.mp hmem with ⟨b, _, rfl⟩
  exact .builtin b

variable {s : Scopes}

theorem FirstOrder.of_binds {name : String} {type : Ty} (h : s.FirstOrder)
    (hbinds : s.Binds name type) : type.FirstOrder := by
  rcases hbinds with ⟨inner, scope, outer, hstack, hget, _⟩
  have hscope : scope ∈ s.stack := by
    rw [hstack]
    exact List.mem_append_right inner List.mem_cons_self
  exact h scope hscope (name, type) (Fields.mem_of_get? hget)

theorem FirstOrder.enter (h : s.FirstOrder) : s.enter.FirstOrder :=
  All.enter h (by simp)

theorem FirstOrder.define {type : Ty} (h : s.FirstOrder) (htype : type.FirstOrder)
    (name : String) : (s.define name type).FirstOrder := by
  apply All.define h
  intro scope hscope binding hmem
  rcases Fields.mem_of_mem_set hmem with rfl | hmem
  · exact htype
  · exact hscope binding hmem

theorem FirstOrder.defineAll {bindings : List (Param × Ty)} (h : s.FirstOrder)
    (hbindings : ∀ binding ∈ bindings, binding.2.FirstOrder) :
    (s.defineAll bindings).FirstOrder := by
  induction bindings generalizing s with
  | nil => exact h
  | cons binding rest ih =>
      rcases List.forall_mem_cons.mp hbindings with ⟨hfirst, hrest⟩
      exact ih (h.define hfirst _) hrest

end Scopes

/-!
# Checks keep types first-order

Expressions get first-order types from first-order scopes, and so statements bind such
types only.
-/

theorem HasType.firstOrder {Γ : Scopes} {e : Expr} {type : Ty} (hΓ : Γ.FirstOrder) :
    HasType Γ e type → type.FirstOrder
  | .intLit => .primitive ⟨_, .int⟩
  | .floatLit => .primitive ⟨_, .float⟩
  | .stringLit => .primitive ⟨_, .str⟩
  | .boolLit => .primitive ⟨_, .bool⟩
  | .name hbinds => hΓ.of_binds hbinds
  | .unary _ hyields => .primitive hyields.primitive
  | .binary _ _ hyields => .primitive hyields.primitive
  | .call hcallee htakes _ => .primitive ((hcallee.firstOrder hΓ).primitive_of_takes htakes)

namespace Stmt

theorem Typed.firstOrder {given : Option Ty} {Γ Δ : Scopes} {s : Stmt} (hΓ : Γ.FirstOrder) :
    Typed given Γ s Δ → Δ.FirstOrder
  | .letInferred htype => hΓ.define (htype.firstOrder hΓ) _
  | .letDeclared _ hnamed _ => hΓ.define (.primitive ⟨_, hnamed⟩) _
  | .assignUnbound htype _ => hΓ.define (htype.firstOrder hΓ) _
  | .funcDef hnamed hreturns _ =>
      hΓ.define (.func (primitive_of_named hnamed) hreturns.primitive) _
  | .assignBound _ _ _ | .conditional _ _ | .conditionalBlock _ _ _ | .whileLoop _ _
  | .giveNothing _ | .giveBack _ _ | .expr _ => hΓ
  | .conditionalChain _ _ hnext => hnext.firstOrder hΓ

variable {given : Option Ty} {Γ Δ : Scopes} {c d : Checker} {s : Stmt} {stmts : List Stmt}

theorem AllTyped.firstOrder (h : AllTyped given Γ stmts Δ) (hΓ : Γ.FirstOrder) :
    Δ.FirstOrder := by
  induction stmts generalizing Γ with
  | nil =>
      cases h
      exact hΓ
  | cons s rest ih =>
      cases h with
      | cons hs hrest => exact ih hrest (hs.firstOrder hΓ)

theorem Enters.firstOrder {opener : Opener} (h : Enters c s opener stmts d)
    (hc : c.scopes.FirstOrder) : d.scopes.FirstOrder := by
  cases h with
  | function hnamed hreturns =>
      have hprimitive := primitive_of_named hnamed
      apply (hc.define (.func hprimitive hreturns.primitive) _).enter.defineAll
      intro binding hmem
      exact .primitive (hprimitive _ (List.of_mem_zip hmem).2)
  | thenBody _ => exact hc.enter
  | elseBody _ _ => exact hc.enter
  | whileBody _ => exact hc.enter

theorem Opens.firstOrder (h : Opens c s stmts d) (hc : c.scopes.FirstOrder) :
    d.scopes.FirstOrder := by
  induction h with
  | own henters => exact henters.firstOrder hc
  | elseIf _ _ _ ih => exact ih

theorem Passes.firstOrder (h : Passes c stmts d) (hc : c.scopes.FirstOrder) :
    d.scopes.FirstOrder := by
  induction h with
  | between hbefore => exact hbefore.firstOrder hc
  | inside hbefore hopens _ ih => exact ih (hopens.firstOrder (hbefore.firstOrder hc))

end Stmt

/-!
# Calls
-/

structure Scopes.UsedFirstOrder (Γ : Scopes) : Prop where
  bound : ∀ scope ∈ Γ.stack, ∀ name type, (name, type) ∈ scope → type.FirstOrder ∧ type ≠ .any
  inferred : ∀ root depth (e : Expr) type, e.infer root Γ depth = .ok type →
    type.FirstOrder ∧ type ≠ .any
  called : ∀ root depth token callee args type,
    (Expr.call token callee args).infer root Γ depth = .ok type → type.Primitive
  -- What a call returns is not a function, so it cannot be called again.
  calledTwice : ∀ root depth token inner callee args args',
    ∃ error, (Expr.call token (.call inner callee args) args').infer root Γ depth = .error error
  innerFails : ∀ root depth token inner callee args args' error,
    (Expr.call inner callee args).infer root Γ depth = .error error →
    (Expr.call token (.call inner callee args) args').infer root Γ (depth + 1) = .error error
  innerChecks : ∀ root depth token inner callee args args' type,
    (Expr.call inner callee args).infer root Γ depth = .ok type →
    (Expr.call token (.call inner callee args) args').infer root Γ (depth + 1) =
      .error ⟨inner, .notCallable type⟩

namespace Expr

variable {root : Token} {Γ : Scopes} {depth : Nat} {token : Token} {callee : Expr}
  {args : List Expr} {type : Ty}

theorem primitive_of_call (hΓ : Γ.FirstOrder)
    (h : (Expr.call token callee args).infer root Γ depth = .ok type) : type.Primitive := by
  cases (infer_eq_ok_iff.mp h).2 with
  | call hcallee htakes _ => exact (hcallee.firstOrder hΓ).primitive_of_takes htakes

theorem infer_call_of_error {error : TypeError} (h : callee.infer root Γ depth = .error error) :
    (Expr.call token callee args).infer root Γ (depth + 1) = .error error := by
  rw [infer, h]
  rfl

theorem infer_call_of_primitive (h : callee.infer root Γ depth = .ok type)
    (hprimitive : type.Primitive) :
    (Expr.call token callee args).infer root Γ (depth + 1) =
      .error ⟨callee.token, .notCallable type⟩ := by
  rw [infer, h]
  dsimp only [bind, Except.bind]
  rw [hprimitive.signature?_eq_none]

end Expr

theorem Scopes.FirstOrder.used {Γ : Scopes} (h : Γ.FirstOrder) : Γ.UsedFirstOrder where
  bound := by
    intro scope hscope name type hmem
    have htype := h scope hscope (name, type) hmem
    exact ⟨htype, htype.ne_any⟩
  inferred := by
    intro root depth e type hinfer
    have htype := (Expr.infer_eq_ok_iff.mp hinfer).2.firstOrder h
    exact ⟨htype, htype.ne_any⟩
  called := by
    intro root depth token callee args type hinfer
    exact Expr.primitive_of_call h hinfer
  calledTwice := by
    intro root depth token inner callee args args'
    cases depth with
    | zero => exact ⟨_, rfl⟩
    | succ depth =>
        cases hinner : (Expr.call inner callee args).infer root Γ depth with
        | error error => exact ⟨error, Expr.infer_call_of_error hinner⟩
        | ok type =>
            exact ⟨_, Expr.infer_call_of_primitive hinner (Expr.primitive_of_call h hinner)⟩
  innerFails := by
    intro root depth token inner callee args args' error hinner
    exact Expr.infer_call_of_error hinner
  innerChecks := by
    intro root depth token inner callee args args' type hinner
    exact Expr.infer_call_of_primitive hinner (Expr.primitive_of_call h hinner)

/-!
# Checks in a row

Checkers share the open scopes.  Each of them has the functions to itself that its own
failed checks have left open.
-/

/-- The shared scopes, and the open functions of each checker; a new checker has none. -/
structure Workbench where
  scopes : Scopes
  returns : Nat → List Ty := fun _ => []

namespace Workbench

structure Job where
  checker : Nat
  limit : Nat
  program : Program

def checker (w : Workbench) (number : Nat) : Checker :=
  ⟨w.scopes, w.returns number⟩

def serve (w : Workbench) (job : Job) : Workbench :=
  let after := (job.program.check job.limit (w.checker job.checker)).2
  ⟨after.scopes, Function.update w.returns job.checker after.returns⟩

def serveAll (w : Workbench) (jobs : List Job) : Workbench :=
  jobs.foldl serve w

def start (seeded : Bool) : Workbench :=
  { scopes := if seeded then .initial else {} }

theorem firstOrder_start (seeded : Bool) : (start seeded).scopes.FirstOrder := by
  cases seeded with
  | false => exact Scopes.firstOrder_empty
  | true => exact Scopes.firstOrder_initial

theorem firstOrder_serve {w : Workbench} (h : w.scopes.FirstOrder) (job : Job) :
    (w.serve job).scopes.FirstOrder :=
  (job.program.passes_check job.limit (w.checker job.checker)).firstOrder h

theorem firstOrder_serveAll {w : Workbench} (h : w.scopes.FirstOrder) (jobs : List Job) :
    (w.serveAll jobs).scopes.FirstOrder := by
  induction jobs generalizing w with
  | nil => exact h
  | cons job rest ih => exact ih (firstOrder_serve h job)

/--
However many checks have been carried out, and whatever came of them, every bound type is a
primitive one, that of a built-in function, or that of a function from primitive types to a
primitive type.  This goes for every moment of another check as well.  So neither a name
nor an expression has the type `any`, a call that is checked has a primitive type, and a call of
its result is an error.
-/
theorem types_stay_first_order (seeded : Bool) (jobs : List Job) :
    ((start seeded).serveAll jobs).scopes.UsedFirstOrder ∧
      ∀ (number : Nat) (p : Program) (d : Checker),
        Stmt.Passes (((start seeded).serveAll jobs).checker number) p.statements d →
        d.scopes.UsedFirstOrder := by
  have h := firstOrder_serveAll (firstOrder_start seeded) jobs
  constructor
  · exact h.used
  · intro number p d hpasses
    exact (hpasses.firstOrder h).used

def untextual : Program :=
  ⟨⟨.keyword, "func", 1, 1⟩,
    [.funcDef ⟨.keyword, "func", 1, 1⟩ ⟨.ident, "f", 1, 6⟩
      [⟨⟨.ident, "a", 1, 8⟩, ⟨.ident, "int", 1, 11⟩⟩] (some ⟨.ident, "str", 1, 19⟩)
      ⟨⟨.op, "\x7b", 1, 23⟩,
        [.giveBack ⟨.keyword, "return", 1, 25⟩ (some (.name ⟨.ident, "a", 1, 32⟩))]⟩]⟩

def givenText : Program :=
  ⟨⟨.keyword, "return", 1, 1⟩,
    [.giveBack ⟨.keyword, "return", 1, 1⟩ (some (.stringLit ⟨.string, "\"x\"", 1, 8⟩ "x"))]⟩

def renamed : Program :=
  ⟨⟨.keyword, "let", 1, 1⟩,
    [.letBinding ⟨.keyword, "let", 1, 1⟩ ⟨.ident, "g", 1, 5⟩ none (.name ⟨.ident, "print", 1, 9⟩)]⟩

def callTwice : Expr :=
  .call ⟨.op, "(", 1, 5⟩
    (.call ⟨.op, "(", 1, 2⟩ (.name ⟨.ident, "g", 1, 1⟩) [.name ⟨.ident, "a", 1, 3⟩])
    [.name ⟨.ident, "a", 1, 6⟩]

theorem types_stay_first_order_callTwice :
    let jobs : List Job := [⟨0, 500, untextual⟩, ⟨0, 500, givenText⟩, ⟨1, 500, renamed⟩]
    let w := (start true).serveAll jobs
    w.scopes.locals = [[("a", .int), ("g", .builtin .print)]] ∧
      w.returns 0 = [.str] ∧ w.returns 1 = [] ∧
      callTwice.infer renamed.token w.scopes 500 =
        .error ⟨⟨.op, "(", 1, 2⟩, .notCallable .unit⟩ ∧
      ∃ d, Stmt.Passes (w.checker 1) untextual.statements d ∧ d.returns = [.str] ∧
        d.scopes.locals = [[("a", .int)],
          [("a", .int), ("g", .builtin .print), ("f", .func [.int] .str)]] ∧
        d.scopes.UsedFirstOrder := by
  intro jobs w
  rcases types_stay_first_order true jobs with ⟨hafter, hduring⟩
  have hcall : callTwice.infer renamed.token w.scopes 500 =
      .error ⟨⟨.op, "(", 1, 2⟩, .notCallable .unit⟩ :=
    hafter.innerChecks _ 499 _ _ _ _ _ .unit rfl
  let d : Checker := ⟨(w.scopes.define "f" (.func [.int] .str)).enter.define "a" .int, [.str]⟩
  have hpasses : Stmt.Passes (w.checker 1) untextual.statements d :=
    @Stmt.Passes.inside _ _ _ _ _ _ [] [] .nil
      (.own (.function (.cons .int .nil) (.named .str))) (.between .nil)
  exact ⟨rfl, rfl, rfl, hcall, d, hpasses, rfl, rfl, hduring 1 untextual d hpasses⟩

end Workbench
end TypedAnt
