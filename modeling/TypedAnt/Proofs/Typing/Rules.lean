import TypedAnt.Program
import TypedAnt.Scopes
import TypedAnt.Proofs.Ty
import Mathlib.Data.List.Forall2

/-!
# Typing rules

Which types the expressions of a program have, and which statements are allowed where.  An
expression has a type in an environment of open scopes.  A statement leads from one
environment to the next; only a definition, and an assignment to a name that is not
bound yet, make a difference between the two.
-/

namespace TypedAnt

/-!
# Names
-/

namespace Scopes

def stack (s : Scopes) : List (Fields Ty) :=
  s.locals ++ [s.globals]

/-- The innermost scope that has the name gives it the type. -/
def Binds (s : Scopes) (name : String) (type : Ty) : Prop :=
  ∃ inner scope outer, s.stack = inner ++ scope :: outer ∧ scope.get? name = some type ∧
    ∀ closer ∈ inner, closer.get? name = none

def Unbound (s : Scopes) (name : String) : Prop :=
  ∀ scope ∈ s.stack, scope.get? name = none

def defineAll (s : Scopes) (bindings : List (Param × Ty)) : Scopes :=
  bindings.foldl (fun s binding => s.define binding.1.name.value binding.2) s

end Scopes

/-!
# Operators
-/

inductive UnaryOp.Yields : UnaryOp → Ty → Ty → Prop where
  | negated {t : Ty} : t.Numeric → Yields neg t t
  | negation : Yields not .bool .bool

namespace BinaryOp

def arithmetic : List BinaryOp :=
  [add, sub, mul, div, mod]

def orderings : List BinaryOp :=
  [lt, le, gt, ge]

def comparisons : List BinaryOp :=
  [eq, ne]

def connectives : List BinaryOp :=
  [and, or]

inductive Yields : BinaryOp → Ty → Ty → Ty → Prop where
  | integers {op : BinaryOp} : op ∈ arithmetic → Yields op .int .int .int
  | floats {op : BinaryOp} {s t : Ty} :
      op ∈ arithmetic → s.Numeric → t.Numeric → s = .float ∨ t = .float → Yields op s t .float
  | texts : Yields add .str .str .str
  | ordered {op : BinaryOp} {s t : Ty} :
      op ∈ orderings → s.Numeric → t.Numeric → Yields op s t .bool
  | equal {op : BinaryOp} {s t : Ty} : op ∈ comparisons → s.Equal t → Yields op s t .bool
  | numbers {op : BinaryOp} {s t : Ty} :
      op ∈ comparisons → s.Numeric → t.Numeric → Yields op s t .bool
  | connected {op : BinaryOp} : op ∈ connectives → Yields op .bool .bool .bool

end BinaryOp

/-!
# Expressions
-/

mutual

inductive HasType (Γ : Scopes) : Expr → Ty → Prop where
  | intLit {t : Token} {n : Int} : HasType Γ (.intLit t n) .int
  | floatLit {t : Token} {bits : UInt64} : HasType Γ (.floatLit t bits) .float
  | stringLit {t : Token} {text : String} : HasType Γ (.stringLit t text) .str
  | boolLit {t : Token} {b : Bool} : HasType Γ (.boolLit t b) .bool
  | name {t : Token} {type : Ty} : Γ.Binds t.value type → HasType Γ (.name t) type
  | unary {t : Token} {op : UnaryOp} {operand : Expr} {inner type : Ty} :
      HasType Γ operand inner → op.Yields inner type → HasType Γ (.unary t op operand) type
  | binary {t : Token} {op : BinaryOp} {left right : Expr} {leftType rightType type : Ty} :
      HasType Γ left leftType → HasType Γ right rightType → op.Yields leftType rightType type →
      HasType Γ (.binary t op left right) type
  | call {t : Token} {callee : Expr} {args : List Expr} {type result : Ty} {params : List Ty} :
      HasType Γ callee type → type.Takes params result → Suits Γ args params →
      HasType Γ (.call t callee args) result

/-- There is one argument for each parameter, of a type that the parameter accepts. -/
inductive Suits (Γ : Scopes) : List Expr → List Ty → Prop where
  | nil : Suits Γ [] []
  | cons {arg : Expr} {args : List Expr} {param actual : Ty} {params : List Ty} :
      HasType Γ arg actual → param.Accepts actual → Suits Γ args params →
      Suits Γ (arg :: args) (param :: params)

end

/-!
# Statements
-/

def Condition (Γ : Scopes) (e : Expr) : Prop :=
  ∃ type, HasType Γ e type ∧ Ty.bool.Accepts type

/-- The type that a function is declared to return; `unit` where none is written. -/
inductive Returns : Option Token → Ty → Prop where
  | nothing : Returns none .unit
  | named {t : Token} {type : Ty} : Ty.Named t.value type → Returns (some t) type

mutual

/--
The statement is allowed in the environment `Γ` and leads to the environment `Δ`.  The first
argument is the result type of the function that the statement stands in, if it does.
-/
inductive Stmt.Typed : Option Ty → Scopes → Stmt → Scopes → Prop where
  | letInferred {given : Option Ty} {Γ : Scopes} {t name : Token} {value : Expr} {type : Ty} :
      HasType Γ value type →
      Stmt.Typed given Γ (.letBinding t name none value) (Γ.define name.value type)
  | letDeclared {given : Option Ty} {Γ : Scopes} {t name declared : Token} {value : Expr}
      {actual type : Ty} :
      HasType Γ value actual → Ty.Named declared.value type → type.Accepts actual →
      Stmt.Typed given Γ (.letBinding t name (some declared) value) (Γ.define name.value type)
  | assignBound {given : Option Ty} {Γ : Scopes} {t name : Token} {value : Expr}
      {actual type : Ty} :
      HasType Γ value actual → Γ.Binds name.value type → type.Accepts actual →
      Stmt.Typed given Γ (.assign t name value) Γ
  | assignUnbound {given : Option Ty} {Γ : Scopes} {t name : Token} {value : Expr} {type : Ty} :
      HasType Γ value type → Γ.Unbound name.value →
      Stmt.Typed given Γ (.assign t name value) (Γ.define name.value type)
  | funcDef {given : Option Ty} {Γ Δ : Scopes} {t name : Token} {params : List Param}
      {returnType : Option Token} {body : Block Stmt} {types : List Ty} {result : Ty} :
      List.Forall₂ (fun p type => Ty.Named p.type.value type) params types →
      Returns returnType result →
      Stmt.AllTyped (some result)
        ((Γ.define name.value (.func types result)).enter.defineAll (params.zip types))
        body.statements Δ →
      Stmt.Typed given Γ (.funcDef t name params returnType body)
        (Γ.define name.value (.func types result))
  | conditional {given : Option Ty} {Γ Δ : Scopes} {t : Token} {condition : Expr}
      {body : Block Stmt} :
      Condition Γ condition → Stmt.AllTyped given Γ.enter body.statements Δ →
      Stmt.Typed given Γ (.conditional t condition body none) Γ
  | conditionalBlock {given : Option Ty} {Γ Δ Δ' : Scopes} {t : Token} {condition : Expr}
      {body other : Block Stmt} :
      Condition Γ condition → Stmt.AllTyped given Γ.enter body.statements Δ →
      Stmt.AllTyped given Γ.enter other.statements Δ' →
      Stmt.Typed given Γ (.conditional t condition body (some (.block other))) Γ
  | conditionalChain {given : Option Ty} {Γ Δ Δ' : Scopes} {t : Token} {condition : Expr}
      {body : Block Stmt} {next : Stmt} :
      Condition Γ condition → Stmt.AllTyped given Γ.enter body.statements Δ →
      Stmt.Typed given Γ next Δ' →
      Stmt.Typed given Γ (.conditional t condition body (some (.conditional next))) Δ'
  | whileLoop {given : Option Ty} {Γ Δ : Scopes} {t : Token} {condition : Expr}
      {body : Block Stmt} :
      Condition Γ condition → Stmt.AllTyped given Γ.enter body.statements Δ →
      Stmt.Typed given Γ (.whileLoop t condition body) Γ
  | giveNothing {Γ : Scopes} {t : Token} {result : Ty} :
      result.Accepts .unit → Stmt.Typed (some result) Γ (.giveBack t none) Γ
  | giveBack {Γ : Scopes} {t : Token} {value : Expr} {actual result : Ty} :
      HasType Γ value actual → result.Accepts actual →
      Stmt.Typed (some result) Γ (.giveBack t (some value)) Γ
  | expr {given : Option Ty} {Γ : Scopes} {t : Token} {value : Expr} {type : Ty} :
      HasType Γ value type → Stmt.Typed given Γ (.expr t value) Γ

inductive Stmt.AllTyped : Option Ty → Scopes → List Stmt → Scopes → Prop where
  | nil {given : Option Ty} {Γ : Scopes} : Stmt.AllTyped given Γ [] Γ
  | cons {given : Option Ty} {Γ Δ Θ : Scopes} {s : Stmt} {rest : List Stmt} :
      Stmt.Typed given Γ s Δ → Stmt.AllTyped given Δ rest Θ →
      Stmt.AllTyped given Γ (s :: rest) Θ

end

def Program.Typed (Γ : Scopes) (p : Program) (Δ : Scopes) : Prop :=
  Stmt.AllTyped none Γ p.statements Δ

end TypedAnt
