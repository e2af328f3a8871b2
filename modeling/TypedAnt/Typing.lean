import TypedAnt.Scopes
import TypedAnt.Typing.Error

/-!
# Type checking

Expressions get a type from the scopes they stand in and change nothing.  Statements
are checked in order, and bind names as they go.  At the first error the check
stops; the scopes are left as they are at that point, with those of enclosing
blocks and functions still open, so that the names bound so far can be read off.

Checking recurses on the number of levels that may still be opened.  A program that
is nested deeper is rejected as a whole, at its own token, which is passed along
as `root`.
-/

namespace TypedAnt

def UnaryOp.result? : UnaryOp → Ty → Option Ty
  | neg, t => if t.isNumeric then some t else none
  | not, t => if t.same .bool then some .bool else none

def BinaryOp.result? (op : BinaryOp) (left right : Ty) : Option Ty :=
  let numeric := left.isNumeric && right.isNumeric
  match op with
  | add =>
      if numeric then some (if left.same .int && right.same .int then .int else .float)
      else if left.same .str && right.same .str then some .str
      else none
  | sub | mul | div | mod =>
      if numeric then some (if left.same .int && right.same .int then .int else .float) else none
  | lt | le | gt | ge => if numeric then some .bool else none
  | eq | ne => if left.same right || numeric then some .bool else none
  | and | or => if left.same .bool && right.same .bool then some .bool else none

namespace Typing

def expect (token : Token) (expected actual : Ty) : Except TypeError Unit :=
  if expected.assignable actual then .ok () else .error ⟨token, .mismatch expected actual⟩

/-- The type that a token names; `unit` where no type is written. -/
def resolve : Option Token → Except TypeError Ty
  | none => .ok .unit
  | some token =>
      match Ty.primitive? token.value with
      | some type => .ok type
      | none => .error ⟨token, .unknownType token.value⟩

def checkArgs (infer : Expr → Except TypeError Ty) : List Expr → List Ty → Except TypeError Unit
  | arg :: args, param :: params => do
      let actual ← infer arg
      expect arg.token param actual
      checkArgs infer args params
  | _, _ => .ok ()

end Typing

open Typing

def Expr.infer (root : Token) (scopes : Scopes) : (depth : Nat) → Expr → Except TypeError Ty
  | 0, _ => .error ⟨root, .nestingTooDeep⟩
  | _ + 1, .intLit _ _ => .ok .int
  | _ + 1, .floatLit _ _ => .ok .float
  | _ + 1, .stringLit _ _ => .ok .str
  | _ + 1, .boolLit _ _ => .ok .bool
  | _ + 1, .name token =>
      match scopes.lookup token.value with
      | some type => .ok type
      | none => .error ⟨token, .undefinedVariable token.value⟩
  | depth + 1, .unary token op operand => do
      let type ← infer root scopes depth operand
      match op.result? type with
      | some result => .ok result
      | none => .error ⟨token, .unaryOperand op type⟩
  | depth + 1, .binary token op left right => do
      let leftType ← infer root scopes depth left
      let rightType ← infer root scopes depth right
      match op.result? leftType rightType with
      | some result => .ok result
      | none => .error ⟨token, .binaryOperands op leftType rightType⟩
  | depth + 1, .call token callee args => do
      let type ← infer root scopes depth callee
      match type.signature? with
      | none => .error ⟨callee.token, .notCallable type⟩
      | some (params, result) =>
          if args.length = params.length then do
            checkArgs (infer root scopes depth) args params
            return result
          else
            .error ⟨token, .arity params.length args.length⟩

/-!
# Statements
-/

/-- The scopes, and the result types of the functions whose bodies are open, innermost first. -/
structure Checker where
  scopes : Scopes
  returns : List Ty := []

/-- A check changes the checker and may fail; what it changed before it failed stays changed. -/
abbrev CheckM : Type → Type :=
  ExceptT TypeError (StateM Checker)

namespace CheckM

def attempt {α : Type} (x : Except TypeError α) : CheckM α :=
  ExceptT.mk (pure x)

def typeOf (root : Token) (depth : Nat) (e : Expr) : CheckM Ty := do
  attempt (e.infer root (← get).scopes depth)

def changeScopes (f : Scopes → Scopes) : CheckM Unit :=
  modify fun c => { c with scopes := f c.scopes }

def define (name : Token) (type : Ty) : CheckM Unit :=
  changeScopes (·.define name.value type)

def inScope (body : CheckM Unit) : CheckM Unit := do
  changeScopes Scopes.enter
  body
  changeScopes Scopes.exit

def inFunction (result : Ty) (body : CheckM Unit) : CheckM Unit := do
  modify fun c => { c with returns := result :: c.returns }
  body
  modify fun c => { c with returns := c.returns.tail }

end CheckM

open CheckM

def Stmt.check (root : Token) : (depth : Nat) → Stmt → CheckM Unit
  | 0, _ => throw ⟨root, .nestingTooDeep⟩
  | depth + 1, .letBinding _ name declared value => do
      let actual ← typeOf root depth value
      match declared with
      | none => define name actual
      | some token => do
          let type ← attempt (resolve (some token))
          attempt (expect value.token type actual)
          define name type
  | depth + 1, .assign _ name value => do
      let actual ← typeOf root depth value
      match (← get).scopes.lookup name.value with
      | none => define name actual
      | some existing =>
          if existing.assignable actual then return ()
          else throw ⟨name, .unassignable name.value actual existing⟩
  | depth + 1, .funcDef _ name params returnType body => do
      let types ← attempt (params.mapM fun p => resolve (some p.type))
      let result ← attempt (resolve returnType)
      define name (.func types result)
      inScope do
        (params.zip types).forM fun (p, type) => define p.name type
        inFunction result (body.statements.forM (check root depth))
  | depth + 1, .conditional _ condition body otherwise => do
      let type ← typeOf root depth condition
      attempt (expect condition.token .bool type)
      inScope (body.statements.forM (check root depth))
      match otherwise with
      | none => return ()
      | some (.block other) => inScope (other.statements.forM (check root depth))
      | some (.conditional stmt) => check root depth stmt
  | depth + 1, .whileLoop _ condition body => do
      let type ← typeOf root depth condition
      attempt (expect condition.token .bool type)
      inScope (body.statements.forM (check root depth))
  | depth + 1, .giveBack token value => do
      match (← get).returns with
      | [] => throw ⟨token, .returnOutside⟩
      | result :: _ =>
          match value with
          | none => attempt (expect token result .unit)
          | some e => do
              let type ← typeOf root depth e
              attempt (expect e.token result type)
  | depth + 1, .expr _ value => do
      let _ ← typeOf root depth value
      return ()

def Program.check (limit : Nat) (p : Program) (c : Checker) : Except TypeError Unit × Checker :=
  (p.statements.forM (Stmt.check p.token limit)).run.run c

end TypedAnt
