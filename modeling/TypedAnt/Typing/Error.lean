import TypedAnt.Program
import TypedAnt.Program.Error
import TypedAnt.Ty

/-!
# Type errors
-/

namespace TypedAnt
namespace TypeError

inductive Kind where
  | undefinedVariable
  | unknownType
  | mismatch
  | notCallable
  | arity
  | returnOutside
  | nestingTooDeep
deriving DecidableEq, Repr

def Kind.text : Kind → String
  | undefinedVariable => "undefined variable"
  | unknownType => "unknown type"
  | mismatch => "type mismatch"
  | notCallable => "not callable"
  | arity => "wrong number of arguments"
  | returnOutside => "return outside function"
  | nestingTooDeep => "nesting too deep"

inductive Cause where
  | undefinedVariable (name : String)
  | unknownType (name : String)
  | mismatch (expected actual : Ty)
  | unassignable (name : String) (value existing : Ty)
  | unaryOperand (op : UnaryOp) (operand : Ty)
  | binaryOperands (op : BinaryOp) (left right : Ty)
  | notCallable (type : Ty)
  | arity (expected actual : Nat)
  | returnOutside
  | nestingTooDeep

def Cause.kind : Cause → Kind
  | undefinedVariable _ => .undefinedVariable
  | unknownType _ => .unknownType
  | mismatch _ _ => .mismatch
  | unassignable _ _ _ => .mismatch
  | unaryOperand _ _ => .mismatch
  | binaryOperands _ _ _ => .mismatch
  | notCallable _ => .notCallable
  | arity _ _ => .arity
  | returnOutside => .returnOutside
  | nestingTooDeep => .nestingTooDeep

def Cause.detail : Cause → Option String
  | undefinedVariable name => some ("undefined variable '" ++ name ++ "'")
  | unknownType name => some ("unknown type '" ++ name ++ "'")
  | mismatch expected actual => some ("expected " ++ expected.text ++ " but found " ++ actual.text)
  | unassignable name value existing =>
      some ("cannot assign " ++ value.text ++ " to '" ++ name ++ "' of type " ++ existing.text)
  | unaryOperand op operand =>
      some ("unsupported operand type for unary " ++ op.symbol ++ ": " ++ operand.text)
  | binaryOperands op left right =>
      some ("unsupported operand types for " ++ op.symbol ++ ": " ++ left.text ++ " and " ++
        right.text)
  | notCallable type => some (type.text ++ " is not callable")
  | arity expected actual =>
      some ("expected " ++ toString expected ++ " argument(s) but got " ++ toString actual)
  | returnOutside => none
  | nestingTooDeep => none

end TypeError

structure TypeError where
  token : Token
  cause : TypeError.Cause

def TypeError.message (e : TypeError) : String :=
  messageOr e.cause.kind.text e.cause.detail

end TypedAnt
