import TypedAnt.Numeral
import TypedAnt.Token

/-!
# Syntax errors

A syntax error points at the first token that cannot continue any program.  Its
cause says what was expected there; the message is derived from both.
-/

namespace TypedAnt

def messageOr (general : String) : Option String → String
  | some words => if words.isEmpty then general else words
  | none => general

namespace SyntaxError

inductive Kind where
  | unexpectedToken
  | expectedExpression
  | expectedIdentifier
  | expectedType
  | unclosedBlock
  | invalidTarget
  | nestingTooDeep
deriving DecidableEq, Repr

def Kind.text : Kind → String
  | unexpectedToken => "unexpected token"
  | expectedExpression => "expected expression"
  | expectedIdentifier => "expected identifier"
  | expectedType => "expected type"
  | unclosedBlock => "unclosed block"
  | invalidTarget => "invalid assignment target"
  | nestingTooDeep => "nesting too deep"

inductive Cause where
  | expectedOp (op : String)
  | expectedEnd
  | expectedExpression
  | expectedIdentifier
  | expectedType
  | unclosedBlock (line : Int)
  | invalidTarget
  | nestingTooDeep
deriving DecidableEq, Repr

def Cause.kind : Cause → Kind
  | expectedOp _ => .unexpectedToken
  | expectedEnd => .unexpectedToken
  | expectedExpression => .expectedExpression
  | expectedIdentifier => .expectedIdentifier
  | expectedType => .expectedType
  | unclosedBlock _ => .unclosedBlock
  | invalidTarget => .invalidTarget
  | nestingTooDeep => .nestingTooDeep

end SyntaxError

structure SyntaxError where
  token : Token
  cause : SyntaxError.Cause
deriving DecidableEq, Repr

namespace SyntaxError

def detail (e : SyntaxError) : Option String :=
  match e.cause with
  | .expectedOp op => some ("expected '" ++ op ++ "' but found " ++ e.token.describe)
  | .expectedEnd => some ("expected end of statement but found " ++ e.token.describe)
  | .unclosedBlock line => some ("'\x7b' opened on line " ++ toString line ++ " is never closed")
  | _ => none

def message (e : SyntaxError) : String :=
  messageOr e.cause.kind.text e.detail

end SyntaxError

inductive ParseFailure where
  | rejected (error : SyntaxError)
  | numeral (fault : Numeral.Fault)
deriving DecidableEq, Repr

end TypedAnt
