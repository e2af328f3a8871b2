import TypedAnt.Position
import TypedAnt.Program.Error
import TypedAnt.Typing.Error

/-!
# Diagnostics

What the client is shown about a broken document: a message at a range, from the
document that the label names.  Every diagnostic is an error.
-/

namespace TypedAnt

structure Diagnostic where
  range : Range
  message : String
  source : String
deriving DecidableEq, Repr

namespace Diagnostic

/-- Lexical errors are reported without detail, at the start of the document. -/
def lexical (label : String) : Diagnostic :=
  ⟨⟨⟨0, 0⟩, ⟨0, 0⟩⟩, "lexer error", label⟩

def atToken (units : Units) (text label : String) (token : Token) (message : String) :
    Except Position.Fault Diagnostic := do
  return ⟨← token.range units text, message, label⟩

end Diagnostic

def SyntaxError.diagnostic (e : SyntaxError) (units : Units) (text label : String) :
    Except Position.Fault Diagnostic :=
  Diagnostic.atToken units text label e.token e.message

def TypeError.diagnostic (e : TypeError) (units : Units) (text label : String) :
    Except Position.Fault Diagnostic :=
  Diagnostic.atToken units text label e.token e.message

end TypedAnt
