import TypedAnt.Text.Letter
import TypedAnt.Text.Numeric

/-!
# Tokens

A token is a lexeme of TypedAnt together with the place where it starts.  Lines
and columns count from one, columns in characters.  They are integers, because
a token may also be handed in from outside with any place at all.
-/

namespace TypedAnt

inductive TokenKind where
  | int
  | float
  | string
  | ident
  | keyword
  | op
  | newline
  | eof
deriving DecidableEq, Repr

structure Token where
  kind : TokenKind
  value : String
  line : Int
  column : Int
deriving DecidableEq, Repr

namespace Token

def keywords : List String :=
  ["let", "func", "return", "if", "else", "while", "true", "false"]

/-- The operators, two-character ones first, so that the first match is the longest. -/
def operators : List String :=
  ["->", "==", "!=", "<=", ">=", "&&", "||",
   "+", "-", "*", "/", "%", "<", ">", "=", "!",
   "(", ")", "\x7b", "\x7d", ",", ":", ";"]

def isOp (t : Token) (op : String) : Bool :=
  t.kind == .op && t.value == op

def isKeyword (t : Token) (word : String) : Bool :=
  t.kind == .keyword && t.value == word

def isSeparator (t : Token) : Bool :=
  t.kind == .newline || t.isOp ";"

def describe (t : Token) : String :=
  match t.kind with
  | .eof => "end of file"
  | .newline => "newline"
  | _ => "'" ++ t.value ++ "'"

end Token

/-!
# Words

An identifier starts with a letter or an underscore and goes on with letters,
numeric characters and underscores.
-/

namespace Text

def isWordStart (c : Char) : Bool :=
  isLetter c || c == '_'

def isWordChar (c : Char) : Bool :=
  isLetter c || isNumeric c || c == '_'

end Text

end TypedAnt
