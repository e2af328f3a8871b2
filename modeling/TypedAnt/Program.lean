import TypedAnt.Token

/-!
# Programs

The tree of a TypedAnt program.  Every node keeps the token that stands for it in
messages: an operator for a binary expression, the opening parenthesis for a
call, the equals sign for an assignment, the first token for most others.
-/

namespace TypedAnt

inductive UnaryOp where
  | neg
  | not
deriving DecidableEq, Repr

namespace UnaryOp

def all : List UnaryOp :=
  [neg, not]

def symbol : UnaryOp → String
  | neg => "-"
  | not => "!"

def ofToken? (t : Token) : Option UnaryOp :=
  all.find? fun op => t.isOp op.symbol

def atToken? (t : Token) : Option (Token × UnaryOp) :=
  (ofToken? t).map fun op => (t, op)

end UnaryOp

inductive BinaryOp where
  | or
  | and
  | eq
  | ne
  | lt
  | le
  | gt
  | ge
  | add
  | sub
  | mul
  | div
  | mod
deriving DecidableEq, Repr

namespace BinaryOp

def all : List BinaryOp :=
  [or, and, eq, ne, lt, le, gt, ge, add, sub, mul, div, mod]

def symbol : BinaryOp → String
  | or => "||"
  | and => "&&"
  | eq => "=="
  | ne => "!="
  | lt => "<"
  | le => "<="
  | gt => ">"
  | ge => ">="
  | add => "+"
  | sub => "-"
  | mul => "*"
  | div => "/"
  | mod => "%"

/-- Operators of a higher level bind tighter; there are six levels, the first binds loosest. -/
def level : BinaryOp → Nat
  | or => 1
  | and => 2
  | eq | ne => 3
  | lt | le | gt | ge => 4
  | add | sub => 5
  | mul | div | mod => 6

def ofToken? (t : Token) : Option BinaryOp :=
  all.find? fun op => t.isOp op.symbol

def atLevel? (level : Nat) (t : Token) : Option (Token × BinaryOp) :=
  (ofToken? t).bind fun op => if op.level = level then some (t, op) else none

end BinaryOp

inductive Opening where
  | letBinding
  | funcDef
  | conditional
  | whileLoop
  | giveBack
deriving DecidableEq, Repr

namespace Opening

def all : List Opening :=
  [letBinding, funcDef, conditional, whileLoop, giveBack]

def word : Opening → String
  | letBinding => "let"
  | funcDef => "func"
  | conditional => "if"
  | whileLoop => "while"
  | giveBack => "return"

def atToken? (t : Token) : Option (Token × Opening) :=
  (all.find? fun o => t.isKeyword o.word).map fun o => (t, o)

end Opening

/-- A name is its token; the value of a float literal is the bit pattern of a double. -/
inductive Expr where
  | intLit (token : Token) (value : Int)
  | floatLit (token : Token) (bits : UInt64)
  | stringLit (token : Token) (value : String)
  | boolLit (token : Token) (value : Bool)
  | name (token : Token)
  | unary (token : Token) (op : UnaryOp) (operand : Expr)
  | binary (token : Token) (op : BinaryOp) (left right : Expr)
  | call (token : Token) (callee : Expr) (args : List Expr)

def Expr.token : Expr → Token
  | intLit token _ => token
  | floatLit token _ => token
  | stringLit token _ => token
  | boolLit token _ => token
  | name token => token
  | unary token _ _ => token
  | binary token _ _ _ => token
  | call token _ _ => token

structure Param where
  name : Token
  type : Token
deriving DecidableEq, Repr

structure Block (σ : Type) where
  token : Token
  statements : List σ

inductive Otherwise (σ : Type) where
  | block (body : Block σ)
  | conditional (statement : σ)

/-- Types are named by an identifier token wherever they are written down. -/
inductive Stmt where
  | letBinding (token name : Token) (declared : Option Token) (value : Expr)
  | assign (token name : Token) (value : Expr)
  | funcDef (token name : Token) (params : List Param) (returnType : Option Token)
      (body : Block Stmt)
  | conditional (token : Token) (condition : Expr) (body : Block Stmt)
      (otherwise : Option (Otherwise Stmt))
  | whileLoop (token : Token) (condition : Expr) (body : Block Stmt)
  | giveBack (token : Token) (value : Option Expr)
  | expr (token : Token) (value : Expr)

/-- A whole program; the token is the first one of the text, whatever it is. -/
structure Program where
  token : Token
  statements : List Stmt

end TypedAnt
