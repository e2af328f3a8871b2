import TypedAnt.Program.Parser

/-!
# Parsing with a cursor

The parser once more, over a list of tokens that stays as it is: a cursor stands on one of
them and is moved.  No type keeps the cursor on the tokens or brings a loop to its end, so
a look outside the tokens is a halt of its own, and so is a round of a loop that
wants another one where it started.
-/

namespace TypedAnt
namespace Cursor

inductive Halt where
  | failed (failure : ParseFailure)
  | outside
  | stuck
deriving DecidableEq, Repr

/-- Where the cursor stands, where it has ever stood, and the statements that are completed. -/
structure Walk where
  position : Nat := 0
  trail : List Nat := [0]
  statements : List Stmt := []

abbrev Machine : Type → Type :=
  ReaderT (List Token) (EStateM Halt Walk)

/-!
# Single tokens
-/

section Tokens

variable {α : Type}

def halt (h : Halt) : Machine α :=
  fun _ k => .error h k

def position : Machine Nat :=
  fun _ k => .ok k.position k

def moveTo (position : Nat) : Machine Unit :=
  fun _ k => .ok () { k with position := position, trail := position :: k.trail }

def record (stmt : Stmt) : Machine Unit :=
  fun _ k => .ok () { k with statements := k.statements ++ [stmt] }

def current : Machine Token :=
  fun tokens k =>
    match tokens[k.position]? with
    | some t => .ok t k
    | none => .error .outside k

/-- Takes the token under the cursor; an end-of-file token stays under it. -/
def advance : Machine Token := do
  let t ← current
  if t.kind != .eof then
    moveTo ((← position) + 1)
  return t

def reject (cause : SyntaxError.Cause) : Machine α := do
  halt (.failed (.rejected ⟨← current, cause⟩))

def look (f : Token → α) : Machine α := do
  return f (← current)

def accept (f : Token → Option α) : Machine (Option α) := do
  match f (← current) with
  | some x => do
      let _ ← advance
      return some x
  | none => return none

def expect (p : Token → Bool) (cause : SyntaxError.Cause) : Machine Token := do
  if p (← current) then advance else reject cause

def atOp (op : String) : Machine Bool :=
  look (·.isOp op)

def atEnd : Machine Bool :=
  look (·.kind == .eof)

def acceptOp (op : String) : Machine (Option Token) :=
  accept (Option.guard (·.isOp op))

def expectOp (op : String) : Machine Token :=
  expect (·.isOp op) (.expectedOp op)

def identifier (cause : SyntaxError.Cause) : Machine Token :=
  expect (·.kind == .ident) cause

def optionalType (mark : String) : Machine (Option Token) := do
  match ← acceptOp mark with
  | some _ => return some (← identifier .expectedType)
  | none => return none

end Tokens

/-!
# Loops

A loop carries a value from round to round.  It has to leave off before there have been more
rounds than tokens.
-/

section Loops

variable {α σ : Type}

def loopFrom (round : σ → Machine (ForInStep σ)) : (rounds : Nat) → σ → Machine σ
  | 0, _ => halt .stuck
  | rounds + 1, x => do
      let start ← position
      match ← round x with
      | .done x => return x
      | .yield x =>
          if start < (← position) then loopFrom round rounds x else halt .stuck

def loop (round : σ → Machine (ForInStep σ)) (x : σ) : Machine σ := do
  loopFrom round ((← read).length + 1) x

/-!
The rounds are written for any kind of parser, with the single steps as arguments.
-/

variable {m : Type → Type} [Monad m]

def skipRound (skipped : m (Option Token)) (_ : Unit) : m (ForInStep Unit) := do
  match ← skipped with
  | some _ => return .yield ()
  | none => return .done ()

def itemRound (closed : m Bool) (comma : m (Option Token)) (item : m α) (xs : List α) :
    m (ForInStep (List α)) := do
  if ← closed then
    return .done xs
  else
    let x ← item
    match ← comma with
    | some _ => return .yield (xs ++ [x])
    | none => return .done (xs ++ [x])

def partRound (part : Expr → m (Option Expr)) (e : Expr) : m (ForInStep Expr) := do
  match ← part e with
  | some e => return .yield e
  | none => return .done e

def stmtRound (closing : m (Option Token)) (ended : m Bool) (unclosed : m (ForInStep (List Stmt)))
    (statement : m Stmt) (lineEnd : m Unit) (stmts : List Stmt) :
    m (ForInStep (List Stmt)) := do
  match ← closing with
  | some _ => return .done stmts
  | none =>
      if ← ended then
        unclosed
      else
        let stmt ← statement
        lineEnd
        return .yield (stmts ++ [stmt])

def skipWhile (p : Token → Bool) : Machine Unit :=
  loop (skipRound (accept (Option.guard p))) ()

def skipSeparators : Machine Unit :=
  skipWhile Token.isSeparator

def endsStatement (t : Token) : Bool :=
  t.kind == .eof || t.isSeparator || t.isOp "\x7d"

def lineEnd : Machine Unit := do
  if ← look endsStatement then skipSeparators else reject .expectedEnd

def items (item : Machine α) : Machine (List α) :=
  loop (itemRound (atOp ")") (acceptOp ",") item) []

def grow (part : Expr → Machine (Option Expr)) (e : Expr) : Machine Expr :=
  loop (partRound part) e

end Loops

/-!
# Expressions
-/

section Expressions

def operation (level : Nat) (operand : Machine Expr) (left : Expr) : Machine (Option Expr) := do
  match ← accept (BinaryOp.atLevel? level) with
  | some (t, op) => return some (.binary t op left (← operand))
  | none => return none

def chain (level : Nat) (operand : Machine Expr) : Machine Expr := do
  grow (operation level operand) (← operand)

def binaryLevels (operand : Machine Expr) : (count : Nat) → Machine Expr
  | 0 => operand
  | count + 1 => chain (6 - count) (binaryLevels operand count)

def expressionOf (operand : Machine Expr) : Machine Expr :=
  binaryLevels operand 6

def arguments (expression : Machine Expr) (callee : Expr) : Machine (Option Expr) := do
  match ← acceptOp "(" with
  | some t => do
      let args ← items expression
      let _ ← expectOp ")"
      return some (.call t callee args)
  | none => return none

def primary (expression : Machine Expr) : Machine Expr := do
  match ← accept Parser.atom? with
  | some (.ok e) => return e
  | some (.error fault) => halt (.failed (.numeral fault))
  | none =>
      match ← acceptOp "(" with
      | some _ => do
          let e ← expression
          let _ ← expectOp ")"
          return e
      | none => reject .expectedExpression

def operand (expression : Machine Expr) : Machine Expr := do
  grow (arguments expression) (← primary expression)

def unary : (depth : Nat) → Machine Expr
  | 0 => reject .nestingTooDeep
  | depth + 1 => do
      match ← accept UnaryOp.atToken? with
      | some (t, op) => return .unary t op (← unary depth)
      | none => operand (expressionOf (unary depth))

def expression (depth : Nat) : Machine Expr :=
  expressionOf (unary depth)

end Expressions

/-!
# Statements
-/

section Statements

def blockRest (statement : Machine Stmt) (brace : Token) : Machine (List Stmt) :=
  loop (stmtRound (acceptOp "\x7d") atEnd (reject (.unclosedBlock brace.line)) statement lineEnd) []

def block (statement : Machine Stmt) : Machine (Block Stmt) := do
  let brace ← expectOp "\x7b"
  skipSeparators
  return ⟨brace, ← blockRest statement brace⟩

def param : Machine Param := do
  let name ← identifier .expectedIdentifier
  let _ ← expectOp ":"
  let declared ← identifier .expectedType
  return ⟨name, declared⟩

def letBinding (expression : Machine Expr) (token : Token) : Machine Stmt := do
  let name ← identifier .expectedIdentifier
  let declared ← optionalType ":"
  let _ ← expectOp "="
  let value ← expression
  return .letBinding token name declared value

def funcDef (body : Machine (Block Stmt)) (token : Token) : Machine Stmt := do
  let name ← identifier .expectedIdentifier
  let _ ← expectOp "("
  let params ← items param
  let _ ← expectOp ")"
  let returnType ← optionalType "->"
  let body ← body
  return .funcDef token name params returnType body

def orBack (mark : Nat) : Option Token → Machine Bool
  | some _ => return true
  | none => do
      moveTo mark
      return false

/-- Goes past newlines to look for `else`, and back to where it started if there is none. -/
def acceptElse : Machine Bool := do
  let mark ← position
  skipWhile (·.kind == .newline)
  orBack mark (← accept (Option.guard (·.isKeyword "else")))

def otherwise (body : Machine (Block Stmt)) (statement : Machine Stmt) :
    Machine (Otherwise Stmt) := do
  if ← look (·.isKeyword "if") then
    return .conditional (← statement)
  else
    return .block (← body)

def alternative (body : Machine (Block Stmt)) (statement : Machine Stmt) :
    Machine (Option (Otherwise Stmt)) := do
  if ← acceptElse then
    return some (← otherwise body statement)
  else
    return none

def conditional (expression : Machine Expr) (body : Machine (Block Stmt))
    (statement : Machine Stmt) (token : Token) : Machine Stmt := do
  let condition ← expression
  let thenBody ← body
  let other ← alternative body statement
  return .conditional token condition thenBody other

def whileLoop (expression : Machine Expr) (body : Machine (Block Stmt)) (token : Token) :
    Machine Stmt := do
  let condition ← expression
  let body ← body
  return .whileLoop token condition body

def giveBack (expression : Machine Expr) (token : Token) : Machine Stmt := do
  if ← look endsStatement then
    return .giveBack token none
  else
    return .giveBack token (some (← expression))

def assignmentRest (expression : Machine Expr) (first : Token) (e : Expr) : Machine Stmt := do
  if ← atOp "=" then
    match e with
    | .name name => do
        let token ← expectOp "="
        return .assign token name (← expression)
    | _ => reject .invalidTarget
  else
    return .expr first e

def assignOrExpr (expression : Machine Expr) : Machine Stmt := do
  match ← look (Option.guard (·.kind != .eof)) with
  | none => reject .expectedExpression
  | some first => assignmentRest expression first (← expression)

def opened (expression : Machine Expr) (body : Machine (Block Stmt)) (statement : Machine Stmt)
    (token : Token) : Opening → Machine Stmt
  | .letBinding => letBinding expression token
  | .funcDef => funcDef body token
  | .conditional => conditional expression body statement token
  | .whileLoop => whileLoop expression body token
  | .giveBack => giveBack expression token

def statement : (depth : Nat) → Machine Stmt
  | 0 => reject .nestingTooDeep
  | depth + 1 => do
      match ← accept Opening.atToken? with
      | some (t, o) => opened (expression depth) (block (statement depth)) (statement depth) t o
      | none => assignOrExpr (expression depth)

end Statements

/-!
# Whole programs
-/

def lineRound (limit : Nat) (_ : Unit) : Machine (ForInStep Unit) := do
  if ← atEnd then
    return .done ()
  else
    record (← statement limit)
    lineEnd
    return .yield ()

def lines (limit : Nat) : Machine Unit := do
  skipSeparators
  loop (lineRound limit) ()

def finish (first : Token) (lines : Machine Unit) : Machine Parsed :=
  fun tokens k =>
    match lines tokens k with
    | .ok _ k => .ok ⟨⟨first, k.statements⟩, none⟩ k
    | .error (.failed failure) k => .ok ⟨⟨first, k.statements⟩, some failure⟩ k
    | .error h k => .error h k

def program (limit : Nat) : Machine Parsed := do
  finish (← current) (lines limit)

/-- The tokens, with an end-of-file token at the place of the last one unless that is one. -/
def complete (tokens : List Token) : List Token :=
  match tokens.getLast? with
  | none => [⟨.eof, "", 1, 1⟩]
  | some last =>
      if last.kind == .eof then tokens else tokens ++ [⟨.eof, "", last.line, last.column⟩]

def parse (limit : Nat) (tokens : List Token) : EStateM.Result Halt Walk Parsed :=
  program limit (complete tokens) {}

end Cursor
end TypedAnt
