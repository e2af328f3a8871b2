import TypedAnt.Program
import TypedAnt.Program.Error
import TypedAnt.Token.StringLiteral

/-!
# Parsing

A parser works on the tokens that are left, without the end-of-file token, and gives a
part of the tree.  Where it stops early it says which tokens were left then.

Nesting is bounded: `unary` and `statement` recurse on the number of levels that may
still be opened, and everything between two such levels is built from small
parsers that take the parser of the next level as an argument.  Repetition takes a
number of rounds.  A round uses up at least one token, so one round more than there are
tokens left is always enough, and it does not matter what happens without any.
-/

namespace TypedAnt
namespace Parser

inductive Stop where
  | rejected (rest : List Token) (cause : SyntaxError.Cause)
  | numeral (fault : Numeral.Fault)
deriving DecidableEq, Repr

/-- The failure to report; a text that ends too soon is rejected at its end-of-file token. -/
def Stop.failure (eof : Token) : Stop → ParseFailure
  | rejected rest cause => .rejected ⟨rest.headD eof, cause⟩
  | numeral fault => .numeral fault

abbrev Parse : Type → Type :=
  StateT (List Token) (Except Stop)

/-!
# Single tokens
-/

section Tokens

variable {α : Type}

def reject (cause : SyntaxError.Cause) : Parse α :=
  fun s => .error (.rejected s cause)

def look (f : Option Token → α) : Parse α :=
  fun s => .ok (f s.head?, s)

def accept (f : Token → Option α) : Parse (Option α) :=
  fun
  | [] => .ok (none, [])
  | t :: rest =>
      match f t with
      | some x => .ok (some x, rest)
      | none => .ok (none, t :: rest)

def expect (p : Token → Bool) (cause : SyntaxError.Cause) : Parse Token :=
  fun
  | [] => reject cause []
  | t :: rest => if p t then .ok (t, rest) else reject cause (t :: rest)

def atOp (op : String) : Parse Bool :=
  look fun next => next.any (·.isOp op)

def acceptOp (op : String) : Parse (Option Token) :=
  accept (Option.guard (·.isOp op))

def expectOp (op : String) : Parse Token :=
  expect (·.isOp op) (.expectedOp op)

def identifier (cause : SyntaxError.Cause) : Parse Token :=
  expect (·.kind == .ident) cause

def optionalType (mark : String) : Parse (Option Token) := do
  match ← acceptOp mark with
  | some _ => return some (← identifier .expectedType)
  | none => return none

def endsStatement (next : Option Token) : Bool :=
  next.all fun t => t.isSeparator || t.isOp "\x7d"

def skipSeparators : Parse Unit :=
  fun s => .ok ((), s.dropWhile Token.isSeparator)

def lineEnd : Parse Unit := do
  if ← look endsStatement then skipSeparators else reject .expectedEnd

def itemThen (item : Parse α) (more : Parse (List α)) : Parse (List α) := do
  if ← atOp ")" then
    return []
  else
    let x ← item
    match ← acceptOp "," with
    | some _ => return x :: (← more)
    | none => return [x]

def itemsFrom (item : Parse α) : (rounds : Nat) → Parse (List α)
  | 0 => reject .nestingTooDeep
  | rounds + 1 => itemThen item (itemsFrom item rounds)

def items (item : Parse α) : Parse (List α) := do
  itemsFrom item ((← get).length + 1)

end Tokens

/-!
# Expressions

Binary operators form six levels, each a chain of operands of the next level that
is grouped to the left.  Below the last level stand the unary operators, and
below them the calls.  A chain and a row of calls grow alike: from the expression read
so far, by one more part after it.
-/

section Expressions

def partThen (part : Expr → Parse (Option Expr)) (more : Expr → Parse Expr) (e : Expr) :
    Parse Expr := do
  match ← part e with
  | some e => more e
  | none => return e

def growFrom (part : Expr → Parse (Option Expr)) : (rounds : Nat) → Expr → Parse Expr
  | 0 => fun _ => reject .nestingTooDeep
  | rounds + 1 => partThen part (growFrom part rounds)

def grow (part : Expr → Parse (Option Expr)) (e : Expr) : Parse Expr := do
  growFrom part ((← get).length + 1) e

def operation (level : Nat) (operand : Parse Expr) (left : Expr) : Parse (Option Expr) := do
  match ← accept (BinaryOp.atLevel? level) with
  | some (t, op) => return some (.binary t op left (← operand))
  | none => return none

def chain (level : Nat) (operand : Parse Expr) : Parse Expr := do
  grow (operation level operand) (← operand)

def binaryLevels (operand : Parse Expr) : (count : Nat) → Parse Expr
  | 0 => operand
  | count + 1 => chain (6 - count) (binaryLevels operand count)

def expressionOf (operand : Parse Expr) : Parse Expr :=
  binaryLevels operand 6

def arguments (expression : Parse Expr) (callee : Expr) : Parse (Option Expr) := do
  match ← acceptOp "(" with
  | some t => do
      let args ← items expression
      let _ ← expectOp ")"
      return some (.call t callee args)
  | none => return none

/-- The expression that a token is by itself; the value of a number may be out of reach. -/
def atom? (t : Token) : Option (Except Numeral.Fault Expr) :=
  match t.kind with
  | .int => some ((Numeral.readInt t.value).map (.intLit t))
  | .float => some ((Numeral.readFloat t.value).map (.floatLit t))
  | .string => some (.ok (.stringLit t (StringLiteral.unescape t.value)))
  | .ident => some (.ok (.name t))
  | _ =>
      if t.isKeyword "true" then some (.ok (.boolLit t true))
      else if t.isKeyword "false" then some (.ok (.boolLit t false))
      else none

def unreadable (fault : Numeral.Fault) : Parse Expr :=
  fun _ => .error (.numeral fault)

def primary (expression : Parse Expr) : Parse Expr := do
  match ← accept atom? with
  | some (.ok e) => return e
  | some (.error fault) => unreadable fault
  | none =>
      match ← acceptOp "(" with
      | some _ => do
          let e ← expression
          let _ ← expectOp ")"
          return e
      | none => reject .expectedExpression

def operand (expression : Parse Expr) : Parse Expr := do
  grow (arguments expression) (← primary expression)

def unary : (depth : Nat) → Parse Expr
  | 0 => reject .nestingTooDeep
  | depth + 1 => do
      match ← accept UnaryOp.atToken? with
      | some (t, op) => return .unary t op (← unary depth)
      | none => operand (expressionOf (unary depth))

def expression (depth : Nat) : Parse Expr :=
  expressionOf (unary depth)

end Expressions

/-!
# Statements
-/

section Statements

def statementThen (statement : Parse Stmt) (brace : Token) (more : Parse (List Stmt)) :
    Parse (List Stmt) := do
  match ← acceptOp "\x7d" with
  | some _ => return []
  | none =>
      if ← look Option.isNone then
        reject (.unclosedBlock brace.line)
      else
        let stmt ← statement
        lineEnd
        return stmt :: (← more)

def blockRestFrom (statement : Parse Stmt) (brace : Token) : (rounds : Nat) → Parse (List Stmt)
  | 0 => reject .nestingTooDeep
  | rounds + 1 => statementThen statement brace (blockRestFrom statement brace rounds)

def blockRest (statement : Parse Stmt) (brace : Token) : Parse (List Stmt) := do
  blockRestFrom statement brace ((← get).length + 1)

def block (statement : Parse Stmt) : Parse (Block Stmt) := do
  let brace ← expectOp "\x7b"
  skipSeparators
  return ⟨brace, ← blockRest statement brace⟩

def param : Parse Param := do
  let name ← identifier .expectedIdentifier
  let _ ← expectOp ":"
  let declared ← identifier .expectedType
  return ⟨name, declared⟩

def letBinding (expression : Parse Expr) (token : Token) : Parse Stmt := do
  let name ← identifier .expectedIdentifier
  let declared ← optionalType ":"
  let _ ← expectOp "="
  let value ← expression
  return .letBinding token name declared value

def funcDef (body : Parse (Block Stmt)) (token : Token) : Parse Stmt := do
  let name ← identifier .expectedIdentifier
  let _ ← expectOp "("
  let params ← items param
  let _ ← expectOp ")"
  let returnType ← optionalType "->"
  let body ← body
  return .funcDef token name params returnType body

/-- Takes `else`, which may stand on a later line than the block before it, if it is there. -/
def acceptElse : Parse Bool :=
  fun s =>
    match s.dropWhile (·.kind == .newline) with
    | t :: rest => if t.isKeyword "else" then .ok (true, rest) else .ok (false, s)
    | [] => .ok (false, s)

/-- Only `if` opens a conditional statement, so the parser after `else if` finds one. -/
def otherwise (body : Parse (Block Stmt)) (statement : Parse Stmt) : Parse (Otherwise Stmt) := do
  if ← look fun next => next.any (·.isKeyword "if") then
    return .conditional (← statement)
  else
    return .block (← body)

def alternative (body : Parse (Block Stmt)) (statement : Parse Stmt) :
    Parse (Option (Otherwise Stmt)) := do
  if ← acceptElse then
    return some (← otherwise body statement)
  else
    return none

def conditional (expression : Parse Expr) (body : Parse (Block Stmt)) (statement : Parse Stmt)
    (token : Token) : Parse Stmt := do
  let condition ← expression
  let thenBody ← body
  let other ← alternative body statement
  return .conditional token condition thenBody other

def whileLoop (expression : Parse Expr) (body : Parse (Block Stmt)) (token : Token) :
    Parse Stmt := do
  let condition ← expression
  let body ← body
  return .whileLoop token condition body

def giveBack (expression : Parse Expr) (token : Token) : Parse Stmt := do
  if ← look endsStatement then
    return .giveBack token none
  else
    return .giveBack token (some (← expression))

/-- The statement after its first expression: an assignment if an equals sign follows a name. -/
def assignmentRest (expression : Parse Expr) (first : Token) (e : Expr) : Parse Stmt := do
  if ← atOp "=" then
    match e with
    | .name name => do
        let token ← expectOp "="
        return .assign token name (← expression)
    | _ => reject .invalidTarget
  else
    return .expr first e

def assignOrExpr (expression : Parse Expr) : Parse Stmt := do
  match ← look id with
  | none => reject .expectedExpression
  | some first => assignmentRest expression first (← expression)

def opened (expression : Parse Expr) (body : Parse (Block Stmt)) (statement : Parse Stmt)
    (token : Token) : Opening → Parse Stmt
  | .letBinding => letBinding expression token
  | .funcDef => funcDef body token
  | .conditional => conditional expression body statement token
  | .whileLoop => whileLoop expression body token
  | .giveBack => giveBack expression token

def statement : (depth : Nat) → Parse Stmt
  | 0 => reject .nestingTooDeep
  | depth + 1 => do
      match ← accept Opening.atToken? with
      | some (t, o) => opened (expression depth) (block (statement depth)) (statement depth) t o
      | none => assignOrExpr (expression depth)

def statementsFrom (statement : Parse Stmt) : (rounds : Nat) → List Token → List Stmt × Option Stop
  | 0, s => ([], some (.rejected s .nestingTooDeep))
  | _ + 1, [] => ([], none)
  | rounds + 1, t :: rest =>
      match statement (t :: rest) with
      | .error stop => ([], some stop)
      | .ok (stmt, s) =>
          match lineEnd s with
          | .error stop => ([stmt], some stop)
          | .ok (_, s) =>
              let (stmts, stop) := statementsFrom statement rounds s
              (stmt :: stmts, stop)

/-- All statements of a text: those that were completed, and where parsing stopped, if it did. -/
def statements (limit : Nat) (s : List Token) : List Stmt × Option Stop :=
  statementsFrom (statement limit) (s.length + 1) (s.dropWhile Token.isSeparator)

end Statements
end Parser

/-!
# Whole programs
-/

/--
The outcome of parsing: the statements that were completed, and the failure that
ended the parse, if one did.  A statement counts as completed as soon as it has been
read, even if what follows it cannot follow a statement.
-/
structure Parsed where
  program : Program
  failure : Option ParseFailure

namespace Parsed

/-- The first end-of-file token; where none is given it is put at the place of the last token. -/
def endOf (tokens : List Token) : Token :=
  match tokens.find? (·.kind == .eof), tokens.getLast? with
  | some eof, _ => eof
  | none, some last => ⟨.eof, "", last.line, last.column⟩
  | none, none => ⟨.eof, "", 1, 1⟩

def body (tokens : List Token) : List Token :=
  tokens.takeWhile (·.kind != .eof)

def ofTokens (limit : Nat) (tokens : List Token) : Parsed :=
  let eof := endOf tokens
  let (statements, stop) := Parser.statements limit (body tokens)
  ⟨⟨(body tokens).headD eof, statements⟩, stop.map (Parser.Stop.failure eof)⟩

end Parsed

def nestingLimit : Nat :=
  500

end TypedAnt
