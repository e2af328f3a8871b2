import TypedAnt.Program

/-!
# The height of a program

How many nodes stand one inside the other at most, from a statement down to a leaf.  Blocks
and the lists of statements and arguments are not nodes of their own.
-/

namespace TypedAnt

mutual

def Expr.height : Expr → Nat
  | .intLit _ _ | .floatLit _ _ | .stringLit _ _ | .boolLit _ _ | .name _ => 1
  | .unary _ _ operand => operand.height + 1
  | .binary _ _ left right => max left.height right.height + 1
  | .call _ callee args => max callee.height (Expr.heights args) + 1

def Expr.heights : List Expr → Nat
  | [] => 0
  | e :: es => max e.height (Expr.heights es)

end

mutual

def Stmt.height : Stmt → Nat
  | .letBinding _ _ _ value | .assign _ _ value | .expr _ value => value.height + 1
  | .funcDef _ _ _ _ body => Block.height body + 1
  | .conditional _ condition body otherwise =>
      max condition.height (max (Block.height body) (Otherwise.heightOf otherwise)) + 1
  | .whileLoop _ condition body => max condition.height (Block.height body) + 1
  | .giveBack _ none => 1
  | .giveBack _ (some value) => value.height + 1

def Block.height : Block Stmt → Nat
  | ⟨_, statements⟩ => Stmt.heights statements

def Otherwise.heightOf : Option (Otherwise Stmt) → Nat
  | none => 0
  | some otherwise => Otherwise.height otherwise

def Otherwise.height : Otherwise Stmt → Nat
  | .block body => Block.height body
  | .conditional statement => statement.height

def Stmt.heights : List Stmt → Nat
  | [] => 0
  | s :: rest => max s.height (Stmt.heights rest)

end

def Program.height (p : Program) : Nat :=
  Stmt.heights p.statements

theorem Expr.height_pos (e : Expr) : 0 < e.height := by
  cases e <;> simp [height]

theorem Stmt.height_pos (s : Stmt) : 0 < s.height := by
  cases s with
  | giveBack t value => cases value <;> simp [height]
  | _ => simp [height]

theorem Block.height_eq (b : Block Stmt) : b.height = Stmt.heights b.statements := by
  cases b
  rfl

end TypedAnt
