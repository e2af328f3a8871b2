import TypedAnt.Proofs.Program.Running

/-!
# Renderings

The same tokens may stand at other places, and the same integers may be written with other
digits.  A rendering is such a change of tokens.  It goes through every tree that is built from
them.
-/

namespace TypedAnt

def Token.fault? (t : Token) : Option Numeral.Fault :=
  match t.kind, Numeral.readInt t.value with
  | .int, .error fault => some fault
  | _, _ => none

theorem Token.fault?_of_ne {t : Token} (h : t.kind ≠ .int) : t.fault? = none := by
  unfold fault?
  split
  · rename_i hkind _
    exact absurd hkind h
  · rfl

theorem Token.fault?_of_ok {t : Token} {n : Int} (h : Numeral.readInt t.value = .ok n) :
    t.fault? = none := by
  unfold fault?
  rw [h]
  split
  · rename_i herror
    cases herror
  · rfl

theorem Token.fault?_of_error {t : Token} {fault : Numeral.Fault} (hkind : t.kind = .int)
    (h : Numeral.readInt t.value = .error fault) : t.fault? = some fault := by
  unfold fault?
  rw [hkind, h]

/--
A change of tokens that keeps their kinds, and all values but those of integers.  An integer
that cannot be read before it is rendered cannot be read afterwards, for the same reason.
The new line of a token depends on its old line alone.
-/
structure Rendering where
  token : Token → Token
  line : Int → Int
  kind_eq : ∀ t, (token t).kind = t.kind
  value_eq : ∀ t, t.kind ≠ .int → (token t).value = t.value
  line_eq : ∀ t, (token t).line = line t.line
  fault_eq : ∀ t fault, t.fault? = some fault → (token t).fault? = some fault

namespace Rendering

def refl : Rendering where
  token t := t
  line n := n
  kind_eq _ := rfl
  value_eq _ _ := rfl
  line_eq _ := rfl
  fault_eq _ _ h := h

variable (r : Rendering)

/-!
# Trees
-/

def number (t : Token) : Int :=
  match Numeral.readInt (r.token t).value with
  | .ok n => n
  | .error _ => 0

mutual

def expr (r : Rendering) : Expr → Expr
  | .intLit t _ => .intLit (r.token t) (r.number t)
  | .floatLit t bits => .floatLit (r.token t) bits
  | .stringLit t value => .stringLit (r.token t) value
  | .boolLit t value => .boolLit (r.token t) value
  | .name t => .name (r.token t)
  | .unary t op operand => .unary (r.token t) op (expr r operand)
  | .binary t op left right => .binary (r.token t) op (expr r left) (expr r right)
  | .call t callee args => .call (r.token t) (expr r callee) (exprs r args)

def exprs (r : Rendering) : List Expr → List Expr
  | [] => []
  | e :: es => expr r e :: exprs r es

end

def param (p : Param) : Param :=
  ⟨r.token p.name, r.token p.type⟩

mutual

def stmt (r : Rendering) : Stmt → Stmt
  | .letBinding t name declared value =>
      .letBinding (r.token t) (r.token name) (declared.map r.token) (r.expr value)
  | .assign t name value => .assign (r.token t) (r.token name) (r.expr value)
  | .funcDef t name params returnType body =>
      .funcDef (r.token t) (r.token name) (params.map r.param) (returnType.map r.token)
        (block r body)
  | .conditional t condition body other =>
      .conditional (r.token t) (r.expr condition) (block r body) (alternative r other)
  | .whileLoop t condition body => .whileLoop (r.token t) (r.expr condition) (block r body)
  | .giveBack t value => .giveBack (r.token t) (value.map r.expr)
  | .expr t value => .expr (r.token t) (r.expr value)

def block (r : Rendering) : Block Stmt → Block Stmt
  | ⟨t, statements⟩ => ⟨r.token t, stmts r statements⟩

def alternative (r : Rendering) : Option (Otherwise Stmt) → Option (Otherwise Stmt)
  | none => none
  | some other => some (otherwise r other)

def otherwise (r : Rendering) : Otherwise Stmt → Otherwise Stmt
  | .block body => .block (block r body)
  | .conditional statement => .conditional (stmt r statement)

def stmts (r : Rendering) : List Stmt → List Stmt
  | [] => []
  | s :: rest => stmt r s :: stmts r rest

end

@[simp]
theorem exprs_eq_map (es : List Expr) : r.exprs es = es.map r.expr := by
  induction es with
  | nil => rfl
  | cons e es ih => rw [exprs, ih, List.map_cons]

@[simp]
theorem stmts_eq_map (ss : List Stmt) : r.stmts ss = ss.map r.stmt := by
  induction ss with
  | nil => rfl
  | cons s ss ih => rw [stmts, ih, List.map_cons]

@[simp]
theorem alternative_eq_map (other : Option (Otherwise Stmt)) :
    r.alternative other = other.map r.otherwise := by
  cases other <;> rfl

theorem block_statements (b : Block Stmt) : (r.block b).statements = b.statements.map r.stmt := by
  cases b
  exact r.stmts_eq_map _

theorem token_expr (e : Expr) : (r.expr e).token = r.token e.token := by
  cases e <;> rfl

def program (p : Program) : Program :=
  ⟨r.token p.token, p.statements.map r.stmt⟩

/-!
# Errors
-/

def cause : SyntaxError.Cause → SyntaxError.Cause
  | .unclosedBlock n => .unclosedBlock (r.line n)
  | cause => cause

def stop : Parser.Stop → Parser.Stop
  | .rejected rest cause => .rejected (rest.map r.token) (r.cause cause)
  | .numeral fault => .numeral fault

def syntaxError (e : SyntaxError) : SyntaxError :=
  ⟨r.token e.token, r.cause e.cause⟩

def failure : ParseFailure → ParseFailure
  | .rejected e => .rejected (r.syntaxError e)
  | .numeral fault => .numeral fault

/-!
# What a token is told by
-/

@[simp]
theorem isOp_token (t : Token) (op : String) : (r.token t).isOp op = t.isOp op := by
  unfold Token.isOp
  rw [r.kind_eq]
  by_cases hkind : t.kind = .int
  · rw [hkind]
    rfl
  · rw [r.value_eq t hkind]

@[simp]
theorem isKeyword_token (t : Token) (word : String) :
    (r.token t).isKeyword word = t.isKeyword word := by
  unfold Token.isKeyword
  rw [r.kind_eq]
  by_cases hkind : t.kind = .int
  · rw [hkind]
    rfl
  · rw [r.value_eq t hkind]

@[simp]
theorem isSeparator_token (t : Token) : (r.token t).isSeparator = t.isSeparator := by
  unfold Token.isSeparator
  rw [r.kind_eq, r.isOp_token]

theorem unaryOp_token (t : Token) :
    UnaryOp.atToken? (r.token t) = (UnaryOp.atToken? t).map (Prod.map r.token id) := by
  unfold UnaryOp.atToken? UnaryOp.ofToken?
  simp only [isOp_token, Option.map_map]
  rfl

theorem binaryOp_token (level : Nat) (t : Token) :
    BinaryOp.atLevel? level (r.token t) = (BinaryOp.atLevel? level t).map (Prod.map r.token id) := by
  unfold BinaryOp.atLevel? BinaryOp.ofToken?
  simp only [isOp_token]
  cases BinaryOp.all.find? (fun op => t.isOp op.symbol) with
  | none => rfl
  | some op =>
      simp only [Option.bind_some]
      split <;> rfl

theorem opening_token (t : Token) :
    Opening.atToken? (r.token t) = (Opening.atToken? t).map (Prod.map r.token id) := by
  unfold Opening.atToken?
  simp only [isKeyword_token, Option.map_map]
  rfl

end Rendering
end TypedAnt
