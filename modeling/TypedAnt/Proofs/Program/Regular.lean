import TypedAnt.Proofs.Program.Grammar

/-!
# Regular statements

Only a conditional statement follows `else if`.  That is so in every tree that tokens spell,
at every depth.
-/

namespace TypedAnt

inductive Stmt.Regular : Stmt → Prop where
  | letBinding {t name : Token} {declared : Option Token} {value : Expr} :
      Regular (.letBinding t name declared value)
  | assign {t name : Token} {value : Expr} : Regular (.assign t name value)
  | funcDef {t name : Token} {params : List Param} {returnType : Option Token}
      {body : Block Stmt} :
      (∀ stmt ∈ body.statements, Regular stmt) → Regular (.funcDef t name params returnType body)
  | conditional {t : Token} {condition : Expr} {body : Block Stmt} :
      (∀ stmt ∈ body.statements, Regular stmt) → Regular (.conditional t condition body none)
  | elseBlock {t : Token} {condition : Expr} {body other : Block Stmt} :
      (∀ stmt ∈ body.statements, Regular stmt) → (∀ stmt ∈ other.statements, Regular stmt) →
      Regular (.conditional t condition body (some (.block other)))
  | elseIf {t u : Token} {condition next : Expr} {body other : Block Stmt}
      {o : Option (Otherwise Stmt)} :
      (∀ stmt ∈ body.statements, Regular stmt) → Regular (.conditional u next other o) →
      Regular (.conditional t condition body (some (.conditional (.conditional u next other o))))
  | whileLoop {t : Token} {condition : Expr} {body : Block Stmt} :
      (∀ stmt ∈ body.statements, Regular stmt) → Regular (.whileLoop t condition body)
  | giveBack {t : Token} {value : Option Expr} : Regular (.giveBack t value)
  | expr {t : Token} {value : Expr} : Regular (.expr t value)

def Phrase.Regular : Phrase → Prop
  | .expr _ _ => True
  | .block b => ∀ stmt ∈ b.statements, stmt.Regular
  | .otherwise o => ∀ t condition (body : Block Stmt), (∀ stmt ∈ body.statements, stmt.Regular) →
      (Stmt.conditional t condition body o).Regular
  | .stmt s => s.Regular

theorem Spells.regular {w : List Token} {p : Phrase} (h : Spells w p) : p.Regular := by
  induction h with
  | intLit _ _ => trivial
  | floatLit _ _ => trivial
  | stringLit _ => trivial
  | trueLit _ => trivial
  | falseLit _ => trivial
  | name _ => trivial
  | parens _ _ _ _ => trivial
  | lift _ _ _ _ => trivial
  | call _ _ _ _ _ _ _ => trivial
  | unary _ _ _ => trivial
  | binary _ _ _ _ _ => trivial
  | block _ _ _ _ ih =>
      intro stmt hmem
      rcases List.mem_map.mp hmem with ⟨piece, hpiece, rfl⟩
      exact ih piece hpiece
  | nothingElse =>
      intro t condition body hbody
      exact .conditional hbody
  | elseBlock _ _ _ ih =>
      intro t condition body hbody
      exact .elseBlock hbody ih
  | elseIf _ _ _ ih =>
      intro t condition body hbody
      exact .elseIf hbody ih
  | letBinding _ _ _ _ _ _ => exact .letBinding
  | funcDef _ _ _ _ _ _ _ _ ih => exact .funcDef ih
  | conditional _ _ _ _ _ ihbody ihother => exact ihother _ _ _ ihbody
  | whileLoop _ _ _ _ ihbody => exact .whileLoop ihbody
  | giveNothing _ => exact .giveBack
  | giveBack _ _ _ => exact .giveBack
  | assign _ _ _ _ => exact .assign
  | expr _ _ => exact .expr

theorem Sequence.regular {w : List Token} {stmts : List Stmt} (h : Sequence w stmts) :
    ∀ stmt ∈ stmts, stmt.Regular := by
  rcases h with ⟨pieces, _, hpieces, rfl⟩
  intro stmt hmem
  rcases List.mem_map.mp hmem with ⟨piece, hpiece, rfl⟩
  exact (hpieces piece hpiece).regular

end TypedAnt
