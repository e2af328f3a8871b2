import TypedAnt.Numeral
import TypedAnt.Program
import TypedAnt.Token.StringLiteral

/-!
# The grammar of programs

Which runs of tokens spell which trees, as a relation that knows nothing of parsing.
Every rule gives the tokens of a phrase from the tokens of its parts, in the order in
which they are written.

Expressions come in nine levels.  Levels one to six are those of the binary operators,
level seven is that of the unary operators, level eight that of calls, and level nine
holds what needs no operator: literals, names, and expressions in parentheses.
-/

namespace TypedAnt

/-!
# Lists and lines

A list of pieces is known by the tokens of each piece together with what they spell.
-/

/-- Pieces with a comma between any two of them; a comma may also follow the last one. -/
inductive Listed {α : Type} : List (List Token × α) → List Token → Prop where
  | nil : Listed [] []
  | last (w : List Token) (x : α) : Listed [(w, x)] w
  | next {w v : List Token} {x : α} {comma : Token} {pieces : List (List Token × α)} :
      comma.isOp "," = true →
      Listed pieces v →
      Listed ((w, x) :: pieces) (w ++ comma :: v)

theorem Listed.sublist {α : Type} {pieces : List (List Token × α)} {w : List Token}
    (h : Listed pieces w) : ∀ piece ∈ pieces, piece.1.Sublist w := by
  induction h with
  | nil => simp
  | last w x => simp
  | @next w v x comma pieces _ _ ih =>
      intro piece hmem
      rcases List.mem_cons.mp hmem with rfl | hmem
      · exact List.sublist_append_left w (comma :: v)
      · exact ((ih piece hmem).cons comma).trans (List.sublist_append_right w (comma :: v))

def Separators (w : List Token) : Prop :=
  ∀ t ∈ w, t.isSeparator = true

theorem separators_nil : Separators [] := by
  simp [Separators]

/--
Pieces with at least one separator between any two of them, and any number of separators
before the first and after the last one.
-/
inductive Spread {α : Type} : List (List Token × α) → List Token → Prop where
  | blank {gap : List Token} :
      Separators gap →
      Spread [] gap
  | last {gap w : List Token} {x : α} :
      Separators gap →
      Spread [(w, x)] (gap ++ w)
  | next {gap w v : List Token} {x : α} {mark : Token} {pieces : List (List Token × α)} :
      Separators gap →
      mark.isSeparator = true →
      Spread pieces v →
      Spread ((w, x) :: pieces) (gap ++ (w ++ mark :: v))

theorem Spread.sublist {α : Type} {pieces : List (List Token × α)} {w : List Token}
    (h : Spread pieces w) : ∀ piece ∈ pieces, piece.1.Sublist w := by
  induction h with
  | blank _ => simp
  | last _ => simp
  | @next gap w v x mark pieces _ _ _ ih =>
      intro piece hmem
      refine List.Sublist.trans ?_ (List.sublist_append_right gap (w ++ mark :: v))
      rcases List.mem_cons.mp hmem with rfl | hmem
      · exact List.sublist_append_left w (mark :: v)
      · exact ((ih piece hmem).cons mark).trans (List.sublist_append_right w (mark :: v))

/-!
# Small phrases
-/

inductive Announced (mark : String) : List Token → Option Token → Prop where
  | absent : Announced mark [] none
  | present {sign type : Token} :
      sign.isOp mark = true →
      type.kind = .ident →
      Announced mark [sign, type] (some type)

inductive Declares : List Token → Param → Prop where
  | param {name colon type : Token} :
      name.kind = .ident →
      colon.isOp ":" = true →
      type.kind = .ident →
      Declares [name, colon, type] ⟨name, type⟩

/-- A name inside any number of parentheses. -/
inductive Bracketed (name : Token) : List Token → Prop where
  | bare :
      name.kind = .ident →
      Bracketed name [name]
  | wrapped {opening closing : Token} {w : List Token} :
      opening.isOp "(" = true →
      Bracketed name w →
      closing.isOp ")" = true →
      Bracketed name (opening :: (w ++ [closing]))

/-!
# Expressions and statements
-/

/-- What a run of tokens can spell; an expression is looked at from one of its levels. -/
inductive Phrase where
  | expr (level : Nat) (e : Expr)
  | block (b : Block Stmt)
  | otherwise (o : Option (Otherwise Stmt))
  | stmt (s : Stmt)

inductive Spells : List Token → Phrase → Prop where
  | intLit {t : Token} {n : Int} :
      t.kind = .int →
      Numeral.readInt t.value = .ok n →
      Spells [t] (.expr 9 (.intLit t n))
  | floatLit {t : Token} {bits : UInt64} :
      t.kind = .float →
      Numeral.readFloat t.value = .ok bits →
      Spells [t] (.expr 9 (.floatLit t bits))
  | stringLit {t : Token} :
      t.kind = .string →
      Spells [t] (.expr 9 (.stringLit t (StringLiteral.unescape t.value)))
  | trueLit {t : Token} :
      t.isKeyword "true" = true →
      Spells [t] (.expr 9 (.boolLit t true))
  | falseLit {t : Token} :
      t.isKeyword "false" = true →
      Spells [t] (.expr 9 (.boolLit t false))
  | name {t : Token} :
      t.kind = .ident →
      Spells [t] (.expr 9 (.name t))
  | parens {opening closing : Token} {w : List Token} {e : Expr} :
      opening.isOp "(" = true →
      Spells w (.expr 1 e) →
      closing.isOp ")" = true →
      Spells (opening :: (w ++ [closing])) (.expr 9 e)
  | lift {level : Nat} {w : List Token} {e : Expr} :
      1 ≤ level →
      level ≤ 8 →
      Spells w (.expr (level + 1) e) →
      Spells w (.expr level e)
  | call {opening closing : Token} {w v : List Token} {callee : Expr}
      {args : List (List Token × Expr)} :
      Spells w (.expr 8 callee) →
      opening.isOp "(" = true →
      Listed args v →
      (∀ arg ∈ args, Spells arg.1 (.expr 1 arg.2)) →
      closing.isOp ")" = true →
      Spells (w ++ opening :: (v ++ [closing])) (.expr 8 (.call opening callee (args.map Prod.snd)))
  | unary {t : Token} {op : UnaryOp} {w : List Token} {e : Expr} :
      t.isOp op.symbol = true →
      Spells w (.expr 7 e) →
      Spells (t :: w) (.expr 7 (.unary t op e))
  | binary {t : Token} {op : BinaryOp} {w v : List Token} {left right : Expr} :
      Spells w (.expr op.level left) →
      t.isOp op.symbol = true →
      Spells v (.expr (op.level + 1) right) →
      Spells (w ++ t :: v) (.expr op.level (.binary t op left right))
  | block {opening closing : Token} {w : List Token} {stmts : List (List Token × Stmt)} :
      opening.isOp "\x7b" = true →
      Spread stmts w →
      (∀ stmt ∈ stmts, Spells stmt.1 (.stmt stmt.2)) →
      closing.isOp "\x7d" = true →
      Spells (opening :: (w ++ [closing])) (.block ⟨opening, stmts.map Prod.snd⟩)
  | nothingElse :
      Spells [] (.otherwise none)
  | elseBlock {gap w : List Token} {keyword : Token} {b : Block Stmt} :
      (∀ t ∈ gap, t.kind = .newline) →
      keyword.isKeyword "else" = true →
      Spells w (.block b) →
      Spells (gap ++ keyword :: w) (.otherwise (some (.block b)))
  | elseIf {gap w : List Token} {keyword t : Token} {condition : Expr} {body : Block Stmt}
      {o : Option (Otherwise Stmt)} :
      (∀ t ∈ gap, t.kind = .newline) →
      keyword.isKeyword "else" = true →
      Spells w (.stmt (.conditional t condition body o)) →
      Spells (gap ++ keyword :: w)
        (.otherwise (some (.conditional (.conditional t condition body o))))
  | letBinding {t name sign : Token} {w v : List Token} {declared : Option Token} {value : Expr} :
      t.isKeyword "let" = true →
      name.kind = .ident →
      Announced ":" w declared →
      sign.isOp "=" = true →
      Spells v (.expr 1 value) →
      Spells (t :: name :: (w ++ sign :: v)) (.stmt (.letBinding t name declared value))
  | funcDef {t name opening closing : Token} {w v u : List Token}
      {params : List (List Token × Param)} {returnType : Option Token} {body : Block Stmt} :
      t.isKeyword "func" = true →
      name.kind = .ident →
      opening.isOp "(" = true →
      Listed params w →
      (∀ param ∈ params, Declares param.1 param.2) →
      closing.isOp ")" = true →
      Announced "->" v returnType →
      Spells u (.block body) →
      Spells (t :: name :: opening :: (w ++ closing :: (v ++ u)))
        (.stmt (.funcDef t name (params.map Prod.snd) returnType body))
  | conditional {t : Token} {w v u : List Token} {condition : Expr} {body : Block Stmt}
      {o : Option (Otherwise Stmt)} :
      t.isKeyword "if" = true →
      Spells w (.expr 1 condition) →
      Spells v (.block body) →
      Spells u (.otherwise o) →
      Spells (t :: (w ++ (v ++ u))) (.stmt (.conditional t condition body o))
  | whileLoop {t : Token} {w v : List Token} {condition : Expr} {body : Block Stmt} :
      t.isKeyword "while" = true →
      Spells w (.expr 1 condition) →
      Spells v (.block body) →
      Spells (t :: (w ++ v)) (.stmt (.whileLoop t condition body))
  | giveNothing {t : Token} :
      t.isKeyword "return" = true →
      Spells [t] (.stmt (.giveBack t none))
  | giveBack {t : Token} {w : List Token} {value : Expr} :
      t.isKeyword "return" = true →
      Spells w (.expr 1 value) →
      Spells (t :: w) (.stmt (.giveBack t (some value)))
  | assign {name sign : Token} {w v : List Token} {value : Expr} :
      Bracketed name w →
      sign.isOp "=" = true →
      Spells v (.expr 1 value) →
      Spells (w ++ sign :: v) (.stmt (.assign sign name value))
  | expr {t : Token} {w : List Token} {e : Expr} :
      Spells (t :: w) (.expr 1 e) →
      Spells (t :: w) (.stmt (.expr t e))

theorem Spells.lower {level n : Nat} {w : List Token} {e : Expr}
    (h : Spells w (.expr (level + n) e)) (hlow : 1 ≤ level) (hhigh : level + n ≤ 9) :
    Spells w (.expr level e) := by
  induction n with
  | zero => exact h
  | succ n ih => exact ih (.lift (by omega) (by omega) h) (by omega)

theorem Bracketed.spells {name : Token} {w : List Token} (h : Bracketed name w) :
    Spells w (.expr 1 (.name name)) := by
  have hnine : Spells w (.expr 9 (.name name)) := by
    induction h with
    | bare hname => exact .name hname
    | wrapped hopening _ hclosing ih =>
        exact .parens hopening (Spells.lower (n := 8) ih (by omega) (by omega)) hclosing
  exact Spells.lower (n := 8) hnine (by omega) (by omega)

/-!
# Whole programs
-/

def Sequence (w : List Token) (stmts : List Stmt) : Prop :=
  ∃ pieces, Spread pieces w ∧ (∀ piece ∈ pieces, Spells piece.1 (.stmt piece.2)) ∧
    stmts = pieces.map Prod.snd

/-- A program is a sequence of statements with an end-of-file token after it. -/
inductive Program.Derived : List Token → Program → Prop where
  | program {w : List Token} {eof : Token} {stmts : List Stmt} :
      Sequence w stmts →
      eof.kind = .eof →
      Program.Derived (w ++ [eof]) ⟨w.headD eof, stmts⟩

namespace Sequence

variable {gap w v : List Token} {mark : Token} {stmt : Stmt} {stmts : List Stmt}

theorem blank (h : Separators gap) : Sequence gap [] :=
  ⟨[], .blank h, by simp, rfl⟩

theorem single (h : Spells w (.stmt stmt)) : Sequence w [stmt] := by
  have hspread : Spread [(w, stmt)] ([] ++ w) := .last separators_nil
  refine ⟨[(w, stmt)], hspread, ?_, rfl⟩
  intro piece hmem
  cases List.mem_singleton.mp hmem
  exact h

theorem cons (h : Spells w (.stmt stmt)) (hmark : mark.isSeparator = true)
    (hrest : Sequence v stmts) : Sequence (w ++ mark :: v) (stmt :: stmts) := by
  rcases hrest with ⟨pieces, hspread, hpieces, rfl⟩
  have hnext : Spread ((w, stmt) :: pieces) ([] ++ (w ++ mark :: v)) :=
    .next separators_nil hmark hspread
  refine ⟨(w, stmt) :: pieces, hnext, ?_, rfl⟩
  intro piece hmem
  cases hmem with
  | head => exact h
  | tail _ hmem => exact hpieces piece hmem

theorem prepend (hgap : Separators gap) (h : Sequence w stmts) : Sequence (gap ++ w) stmts := by
  rcases h with ⟨pieces, hspread, hpieces, rfl⟩
  have happend {front : List Token} (hfront : Separators front) : Separators (gap ++ front) := by
    intro t ht
    rcases List.mem_append.mp ht with ht | ht
    · exact hgap t ht
    · exact hfront t ht
  refine ⟨pieces, ?_, hpieces, rfl⟩
  cases hspread with
  | blank hfront => exact .blank (happend hfront)
  | last hfront =>
      rw [← List.append_assoc]
      exact .last (happend hfront)
  | next hfront hmark hspread =>
      rw [← List.append_assoc]
      exact .next (happend hfront) hmark hspread

end Sequence
end TypedAnt
