import TypedAnt.Proofs.Program.ExpressionCompleteness
import TypedAnt.Proofs.Program.StatementSoundness

/-!
# Completeness of the parser of statements

Every statement of the grammar is read, as long as it ends where the tokens after it begin,
and so is every program.
-/

namespace TypedAnt
namespace Parser

variable {w rest : List Token}

/-!
# What may follow
-/

/-- A statement cannot go on with what is left. -/
def EndsHere (rest : List Token) : Prop :=
  endsStatement rest.head? = true ∧ NoElse rest

theorem stops_of_endsStatement {level : Nat} (h : endsStatement rest.head? = true) :
    Stops level rest := by
  cases rest with
  | nil => simp [Stops]
  | cons t rest =>
      have hends : (t.isSeparator || t.isOp "\x7d") = true := h
      rcases Bool.or_eq_true_iff.mp hends with hmark | hbrace
      · rcases Bool.or_eq_true_iff.mp hmark with hnewline | hsemicolon
        · intro u hu
          cases hu
          have hkind : t.kind = .newline := by simpa using hnewline
          refine ⟨fun _ => by simp [Token.isOp, hkind], ?_⟩
          intro op hsymbol
          simp [Token.isOp, hkind] at hsymbol
        · exact stops_of_isOp hsemicolon (by decide)
      · exact stops_of_isOp hbrace (by decide)

/-!
# Sequences of statements
-/

theorem NoElse.append {gap : List Token} (h : NoElse rest) (hgap : Separators gap) :
    NoElse (gap ++ rest) := by
  induction gap with
  | nil => exact h
  | cons t gap ih =>
      have htail := ih fun u hu => hgap u (List.mem_cons_of_mem _ hu)
      have ht := hgap t List.mem_cons_self
      cases hkind : t.kind == .newline with
      | true => simpa [NoElse, List.dropWhile_cons, hkind] using htail
      | false =>
          have helse : t.isKeyword "else" = false := by grind
          simpa [NoElse, List.dropWhile_cons, hkind] using helse

theorem noElse_of_stmt {stmt : Stmt} (h : Spells w (.stmt stmt)) : NoElse (w ++ rest) := by
  rcases h.starts with ⟨t, v, rfl, hstarts⟩
  have hkind : (t.kind == .newline) = false := by
    have hmark := Token.isSeparator_eq_false_of_startsStmt hstarts
    grind
  simpa [NoElse, List.dropWhile_cons, hkind] using Token.isElse_eq_false_of_startsStmt hstarts

theorem noElse_of_spread {pieces : List (List Token × Stmt)} (h : Spread pieces w)
    (hpieces : ∀ piece ∈ pieces, Spells piece.1 (.stmt piece.2)) (hrest : NoElse rest) :
    NoElse (w ++ rest) := by
  cases h with
  | blank hgap => exact hrest.append hgap
  | last hgap =>
      rw [List.append_assoc]
      exact (noElse_of_stmt (hpieces _ List.mem_cons_self)).append hgap
  | next hgap _ _ =>
      rw [List.append_assoc, List.append_assoc]
      exact (noElse_of_stmt (hpieces _ List.mem_cons_self)).append hgap

theorem endsHere_of_brace {closing : Token} (h : closing.isOp "\x7d" = true) :
    EndsHere (closing :: rest) := by
  have hkind := (Token.isOp_iff.mp h).1
  refine ⟨by simp [endsStatement, h], ?_⟩
  simp [NoElse, hkind, Token.isKeyword]

theorem endsHere_nil : EndsHere [] :=
  ⟨rfl, by simp [NoElse]⟩

theorem endsHere_of_separator {mark : Token} (h : mark.isSeparator = true) (hrest : NoElse rest) :
    EndsHere (mark :: rest) := by
  refine ⟨by simp [endsStatement, h], ?_⟩
  exact (@NoElse.append rest [mark] hrest (by simpa [Separators] using h))

theorem dropWhile_separators {gap : List Token} (hgap : Separators gap)
    (hrest : ∀ t ∈ rest.head?, t.isSeparator = false) :
    (gap ++ rest).dropWhile Token.isSeparator = rest := by
  rw [List.dropWhile_append_of_pos hgap]
  cases rest with
  | nil => rfl
  | cons t rest => simp [hrest t rfl]

theorem dropWhile_separators_stmt {gap : List Token} {stmt : Stmt} (hgap : Separators gap)
    (h : Spells w (.stmt stmt)) :
    (gap ++ (w ++ rest)).dropWhile Token.isSeparator = w ++ rest := by
  apply dropWhile_separators hgap
  rcases h.starts with ⟨t, v, rfl, hstarts⟩
  intro u hu
  cases hu
  exact Token.isSeparator_eq_false_of_startsStmt hstarts

theorem lineEnd_of_endsStatement (h : endsStatement rest.head? = true) :
    lineEnd rest = .ok ((), rest.dropWhile Token.isSeparator) := by
  unfold lineEnd
  rw [bind_of_ok (look_run endsStatement rest), h]
  rfl

section Blocks

variable {statement : Parse Stmt} {brace : Token}

theorem statementThen_of_stmt {more : Parse (List Stmt)} {stmt : Stmt} {stmts : List Stmt}
    {s : List Token} (hstmt : Spells w (.stmt stmt))
    (hrun : statement (w ++ rest) = .ok (stmt, rest)) (hends : endsStatement rest.head? = true)
    (hmore : more (rest.dropWhile Token.isSeparator) = .ok (stmts, s)) :
    statementThen statement brace more (w ++ rest) = .ok (stmt :: stmts, s) := by
  rcases hstmt.starts with ⟨t, v, rfl, hstarts⟩
  have hopen : acceptOp "\x7d" (t :: v ++ rest) = .ok (none, t :: v ++ rest) := by
    apply acceptOp_of_not
    intro u hu
    cases hu
    exact Token.isOp_eq_false_of_startsStmt hstarts (by decide)
  have hlook : look Option.isNone (t :: v ++ rest) = .ok (false, t :: v ++ rest) := rfl
  unfold statementThen
  rw [bind_of_ok hopen]
  dsimp only
  rw [bind_of_ok hlook]
  simp only [Bool.false_eq_true, if_false]
  rw [bind_of_ok hrun, bind_of_ok (lineEnd_of_endsStatement hends),
    bind_of_ok hmore]
  rfl

theorem blockRest_of_brace (hstatement : Reads statement fun w stmt => Spells w (.stmt stmt))
    {closing : Token} (h : closing.isOp "\x7d" = true) :
    blockRest statement brace (closing :: rest) = .ok ([], rest) := by
  rw [blockRest_run hstatement, statementThen, bind_of_ok (acceptOp_of_isOp h)]
  rfl

theorem blockRest_of_spread (hstatement : Reads statement fun w stmt => Spells w (.stmt stmt))
    {pieces : List (List Token × Stmt)} {closing : Token} (hspread : Spread pieces w)
    (hpieces : ∀ piece ∈ pieces, Spells piece.1 (.stmt piece.2))
    (hrun : ∀ piece ∈ pieces, ∀ rest, EndsHere rest →
      statement (piece.1 ++ rest) = .ok (piece.2, rest))
    (hclosing : closing.isOp "\x7d" = true) :
    blockRest statement brace ((w ++ closing :: rest).dropWhile Token.isSeparator) =
      .ok (pieces.map Prod.snd, rest) := by
  have hbrace : ∀ t ∈ (closing :: rest).head?, t.isSeparator = false := by
    intro t ht
    cases ht
    exact Token.isSeparator_eq_false_of_isOp hclosing (by decide)
  induction hspread with
  | blank hgap =>
      rw [dropWhile_separators hgap hbrace]
      exact blockRest_of_brace hstatement hclosing
  | @last gap w stmt hgap =>
      have hstmt := hpieces _ List.mem_cons_self
      have hends : EndsHere (closing :: rest) := endsHere_of_brace hclosing
      have hmore := dropWhile_separators separators_nil hbrace
      rw [List.append_assoc, dropWhile_separators_stmt hgap hstmt, blockRest_run hstatement]
      apply statementThen_of_stmt hstmt (hrun _ List.mem_cons_self _ hends) hends.1
      rw [List.nil_append] at hmore
      rw [hmore]
      exact blockRest_of_brace hstatement hclosing
  | @next gap w v stmt mark pieces hgap hmark hspread ih =>
      have hstmt := hpieces _ List.mem_cons_self
      have htail : ∀ piece ∈ pieces, Spells piece.1 (.stmt piece.2) :=
        fun piece hmem => hpieces piece (List.mem_cons_of_mem _ hmem)
      have hends : EndsHere (mark :: (v ++ closing :: rest)) :=
        endsHere_of_separator hmark
          (noElse_of_spread hspread htail (endsHere_of_brace hclosing).2)
      have hmore := ih htail fun piece hmem => hrun piece (List.mem_cons_of_mem _ hmem)
      rw [List.append_assoc, List.append_assoc, List.cons_append,
        dropWhile_separators_stmt hgap hstmt, blockRest_run hstatement]
      apply statementThen_of_stmt hstmt (hrun _ List.mem_cons_self _ hends) hends.1
      rw [List.dropWhile_cons_of_pos hmark]
      exact hmore

end Blocks

/-!
# Single statements
-/

section Statements

variable {depth : Nat} {t : Token}

theorem optionalType_of_announced {mark : String} {o : Option Token} (h : Announced mark w o)
    (hrest : ∀ t ∈ rest.head?, t.isOp mark = false) :
    optionalType mark (w ++ rest) = .ok (o, rest) := by
  cases h with
  | absent =>
      rw [List.nil_append, optionalType, bind_of_ok (acceptOp_of_not hrest)]
      rfl
  | present hsign htype =>
      rw [List.cons_append, List.cons_append, List.nil_append, optionalType,
        bind_of_ok (acceptOp_of_isOp hsign)]
      dsimp only
      rw [bind_of_ok (identifier_of_ident htype)]
      rfl

theorem param_of_declares {p : Param} (h : Declares w p) :
    param (w ++ rest) = .ok (p, rest) := by
  cases h with
  | param hname hcolon htype =>
      simp only [List.cons_append, List.nil_append]
      rw [param, bind_of_ok (identifier_of_ident hname), bind_of_ok (expectOp_of_isOp hcolon),
        bind_of_ok (identifier_of_ident htype)]
      rfl

theorem statement_of_opening {o : Opening} (h : t.isKeyword o.word = true) :
    statement (depth + 1) (t :: rest) =
      opened (expression depth) (block (statement depth)) (statement depth) t o rest := by
  have haccept : accept Opening.atToken? (t :: rest) = .ok (some (t, o), rest) :=
    accept_of_some (Opening.atToken?_eq_some_iff.mpr ⟨rfl, h⟩)
  rw [statement, bind_of_ok haccept]

theorem statement_of_expr (h : t.startsExpr = true) :
    statement (depth + 1) (t :: rest) =
      (expression depth >>= assignmentRest (expression depth) t) (t :: rest) := by
  have haccept : accept Opening.atToken? (t :: rest) = .ok (none, t :: rest) := by
    apply accept_of_none
    intro u hu
    cases hu
    exact Token.openingOf_eq_none_of_startsExpr h
  rw [statement, bind_of_ok haccept]
  rfl

theorem letBinding_complete {name sign : Token} {v : List Token} {declared : Option Token}
    {value : Expr} (hword : t.isKeyword "let" = true) (hname : name.kind = .ident)
    (hdeclared : Announced ":" w declared) (hsign : sign.isOp "=" = true)
    (hvalue : expression depth (v ++ rest) = .ok (value, rest)) :
    statement (depth + 1) (t :: name :: (w ++ sign :: v) ++ rest) =
      .ok (.letBinding t name declared value, rest) := by
  have htype : optionalType ":" (w ++ sign :: (v ++ rest)) = .ok (declared, sign :: (v ++ rest)) := by
    apply optionalType_of_announced hdeclared
    intro u hu
    cases hu
    exact Token.isOp_eq_false hsign (by decide)
  simp only [List.cons_append, List.append_assoc]
  rw [statement_of_opening (o := .letBinding) hword, opened, letBinding,
    bind_of_ok (identifier_of_ident hname), bind_of_ok htype, bind_of_ok (expectOp_of_isOp hsign),
    bind_of_ok hvalue]
  rfl

theorem funcDef_complete {name opening closing : Token} {v u : List Token}
    {params : List (List Token × Param)} {returnType : Option Token} {body : Block Stmt}
    (hword : t.isKeyword "func" = true) (hname : name.kind = .ident)
    (hopening : opening.isOp "(" = true) (hlisted : Listed params w)
    (hparams : ∀ param ∈ params, Declares param.1 param.2) (hclosing : closing.isOp ")" = true)
    (hreturn : Announced "->" v returnType)
    (hstart : ∀ t ∈ (u ++ rest).head?, t.isOp "->" = false)
    (hbody : block (statement depth) (u ++ rest) = .ok (body, rest)) :
    statement (depth + 1) (t :: name :: opening :: (w ++ closing :: (v ++ u)) ++ rest) =
      .ok (.funcDef t name (params.map Prod.snd) returnType body, rest) := by
  have hitems : items param (w ++ closing :: (v ++ (u ++ rest))) =
      .ok (params.map Prod.snd, closing :: (v ++ (u ++ rest))) :=
    items_of_listed Reads.param.shrinks hlisted hclosing
      (fun param hmem => (hparams param hmem).starts)
      fun param hmem _ _ => param_of_declares (hparams param hmem)
  simp only [List.cons_append, List.append_assoc]
  rw [statement_of_opening (o := .funcDef) hword, opened, funcDef, bind_of_ok (identifier_of_ident hname),
    bind_of_ok (expectOp_of_isOp hopening), bind_of_ok hitems,
    bind_of_ok (expectOp_of_isOp hclosing), bind_of_ok (optionalType_of_announced hreturn hstart),
    bind_of_ok hbody]
  rfl

theorem conditional_complete {v u : List Token} {condition : Expr} {body : Block Stmt}
    {o : Option (Otherwise Stmt)} (hword : t.isKeyword "if" = true)
    (hcondition : expression depth (w ++ (v ++ (u ++ rest))) = .ok (condition, v ++ (u ++ rest)))
    (hbody : block (statement depth) (v ++ (u ++ rest)) = .ok (body, u ++ rest))
    (hother : alternative (block (statement depth)) (statement depth) (u ++ rest) = .ok (o, rest)) :
    statement (depth + 1) (t :: (w ++ (v ++ u)) ++ rest) =
      .ok (.conditional t condition body o, rest) := by
  simp only [List.cons_append, List.append_assoc]
  rw [statement_of_opening (o := .conditional) hword, opened, conditional, bind_of_ok hcondition,
    bind_of_ok hbody, bind_of_ok hother]
  rfl

theorem whileLoop_complete {v : List Token} {condition : Expr} {body : Block Stmt}
    (hword : t.isKeyword "while" = true)
    (hcondition : expression depth (w ++ (v ++ rest)) = .ok (condition, v ++ rest))
    (hbody : block (statement depth) (v ++ rest) = .ok (body, rest)) :
    statement (depth + 1) (t :: (w ++ v) ++ rest) = .ok (.whileLoop t condition body, rest) := by
  simp only [List.cons_append, List.append_assoc]
  rw [statement_of_opening (o := .whileLoop) hword, opened, whileLoop, bind_of_ok hcondition,
    bind_of_ok hbody]
  rfl

theorem giveNothing_complete (hword : t.isKeyword "return" = true)
    (hends : endsStatement rest.head? = true) :
    statement (depth + 1) (t :: rest) = .ok (.giveBack t none, rest) := by
  have hlook : look endsStatement rest = .ok (true, rest) := by rw [look_run, hends]
  rw [statement_of_opening (o := .giveBack) hword, opened, giveBack, bind_of_ok hlook]
  rfl

theorem giveBack_complete {value : Expr} (hword : t.isKeyword "return" = true)
    (hstart : endsStatement (w ++ rest).head? = false)
    (hvalue : expression depth (w ++ rest) = .ok (value, rest)) :
    statement (depth + 1) (t :: w ++ rest) = .ok (.giveBack t (some value), rest) := by
  have hlook : look endsStatement (w ++ rest) = .ok (false, w ++ rest) := by rw [look_run, hstart]
  rw [List.cons_append, statement_of_opening (o := .giveBack) hword, opened, giveBack, bind_of_ok hlook]
  simp only [Bool.false_eq_true, if_false]
  rw [bind_of_ok hvalue]
  rfl

theorem assign_complete {name sign : Token} {v : List Token} {value : Expr}
    (hstart : ∀ t ∈ (w ++ sign :: (v ++ rest)).head?, t.startsExpr = true)
    (hname : expression depth (w ++ sign :: (v ++ rest)) = .ok (.name name, sign :: (v ++ rest)))
    (hsign : sign.isOp "=" = true) (hvalue : expression depth (v ++ rest) = .ok (value, rest)) :
    statement (depth + 1) (w ++ sign :: v ++ rest) = .ok (.assign sign name value, rest) := by
  have hat : atOp "=" (sign :: (v ++ rest)) = .ok (true, sign :: (v ++ rest)) := by
    simp [atOp, look, hsign]
  rw [List.append_assoc, List.cons_append]
  cases hs : w ++ sign :: (v ++ rest) with
  | nil => simp at hs
  | cons first s =>
      rw [hs] at hstart hname
      rw [statement_of_expr (hstart first rfl), bind_of_ok hname, assignmentRest, bind_of_ok hat]
      simp only [if_true]
      rw [bind_of_ok (expectOp_of_isOp hsign), bind_of_ok hvalue]
      rfl

theorem expr_complete {e : Expr} (hstart : t.startsExpr = true)
    (hrest : ∀ t ∈ rest.head?, t.isOp "=" = false)
    (h : expression depth (t :: w ++ rest) = .ok (e, rest)) :
    statement (depth + 1) (t :: w ++ rest) = .ok (.expr t e, rest) := by
  have hat : atOp "=" rest = .ok (false, rest) := by
    cases rest with
    | nil => rfl
    | cons u rest => simp [atOp, look, hrest u rfl]
  rw [List.cons_append] at h ⊢
  rw [statement_of_expr hstart, bind_of_ok h]
  unfold assignmentRest
  rw [bind_of_ok hat]
  rfl

end Statements

section Programs

variable {statement : Parse Stmt} {rounds : Nat}

theorem statementsFrom_of_stmt {stmt : Stmt} {stmts : List Stmt} (hw : w ≠ [])
    (hrun : statement (w ++ rest) = .ok (stmt, rest)) (hends : endsStatement rest.head? = true)
    (hmore : statementsFrom statement rounds (rest.dropWhile Token.isSeparator) = (stmts, none)) :
    statementsFrom statement (rounds + 1) (w ++ rest) = (stmt :: stmts, none) := by
  cases w with
  | nil => exact absurd rfl hw
  | cons t v =>
      rw [List.cons_append] at hrun ⊢
      simp only [statementsFrom, hrun, lineEnd_of_endsStatement hends, hmore]

theorem statementsFrom_of_spread {pieces : List (List Token × Stmt)} (hspread : Spread pieces w)
    (hpieces : ∀ piece ∈ pieces, Spells piece.1 (.stmt piece.2))
    (hrun : ∀ piece ∈ pieces, ∀ rest, EndsHere rest →
      statement (piece.1 ++ rest) = .ok (piece.2, rest))
    (hrounds : w.length < rounds) :
    statementsFrom statement rounds (w.dropWhile Token.isSeparator) =
      (pieces.map Prod.snd, none) := by
  have hend {rounds : Nat} (h : 0 < rounds) : statementsFrom statement rounds [] = ([], none) := by
    cases rounds with
    | zero => omega
    | succ rounds => rfl
  induction hspread generalizing rounds with
  | @blank gap hgap =>
      have hgone := @dropWhile_separators [] gap hgap (by simp)
      rw [List.append_nil] at hgone
      rw [hgone]
      exact hend (by omega)
  | @last gap w stmt hgap =>
      have hstmt := hpieces _ List.mem_cons_self
      have hpos : 0 < w.length := List.length_pos_iff.mpr hstmt.ne_nil
      rw [List.length_append] at hrounds
      cases rounds with
      | zero => omega
      | succ rounds =>
          have hstart := @dropWhile_separators_stmt w [] gap stmt hgap hstmt
          rw [List.append_nil] at hstart
          rw [hstart, ← List.append_nil w]
          exact statementsFrom_of_stmt hstmt.ne_nil (hrun _ List.mem_cons_self _ endsHere_nil) rfl
            (hend (by omega))
  | @next gap w v stmt mark pieces hgap hmark hspread ih =>
      have hstmt := hpieces _ List.mem_cons_self
      have htail : ∀ piece ∈ pieces, Spells piece.1 (.stmt piece.2) :=
        fun piece hmem => hpieces piece (List.mem_cons_of_mem _ hmem)
      have hends : EndsHere (mark :: v) := by
        apply endsHere_of_separator hmark
        simpa using noElse_of_spread hspread htail endsHere_nil.2
      simp only [List.length_append, List.length_cons] at hrounds
      cases rounds with
      | zero => omega
      | succ rounds =>
          rw [dropWhile_separators_stmt hgap hstmt]
          apply statementsFrom_of_stmt hstmt.ne_nil (hrun _ List.mem_cons_self _ hends) hends.1
          rw [List.dropWhile_cons_of_pos hmark]
          exact ih htail (fun piece hmem => hrun piece (List.mem_cons_of_mem _ hmem)) (by omega)

end Programs

/-!
# Alternatives
-/

section Alternatives

variable {depth : Nat}

theorem alternative_complete {body : Parse (Block Stmt)} {stmts : Parse Stmt} {gap : List Token}
    {keyword : Token} {o : Otherwise Stmt} (hgap : ∀ t ∈ gap, t.kind = .newline)
    (hkeyword : keyword.isKeyword "else" = true)
    (h : otherwise body stmts (w ++ rest) = .ok (o, rest)) :
    alternative body stmts (gap ++ keyword :: w ++ rest) = .ok (some o, rest) := by
  rw [List.append_assoc, List.cons_append, alternative,
    bind_of_ok (acceptElse_of_else hgap hkeyword)]
  simp only [if_true]
  rw [bind_of_ok h]
  rfl

theorem otherwise_of_block {b : Block Stmt} {stmts : Parse Stmt} (hw : Spells w (.block b))
    {body : Parse (Block Stmt)} (h : body (w ++ rest) = .ok (b, rest)) :
    otherwise body stmts (w ++ rest) = .ok (.block b, rest) := by
  rcases hw.starts with ⟨brace, v, rfl, hbrace⟩
  have hlook : look (fun next => next.any (·.isKeyword "if")) (brace :: v ++ rest) =
      .ok (false, brace :: v ++ rest) := by
    simp [look, Token.isKeyword, (Token.isOp_iff.mp hbrace).1]
  unfold otherwise
  rw [bind_of_ok hlook]
  simp only [Bool.false_eq_true, if_false]
  rw [bind_of_ok h]
  rfl

theorem otherwise_of_conditional {t : Token} {condition : Expr} {thenBody : Block Stmt}
    {o : Option (Otherwise Stmt)} {stmts : Parse Stmt} {body : Parse (Block Stmt)}
    (hw : Spells w (.stmt (.conditional t condition thenBody o)))
    (h : stmts (w ++ rest) = .ok (.conditional t condition thenBody o, rest)) :
    otherwise body stmts (w ++ rest) =
      .ok (.conditional (.conditional t condition thenBody o), rest) := by
  have hif : (w ++ rest).head?.any (·.isKeyword "if") = true := by
    cases hw with
    | conditional hword _ _ _ => simpa using hword
  have hlook : look (fun next => next.any (·.isKeyword "if")) (w ++ rest) =
      .ok (true, w ++ rest) := by
    rw [look_run, hif]
  unfold otherwise
  rw [bind_of_ok hlook]
  simp only [if_true]
  rw [bind_of_ok h]
  rfl

end Alternatives

/-!
# All statements
-/

theorem block_complete {depth : Nat} {opening closing : Token}
    {stmts : List (List Token × Stmt)} (hopening : opening.isOp "\x7b" = true)
    (hspread : Spread stmts w) (hstmts : ∀ stmt ∈ stmts, Spells stmt.1 (.stmt stmt.2))
    (hrun : ∀ stmt ∈ stmts, ∀ rest, EndsHere rest →
      statement depth (stmt.1 ++ rest) = .ok (stmt.2, rest))
    (hclosing : closing.isOp "\x7d" = true) :
    block (statement depth) (opening :: (w ++ [closing]) ++ rest) =
      .ok (⟨opening, stmts.map Prod.snd⟩, rest) := by
  have hskip (s : List Token) : skipSeparators s = .ok ((), s.dropWhile Token.isSeparator) := rfl
  simp only [List.cons_append, List.append_assoc, List.nil_append]
  rw [block, bind_of_ok (expectOp_of_isOp hopening), bind_of_ok (hskip _),
    bind_of_ok (blockRest_of_spread (.statement depth) hspread hstmts hrun hclosing)]
  rfl

theorem stops_of_block {level : Nat} {b : Block Stmt} {v : List Token}
    (h : Spells v (.block b)) : Stops level (v ++ rest) := by
  rcases h.starts with ⟨brace, u, rfl, hbrace⟩
  exact stops_of_isOp hbrace (by decide)

theorem not_endsStatement_of_startsExpr {t : Token} (h : t.startsExpr = true) :
    endsStatement (t :: w ++ rest).head? = false := by
  have hstarts := Token.startsStmt_of_startsExpr h
  have hmark := Token.isSeparator_eq_false_of_startsStmt hstarts
  have hbrace : t.isOp "\x7d" = false := Token.isOp_eq_false_of_startsStmt hstarts (by decide)
  simp [endsStatement, hmark, hbrace]

theorem not_assign_of_endsStatement (h : endsStatement rest.head? = true) :
    ∀ t ∈ rest.head?, t.isOp "=" = false := by
  intro t ht
  rw [ht] at h
  have hends : (t.isSeparator || t.isOp "\x7d") = true := h
  grind

def Completes (w : List Token) : Phrase → Prop
  | .expr _ _ => True
  | .block b =>
      ∀ depth rest, w.length ≤ depth → block (statement depth) (w ++ rest) = .ok (b, rest)
  | .otherwise o =>
      ∀ depth rest, w.length ≤ depth → EndsHere rest →
        alternative (block (statement depth)) (statement depth) (w ++ rest) = .ok (o, rest)
  | .stmt stmt =>
      ∀ depth rest, w.length ≤ depth → EndsHere rest →
        statement (depth + 1) (w ++ rest) = .ok (stmt, rest)

theorem Completes.run {stmt : Stmt} {depth : Nat} (h : Completes w (.stmt stmt))
    (hdepth : w.length < depth) (hends : EndsHere rest) :
    statement depth (w ++ rest) = .ok (stmt, rest) := by
  cases depth with
  | zero => exact absurd hdepth (Nat.not_lt_zero _)
  | succ depth => exact h depth rest (Nat.le_of_lt_succ hdepth) hends

theorem completes_of_spells {p : Phrase} (h : Spells w p) : Completes w p := by
  induction h with
  | block hopening hspread hstmts hclosing ih =>
      intro depth rest hdepth
      simp only [List.length_cons, List.length_append, List.length_nil] at hdepth
      refine block_complete hopening hspread hstmts ?_ hclosing
      intro stmt hmem rest hends
      have hlength := (hspread.sublist stmt hmem).length_le
      exact (ih stmt hmem).run (by omega) hends
  | nothingElse =>
      intro depth rest _ hends
      rw [List.nil_append, alternative, bind_of_ok (acceptElse_of_noElse hends.2)]
      rfl
  | elseBlock hgap hkeyword hw ih =>
      intro depth rest hdepth hends
      simp only [List.length_cons, List.length_append] at hdepth
      apply alternative_complete hgap hkeyword
      exact otherwise_of_block hw (ih depth rest (by omega))
  | elseIf hgap hkeyword hw ih =>
      intro depth rest hdepth hends
      simp only [List.length_cons, List.length_append] at hdepth
      apply alternative_complete hgap hkeyword
      exact otherwise_of_conditional hw (ih.run (by omega) hends)
  | letBinding hword hname hdeclared hsign hvalue _ =>
      intro depth rest hdepth hends
      simp only [List.length_cons, List.length_append] at hdepth
      exact letBinding_complete hword hname hdeclared hsign
        (expression_of_spells hvalue (by omega) (stops_of_endsStatement hends.1))
  | funcDef hword hname hopening hlisted hparams hclosing hreturn hbody ih =>
      intro depth rest hdepth hends
      simp only [List.length_cons, List.length_append] at hdepth
      refine funcDef_complete hword hname hopening hlisted hparams hclosing hreturn ?_
        (ih depth rest (by omega))
      rcases hbody.starts with ⟨brace, u, rfl, hbrace⟩
      intro t ht
      cases ht
      exact Token.isOp_eq_false hbrace (by decide)
  | conditional hword hcondition hbody hother _ ihbody ihother =>
      intro depth rest hdepth hends
      simp only [List.length_cons, List.length_append] at hdepth
      exact conditional_complete hword
        (expression_of_spells hcondition (by omega) (stops_of_block hbody))
        (ihbody depth _ (by omega)) (ihother depth rest (by omega) hends)
  | whileLoop hword hcondition hbody _ ihbody =>
      intro depth rest hdepth hends
      simp only [List.length_cons, List.length_append] at hdepth
      exact whileLoop_complete hword
        (expression_of_spells hcondition (by omega) (stops_of_block hbody))
        (ihbody depth rest (by omega))
  | giveNothing hword =>
      intro depth rest _ hends
      exact giveNothing_complete hword hends.1
  | giveBack hword hvalue _ =>
      intro depth rest hdepth hends
      simp only [List.length_cons] at hdepth
      refine giveBack_complete hword ?_
        (expression_of_spells hvalue (by omega) (stops_of_endsStatement hends.1))
      rcases hvalue.starts with ⟨t, v, rfl, hstarts, _⟩
      exact not_endsStatement_of_startsExpr hstarts
  | assign hname hsign hvalue _ =>
      intro depth rest hdepth hends
      simp only [List.length_cons, List.length_append] at hdepth
      refine assign_complete ?_
        (expression_of_spells hname.spells (by omega) (stops_of_isOp hsign (by decide))) hsign
        (expression_of_spells hvalue (by omega) (stops_of_endsStatement hends.1))
      rcases hname.starts with ⟨t, v, rfl, hstarts⟩
      intro u hu
      cases hu
      simp [Token.startsExpr, hstarts]
  | expr he _ =>
      intro depth rest hdepth hends
      rcases he.starts with ⟨t, v, heq, hstarts, _⟩
      cases heq
      exact expr_complete hstarts (not_assign_of_endsStatement hends.1)
        (expression_of_spells he hdepth (stops_of_endsStatement hends.1))
  | _ => trivial

/-!
# Whole programs
-/

theorem statements_of_sequence {limit : Nat} {stmts : List Stmt} (h : Sequence w stmts)
    (hlimit : w.length < limit) : statements limit w = (stmts, none) := by
  rcases h with ⟨pieces, hspread, hpieces, rfl⟩
  refine statementsFrom_of_spread hspread hpieces ?_ (Nat.lt_succ_self _)
  intro piece hmem rest hends
  have hlength := (hspread.sublist piece hmem).length_le
  exact Completes.run (completes_of_spells (hpieces piece hmem)) (by omega) hends

end Parser
end TypedAnt
