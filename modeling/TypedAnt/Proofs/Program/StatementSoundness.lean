import TypedAnt.Proofs.Program.ExpressionSoundness

/-!
# Soundness of the parser of statements

What the parsers of statements and blocks read are the statements and blocks of the
grammar, and a program that is accepted is a sequence of statements.
-/

namespace TypedAnt

/-- A name stands for itself only inside parentheses. -/
theorem Spells.bracketed {w : List Token} {level : Nat} {name : Token}
    (h : Spells w (.expr level (.name name))) : Bracketed name w := by
  generalize hp : Phrase.expr level (.name name) = p at h
  induction h generalizing level with
  | name hkind =>
      cases hp
      exact .bare hkind
  | parens hopening _ hclosing ih =>
      cases hp
      exact .wrapped hopening (ih rfl) hclosing
  | lift _ _ _ ih =>
      cases hp
      exact ih rfl
  | _ => cases hp

theorem Spells.conditional_of_if {t : Token} {w : List Token} {stmt : Stmt}
    (h : Spells (t :: w) (.stmt stmt)) (ht : t.isKeyword "if" = true) :
    ∃ condition body o, stmt = .conditional t condition body o := by
  have hword {word : String} (h : t.isKeyword word = true) (hne : word ≠ "if") : False := by
    grind
  have hexpr (h : t.startsExpr = true) : False := by
    have hnone := Token.openingOf_eq_none_of_startsExpr h
    have hsome : Opening.atToken? t = some (t, .conditional) :=
      Opening.atToken?_eq_some_iff.mpr ⟨rfl, ht⟩
    cases hnone.symm.trans hsome
  generalize hw : t :: w = u at h
  cases h with
  | letBinding h => cases hw; exact (hword h (by decide)).elim
  | funcDef h => cases hw; exact (hword h (by decide)).elim
  | conditional h => cases hw; exact ⟨_, _, _, rfl⟩
  | whileLoop h => cases hw; exact (hword h (by decide)).elim
  | giveNothing h => cases hw; exact (hword h (by decide)).elim
  | giveBack h => cases hw; exact (hword h (by decide)).elim
  | assign h =>
      rcases h.starts with ⟨t', v, rfl, hstarts⟩
      cases hw
      exact (hexpr (by simp [Token.startsExpr, hstarts])).elim
  | expr h =>
      rcases h.starts with ⟨t', v, heq, hstarts, _⟩
      cases hw
      cases heq
      exact (hexpr hstarts).elim

/-!
# Rests of sequences

What follows a statement: the rest of a block, after its opening brace and the separators
there, or the rest of the program.
-/

def Closes (v : List Token) (stmts : List Stmt) : Prop :=
  ∃ w closing, v = w ++ [closing] ∧ Sequence w stmts ∧ closing.isOp "\x7d" = true

namespace Sequence

variable {gap w v : List Token} {stmt : Stmt} {stmts : List Stmt}

theorem not_brace {t : Token} (h : Sequence (t :: v) stmts) : t.isOp "\x7d" = false := by
  rcases h.head with hmark | hstarts
  · cases hbrace : t.isOp "\x7d" with
    | false => rfl
    | true =>
        rw [Token.isSeparator_eq_false_of_isOp hbrace (by decide)] at hmark
        cases hmark
  · exact Token.isOp_eq_false_of_startsStmt hstarts (by decide)

theorem after (hstmt : Spells w (.stmt stmt)) (hgap : Separators gap) (hv : gap = [] → v = [])
    (h : Sequence v stmts) : Sequence (w ++ (gap ++ v)) (stmt :: stmts) := by
  cases gap with
  | nil =>
      cases hv rfl
      cases h.of_nil
      simpa using single hstmt
  | cons mark gap =>
      refine cons hstmt (hgap mark (by simp)) (h.prepend ?_)
      intro t ht
      exact hgap t (by simp [ht])

/-- Nothing but the end of the text can follow a statement that no separator ends. -/
theorem after_lineEnd (hstmt : Spells w (.stmt stmt)) (hgap : Separators gap)
    (hhead : ∀ t ∈ v.head?, gap = [] → t.isOp "\x7d" = true) (h : Sequence v stmts) :
    Sequence (w ++ (gap ++ v)) (stmt :: stmts) := by
  apply h.after hstmt hgap
  intro hempty
  cases v with
  | nil => rfl
  | cons t v =>
      have hbrace := hhead t rfl hempty
      rw [h.not_brace] at hbrace
      cases hbrace

end Sequence

namespace Closes

variable {gap w v : List Token} {stmt : Stmt} {stmts : List Stmt}

theorem brace {closing : Token} (h : closing.isOp "\x7d" = true) : Closes [closing] [] :=
  ⟨[], closing, rfl, .blank separators_nil, h⟩

def mark : Token :=
  ⟨.op, "\x7d", 0, 0⟩

theorem mark_isOp : mark.isOp "\x7d" = true :=
  rfl

theorem after (hstmt : Spells w (.stmt stmt)) (hgap : Separators gap)
    (hv : gap = [] → ∀ t ∈ v.head?, t.isOp "\x7d" = true) (h : Closes v stmts) :
    Closes (w ++ (gap ++ v)) (stmt :: stmts) := by
  rcases h with ⟨u, closing, rfl, hsequence, hclosing⟩
  refine ⟨w ++ (gap ++ u), closing, by simp, hsequence.after hstmt hgap ?_, hclosing⟩
  intro hempty
  cases u with
  | nil => rfl
  | cons t u =>
      have hbrace := hv hempty t rfl
      rw [hsequence.not_brace] at hbrace
      cases hbrace

theorem at_once (hstmt : Spells w (.stmt stmt)) (hgap : Separators gap) :
    Closes (w ++ (gap ++ [mark])) [stmt] :=
  .after hstmt hgap (by simp [mark_isOp]) (.brace mark_isOp)

end Closes

inductive Alternative (w : List Token) : Otherwise Stmt → Prop where
  | block {b : Block Stmt} :
      Spells w (.block b) →
      Alternative w (.block b)
  | conditional {t : Token} {condition : Expr} {body : Block Stmt} {o : Option (Otherwise Stmt)} :
      Spells w (.stmt (.conditional t condition body o)) →
      Alternative w (.conditional (.conditional t condition body o))

theorem Alternative.of_if {w rest : List Token} {stmt : Stmt} (h : Spells w (.stmt stmt))
    (hif : (w ++ rest).head?.any (·.isKeyword "if") = true) : Alternative w (.conditional stmt) := by
  rcases h.starts with ⟨t, v, rfl, _⟩
  rcases h.conditional_of_if (by simpa using hif) with ⟨condition, body, o, rfl⟩
  exact .conditional h

theorem Alternative.spells {gap w : List Token} {keyword : Token} {o : Otherwise Stmt}
    (h : Alternative w o) (hgap : ∀ t ∈ gap, t.kind = .newline)
    (hkeyword : keyword.isKeyword "else" = true) :
    Spells (gap ++ keyword :: w) (.otherwise (some o)) := by
  cases h with
  | block hb => exact .elseBlock hgap hkeyword hb
  | conditional hstmt => exact .elseIf hgap hkeyword hstmt

namespace Parser
namespace Reads

/-!
# Statements
-/

theorem param : Reads param Declares := by
  apply (identifier .expectedIdentifier).bind
  intro _ name hread
  rcases hread with ⟨rfl, hname⟩
  apply (expectOp ":").bind
  intro _ colon hread
  rcases hread with ⟨rfl, hcolon⟩
  apply (identifier .expectedType).bind
  intro _ type hread
  rcases hread with ⟨rfl, htype⟩
  exact pure (.param hname hcolon htype)

theorem letBinding {expression : Parse Expr}
    (hexpression : Reads expression fun w e => Spells w (.expr 1 e)) {t : Token}
    (ht : t.isKeyword "let" = true) :
    Reads (letBinding expression t) fun w stmt => Spells (t :: w) (.stmt stmt) := by
  apply (identifier .expectedIdentifier).bind
  intro _ name hread
  rcases hread with ⟨rfl, hname⟩
  apply (optionalType ":").bind
  intro w declared hdeclared
  apply (expectOp "=").bind
  intro _ sign hread
  rcases hread with ⟨rfl, hsign⟩
  apply hexpression.bind
  intro v value hvalue
  exact pure (by simpa using Spells.letBinding ht hname hdeclared hsign hvalue)

theorem funcDef {body : Parse (Block Stmt)} (hbody : Reads body fun w b => Spells w (.block b))
    {t : Token} (ht : t.isKeyword "func" = true) :
    Reads (funcDef body t) fun w stmt => Spells (t :: w) (.stmt stmt) := by
  apply (identifier .expectedIdentifier).bind
  intro _ name hread
  rcases hread with ⟨rfl, hname⟩
  apply (expectOp "(").bind
  intro _ opening hread
  rcases hread with ⟨rfl, hopening⟩
  apply param.items.bind
  intro w _ hread
  rcases hread with ⟨params, hlisted, hparams, rfl⟩
  apply (expectOp ")").bind
  intro _ closing hread
  rcases hread with ⟨rfl, hclosing⟩
  apply (optionalType "->").bind
  intro v returnType hreturn
  apply hbody.bind
  intro u b hb
  exact pure
    (by simpa using Spells.funcDef ht hname hopening hlisted hparams hclosing hreturn hb)

theorem whileLoop {expression : Parse Expr} {body : Parse (Block Stmt)}
    (hexpression : Reads expression fun w e => Spells w (.expr 1 e))
    (hbody : Reads body fun w b => Spells w (.block b)) {t : Token}
    (ht : t.isKeyword "while" = true) :
    Reads (whileLoop expression body t) fun w stmt => Spells (t :: w) (.stmt stmt) := by
  apply hexpression.bind
  intro w condition hcondition
  apply hbody.bind
  intro v b hb
  exact pure (by simpa using Spells.whileLoop ht hcondition hb)

theorem giveBack {expression : Parse Expr}
    (hexpression : Reads expression fun w e => Spells w (.expr 1 e)) {t : Token}
    (ht : t.isKeyword "return" = true) :
    Reads (giveBack expression t) fun w stmt => Spells (t :: w) (.stmt stmt) := by
  refine look fun next => ?_
  split
  · exact pure (.giveNothing ht)
  · apply hexpression.bind
    intro w value hvalue
    exact pure (by simpa using Spells.giveBack ht hvalue)

theorem skipSeparators : Reads skipSeparators fun w _ => Separators w where
  completable := ⟨[], (), separators_nil⟩
  sound {s _ _} hok := by
    cases hok
    exact ⟨s.takeWhile Token.isSeparator, List.takeWhile_append_dropWhile.symm,
      separators_takeWhile s⟩
  viable hstop := by cases hstop

theorem lineEnd_blockRest {rest : Parse (List Stmt)} (hrest : Reads rest Closes) {w : List Token}
    {stmt : Stmt} (hstmt : Spells w (.stmt stmt)) :
    Reads (do lineEnd; return stmt :: (← rest)) fun v stmts => Closes (w ++ v) stmts where
  completable := ⟨_, _, .at_once hstmt separators_nil⟩
  sound {s _ _} hok := by
    rcases bind_eq_ok_iff.mp hok with ⟨_, s', hline, hok⟩
    rcases bind_eq_ok_iff.mp hok with ⟨stmts, s'', hblock, hok⟩
    cases hok
    rcases hrest.sound hblock with ⟨v, rfl, hv⟩
    rcases lineEnd_run s with ⟨gap, _, rfl, hgap, hhead, hrun⟩ | ⟨_, hrun⟩
    · cases hrun.symm.trans hline
      refine ⟨gap ++ v, by simp, .after hstmt hgap ?_ hv⟩
      intro hempty t ht
      exact (hhead t (by simp_all)).2 hempty
    · cases hrun.symm.trans hline
  viable {s _ _} hstop := by
    rcases lineEnd_run s with ⟨gap, s', rfl, hgap, hhead, hrun⟩ | ⟨_, hrun⟩
    · rw [bind_of_ok hrun] at hstop
      rcases bind_eq_error_iff.mp hstop with hblock | ⟨_, _, _, hpure⟩
      · rcases hrest.viable hblock with ⟨c, v, stmts, rfl, hv⟩
        cases c with
        | nil =>
            exact ⟨gap, _, _, by simp, .at_once hstmt hgap⟩
        | cons t c =>
            refine ⟨gap ++ t :: c, v, stmt :: stmts, by simp, ?_⟩
            rw [List.append_assoc]
            refine .after hstmt hgap ?_ hv
            intro hempty u hu
            exact (hhead u (by simpa using hu)).2 hempty
      · cases hpure
    · rw [bind_of_error hrun] at hstop
      cases hstop
      exact ⟨[], _, _, rfl, .at_once hstmt separators_nil⟩

theorem blockRestFrom {statement : Parse Stmt}
    (hstatement : Reads statement fun w stmt => Spells w (.stmt stmt)) (brace : Token)
    (rounds : Nat) : Reads (blockRestFrom statement brace rounds) Closes := by
  induction rounds with
  | zero => exact reject ⟨_, _, .brace Closes.mark_isOp⟩
  | succ rounds ih =>
      refine acceptOp ?_ ?_
      · intro closing hclosing
        exact pure (.brace hclosing)
      · refine look fun next => ?_
        split
        · exact reject ⟨_, _, .brace Closes.mark_isOp⟩
        · apply hstatement.bind
          intro w stmt hstmt
          exact lineEnd_blockRest ih hstmt

theorem block {statement : Parse Stmt}
    (hstatement : Reads statement fun w stmt => Spells w (.stmt stmt)) :
    Reads (block statement) fun w b => Spells w (.block b) := by
  apply (expectOp "\x7b").bind
  intro _ brace hread
  rcases hread with ⟨rfl, hbrace⟩
  apply skipSeparators.bind
  intro gap _ hgap
  apply (rounds fun n => blockRestFrom hstatement brace (n + 1)).bind
  intro _ _ hread
  rcases hread with ⟨w, closing, rfl, hsequence, hclosing⟩
  rcases hsequence.prepend hgap with ⟨pieces, hspread, hpieces, rfl⟩
  exact pure (by simpa using Spells.block hbrace hspread hpieces hclosing)

/-!
# Conditional statements
-/

theorem acceptElse {β : Type} {T : List Token → β → Prop} {k : Bool → Parse β}
    (htrue : ∀ gap keyword, (∀ t ∈ gap, t.kind = .newline) → keyword.isKeyword "else" = true →
      Reads (k true) fun v y => T (gap ++ keyword :: v) y)
    (hfalse : Reads (k false) T) : Reads (acceptElse >>= k) T where
  completable := hfalse.completable
  sound {s _ _} hok := by
    rcases acceptElse_run s with ⟨gap, keyword, rest, rfl, hgap, hkeyword, hrun⟩ | ⟨_, hrun⟩
    · rw [bind_of_ok hrun] at hok
      rcases (htrue gap keyword hgap hkeyword).sound hok with ⟨v, rfl, hv⟩
      exact ⟨gap ++ keyword :: v, by simp, hv⟩
    · rw [bind_of_ok hrun] at hok
      exact hfalse.sound hok
  viable {s _ _} hstop := by
    rcases acceptElse_run s with ⟨gap, keyword, rest, rfl, hgap, hkeyword, hrun⟩ | ⟨_, hrun⟩
    · rw [bind_of_ok hrun] at hstop
      rcases (htrue gap keyword hgap hkeyword).viable hstop with ⟨c, v, y, rfl, hv⟩
      exact ⟨gap ++ keyword :: c, v, y, by simp, by simpa using hv⟩
    · rw [bind_of_ok hrun] at hstop
      exact hfalse.viable hstop

theorem otherwise {body : Parse (Block Stmt)} {statement : Parse Stmt}
    (hbody : Reads body fun w b => Spells w (.block b))
    (hstatement : Reads statement fun w stmt => Spells w (.stmt stmt)) :
    Reads (otherwise body statement) Alternative := by
  have hblock : Reads (do return .block (← body)) Alternative := by
    apply hbody.bind
    intro w b hb
    exact pure (.block (by simpa using hb))
  refine ⟨⟨?_, ?_⟩, hblock.completable⟩
  · intro s rest o hok
    change (if s.head?.any (·.isKeyword "if") = true then _ else _ : Parse _) s = _ at hok
    split at hok
    · rename_i hif
      rcases bind_eq_ok_iff.mp hok with ⟨stmt, s', hstmt, hpure⟩
      cases hpure
      rcases hstatement.sound hstmt with ⟨w, rfl, hw⟩
      exact ⟨w, rfl, .of_if hw hif⟩
    · exact hblock.sound hok
  · intro s rest cause hstop
    change (if s.head?.any (·.isKeyword "if") = true then _ else _ : Parse _) s = _ at hstop
    split at hstop
    · rename_i hif
      rcases bind_eq_error_iff.mp hstop with hstmt | ⟨_, _, _, hpure⟩
      · rcases hstatement.viable hstmt with ⟨c, v, stmt, rfl, hv⟩
        cases c with
        | nil =>
            rcases hblock.completable with ⟨u, o, ho⟩
            exact ⟨[], u, o, rfl, ho⟩
        | cons t c => exact ⟨t :: c, v, _, rfl, @Alternative.of_if _ [] _ hv hif⟩
      · cases hpure
    · exact hblock.viable hstop

theorem alternative {body : Parse (Block Stmt)} {statement : Parse Stmt}
    (hbody : Reads body fun w b => Spells w (.block b))
    (hstatement : Reads statement fun w stmt => Spells w (.stmt stmt)) :
    Reads (alternative body statement) fun w o => Spells w (.otherwise o) := by
  refine acceptElse ?_ (pure .nothingElse)
  intro gap keyword hgap hkeyword
  apply (otherwise hbody hstatement).bind
  intro w o ho
  exact pure (by simpa using ho.spells hgap hkeyword)

theorem conditional {expression : Parse Expr} {body : Parse (Block Stmt)} {statement : Parse Stmt}
    (hexpression : Reads expression fun w e => Spells w (.expr 1 e))
    (hbody : Reads body fun w b => Spells w (.block b))
    (hstatement : Reads statement fun w stmt => Spells w (.stmt stmt)) {t : Token}
    (ht : t.isKeyword "if" = true) :
    Reads (conditional expression body statement t) fun w stmt => Spells (t :: w) (.stmt stmt) := by
  apply hexpression.bind
  intro w condition hcondition
  apply hbody.bind
  intro v b hb
  apply (alternative hbody hstatement).bind
  intro u o ho
  exact pure (by simpa using Spells.conditional ht hcondition hb ho)

/-!
# All statements
-/

theorem completable_stmt : ∃ w stmt, Spells w (.stmt stmt) :=
  ⟨[⟨.keyword, "return", 0, 0⟩], _, .giveNothing rfl⟩

theorem assignmentRest {expression : Parse Expr}
    (hexpression : Reads expression fun w e => Spells w (.expr 1 e)) {first : Token}
    {w : List Token} {e : Expr} (h : Spells (first :: w) (.expr 1 e)) :
    Reads (assignmentRest expression first e) fun v stmt =>
      Spells (first :: w ++ v) (.stmt stmt) := by
  have hexpr : Spells (first :: w ++ []) (.stmt (.expr first e)) := by simpa using Spells.expr h
  refine look fun next => ?_
  split
  · cases e with
    | name name =>
        apply (expectOp "=").bind
        intro _ sign hread
        rcases hread with ⟨rfl, hsign⟩
        apply hexpression.bind
        intro v value hvalue
        exact pure (by simpa using Spells.assign h.bracketed hsign hvalue)
    | _ => exact reject ⟨_, _, hexpr⟩
  · exact pure hexpr

theorem assignOrExpr {expression : Parse Expr}
    (hexpression : Reads expression fun w e => Spells w (.expr 1 e)) :
    Reads (assignOrExpr expression) fun w stmt => Spells w (.stmt stmt) := by
  refine ⟨⟨?_, ?_⟩, completable_stmt⟩
  · intro s rest stmt hok
    cases s with
    | nil => cases hok
    | cons first s =>
        rw [assignOrExpr_cons] at hok
        rcases bind_eq_ok_iff.mp hok with ⟨e, s', he, hrest⟩
        rcases hexpression.sound he with ⟨w, hs, hw⟩
        rcases hw.starts with ⟨t, w, rfl, _⟩
        cases hs
        rcases (assignmentRest hexpression hw).sound hrest with ⟨v, rfl, hv⟩
        exact ⟨_, by simp, hv⟩
  · intro s rest cause hstop
    cases s with
    | nil =>
        cases hstop
        rcases completable_stmt with ⟨w, stmt, hstmt⟩
        exact ⟨[], w, stmt, rfl, hstmt⟩
    | cons first s =>
        rw [assignOrExpr_cons] at hstop
        rcases bind_eq_error_iff.mp hstop with hexpr | ⟨e, s', he, hrest⟩
        · rcases hexpression.viable hexpr with ⟨c, v, e, hs, hv⟩
          rcases hv.starts with ⟨t, w, heq, _⟩
          rw [heq] at hv
          exact ⟨c, v, _, hs, by rw [heq]; exact .expr hv⟩
        · rcases hexpression.sound he with ⟨w, hs, hw⟩
          rcases hw.starts with ⟨t, w, rfl, _⟩
          cases hs
          rcases (assignmentRest hexpression hw).viable hrest with ⟨c, v, stmt, rfl, hv⟩
          exact ⟨first :: w ++ c, v, stmt, by simp, by simpa using hv⟩

theorem statement (depth : Nat) : Reads (statement depth) fun w stmt => Spells w (.stmt stmt) := by
  induction depth with
  | zero => exact reject completable_stmt
  | succ depth ih =>
      refine accept ?_ (assignOrExpr (expression depth))
      intro t found ho
      rcases found with ⟨u, o⟩
      rcases Opening.atToken?_eq_some_iff.mp ho with ⟨rfl, hword⟩
      cases o with
      | letBinding => exact (letBinding (expression depth) hword).toTracks
      | funcDef => exact (funcDef (block ih) hword).toTracks
      | conditional => exact (conditional (expression depth) (block ih) ih hword).toTracks
      | whileLoop => exact (whileLoop (expression depth) (block ih) hword).toTracks
      | giveBack => exact (giveBack (expression depth) hword).toTracks

end Reads

/-!
# Whole programs
-/

section Programs

variable {statement : Parse Stmt} {rounds : Nat} {s : List Token} {stmts : List Stmt}

theorem sequence_of_statementsFrom
    (hstatement : Reads statement fun w stmt => Spells w (.stmt stmt))
    (h : statementsFrom statement rounds s = (stmts, none)) : Sequence s stmts := by
  induction rounds generalizing s stmts with
  | zero => simp [statementsFrom] at h
  | succ rounds ih =>
      cases s with
      | nil =>
          cases h
          exact .blank separators_nil
      | cons t s =>
          cases hstmt : statement (t :: s) with
          | error stop => simp [statementsFrom, hstmt] at h
          | ok result =>
              rcases result with ⟨stmt, s'⟩
              rcases hstatement.sound hstmt with ⟨w, hs, hw⟩
              rcases lineEnd_run s' with ⟨gap, s'', rfl, hgap, hhead, hrun⟩ | ⟨_, hrun⟩
              · simp only [statementsFrom, hstmt, hrun, Prod.mk.injEq] at h
                have hrest := ih (Prod.ext rfl h.2)
                rw [hs, ← h.1]
                exact .after_lineEnd hw hgap (fun t ht => (hhead t ht).2) hrest
              · simp [statementsFrom, hstmt, hrun] at h

theorem sequence_of_statements {limit : Nat} (h : statements limit s = (stmts, none)) :
    Sequence s stmts := by
  have hsequence := sequence_of_statementsFrom (Reads.statement limit) h
  rw [← List.takeWhile_append_dropWhile (p := Token.isSeparator) (l := s)]
  exact hsequence.prepend (separators_takeWhile s)

end Programs
end Parser
end TypedAnt
