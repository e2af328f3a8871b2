import TypedAnt.Proofs.Program.Grammar
import TypedAnt.Proofs.Token

/-!
# First tokens of phrases

Every expression, block and statement has a first token, and the first token tells what
kind of phrase it is.  No phrase contains an end-of-file token.
-/

namespace TypedAnt

namespace Token

def startsOperand (t : Token) : Bool :=
  t.kind == .int || t.kind == .float || t.kind == .string || t.kind == .ident ||
    t.isKeyword "true" || t.isKeyword "false" || t.isOp "("

def startsExpr (t : Token) : Bool :=
  t.startsOperand || t.isOp "-" || t.isOp "!"

def startsStmt (t : Token) : Bool :=
  t.startsExpr || Opening.all.any fun o => t.isKeyword o.word

end Token

def Phrase.Starts (w : List Token) : Phrase → Prop
  | .expr level _ =>
      ∃ t v, w = t :: v ∧ t.startsExpr = true ∧ (8 ≤ level → t.startsOperand = true)
  | .block _ => ∃ t v, w = t :: v ∧ t.isOp "\x7b" = true
  | .otherwise _ => True
  | .stmt _ => ∃ t v, w = t :: v ∧ t.startsStmt = true

theorem Bracketed.starts {name : Token} {w : List Token} (h : Bracketed name w) :
    ∃ t v, w = t :: v ∧ t.startsOperand = true := by
  cases h with
  | bare hname => exact ⟨name, [], rfl, by simp [Token.startsOperand, hname]⟩
  | wrapped hopening _ _ => exact ⟨_, _, rfl, by simp [Token.startsOperand, hopening]⟩

theorem Declares.starts {w : List Token} {p : Param} (h : Declares w p) :
    ∃ t v, w = t :: v ∧ t.isOp ")" = false := by
  cases h with
  | param hname _ _ => exact ⟨_, _, rfl, by simp [Token.isOp, hname]⟩

theorem Spells.starts {w : List Token} {p : Phrase} (h : Spells w p) : p.Starts w := by
  induction h with
  | intLit hkind _ => exact ⟨_, _, rfl, by simp [Token.startsExpr, Token.startsOperand, hkind]⟩
  | floatLit hkind _ => exact ⟨_, _, rfl, by simp [Token.startsExpr, Token.startsOperand, hkind]⟩
  | stringLit hkind => exact ⟨_, _, rfl, by simp [Token.startsExpr, Token.startsOperand, hkind]⟩
  | trueLit hword => exact ⟨_, _, rfl, by simp [Token.startsExpr, Token.startsOperand, hword]⟩
  | falseLit hword => exact ⟨_, _, rfl, by simp [Token.startsExpr, Token.startsOperand, hword]⟩
  | name hkind => exact ⟨_, _, rfl, by simp [Token.startsExpr, Token.startsOperand, hkind]⟩
  | parens hopening _ _ _ =>
      exact ⟨_, _, rfl, by simp [Token.startsExpr, Token.startsOperand, hopening]⟩
  | lift _ _ _ ih =>
      rcases ih with ⟨t, v, hw, hexpr, hoperand⟩
      exact ⟨t, v, hw, hexpr, fun hlevel => hoperand (by omega)⟩
  | call _ _ _ _ _ ih _ =>
      rcases ih with ⟨t, v, hw, hexpr, hoperand⟩
      rw [hw]
      exact ⟨t, _, rfl, hexpr, hoperand⟩
  | @unary t op w e hop _ _ =>
      refine ⟨t, w, rfl, ?_, by omega⟩
      cases op with
      | neg =>
          have hminus : t.isOp "-" = true := hop
          simp [Token.startsExpr, hminus]
      | not =>
          have hbang : t.isOp "!" = true := hop
          simp [Token.startsExpr, hbang]
  | binary _ _ _ ih _ =>
      rcases ih with ⟨t, v, hw, hexpr, hoperand⟩
      rw [hw]
      exact ⟨t, _, rfl, hexpr, hoperand⟩
  | block hopening _ _ _ _ => exact ⟨_, _, rfl, hopening⟩
  | nothingElse => trivial
  | elseBlock _ _ _ _ => trivial
  | elseIf _ _ _ _ => trivial
  | letBinding hword _ _ _ _ _ =>
      exact ⟨_, _, rfl, by simp [Token.startsStmt, Opening.all, Opening.word, hword]⟩
  | funcDef hword _ _ _ _ _ _ _ _ =>
      exact ⟨_, _, rfl, by simp [Token.startsStmt, Opening.all, Opening.word, hword]⟩
  | conditional hword _ _ _ _ _ _ =>
      exact ⟨_, _, rfl, by simp [Token.startsStmt, Opening.all, Opening.word, hword]⟩
  | whileLoop hword _ _ _ _ =>
      exact ⟨_, _, rfl, by simp [Token.startsStmt, Opening.all, Opening.word, hword]⟩
  | giveNothing hword =>
      exact ⟨_, _, rfl, by simp [Token.startsStmt, Opening.all, Opening.word, hword]⟩
  | giveBack hword _ _ =>
      exact ⟨_, _, rfl, by simp [Token.startsStmt, Opening.all, Opening.word, hword]⟩
  | assign hname _ _ _ =>
      rcases hname.starts with ⟨t, v, hw, hoperand⟩
      rw [hw]
      exact ⟨t, _, rfl, by simp [Token.startsStmt, Token.startsExpr, hoperand]⟩
  | expr _ ih =>
      rcases ih with ⟨t, v, hw, hexpr, _⟩
      exact ⟨t, v, hw, by simp [Token.startsStmt, hexpr]⟩

/-!
# What the first token is not
-/

namespace Token

variable {t : Token}

theorem unaryOf_eq_none_of_startsOperand (h : t.startsOperand = true) :
    UnaryOp.atToken? t = none := by
  cases hfound : UnaryOp.atToken? t with
  | none => rfl
  | some found =>
      rcases found with ⟨u, op⟩
      have hop := (UnaryOp.atToken?_eq_some_iff.mp hfound).2
      cases op <;> grind [startsOperand, UnaryOp.symbol]

theorem openingOf_eq_none_of_startsExpr (h : t.startsExpr = true) : Opening.atToken? t = none := by
  cases hfound : Opening.atToken? t with
  | none => rfl
  | some found =>
      rcases found with ⟨u, o⟩
      have ho := (Opening.atToken?_eq_some_iff.mp hfound).2
      cases o <;> grind [startsExpr, startsOperand, Opening.word]

theorem kind_of_startsStmt (h : t.startsStmt = true) :
    t.kind ∈ [.int, .float, .string, .ident] ∨ (t.kind = .keyword ∧ t.value ≠ "else") ∨
      (t.kind = .op ∧ t.value ∈ ["(", "-", "!"]) := by
  simp only [startsStmt, Opening.all, List.any_cons, List.any_nil, Opening.word, startsExpr,
    startsOperand, isOp, isKeyword] at h
  cases hkind : t.kind <;> simp_all
  · intro helse
    simp [helse] at h
  · exact or_assoc.mp h

theorem isOp_eq_false_of_startsStmt (h : t.startsStmt = true) {op : String}
    (hop : op ∉ ["(", "-", "!"]) : t.isOp op = false := by
  rcases kind_of_startsStmt h with hkind | ⟨hkind, _⟩ | ⟨_, hvalue⟩
  · grind
  · grind
  · have hne : t.value ≠ op := by
      intro heq
      exact hop (heq ▸ hvalue)
    grind

theorem isSeparator_eq_false_of_startsStmt (h : t.startsStmt = true) : t.isSeparator = false := by
  have hsemicolon : t.isOp ";" = false := isOp_eq_false_of_startsStmt h (by decide)
  rcases kind_of_startsStmt h with hkind | ⟨hkind, _⟩ | ⟨hkind, _⟩ <;> grind

theorem isElse_eq_false_of_startsStmt (h : t.startsStmt = true) : t.isKeyword "else" = false := by
  rcases kind_of_startsStmt h with hkind | ⟨hkind, hvalue⟩ | ⟨hkind, _⟩ <;> grind

theorem startsStmt_of_startsExpr (h : t.startsExpr = true) : t.startsStmt = true := by
  simp [startsStmt, h]

end Token

theorem Spells.ne_nil_of_expr {w : List Token} {level : Nat} {e : Expr}
    (h : Spells w (.expr level e)) : w ≠ [] := by
  rcases h.starts with ⟨t, v, rfl, _⟩
  simp

theorem Spells.ne_nil {w : List Token} {stmt : Stmt} (h : Spells w (.stmt stmt)) : w ≠ [] := by
  rcases h.starts with ⟨t, v, rfl, _⟩
  simp

namespace Sequence

variable {t : Token} {v : List Token} {stmts : List Stmt}

theorem head (h : Sequence (t :: v) stmts) : t.isSeparator = true ∨ t.startsStmt = true := by
  rcases h with ⟨pieces, hspread, hpieces, _⟩
  have hfirst {gap w u : List Token} {stmt : Stmt} (hgap : Separators gap)
      (hstmt : Spells w (.stmt stmt)) (heq : t :: v = gap ++ (w ++ u)) :
      t.isSeparator = true ∨ t.startsStmt = true := by
    cases gap with
    | nil =>
        rcases hstmt.starts with ⟨t', w', rfl, hstarts⟩
        cases heq
        exact Or.inr hstarts
    | cons t' gap' =>
        cases heq
        exact Or.inl (hgap t (by simp))
  generalize hw : t :: v = w at hspread
  cases hspread with
  | blank hgap => exact Or.inl (hgap t (by simp [← hw]))
  | last hgap =>
      exact hfirst (u := []) hgap (hpieces _ List.mem_cons_self) (by simpa using hw)
  | next hgap _ _ => exact hfirst hgap (hpieces _ List.mem_cons_self) hw

theorem of_nil (h : Sequence [] stmts) : stmts = [] := by
  rcases h with ⟨pieces, hspread, hpieces, rfl⟩
  generalize hw : ([] : List Token) = w at hspread
  cases hspread with
  | blank _ => rfl
  | last _ =>
      have hne := (hpieces _ List.mem_cons_self).ne_nil
      simp_all
  | next _ _ _ => simp at hw

end Sequence

/-!
# End-of-file tokens
-/

theorem Separators.noEof {w : List Token} (h : Separators w) : NoEof w := by
  intro t ht
  have hmark := h t ht
  grind

theorem noEof_of_newlines {w : List Token} (h : ∀ t ∈ w, t.kind = .newline) : NoEof w := by
  intro t ht
  simp [h t ht]

theorem Listed.noEof {α : Type} {pieces : List (List Token × α)} {w : List Token}
    (h : Listed pieces w) (hpieces : ∀ piece ∈ pieces, NoEof piece.1) : NoEof w := by
  induction h with
  | nil => simp
  | last w x => exact hpieces (w, x) List.mem_cons_self
  | @next w v x comma pieces hcomma _ ih =>
      have hw : NoEof w := hpieces (w, x) List.mem_cons_self
      simp [hw, Token.ne_eof_of_isOp hcomma,
        ih fun piece hmem => hpieces piece (List.mem_cons_of_mem _ hmem)]

theorem Spread.noEof {α : Type} {pieces : List (List Token × α)} {w : List Token}
    (h : Spread pieces w) (hpieces : ∀ piece ∈ pieces, NoEof piece.1) : NoEof w := by
  induction h with
  | blank hgap => exact hgap.noEof
  | @last gap w x hgap =>
      have hw : NoEof w := hpieces (w, x) List.mem_cons_self
      simp [hgap.noEof, hw]
  | @next gap w v x mark pieces hgap hmark _ ih =>
      have hw : NoEof w := hpieces (w, x) List.mem_cons_self
      have hkind : mark.kind ≠ .eof := by grind
      simp [hgap.noEof, hw, hkind,
        ih fun piece hmem => hpieces piece (List.mem_cons_of_mem _ hmem)]

theorem Announced.noEof {mark : String} {w : List Token} {o : Option Token}
    (h : Announced mark w o) : NoEof w := by
  cases h with
  | absent => simp
  | present hsign htype => simp [Token.ne_eof_of_isOp hsign, htype]

theorem Declares.noEof {w : List Token} {p : Param} (h : Declares w p) : NoEof w := by
  cases h with
  | param hname hcolon htype => simp [hname, Token.ne_eof_of_isOp hcolon, htype]

theorem Bracketed.noEof {name : Token} {w : List Token} (h : Bracketed name w) : NoEof w := by
  induction h with
  | bare hname => simp [hname]
  | wrapped hopening _ hclosing ih =>
      simp [Token.ne_eof_of_isOp hopening, Token.ne_eof_of_isOp hclosing, ih]

theorem Spells.noEof {w : List Token} {p : Phrase} (h : Spells w p) : NoEof w := by
  induction h with
  | intLit hkind _ => simp [hkind]
  | floatLit hkind _ => simp [hkind]
  | stringLit hkind => simp [hkind]
  | trueLit hword => simp [Token.ne_eof_of_isKeyword hword]
  | falseLit hword => simp [Token.ne_eof_of_isKeyword hword]
  | name hkind => simp [hkind]
  | parens hopening _ hclosing ih =>
      simp [Token.ne_eof_of_isOp hopening, Token.ne_eof_of_isOp hclosing, ih]
  | lift _ _ _ ih => exact ih
  | call _ hopening hlisted _ hclosing ih ihargs =>
      simp [Token.ne_eof_of_isOp hopening, Token.ne_eof_of_isOp hclosing, ih, hlisted.noEof ihargs]
  | unary hop _ ih => simp [Token.ne_eof_of_isOp hop, ih]
  | binary _ hop _ ihleft ihright => simp [Token.ne_eof_of_isOp hop, ihleft, ihright]
  | block hopening hspread _ hclosing ih =>
      simp [Token.ne_eof_of_isOp hopening, Token.ne_eof_of_isOp hclosing, hspread.noEof ih]
  | nothingElse => simp
  | elseBlock hgap hkeyword _ ih =>
      simp [noEof_of_newlines hgap, Token.ne_eof_of_isKeyword hkeyword, ih]
  | elseIf hgap hkeyword _ ih =>
      simp [noEof_of_newlines hgap, Token.ne_eof_of_isKeyword hkeyword, ih]
  | letBinding hword hname hdeclared hsign _ ih =>
      simp [Token.ne_eof_of_isKeyword hword, hname, hdeclared.noEof, Token.ne_eof_of_isOp hsign, ih]
  | funcDef hword hname hopening hlisted hparams hclosing hreturn _ ih =>
      simp [Token.ne_eof_of_isKeyword hword, hname, Token.ne_eof_of_isOp hopening,
        hlisted.noEof fun param hmem => (hparams param hmem).noEof,
        Token.ne_eof_of_isOp hclosing, hreturn.noEof, ih]
  | conditional hword _ _ _ ihcondition ihbody ihother =>
      simp [Token.ne_eof_of_isKeyword hword, ihcondition, ihbody, ihother]
  | whileLoop hword _ _ ihcondition ihbody =>
      simp [Token.ne_eof_of_isKeyword hword, ihcondition, ihbody]
  | giveNothing hword => simp [Token.ne_eof_of_isKeyword hword]
  | giveBack hword _ ih => simp [Token.ne_eof_of_isKeyword hword, ih]
  | assign hname hsign _ ih => simp [hname.noEof, Token.ne_eof_of_isOp hsign, ih]
  | expr _ ih => exact ih

theorem Sequence.noEof {w : List Token} {stmts : List Stmt} (h : Sequence w stmts) : NoEof w := by
  rcases h with ⟨pieces, hspread, hpieces, _⟩
  exact hspread.noEof fun piece hmem => (hpieces piece hmem).noEof

end TypedAnt
