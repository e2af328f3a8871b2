import TypedAnt.Proofs.Program.Grammar

/-!
# The tokens of a tree

Every node of a tree holds tokens of its own.  Those of a tree that a run of tokens spells
all come from that run.
-/

namespace TypedAnt

variable {S : Token → Prop}

inductive Expr.Within (S : Token → Prop) : Expr → Prop where
  | intLit {t : Token} {n : Int} : S t → Within S (.intLit t n)
  | floatLit {t : Token} {bits : UInt64} : S t → Within S (.floatLit t bits)
  | stringLit {t : Token} {text : String} : S t → Within S (.stringLit t text)
  | boolLit {t : Token} {b : Bool} : S t → Within S (.boolLit t b)
  | name {t : Token} : S t → Within S (.name t)
  | unary {t : Token} {op : UnaryOp} {operand : Expr} :
      S t → Within S operand → Within S (.unary t op operand)
  | binary {t : Token} {op : BinaryOp} {left right : Expr} :
      S t → Within S left → Within S right → Within S (.binary t op left right)
  | call {t : Token} {callee : Expr} {args : List Expr} :
      S t → Within S callee → (∀ arg ∈ args, Within S arg) → Within S (.call t callee args)

theorem Expr.Within.token {e : Expr} (h : e.Within S) : S e.token := by
  cases h <;> assumption

inductive Stmt.Within (S : Token → Prop) : Stmt → Prop where
  | letBinding {t name : Token} {declared : Option Token} {value : Expr} :
      S t → S name → (∀ type ∈ declared, S type) → value.Within S →
      Within S (.letBinding t name declared value)
  | assign {t name : Token} {value : Expr} :
      S t → S name → value.Within S → Within S (.assign t name value)
  | funcDef {t name : Token} {params : List Param} {returnType : Option Token}
      {body : Block Stmt} :
      S t → S name → (∀ p ∈ params, S p.name ∧ S p.type) → (∀ type ∈ returnType, S type) →
      S body.token → (∀ stmt ∈ body.statements, Within S stmt) →
      Within S (.funcDef t name params returnType body)
  | conditional {t : Token} {condition : Expr} {body : Block Stmt}
      {otherwise : Option (Otherwise Stmt)} :
      S t → condition.Within S → S body.token → (∀ stmt ∈ body.statements, Within S stmt) →
      (∀ other, otherwise = some (.block other) → S other.token) →
      (∀ other, otherwise = some (.block other) → ∀ stmt ∈ other.statements, Within S stmt) →
      (∀ stmt, otherwise = some (.conditional stmt) → Within S stmt) →
      Within S (.conditional t condition body otherwise)
  | whileLoop {t : Token} {condition : Expr} {body : Block Stmt} :
      S t → condition.Within S → S body.token → (∀ stmt ∈ body.statements, Within S stmt) →
      Within S (.whileLoop t condition body)
  | giveBack {t : Token} {value : Option Expr} :
      S t → (∀ e ∈ value, e.Within S) → Within S (.giveBack t value)
  | expr {t : Token} {value : Expr} : S t → value.Within S → Within S (.expr t value)

def Block.Within (S : Token → Prop) (b : Block Stmt) : Prop :=
  S b.token ∧ ∀ stmt ∈ b.statements, stmt.Within S

def Phrase.Within (S : Token → Prop) : Phrase → Prop
  | .expr _ e => e.Within S
  | .block b => b.Within S
  | .otherwise o =>
      (∀ other, o = some (.block other) → other.Within S) ∧
        ∀ stmt, o = some (.conditional stmt) → stmt.Within S
  | .stmt s => s.Within S

/-!
# Tokens of what is spelled
-/

theorem Announced.within {mark : String} {w : List Token} {declared : Option Token}
    (h : Announced mark w declared) (hw : ∀ t ∈ w, S t) : ∀ type ∈ declared, S type := by
  cases h with
  | absent => simp
  | present _ _ =>
      intro type htype
      cases htype
      exact hw _ (by simp)

theorem Bracketed.within {name : Token} {w : List Token} (h : Bracketed name w)
    (hw : ∀ t ∈ w, S t) : S name := by
  induction h with
  | bare _ => exact hw name (by simp)
  | wrapped _ _ _ ih => exact ih fun t ht => hw t (by simp [ht])

theorem Declares.within {w : List Token} {p : Param} (h : Declares w p) (hw : ∀ t ∈ w, S t) :
    S p.name ∧ S p.type := by
  cases h with
  | param _ _ _ => exact ⟨hw _ (by simp), hw _ (by simp)⟩

/-- What holds of each piece by its own tokens holds by the tokens that the pieces are part of. -/
theorem forall_of_sublist {α : Type} {pieces : List (List Token × α)} {w : List Token}
    {P : α → Prop} (hpieces : ∀ piece ∈ pieces, piece.1.Sublist w) (hw : ∀ t ∈ w, S t)
    (h : ∀ piece ∈ pieces, (∀ t ∈ piece.1, S t) → P piece.2) :
    ∀ x ∈ pieces.map Prod.snd, P x := by
  intro x hmem
  rcases List.mem_map.mp hmem with ⟨piece, hpiece, rfl⟩
  apply h piece hpiece
  intro t ht
  exact hw t ((hpieces piece hpiece).subset ht)

theorem Spells.within {w : List Token} {p : Phrase} (h : Spells w p) (hw : ∀ t ∈ w, S t) :
    p.Within S := by
  induction h with
  | intLit _ _ => exact .intLit (hw _ (by simp))
  | floatLit _ _ => exact .floatLit (hw _ (by simp))
  | stringLit _ => exact .stringLit (hw _ (by simp))
  | trueLit _ => exact .boolLit (hw _ (by simp))
  | falseLit _ => exact .boolLit (hw _ (by simp))
  | name _ => exact .name (hw _ (by simp))
  | parens _ _ _ ih =>
      rw [List.forall_mem_cons, List.forall_mem_append] at hw
      exact ih hw.2.1
  | lift _ _ _ ih => exact ih hw
  | call _ _ hlisted _ _ ih ihargs =>
      rw [List.forall_mem_append, List.forall_mem_cons, List.forall_mem_append] at hw
      exact .call hw.2.1 (ih hw.1) (forall_of_sublist hlisted.sublist hw.2.2.1 ihargs)
  | unary _ _ ih =>
      rw [List.forall_mem_cons] at hw
      exact .unary hw.1 (ih hw.2)
  | binary _ _ _ ihleft ihright =>
      rw [List.forall_mem_append, List.forall_mem_cons] at hw
      exact .binary hw.2.1 (ihleft hw.1) (ihright hw.2.2)
  | block _ hspread _ _ ih =>
      rw [List.forall_mem_cons, List.forall_mem_append] at hw
      exact ⟨hw.1, forall_of_sublist hspread.sublist hw.2.1 ih⟩
  | nothingElse => exact ⟨by simp, by simp⟩
  | elseBlock _ _ _ ih =>
      rw [List.forall_mem_append, List.forall_mem_cons] at hw
      refine ⟨?_, by simp⟩
      intro other heq
      cases heq
      exact ih hw.2.2
  | elseIf _ _ _ ih =>
      rw [List.forall_mem_append, List.forall_mem_cons] at hw
      refine ⟨by simp, ?_⟩
      intro stmt heq
      cases heq
      exact ih hw.2.2
  | letBinding _ _ hdeclared _ _ ih =>
      rw [List.forall_mem_cons, List.forall_mem_cons, List.forall_mem_append,
        List.forall_mem_cons] at hw
      rcases hw with ⟨ht, hname, htype, _, hvalue⟩
      exact .letBinding ht hname (hdeclared.within htype) (ih hvalue)
  | funcDef _ _ _ hlisted hparams _ hreturn _ ih =>
      rw [List.forall_mem_cons, List.forall_mem_cons, List.forall_mem_cons,
        List.forall_mem_append, List.forall_mem_cons, List.forall_mem_append] at hw
      rcases hw with ⟨ht, hname, _, hlist, _, htype, hbody⟩
      have hnames := forall_of_sublist (P := fun p => S p.name ∧ S p.type) hlisted.sublist hlist
        fun piece hpiece htokens => (hparams piece hpiece).within htokens
      exact .funcDef ht hname hnames (hreturn.within htype) (ih hbody).1 (ih hbody).2
  | conditional _ _ _ _ ihcondition ihbody ihother =>
      rw [List.forall_mem_cons, List.forall_mem_append, List.forall_mem_append] at hw
      rcases hw with ⟨ht, hcondition, hbody, hother⟩
      exact .conditional ht (ihcondition hcondition) (ihbody hbody).1 (ihbody hbody).2
        (fun other heq => ((ihother hother).1 other heq).1)
        (fun other heq => ((ihother hother).1 other heq).2) (ihother hother).2
  | whileLoop _ _ _ ihcondition ihbody =>
      rw [List.forall_mem_cons, List.forall_mem_append] at hw
      rcases hw with ⟨ht, hcondition, hbody⟩
      exact .whileLoop ht (ihcondition hcondition) (ihbody hbody).1 (ihbody hbody).2
  | giveNothing _ => exact .giveBack (hw _ (by simp)) (by simp)
  | giveBack _ _ ih =>
      rw [List.forall_mem_cons] at hw
      apply Stmt.Within.giveBack hw.1
      intro e he
      cases he
      exact ih hw.2
  | assign hname _ _ ih =>
      rw [List.forall_mem_append, List.forall_mem_cons] at hw
      exact .assign hw.2.1 (hname.within hw.1) (ih hw.2.2)
  | expr _ ih => exact .expr (hw _ (by simp)) (ih hw)

theorem Program.Derived.within {tokens : List Token} {p : Program} (h : Program.Derived tokens p) :
    p.token ∈ tokens ∧ ∀ stmt ∈ p.statements, stmt.Within (· ∈ tokens) := by
  cases h with
  | @program w eof stmts hsequence _ =>
      rcases hsequence with ⟨pieces, hspread, hpieces, rfl⟩
      constructor
      · cases w <;> simp
      · exact forall_of_sublist hspread.sublist (fun t ht => List.mem_append_left _ ht)
          fun piece hpiece htokens => (hpieces piece hpiece).within htokens

end TypedAnt
