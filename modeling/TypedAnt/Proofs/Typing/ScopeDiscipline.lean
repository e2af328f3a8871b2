import TypedAnt.Proofs.Program.Regular
import TypedAnt.Proofs.Scopes
import TypedAnt.Proofs.Typing.Breaking

/-!
# Scope discipline

What a check does to the scopes that are open when it starts, whether it succeeds or fails,
and which scopes it leaves open on top of them.
-/

namespace TypedAnt

open CheckM

namespace Stmt

variable {given : Option Ty} {Γ Δ Θ : Scopes} {s : Stmt} {stmts : List Stmt}

/-!
# Writing to the innermost scope
-/

/-- What a statement does to the scopes, as far as it stands at their level. -/
inductive Writes (Γ : Scopes) : Stmt → Scopes → Prop where
  | letBinding {t name : Token} {declared : Option Token} {value : Expr} {type : Ty} :
      Writes Γ (.letBinding t name declared value) (Γ.define name.value type)
  | funcDef {t name : Token} {params : List Param} {returnType : Option Token}
      {body : Block Stmt} {type : Ty} :
      Writes Γ (.funcDef t name params returnType body) (Γ.define name.value type)
  | firstAssign {t name : Token} {value : Expr} {type : Ty} :
      Γ.Unbound name.value →
      Writes Γ (.assign t name value) (Γ.define name.value type)
  | assign {t name : Token} {value : Expr} :
      ¬ Γ.Unbound name.value →
      Writes Γ (.assign t name value) Γ
  | conditional {t : Token} {condition : Expr} {body : Block Stmt}
      {o : Option (Otherwise Stmt)} :
      Writes Γ (.conditional t condition body o) Γ
  | whileLoop {t : Token} {condition : Expr} {body : Block Stmt} :
      Writes Γ (.whileLoop t condition body) Γ
  | giveBack {t : Token} {value : Option Expr} : Writes Γ (.giveBack t value) Γ
  | expr {t : Token} {value : Expr} : Writes Γ (.expr t value) Γ

inductive AllWrite : Scopes → List Stmt → Scopes → Prop where
  | nil {Γ : Scopes} : AllWrite Γ [] Γ
  | cons {Γ Δ Θ : Scopes} {s : Stmt} {rest : List Stmt} :
      Writes Γ s Δ → AllWrite Δ rest Θ → AllWrite Γ (s :: rest) Θ

theorem Writes.define_or_eq (h : Writes Γ s Δ) : (∃ name type, Δ = Γ.define name type) ∨ Δ = Γ := by
  cases h with
  | letBinding => exact Or.inl ⟨_, _, rfl⟩
  | funcDef => exact Or.inl ⟨_, _, rfl⟩
  | firstAssign _ => exact Or.inl ⟨_, _, rfl⟩
  | assign _ => exact Or.inr rfl
  | conditional => exact Or.inr rfl
  | whileLoop => exact Or.inr rfl
  | giveBack => exact Or.inr rfl
  | expr => exact Or.inr rfl

theorem Writes.below_eq (h : Writes Γ s Δ) : Δ.below = Γ.below := by
  rcases h.define_or_eq with ⟨name, type, rfl⟩ | rfl
  · exact Scopes.below_define Γ name type
  · rfl

theorem Writes.tail_eq (h : Writes Γ s Δ) : Δ.stack.tail = Γ.stack.tail := by
  rcases h.define_or_eq with ⟨name, type, rfl⟩ | rfl
  · rw [Scopes.stack_define]
    rfl
  · rfl

theorem Writes.names_prefix (h : Writes Γ s Δ) : Γ.innermost.names <+: Δ.innermost.names := by
  rcases h.define_or_eq with ⟨name, type, rfl⟩ | rfl
  · rw [Scopes.innermost_define]
    exact Fields.names_prefix_set _ _ _
  · exact List.prefix_refl _

theorem AllWrite.below_eq (h : AllWrite Γ stmts Δ) : Δ.below = Γ.below := by
  induction h with
  | nil => rfl
  | cons hs _ ih => exact ih.trans hs.below_eq

theorem AllWrite.tail_eq (h : AllWrite Γ stmts Δ) : Δ.stack.tail = Γ.stack.tail := by
  induction h with
  | nil => rfl
  | cons hs _ ih => exact ih.trans hs.tail_eq

theorem AllWrite.names_prefix (h : AllWrite Γ stmts Δ) :
    Γ.innermost.names <+: Δ.innermost.names := by
  induction h with
  | nil => exact List.prefix_refl _
  | cons hs _ ih => exact hs.names_prefix.trans ih

theorem AllWrite.concat (h : AllWrite Γ stmts Δ) (hs : Writes Δ s Θ) :
    AllWrite Γ (stmts ++ [s]) Θ := by
  induction h with
  | nil => exact .cons hs .nil
  | cons hfirst _ ih => exact .cons hfirst (ih hs)

theorem AllWrite.of_prefix {done : List Stmt} (h : AllWrite Γ done Δ) (hdone : done <+: [s]) :
    Δ = Γ ∨ Writes Γ s Δ := by
  cases h with
  | nil => exact Or.inl rfl
  | cons hs hrest =>
      rcases List.cons_prefix_cons.mp hdone with ⟨rfl, hnil⟩
      cases List.prefix_nil.mp hnil
      cases hrest
      exact Or.inr hs

theorem Typed.writes (h : Typed given Γ s Δ) (hregular : s.Regular) : Writes Γ s Δ := by
  induction hregular generalizing Δ with
  | letBinding =>
      cases h with
      | letInferred _ => exact .letBinding
      | letDeclared _ _ _ => exact .letBinding
  | assign =>
      cases h with
      | assignBound _ hbinds _ => exact .assign hbinds.not_unbound
      | assignUnbound _ hunbound => exact .firstAssign hunbound
  | funcDef _ _ =>
      cases h with
      | funcDef _ _ _ => exact .funcDef
  | conditional _ _ =>
      cases h with
      | conditional _ _ => exact .conditional
  | elseBlock _ _ _ _ =>
      cases h with
      | conditionalBlock _ _ _ => exact .conditional
  | elseIf _ _ _ ih =>
      cases h with
      | conditionalChain _ _ hnext =>
          cases ih hnext
          exact .conditional
  | whileLoop _ _ =>
      cases h with
      | whileLoop _ _ => exact .whileLoop
  | giveBack =>
      cases h with
      | giveNothing _ => exact .giveBack
      | giveBack _ _ => exact .giveBack
  | expr =>
      cases h with
      | expr _ => exact .expr

theorem AllTyped.allWrite (h : AllTyped given Γ stmts Δ) (hregular : ∀ s ∈ stmts, s.Regular) :
    AllWrite Γ stmts Δ := by
  induction stmts generalizing Γ with
  | nil =>
      cases h
      exact .nil
  | cons s rest ih =>
      rcases List.forall_mem_cons.mp hregular with ⟨hfirst, hrest⟩
      cases h with
      | cons hs hall => exact .cons (hs.writes hfirst) (ih hall hrest)

/-!
# Scopes that stay open
-/

section Open

variable {c d c' : Checker} {failing : Stmt} {before : List Stmt} {opener : Opener}
  {trail : List Enclosure}

theorem Enters.regular (h : Enters c s opener stmts d) (hregular : s.Regular) :
    ∀ stmt ∈ stmts, stmt.Regular := by
  cases h with
  | function _ _ =>
      cases hregular with
      | funcDef hbody => exact hbody
  | thenBody _ =>
      cases hregular with
      | conditional hbody => exact hbody
      | elseBlock hbody _ => exact hbody
      | elseIf hbody _ => exact hbody
  | elseBody _ _ =>
      cases hregular with
      | elseBlock _ hother => exact hother
  | whileBody _ =>
      cases hregular with
      | whileLoop hbody => exact hbody

theorem Enters.below (h : Enters c s opener stmts d) :
    ∃ Γ, d.scopes.below = some Γ ∧ (Γ = c.scopes ∨ Writes c.scopes s Γ) := by
  cases h with
  | @function _ name _ _ _ types result _ _ =>
      refine ⟨c.scopes.define name.value (.func types result), ?_, Or.inr .funcDef⟩
      rw [Scopes.below_defineAll, Scopes.below_enter]
  | thenBody _ => exact ⟨_, Scopes.below_enter _, Or.inl rfl⟩
  | elseBody _ _ => exact ⟨_, Scopes.below_enter _, Or.inl rfl⟩
  | whileBody _ => exact ⟨_, Scopes.below_enter _, Or.inl rfl⟩

theorem Breaks.standsOn (h : Breaks c s trail failing c') (hregular : s.Regular) :
    ∃ bottom, c'.scopes.StandsOn bottom trail.length ∧
      (bottom = c.scopes ∨ Writes c.scopes s bottom) := by
  induction h with
  | @itself c _ _ => exact ⟨c.scopes, Scopes.standsOn_refl _, Or.inl rfl⟩
  | elseIf _ _ _ ih =>
      cases hregular with
      | elseIf _ hnext =>
          rcases ih hnext with ⟨bottom, hstands, rfl | hwrites⟩
          · exact ⟨_, hstands, Or.inl rfl⟩
          · cases hwrites
            exact ⟨_, hstands, Or.inl rfl⟩
  | inside henters hbefore _ ih =>
      rcases ih (henters.regular hregular _ (by simp)) with ⟨bottom, hstands, hbottom⟩
      rcases henters.below with ⟨Γ, hbelow, hΓ⟩
      -- Neither the statements before nor the broken one touch the scope below that of the body.
      have hsame : bottom.below = some Γ := by
        rw [← hbelow, ← hbefore.below_eq]
        rcases hbottom with rfl | hwrites
        · rfl
        · exact hwrites.below_eq
      exact ⟨Γ, hstands.below hsame, hΓ⟩

theorem RunBreaks.standsOn (h : RunBreaks c stmts before trail failing c')
    (hregular : ∀ s ∈ stmts, s.Regular) :
    ∃ bottom done, c'.scopes.StandsOn bottom trail.length ∧ done <+: stmts ∧
      AllWrite c.scopes done bottom := by
  cases h with
  | @behind _ Δ stmt _ _ after _ hbefore hbreaks =>
      rcases List.forall_mem_append.mp hregular with ⟨hfront, hrest⟩
      have hwritten := hbefore.allWrite hfront
      rcases hbreaks.standsOn (hrest stmt List.mem_cons_self) with
        ⟨bottom, hstands, rfl | hwrites⟩
      · exact ⟨_, before, hstands, List.prefix_append before _, hwritten⟩
      · refine ⟨bottom, before ++ [stmt], hstands, ?_, hwritten.concat hwrites⟩
        exact ⟨after, by simp⟩

end Open
end Stmt

def Enclosure.returnType? (e : Enclosure) : Option (Option Token) :=
  match e.opener with
  | .braces => none
  | .function _ _ returnType => some returnType

theorem Stmt.Enters.returns_cases {c d : Checker} {s : Stmt} {opener : Opener} {stmts : List Stmt}
    (h : Enters c s opener stmts d) (before : List Stmt) :
    (Enclosure.mk opener before).returnType? = none ∧ d.returns = c.returns ∨
      ∃ declared result, (Enclosure.mk opener before).returnType? = some declared ∧
        Returns declared result ∧ d.returns = result :: c.returns := by
  cases h with
  | function _ hreturns => exact Or.inr ⟨_, _, rfl, hreturns, rfl⟩
  | thenBody _ => exact Or.inl ⟨rfl, rfl⟩
  | elseBody _ _ => exact Or.inl ⟨rfl, rfl⟩
  | whileBody _ => exact Or.inl ⟨rfl, rfl⟩

/-- The result types of the functions around the place come on top of those before. -/
theorem Stmt.Breaks.returns_eq {c c' : Checker} {s failing : Stmt} {trail : List Enclosure}
    (h : Breaks c s trail failing c') :
    ∃ results, c'.returns = results.reverse ++ c.returns ∧
      List.Forall₂ Returns (trail.filterMap Enclosure.returnType?) results := by
  induction h with
  | itself _ => exact ⟨[], rfl, .nil⟩
  | elseIf _ _ _ ih => exact ih
  | @inside _ _ _ _ _ _ _ _ before _ _ henters _ _ ih =>
      rcases ih with ⟨results, hreturns, hdeclared⟩
      rcases henters.returns_cases before with
        ⟨hnone, hsame⟩ | ⟨declared, result, hsome, hresult, hmore⟩
      · refine ⟨results, ?_, ?_⟩
        · rw [hreturns, hsame]
        · rw [List.filterMap_cons_none hnone]
          exact hdeclared
      · refine ⟨result :: results, ?_, ?_⟩
        · rw [hreturns, hmore, List.reverse_cons, List.append_assoc]
          rfl
        · rw [List.filterMap_cons_some hsome]
          exact .cons hresult hdeclared

theorem Stmt.RunBreaks.returns_eq {c c' : Checker} {stmts before : List Stmt} {failing : Stmt}
    {trail : List Enclosure} (h : RunBreaks c stmts before trail failing c') :
    ∃ results, c'.returns = results.reverse ++ c.returns ∧
      List.Forall₂ Returns (trail.filterMap Enclosure.returnType?) results := by
  cases h with
  | behind _ hbreaks => exact hbreaks.returns_eq

/-!
# Nodes

A check can be started at any node of a tree, from any scopes and inside any functions.
-/

inductive Node where
  | expr (e : Expr)
  | stmt (s : Stmt)
  | block (b : Block Stmt)
  | program (p : Program)

namespace Node

def check (root : Token) (depth : Nat) : Node → CheckM Unit
  | .expr e => do
      let _ ← typeOf root depth e
      return ()
  | .stmt s => s.check root depth
  | .block b => inScope (b.statements.forM (Stmt.check root depth))
  | .program p => p.statements.forM (Stmt.check root depth)

def Regular : Node → Prop
  | .expr _ => True
  | .stmt s => s.Regular
  | .block b => ∀ s ∈ b.statements, s.Regular
  | .program p => ∀ s ∈ p.statements, s.Regular

def directly : Node → List Stmt
  | .expr _ => []
  | .stmt s => [s]
  | .block _ => []
  | .program p => p.statements

def Quiet : Node → Prop
  | .expr _ => True
  | .stmt (.conditional _ _ _ _) => True
  | .stmt (.whileLoop _ _ _) => True
  | .stmt (.giveBack _ _) => True
  | .stmt (.expr _ _) => True
  | .block _ => True
  | _ => False

/-- What may become of the scopes `Γ` while the node is checked: `Δ` is all that is left of them. -/
structure Keeps (node : Node) (Γ Δ : Scopes) : Prop where
  depth : Δ.depth = Γ.depth
  below : Δ.stack.tail = Γ.stack.tail
  names : Γ.innermost.names <+: Δ.innermost.names
  written : ∃ done, done <+: node.directly ∧ Stmt.AllWrite Γ done Δ
  quiet : node.Quiet → Δ = Γ
  assigned : ∀ t name value, node = .stmt (.assign t name value) → Γ.Retains Δ

inductive Breaks (c : Checker) : Node → List Enclosure → Node → Checker → Prop where
  | expr {e : Expr} :
      (∀ type, ¬ HasType c.scopes e type) →
      Breaks c (.expr e) [] (.expr e) c
  | stmt {c' : Checker} {s failing : Stmt} {trail : List Enclosure} :
      s.Breaks c trail failing c' →
      Breaks c (.stmt s) trail (.stmt failing) c'
  | block {c' : Checker} {b : Block Stmt} {before : List Stmt} {failing : Stmt}
      {trail : List Enclosure} :
      Stmt.RunBreaks ⟨c.scopes.enter, c.returns⟩ b.statements before trail failing c' →
      Breaks c (.block b) (⟨.braces, before⟩ :: trail) (.stmt failing) c'
  | program {c' : Checker} {p : Program} {before : List Stmt} {failing : Stmt}
      {trail : List Enclosure} :
      Stmt.RunBreaks c p.statements before trail failing c' →
      Breaks c (.program p) trail (.stmt failing) c'

variable {root : Token} {depth : Nat} {node failing failing' : Node} {c c' c'' : Checker}
  {Γ Δ : Scopes} {error : TypeError} {trail trail' : List Enclosure}

theorem Breaks.unique (h : node.Breaks c trail failing c')
    (h' : node.Breaks c trail' failing' c'') :
    trail' = trail ∧ failing' = failing ∧ c'' = c' := by
  cases h with
  | expr _ =>
      cases h' with
      | expr _ => exact ⟨rfl, rfl, rfl⟩
  | stmt hbreaks =>
      cases h' with
      | stmt hbreaks' =>
          rcases hbreaks.unique hbreaks' with ⟨rfl, rfl, rfl⟩
          exact ⟨rfl, rfl, rfl⟩
  | block hrun =>
      cases h' with
      | block hrun' =>
          rcases hrun.unique hrun' with ⟨rfl, rfl, rfl, rfl⟩
          exact ⟨rfl, rfl, rfl⟩
  | program hrun =>
      cases h' with
      | program hrun' =>
          rcases hrun.unique hrun' with ⟨_, rfl, rfl, rfl⟩
          exact ⟨rfl, rfl, rfl⟩

/-!
# Nodes and the scopes around them
-/

theorem eq_of_quiet {s : Stmt} (h : s.Writes Γ Δ) (hquiet : (stmt s).Quiet) : Δ = Γ := by
  cases h with
  | letBinding => exact hquiet.elim
  | funcDef => exact hquiet.elim
  | firstAssign _ => exact hquiet.elim
  | assign _ => rfl
  | conditional => rfl
  | whileLoop => rfl
  | giveBack => rfl
  | expr => rfl

theorem retains_of_assign {t name : Token} {value : Expr}
    (h : (Stmt.assign t name value).Writes Γ Δ) : Γ.Retains Δ := by
  cases h with
  | firstAssign hunbound => exact Scopes.retains_define hunbound _
  | assign _ => exact Γ.retains_refl

theorem keeps_of_allWrite {done : List Stmt} (hdone : done <+: node.directly)
    (h : Stmt.AllWrite Γ done Δ) : node.Keeps Γ Δ where
  depth := by
    rw [Scopes.depth_eq, Scopes.depth_eq, Δ.stack_eq, Γ.stack_eq, h.tail_eq]
    rfl
  below := h.tail_eq
  names := h.names_prefix
  written := ⟨done, hdone, h⟩
  quiet := by
    intro hquiet
    cases node with
    | expr e =>
        cases List.prefix_nil.mp hdone
        cases h
        rfl
    | stmt s =>
        rcases h.of_prefix hdone with rfl | hwrites
        · rfl
        · exact eq_of_quiet hwrites hquiet
    | block b =>
        cases List.prefix_nil.mp hdone
        cases h
        rfl
    | program p => exact hquiet.elim
  assigned := by
    intro t name value hnode
    subst hnode
    rcases h.of_prefix hdone with rfl | hwrites
    · exact Δ.retains_refl
    · exact retains_of_assign hwrites

theorem allWrite_of_gives (hregular : node.Regular) (h : Gives (node.check root depth) c () c') :
    c'.returns = c.returns ∧ Stmt.AllWrite c.scopes node.directly c'.scopes := by
  rcases c with ⟨Γ, returns⟩
  cases node with
  | expr e =>
      rcases gives_typeOf_bind_iff.mp h with ⟨type, _, hpure⟩
      cases (gives_pure_iff.mp hpure).2
      exact ⟨rfl, .nil⟩
  | stmt s =>
      rcases Stmt.typed_of_check h with ⟨_, Δ, htyped, rfl⟩
      exact ⟨rfl, .cons (htyped.writes hregular) .nil⟩
  | block b =>
      rcases Stmt.allTyped_of_block Stmt.typed_of_check h with ⟨_, _, rfl⟩
      exact ⟨rfl, .nil⟩
  | program p =>
      rcases Stmt.allTyped_of_forM Stmt.typed_of_check h with ⟨_, Δ, hall, rfl⟩
      exact ⟨rfl, hall.allWrite hregular⟩

theorem breaks_of_raises (hcause : error.cause ≠ .nestingTooDeep)
    (h : Raises (node.check root depth) c error c') :
    ∃ trail failing, node.Breaks c trail failing c' ∧
      ∃ depth', Raises (failing.check root depth') c' error c' := by
  cases node with
  | expr e =>
      rcases raises_typeOf_bind hcause h with ⟨hnone, rfl⟩ | ⟨type, _, hpure⟩
      · exact ⟨[], .expr e, .expr hnone, depth, h⟩
      · exact absurd hpure not_raises_pure
  | stmt s =>
      rcases Stmt.breaks_of_check hcause h with ⟨trail, failing, hbreaks, hfails⟩
      exact ⟨trail, .stmt failing, .stmt hbreaks, hfails⟩
  | block b =>
      rcases Stmt.runBreaks_of_forM (Stmt.breaks_of_check hcause) (raises_inScope h) with
        ⟨before, trail, failing, hrun, hfails⟩
      exact ⟨⟨.braces, before⟩ :: trail, .stmt failing, .block hrun, hfails⟩
  | program p =>
      rcases Stmt.runBreaks_of_forM (Stmt.breaks_of_check hcause) h with
        ⟨before, trail, failing, hrun, hfails⟩
      exact ⟨trail, .stmt failing, .program hrun, hfails⟩

theorem Breaks.standsOn (hregular : node.Regular) (h : node.Breaks c trail failing c') :
    ∃ bottom, c'.scopes.StandsOn bottom trail.length ∧ node.Keeps c.scopes bottom := by
  cases h with
  | expr _ =>
      exact ⟨c.scopes, Scopes.standsOn_refl _, keeps_of_allWrite List.nil_prefix .nil⟩
  | stmt hbreaks =>
      rcases hbreaks.standsOn hregular with ⟨bottom, hstands, rfl | hwrites⟩
      · exact ⟨_, hstands, keeps_of_allWrite List.nil_prefix .nil⟩
      · exact ⟨bottom, hstands, keeps_of_allWrite (List.prefix_refl _) (.cons hwrites .nil)⟩
  | block hrun =>
      rcases hrun.standsOn hregular with ⟨bottom, done, hstands, _, hwritten⟩
      have hbelow : bottom.below = some c.scopes := by
        rw [hwritten.below_eq, Scopes.below_enter]
      exact ⟨c.scopes, hstands.below hbelow, keeps_of_allWrite List.nil_prefix .nil⟩
  | program hrun =>
      rcases hrun.standsOn hregular with ⟨bottom, done, hstands, hdone, hwritten⟩
      exact ⟨bottom, hstands, keeps_of_allWrite hdone hwritten⟩

theorem Breaks.returns_eq (h : node.Breaks c trail failing c') :
    ∃ results, c'.returns = results.reverse ++ c.returns ∧
      List.Forall₂ Returns (trail.filterMap Enclosure.returnType?) results := by
  cases h with
  | expr _ => exact ⟨[], rfl, .nil⟩
  | stmt hbreaks => exact hbreaks.returns_eq
  | block hrun => exact hrun.returns_eq
  | program hrun => exact hrun.returns_eq

/--
A check that succeeds leaves the open functions and the depth as they were, and changes the
innermost scope at most: no name is removed from it or moved, and only definitions and first
assignments that stand directly at its level write to it.  A check that fails breaks at
one node, which the rules tell.  The scopes from before are still at the bottom under the same
rule; on top of them exactly one scope is open for each body around the failing node, and
the result types of the functions around it have been added to those from before.
-/
theorem check_keeps_scopes (root : Token) (depth : Nat) (node : Node) (hregular : node.Regular)
    (c c' : Checker) :
    (Gives (node.check root depth) c () c' →
      c'.returns = c.returns ∧ node.Keeps c.scopes c'.scopes ∧
        Stmt.AllWrite c.scopes node.directly c'.scopes) ∧
      ∀ error, Raises (node.check root depth) c error c' → error.cause ≠ .nestingTooDeep →
        ∃ trail failing, node.Breaks c trail failing c' ∧
          (∃ depth', Raises (failing.check root depth') c' error c') ∧
          (∀ trail' failing' c'', node.Breaks c trail' failing' c'' →
            trail' = trail ∧ failing' = failing ∧ c'' = c') ∧
          (∃ bottom opened, c'.scopes.stack = opened ++ bottom.stack ∧
            opened.length = trail.length ∧ node.Keeps c.scopes bottom) ∧
          ∃ results, c'.returns = results.reverse ++ c.returns ∧
            List.Forall₂ Returns (trail.filterMap Enclosure.returnType?) results := by
  constructor
  · intro h
    rcases allWrite_of_gives hregular h with ⟨hreturns, hwritten⟩
    exact ⟨hreturns, keeps_of_allWrite (List.prefix_refl _) hwritten, hwritten⟩
  · intro error h hcause
    rcases breaks_of_raises hcause h with ⟨trail, failing, hbreaks, hraises⟩
    refine ⟨trail, failing, hbreaks, hraises, ?_, ?_, hbreaks.returns_eq⟩
    · intro trail' failing' c'' hbreaks'
      exact hbreaks.unique hbreaks'
    · rcases hbreaks.standsOn hregular with ⟨bottom, ⟨opened, hstack, hlength⟩, hkeeps⟩
      exact ⟨bottom, opened, hstack, hlength, hkeeps⟩

def wrongResult : Stmt :=
  .funcDef ⟨.keyword, "func", 1, 1⟩ ⟨.ident, "f", 1, 6⟩
    [⟨⟨.ident, "a", 1, 8⟩, ⟨.ident, "int", 1, 11⟩⟩] (some ⟨.ident, "str", 1, 19⟩)
    ⟨⟨.op, "\x7b", 1, 23⟩,
      [.whileLoop ⟨.keyword, "while", 1, 25⟩ (.boolLit ⟨.keyword, "true", 1, 31⟩ true)
        ⟨⟨.op, "\x7b", 1, 36⟩,
          [.assign ⟨.op, "=", 1, 40⟩ ⟨.ident, "b", 1, 38⟩ (.name ⟨.ident, "a", 1, 42⟩),
            .giveBack ⟨.keyword, "return", 1, 45⟩ (some (.name ⟨.ident, "b", 1, 52⟩))]⟩]⟩

theorem check_keeps_scopes_wrongResult :
    (stmt wrongResult).Regular ∧
      ∃ c', Raises ((stmt wrongResult).check ⟨.keyword, "func", 1, 1⟩ 500) ⟨.initial, []⟩
          ⟨⟨.ident, "b", 1, 52⟩, .mismatch .str .int⟩ c' ∧
        c'.scopes.locals = [[("b", .int)], [("a", .int)]] ∧ c'.returns = [.str] ∧
        ∃ trail failing, (stmt wrongResult).Breaks ⟨.initial, []⟩ trail failing c' ∧
          ∃ bottom opened, c'.scopes.stack = opened ++ bottom.stack ∧
            opened.length = trail.length ∧ (stmt wrongResult).Keeps .initial bottom := by
  have hregular : (stmt wrongResult).Regular := by
    refine .funcDef (List.forall_mem_singleton.mpr (.whileLoop ?_))
    exact List.forall_mem_cons.mpr ⟨.assign, List.forall_mem_singleton.mpr .giveBack⟩
  have hraises : Raises ((stmt wrongResult).check ⟨.keyword, "func", 1, 1⟩ 500) ⟨.initial, []⟩
      ⟨⟨.ident, "b", 1, 52⟩, .mismatch .str .int⟩
      ⟨⟨(Scopes.initial.define "f" (.func [.int] .str)).globals,
        [[("b", .int)], [("a", .int)]]⟩, [.str]⟩ := rfl
  rcases (check_keeps_scopes _ 500 _ hregular _ _).2 _ hraises (by simp) with
    ⟨trail, failing, hbreaks, _, _, hbottom, _⟩
  exact ⟨hregular, _, hraises, rfl, rfl, trail, failing, hbreaks, hbottom⟩

end Node
end TypedAnt
