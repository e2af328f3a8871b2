import TypedAnt.Proofs.Scopes

/-!
# Checks see visible bindings only

A check may start with any number of open scopes, for instance those that a failed check has left
open.  How they are divided makes no difference to it: when the visible bindings are put into one
scope, the check comes to the same end, and then the same bindings are visible again.
-/

namespace TypedAnt

/-!
# Scopes that show the same bindings
-/

namespace Scopes

variable {s t : Scopes} {count : Nat}

def flattened (s : Scopes) : Scopes :=
  { globals := s.visible }

theorem stack_ne_nil (s : Scopes) : s.stack ≠ [] := by
  simp [stack]

/--
The `count` innermost scopes of both are the same, and the scopes below show the same bindings
in the same order.
-/
structure Matches (count : Nat) (s t : Scopes) : Prop where
  proper : s.Proper
  proper' : t.Proper
  layers : ∃ opened below below', opened.length = count ∧ below ≠ [] ∧ below' ≠ [] ∧
    s.stack = opened ++ below ∧ t.stack = opened ++ below' ∧ merged below' = merged below

theorem merged_append {opened below below' : List (Fields Ty)} (h : merged below' = merged below) :
    merged (opened ++ below') = merged (opened ++ below) := by
  induction opened with
  | nil => exact h
  | cons inner opened ih =>
      rw [List.cons_append, List.cons_append, merged_cons, merged_cons, ih]

theorem Matches.visible_eq (h : s.Matches count t) : t.visible = s.visible := by
  rcases h.layers with ⟨opened, below, below', _, _, _, hs, ht, hmerged⟩
  rw [visible_eq_merged, visible_eq_merged, hs, ht, merged_append hmerged]

theorem Matches.lookup_eq (h : s.Matches count t) (name : String) :
    t.lookup name = s.lookup name := by
  rw [Scopes.lookup_eq h.proper, Scopes.lookup_eq h.proper', h.visible_eq]

theorem Matches.define (h : s.Matches count t) (name : String) (type : Ty) :
    (s.define name type).Matches count (t.define name type) := by
  refine ⟨h.proper.define name type, h.proper'.define name type, ?_⟩
  rcases h.layers with ⟨opened, below, below', hcount, hbelow, hbelow', hs, ht, hmerged⟩
  cases opened with
  | cons inner opened =>
      refine ⟨inner.set name type :: opened, below, below', hcount, hbelow, hbelow', ?_, ?_,
        hmerged⟩
      · exact stack_define_of hs name type
      · exact stack_define_of ht name type
  | nil =>
      rcases List.exists_cons_of_ne_nil hbelow with ⟨inner, rest, rfl⟩
      rcases List.exists_cons_of_ne_nil hbelow' with ⟨inner', rest', rfl⟩
      have hinner : inner.names.Nodup := h.proper inner (by rw [hs]; exact List.mem_cons_self)
      have hinner' : inner'.names.Nodup := h.proper' inner' (by rw [ht]; exact List.mem_cons_self)
      refine ⟨[], inner.set name type :: rest, inner'.set name type :: rest', hcount, by simp,
        by simp, stack_define_of hs name type, stack_define_of ht name type, ?_⟩
      rw [merged_cons, merged_cons] at hmerged ⊢
      rw [Fields.setAll_set _ hinner, Fields.setAll_set _ hinner', hmerged]

theorem Matches.enter (h : s.Matches count t) : s.enter.Matches (count + 1) t.enter := by
  refine ⟨h.proper.enter List.nodup_nil, h.proper'.enter List.nodup_nil, ?_⟩
  rcases h.layers with ⟨opened, below, below', hcount, hbelow, hbelow', hs, ht, hmerged⟩
  exact ⟨[] :: opened, below, below', congrArg Nat.succ hcount, hbelow, hbelow',
    congrArg ([] :: ·) hs, congrArg ([] :: ·) ht, hmerged⟩

theorem Matches.exit (h : s.Matches (count + 1) t) : s.exit.Matches count t.exit := by
  refine ⟨h.proper.exit, h.proper'.exit, ?_⟩
  rcases h.layers with ⟨opened, below, below', hcount, hbelow, hbelow', hs, ht, hmerged⟩
  cases opened with
  | nil => cases hcount
  | cons inner opened =>
      refine ⟨opened, below, below', Nat.succ.inj hcount, hbelow, hbelow', ?_, ?_, hmerged⟩
      · exact stack_exit_of hs (List.append_ne_nil_of_right_ne_nil _ hbelow)
      · exact stack_exit_of ht (List.append_ne_nil_of_right_ne_nil _ hbelow')

theorem visible_flattened (s : Scopes) : s.flattened.visible = s.visible := by
  have hnames : (Fields.names ([] : Fields Ty) ++ s.visible.names).Nodup := nodup_visible s
  exact Fields.setAll_of_nodup hnames

theorem matches_flattened (h : s.Proper) : s.Matches 0 s.flattened := by
  refine ⟨h, List.forall_mem_singleton.mpr (nodup_visible s), ?_⟩
  refine ⟨[], s.stack, s.flattened.stack, rfl, s.stack_ne_nil, stack_ne_nil _, rfl, rfl, ?_⟩
  rw [← visible_eq_merged, ← visible_eq_merged, visible_flattened]

end Scopes

/-!
# Expressions
-/

theorem Expr.infer_congr {s t : Scopes} (h : ∀ name, t.lookup name = s.lookup name) (root : Token)
    (depth : Nat) (e : Expr) : e.infer root t depth = e.infer root s depth := by
  induction depth generalizing e with
  | zero => rfl
  | succ depth ih =>
      cases e with
      | intLit _ _ => rfl
      | floatLit _ _ => rfl
      | stringLit _ _ => rfl
      | boolLit _ _ => rfl
      | name token => rw [infer, infer, h]
      | unary token op operand => rw [infer, infer, ih]
      | binary token op left right => rw [infer, infer, ih, ih]
      | call token callee args => rw [infer, infer, ih, funext ih]

/-!
# Statements
-/

structure Checker.Matches (count : Nat) (c d : Checker) : Prop where
  returns : d.returns = c.returns
  scopes : c.scopes.Matches count d.scopes

namespace CheckM

variable {α β : Type} {count before after : Nat} {root : Token}

/-- Two runs end alike: with the same value and checkers that match, or with the same error. -/
inductive EndAlike (count : Nat) :
    Except TypeError α × Checker → Except TypeError α × Checker → Prop where
  | ok {a : α} {c d : Checker} : c.Matches count d → EndAlike count (.ok a, c) (.ok a, d)
  | error {e : TypeError} {c d : Checker} {opened : Nat} :
      c.Matches opened d → EndAlike count (.error e, c) (.error e, d)

/--
Checkers that match with `before` scopes opened are led to the same end by the check, and to
`after` scopes opened if it succeeds.
-/
def RunsAlike (before after : Nat) (x : CheckM α) : Prop :=
  ∀ c d, c.Matches before d → EndAlike after (x.run.run c) (x.run.run d)

namespace RunsAlike

theorem pure (a : α) : RunsAlike count count (pure a : CheckM α) := by
  intro c d h
  exact .ok h

theorem throw (e : TypeError) : RunsAlike before after (throw e : CheckM α) := by
  intro c d h
  exact .error h

theorem attempt (x : Except TypeError α) : RunsAlike count count (attempt x) := by
  intro c d h
  cases x with
  | ok a => exact .ok h
  | error e => exact .error h

theorem bind {x : CheckM α} {f : α → CheckM β} (hx : RunsAlike before count x)
    (hf : ∀ a, RunsAlike count after (f a)) : RunsAlike before after (x >>= f) := by
  intro c d h
  have hfirst := hx c d h
  simp only [ExceptT.run_bind, StateT.run_bind]
  generalize x.run.run c = left at hfirst ⊢
  generalize x.run.run d = right at hfirst ⊢
  cases hfirst with
  | ok hnext => exact hf _ _ _ hnext
  | error hnext => exact .error hnext

theorem get_bind {f : Checker → CheckM β} (hsame : ∀ c d, c.Matches before d → f d = f c)
    (hf : ∀ c, RunsAlike before after (f c)) : RunsAlike before after (get >>= f) := by
  intro c d h
  have hrun : EndAlike after ((f c).run.run c) ((f c).run.run d) := hf c c d h
  have hlook : (get >>= f).run.run d = (f c).run.run d := by
    rw [← hsame c d h]
    rfl
  rw [hlook]
  exact hrun

theorem forM {f : α → CheckM PUnit} (hf : ∀ x, RunsAlike count count (f x)) (xs : List α) :
    RunsAlike count count (xs.forM f) := by
  induction xs with
  | nil => exact .pure _
  | cons x xs ih => exact (hf x).bind fun _ => ih

theorem changeScopes {f : Scopes → Scopes}
    (hf : ∀ {s t : Scopes}, s.Matches before t → (f s).Matches after (f t)) :
    RunsAlike before after (changeScopes f) := by
  intro c d h
  exact .ok ⟨h.returns, hf h.scopes⟩

theorem define (name : Token) (type : Ty) : RunsAlike count count (define name type) :=
  changeScopes fun h => h.define name.value type

theorem inScope {body : CheckM Unit} (h : RunsAlike (count + 1) (count + 1) body) :
    RunsAlike count count (inScope body) := by
  apply (changeScopes Scopes.Matches.enter).bind
  intro _
  apply h.bind
  intro _
  exact changeScopes Scopes.Matches.exit

theorem changeReturns (f : List Ty → List Ty) :
    RunsAlike count count (modify fun c => { c with returns := f c.returns } : CheckM PUnit) := by
  intro c d h
  exact .ok ⟨congrArg f h.returns, h.scopes⟩

theorem inFunction {body : CheckM Unit} (result : Ty) (h : RunsAlike count count body) :
    RunsAlike count count (inFunction result body) := by
  apply (changeReturns (result :: ·)).bind
  intro _
  apply h.bind
  intro _
  exact changeReturns List.tail

theorem typeOf (depth : Nat) (e : Expr) : RunsAlike count count (typeOf root depth e) := by
  apply get_bind
  · intro c d h
    rw [e.infer_congr h.scopes.lookup_eq root depth]
  · intro c
    exact .attempt _

theorem condition {body : CheckM Unit} (depth : Nat) (e : Expr) (h : RunsAlike count count body) :
    RunsAlike count count (do
      let type ← CheckM.typeOf root depth e
      CheckM.attempt (Typing.expect e.token .bool type)
      body) := by
  apply (typeOf depth e).bind
  intro type
  apply (attempt _).bind
  intro _
  exact h

end RunsAlike
end CheckM

open CheckM

theorem Stmt.check_runsAlike (root : Token) (depth : Nat) (s : Stmt) (count : Nat) :
    RunsAlike count count (s.check root depth) := by
  induction depth generalizing s count with
  | zero => exact .throw _
  | succ depth ih =>
      have hstmts : ∀ (count : Nat) (stmts : List Stmt),
          RunsAlike count count (stmts.forM (check root depth)) :=
        fun count => .forM fun stmt => ih stmt count
      cases s with
      | letBinding t name declared value =>
          apply (RunsAlike.typeOf depth value).bind
          intro actual
          cases declared with
          | none => exact .define name actual
          | some token =>
              apply (RunsAlike.attempt _).bind
              intro type
              apply (RunsAlike.attempt _).bind
              intro _
              exact .define name type
      | assign t name value =>
          apply (RunsAlike.typeOf depth value).bind
          intro actual
          apply RunsAlike.get_bind
          · intro c d h
            rw [h.scopes.lookup_eq]
          · intro c
            split
            · exact .define name actual
            · split
              · exact .pure ()
              · exact .throw _
      | funcDef t name params returnType body =>
          apply (RunsAlike.attempt _).bind
          intro types
          apply (RunsAlike.attempt _).bind
          intro result
          apply (RunsAlike.define name _).bind
          intro _
          apply RunsAlike.inScope
          apply RunsAlike.bind
          · apply RunsAlike.forM
            intro binding
            exact .define binding.1.name binding.2
          intro _
          exact .inFunction result (hstmts _ body.statements)
      | conditional t condition body otherwise =>
          apply RunsAlike.condition depth condition
          apply (RunsAlike.inScope (hstmts _ body.statements)).bind
          intro _
          match otherwise with
          | none => exact .pure ()
          | some (.block other) => exact .inScope (hstmts _ other.statements)
          | some (.conditional stmt) => exact ih stmt count
      | whileLoop t condition body =>
          apply RunsAlike.condition depth condition
          exact .inScope (hstmts _ body.statements)
      | giveBack t value =>
          apply RunsAlike.get_bind
          · intro c d h
            rw [h.returns]
          · intro c
            split
            · exact .throw _
            · cases value with
              | none => exact .attempt _
              | some e =>
                  apply (RunsAlike.typeOf depth e).bind
                  intro type
                  exact .attempt _
      | expr t value =>
          apply (RunsAlike.typeOf depth value).bind
          intro _
          exact .pure ()

namespace Program

/--
A check outside of any function that starts from any open scopes, and one that starts from the
bindings that are visible in them in a single scope, come to the same end: both succeed, or both
fail with the same error at the same token.  Afterwards the same bindings are visible, in
the same order.
-/
theorem check_sees_visible_bindings (p : Program) (limit : Nat) (Γ : Scopes)
    (hproper : Γ.Proper) :
    (p.check limit ⟨Γ.flattened, []⟩).1 = (p.check limit ⟨Γ, []⟩).1 ∧
      (p.check limit ⟨Γ.flattened, []⟩).2.scopes.visible =
        (p.check limit ⟨Γ, []⟩).2.scopes.visible := by
  have hstart : Checker.Matches 0 ⟨Γ, []⟩ ⟨Γ.flattened, []⟩ :=
    ⟨rfl, Scopes.matches_flattened hproper⟩
  have hrun : RunsAlike 0 0 (p.statements.forM (Stmt.check p.token limit)) :=
    .forM (fun stmt => stmt.check_runsAlike p.token limit 0) p.statements
  have hends : EndAlike 0 (p.check limit ⟨Γ, []⟩) (p.check limit ⟨Γ.flattened, []⟩) :=
    hrun _ _ hstart
  generalize p.check limit ⟨Γ, []⟩ = left at hends ⊢
  generalize p.check limit ⟨Γ.flattened, []⟩ = right at hends ⊢
  cases hends with
  | ok h => exact ⟨rfl, h.scopes.visible_eq⟩
  | error h => exact ⟨rfl, h.scopes.visible_eq⟩

def leftOpen : Scopes :=
  ⟨[("a", .int), ("b", .str)], [[], [("c", .bool), ("a", .float)]]⟩

def rebinding : Program :=
  ⟨⟨.keyword, "let", 1, 1⟩,
    [.letBinding ⟨.keyword, "let", 1, 1⟩ ⟨.ident, "b", 1, 5⟩ none (.intLit ⟨.int, "1", 1, 9⟩ 1),
      .assign ⟨.op, "=", 1, 14⟩ ⟨.ident, "d", 1, 12⟩ (.name ⟨.ident, "a", 1, 16⟩),
      .assign ⟨.op, "=", 1, 21⟩ ⟨.ident, "c", 1, 19⟩ (.intLit ⟨.int, "1", 1, 23⟩ 1)]⟩

theorem check_sees_visible_bindings_leftOpen :
    leftOpen.Proper ∧
      leftOpen.flattened.globals = [("a", .float), ("b", .str), ("c", .bool)] ∧
      (rebinding.check 500 ⟨leftOpen.flattened, []⟩).1 =
        .error ⟨⟨.ident, "c", 1, 19⟩, .unassignable "c" .int .bool⟩ ∧
      (rebinding.check 500 ⟨leftOpen, []⟩).2.scopes.locals =
        [[("b", .int), ("d", .float)], [("c", .bool), ("a", .float)]] ∧
      (rebinding.check 500 ⟨leftOpen.flattened, []⟩).2.scopes.visible =
        [("a", .float), ("b", .int), ("c", .bool), ("d", .float)] := by
  have hproper : leftOpen.Proper := by
    unfold Scopes.Proper Scopes.All
    decide
  rcases check_sees_visible_bindings rebinding 500 leftOpen hproper with ⟨houtcome, hvisible⟩
  rw [houtcome, hvisible]
  exact ⟨hproper, rfl, rfl, rfl, rfl⟩

end Program
end TypedAnt
