import TypedAnt.Proofs.Typing.Inference

/-!
# Running a check

When the steps that checks are built from succeed, and how they leave the checker then.
-/

namespace TypedAnt

open Typing

namespace CheckM

variable {α β : Type} {root : Token} {depth : Nat} {c c' : Checker}

/-- The check succeeds from `c` with the value `a`, and ends in `c'`. -/
def Gives (x : CheckM α) (c : Checker) (a : α) (c' : Checker) : Prop :=
  x.run.run c = (.ok a, c')

theorem gives_pure_iff {a b : α} : Gives (pure a) c b c' ↔ b = a ∧ c' = c := by
  constructor
  · intro h
    cases h
    exact ⟨rfl, rfl⟩
  · intro h
    rcases h with ⟨rfl, rfl⟩
    rfl

theorem not_gives_throw {e : TypeError} {a : α} : ¬ Gives (throw e) c a c' := by
  intro h
  cases h

theorem gives_attempt_iff {x : Except TypeError α} {a : α} :
    Gives (attempt x) c a c' ↔ x = .ok a ∧ c' = c := by
  constructor
  · intro h
    cases h
    exact ⟨rfl, rfl⟩
  · intro h
    rcases h with ⟨rfl, rfl⟩
    rfl

theorem gives_modify_iff {f : Checker → Checker} {v : PUnit} :
    Gives (modify f) c v c' ↔ c' = f c := by
  constructor
  · intro h
    cases h
    rfl
  · intro h
    cases h
    rfl

theorem gives_define_iff {name : Token} {type : Ty} {u : Unit} :
    Gives (define name type) c u c' ↔
      c' = { c with scopes := c.scopes.define name.value type } :=
  gives_modify_iff

theorem gives_bind_iff {x : CheckM α} {f : α → CheckM β} {b : β} :
    Gives (x >>= f) c b c' ↔ ∃ a d, Gives x c a d ∧ Gives (f a) d b c' := by
  unfold Gives
  rw [ExceptT.run_bind, StateT.run_bind]
  cases hrun : x.run.run c with
  | mk outcome d =>
      cases outcome with
      | error e =>
          constructor
          · intro h
            cases h
          · intro h
            rcases h with ⟨a, d', hx, _⟩
            cases hx
      | ok a =>
          constructor
          · intro h
            exact ⟨a, d, rfl, h⟩
          · intro h
            rcases h with ⟨a', d', hx, hf⟩
            cases hx
            exact hf

/-!
A step that only looks at the checker passes it on as it is.
-/

theorem gives_attempt_bind_iff {x : Except TypeError α} {f : α → CheckM β} {b : β} :
    Gives (attempt x >>= f) c b c' ↔ ∃ a, x = .ok a ∧ Gives (f a) c b c' := by
  rw [gives_bind_iff]
  constructor
  · intro h
    rcases h with ⟨a, d, hattempt, hf⟩
    rcases gives_attempt_iff.mp hattempt with ⟨hx, rfl⟩
    exact ⟨a, hx, hf⟩
  · intro h
    rcases h with ⟨a, hx, hf⟩
    exact ⟨a, c, gives_attempt_iff.mpr ⟨hx, rfl⟩, hf⟩

theorem gives_get_bind_iff {f : Checker → CheckM β} {b : β} :
    Gives (get >>= f) c b c' ↔ Gives (f c) c b c' :=
  Iff.rfl

theorem gives_typeOf_bind_iff {e : Expr} {f : Ty → CheckM β} {b : β} :
    Gives (typeOf root depth e >>= f) c b c' ↔
      ∃ type, (e.height ≤ depth ∧ HasType c.scopes e type) ∧ Gives (f type) c b c' := by
  have hlook : Gives (typeOf root depth e >>= f) c b c' ↔
      Gives (attempt (e.infer root c.scopes depth) >>= f) c b c' := Iff.rfl
  rw [hlook, gives_attempt_bind_iff]
  simp only [Expr.infer_eq_ok_iff]

theorem gives_condition_iff {e : Expr} {rest : CheckM Unit} :
    Gives (do
      let type ← typeOf root depth e
      attempt (expect e.token .bool type)
      rest) c () c' ↔
    (e.height ≤ depth ∧ Condition c.scopes e) ∧ Gives rest c () c' := by
  rw [gives_typeOf_bind_iff]
  constructor
  · intro h
    rcases h with ⟨type, ⟨hheight, htype⟩, hexpect⟩
    rcases gives_attempt_bind_iff.mp hexpect with ⟨_, haccepts, hrest⟩
    exact ⟨⟨hheight, type, htype, expect_eq_ok_iff.mp haccepts⟩, hrest⟩
  · intro h
    rcases h with ⟨⟨hheight, type, htype, haccepts⟩, hrest⟩
    exact ⟨type, ⟨hheight, htype⟩,
      gives_attempt_bind_iff.mpr ⟨(), expect_eq_ok_iff.mpr haccepts, hrest⟩⟩

/-!
Scopes and functions are opened before their bodies and closed after them.
-/

theorem gives_around_iff {before after : Checker → Checker} {body : CheckM Unit} :
    Gives (do modify before; body; modify after) c () c' ↔
      ∃ d, Gives body (before c) () d ∧ c' = after d := by
  rw [gives_bind_iff]
  constructor
  · intro h
    rcases h with ⟨_, d, hbefore, hrest⟩
    rcases gives_bind_iff.mp hrest with ⟨_, d', hbody, hafter⟩
    cases gives_modify_iff.mp hbefore
    exact ⟨d', hbody, gives_modify_iff.mp hafter⟩
  · intro h
    rcases h with ⟨d, hbody, rfl⟩
    exact ⟨(), before c, gives_modify_iff.mpr rfl,
      gives_bind_iff.mpr ⟨(), d, hbody, gives_modify_iff.mpr rfl⟩⟩

theorem gives_inScope_iff {body : CheckM Unit} :
    Gives (inScope body) c () c' ↔
      ∃ d, Gives body { c with scopes := c.scopes.enter } () d ∧
        c' = { d with scopes := d.scopes.exit } :=
  gives_around_iff

theorem gives_inFunction_iff {result : Ty} {body : CheckM Unit} :
    Gives (inFunction result body) c () c' ↔
      ∃ d, Gives body { c with returns := result :: c.returns } () d ∧
        c' = { d with returns := d.returns.tail } :=
  gives_around_iff

theorem gives_forM_cons_iff {f : α → CheckM PUnit} {x : α} {xs : List α} {v : PUnit} :
    Gives ((x :: xs).forM f) c v c' ↔ ∃ d, Gives (f x) c v d ∧ Gives (xs.forM f) d v c' := by
  refine gives_bind_iff.trans ?_
  constructor
  · intro h
    rcases h with ⟨_, d, hx, hxs⟩
    exact ⟨d, hx, hxs⟩
  · intro h
    rcases h with ⟨d, hx, hxs⟩
    exact ⟨v, d, hx, hxs⟩

theorem gives_defineAll_iff {bindings : List (Param × Ty)} {v : PUnit} :
    Gives (bindings.forM fun (p, type) => define p.name type) c v c' ↔
      c' = { c with scopes := c.scopes.defineAll bindings } := by
  induction bindings generalizing c with
  | nil =>
      refine gives_pure_iff.trans ?_
      constructor
      · intro h
        exact h.2
      · intro h
        exact ⟨rfl, h⟩
  | cons binding rest ih =>
      rw [gives_forM_cons_iff]
      constructor
      · intro h
        rcases h with ⟨d, hdefine, hrest⟩
        cases gives_define_iff.mp hdefine
        exact ih.mp hrest
      · intro h
        exact ⟨_, gives_define_iff.mpr rfl, ih.mpr h⟩

end CheckM

end TypedAnt
