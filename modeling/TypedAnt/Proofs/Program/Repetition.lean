import TypedAnt.Proofs.Program.Reading

/-!
# Rounds of repetition

The number of rounds of a repetition does not matter once it covers the tokens that are
left, because every round takes a token.  So each repetition satisfies the equation
that one would write without counting rounds.
-/

namespace TypedAnt
namespace Parser

variable {α β : Type}

theorem bind_congr_run {p : Parse α} {f g : α → Parse β} {s : List Token}
    (h : ∀ x rest, p s = .ok (x, rest) → f x rest = g x rest) : (p >>= f) s = (p >>= g) s := by
  cases hp : p s with
  | error stop => rw [bind_of_error hp, bind_of_error hp]
  | ok result =>
      rcases result with ⟨x, rest⟩
      rw [bind_of_ok hp, bind_of_ok hp]
      exact h x rest hp

theorem bind_congr_left {p q : Parse α} {f : α → Parse β} {s : List Token} (h : p s = q s) :
    (p >>= f) s = (q >>= f) s := by
  change (p s >>= _) = (q s >>= _)
  rw [h]

/-!
# Using up tokens
-/

/-- A parser that never puts tokens back. -/
def Shrinks (p : Parse α) : Prop :=
  ∀ s x rest, p s = .ok (x, rest) → rest.length ≤ s.length

theorem Tracks.shrinks {p : Parse α} {R : List Token → α → Prop} (h : Tracks p R) : Shrinks p := by
  intro s x rest hok
  rcases h.sound hok with ⟨w, rfl, _⟩
  simp

theorem Tracks.shorter {p : Parse α} {R : List Token → α → Prop} (h : Tracks p R)
    (hR : ∀ w x, R w x → w ≠ []) {s rest : List Token} {x : α} (hok : p s = .ok (x, rest)) :
    rest.length < s.length := by
  rcases h.sound hok with ⟨w, rfl, hw⟩
  have hpos := List.length_pos_iff.mpr (hR w x hw)
  rw [List.length_append]
  omega

theorem Shrinks.bind {p : Parse α} {f : α → Parse β} (hp : Shrinks p) (hf : ∀ x, Shrinks (f x)) :
    Shrinks (p >>= f) := by
  intro s y rest hok
  rcases bind_eq_ok_iff.mp hok with ⟨x, s', hx, hy⟩
  exact Nat.le_trans (hf x s' y rest hy) (hp s x s' hx)

theorem Shrinks.pure (x : α) : Shrinks (pure x) := by
  intro s y rest hok
  cases hok
  exact Nat.le_refl _

/-- A part of a growing expression: a token goes with it if it is there. -/
def Advances (part : Parse (Option α)) : Prop :=
  ∀ s x rest, part s = .ok (some x, rest) → rest.length < s.length

theorem advances_accept {f : Token → Option α} {k : Option α → Parse (Option β)}
    (hsome : ∀ x, Shrinks (k (some x))) (hnone : k none = pure none) :
    Advances (accept f >>= k) := by
  intro s y rest hok
  rcases accept_run f s with ⟨t, x, rest', rfl, hx, hrun⟩ | ⟨_, hrun⟩
  · rw [bind_of_ok hrun] at hok
    exact Nat.lt_succ_of_le (hsome x rest' (some y) rest hok)
  · rw [bind_of_ok hrun, hnone] at hok
    cases hok

theorem accept_shrinks {f : Token → Option α} {s rest : List Token} {x : α}
    (h : accept f s = .ok (some x, rest)) : rest.length < s.length := by
  rcases accept_run f s with ⟨u, y, rest', rfl, _, hrun⟩ | ⟨_, hrun⟩
  · cases hrun.symm.trans h
    simp
  · cases hrun.symm.trans h

theorem eq_of_accept_none {f : Token → Option α} {s rest : List Token}
    (h : accept f s = .ok (none, rest)) : rest = s := by
  rcases accept_run f s with ⟨_, _, _, _, _, hrun⟩ | ⟨_, hrun⟩
  · cases hrun.symm.trans h
  · cases hrun.symm.trans h
    rfl

theorem acceptOp_shrinks {op : String} {s rest : List Token} {t : Token}
    (h : acceptOp op s = .ok (some t, rest)) : rest.length < s.length :=
  accept_shrinks h

theorem advances_operation {operand : Parse Expr} (h : Shrinks operand) (level : Nat) (left : Expr) :
    Advances (operation level operand left) := by
  refine advances_accept ?_ rfl
  intro found
  rcases found with ⟨t, op⟩
  exact h.bind fun right => .pure _

theorem advances_arguments {expression : Parse Expr}
    (h : Reads expression fun w e => Spells w (.expr 1 e)) (callee : Expr) :
    Advances (arguments expression callee) := by
  refine advances_accept ?_ rfl
  intro t
  exact h.items.shrinks.bind fun args => (Reads.expectOp ")").shrinks.bind fun _ => .pure _

/-!
# Growing expressions
-/

section Growing

variable {part : Expr → Parse (Option Expr)} {s : List Token} {e : Expr}

theorem partThen_congr {more more' : Expr → Parse Expr} (hpart : Advances (part e))
    (h : ∀ e' rest, rest.length < s.length → more e' rest = more' e' rest) :
    partThen part more e s = partThen part more' e s := by
  apply bind_congr_run
  intro o rest hrun
  cases o with
  | none => rfl
  | some e' => exact h e' rest (hpart s e' rest hrun)

theorem growFrom_congr (hpart : ∀ e, Advances (part e)) {m n : Nat} (hm : s.length < m)
    (hn : s.length < n) : growFrom part m e s = growFrom part n e s := by
  induction m generalizing n s e with
  | zero => omega
  | succ m ih =>
      cases n with
      | zero => omega
      | succ n =>
          apply partThen_congr (hpart e)
          intro e' rest hshorter
          exact ih (by omega) (by omega)

theorem grow_run (hpart : ∀ e, Advances (part e)) (e : Expr) (s : List Token) :
    grow part e s = partThen part (grow part) e s := by
  apply partThen_congr (hpart e)
  intro e' rest hshorter
  exact growFrom_congr hpart hshorter (Nat.lt_succ_self _)

end Growing

/-!
# Lists
-/

section Lists

variable {item : Parse α} {s : List Token}

theorem itemThen_congr {more more' : Parse (List α)} (hitem : Shrinks item)
    (h : ∀ rest, rest.length < s.length → more rest = more' rest) :
    itemThen item more s = itemThen item more' s := by
  apply bind_congr_run
  intro closed _ hlook
  cases hlook
  split
  · rfl
  · apply bind_congr_run
    intro x rest hx
    apply bind_congr_run
    intro found rest' hcomma
    rcases found with _ | comma
    · rfl
    · have hle := hitem s x rest hx
      have hshorter := acceptOp_shrinks hcomma
      exact bind_congr_left (h rest' (by omega))

theorem itemsFrom_congr (hitem : Shrinks item) {m n : Nat} (hm : s.length < m)
    (hn : s.length < n) : itemsFrom item m s = itemsFrom item n s := by
  induction m generalizing n s with
  | zero => omega
  | succ m ih =>
      cases n with
      | zero => omega
      | succ n =>
          apply itemThen_congr hitem
          intro rest hshorter
          exact ih (by omega) (by omega)

theorem items_run (hitem : Shrinks item) (s : List Token) :
    items item s = itemThen item (items item) s := by
  apply itemThen_congr hitem
  intro rest hshorter
  exact itemsFrom_congr hitem hshorter (Nat.lt_succ_self _)

end Lists

/-!
# Statements
-/

section Statements

variable {statement : Parse Stmt} {brace : Token} {s : List Token}

theorem statement_shrinks (hstatement : Reads statement fun w stmt => Spells w (.stmt stmt))
    {stmt : Stmt} {rest : List Token} (h : statement s = .ok (stmt, rest)) :
    rest.length < s.length :=
  hstatement.shorter (fun _ _ => Spells.ne_nil) h

theorem lineEnd_shrinks : Shrinks lineEnd := by
  intro s x rest hrun
  rcases lineEnd_run s with ⟨gap, rest', rfl, _, _, hrun'⟩ | ⟨_, hrun'⟩
  · cases hrun'.symm.trans hrun
    simp
  · cases hrun'.symm.trans hrun

theorem statementThen_congr {more more' : Parse (List Stmt)}
    (hstatement : Reads statement fun w stmt => Spells w (.stmt stmt))
    (h : ∀ rest, rest.length < s.length → more rest = more' rest) :
    statementThen statement brace more s = statementThen statement brace more' s := by
  apply bind_congr_run
  intro found s' hclosing
  rcases found with _ | closing
  · have hs : s' = s := eq_of_accept_none hclosing
    subst hs
    apply bind_congr_run
    intro closed _ hlook
    cases hlook
    split
    · rfl
    · apply bind_congr_run
      intro stmt rest hstmt
      apply bind_congr_run
      intro _ rest' hline
      have hshorter := statement_shrinks hstatement hstmt
      have hle := lineEnd_shrinks rest _ rest' hline
      exact bind_congr_left (h rest' (by omega))
  · rfl

theorem blockRestFrom_congr (hstatement : Reads statement fun w stmt => Spells w (.stmt stmt))
    {m n : Nat} (hm : s.length < m) (hn : s.length < n) :
    blockRestFrom statement brace m s = blockRestFrom statement brace n s := by
  induction m generalizing n s with
  | zero => omega
  | succ m ih =>
      cases n with
      | zero => omega
      | succ n =>
          apply statementThen_congr hstatement
          intro rest hshorter
          exact ih (by omega) (by omega)

theorem blockRest_run (hstatement : Reads statement fun w stmt => Spells w (.stmt stmt))
    (brace : Token) (s : List Token) :
    blockRest statement brace s = statementThen statement brace (blockRest statement brace) s := by
  apply statementThen_congr hstatement
  intro rest hshorter
  exact blockRestFrom_congr hstatement hshorter (Nat.lt_succ_self _)

end Statements
end Parser
end TypedAnt
