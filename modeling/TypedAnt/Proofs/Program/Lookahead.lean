import TypedAnt.Proofs.Program.ExpressionSoundness
import TypedAnt.Proofs.Program.Recovery
import TypedAnt.Proofs.Program.Repetition

/-!
# Look-ahead

A parser looks at the tokens that it takes and at the one after them, and at no others.  So
its outcome stays the same when everything behind that one token is exchanged.  The one
exception is a conditional statement, which looks past newlines for `else`.

Two parsers are compared, because the same argument shows that a higher nesting limit
changes no outcome but a rejection for nesting.
-/

namespace TypedAnt
namespace Parser

variable {α β : Type}

/-- The tokens `r` that are exchanged against `r'` play no part in a result that leaves `k ++ r`. -/
def Anywhere (_ _ _ : List Token) : Prop :=
  True

/-- One of the tokens that stay is no newline, unless all of them stay. -/
def Decided (k r r' : List Token) : Prop :=
  r = r' ∨ ∃ t ∈ k ++ r.head?.toList, t.kind ≠ .newline

structure Follows (G : List Token → List Token → List Token → Prop) (p q : Parse α) : Prop where
  ok {c k r r' : List Token} {x : α} :
    r.head? = r'.head? → G k r r' → p (c ++ r) = .ok (x, k ++ r) → q (c ++ r') = .ok (x, k ++ r')
  rejected {c k r r' : List Token} {cause : SyntaxError.Cause} :
    r.head? = r'.head? → cause ≠ .nestingTooDeep →
      p (c ++ r) = .error (.rejected (k ++ r) cause) →
      q (c ++ r') = .error (.rejected (k ++ r') cause)
  numeral {s : List Token} {fault : Numeral.Fault} :
    p s = .error (.numeral fault) → q s = .error (.numeral fault)
  suffix_ok {s rest : List Token} {x : α} : p s = .ok (x, rest) → rest <:+ s
  suffix_rejected {s rest : List Token} {cause : SyntaxError.Cause} :
    p s = .error (.rejected rest cause) → rest <:+ s

namespace Follows

variable {G : List Token → List Token → List Token → Prop}

/-!
# Parsers in sequence
-/

theorem weaken {p q : Parse α} (h : Follows Anywhere p q) : Follows G p q where
  ok hsame _ hok := h.ok hsame trivial hok
  rejected hsame hcause hstop := h.rejected hsame hcause hstop
  numeral hstop := h.numeral hstop
  suffix_ok hok := h.suffix_ok hok
  suffix_rejected hstop := h.suffix_rejected hstop

theorem pure (x : α) : Follows G (pure x) (pure x) where
  ok {c k r r' y} _ _ hok := by
    rw [pure_run, Except.ok.injEq, Prod.mk.injEq] at hok
    rcases hok with ⟨rfl, hs⟩
    rw [List.append_cancel_right hs]
    rfl
  rejected _ _ hstop := by cases hstop
  numeral hstop := by cases hstop
  suffix_ok hok := by
    cases hok
    exact List.suffix_refl _
  suffix_rejected hstop := by cases hstop

theorem reject (cause : SyntaxError.Cause) :
    Follows G (reject cause : Parse α) (reject cause) where
  ok _ _ hok := by cases hok
  rejected {c k r r' cause'} _ _ hstop := by
    rw [reject_run, Except.error.injEq, Stop.rejected.injEq] at hstop
    rcases hstop with ⟨hs, rfl⟩
    rw [List.append_cancel_right hs]
    rfl
  numeral hstop := by cases hstop
  suffix_ok hok := by cases hok
  suffix_rejected hstop := by
    cases hstop
    exact List.suffix_refl _

theorem giveUp (q : Parse α) : Follows G (Parser.reject .nestingTooDeep) q where
  ok _ _ hok := by cases hok
  rejected _ hcause hstop := by
    rw [reject_run, Except.error.injEq, Stop.rejected.injEq] at hstop
    exact absurd hstop.2.symm hcause
  numeral hstop := by cases hstop
  suffix_ok hok := by cases hok
  suffix_rejected hstop := by
    cases hstop
    exact List.suffix_refl _

theorem bind {p q : Parse α} {f g : α → Parse β} (hp : Follows Anywhere p q)
    (hf : ∀ x, Follows G (f x) (g x)) : Follows G (p >>= f) (q >>= g) where
  ok {c k r r' y} hsame hG hok := by
    rcases bind_eq_ok_iff.mp hok with ⟨x, s, hx, hy⟩
    rcases (hf x).suffix_ok hy with ⟨j, rfl⟩
    rw [← List.append_assoc] at hx hy
    rw [bind_of_ok (hp.ok hsame trivial hx)]
    exact (hf x).ok hsame hG hy
  rejected {c k r r' cause} hsame hcause hstop := by
    rcases bind_eq_error_iff.mp hstop with hfirst | ⟨x, s, hx, hsecond⟩
    · exact bind_of_error (hp.rejected hsame hcause hfirst)
    · rcases (hf x).suffix_rejected hsecond with ⟨j, rfl⟩
      rw [← List.append_assoc] at hx hsecond
      rw [bind_of_ok (hp.ok hsame trivial hx)]
      exact (hf x).rejected hsame hcause hsecond
  numeral {s fault} hstop := by
    rcases bind_eq_error_iff.mp hstop with hfirst | ⟨x, s', hx, hsecond⟩
    · exact bind_of_error (hp.numeral hfirst)
    · rw [← List.append_nil s, ← List.append_nil s'] at hx
      have hq := hp.ok rfl trivial hx
      rw [List.append_nil, List.append_nil] at hq
      rw [bind_of_ok hq]
      exact (hf x).numeral hsecond
  suffix_ok hok := by
    rcases bind_eq_ok_iff.mp hok with ⟨x, s, hx, hy⟩
    exact ((hf x).suffix_ok hy).trans (hp.suffix_ok hx)
  suffix_rejected hstop := by
    rcases bind_eq_error_iff.mp hstop with hfirst | ⟨x, s, hx, hsecond⟩
    · exact hp.suffix_rejected hfirst
    · exact ((hf x).suffix_rejected hsecond).trans (hp.suffix_ok hx)

theorem map {p q : Parse α} (h : Follows G p q) (f : α → β) :
    Follows G (p >>= fun x => Pure.pure (f x)) (q >>= fun x => Pure.pure (f x)) where
  ok hsame hG hok := by
    rcases bind_eq_ok_iff.mp hok with ⟨x, s, hx, hy⟩
    cases hy
    rw [bind_of_ok (h.ok hsame hG hx)]
    rfl
  rejected hsame hcause hstop := by
    rcases bind_eq_error_iff.mp hstop with hfirst | ⟨_, _, _, hpure⟩
    · exact bind_of_error (h.rejected hsame hcause hfirst)
    · cases hpure
  numeral hstop := by
    rcases bind_eq_error_iff.mp hstop with hfirst | ⟨_, _, _, hpure⟩
    · exact bind_of_error (h.numeral hfirst)
    · cases hpure
  suffix_ok hok := by
    rcases bind_eq_ok_iff.mp hok with ⟨x, s, hx, hy⟩
    cases hy
    exact h.suffix_ok hx
  suffix_rejected hstop := by
    rcases bind_eq_error_iff.mp hstop with hfirst | ⟨_, _, _, hpure⟩
    · exact h.suffix_rejected hfirst
    · cases hpure

theorem rounds {f : Nat → Parse α} {q : Parse α} (h : ∀ n, Follows G (f n) q) :
    Follows G (do f (← get).length) q where
  ok hsame hG hok := (h _).ok hsame hG hok
  rejected hsame hcause hstop := (h _).rejected hsame hcause hstop
  numeral hstop := (h _).numeral hstop
  suffix_ok {s _ _} hok := (h s.length).suffix_ok hok
  suffix_rejected {s _ _} hstop := (h s.length).suffix_rejected hstop

/-!
# Single tokens
-/

theorem head?_append_eq {c r r' : List Token} (hsame : r.head? = r'.head?) :
    (c ++ r).head? = (c ++ r').head? := by
  rw [List.head?_append, List.head?_append, hsame]

theorem look (f : Option Token → α) : Follows G (look f) (look f) where
  ok {c k r r' x} hsame _ hok := by
    rw [look_run, Except.ok.injEq, Prod.mk.injEq] at hok
    rcases hok with ⟨rfl, hs⟩
    rw [← List.append_cancel_right hs, look_run, head?_append_eq hsame]
  rejected _ _ hstop := by cases hstop
  numeral hstop := by cases hstop
  suffix_ok hok := by
    cases hok
    exact List.suffix_refl _
  suffix_rejected hstop := by cases hstop

theorem eq_cons_of_append {c k r s : List Token} {t : Token} (h : c ++ r = t :: s)
    (hs : s = k ++ r) : c = t :: k := by
  subst hs
  exact List.append_cancel_right (h.trans (List.cons_append ..).symm)

theorem accept (f : Token → Option α) : Follows G (accept f) (accept f) where
  ok {c k r r' o} hsame _ hok := by
    rcases accept_run f (c ++ r) with ⟨t, x, s, hs, hx, hrun⟩ | ⟨hnone, hrun⟩
    · cases hrun.symm.trans hok
      rw [eq_cons_of_append hs rfl]
      exact accept_of_some hx
    · have heq := hrun.symm.trans hok
      rw [Except.ok.injEq, Prod.mk.injEq] at heq
      rcases heq with ⟨rfl, hs⟩
      rw [← List.append_cancel_right hs]
      rw [head?_append_eq hsame] at hnone
      exact accept_of_none hnone
  rejected {c k r r' cause} _ _ hstop := by
    rcases accept_run f (c ++ r) with ⟨_, _, _, _, _, hrun⟩ | ⟨_, hrun⟩
    · cases hrun.symm.trans hstop
    · cases hrun.symm.trans hstop
  numeral {s fault} hstop := by
    rcases accept_run f s with ⟨_, _, _, _, _, hrun⟩ | ⟨_, hrun⟩
    · cases hrun.symm.trans hstop
    · cases hrun.symm.trans hstop
  suffix_ok {s rest x} hok := by
    rcases accept_run f s with ⟨t, _, _, rfl, _, hrun⟩ | ⟨_, hrun⟩
    · cases hrun.symm.trans hok
      exact List.suffix_cons t rest
    · cases hrun.symm.trans hok
      exact List.suffix_refl _
  suffix_rejected {s rest cause} hstop := by
    rcases accept_run f s with ⟨_, _, _, _, _, hrun⟩ | ⟨_, hrun⟩
    · cases hrun.symm.trans hstop
    · cases hrun.symm.trans hstop

theorem expect (p : Token → Bool) (cause : SyntaxError.Cause) :
    Follows G (expect p cause) (expect p cause) where
  ok {c k r r' t} hsame _ hok := by
    rcases expect_run p cause (c ++ r) with ⟨u, s, hs, hu, hrun⟩ | ⟨_, hrun⟩
    · cases hrun.symm.trans hok
      rw [eq_cons_of_append hs rfl]
      exact expect_of_true hu
    · cases hrun.symm.trans hok
  rejected {c k r r' cause'} hsame _ hstop := by
    rcases expect_run p cause (c ++ r) with ⟨_, _, _, _, hrun⟩ | ⟨hfalse, hrun⟩
    · cases hrun.symm.trans hstop
    · have heq := hrun.symm.trans hstop
      rw [Except.error.injEq, Stop.rejected.injEq] at heq
      rcases heq with ⟨hs, rfl⟩
      rw [← List.append_cancel_right hs]
      rw [head?_append_eq hsame] at hfalse
      exact expect_of_false hfalse
  numeral {s fault} hstop := by
    rcases expect_run p cause s with ⟨_, _, _, _, hrun⟩ | ⟨_, hrun⟩
    · cases hrun.symm.trans hstop
    · cases hrun.symm.trans hstop
  suffix_ok {s rest x} hok := by
    rcases expect_run p cause s with ⟨t, _, rfl, _, hrun⟩ | ⟨_, hrun⟩
    · cases hrun.symm.trans hok
      exact List.suffix_cons ..
    · cases hrun.symm.trans hok
  suffix_rejected {s rest cause'} hstop := by
    rcases expect_run p cause s with ⟨_, _, _, _, hrun⟩ | ⟨_, hrun⟩
    · cases hrun.symm.trans hstop
    · cases hrun.symm.trans hstop
      exact List.suffix_refl _

theorem dropWhile_exchange {p : Token → Bool} {c k r r' : List Token}
    (hsame : r.head? = r'.head?) (h : (c ++ r).dropWhile p = k ++ r) :
    (c ++ r').dropWhile p = k ++ r' := by
  induction c with
  | nil =>
      have hlength := (@List.dropWhile_sublist _ r.tail p).length_le
      cases r with
      | nil =>
          cases r' with
          | nil => exact h
          | cons t r' => cases hsame
      | cons t r =>
          cases r' with
          | nil => cases hsame
          | cons u r' =>
              cases hsame
              cases ht : p t with
              | true =>
                  have hlengths := congrArg List.length h
                  simp only [List.nil_append, List.dropWhile_cons, ht, if_true, List.length_append,
                    List.length_cons, List.tail_cons] at hlengths hlength
                  omega
              | false =>
                  rw [List.nil_append, List.dropWhile_cons_of_neg (by simp [ht])] at h ⊢
                  rw [List.self_eq_append_left.mp h, List.nil_append]
  | cons u c ih =>
      cases hu : p u with
      | true =>
          rw [List.cons_append, List.dropWhile_cons_of_pos hu] at h ⊢
          exact ih h
      | false =>
          rw [List.cons_append, List.dropWhile_cons_of_neg (by simp [hu]), ← List.cons_append] at h ⊢
          rw [List.append_cancel_right h]

theorem skipSeparators : Follows G skipSeparators skipSeparators where
  ok {c k r r' x} hsame _ hok := by
    have hs : (c ++ r).dropWhile Token.isSeparator = k ++ r :=
      congrArg Prod.snd (Except.ok.inj hok)
    change Except.ok ((), (c ++ r').dropWhile Token.isSeparator) = _
    rw [dropWhile_exchange hsame hs]
  rejected _ _ hstop := by cases hstop
  numeral hstop := by cases hstop
  suffix_ok hok := by
    cases hok
    exact List.dropWhile_suffix _
  suffix_rejected hstop := by cases hstop

theorem lineEnd : Follows G lineEnd lineEnd := by
  apply (look endsStatement).bind
  intro ends
  cases ends with
  | false => exact reject .expectedEnd
  | true => exact skipSeparators

theorem optionalType (mark : String) : Follows G (optionalType mark) (optionalType mark) := by
  apply (accept _).bind
  intro sign
  cases sign with
  | none => exact pure none
  | some sign => exact (expect _ _).map some

theorem param : Follows G param param := by
  apply (expect _ _).bind
  intro name
  apply (expect _ _).bind
  intro _
  exact (expect _ _).map _

/-!
# Repetition

The rounds of the first parser are counted, and without any it gives up; the second one
is unrolled as often as needed.
-/

theorem itemsFrom {item item' : Parse α} (h : Follows Anywhere item item')
    (hitem' : Shrinks item') (n : Nat) : Follows Anywhere (itemsFrom item n) (items item') := by
  induction n with
  | zero => exact giveUp _
  | succ n ih =>
      rw [funext (items_run hitem')]
      apply (look _).bind
      intro closed
      cases closed with
      | true => exact pure []
      | false =>
          apply h.bind
          intro x
          apply (accept _).bind
          intro comma
          cases comma with
          | none => exact pure [x]
          | some _ => exact ih.map (x :: ·)

theorem items {item item' : Parse α} (h : Follows Anywhere item item') (hitem' : Shrinks item') :
    Follows Anywhere (items item) (items item') :=
  rounds fun n => itemsFrom h hitem' (n + 1)

theorem growFrom {part part' : Expr → Parse (Option Expr)}
    (h : ∀ e, Follows Anywhere (part e) (part' e)) (hpart' : ∀ e, Advances (part' e)) (n : Nat)
    (e : Expr) : Follows Anywhere (growFrom part n e) (grow part' e) := by
  induction n generalizing e with
  | zero => exact giveUp _
  | succ n ih =>
      rw [funext (grow_run hpart' e)]
      apply (h e).bind
      intro o
      cases o with
      | none => exact pure e
      | some e' => exact ih e'

theorem grow {part part' : Expr → Parse (Option Expr)}
    (h : ∀ e, Follows Anywhere (part e) (part' e)) (hpart' : ∀ e, Advances (part' e)) (e : Expr) :
    Follows Anywhere (grow part e) (grow part' e) :=
  rounds fun n => growFrom h hpart' (n + 1) e

/-!
# Expressions
-/

theorem operation {operand operand' : Parse Expr} (h : Follows Anywhere operand operand')
    (level : Nat) (left : Expr) :
    Follows Anywhere (operation level operand left) (operation level operand' left) := by
  apply (accept _).bind
  intro found
  cases found with
  | none => exact pure none
  | some found => exact h.map _

theorem chain {operand operand' : Parse Expr} (h : Follows Anywhere operand operand')
    (hoperand' : Shrinks operand') (level : Nat) :
    Follows Anywhere (chain level operand) (chain level operand') :=
  h.bind fun e => grow (operation h level) (advances_operation hoperand' level) e

theorem binaryLevels {operand operand' : Parse Expr} (h : Follows Anywhere operand operand')
    (hoperand' : Reads operand' fun w e => Spells w (.expr 7 e)) {count : Nat} (hcount : count ≤ 6) :
    Follows Anywhere (binaryLevels operand count) (binaryLevels operand' count) := by
  induction count with
  | zero => exact h
  | succ count ih =>
      exact chain (ih (by omega)) (hoperand'.binaryLevels (by omega)).shrinks _

theorem expressionOf {operand operand' : Parse Expr} (h : Follows Anywhere operand operand')
    (hoperand' : Reads operand' fun w e => Spells w (.expr 7 e)) :
    Follows Anywhere (expressionOf operand) (expressionOf operand') :=
  binaryLevels h hoperand' (Nat.le_refl 6)

theorem arguments {expression expression' : Parse Expr}
    (h : Follows Anywhere expression expression') (hexpression' : Shrinks expression')
    (callee : Expr) :
    Follows Anywhere (arguments expression callee) (arguments expression' callee) := by
  apply (accept _).bind
  intro opening
  cases opening with
  | none => exact pure none
  | some t =>
      apply (items h hexpression').bind
      intro args
      exact (expect _ _).map _

theorem unreadable (fault : Numeral.Fault) : Follows G (unreadable fault) (unreadable fault) where
  ok _ _ hok := by cases hok
  rejected _ _ hstop := by cases hstop
  numeral hstop := hstop
  suffix_ok hok := by cases hok
  suffix_rejected hstop := by cases hstop

theorem primary {expression expression' : Parse Expr}
    (h : Follows Anywhere expression expression') :
    Follows Anywhere (primary expression) (primary expression') := by
  apply (accept _).bind
  intro atom
  rcases atom with _ | fault | e
  · apply (accept _).bind
    intro opening
    cases opening with
    | none => exact reject _
    | some _ => exact h.bind fun e => (expect _ _).map _
  · exact unreadable fault
  · exact pure e

theorem operand {expression expression' : Parse Expr}
    (h : Follows Anywhere expression expression')
    (hexpression' : Reads expression' fun w e => Spells w (.expr 1 e)) :
    Follows Anywhere (operand expression) (operand expression') :=
  (primary h).bind fun e =>
    grow (arguments h hexpression'.shrinks) (advances_arguments hexpression') e

/-- A higher limit changes nothing but a rejection for nesting. -/
theorem unary {depth depth' : Nat} (hdepth : depth ≤ depth') :
    Follows Anywhere (unary depth) (unary depth') := by
  induction depth generalizing depth' with
  | zero => exact giveUp _
  | succ depth ih =>
      cases depth' with
      | zero => omega
      | succ depth' =>
          have hnext := ih (Nat.le_of_succ_le_succ hdepth)
          apply (accept _).bind
          intro found
          cases found with
          | none =>
              exact operand (expressionOf hnext (.unary depth')) (.expression depth')
          | some found => exact hnext.map _

theorem expression {depth depth' : Nat} (hdepth : depth ≤ depth') :
    Follows Anywhere (expression depth) (expression depth') :=
  expressionOf (unary hdepth) (.unary depth')

/-!
# Statements in sequence

A statement may depend on what stands behind the newlines after it.  Where the end of
its line is read too, those newlines are taken, and the dependence is gone.
-/

theorem decided_of_lineEnd {k k' r r' : List Token} (hsame : r.head? = r'.head?)
    (h : Parser.lineEnd (k ++ r) = .ok ((), k' ++ r)) : Decided k r r' := by
  rcases lineEnd_run (k ++ r) with ⟨gap, rest, hs, _, hhead, hrun⟩ | ⟨_, hrun⟩
  · have hrest : rest = k' ++ r := by
      cases hrun.symm.trans h
      rfl
    rw [hrest, ← List.append_assoc] at hs
    rw [hrest] at hhead
    rw [List.append_cancel_right hs]
    have hkind {t : Token} (ht : t ∈ (k' ++ r).head?) : t.kind ≠ .newline := by
      have hmark := (hhead t ht).1
      grind
    cases k' with
    | cons t k' => exact Or.inr ⟨t, by simp, hkind rfl⟩
    | nil =>
        cases r with
        | cons t r => exact Or.inr ⟨t, by simp, hkind rfl⟩
        | nil =>
            cases r' with
            | nil => exact Or.inl rfl
            | cons t r' => cases hsame
  · cases hrun.symm.trans h

theorem decided_of_not_endsStatement {k r r' : List Token}
    (h : endsStatement (k ++ r).head? = false) : Decided k r r' := by
  have hkind {t : Token} (ht : (k ++ r).head? = some t) : t.kind ≠ .newline := by
    rw [ht] at h
    have hmark : (t.isSeparator || t.isOp "\x7d") = false := h
    grind
  cases k with
  | cons t k => exact Or.inr ⟨t, by simp, hkind rfl⟩
  | nil =>
      cases r with
      | cons t r => exact Or.inr ⟨t, by simp, hkind rfl⟩
      | nil => cases h

theorem lineEnd_bind {p q : Parse α} {f g : α → Parse β} (hp : Follows Decided p q)
    (hf : ∀ x, Follows Anywhere (f x) (g x)) :
    Follows Anywhere (p >>= fun x => Parser.lineEnd >>= fun _ => f x)
      (q >>= fun x => Parser.lineEnd >>= fun _ => g x) := by
  have hrest (x : α) : Follows Anywhere (Parser.lineEnd >>= fun _ => f x)
      (Parser.lineEnd >>= fun _ => g x) := lineEnd.bind fun _ => hf x
  constructor
  · intro c k r r' y hsame _ hok
    rcases bind_eq_ok_iff.mp hok with ⟨x, s, hx, hy⟩
    rcases (hrest x).suffix_ok hy with ⟨j, rfl⟩
    rcases bind_eq_ok_iff.mp hy with ⟨_, s, hline, hafter⟩
    rcases (hf x).suffix_ok hafter with ⟨j', rfl⟩
    rw [← List.append_assoc] at hx hy hline
    rw [← List.append_assoc] at hline
    rw [bind_of_ok (hp.ok hsame (decided_of_lineEnd hsame hline) hx)]
    exact (hrest x).ok hsame trivial hy
  · intro c k r r' cause hsame hcause hstop
    rcases bind_eq_error_iff.mp hstop with hfirst | ⟨x, s, hx, hsecond⟩
    · exact bind_of_error (hp.rejected hsame hcause hfirst)
    rcases (hrest x).suffix_rejected hsecond with ⟨j, rfl⟩
    have hdecided : Decided (j ++ k) r r' := by
      rcases bind_eq_error_iff.mp hsecond with hline | ⟨_, s, hline, hafter⟩
      · rcases lineEnd_run (j ++ (k ++ r)) with ⟨_, _, _, _, _, hrun⟩ | ⟨hends, _⟩
        · cases hrun.symm.trans hline
        · rw [← List.append_assoc] at hends
          exact decided_of_not_endsStatement hends
      · rcases (hf x).suffix_rejected hafter with ⟨j', rfl⟩
        rw [← List.append_assoc, ← List.append_assoc] at hline
        exact decided_of_lineEnd hsame hline
    rw [← List.append_assoc] at hx hsecond
    rw [bind_of_ok (hp.ok hsame hdecided hx)]
    exact (hrest x).rejected hsame hcause hsecond
  · intro s fault hstop
    rcases bind_eq_error_iff.mp hstop with hfirst | ⟨x, s', hx, hsecond⟩
    · exact bind_of_error (hp.numeral hfirst)
    · rw [← List.append_nil s, ← List.append_nil s'] at hx
      have hq := hp.ok rfl (Or.inl rfl) hx
      rw [List.append_nil, List.append_nil] at hq
      rw [bind_of_ok hq]
      exact (hrest x).numeral hsecond
  · intro s rest y hok
    rcases bind_eq_ok_iff.mp hok with ⟨x, s', hx, hy⟩
    exact ((hrest x).suffix_ok hy).trans (hp.suffix_ok hx)
  · intro s rest cause hstop
    rcases bind_eq_error_iff.mp hstop with hfirst | ⟨x, s', hx, hsecond⟩
    · exact hp.suffix_rejected hfirst
    · exact ((hrest x).suffix_rejected hsecond).trans (hp.suffix_ok hx)

theorem blockRestFrom {statement statement' : Parse Stmt} (h : Follows Decided statement statement')
    (hstatement' : Reads statement' fun w stmt => Spells w (.stmt stmt)) (brace : Token) (n : Nat) :
    Follows Anywhere (blockRestFrom statement brace n) (blockRest statement' brace) := by
  induction n with
  | zero => exact giveUp _
  | succ n ih =>
      rw [funext (blockRest_run hstatement' brace)]
      apply (accept _).bind
      intro closing
      cases closing with
      | some _ => exact pure []
      | none =>
          apply (look _).bind
          intro closed
          cases closed with
          | true => exact reject _
          | false => exact lineEnd_bind h fun stmt => ih.map (stmt :: ·)

theorem block {statement statement' : Parse Stmt} (h : Follows Decided statement statement')
    (hstatement' : Reads statement' fun w stmt => Spells w (.stmt stmt)) :
    Follows Anywhere (block statement) (block statement') := by
  apply (expect _ _).bind
  intro brace
  apply skipSeparators.bind
  intro _
  exact (rounds fun n => blockRestFrom h hstatement' brace (n + 1)).map _

/-!
# Conditional statements
-/

theorem suffix_behind (gap : List Token) (t : Token) (s : List Token) : s <:+ gap ++ t :: s :=
  ⟨gap ++ [t], by simp⟩

theorem noElse_exchange {c r r' : List Token} (hsame : r.head? = r'.head?) (hG : Decided c r r')
    (h : NoElse (c ++ r)) : NoElse (c ++ r') := by
  rcases hG with rfl | ⟨t, ht, hkind⟩
  · exact h
  · have hfirst : ((c ++ r).dropWhile (·.kind == .newline)).head? =
        ((c ++ r').dropWhile (·.kind == .newline)).head? := by
      clear h
      induction c with
      | nil =>
          have hr : r.head? = some t := by simpa using ht
          have hr' : r'.head? = some t := hsame.symm.trans hr
          cases r with
          | nil => cases hr
          | cons u r =>
              cases hr
              cases r' with
              | nil => cases hr'
              | cons u r' =>
                  cases hr'
                  simp [hkind]
      | cons u c ih =>
          cases hu : u.kind == .newline with
          | false => simp [hu]
          | true =>
              have hne : t ≠ u := by
                intro heq
                subst heq
                exact hkind (by simpa using hu)
              simp only [List.cons_append, List.dropWhile_cons, hu, if_true]
              apply ih
              simpa [hne] using ht
    unfold NoElse
    rw [← hfirst]
    exact h

theorem acceptElse_bind {f g : Bool → Parse β} {y : β} (htrue : Follows Decided (f true) (g true))
    (hf : f false = Pure.pure y) (hg : g false = Pure.pure y) :
    Follows Decided (acceptElse >>= f) (acceptElse >>= g) := by
  -- What is exchanged lies behind `else`, because it is left behind it.
  have hbehind {gap c k r s j : List Token} {keyword : Token} (h : c ++ r = gap ++ keyword :: s)
      (hs : j ++ (k ++ r) = s) : c = gap ++ keyword :: (j ++ k) := by
    subst hs
    refine List.append_cancel_right (h.trans ?_)
    simp
  constructor
  · intro c k r r' z hsame hG hok
    rcases acceptElse_run (c ++ r) with ⟨gap, keyword, s, hs, hgap, hkeyword, hrun⟩ | ⟨hno, hrun⟩
    · rw [bind_of_ok hrun] at hok
      rcases htrue.suffix_ok hok with ⟨j, hj⟩
      rw [hbehind hs hj, List.append_assoc, List.cons_append,
        bind_of_ok (acceptElse_of_else hgap hkeyword)]
      rw [← hj, ← List.append_assoc] at hok
      exact htrue.ok hsame hG hok
    · rw [bind_of_ok hrun, hf, pure_run, Except.ok.injEq, Prod.mk.injEq] at hok
      rcases hok with ⟨rfl, hs⟩
      cases List.append_cancel_right hs
      rw [bind_of_ok (acceptElse_of_noElse (noElse_exchange hsame hG hno)), hg]
      rfl
  · intro c k r r' cause hsame hcause hstop
    rcases acceptElse_run (c ++ r) with ⟨gap, keyword, s, hs, hgap, hkeyword, hrun⟩ | ⟨hno, hrun⟩
    · rw [bind_of_ok hrun] at hstop
      rcases htrue.suffix_rejected hstop with ⟨j, hj⟩
      rw [hbehind hs hj, List.append_assoc, List.cons_append,
        bind_of_ok (acceptElse_of_else hgap hkeyword)]
      rw [← hj, ← List.append_assoc] at hstop
      exact htrue.rejected hsame hcause hstop
    · rw [bind_of_ok hrun, hf] at hstop
      cases hstop
  · intro s fault hstop
    rcases acceptElse_run s with ⟨gap, keyword, s, rfl, _, _, hrun⟩ | ⟨_, hrun⟩
    · rw [bind_of_ok hrun] at hstop ⊢
      exact htrue.numeral hstop
    · rw [bind_of_ok hrun, hf] at hstop
      cases hstop
  · intro s rest z hok
    rcases acceptElse_run s with ⟨gap, keyword, s, rfl, _, _, hrun⟩ | ⟨_, hrun⟩
    · rw [bind_of_ok hrun] at hok
      exact (htrue.suffix_ok hok).trans (suffix_behind gap keyword s)
    · rw [bind_of_ok hrun, hf] at hok
      cases hok
      exact List.suffix_refl _
  · intro s rest cause hstop
    rcases acceptElse_run s with ⟨gap, keyword, s, rfl, _, _, hrun⟩ | ⟨_, hrun⟩
    · rw [bind_of_ok hrun] at hstop
      exact (htrue.suffix_rejected hstop).trans (suffix_behind gap keyword s)
    · rw [bind_of_ok hrun, hf] at hstop
      cases hstop

theorem otherwise {body body' : Parse (Block Stmt)} {statement statement' : Parse Stmt}
    (hbody : Follows Anywhere body body') (hstatement : Follows Decided statement statement') :
    Follows Decided (otherwise body statement) (otherwise body' statement') := by
  apply (look _).bind
  intro conditional
  cases conditional with
  | true => exact hstatement.map _
  | false => exact hbody.weaken.map _

theorem alternative {body body' : Parse (Block Stmt)} {statement statement' : Parse Stmt}
    (hbody : Follows Anywhere body body') (hstatement : Follows Decided statement statement') :
    Follows Decided (alternative body statement) (alternative body' statement') :=
  acceptElse_bind ((otherwise hbody hstatement).map some) rfl rfl

/-!
# All statements
-/

theorem letBinding {expression expression' : Parse Expr}
    (h : Follows Anywhere expression expression') (t : Token) :
    Follows Anywhere (letBinding expression t) (letBinding expression' t) := by
  apply (expect _ _).bind
  intro name
  apply (optionalType _).bind
  intro declared
  apply (expect _ _).bind
  intro _
  exact h.map _

theorem funcDef {body body' : Parse (Block Stmt)} (h : Follows Anywhere body body') (t : Token) :
    Follows Anywhere (funcDef body t) (funcDef body' t) := by
  apply (expect _ _).bind
  intro name
  apply (expect _ _).bind
  intro _
  apply (items param Reads.param.shrinks).bind
  intro params
  apply (expect _ _).bind
  intro _
  apply (optionalType _).bind
  intro returnType
  exact h.map _

theorem giveBack {expression expression' : Parse Expr}
    (h : Follows Anywhere expression expression') (t : Token) :
    Follows Anywhere (giveBack expression t) (giveBack expression' t) := by
  apply (look _).bind
  intro ends
  cases ends with
  | true => exact pure _
  | false => exact h.map _

theorem assignOrExpr {expression expression' : Parse Expr}
    (h : Follows Anywhere expression expression') :
    Follows Anywhere (assignOrExpr expression) (assignOrExpr expression') := by
  apply (look _).bind
  intro next
  cases next with
  | none => exact reject _
  | some first =>
      apply h.bind
      intro e
      apply (look _).bind
      intro assigned
      cases assigned with
      | false => exact pure _
      | true =>
          cases e with
          | name name => exact (expect _ _).bind fun sign => h.map _
          | _ => exact reject _

theorem opened {expression expression' : Parse Expr} {body body' : Parse (Block Stmt)}
    {statement statement' : Parse Stmt} (hexpression : Follows Anywhere expression expression')
    (hbody : Follows Anywhere body body') (hstatement : Follows Decided statement statement')
    (t : Token) (o : Opening) :
    Follows Decided (opened expression body statement t o)
      (opened expression' body' statement' t o) := by
  cases o with
  | letBinding => exact (letBinding hexpression t).weaken
  | funcDef => exact (funcDef hbody t).weaken
  | conditional =>
      apply hexpression.bind
      intro condition
      apply hbody.bind
      intro thenBody
      exact (alternative hbody hstatement).map _
  | whileLoop => exact hexpression.bind fun condition => hbody.weaken.map _
  | giveBack => exact (giveBack hexpression t).weaken

theorem statement {depth depth' : Nat} (hdepth : depth ≤ depth') :
    Follows Decided (statement depth) (statement depth') := by
  induction depth generalizing depth' with
  | zero => exact giveUp _
  | succ depth ih =>
      cases depth' with
      | zero => omega
      | succ depth' =>
          have hle := Nat.le_of_succ_le_succ hdepth
          apply (accept _).bind
          intro found
          cases found with
          | none => exact (assignOrExpr (expression hle)).weaken
          | some found =>
              exact opened (expression hle) (block (ih hle) (.statement depth')) (ih hle) _ _

end Follows

/-!
# Whole programs
-/

section Programs

variable {p q : Parse Stmt} {m n : Nat} {c k r r' : List Token}

def line (statement : Parse Stmt) : Parse Stmt := do
  let stmt ← statement
  lineEnd
  return stmt

theorem Follows.line (h : Follows Decided p q) : Follows Anywhere (line p) (line q) :=
  .lineEnd_bind h fun stmt => .pure stmt

theorem line_shrinks (hp : Reads p fun w stmt => Spells w (.stmt stmt)) {s rest : List Token}
    {stmt : Stmt} (h : line p s = .ok (stmt, rest)) : rest.length < s.length := by
  rcases bind_eq_ok_iff.mp h with ⟨stmt', s', hstmt, h⟩
  rcases bind_eq_ok_iff.mp h with ⟨_, s'', hline, h⟩
  cases h
  exact Nat.lt_of_le_of_lt (lineEnd_shrinks s' _ rest hline) (statement_shrinks hp hstmt)

theorem stop_statementsFrom (n : Nat) (t : Token) (s : List Token) :
    (statementsFrom p (n + 1) (t :: s)).2 =
      match line p (t :: s) with
      | .error stop => some stop
      | .ok (_, rest) => (statementsFrom p n rest).2 := by
  cases hstmt : p (t :: s) with
  | error stop => simp [statementsFrom, hstmt, line, bind_of_error hstmt]
  | ok result =>
      rcases result with ⟨stmt, s'⟩
      rw [line, bind_of_ok hstmt]
      cases hline : lineEnd s' with
      | error stop => simp [statementsFrom, hstmt, hline, bind_of_error hline]
      | ok result =>
          rcases result with ⟨_, rest⟩
          rw [bind_of_ok hline]
          simp [statementsFrom, hstmt, hline, pure_run]

theorem suffix_of_statementsFrom (hp : Reads p fun w stmt => Spells w (.stmt stmt))
    {s rest : List Token} {cause : SyntaxError.Cause}
    (h : (statementsFrom p n s).2 = some (.rejected rest cause)) : rest <:+ s := by
  rcases reaches_of_statementsFrom hp (Prod.ext rfl h) with ⟨w, rfl, _⟩
  exact ⟨w, rfl⟩

theorem statementsFrom_exchange (hp : Reads p fun w stmt => Spells w (.stmt stmt))
    (hq : Reads q fun w stmt => Spells w (.stmt stmt)) (h : Follows Decided p q)
    {cause : SyntaxError.Cause} (hsame : r.head? = r'.head?) (hcause : cause ≠ .nestingTooDeep)
    (hn : (c ++ r').length < n)
    (hstop : (statementsFrom p m (c ++ r)).2 = some (.rejected (k ++ r) cause)) :
    (statementsFrom q n (c ++ r')).2 = some (.rejected (k ++ r') cause) := by
  induction m generalizing n c with
  | zero =>
      rw [statementsFrom, Option.some.injEq, Stop.rejected.injEq] at hstop
      exact absurd hstop.2.symm hcause
  | succ m ih =>
      have hhead := Follows.head?_append_eq (c := c) hsame
      cases hs : c ++ r with
      | nil =>
          rw [hs] at hstop
          cases hstop
      | cons t s =>
          cases hs' : c ++ r' with
          | nil =>
              rw [hs, hs'] at hhead
              cases hhead
          | cons u s' =>
              cases n with
              | zero => omega
              | succ n =>
                  rw [hs, stop_statementsFrom, ← hs] at hstop
                  rw [stop_statementsFrom, ← hs']
                  cases hline : line p (c ++ r) with
                  | error stop =>
                      rw [hline] at hstop
                      cases hstop
                      rw [h.line.rejected hsame hcause hline]
                  | ok result =>
                      rcases result with ⟨stmt, rest⟩
                      rw [hline] at hstop
                      rcases suffix_of_statementsFrom hp hstop with ⟨j, rfl⟩
                      rw [← List.append_assoc] at hline hstop
                      have hline' := h.line.ok hsame trivial hline
                      have hshorter := line_shrinks hq hline'
                      rw [hline']
                      exact ih (by omega) hstop

theorem numeral_of_statementsFrom (hq : Reads q fun w stmt => Spells w (.stmt stmt))
    (h : Follows Decided p q) {s : List Token} {fault : Numeral.Fault} (hn : s.length < n)
    (hstop : (statementsFrom p m s).2 = some (.numeral fault)) :
    (statementsFrom q n s).2 = some (.numeral fault) := by
  induction m generalizing n s with
  | zero => cases hstop
  | succ m ih =>
      cases s with
      | nil => cases hstop
      | cons t s =>
          cases n with
          | zero => omega
          | succ n =>
              rw [stop_statementsFrom] at hstop ⊢
              cases hline : line p (t :: s) with
              | error stop =>
                  rw [hline] at hstop
                  cases hstop
                  rw [h.line.numeral hline]
              | ok result =>
                  rcases result with ⟨stmt, rest⟩
                  rw [hline] at hstop
                  rw [← List.append_nil (t :: s), ← List.append_nil rest] at hline
                  have hline' := h.line.ok rfl trivial hline
                  rw [List.append_nil, List.append_nil] at hline'
                  have hshorter := line_shrinks hq hline'
                  rw [hline']
                  exact ih (by omega) hstop

/-- What stands behind the token at which a text is rejected does not matter. -/
theorem statements_exchange {limit limit' : Nat} (hlimit : limit ≤ limit')
    {cause : SyntaxError.Cause} (hsame : r.head? = r'.head?) (hcause : cause ≠ .nestingTooDeep)
    (hstop : (statements limit (c ++ r)).2 = some (.rejected r cause)) :
    (statements limit' (c ++ r')).2 = some (.rejected r' cause) := by
  rcases suffix_of_statementsFrom (.statement limit) hstop with ⟨j, hj⟩
  have hskip := Follows.dropWhile_exchange hsame hj.symm
  unfold statements at hstop ⊢
  rw [← hj] at hstop
  rw [hskip]
  refine statementsFrom_exchange (k := []) (.statement limit) (.statement limit')
    (.statement hlimit) hsame hcause ?_ hstop
  rw [← hskip]
  exact Nat.lt_succ_of_le (List.dropWhile_sublist _).length_le

theorem statements_numeral {limit limit' : Nat} (hlimit : limit ≤ limit') {s : List Token}
    {fault : Numeral.Fault} (hstop : (statements limit s).2 = some (.numeral fault)) :
    (statements limit' s).2 = some (.numeral fault) :=
  numeral_of_statementsFrom (.statement limit') (.statement hlimit)
    (Nat.lt_succ_of_le (List.dropWhile_sublist _).length_le) hstop

end Programs
end Parser
end TypedAnt
