import TypedAnt.Proofs.Program.Rendering

/-!
# Parsing what has been rendered

A parser looks at the kinds and the values of tokens and at nothing else, so it does the same on
tokens that have been rendered, with a rendered result.  The one exception are integers that
can be read before they are rendered and not afterwards.  A parser stops at the first of them
among the tokens that it takes, and it takes every integer as a number, so that is all that
becomes of them.
-/

namespace TypedAnt
namespace Parser

variable {α β α' β' : Type} {s rest c c' : List Token}

/-- What becomes of a parse that takes the tokens `c` before it comes to an outcome. -/
def behind (c : List Token) (outcome : Except Stop α) : Except Stop α :=
  match c.findSome? Token.fault? with
  | some fault => .error (.numeral fault)
  | none => outcome

theorem behind_of_none (h : c.findSome? Token.fault? = none) (outcome : Except Stop α) :
    behind c outcome = outcome := by
  unfold behind
  rw [h]

theorem behind_of_some {fault : Numeral.Fault} (h : c.findSome? Token.fault? = some fault)
    (outcome : Except Stop α) : behind c outcome = .error (.numeral fault) := by
  unfold behind
  rw [h]

theorem behind_append (c c' : List Token) (outcome : Except Stop α) :
    behind (c ++ c') outcome = behind c (behind c' outcome) := by
  unfold behind
  rw [List.findSome?_append]
  cases c.findSome? Token.fault? <;> rfl

theorem bind_of_behind_ok {q : Parse α} {k : α → Parse β} {y : α}
    (h : q s = behind c (.ok (y, rest))) : (q >>= k) s = behind c (k y rest) := by
  cases hfault : c.findSome? Token.fault? with
  | some fault =>
      rw [behind_of_some hfault] at h ⊢
      exact bind_of_error h
  | none =>
      rw [behind_of_none hfault] at h ⊢
      exact bind_of_ok h

theorem bind_of_behind_error {q : Parse α} {k : α → Parse β} {stop : Stop}
    (h : q s = behind c (.error stop)) : (q >>= k) s = behind c (.error stop) := by
  cases hfault : c.findSome? Token.fault? with
  | some fault =>
      rw [behind_of_some hfault] at h ⊢
      exact bind_of_error h
  | none =>
      rw [behind_of_none hfault] at h ⊢
      exact bind_of_error h

def Readable (c : List Token) : Prop :=
  c.findSome? Token.fault? = none

theorem readable_of_ne (h : ∀ t ∈ c, t.kind ≠ .int) : Readable c := by
  apply List.findSome?_eq_none_iff.mpr
  intro t ht
  exact Token.fault?_of_ne (h t ht)

theorem Readable.append (h : Readable c) (h' : Readable c') : Readable (c ++ c') := by
  unfold Readable
  rw [List.findSome?_append, h, h']
  rfl

/-- A block that is not closed is one that was opened by one of the tokens. -/
def Opened (opened : Int → Prop) (c : List Token) (cause : SyntaxError.Cause) : Prop :=
  ∀ n, cause = .unclosedBlock n →
    opened n ∨ ∃ brace ∈ c, brace.isOp "\x7b" = true ∧ brace.line = n

/--
On rendered tokens the parser `q` does what `p` does on the tokens themselves.  The lines in
`opened` are those of braces that were opened before.
-/
structure Renders (r : Rendering) (opened : Int → Prop) (g : α → β) (p : Parse α) (q : Parse β) :
    Prop where
  ok {s rest : List Token} {x : α} : p s = .ok (x, rest) →
    ∃ c, s = c ++ rest ∧ Readable c ∧
      q (s.map r.token) = behind (c.map r.token) (.ok (g x, rest.map r.token))
  rejected {s rest : List Token} {cause : SyntaxError.Cause} :
    p s = .error (.rejected rest cause) →
    ∃ c, s = c ++ rest ∧ Readable c ∧ Opened opened c cause ∧
      q (s.map r.token) =
        behind (c.map r.token) (.error (.rejected (rest.map r.token) (r.cause cause)))
  numeral {s : List Token} {fault : Numeral.Fault} : p s = .error (.numeral fault) →
    ∃ c t rest, s = c ++ t :: rest ∧ Readable c ∧ atom? t = some (.error fault) ∧
      q (s.map r.token) = behind (c.map r.token) (.error (.numeral fault))

namespace Renders

variable {r : Rendering} {opened : Int → Prop} {g : α → β}

/-!
# Parsers in sequence
-/

theorem pure {x : α} {y : β} (h : y = g x) : Renders r opened g (pure x) (pure y) where
  ok hok := by
    cases hok
    exact ⟨[], rfl, rfl, by rw [h]; rfl⟩
  rejected hstop := by cases hstop
  numeral hstop := by cases hstop

theorem reject {cause : SyntaxError.Cause} (h : ∀ n, cause ≠ .unclosedBlock n) :
    Renders r opened g (reject cause) (reject cause) where
  ok hok := by cases hok
  rejected hstop := by
    cases hstop
    refine ⟨[], rfl, rfl, fun n hn => absurd hn (h n), ?_⟩
    have hsame : r.cause cause = cause := by
      cases cause with
      | unclosedBlock n => exact absurd rfl (h n)
      | _ => rfl
    rw [hsame]
    rfl
  numeral hstop := by cases hstop

theorem unclosed {n : Int} (h : opened n) :
    Renders r opened g (Parser.reject (.unclosedBlock n))
      (Parser.reject (.unclosedBlock (r.line n))) where
  ok hok := by cases hok
  rejected hstop := by
    cases hstop
    refine ⟨[], rfl, rfl, ?_, rfl⟩
    intro m hm
    cases hm
    exact Or.inl h
  numeral hstop := by cases hstop

theorem bindOpening {p : Parse α} {q : Parse β} {f : α → Parse α'} {k : β → Parse β'} {h : α' → β'}
    {opened' : α → Int → Prop} (hp : Renders r opened g p q)
    (hf : ∀ x, Renders r (opened' x) h (f x) (k (g x)))
    (htaken : ∀ c rest x, p (c ++ rest) = .ok (x, rest) → ∀ n, opened' x n →
      opened n ∨ ∃ brace ∈ c, brace.isOp "\x7b" = true ∧ brace.line = n) :
    Renders r opened h (p >>= f) (q >>= k) where
  ok hok := by
    rcases bind_eq_ok_iff.mp hok with ⟨x, s', hx, hy⟩
    rcases hp.ok hx with ⟨c, rfl, hc, hq⟩
    rcases (hf x).ok hy with ⟨c', rfl, hc', hk⟩
    refine ⟨c ++ c', (List.append_assoc ..).symm, hc.append hc', ?_⟩
    rw [bind_of_behind_ok hq, hk, List.map_append, behind_append]
  rejected hstop := by
    rcases bind_eq_error_iff.mp hstop with hfirst | ⟨x, s', hx, hsecond⟩
    · rcases hp.rejected hfirst with ⟨c, rfl, hc, hopened, hq⟩
      exact ⟨c, rfl, hc, hopened, bind_of_behind_error hq⟩
    · rcases hp.ok hx with ⟨c, rfl, hc, hq⟩
      rcases (hf x).rejected hsecond with ⟨c', rfl, hc', hopened, hk⟩
      refine ⟨c ++ c', (List.append_assoc ..).symm, hc.append hc', ?_, ?_⟩
      · intro n hn
        rcases hopened n hn with hbefore | ⟨brace, hbrace, hfound⟩
        · rcases htaken c _ x hx n hbefore with hbefore | ⟨brace, hbrace, hfound⟩
          · exact Or.inl hbefore
          · exact Or.inr ⟨brace, List.mem_append_left c' hbrace, hfound⟩
        · exact Or.inr ⟨brace, List.mem_append_right c hbrace, hfound⟩
      · rw [bind_of_behind_ok hq, hk, List.map_append, behind_append]
  numeral hstop := by
    rcases bind_eq_error_iff.mp hstop with hfirst | ⟨x, s', hx, hsecond⟩
    · rcases hp.numeral hfirst with ⟨c, t, rest, rfl, hc, ht, hq⟩
      exact ⟨c, t, rest, rfl, hc, ht, bind_of_behind_error hq⟩
    · rcases hp.ok hx with ⟨c, rfl, hc, hq⟩
      rcases (hf x).numeral hsecond with ⟨c', t, rest, rfl, hc', ht, hk⟩
      refine ⟨c ++ c', t, rest, (List.append_assoc ..).symm, hc.append hc', ht, ?_⟩
      rw [bind_of_behind_ok hq, hk, List.map_append, behind_append]

theorem bind {p : Parse α} {q : Parse β} {f : α → Parse α'} {k : β → Parse β'} {h : α' → β'}
    (hp : Renders r opened g p q) (hf : ∀ x, Renders r opened h (f x) (k (g x))) :
    Renders r opened h (p >>= f) (q >>= k) :=
  hp.bindOpening hf fun _ _ _ _ _ => Or.inl

theorem map {p : Parse α} {q : Parse β} (hp : Renders r opened g p q) {h : α' → β'}
    {f : α → α'} {k : β → β'} (hf : ∀ x, k (g x) = h (f x)) :
    Renders r opened h (p >>= fun x => Pure.pure (f x)) (q >>= fun y => Pure.pure (k y)) :=
  hp.bind fun x => pure (hf x)

theorem rounds {f : Nat → Parse α} {k : Nat → Parse β} (h : ∀ n, Renders r opened g (f n) (k n)) :
    Renders r opened g (do f (← get).length) (do k (← get).length) := by
  have hlength (s : List Token) : (do k (← get).length : Parse β) (s.map r.token) =
      k s.length (s.map r.token) := by
    rw [← List.length_map (f := r.token)]
    rfl
  constructor
  · intro s rest x hok
    rw [hlength]
    exact (h s.length).ok hok
  · intro s rest cause hstop
    rw [hlength]
    exact (h s.length).rejected hstop
  · intro s fault hstop
    rw [hlength]
    exact (h s.length).numeral hstop

/-!
# Single tokens
-/

theorem readable_map_of_ne (h : ∀ t ∈ c, t.kind ≠ .int) : Readable (c.map r.token) := by
  apply readable_of_ne
  intro u hu
  rcases List.mem_map.mp hu with ⟨t, ht, rfl⟩
  rw [r.kind_eq]
  exact h t ht

theorem readable_single {t : Token} (h : t.kind ≠ .int) : Readable [t] :=
  readable_of_ne (by simpa using h)

theorem behind_single {t : Token} (h : t.kind ≠ .int) (outcome : Except Stop α) :
    behind ([t].map r.token) outcome = outcome :=
  behind_of_none (readable_map_of_ne (by simpa using h)) outcome

theorem forall_head?_map {P : Token → Prop} (h : ∀ t ∈ s.head?, P (r.token t)) :
    ∀ u ∈ (s.map r.token).head?, P u := by
  intro u hu
  cases s with
  | nil => cases hu
  | cons t s =>
      cases hu
      exact h t rfl

theorem look {f : Option Token → α} {k : Option Token → β} (h : ∀ o, k (o.map r.token) = g (f o)) :
    Renders r opened g (look f) (look k) where
  ok {s rest x} hok := by
    cases hok
    refine ⟨[], rfl, rfl, ?_⟩
    rw [look_run, List.head?_map, h]
    rfl
  rejected hstop := by cases hstop
  numeral hstop := by cases hstop

theorem atOp (op : String) : Renders r opened id (atOp op) (atOp op) := by
  apply look
  intro o
  cases o with
  | none => rfl
  | some t => exact r.isOp_token t op

theorem accept {f : Token → Option α} {k : Token → Option β}
    (h : ∀ t, k (r.token t) = (f t).map g) (hkind : ∀ t x, f t = some x → t.kind ≠ .int) :
    Renders r opened (Option.map g) (accept f) (accept k) where
  ok {s rest x} hok := by
    rcases accept_run f s with ⟨t, y, s', rfl, hy, hrun⟩ | ⟨hnone, hrun⟩
    · cases hrun.symm.trans hok
      refine ⟨[t], rfl, readable_single (hkind t y hy), ?_⟩
      have hk : k (r.token t) = some (g y) := by rw [h, hy, Option.map_some]
      rw [behind_single (hkind t y hy)]
      exact accept_of_some hk
    · cases hrun.symm.trans hok
      refine ⟨[], rfl, rfl, ?_⟩
      rw [accept_of_none]
      · rfl
      · apply forall_head?_map
        intro t ht
        rw [h, hnone t ht, Option.map_none]
  rejected {s rest cause} hstop := by
    rcases accept_run f s with ⟨_, _, _, _, _, hrun⟩ | ⟨_, hrun⟩
    · cases hrun.symm.trans hstop
    · cases hrun.symm.trans hstop
  numeral {s fault} hstop := by
    rcases accept_run f s with ⟨_, _, _, _, _, hrun⟩ | ⟨_, hrun⟩
    · cases hrun.symm.trans hstop
    · cases hrun.symm.trans hstop

theorem ne_int_of_isOp {t : Token} {op : String} (h : t.isOp op = true) : t.kind ≠ .int := by
  rw [(Token.isOp_iff.mp h).1]
  decide

theorem ne_int_of_isKeyword {t : Token} {word : String} (h : t.isKeyword word = true) :
    t.kind ≠ .int := by
  rw [(Token.isKeyword_iff.mp h).1]
  decide

theorem acceptOp (op : String) :
    Renders r opened (Option.map r.token) (acceptOp op) (acceptOp op) := by
  apply accept
  · intro t
    simp only [Option.guard, r.isOp_token]
    split <;> rfl
  · intro t u hu
    exact ne_int_of_isOp (guard_isOp_eq_some_iff.mp hu).2

theorem expect {p : Token → Bool} {cause : SyntaxError.Cause} (h : ∀ t, p (r.token t) = p t)
    (hkind : ∀ t, p t = true → t.kind ≠ .int) (hcause : ∀ n, cause ≠ .unclosedBlock n) :
    Renders r opened r.token (expect p cause) (expect p cause) where
  ok {s rest x} hok := by
    rcases expect_run p cause s with ⟨t, _, rfl, ht, hrun⟩ | ⟨_, hrun⟩
    · have heq := hrun.symm.trans hok
      rw [Except.ok.injEq, Prod.mk.injEq] at heq
      rcases heq with ⟨rfl, rfl⟩
      refine ⟨[t], rfl, readable_single (hkind t ht), ?_⟩
      rw [behind_single (hkind t ht)]
      exact expect_of_true ((h t).trans ht)
    · cases hrun.symm.trans hok
  rejected {s rest cause'} hstop := by
    rcases expect_run p cause s with ⟨_, _, _, _, hrun⟩ | ⟨hfalse, hrun⟩
    · cases hrun.symm.trans hstop
    · have hrejected : Parser.reject (α := Token) cause s = .error (.rejected rest cause') :=
        hrun.symm.trans hstop
      rcases (reject (g := r.token) hcause).rejected hrejected with ⟨c, hs, hc, hopened, hq⟩
      refine ⟨c, hs, hc, hopened, ?_⟩
      rw [← hq]
      apply expect_of_false
      apply forall_head?_map
      intro t ht
      exact (h t).trans (hfalse t ht)
  numeral {s fault} hstop := by
    rcases expect_run p cause s with ⟨_, _, _, _, hrun⟩ | ⟨_, hrun⟩
    · cases hrun.symm.trans hstop
    · cases hrun.symm.trans hstop

theorem expectOp (op : String) : Renders r opened r.token (expectOp op) (expectOp op) :=
  expect (fun t => r.isOp_token t op) (fun _ => ne_int_of_isOp) (by simp)

theorem identifier {cause : SyntaxError.Cause} (hcause : ∀ n, cause ≠ .unclosedBlock n) :
    Renders r opened r.token (identifier cause) (identifier cause) := by
  apply expect _ _ hcause
  · intro t
    rw [r.kind_eq]
  · intro t ht
    rw [beq_iff_eq.mp ht]
    decide

theorem optionalType (mark : String) :
    Renders r opened (Option.map r.token) (optionalType mark) (optionalType mark) := by
  apply (acceptOp mark).bind
  intro sign
  cases sign with
  | none => exact pure rfl
  | some sign => exact (identifier (by simp)).map fun _ => rfl

theorem skipSeparators : Renders r opened id skipSeparators skipSeparators where
  ok {s rest x} hok := by
    cases hok
    have hkind : ∀ t ∈ s.takeWhile Token.isSeparator, t.kind ≠ .int := by
      intro t ht hkind
      have hsep := separators_takeWhile s t ht
      simp [Token.isSeparator, Token.isOp, hkind] at hsep
    refine ⟨s.takeWhile Token.isSeparator, List.takeWhile_append_dropWhile.symm,
      readable_of_ne hkind, ?_⟩
    have hmap : (s.map r.token).dropWhile Token.isSeparator =
        (s.dropWhile Token.isSeparator).map r.token := by
      rw [List.dropWhile_map]
      congr 2
      funext t
      exact r.isSeparator_token t
    rw [behind_of_none (readable_map_of_ne hkind)]
    exact congrArg (fun rest => Except.ok ((), rest)) hmap
  rejected hstop := by cases hstop
  numeral hstop := by cases hstop

theorem endsStatement_map (o : Option Token) :
    endsStatement (o.map r.token) = endsStatement o := by
  cases o with
  | none => rfl
  | some t => simp [endsStatement]

theorem lineEnd : Renders r opened id lineEnd lineEnd := by
  apply (look (g := id) endsStatement_map).bind
  intro ends
  cases ends with
  | false => exact reject (by simp)
  | true => exact skipSeparators

/-!
# Lists
-/

theorem itemsFrom {item : Parse α} {item' : Parse β} (h : Renders r opened g item item')
    (rounds : Nat) :
    Renders r opened (List.map g) (itemsFrom item rounds) (itemsFrom item' rounds) := by
  induction rounds with
  | zero => exact reject (by simp)
  | succ rounds ih =>
      apply (atOp ")").bind
      intro closed
      cases closed with
      | true => exact pure rfl
      | false =>
          apply h.bind
          intro x
          apply (acceptOp ",").bind
          intro comma
          cases comma with
          | none => exact pure rfl
          | some _ => exact ih.map fun _ => rfl

theorem items {item : Parse α} {item' : Parse β} (h : Renders r opened g item item') :
    Renders r opened (List.map g) (items item) (items item') :=
  rounds fun n => h.itemsFrom (n + 1)

/-!
# Expressions
-/

section Expressions

variable {p p' : Parse Expr}

theorem growFrom {part part' : Expr → Parse (Option Expr)}
    (h : ∀ e, Renders r opened (Option.map r.expr) (part e) (part' (r.expr e))) (rounds : Nat)
    (e : Expr) : Renders r opened r.expr (growFrom part rounds e) (growFrom part' rounds (r.expr e)) := by
  induction rounds generalizing e with
  | zero => exact reject (by simp)
  | succ rounds ih =>
      apply (h e).bind
      intro o
      cases o with
      | none => exact pure rfl
      | some e' => exact ih e'

theorem grow {part part' : Expr → Parse (Option Expr)}
    (h : ∀ e, Renders r opened (Option.map r.expr) (part e) (part' (r.expr e))) (e : Expr) :
    Renders r opened r.expr (grow part e) (grow part' (r.expr e)) :=
  rounds fun n => growFrom h (n + 1) e

theorem operation (h : Renders r opened r.expr p p') (level : Nat) (left : Expr) :
    Renders r opened (Option.map r.expr) (operation level p left)
      (operation level p' (r.expr left)) := by
  refine (accept (r.binaryOp_token level) ?_).bind ?_
  · intro t x hx
    exact ne_int_of_isOp (BinaryOp.atLevel?_eq_some_iff.mp hx).2.1
  · intro found
    cases found with
    | none => exact pure rfl
    | some found => exact h.map fun _ => rfl

theorem chain (h : Renders r opened r.expr p p') (level : Nat) :
    Renders r opened r.expr (chain level p) (chain level p') :=
  h.bind fun e => grow (operation h level) e

theorem binaryLevels (h : Renders r opened r.expr p p') (count : Nat) :
    Renders r opened r.expr (binaryLevels p count) (binaryLevels p' count) := by
  induction count with
  | zero => exact h
  | succ count ih => exact chain ih (6 - count)

theorem arguments (h : Renders r opened r.expr p p') (callee : Expr) :
    Renders r opened (Option.map r.expr) (arguments p callee)
      (arguments p' (r.expr callee)) := by
  apply (acceptOp "(").bind
  intro sign
  cases sign with
  | none => exact pure rfl
  | some t =>
      apply h.items.bind
      intro args
      apply (expectOp ")").map
      intro _
      simp [Rendering.expr]

theorem atom?_of_int {t : Token} (h : t.kind = .int) :
    atom? t = some ((Numeral.readInt t.value).map (.intLit t)) := by
  unfold atom?
  rw [h]

theorem fault?_of_atom {t : Token} {fault : Numeral.Fault} (hkind : t.kind = .int)
    (h : atom? t = some (.error fault)) : t.fault? = some fault := by
  rw [atom?_of_int hkind] at h
  cases hread : Numeral.readInt t.value with
  | ok n =>
      rw [hread] at h
      cases h
  | error fault' =>
      rw [hread] at h
      cases h
      exact Token.fault?_of_error hkind hread

theorem fault?_of_atom_ok {t : Token} {e : Expr} (h : atom? t = some (.ok e)) :
    t.fault? = none := by
  by_cases hkind : t.kind = .int
  · rw [atom?_of_int hkind] at h
    cases hread : Numeral.readInt t.value with
    | ok n => exact Token.fault?_of_ok hread
    | error fault =>
        rw [hread] at h
        cases h
  · exact Token.fault?_of_ne hkind

/-- An atom is rendered as such unless it has become an integer that cannot be read. -/
theorem atom?_token (t : Token) :
    atom? (r.token t) =
      match (r.token t).fault? with
      | some fault => some (.error fault)
      | none => (atom? t).map (Except.map r.expr) := by
  have hkind := r.kind_eq t
  by_cases hint : t.kind = .int
  · rw [atom?_of_int hint, atom?_of_int (hkind.trans hint)]
    cases hread : Numeral.readInt (r.token t).value with
    | error fault => rw [Token.fault?_of_error (hkind.trans hint) hread]; rfl
    | ok n =>
        rw [Token.fault?_of_ok hread]
        cases hread' : Numeral.readInt t.value with
        | error fault =>
            have hfault := r.fault_eq t fault (Token.fault?_of_error hint hread')
            rw [Token.fault?_of_ok hread] at hfault
            cases hfault
        | ok n' =>
            have hnumber : r.number t = n := by
              unfold Rendering.number
              rw [hread]
            simp [Except.map, Rendering.expr, hnumber]
  · rw [Token.fault?_of_ne (by rw [hkind]; exact hint)]
    unfold atom?
    rw [hkind, r.value_eq t hint, r.isKeyword_token, r.isKeyword_token]
    cases hcase : t.kind with
    | int => exact absurd hcase hint
    | float => cases Numeral.readFloat t.value <;> rfl
    | string => rfl
    | ident => rfl
    | keyword => dsimp only; split <;> (try split) <;> rfl
    | op => dsimp only; split <;> (try split) <;> rfl
    | newline => dsimp only; split <;> (try split) <;> rfl
    | eof => dsimp only; split <;> (try split) <;> rfl

theorem atom?_token_of_error {t : Token} {fault : Numeral.Fault}
    (h : atom? t = some (.error fault)) : atom? (r.token t) = some (.error fault) := by
  rw [atom?_token]
  by_cases hint : t.kind = .int
  · rw [r.fault_eq t fault (fault?_of_atom hint h)]
  · rw [Token.fault?_of_ne (by rw [r.kind_eq]; exact hint), h]
    rfl

theorem atom?_token_of_none {t : Token} (h : atom? t = none) : atom? (r.token t) = none := by
  have hint : t.kind ≠ .int := by
    intro hint
    rw [atom?_of_int hint] at h
    cases h
  rw [atom?_token, Token.fault?_of_ne (by rw [r.kind_eq]; exact hint), h]
  rfl

def parenthesised (expression : Parse Expr) : Parse Expr := do
  match ← Parser.acceptOp "(" with
  | some _ => do
      let e ← expression
      let _ ← Parser.expectOp ")"
      return e
  | none => Parser.reject .expectedExpression

theorem primary_of_ok {t : Token} {e : Expr} (h : atom? t = some (.ok e)) :
    primary p (t :: s) = .ok (e, s) :=
  bind_of_ok (accept_of_some h)

theorem primary_of_error {t : Token} {fault : Numeral.Fault} (h : atom? t = some (.error fault)) :
    primary p (t :: s) = .error (.numeral fault) :=
  bind_of_ok (accept_of_some h)

theorem primary_of_none (h : ∀ t ∈ s.head?, atom? t = none) :
    primary p s = parenthesised p s :=
  bind_of_ok (accept_of_none h)

theorem renders_parenthesised (h : Renders r opened r.expr p p') :
    Renders r opened r.expr (parenthesised p) (parenthesised p') := by
  apply (acceptOp "(").bind
  intro sign
  cases sign with
  | none => exact reject (by simp)
  | some _ =>
      apply h.bind
      intro e
      exact (expectOp ")").map fun _ => rfl

theorem primary (h : Renders r opened r.expr p p') :
    Renders r opened r.expr (primary p) (primary p') := by
  have hother := renders_parenthesised h
  have himage {s : List Token} (hnone : ∀ t ∈ s.head?, atom? t = none) :
      Parser.primary p' (s.map r.token) = parenthesised p' (s.map r.token) :=
    primary_of_none (forall_head?_map fun t ht => atom?_token_of_none (hnone t ht))
  constructor
  · intro s rest x hok
    rcases accept_run atom? s with ⟨t, outcome, s, rfl, hatom, -⟩ | ⟨hnone, -⟩
    · cases outcome with
      | error fault => cases (primary_of_error hatom).symm.trans hok
      | ok e =>
          cases (primary_of_ok hatom).symm.trans hok
          refine ⟨[t], rfl, by simp [Readable, fault?_of_atom_ok hatom], ?_⟩
          have htoken := atom?_token (r := r) t
          rw [hatom] at htoken
          cases hfault : (r.token t).fault? with
          | none =>
              rw [hfault] at htoken
              rw [behind_of_none (by simp [hfault])]
              exact primary_of_ok htoken
          | some fault =>
              rw [hfault] at htoken
              have hfirst : ([t].map r.token).findSome? Token.fault? = some fault := by
                simp [hfault]
              rw [behind_of_some hfirst]
              exact primary_of_error htoken
    · rw [primary_of_none hnone] at hok
      rw [himage hnone]
      exact hother.ok hok
  · intro s rest cause hstop
    rcases accept_run atom? s with ⟨t, outcome, s, rfl, hatom, -⟩ | ⟨hnone, -⟩
    · cases outcome with
      | error fault => cases (primary_of_error hatom).symm.trans hstop
      | ok e => cases (primary_of_ok hatom).symm.trans hstop
    · rw [primary_of_none hnone] at hstop
      rw [himage hnone]
      exact hother.rejected hstop
  · intro s fault hstop
    rcases accept_run atom? s with ⟨t, outcome, s, rfl, hatom, -⟩ | ⟨hnone, -⟩
    · cases outcome with
      | ok e => cases (primary_of_ok hatom).symm.trans hstop
      | error fault =>
          cases (primary_of_error hatom).symm.trans hstop
          exact ⟨[], t, s, rfl, rfl, hatom, primary_of_error (atom?_token_of_error hatom)⟩
    · rw [primary_of_none hnone] at hstop
      rw [himage hnone]
      exact hother.numeral hstop

theorem operand (h : Renders r opened r.expr p p') :
    Renders r opened r.expr (operand p) (operand p') :=
  (primary h).bind fun e => grow (arguments h) e

theorem unary (depth : Nat) : Renders r opened r.expr (unary depth) (unary depth) := by
  induction depth with
  | zero => exact reject (by simp)
  | succ depth ih =>
      refine (accept r.unaryOp_token ?_).bind ?_
      · intro t x hx
        exact ne_int_of_isOp (UnaryOp.atToken?_eq_some_iff.mp hx).2
      · intro found
        cases found with
        | none => exact operand (binaryLevels ih 6)
        | some found => exact ih.map fun _ => rfl

theorem expression (depth : Nat) : Renders r opened r.expr (expression depth) (expression depth) :=
  binaryLevels (unary depth) 6

end Expressions

/-!
# Statements
-/

section Statements

variable {expression expression' : Parse Expr} {statement statement' : Parse Stmt}
  {body body' : Parse (Block Stmt)}

theorem blockRestFrom (h : Renders r opened r.stmt statement statement') {brace : Token}
    (hbrace : opened brace.line) (rounds : Nat) :
    Renders r opened (List.map r.stmt) (blockRestFrom statement brace rounds)
      (blockRestFrom statement' (r.token brace) rounds) := by
  induction rounds with
  | zero => exact reject (by simp)
  | succ rounds ih =>
      apply (acceptOp "\x7d").bind
      intro closing
      cases closing with
      | some _ => exact pure rfl
      | none =>
          apply (look (g := id) (by intro o; cases o <;> rfl)).bind
          intro ended
          cases ended with
          | true =>
              have hunclosed := unclosed (r := r) (g := List.map r.stmt) hbrace
              rw [← r.line_eq] at hunclosed
              exact hunclosed
          | false =>
              apply h.bind
              intro stmt
              apply lineEnd.bind
              intro _
              exact ih.map fun _ => rfl

theorem blockRest (h : Renders r opened r.stmt statement statement') {brace : Token}
    (hbrace : opened brace.line) :
    Renders r opened (List.map r.stmt) (blockRest statement brace)
      (blockRest statement' (r.token brace)) :=
  rounds fun n => blockRestFrom h hbrace (n + 1)

theorem block (h : ∀ brace : Token,
      Renders r (fun n => opened n ∨ n = brace.line) r.stmt statement statement') :
    Renders r opened r.block (block statement) (block statement') := by
  apply (expectOp "\x7b").bindOpening
  · intro brace
    apply skipSeparators.bind
    intro _
    apply (blockRest (h brace) (Or.inr rfl)).map
    intro statements
    simp [Rendering.block]
  · intro c rest brace hbrace n hn
    rcases hn with hbefore | rfl
    · exact Or.inl hbefore
    · rcases expect_run (·.isOp "\x7b") (.expectedOp "\x7b") (c ++ rest) with
        ⟨t, rest', htokens, hop, hrun⟩ | ⟨_, hrun⟩
      · have heq := hrun.symm.trans hbrace
        rw [Except.ok.injEq, Prod.mk.injEq] at heq
        rcases heq with ⟨rfl, rfl⟩
        have hc : c = [t] := List.append_cancel_right (htokens.trans (List.singleton_append).symm)
        exact Or.inr ⟨t, by rw [hc]; exact List.mem_singleton_self t, hop, rfl⟩
      · cases hrun.symm.trans hbrace

theorem param : Renders r opened r.param param param := by
  apply (identifier (by simp)).bind
  intro name
  apply (expectOp ":").bind
  intro _
  exact (identifier (by simp)).map fun _ => rfl

theorem letBinding (h : Renders r opened r.expr expression expression') (t : Token) :
    Renders r opened r.stmt (letBinding expression t) (letBinding expression' (r.token t)) := by
  apply (identifier (by simp)).bind
  intro name
  apply (optionalType ":").bind
  intro declared
  apply (expectOp "=").bind
  intro _
  exact h.map fun _ => rfl

theorem funcDef (h : Renders r opened r.block body body') (t : Token) :
    Renders r opened r.stmt (funcDef body t) (funcDef body' (r.token t)) := by
  apply (identifier (by simp)).bind
  intro name
  apply (expectOp "(").bind
  intro _
  apply param.items.bind
  intro params
  apply (expectOp ")").bind
  intro _
  apply (optionalType "->").bind
  intro returnType
  exact h.map fun _ => rfl

theorem noElse_map (h : NoElse s) : NoElse (s.map r.token) := by
  have hnewline : (fun t : Token => t.kind == .newline) ∘ r.token = fun t => t.kind == .newline := by
    funext t
    exact congrArg (· == TokenKind.newline) (r.kind_eq t)
  unfold NoElse
  rw [List.dropWhile_map, hnewline]
  apply forall_head?_map
  intro t ht
  rw [r.isKeyword_token]
  exact h t ht

theorem acceptElse : Renders r opened id acceptElse acceptElse where
  ok {s rest x} hok := by
    rcases acceptElse_run s with ⟨gap, keyword, rest', rfl, hgap, hkeyword, hrun⟩ | ⟨hnone, hrun⟩
    · cases hrun.symm.trans hok
      have hkind : ∀ t ∈ gap ++ [keyword], t.kind ≠ .int := by
        intro t ht
        rcases List.mem_append.mp ht with ht | ht
        · rw [hgap t ht]
          decide
        · rw [List.mem_singleton.mp ht]
          exact ne_int_of_isKeyword hkeyword
      refine ⟨gap ++ [keyword], by simp, readable_of_ne hkind, ?_⟩
      rw [behind_of_none (readable_map_of_ne hkind), List.map_append, List.map_cons]
      apply acceptElse_of_else
      · intro t ht
        rcases List.mem_map.mp ht with ⟨u, hu, rfl⟩
        rw [r.kind_eq]
        exact hgap u hu
      · rw [r.isKeyword_token]
        exact hkeyword
    · cases hrun.symm.trans hok
      refine ⟨[], rfl, rfl, ?_⟩
      exact acceptElse_of_noElse (noElse_map hnone)
  rejected {s rest cause} hstop := by
    rcases acceptElse_run s with ⟨_, _, _, _, _, _, hrun⟩ | ⟨_, hrun⟩
    · cases hrun.symm.trans hstop
    · cases hrun.symm.trans hstop
  numeral {s fault} hstop := by
    rcases acceptElse_run s with ⟨_, _, _, _, _, _, hrun⟩ | ⟨_, hrun⟩
    · cases hrun.symm.trans hstop
    · cases hrun.symm.trans hstop

theorem otherwise (hbody : Renders r opened r.block body body')
    (hstatement : Renders r opened r.stmt statement statement') :
    Renders r opened r.otherwise (otherwise body statement) (otherwise body' statement') := by
  apply (look (g := id) (by intro o; cases o <;> simp)).bind
  intro found
  cases found with
  | true => exact hstatement.map fun _ => rfl
  | false => exact hbody.map fun _ => rfl

theorem alternative (hbody : Renders r opened r.block body body')
    (hstatement : Renders r opened r.stmt statement statement') :
    Renders r opened r.alternative (alternative body statement) (alternative body' statement') := by
  apply acceptElse.bind
  intro found
  cases found with
  | true => exact (otherwise hbody hstatement).map fun _ => rfl
  | false => exact pure rfl

theorem conditional (hexpression : Renders r opened r.expr expression expression')
    (hbody : Renders r opened r.block body body')
    (hstatement : Renders r opened r.stmt statement statement') (t : Token) :
    Renders r opened r.stmt (conditional expression body statement t)
      (conditional expression' body' statement' (r.token t)) := by
  apply hexpression.bind
  intro condition
  apply hbody.bind
  intro thenBody
  exact (alternative hbody hstatement).map fun _ => rfl

theorem whileLoop (hexpression : Renders r opened r.expr expression expression')
    (hbody : Renders r opened r.block body body') (t : Token) :
    Renders r opened r.stmt (whileLoop expression body t)
      (whileLoop expression' body' (r.token t)) := by
  apply hexpression.bind
  intro condition
  exact hbody.map fun _ => rfl

theorem giveBack (h : Renders r opened r.expr expression expression') (t : Token) :
    Renders r opened r.stmt (giveBack expression t) (giveBack expression' (r.token t)) := by
  apply (look (g := id) endsStatement_map).bind
  intro ends
  cases ends with
  | true => exact pure rfl
  | false => exact h.map fun _ => rfl

theorem assignmentRest (h : Renders r opened r.expr expression expression') (first : Token)
    (e : Expr) :
    Renders r opened r.stmt (assignmentRest expression first e)
      (assignmentRest expression' (r.token first) (r.expr e)) := by
  apply (atOp "=").bind
  intro assigned
  cases assigned with
  | false => exact pure rfl
  | true =>
      cases e with
      | name t =>
          apply (expectOp "=").bind
          intro sign
          exact h.map fun _ => rfl
      | _ => exact reject (by simp)

theorem assignOrExpr (h : Renders r opened r.expr expression expression') :
    Renders r opened r.stmt (assignOrExpr expression) (assignOrExpr expression') := by
  apply (look (f := id) (k := id) (g := Option.map r.token) fun _ => rfl).bind
  intro first
  cases first with
  | none => exact reject (by simp)
  | some first => exact h.bind fun e => assignmentRest h first e

theorem openedBy (hexpression : Renders r opened r.expr expression expression')
    (hbody : Renders r opened r.block body body')
    (hstatement : Renders r opened r.stmt statement statement') (t : Token) (o : Opening) :
    Renders r opened r.stmt (Parser.opened expression body statement t o)
      (Parser.opened expression' body' statement' (r.token t) o) := by
  cases o with
  | letBinding => exact letBinding hexpression t
  | funcDef => exact funcDef hbody t
  | conditional => exact conditional hexpression hbody hstatement t
  | whileLoop => exact whileLoop hexpression hbody t
  | giveBack => exact giveBack hexpression t

end Statements

theorem statement (depth : Nat) (opened : Int → Prop) :
    Renders r opened r.stmt (statement depth) (statement depth) := by
  induction depth generalizing opened with
  | zero => exact reject (by simp)
  | succ depth ih =>
      refine (accept r.opening_token ?_).bind ?_
      · intro t x hx
        exact ne_int_of_isKeyword (Opening.atToken?_eq_some_iff.mp hx).2
      · intro found
        cases found with
        | none => exact assignOrExpr (expression depth)
        | some found => exact openedBy (expression depth) (block fun _ => ih _) (ih _) found.1 found.2

end Renders
end Parser
end TypedAnt
