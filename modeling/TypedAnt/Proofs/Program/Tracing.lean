import TypedAnt.Proofs.Program.Cursor
import TypedAnt.Proofs.Program.Lookahead

/-!
# The cursor traces the tokens that are left

The tokens that are left at a cursor are those between it and the first end-of-file token.  With
them in view, a parser with a cursor does the same as the one that works on the tokens
that are left.  The cursor never passes the end-of-file token meanwhile, and a
loop gets its next round only further on.
-/

namespace TypedAnt
namespace Cursor

open TypedAnt.Parser (Parse Stop)

/-- A list of tokens with its first end-of-file token told apart. -/
structure Tape where
  front : List Token
  eof : Token
  behind : List Token
  noEof_front : NoEof front
  kind_eof : eof.kind = .eof

namespace Tape

variable {tape : Tape} {k : Walk}

def tokens (tape : Tape) : List Token :=
  tape.front ++ tape.eof :: tape.behind

def left (tape : Tape) (k : Walk) : List Token :=
  tape.front.drop k.position

/-- The cursor stands on a token up to the first end-of-file token. -/
def Holds (tape : Tape) (k : Walk) : Prop :=
  k.position ≤ tape.front.length

theorem length_left (tape : Tape) (k : Walk) :
    (tape.left k).length = tape.front.length - k.position :=
  List.length_drop

theorem kind_of_left {t : Token} (h : t ∈ tape.left k) : t.kind ≠ .eof :=
  tape.noEof_front t (List.mem_of_mem_drop h)

theorem position_lt_of_left {t : Token} {rest : List Token} (h : tape.left k = t :: rest) :
    k.position < tape.front.length := by
  have hlength := congrArg List.length h
  rw [length_left, List.length_cons] at hlength
  omega

theorem position_lt_of_shorter {k' : Walk} (h : (tape.left k').length < (tape.left k).length) :
    k.position < k'.position := by
  rw [length_left, length_left] at h
  omega

theorem getElem?_tokens (hk : tape.Holds k) :
    tape.tokens[k.position]? = some ((tape.left k).headD tape.eof) := by
  unfold tokens left Holds at *
  rw [List.headD_eq_head?_getD, List.head?_drop]
  rcases Nat.lt_or_eq_of_le hk with hlt | heq
  · rw [List.getElem?_append_left hlt, List.getElem?_eq_getElem hlt]
    rfl
  · rw [heq, List.getElem?_append_right (Nat.le_refl _)]
    simp

end Tape

/-- From one place to a later one, the cursor kept to the tokens up to the end-of-file token. -/
structure Inside (tape : Tape) (k k' : Walk) : Prop where
  holds : tape.Holds k'
  trail : ∀ p ∈ k'.trail, p ∈ k.trail ∨ p ≤ tape.front.length

/-- The cursor did so while a statement was read, so that no other was completed. -/
structure Stays (tape : Tape) (k k' : Walk) : Prop extends Inside tape k k' where
  statements : k'.statements = k.statements

section Staying

variable {tape : Tape} {k k' k'' : Walk}

theorem Inside.trans (h : Inside tape k k') (h' : Inside tape k' k'') : Inside tape k k'' := by
  refine ⟨h'.holds, ?_⟩
  intro p hp
  rcases h'.trail p hp with hp | hp
  · exact h.trail p hp
  · exact Or.inr hp

theorem Stays.refl (hk : tape.Holds k) : Stays tape k k :=
  ⟨⟨hk, fun _ hp => Or.inl hp⟩, rfl⟩

theorem Stays.trans (h : Stays tape k k') (h' : Stays tape k' k'') : Stays tape k k'' :=
  ⟨h.toInside.trans h'.toInside, h'.statements.trans h.statements⟩

theorem Stays.move {position : Nat} (h : position ≤ tape.front.length) :
    Stays tape k { k with position := position, trail := position :: k.trail } := by
  refine ⟨⟨h, ?_⟩, rfl⟩
  intro p hp
  rcases List.mem_cons.mp hp with rfl | hp
  · exact Or.inr h
  · exact Or.inl hp

end Staying

/-!
# Agreement
-/

section Agreement

variable {α β : Type} {tape : Tape} {k k' : Walk}

/-- The same result with the tokens left at the cursor, or the same failure. -/
inductive Agree (tape : Tape) (k : Walk) :
    Except Stop (α × List Token) → EStateM.Result Halt Walk α → Prop where
  | ok {x : α} {k' : Walk} : Stays tape k k' → Agree tape k (.ok (x, tape.left k')) (.ok x k')
  | stopped {stop : Stop} {k' : Walk} : Stays tape k k' →
      Agree tape k (.error stop) (.error (.failed (stop.failure tape.eof)) k')

/-- Wherever the cursor may stand, `m` does there what `p` does with the tokens that are left. -/
def Traces (tape : Tape) (m : Machine α) (p : Parse α) : Prop :=
  ∀ k, tape.Holds k → Agree tape k (p (tape.left k)) (m tape.tokens k)

theorem Agree.trans {r : Except Stop (α × List Token)} {result : EStateM.Result Halt Walk α}
    (hstays : Stays tape k k') (h : Agree tape k' r result) : Agree tape k r result := by
  cases h with
  | ok h => exact .ok (hstays.trans h)
  | stopped h => exact .stopped (hstays.trans h)

theorem bind_of_ok {m : Machine α} {g : α → Machine β} {tokens : List Token} {x : α}
    (h : m tokens k = .ok x k') : (m >>= g) tokens k = g x tokens k' := by
  change EStateM.bind (m tokens) (fun x => g x tokens) k = g x tokens k'
  unfold EStateM.bind
  rw [h]

theorem bind_of_error {m : Machine α} {g : α → Machine β} {tokens : List Token} {h : Halt}
    (hm : m tokens k = .error h k') : (m >>= g) tokens k = .error h k' := by
  change EStateM.bind (m tokens) (fun x => g x tokens) k = .error h k'
  unfold EStateM.bind
  rw [hm]

end Agreement

namespace Traces

variable {α β : Type} {tape : Tape}

theorem pure (x : α) : Traces tape (pure x) (pure x) :=
  fun _ hk => .ok (.refl hk)

theorem of_ok {m : Machine α} {p : Parse α} {k : Walk} {x : α} {rest : List Token}
    (hm : Traces tape m p) (hk : tape.Holds k) (hp : p (tape.left k) = .ok (x, rest)) :
    ∃ k', m tape.tokens k = .ok x k' ∧ rest = tape.left k' ∧ Stays tape k k' := by
  have hagree := hm k hk
  generalize m tape.tokens k = result at hagree
  rw [hp] at hagree
  cases hagree with
  | ok hstays => exact ⟨_, rfl, rfl, hstays⟩

theorem of_error {m : Machine α} {p : Parse α} {k : Walk} {stop : Stop}
    (hm : Traces tape m p) (hk : tape.Holds k) (hp : p (tape.left k) = .error stop) :
    ∃ k', m tape.tokens k = .error (.failed (stop.failure tape.eof)) k' ∧ Stays tape k k' := by
  have hagree := hm k hk
  generalize m tape.tokens k = result at hagree
  rw [hp] at hagree
  cases hagree with
  | stopped hstays => exact ⟨_, rfl, hstays⟩

theorem bind {m : Machine α} {p : Parse α} {g : α → Machine β} {f : α → Parse β}
    (hm : Traces tape m p) (hg : ∀ x, Traces tape (g x) (f x)) :
    Traces tape (m >>= g) (p >>= f) := by
  intro k hk
  cases hp : p (tape.left k) with
  | error stop =>
      rcases hm.of_error hk hp with ⟨k', hrun, hstays⟩
      rw [Parser.bind_of_error hp, bind_of_error hrun]
      exact .stopped hstays
  | ok result =>
      rcases result with ⟨x, rest⟩
      rcases hm.of_ok hk hp with ⟨k', hrun, rfl, hstays⟩
      rw [Parser.bind_of_ok hp, bind_of_ok hrun]
      exact (hg x k' hstays.holds).trans hstays

theorem map {m : Machine α} {p : Parse α} (hm : Traces tape m p) (f : α → β) :
    Traces tape (m >>= fun x => Pure.pure (f x)) (p >>= fun x => Pure.pure (f x)) :=
  hm.bind fun x => pure (f x)

/-!
# Single tokens
-/

theorem current_run {k : Walk} (hk : tape.Holds k) :
    current tape.tokens k = .ok ((tape.left k).headD tape.eof) k := by
  unfold current
  rw [tape.getElem?_tokens hk]

theorem advance_run {k : Walk} {t : Token} {rest : List Token} (hk : tape.Holds k)
    (h : tape.left k = t :: rest) :
    ∃ k', advance tape.tokens k = .ok t k' ∧ rest = tape.left k' ∧ Stays tape k k' := by
  have hkind : t.kind ≠ .eof := tape.kind_of_left (k := k) (by simp [h])
  have hlt := tape.position_lt_of_left h
  refine ⟨{ k with position := k.position + 1, trail := (k.position + 1) :: k.trail }, ?_, ?_,
    .move hlt⟩
  · unfold advance
    rw [bind_of_ok (current_run hk), h, List.headD_cons, if_pos (by simpa using hkind)]
    rfl
  · unfold Tape.left at h ⊢
    dsimp only
    rw [← List.drop_drop, h, List.drop_succ_cons, List.drop_zero]

theorem reject (cause : SyntaxError.Cause) :
    Traces tape (reject cause : Machine α) (Parser.reject cause) := by
  intro k hk
  unfold Cursor.reject
  rw [bind_of_ok (current_run hk)]
  exact .stopped (.refl hk)

theorem unreadable (fault : Numeral.Fault) :
    Traces tape (halt (.failed (.numeral fault))) (Parser.unreadable fault) :=
  fun _ hk => .stopped (.refl hk)

theorem look {f : Token → α} {f' : Option Token → α}
    (hsome : ∀ t, t.kind ≠ .eof → f t = f' (some t)) (hnone : ∀ t, t.kind = .eof → f t = f' none) :
    Traces tape (look f) (Parser.look f') := by
  intro k hk
  have hvalue : f ((tape.left k).headD tape.eof) = f' (tape.left k).head? := by
    cases hleft : tape.left k with
    | nil => exact hnone _ tape.kind_eof
    | cons t rest => exact hsome t (tape.kind_of_left (k := k) (by simp [hleft]))
  unfold Cursor.look
  rw [bind_of_ok (current_run hk), Parser.look_run, hvalue]
  exact .ok (.refl hk)

theorem atOp (op : String) : Traces tape (atOp op) (Parser.atOp op) :=
  look (fun _ _ => rfl) fun t ht => by simp [Token.isOp, ht]

theorem atEnd : Traces tape atEnd (Parser.look Option.isNone) :=
  look (fun t ht => by simp [ht]) fun t ht => by simp [ht]

theorem accept {f : Token → Option α} (hf : ∀ t x, f t = some x → t.kind ≠ .eof) :
    Traces tape (accept f) (Parser.accept f) := by
  intro k hk
  unfold Cursor.accept
  rw [bind_of_ok (current_run hk)]
  rcases Parser.accept_run f (tape.left k) with ⟨t, x, rest, hleft, hx, hrun⟩ | ⟨hnone, hrun⟩
  · rcases advance_run hk hleft with ⟨k', hadvance, rfl, hstays⟩
    rw [hrun, hleft, List.headD_cons, hx]
    dsimp only
    rw [bind_of_ok hadvance]
    exact .ok hstays
  · have hcurrent : f ((tape.left k).headD tape.eof) = none := by
      cases hleft : tape.left k with
      | nil =>
          rw [Option.eq_none_iff_forall_ne_some]
          exact fun x hx => hf _ x hx tape.kind_eof
      | cons t rest => exact hnone t (by simp [hleft])
    rw [hrun, hcurrent]
    exact .ok (.refl hk)

theorem expect {p : Token → Bool} (hp : ∀ t, p t = true → t.kind ≠ .eof)
    (cause : SyntaxError.Cause) : Traces tape (expect p cause) (Parser.expect p cause) := by
  intro k hk
  unfold Cursor.expect
  rw [bind_of_ok (current_run hk)]
  rcases Parser.expect_run p cause (tape.left k) with ⟨t, rest, hleft, ht, hrun⟩ | ⟨hfalse, hrun⟩
  · rcases advance_run hk hleft with ⟨k', hadvance, rfl, hstays⟩
    rw [hrun, hleft, List.headD_cons, if_pos ht, hadvance]
    exact .ok hstays
  · have hcurrent : p ((tape.left k).headD tape.eof) = false := by
      cases hleft : tape.left k with
      | nil =>
          rw [Bool.eq_false_iff]
          exact fun ht => hp _ ht tape.kind_eof
      | cons t rest => exact hfalse t (by simp [hleft])
    rw [hrun, hcurrent]
    exact reject cause k hk

theorem acceptIf {f : Token → Bool} (hf : ∀ t, f t = true → t.kind ≠ .eof) :
    Traces tape (Cursor.accept (Option.guard f)) (Parser.accept (Option.guard f)) :=
  accept fun t _ hx => hf t (Option.guard_eq_some_iff.mp hx).2

theorem acceptOp (op : String) : Traces tape (acceptOp op) (Parser.acceptOp op) :=
  acceptIf fun _ => Token.ne_eof_of_isOp

theorem expectOp (op : String) : Traces tape (expectOp op) (Parser.expectOp op) :=
  expect (fun _ => Token.ne_eof_of_isOp) _

theorem identifier (cause : SyntaxError.Cause) :
    Traces tape (identifier cause) (Parser.identifier cause) :=
  expect (fun t ht => by grind) _

theorem optionalType (mark : String) :
    Traces tape (optionalType mark) (Parser.optionalType mark) := by
  apply (acceptOp mark).bind
  intro sign
  cases sign with
  | none => exact pure none
  | some _ => exact (identifier .expectedType).map some

/-!
# Loops
-/

section Loops

variable {σ : Type}

def again (once : σ → Parse (ForInStep σ)) (more : σ → Parse σ) (x : σ) : Parse σ := do
  match ← once x with
  | .done x => return x
  | .yield x => more x

theorem loopFrom_succ (round : σ → Machine (ForInStep σ)) (n : Nat) (x : σ)
    (tokens : List Token) (k : Walk) :
    loopFrom round (n + 1) x tokens k =
      match round x tokens k with
      | .error h k' => .error h k'
      | .ok (.done y) k' => .ok y k'
      | .ok (.yield y) k' =>
          if k.position < k'.position then loopFrom round n y tokens k' else .error .stuck k' := by
  have hstart : loopFrom round (n + 1) x tokens k =
      (round x >>= fun step => match step with
        | .done y => Pure.pure y
        | .yield y => position >>= fun p =>
            if k.position < p then loopFrom round n y else halt .stuck) tokens k := rfl
  rw [hstart]
  cases hrun : round x tokens k with
  | error h k' => rw [bind_of_error hrun]
  | ok step k' =>
      rw [bind_of_ok hrun]
      cases step with
      | done y => rfl
      | yield y =>
          change (if k.position < k'.position then loopFrom round n y else halt .stuck) tokens k' =
            if k.position < k'.position then loopFrom round n y tokens k' else halt .stuck tokens k'
          split <;> rfl

/-- A round that is followed by another one takes a token. -/
def Moves (once : σ → Parse (ForInStep σ)) : Prop :=
  ∀ x s y rest, once x s = .ok (.yield y, rest) → rest.length < s.length

theorem loop {round : σ → Machine (ForInStep σ)} {once : σ → Parse (ForInStep σ)}
    {p : σ → Parse σ} (hround : ∀ x, Traces tape (round x) (once x))
    (hrun : ∀ x s, p x s = again once p x s)
    (hmoves : Moves once) (x : σ) : Traces tape (loop round x) (p x) := by
  -- There are always more rounds than tokens left, because a round that goes on takes a token.
  have hfrom (n : Nat) : ∀ x k, tape.Holds k → (tape.left k).length < n →
      Agree tape k (p x (tape.left k)) (loopFrom round n x tape.tokens k) := by
    induction n with
    | zero =>
        intro x k _ hlength
        omega
    | succ n ih =>
        intro x k hk hlength
        rw [loopFrom_succ, hrun]
        cases honce : once x (tape.left k) with
        | error stop =>
            rcases (hround x).of_error hk honce with ⟨k', hresult, hstays⟩
            rw [again, Parser.bind_of_error honce, hresult]
            exact .stopped hstays
        | ok result =>
            rcases result with ⟨step, rest⟩
            rcases (hround x).of_ok hk honce with ⟨k', hresult, rfl, hstays⟩
            rw [again, Parser.bind_of_ok honce, hresult]
            cases step with
            | done y => exact .ok hstays
            | yield y =>
                have hshorter := hmoves x _ y _ honce
                dsimp only
                rw [if_pos (tape.position_lt_of_shorter hshorter)]
                exact (ih y k' hstays.holds (by omega)).trans hstays
  intro k hk
  apply hfrom _ x k hk
  have htokens : tape.front.length < tape.tokens.length := by
    simp [Tape.tokens]
  rw [tape.length_left]
  omega

theorem skipRound {m : Machine (Option Token)} {p : Parse (Option Token)} (h : Traces tape m p)
    (x : Unit) : Traces tape (skipRound m x) (skipRound p x) := by
  apply h.bind
  intro skipped
  cases skipped with
  | none => exact pure _
  | some _ => exact pure _

theorem again_skipRound (skipped : Parse (Option Token)) (more : Unit → Parse Unit) (x : Unit) :
    again (Cursor.skipRound skipped) more x =
      (skipped >>= fun found => if found.isSome then more () else Pure.pure ()) := by
  unfold again Cursor.skipRound
  rw [bind_assoc]
  congr
  funext found
  cases found with
  | none => rfl
  | some _ => rfl

theorem moves_skipRound (f : Token → Option Token) :
    Moves (Cursor.skipRound (Parser.accept f)) := by
  intro x s y rest hok
  rcases Parser.bind_eq_ok_iff.mp hok with ⟨found, s', hfound, hyield⟩
  cases found with
  | none => cases hyield
  | some t =>
      cases hyield
      exact Parser.accept_shrinks hfound

theorem skipWhile {f : Token → Bool} (hf : ∀ t, f t = true → t.kind ≠ .eof) :
    Traces tape (skipWhile f) fun s => .ok ((), s.dropWhile f) := by
  refine loop (p := fun _ s => .ok ((), s.dropWhile f)) (skipRound (acceptIf hf)) ?_
    (moves_skipRound _) ()
  intro x s
  rw [again_skipRound]
  rcases Parser.accept_run (Option.guard f) s with ⟨t, u, rest, rfl, hu, hrun⟩ | ⟨hnone, hrun⟩
  · rw [Parser.bind_of_ok hrun, List.dropWhile_cons_of_pos (Option.guard_eq_some_iff.mp hu).2]
    rfl
  · rw [Parser.bind_of_ok hrun]
    cases s with
    | nil => rfl
    | cons t s =>
        have ht : f t = false := by simpa [Option.guard] using hnone t rfl
        rw [List.dropWhile_cons_of_neg (by simp [ht])]
        rfl

theorem skipSeparators : Traces tape skipSeparators Parser.skipSeparators :=
  skipWhile fun t ht => by grind

theorem endsStatement :
    Traces tape (Cursor.look endsStatement) (Parser.look Parser.endsStatement) :=
  look (fun t ht => by simp [Cursor.endsStatement, Parser.endsStatement, beq_false_of_ne ht])
    fun t ht => by simp [Cursor.endsStatement, Parser.endsStatement, ht]

theorem lineEnd : Traces tape lineEnd Parser.lineEnd := by
  apply endsStatement.bind
  intro ends
  cases ends with
  | true => exact skipSeparators
  | false => exact reject .expectedEnd

theorem itemRound {item : Machine α} {item' : Parse α} (h : Traces tape item item') (xs : List α) :
    Traces tape (itemRound (Cursor.atOp ")") (Cursor.acceptOp ",") item xs)
      (itemRound (Parser.atOp ")") (Parser.acceptOp ",") item' xs) := by
  apply (atOp ")").bind
  intro closed
  cases closed with
  | true => exact pure _
  | false =>
      apply h.bind
      intro x
      apply (acceptOp ",").bind
      intro comma
      cases comma with
      | none => exact pure _
      | some _ => exact pure _

theorem again_itemRound (item : Parse α) (more : Parse (List α)) (xs : List α) :
    again (Cursor.itemRound (Parser.atOp ")") (Parser.acceptOp ",") item)
        (fun ys => more >>= fun zs => Pure.pure (ys ++ zs)) xs =
      (Parser.itemThen item more >>= fun ys => Pure.pure (xs ++ ys)) := by
  unfold Parser.itemThen again Cursor.itemRound
  simp only [bind_assoc]
  congr
  funext closed
  cases closed with
  | true => simp
  | false =>
      simp only [Bool.false_eq_true, if_false, bind_assoc]
      congr
      funext x
      congr
      funext comma
      cases comma with
      | none => simp
      | some _ => simp only [bind_assoc, pure_bind, List.append_assoc, List.singleton_append]

theorem moves_itemRound {item : Parse α} (hitem : Parser.Shrinks item) :
    Moves (Cursor.itemRound (Parser.atOp ")") (Parser.acceptOp ",") item) := by
  intro xs s ys rest hok
  rcases Parser.bind_eq_ok_iff.mp hok with ⟨closed, s', hlook, hok⟩
  cases hlook
  split at hok
  · cases hok
  · rcases Parser.bind_eq_ok_iff.mp hok with ⟨x, s', hx, hok⟩
    rcases Parser.bind_eq_ok_iff.mp hok with ⟨comma, s'', hcomma, hyield⟩
    cases comma with
    | none => cases hyield
    | some _ =>
        cases hyield
        exact Nat.lt_of_lt_of_le (Parser.acceptOp_shrinks hcomma) (hitem s x s' hx)

theorem items {item : Machine α} {item' : Parse α} (h : Traces tape item item')
    (hitem' : Parser.Shrinks item') : Traces tape (items item) (Parser.items item') := by
  have hloop : Traces tape (Cursor.items item)
      (Parser.items item' >>= fun ys => Pure.pure ([] ++ ys)) := by
    refine loop (p := fun xs => Parser.items item' >>= fun ys => Pure.pure (xs ++ ys)) (itemRound h)
      ?_ (moves_itemRound hitem') []
    intro xs s
    rw [again_itemRound, Parser.bind_congr_left (Parser.items_run hitem' s)]
  simpa using hloop

theorem partRound {part : Expr → Machine (Option Expr)} {part' : Expr → Parse (Option Expr)}
    (h : ∀ e, Traces tape (part e) (part' e)) (e : Expr) :
    Traces tape (partRound part e) (partRound part' e) := by
  apply (h e).bind
  intro found
  cases found with
  | none => exact pure _
  | some _ => exact pure _

theorem again_partRound (part : Expr → Parse (Option Expr)) (more : Expr → Parse Expr) (e : Expr) :
    again (Cursor.partRound part) more e = Parser.partThen part more e := by
  unfold again Cursor.partRound Parser.partThen
  rw [bind_assoc]
  congr
  funext found
  cases found with
  | none => simp
  | some _ => simp

theorem moves_partRound {part : Expr → Parse (Option Expr)}
    (hpart : ∀ e, Parser.Advances (part e)) : Moves (Cursor.partRound part) := by
  intro e s e' rest hok
  rcases Parser.bind_eq_ok_iff.mp hok with ⟨found, s', hfound, hyield⟩
  cases found with
  | none => cases hyield
  | some _ =>
      cases hyield
      exact hpart e s _ rest hfound

theorem grow {part : Expr → Machine (Option Expr)} {part' : Expr → Parse (Option Expr)}
    (h : ∀ e, Traces tape (part e) (part' e)) (hpart' : ∀ e, Parser.Advances (part' e)) (e : Expr) :
    Traces tape (grow part e) (Parser.grow part' e) := by
  refine loop (partRound h) ?_ (moves_partRound hpart') e
  intro e s
  rw [again_partRound, Parser.grow_run hpart']

end Loops

/-!
# Expressions
-/

section Expressions

variable {m : Machine Expr} {p : Parse Expr}

theorem operation (h : Traces tape m p) (level : Nat) (left : Expr) :
    Traces tape (operation level m left) (Parser.operation level p left) := by
  have haccept : Traces tape (Cursor.accept (BinaryOp.atLevel? level))
      (Parser.accept (BinaryOp.atLevel? level)) :=
    accept fun _ _ hx => Token.ne_eof_of_isOp (BinaryOp.atLevel?_eq_some_iff.mp hx).2.1
  apply haccept.bind
  intro found
  cases found with
  | none => exact pure none
  | some found => exact h.map _

theorem chain (h : Traces tape m p) (hp : Parser.Shrinks p) (level : Nat) :
    Traces tape (chain level m) (Parser.chain level p) :=
  h.bind fun e => grow (operation h level) (Parser.advances_operation hp level) e

theorem binaryLevels (h : Traces tape m p) (hp : Parser.Reads p fun w e => Spells w (.expr 7 e))
    {count : Nat} (hcount : count ≤ 6) :
    Traces tape (binaryLevels m count) (Parser.binaryLevels p count) := by
  induction count with
  | zero => exact h
  | succ count ih => exact chain (ih (by omega)) (hp.binaryLevels (by omega)).shrinks _

theorem expressionOf (h : Traces tape m p)
    (hp : Parser.Reads p fun w e => Spells w (.expr 7 e)) :
    Traces tape (expressionOf m) (Parser.expressionOf p) :=
  binaryLevels h hp (Nat.le_refl 6)

theorem arguments (h : Traces tape m p) (hp : Parser.Shrinks p) (callee : Expr) :
    Traces tape (arguments m callee) (Parser.arguments p callee) := by
  apply (acceptOp "(").bind
  intro opening
  cases opening with
  | none => exact pure none
  | some t =>
      apply (items h hp).bind
      intro args
      exact (expectOp ")").map _

theorem ne_eof_of_atom? {t : Token} {atom : Except Numeral.Fault Expr}
    (h : Parser.atom? t = some atom) : t.kind ≠ .eof := by
  intro ht
  simp [Parser.atom?, Token.isKeyword, ht] at h

theorem primary (h : Traces tape m p) : Traces tape (primary m) (Parser.primary p) := by
  apply (accept fun _ _ hx => ne_eof_of_atom? hx).bind
  intro atom
  rcases atom with _ | fault | e
  · apply (acceptOp "(").bind
    intro opening
    cases opening with
    | none => exact reject _
    | some _ => exact h.bind fun e => (expectOp ")").map _
  · exact unreadable fault
  · exact pure e

theorem operand (h : Traces tape m p) (hp : Parser.Reads p fun w e => Spells w (.expr 1 e)) :
    Traces tape (operand m) (Parser.operand p) :=
  (primary h).bind fun e => grow (arguments h hp.shrinks) (Parser.advances_arguments hp) e

theorem unary (depth : Nat) : Traces tape (unary depth) (Parser.unary depth) := by
  induction depth with
  | zero => exact reject .nestingTooDeep
  | succ depth ih =>
      have haccept : Traces tape (Cursor.accept UnaryOp.atToken?)
          (Parser.accept UnaryOp.atToken?) :=
        accept fun _ _ hx => Token.ne_eof_of_isOp (UnaryOp.atToken?_eq_some_iff.mp hx).2
      apply haccept.bind
      intro found
      cases found with
      | none => exact operand (expressionOf ih (.unary depth)) (.expression depth)
      | some found => exact ih.map _

theorem expression (depth : Nat) : Traces tape (expression depth) (Parser.expression depth) :=
  expressionOf (unary depth) (.unary depth)

end Expressions

/-!
# Statements
-/

section Statements

variable {expr : Machine Expr} {expr' : Parse Expr} {stmt : Machine Stmt} {stmt' : Parse Stmt}
  {body : Machine (Block Stmt)} {body' : Parse (Block Stmt)}

theorem stmtRound (h : Traces tape stmt stmt') (brace : Token) (stmts : List Stmt) :
    Traces tape
      (stmtRound (Cursor.acceptOp "\x7d") Cursor.atEnd (Cursor.reject (.unclosedBlock brace.line))
        stmt Cursor.lineEnd stmts)
      (stmtRound (Parser.acceptOp "\x7d") (Parser.look Option.isNone)
        (Parser.reject (.unclosedBlock brace.line)) stmt' Parser.lineEnd stmts) := by
  apply (acceptOp "\x7d").bind
  intro closing
  cases closing with
  | some _ => exact pure _
  | none =>
      apply atEnd.bind
      intro ended
      cases ended with
      | true => exact reject _
      | false => exact h.bind fun stmt => lineEnd.map _

theorem again_stmtRound (brace : Token) (stmt' : Parse Stmt) (more : Parse (List Stmt))
    (stmts : List Stmt) :
    again (Cursor.stmtRound (Parser.acceptOp "\x7d") (Parser.look Option.isNone)
          (Parser.reject (.unclosedBlock brace.line)) stmt' Parser.lineEnd)
        (fun done => more >>= fun stmts => Pure.pure (done ++ stmts)) stmts =
      (Parser.statementThen stmt' brace more >>= fun rest => Pure.pure (stmts ++ rest)) := by
  unfold Parser.statementThen again Cursor.stmtRound
  simp only [bind_assoc]
  congr
  funext closing
  cases closing with
  | some _ => simp
  | none =>
      simp only [bind_assoc]
      congr
      funext ended
      cases ended with
      | true => rfl
      | false =>
          simp only [Bool.false_eq_true, if_false, bind_assoc, pure_bind, List.append_assoc,
            List.singleton_append]

theorem moves_stmtRound (brace : Token)
    (hstmt' : Parser.Reads stmt' fun w stmt => Spells w (.stmt stmt)) :
    Moves (Cursor.stmtRound (Parser.acceptOp "\x7d") (Parser.look Option.isNone)
      (Parser.reject (.unclosedBlock brace.line)) stmt' Parser.lineEnd) := by
  intro stmts s stmts' rest hok
  rcases Parser.bind_eq_ok_iff.mp hok with ⟨closing, s', hclosing, hok⟩
  cases closing with
  | some _ => cases hok
  | none =>
      cases Parser.eq_of_accept_none hclosing
      rcases Parser.bind_eq_ok_iff.mp hok with ⟨ended, _, hlook, hok⟩
      cases hlook
      split at hok
      · cases hok
      · rcases Parser.bind_eq_ok_iff.mp hok with ⟨x, s'', hx, hok⟩
        rcases Parser.bind_eq_ok_iff.mp hok with ⟨_, s3, hline, hyield⟩
        cases hyield
        have hshorter := Parser.statement_shrinks hstmt' hx
        have hline := Parser.lineEnd_shrinks _ _ _ hline
        omega

theorem blockRest (h : Traces tape stmt stmt')
    (hstmt' : Parser.Reads stmt' fun w stmt => Spells w (.stmt stmt)) (brace : Token) :
    Traces tape (blockRest stmt brace) (Parser.blockRest stmt' brace) := by
  have hloop : Traces tape (Cursor.blockRest stmt brace)
      (Parser.blockRest stmt' brace >>= fun rest => Pure.pure ([] ++ rest)) := by
    refine loop
      (p := fun stmts => Parser.blockRest stmt' brace >>= fun rest => Pure.pure (stmts ++ rest))
      (stmtRound h brace) ?_ (moves_stmtRound brace hstmt') []
    intro stmts s
    rw [again_stmtRound, Parser.bind_congr_left (Parser.blockRest_run hstmt' brace s)]
  simpa using hloop

theorem block (h : Traces tape stmt stmt')
    (hstmt' : Parser.Reads stmt' fun w stmt => Spells w (.stmt stmt)) :
    Traces tape (block stmt) (Parser.block stmt') := by
  apply (expectOp "\x7b").bind
  intro brace
  apply skipSeparators.bind
  intro _
  exact (blockRest h hstmt' brace).map _

theorem param : Traces tape param Parser.param := by
  apply (identifier _).bind
  intro name
  apply (expectOp ":").bind
  intro _
  exact (identifier _).map _

theorem letBinding (h : Traces tape expr expr') (t : Token) :
    Traces tape (letBinding expr t) (Parser.letBinding expr' t) := by
  apply (identifier _).bind
  intro name
  apply (optionalType ":").bind
  intro declared
  apply (expectOp "=").bind
  intro _
  exact h.map _

theorem funcDef (h : Traces tape body body') (t : Token) :
    Traces tape (funcDef body t) (Parser.funcDef body' t) := by
  apply (identifier _).bind
  intro name
  apply (expectOp "(").bind
  intro _
  apply (items param Parser.Reads.param.shrinks).bind
  intro params
  apply (expectOp ")").bind
  intro _
  apply (optionalType "->").bind
  intro returnType
  exact h.map _

/-- The way back from the newlines leads to where the cursor stood before them. -/
theorem acceptElse : Traces tape acceptElse Parser.acceptElse := by
  intro k hk
  have hskip : Traces tape (Cursor.skipWhile (·.kind == .newline))
      fun s => .ok ((), s.dropWhile (·.kind == .newline)) := skipWhile (by grind)
  rcases hskip.of_ok hk rfl with ⟨k', hskipped, hleft, hstays⟩
  have hstart : Cursor.acceptElse tape.tokens k =
      (Cursor.accept (Option.guard (·.isKeyword "else")) >>= orBack k.position) tape.tokens k' :=
    bind_of_ok hskipped
  have haccept : Traces tape (Cursor.accept (Option.guard (·.isKeyword "else")))
      (Parser.accept (Option.guard (·.isKeyword "else"))) :=
    acceptIf fun _ => Token.ne_eof_of_isKeyword
  rw [hstart]
  rcases Parser.acceptElse_run (tape.left k) with
    ⟨gap, keyword, rest, hs, hgap, hkeyword, hrun⟩ | ⟨hno, hrun⟩
  · have hk' : tape.left k' = keyword :: rest := by
      rw [← hleft, hs, List.dropWhile_append_of_pos (by simpa using hgap),
        List.dropWhile_cons_of_neg (by simp [(Token.isKeyword_iff.mp hkeyword).1])]
    have htaken : Parser.accept (Option.guard (·.isKeyword "else")) (tape.left k') =
        .ok (some keyword, rest) := by
      rw [hk']
      exact Parser.accept_of_some (Option.guard_eq_some_iff.mpr ⟨rfl, hkeyword⟩)
    rcases haccept.of_ok hstays.holds htaken with ⟨k'', hfound, rfl, hstays'⟩
    rw [hrun, bind_of_ok hfound]
    exact .ok (hstays.trans hstays')
  · have hnone : Parser.accept (Option.guard (·.isKeyword "else")) (tape.left k') =
        .ok (none, tape.left k') := by
      apply Parser.accept_of_none
      intro t ht
      rw [← hleft] at ht
      simp [Option.guard, hno t ht]
    rcases haccept.of_ok hstays.holds hnone with ⟨k'', hfound, -, hstays'⟩
    rw [hrun, bind_of_ok hfound]
    exact .ok ((hstays.trans hstays').trans (.move hk))

theorem otherwise (hbody : Traces tape body body') (hstmt : Traces tape stmt stmt') :
    Traces tape (otherwise body stmt) (Parser.otherwise body' stmt') := by
  have hlook : Traces tape (Cursor.look (·.isKeyword "if"))
      (Parser.look fun next => next.any (·.isKeyword "if")) :=
    look (fun _ _ => rfl) fun t ht => by simp [Token.isKeyword, ht]
  apply hlook.bind
  intro conditional
  cases conditional with
  | true => exact hstmt.map _
  | false => exact hbody.map _

theorem alternative (hbody : Traces tape body body')
    (hstmt : Traces tape stmt stmt') :
    Traces tape (alternative body stmt) (Parser.alternative body' stmt') := by
  apply acceptElse.bind
  intro found
  cases found with
  | true => exact (otherwise hbody hstmt).map some
  | false => exact pure none

theorem giveBack (h : Traces tape expr expr') (t : Token) :
    Traces tape (giveBack expr t) (Parser.giveBack expr' t) := by
  apply endsStatement.bind
  intro ends
  cases ends with
  | true => exact pure _
  | false => exact h.map _

theorem assignOrExpr (h : Traces tape expr expr') :
    Traces tape (assignOrExpr expr) (Parser.assignOrExpr expr') := by
  have hlook : Traces tape (Cursor.look (Option.guard (·.kind != .eof))) (Parser.look id) :=
    look (fun t ht => by simp [Option.guard, ht]) fun t ht => by simp [Option.guard, ht]
  apply hlook.bind
  intro next
  cases next with
  | none => exact reject _
  | some first =>
      apply h.bind
      intro e
      apply (atOp "=").bind
      intro assigned
      cases assigned with
      | false => exact pure _
      | true =>
          cases e with
          | name name => exact (expectOp "=").bind fun sign => h.map _
          | _ => exact reject _

theorem opened (hexpr : Traces tape expr expr') (hbody : Traces tape body body')
    (hstmt : Traces tape stmt stmt') (t : Token) (o : Opening) :
    Traces tape (opened expr body stmt t o)
      (Parser.opened expr' body' stmt' t o) := by
  cases o with
  | letBinding => exact letBinding hexpr t
  | funcDef => exact funcDef hbody t
  | conditional =>
      apply hexpr.bind
      intro condition
      apply hbody.bind
      intro thenBody
      exact (alternative hbody hstmt).map _
  | whileLoop => exact hexpr.bind fun condition => hbody.map _
  | giveBack => exact giveBack hexpr t

theorem statement (depth : Nat) : Traces tape (statement depth) (Parser.statement depth) := by
  induction depth with
  | zero => exact reject .nestingTooDeep
  | succ depth ih =>
      have haccept : Traces tape (Cursor.accept Opening.atToken?)
          (Parser.accept Opening.atToken?) :=
        accept fun _ _ hx => Token.ne_eof_of_isKeyword (Opening.atToken?_eq_some_iff.mp hx).2
      apply haccept.bind
      intro found
      cases found with
      | none => exact assignOrExpr (expression depth)
      | some found => exact opened (expression depth) (block ih (.statement depth)) ih _ _

end Statements
end Traces
end Cursor
end TypedAnt
