import TypedAnt.Proofs.Program.ExpressionSoundness
import TypedAnt.Proofs.Program.Repetition

/-!
# Completeness of the parser of expressions

Every expression of the grammar is read, as long as the tokens after it do not go on with
it and there are as many levels of nesting as the expression has tokens.
-/

namespace TypedAnt
namespace Parser

/-!
# What may follow
-/

/-- The next token does not go on with an expression of the given level. -/
def Stops (level : Nat) (rest : List Token) : Prop :=
  ∀ t ∈ rest.head?, (level ≤ 8 → t.isOp "(" = false) ∧
    ∀ op : BinaryOp, t.isOp op.symbol = true → op.level < level

variable {t : Token} {rest : List Token}

theorem Stops.next {level : Nat} (h : Stops level rest) : Stops (level + 1) rest := by
  intro t ht
  rcases h t ht with ⟨hcall, hop⟩
  refine ⟨fun hlevel => hcall (by omega), ?_⟩
  intro op hsymbol
  exact Nat.lt_succ_of_lt (hop op hsymbol)

theorem stops_of_high {level : Nat} (h : 9 ≤ level) : Stops level rest := by
  intro t _
  refine ⟨by omega, ?_⟩
  intro op _
  have hbounds := op.level_bounds
  omega

theorem stops_of_isOp {level : Nat} {sign : String} (h : t.isOp sign = true)
    (hsign : sign ∈ [")", "\x7b", "\x7d", ",", ":", ";", "=", "->", "!"]) :
    Stops level (t :: rest) := by
  intro u hu
  cases hu
  refine ⟨fun _ => Token.isOp_eq_false h ?_, ?_⟩
  · intro heq
    subst heq
    simp at hsign
  · intro op hsymbol
    have hvalue := (Token.isOp_iff.mp hsymbol).2.symm.trans (Token.isOp_iff.mp h).2
    exact absurd hvalue (op.symbol_ne (List.mem_cons_of_mem _ hsign))

/-!
# Levels of expressions

The parser of a level, and what it does after the first operand: below the calls and
between the levels of binary operators an expression grows.
-/

def levelAt (depth level : Nat) : Parse Expr :=
  if level ≤ 7 then binaryLevels (unary (depth + 1)) (7 - level)
  else if level = 8 then operand (expression depth)
  else primary (expression depth)

def growth (depth level : Nat) : Expr → Parse Expr :=
  if level ≤ 6 then grow (operation level (levelAt depth (level + 1)))
  else if level = 8 then grow (arguments (expression depth))
  else pure

variable {depth level : Nat} {w : List Token} {e : Expr}

theorem levelAt_reads (depth : Nat) {level : Nat} (hlow : 1 ≤ level) (hhigh : level ≤ 9) :
    Reads (levelAt depth level) fun w e => Spells w (.expr level e) := by
  unfold levelAt
  split
  · have hlevel : 7 - (7 - level) = level := by omega
    have hreads := (Reads.unary (depth + 1)).binaryLevels (show 7 - level ≤ 6 by omega)
    rwa [hlevel] at hreads
  · split
    · rename_i hcall
      subst hcall
      exact .operand (.expression depth)
    · have hnine : level = 9 := by omega
      subst hnine
      exact .primary (.expression depth)

theorem levelAt_chain (hlow : 1 ≤ level) (hhigh : level ≤ 6) :
    levelAt depth level = levelAt depth (level + 1) >>= growth depth level := by
  have hcount : 7 - level = 6 - level + 1 := by omega
  have hself : 6 - (6 - level) = level := by omega
  have hnext : 7 - (level + 1) = 6 - level := by omega
  have hlevel : level ≤ 7 := by omega
  have hlevel' : level + 1 ≤ 7 := by omega
  rw [levelAt, if_pos hlevel, hcount, binaryLevels, hself, chain, growth, if_pos hhigh, levelAt,
    if_pos hlevel', hnext]

theorem levelAt_run {s : List Token} (hlow : 1 ≤ level) (hhigh : level ≤ 8)
    (hstart : ∀ t ∈ s.head?, level = 7 → t.startsOperand = true) :
    levelAt depth level s = (levelAt depth (level + 1) >>= growth depth level) s := by
  rcases Nat.lt_trichotomy level 7 with hlt | rfl | hgt
  · rw [levelAt_chain hlow (by omega)]
  · have hnone : accept UnaryOp.atToken? s = .ok (none, s) := by
      apply accept_of_none
      intro t ht
      exact Token.unaryOf_eq_none_of_startsOperand (hstart t ht rfl)
    change unary (depth + 1) s = (operand (expression depth) >>= pure) s
    rw [bind_pure, unary, bind_of_ok hnone]
    rfl
  · have height : level = 8 := by omega
    subst height
    rfl

theorem growth_of_stops (hlow : 1 ≤ level) (hstops : Stops level rest) (e : Expr) :
    growth depth level e rest = .ok (e, rest) := by
  unfold growth
  split
  · rename_i hlevel
    have hnone : accept (BinaryOp.atLevel? level) rest = .ok (none, rest) := by
      apply accept_of_none
      intro t ht
      cases hfound : BinaryOp.atLevel? level t with
      | none => rfl
      | some found =>
          rcases found with ⟨u, op⟩
          rcases BinaryOp.atLevel?_eq_some_iff.mp hfound with ⟨_, hsymbol, hop⟩
          have hlt := (hstops t ht).2 op hsymbol
          omega
    rw [grow_run fun e => advances_operation (levelAt_reads depth (by omega) (by omega)).shrinks _ e]
    unfold partThen operation
    rw [bind_of_ok (bind_of_ok hnone)]
    rfl
  · split
    · rename_i hcall
      have hnone : acceptOp "(" rest = .ok (none, rest) :=
        acceptOp_of_not fun t ht => (hstops t ht).1 (by omega)
      rw [grow_run fun e => advances_arguments (.expression depth) e]
      unfold partThen arguments
      rw [bind_of_ok (bind_of_ok hnone)]
      rfl
    · rfl

/-!
# Expressions
-/

/-- An expression of a level is read, up to where it may grow at its own level. -/
def Reached (depth level : Nat) (w : List Token) (e : Expr) : Prop :=
  ∀ rest, Stops (level + 1) rest → levelAt depth level (w ++ rest) = growth depth level e rest

theorem Reached.run (h : Reached depth level w e) (hlow : 1 ≤ level) (hstops : Stops level rest) :
    levelAt depth level (w ++ rest) = .ok (e, rest) := by
  rw [h rest hstops.next, growth_of_stops hlow hstops]

theorem Reached.lift (h : Reached depth (level + 1) w e) (hlow : 1 ≤ level) (hhigh : level ≤ 8)
    (hstart : level = 7 → ∃ t v, w = t :: v ∧ t.startsOperand = true) :
    Reached depth level w e := by
  intro rest hstops
  have hhead : ∀ t ∈ (w ++ rest).head?, level = 7 → t.startsOperand = true := by
    intro t ht hlevel
    rcases hstart hlevel with ⟨u, v, rfl, hu⟩
    cases ht
    exact hu
  rw [levelAt_run hlow hhigh hhead, bind_of_ok (h.run (by omega) hstops)]

theorem reached_atom {t : Token} (h : atom? t = some (.ok e)) : Reached depth 9 [t] e := by
  intro rest _
  change primary (expression depth) (t :: rest) = .ok (e, rest)
  unfold primary
  rw [bind_of_ok (accept_of_some h)]
  rfl

/-- Inside one more pair of brackets there are fewer tokens, so one level less is enough. -/
theorem expression_run {depth : Nat}
    (h : ∀ depth', w.length ≤ depth' + 1 → Reached depth' 1 w e) (hw : w ≠ [])
    (hdepth : w.length ≤ depth) (hstops : Stops 1 rest) :
    expression depth (w ++ rest) = .ok (e, rest) := by
  cases depth with
  | zero => exact absurd (List.eq_nil_of_length_eq_zero (Nat.le_zero.mp hdepth)) hw
  | succ depth => exact (h depth hdepth).run (Nat.le_refl 1) hstops

theorem reached_parens {opening closing : Token} (hopening : opening.isOp "(" = true)
    (hexpr : ∀ rest, Stops 1 rest → expression depth (w ++ rest) = .ok (e, rest))
    (hclosing : closing.isOp ")" = true) :
    Reached depth 9 (opening :: (w ++ [closing])) e := by
  intro rest _
  have hatom : accept atom? (opening :: (w ++ closing :: rest)) =
      .ok (none, opening :: (w ++ closing :: rest)) := by
    apply accept_of_none
    intro t ht
    cases ht
    rcases Token.isOp_iff.mp hopening with ⟨hkind, _⟩
    simp [atom?, hkind, Token.isKeyword]
  have hinner := hexpr (closing :: rest) (stops_of_isOp hclosing (by decide))
  change primary (expression depth) (opening :: (w ++ [closing]) ++ rest) = .ok (e, rest)
  simp only [List.cons_append, List.append_assoc, List.nil_append]
  unfold primary
  rw [bind_of_ok hatom]
  dsimp only
  rw [bind_of_ok (acceptOp_of_isOp hopening)]
  dsimp only
  rw [bind_of_ok hinner, bind_of_ok (expectOp_of_isOp hclosing)]
  rfl

theorem reached_unary {t : Token} {op : UnaryOp} (hop : t.isOp op.symbol = true)
    (h : Reached depth 7 w e) : Reached (depth + 1) 7 (t :: w) (.unary t op e) := by
  intro rest hstops
  have haccept : accept UnaryOp.atToken? (t :: (w ++ rest)) = .ok (some (t, op), w ++ rest) :=
    accept_of_some (UnaryOp.atToken?_eq_some_iff.mpr ⟨rfl, hop⟩)
  change unary (depth + 2) (t :: (w ++ rest)) = .ok (.unary t op e, rest)
  have hoperand : unary (depth + 1) (w ++ rest) = .ok (e, rest) := h rest hstops
  rw [unary, bind_of_ok haccept]
  dsimp only
  rw [bind_of_ok hoperand]
  rfl

theorem reached_binary {t : Token} {op : BinaryOp} {v : List Token} {left right : Expr}
    (hleft : Reached depth op.level w left) (hop : t.isOp op.symbol = true)
    (hright : Reached depth (op.level + 1) v right) :
    Reached depth op.level (w ++ t :: v) (.binary t op left right) := by
  intro rest hstops
  have hbounds := op.level_bounds
  have hsplit : Stops (op.level + 1) (t :: (v ++ rest)) := by
    intro u hu
    cases hu
    refine ⟨fun _ => Token.isOp_eq_false hop (op.symbol_ne (by decide)), ?_⟩
    intro op' hop'
    have hsame := BinaryOp.ofToken?_eq_some_iff.mpr hop
    rw [BinaryOp.ofToken?_eq_some_iff.mpr hop'] at hsame
    cases hsame
    exact Nat.lt_succ_self _
  have haccept : accept (BinaryOp.atLevel? op.level) (t :: (v ++ rest)) =
      .ok (some (t, op), v ++ rest) :=
    accept_of_some (BinaryOp.atLevel?_eq_some_iff.mpr ⟨rfl, hop, rfl⟩)
  have hrun := hright.run (by omega) hstops
  have hadvances (e : Expr) :
      Advances (operation op.level (levelAt depth (op.level + 1)) e) :=
    advances_operation (levelAt_reads depth (by omega) (by omega)).shrinks _ e
  have hoperation : operation op.level (levelAt depth (op.level + 1)) left (t :: (v ++ rest)) =
      .ok (some (.binary t op left right), rest) := by
    unfold operation
    rw [bind_of_ok haccept]
    dsimp only
    rw [bind_of_ok hrun]
    rfl
  rw [List.append_assoc, List.cons_append, hleft _ hsplit, growth, if_pos hbounds.2,
    grow_run hadvances, partThen, bind_of_ok hoperation]

/-!
# Lists
-/

def EndsItem (rest : List Token) : Prop :=
  ∃ t v, rest = t :: v ∧ (t.isOp "," = true ∨ t.isOp ")" = true)

theorem EndsItem.stops {level : Nat} (h : EndsItem rest) : Stops level rest := by
  rcases h with ⟨t, v, rfl, hcomma | hparen⟩
  · exact stops_of_isOp hcomma (by decide)
  · exact stops_of_isOp hparen (by decide)

theorem items_of_listed {α : Type} {item : Parse α} (hshrinks : Shrinks item)
    {pieces : List (List Token × α)} {v : List Token} {closing : Token} (hlisted : Listed pieces v)
    (hclosing : closing.isOp ")" = true)
    (hstart : ∀ piece ∈ pieces, ∃ t u, piece.1 = t :: u ∧ t.isOp ")" = false)
    (hitem : ∀ piece ∈ pieces, ∀ rest, EndsItem rest →
      item (piece.1 ++ rest) = .ok (piece.2, rest)) :
    items item (v ++ closing :: rest) = .ok (pieces.map Prod.snd, closing :: rest) := by
  have hopen {w tail : List Token} {x : α} (hmem : (w, x) ∈ pieces) :
      atOp ")" (w ++ tail) = .ok (false, w ++ tail) := by
    rcases hstart (w, x) hmem with ⟨t, u, hw, ht⟩
    simp only at hw
    subst hw
    simp [atOp, look, ht]
  induction hlisted with
  | nil =>
      have hat : atOp ")" (closing :: rest) = .ok (true, closing :: rest) := by
        simp [atOp, look, hclosing]
      rw [List.nil_append, items_run hshrinks, itemThen, bind_of_ok hat]
      rfl
  | last w x =>
      have hx := hitem (w, x) (by simp) (closing :: rest) ⟨closing, rest, rfl, Or.inr hclosing⟩
      have hcomma : acceptOp "," (closing :: rest) = .ok (none, closing :: rest) := by
        apply acceptOp_of_not
        intro t ht
        cases ht
        exact Token.isOp_eq_false hclosing (by decide)
      rw [items_run hshrinks, itemThen, bind_of_ok (hopen List.mem_cons_self)]
      simp only [Bool.false_eq_true, if_false]
      rw [bind_of_ok hx, bind_of_ok hcomma]
      rfl
  | @next w v x comma pieces hcomma _ ih =>
      have hx := hitem (w, x) (by simp) (comma :: (v ++ closing :: rest))
        ⟨comma, _, rfl, Or.inl hcomma⟩
      have hmore := ih (fun piece hmem => hstart piece (List.mem_cons_of_mem _ hmem))
        (fun piece hmem => hitem piece (List.mem_cons_of_mem _ hmem))
        (fun hmem => hopen (List.mem_cons_of_mem _ hmem))
      rw [List.append_assoc, List.cons_append, items_run hshrinks, itemThen,
        bind_of_ok (hopen List.mem_cons_self)]
      simp only [Bool.false_eq_true, if_false]
      rw [bind_of_ok hx, bind_of_ok (acceptOp_of_isOp hcomma)]
      dsimp only
      rw [bind_of_ok hmore]
      rfl

theorem reached_call {opening closing : Token} {v : List Token} {callee : Expr}
    {args : List (List Token × Expr)} (hcallee : Reached depth 8 w callee)
    (hopening : opening.isOp "(" = true) (hlisted : Listed args v)
    (hstart : ∀ arg ∈ args, ∃ t u, arg.1 = t :: u ∧ t.isOp ")" = false)
    (hargs : ∀ arg ∈ args, ∀ rest, Stops 1 rest →
      expression depth (arg.1 ++ rest) = .ok (arg.2, rest))
    (hclosing : closing.isOp ")" = true) :
    Reached depth 8 (w ++ opening :: (v ++ [closing]))
      (.call opening callee (args.map Prod.snd)) := by
  intro rest _
  have hitems : items (expression depth) (v ++ closing :: rest) =
      .ok (args.map Prod.snd, closing :: rest) :=
    items_of_listed (Reads.expression depth).shrinks hlisted hclosing hstart
      fun arg hmem rest hends => hargs arg hmem rest hends.stops
  have harguments : arguments (expression depth) callee (opening :: (v ++ closing :: rest)) =
      .ok (some (.call opening callee (args.map Prod.snd)), rest) := by
    unfold arguments
    rw [bind_of_ok (acceptOp_of_isOp hopening)]
    dsimp only
    rw [bind_of_ok hitems, bind_of_ok (expectOp_of_isOp hclosing)]
    rfl
  have hrun := hcallee (opening :: (v ++ closing :: rest)) (stops_of_high (Nat.le_refl 9))
  simp only [List.append_assoc, List.cons_append, List.nil_append]
  rw [hrun]
  change grow (arguments (expression depth)) callee _ = grow (arguments (expression depth)) _ _
  rw [grow_run (advances_arguments (.expression depth)), partThen, bind_of_ok harguments]

/-!
# All expressions
-/

theorem reached_of_spells (h : Spells w (.expr level e)) (hdepth : w.length ≤ depth + 1) :
    Reached depth level w e := by
  generalize hp : Phrase.expr level e = p at h
  induction h generalizing depth level e with
  | intLit hkind hread =>
      cases hp
      exact reached_atom (by simp [atom?, hkind, hread, Except.map])
  | floatLit hkind hread =>
      cases hp
      exact reached_atom (by simp [atom?, hkind, hread, Except.map])
  | stringLit hkind =>
      cases hp
      exact reached_atom (by simp [atom?, hkind])
  | trueLit hword =>
      cases hp
      exact reached_atom (by simp [atom?, (Token.isKeyword_iff.mp hword).1, hword])
  | falseLit hword =>
      cases hp
      have htrue : ∀ t : Token, t.isKeyword "false" = true → t.isKeyword "true" = false := by
        grind
      exact reached_atom (by simp [atom?, (Token.isKeyword_iff.mp hword).1, hword, htrue _ hword])
  | name hkind =>
      cases hp
      exact reached_atom (by simp [atom?, hkind])
  | parens hopening hw hclosing ih =>
      cases hp
      simp only [List.length_cons, List.length_append, List.length_nil] at hdepth
      refine reached_parens hopening ?_ hclosing
      intro rest hstops
      exact expression_run (fun depth' h => ih h rfl) hw.ne_nil_of_expr (by omega) hstops
  | @lift level w e hlow hhigh hw ih =>
      cases hp
      apply (ih hdepth rfl).lift hlow hhigh
      intro heq
      subst heq
      rcases hw.starts with ⟨t, v, hw, _, hstarts⟩
      exact ⟨t, v, hw, hstarts (Nat.le_refl 8)⟩
  | call _ hopening hlisted hargs hclosing ih ihargs =>
      cases hp
      simp only [List.length_cons, List.length_append, List.length_nil] at hdepth
      refine reached_call (ih (by omega) rfl) hopening hlisted ?_ ?_ hclosing
      · intro arg hmem
        rcases (hargs arg hmem).starts with ⟨t, u, hw, hstarts, _⟩
        exact ⟨t, u, hw, Token.isOp_eq_false_of_startsStmt
          (Token.startsStmt_of_startsExpr hstarts) (by decide)⟩
      · intro arg hmem rest hstops
        have hlength := (hlisted.sublist arg hmem).length_le
        exact expression_run (fun depth' h => ihargs arg hmem h rfl) (hargs arg hmem).ne_nil_of_expr
          (by omega) hstops
  | unary hop hw ih =>
      cases hp
      have hpos := List.length_pos_iff.mpr hw.ne_nil_of_expr
      simp only [List.length_cons] at hdepth
      cases depth with
      | zero => omega
      | succ depth => exact reached_unary hop (ih (by omega) rfl)
  | binary _ hop _ ihleft ihright =>
      cases hp
      simp only [List.length_append, List.length_cons] at hdepth
      exact reached_binary (ihleft (by omega) rfl) hop (ihright (by omega) rfl)
  | _ => cases hp

theorem expression_of_spells (h : Spells w (.expr 1 e)) (hdepth : w.length ≤ depth)
    (hstops : Stops 1 rest) : expression depth (w ++ rest) = .ok (e, rest) :=
  expression_run (fun _ hdepth' => reached_of_spells h hdepth') h.ne_nil_of_expr hdepth hstops

end Parser
end TypedAnt
