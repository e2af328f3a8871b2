import TypedAnt.Program.Parser
import TypedAnt.Proofs.Program.Grammar
import TypedAnt.Proofs.Token

/-!
# Running a parser

What the small parsers do on a given run of tokens, and when one parser after another
succeeds or stops.
-/

namespace TypedAnt
namespace Parser

variable {α β : Type} {s rest : List Token}

/-!
# One parser after another
-/

theorem pure_run (x : α) (s : List Token) : (pure x : Parse α) s = .ok (x, s) :=
  rfl

theorem bind_of_ok {p : Parse α} {f : α → Parse β} {x : α} (h : p s = .ok (x, rest)) :
    (p >>= f) s = f x rest := by
  change (p s >>= fun result => f result.1 result.2) = f x rest
  rw [h]
  rfl

theorem bind_of_error {p : Parse α} {f : α → Parse β} {stop : Stop} (h : p s = .error stop) :
    (p >>= f) s = .error stop := by
  change (p s >>= fun result => f result.1 result.2) = .error stop
  rw [h]
  rfl

theorem bind_eq_ok_iff {p : Parse α} {f : α → Parse β} {y : β} :
    (p >>= f) s = .ok (y, rest) ↔ ∃ x s', p s = .ok (x, s') ∧ f x s' = .ok (y, rest) := by
  cases h : p s with
  | error stop =>
      rw [bind_of_error h]
      simp
  | ok result =>
      rcases result with ⟨x, s'⟩
      rw [bind_of_ok h]
      simp [and_assoc]

theorem bind_eq_error_iff {p : Parse α} {f : α → Parse β} {stop : Stop} :
    (p >>= f) s = .error stop ↔
      p s = .error stop ∨ ∃ x s', p s = .ok (x, s') ∧ f x s' = .error stop := by
  cases h : p s with
  | error stop' =>
      rw [bind_of_error h]
      simp
  | ok result =>
      rcases result with ⟨x, s'⟩
      rw [bind_of_ok h]
      simp [and_assoc]

/-!
# Single tokens
-/

theorem look_run (f : Option Token → α) (s : List Token) : look f s = .ok (f s.head?, s) :=
  rfl

theorem reject_run (cause : SyntaxError.Cause) (s : List Token) :
    (reject cause : Parse α) s = .error (.rejected s cause) :=
  rfl

theorem accept_of_some {f : Token → Option α} {t : Token} {x : α} (h : f t = some x) :
    accept f (t :: s) = .ok (some x, s) := by
  simp [accept, h]

theorem accept_of_none {f : Token → Option α} (h : ∀ t ∈ s.head?, f t = none) :
    accept f s = .ok (none, s) := by
  cases s with
  | nil => rfl
  | cons t s => simp [accept, h t rfl]

theorem accept_run (f : Token → Option α) (s : List Token) :
    (∃ t x rest, s = t :: rest ∧ f t = some x ∧ accept f s = .ok (some x, rest)) ∨
      ((∀ t ∈ s.head?, f t = none) ∧ accept f s = .ok (none, s)) := by
  cases s with
  | nil => exact Or.inr ⟨by simp, rfl⟩
  | cons t rest =>
      cases h : f t with
      | none =>
          have hhead : ∀ u ∈ (t :: rest).head?, f u = none := by
            intro u hu
            cases hu
            exact h
          exact Or.inr ⟨hhead, accept_of_none hhead⟩
      | some x => exact Or.inl ⟨t, x, rest, rfl, h, accept_of_some h⟩

theorem expect_of_true {p : Token → Bool} {cause : SyntaxError.Cause} {t : Token}
    (h : p t = true) : expect p cause (t :: s) = .ok (t, s) := by
  simp [expect, h]

theorem expect_of_false {p : Token → Bool} {cause : SyntaxError.Cause}
    (h : ∀ t ∈ s.head?, p t = false) : expect p cause s = .error (.rejected s cause) := by
  cases s with
  | nil => rfl
  | cons t s => simp [expect, h t rfl, reject]

theorem expect_run (p : Token → Bool) (cause : SyntaxError.Cause) (s : List Token) :
    (∃ t rest, s = t :: rest ∧ p t = true ∧ expect p cause s = .ok (t, rest)) ∨
      ((∀ t ∈ s.head?, p t = false) ∧ expect p cause s = .error (.rejected s cause)) := by
  cases s with
  | nil => exact Or.inr ⟨by simp, rfl⟩
  | cons t rest =>
      cases h : p t with
      | false =>
          have hhead : ∀ u ∈ (t :: rest).head?, p u = false := by
            intro u hu
            cases hu
            exact h
          exact Or.inr ⟨hhead, expect_of_false hhead⟩
      | true => exact Or.inl ⟨t, rest, rfl, h, expect_of_true h⟩

theorem guard_isOp_eq_some_iff {op : String} {t u : Token} :
    Option.guard (·.isOp op) t = some u ↔ u = t ∧ t.isOp op = true := by
  rw [Option.guard_eq_some_iff]
  constructor
  · intro hfound
    rcases hfound with ⟨rfl, h⟩
    exact ⟨rfl, h⟩
  · intro hfound
    rcases hfound with ⟨rfl, h⟩
    exact ⟨rfl, h⟩

theorem acceptOp_of_isOp {op : String} {t : Token} (h : t.isOp op = true) :
    acceptOp op (t :: s) = .ok (some t, s) :=
  accept_of_some (guard_isOp_eq_some_iff.mpr ⟨rfl, h⟩)

theorem acceptOp_of_not {op : String} (h : ∀ t ∈ s.head?, t.isOp op = false) :
    acceptOp op s = .ok (none, s) := by
  apply accept_of_none
  intro t ht
  simp [Option.guard, h t ht]

theorem expectOp_of_isOp {op : String} {t : Token} (h : t.isOp op = true) :
    expectOp op (t :: s) = .ok (t, s) :=
  expect_of_true h

theorem identifier_of_ident {cause : SyntaxError.Cause} {t : Token} (h : t.kind = .ident) :
    identifier cause (t :: s) = .ok (t, s) :=
  expect_of_true (by simp [h])

/-!
# Ends of lines
-/

theorem separators_takeWhile (s : List Token) : Separators (s.takeWhile Token.isSeparator) := by
  intro t ht
  exact List.all_eq_true.mp List.all_takeWhile t ht

theorem isSeparator_head?_dropWhile (s : List Token) :
    ∀ t ∈ (s.dropWhile Token.isSeparator).head?, t.isSeparator = false := by
  intro t ht
  have hnot := List.head?_dropWhile_not Token.isSeparator s
  rw [ht] at hnot
  exact hnot

/--
After a statement there may be separators, which are skipped; without one there has to be
a closing brace or the end of the text.
-/
theorem lineEnd_run (s : List Token) :
    (∃ gap rest, s = gap ++ rest ∧ Separators gap ∧
        (∀ t ∈ rest.head?, t.isSeparator = false ∧ (gap = [] → t.isOp "\x7d" = true)) ∧
        lineEnd s = .ok ((), rest)) ∨
      (endsStatement s.head? = false ∧ lineEnd s = .error (.rejected s .expectedEnd)) := by
  cases hends : endsStatement s.head? with
  | false =>
      refine Or.inr ⟨rfl, ?_⟩
      unfold lineEnd
      rw [bind_of_ok (look_run endsStatement s), hends]
      rfl
  | true =>
      refine Or.inl ⟨s.takeWhile Token.isSeparator, s.dropWhile Token.isSeparator,
        List.takeWhile_append_dropWhile.symm, separators_takeWhile s, ?_, ?_⟩
      · intro t ht
        have hnot := isSeparator_head?_dropWhile s t ht
        refine ⟨hnot, ?_⟩
        intro hgap
        have hs : s.dropWhile Token.isSeparator = s := by
          have happend := List.takeWhile_append_dropWhile (p := Token.isSeparator) (l := s)
          rwa [hgap] at happend
        rw [hs] at ht
        rw [ht] at hends
        simpa [endsStatement, hnot] using hends
      · unfold lineEnd
        rw [bind_of_ok (look_run endsStatement s), hends]
        rfl

def NoElse (rest : List Token) : Prop :=
  ∀ t ∈ (rest.dropWhile (·.kind == .newline)).head?, t.isKeyword "else" = false

theorem acceptElse_of_noElse (h : NoElse rest) : acceptElse rest = .ok (false, rest) := by
  unfold acceptElse
  cases hdrop : rest.dropWhile (·.kind == .newline) with
  | nil => rfl
  | cons t s =>
      have helse := h t (by rw [hdrop]; rfl)
      simp [helse]

theorem acceptElse_of_else {gap : List Token} {keyword : Token}
    (hgap : ∀ t ∈ gap, t.kind = .newline) (hkeyword : keyword.isKeyword "else" = true) :
    acceptElse (gap ++ keyword :: rest) = .ok (true, rest) := by
  have hkind : (keyword.kind == .newline) = false := by
    simp [(Token.isKeyword_iff.mp hkeyword).1]
  have hdrop : (gap ++ keyword :: rest).dropWhile (·.kind == .newline) = keyword :: rest := by
    rw [List.dropWhile_append_of_pos (by simpa using hgap), List.dropWhile_cons]
    simp [hkind]
  simp [acceptElse, hdrop, hkeyword]

theorem acceptElse_run (s : List Token) :
    (∃ gap keyword rest, s = gap ++ keyword :: rest ∧ (∀ t ∈ gap, t.kind = .newline) ∧
        keyword.isKeyword "else" = true ∧ acceptElse s = .ok (true, rest)) ∨
      (NoElse s ∧ acceptElse s = .ok (false, s)) := by
  by_cases helse : NoElse s
  · exact Or.inr ⟨helse, acceptElse_of_noElse helse⟩
  · apply Or.inl
    have hsplit := List.takeWhile_append_dropWhile (p := fun t : Token => t.kind == .newline) (l := s)
    cases hrest : s.dropWhile (·.kind == .newline) with
    | nil => exact absurd (by simp [NoElse, hrest]) helse
    | cons keyword rest =>
        have hgap : ∀ t ∈ s.takeWhile (·.kind == .newline), t.kind = .newline := by
          intro t ht
          simpa using List.all_eq_true.mp List.all_takeWhile t ht
        have hkeyword : keyword.isKeyword "else" = true := by
          simpa [NoElse, hrest] using helse
        rw [hrest] at hsplit
        refine ⟨_, keyword, rest, hsplit.symm, hgap, hkeyword, ?_⟩
        rw [← hsplit]
        exact acceptElse_of_else hgap hkeyword

theorem assignOrExpr_cons (expression : Parse Expr) (first : Token) (s : List Token) :
    assignOrExpr expression (first :: s) =
      (expression >>= assignmentRest expression first) (first :: s) :=
  rfl

end Parser
end TypedAnt
