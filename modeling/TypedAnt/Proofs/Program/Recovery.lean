import TypedAnt.Proofs.Program.StatementSoundness

/-!
# What a rejected parse has completed

A parse that is rejected keeps the statements that it has read.  They are all statements
of a beginning of the tokens before the error, and none of them is missing: with one
more statement those tokens can be completed.
-/

namespace TypedAnt

def Separators.mark : Token :=
  ⟨.op, ";", 0, 0⟩

theorem separators_mark : Separators [Separators.mark] := by
  simp [Separators, Separators.mark, Token.isSeparator, Token.isOp]

/-- The statements are those of a beginning of `c`, and one more statement completes `c`. -/
structure Reaches (c : List Token) (stmts : List Stmt) : Prop where
  completed : ∃ done, done <+: c ∧ Sequence done stmts
  extensible : ∃ v stmt, Sequence (c ++ v) (stmts ++ [stmt])

namespace Reaches

variable {c v w gap : List Token} {stmt : Stmt} {stmts : List Stmt}

theorem inside (h : Spells (c ++ v) (.stmt stmt)) : Reaches c [] where
  completed := ⟨[], List.nil_prefix, .blank separators_nil⟩
  extensible := ⟨v, stmt, .single h⟩

/-- After a statement that has been read, another one takes a separator. -/
theorem behind (h : Spells w (.stmt stmt)) : Reaches w [stmt] where
  completed := ⟨w, List.prefix_refl w, .single h⟩
  extensible := by
    rcases Parser.Reads.completable_stmt with ⟨u, next, hnext⟩
    refine ⟨Separators.mark :: u, next, ?_⟩
    exact Sequence.cons h (separators_mark _ (by simp)) (.single hnext)

theorem prepend (hgap : Separators gap) (h : Reaches c stmts) : Reaches (gap ++ c) stmts where
  completed := by
    rcases h.completed with ⟨done, hdone, hsequence⟩
    exact ⟨gap ++ done, (List.prefix_append_right_inj gap).mpr hdone, hsequence.prepend hgap⟩
  extensible := by
    rcases h.extensible with ⟨v, next, hsequence⟩
    refine ⟨v, next, ?_⟩
    rw [List.append_assoc]
    exact hsequence.prepend hgap

theorem after (hstmt : Spells w (.stmt stmt)) (hgap : Separators gap)
    (hhead : ∀ t ∈ c.head?, gap = [] → t.isOp "\x7d" = true) (h : Reaches c stmts) :
    Reaches (w ++ (gap ++ c)) (stmt :: stmts) where
  completed := by
    rcases h.completed with ⟨done, hdone, hsequence⟩
    refine ⟨w ++ (gap ++ done), ?_, hsequence.after_lineEnd hstmt hgap ?_⟩
    · rw [List.prefix_append_right_inj, List.prefix_append_right_inj]
      exact hdone
    · intro t ht
      rcases hdone with ⟨rest, rfl⟩
      exact hhead t (by simp_all)
  extensible := by
    rcases h.extensible with ⟨v, next, hsequence⟩
    cases c with
    | nil =>
        -- Where nothing stands behind the statement yet, a separator can still be put there.
        refine ⟨Separators.mark :: v, next, ?_⟩
        have hmarked : Separators (gap ++ [Separators.mark]) := by
          intro t ht
          rcases List.mem_append.mp ht with ht | ht
          · exact hgap t ht
          · exact separators_mark t ht
        simpa using Sequence.after hstmt hmarked (by simp) hsequence
    | cons t c =>
        refine ⟨v, next, ?_⟩
        have hfirst : ∀ u ∈ (t :: c ++ v).head?, gap = [] → u.isOp "\x7d" = true := by
          intro u hu
          exact hhead u (by simpa using hu)
        simpa using Sequence.after_lineEnd hstmt hgap hfirst hsequence

end Reaches

namespace Parser

variable {statement : Parse Stmt} {rounds limit : Nat} {s rest : List Token} {stmts : List Stmt}
  {cause : SyntaxError.Cause}

theorem reaches_of_statementsFrom
    (hstatement : Reads statement fun w stmt => Spells w (.stmt stmt))
    (h : statementsFrom statement rounds s = (stmts, some (.rejected rest cause))) :
    ∃ c, s = c ++ rest ∧ Reaches c stmts := by
  induction rounds generalizing s stmts with
  | zero =>
      cases h
      rcases Reads.completable_stmt with ⟨w, stmt, hw⟩
      exact ⟨[], rfl, .inside hw⟩
  | succ rounds ih =>
      cases s with
      | nil => cases h
      | cons t s =>
          cases hstmt : statement (t :: s) with
          | error stop =>
              simp only [statementsFrom, hstmt, Prod.mk.injEq, Option.some.injEq] at h
              rcases h with ⟨rfl, rfl⟩
              rcases hstatement.viable hstmt with ⟨c, v, stmt, hs, hv⟩
              exact ⟨c, hs, .inside hv⟩
          | ok result =>
              rcases result with ⟨stmt, s'⟩
              rcases hstatement.sound hstmt with ⟨w, hs, hw⟩
              rcases lineEnd_run s' with ⟨gap, s'', rfl, hgap, hhead, hrun⟩ | ⟨_, hrun⟩
              · simp only [statementsFrom, hstmt, hrun, Prod.mk.injEq] at h
                rcases h with ⟨rfl, hstop⟩
                rcases ih (Prod.ext rfl hstop) with ⟨c, rfl, hc⟩
                refine ⟨w ++ (gap ++ c), by simpa using hs, hc.after hw hgap ?_⟩
                intro u hu
                exact (hhead u (by simp_all)).2
              · simp only [statementsFrom, hstmt, hrun, Prod.mk.injEq, Option.some.injEq] at h
                rcases h with ⟨rfl, hstop⟩
                cases hstop
                exact ⟨w, hs, .behind hw⟩

theorem reaches_of_statements (h : statements limit s = (stmts, some (.rejected rest cause))) :
    ∃ c, s = c ++ rest ∧ Reaches c stmts := by
  rcases reaches_of_statementsFrom (Reads.statement limit) h with ⟨c, hs, hc⟩
  refine ⟨s.takeWhile Token.isSeparator ++ c, ?_, hc.prepend (separators_takeWhile s)⟩
  rw [List.append_assoc, ← hs, List.takeWhile_append_dropWhile]

theorem viable_of_statements (h : statements limit s = (stmts, some (.rejected rest cause))) :
    ∃ c v stmts', s = c ++ rest ∧ Sequence (c ++ v) stmts' := by
  rcases reaches_of_statements h with ⟨c, hs, hc⟩
  rcases hc.extensible with ⟨v, stmt, hv⟩
  exact ⟨c, v, stmts ++ [stmt], hs, hv⟩

end Parser
end TypedAnt
