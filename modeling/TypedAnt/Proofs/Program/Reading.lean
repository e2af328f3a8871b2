import TypedAnt.Proofs.Program.FirstToken
import TypedAnt.Proofs.Program.Running

/-!
# What parsers read

A parser reads a relation between runs of tokens and results: what it takes off the tokens
is related to its result, and where it is rejected, what it took so far is the
beginning of something related.  The second half is what puts a syntax error on the
right token, and it goes through parsers in sequence as the first half does,
because every beginning can be completed.
-/

namespace TypedAnt
namespace Parser

variable {α β : Type} {R : List Token → α → Prop} {T : List Token → β → Prop}

structure Tracks (p : Parse α) (R : List Token → α → Prop) : Prop where
  sound {s rest : List Token} {x : α} : p s = .ok (x, rest) → ∃ w, s = w ++ rest ∧ R w x
  viable {s rest : List Token} {cause : SyntaxError.Cause} :
    p s = .error (.rejected rest cause) → ∃ c v x, s = c ++ rest ∧ R (c ++ v) x

structure Reads (p : Parse α) (R : List Token → α → Prop) : Prop extends Tracks p R where
  completable : ∃ w x, R w x

namespace Reads

/-!
# Parsers in sequence
-/

theorem pure {x : α} (h : R [] x) : Reads (pure x) R where
  completable := ⟨[], x, h⟩
  sound hok := by
    cases hok
    exact ⟨[], rfl, h⟩
  viable hstop := by cases hstop

theorem reject {cause : SyntaxError.Cause} (h : ∃ w x, R w x) : Reads (reject cause) R where
  completable := h
  sound hok := by cases hok
  viable hstop := by
    cases hstop
    rcases h with ⟨w, x, h⟩
    exact ⟨[], w, x, rfl, h⟩

theorem bind {p : Parse α} {f : α → Parse β} (hp : Reads p R)
    (hf : ∀ w x, R w x → Reads (f x) fun v y => T (w ++ v) y) : Reads (p >>= f) T where
  completable := by
    rcases hp.completable with ⟨w, x, hx⟩
    rcases (hf w x hx).completable with ⟨v, y, hy⟩
    exact ⟨w ++ v, y, hy⟩
  sound hok := by
    rcases bind_eq_ok_iff.mp hok with ⟨x, s', hx, hy⟩
    rcases hp.sound hx with ⟨w, rfl, hw⟩
    rcases (hf w x hw).sound hy with ⟨v, rfl, hv⟩
    exact ⟨w ++ v, by rw [List.append_assoc], hv⟩
  viable hstop := by
    rcases bind_eq_error_iff.mp hstop with hfirst | ⟨x, s', hx, hsecond⟩
    · rcases hp.viable hfirst with ⟨c, v, x, rfl, hx⟩
      -- The first parser was rejected, so the second one has to be completed from nothing.
      rcases (hf (c ++ v) x hx).completable with ⟨u, y, hy⟩
      exact ⟨c, v ++ u, y, rfl, by rw [← List.append_assoc]; exact hy⟩
    · rcases hp.sound hx with ⟨w, rfl, hw⟩
      rcases (hf w x hw).viable hsecond with ⟨c, v, y, rfl, hy⟩
      exact ⟨w ++ c, v, y, by rw [List.append_assoc], by rw [List.append_assoc]; exact hy⟩

theorem imp {R' : List Token → α → Prop} {p : Parse α} (hp : Reads p R)
    (h : ∀ w x, R w x → R' w x) : Reads p R' where
  completable := by
    rcases hp.completable with ⟨w, x, hx⟩
    exact ⟨w, x, h w x hx⟩
  sound hok := by
    rcases hp.sound hok with ⟨w, hs, hx⟩
    exact ⟨w, hs, h w _ hx⟩
  viable hstop := by
    rcases hp.viable hstop with ⟨c, v, x, hs, hx⟩
    exact ⟨c, v, x, hs, h _ x hx⟩

theorem rounds {f : Nat → Parse α} (h : ∀ n, Reads (f n) R) :
    Reads (do f (← get).length) R where
  completable := (h 0).completable
  sound {s _ _} hok := (h s.length).sound hok
  viable {s _ _} hstop := (h s.length).viable hstop

/-!
# Single tokens
-/

theorem look {γ : Type} {f : Option Token → γ} {k : γ → Parse α}
    (h : ∀ o, Reads (k (f o)) R) : Reads (look f >>= k) R where
  completable := (h none).completable
  sound {s _ _} hok := (h s.head?).sound hok
  viable {s _ _} hstop := (h s.head?).viable hstop

theorem expect {p : Token → Bool} {cause : SyntaxError.Cause} (h : ∃ t, p t = true) :
    Reads (expect p cause) fun w t => w = [t] ∧ p t = true where
  completable := by
    rcases h with ⟨t, ht⟩
    exact ⟨[t], t, rfl, ht⟩
  sound {s rest t} hok := by
    rcases expect_run p cause s with ⟨u, rest', rfl, hu, hrun⟩ | ⟨_, hrun⟩
    · cases hrun.symm.trans hok
      exact ⟨[t], rfl, rfl, hu⟩
    · cases hrun.symm.trans hok
  viable {s rest _} hstop := by
    rcases expect_run p cause s with ⟨_, _, _, _, hrun⟩ | ⟨_, hrun⟩
    · cases hrun.symm.trans hstop
    · cases hrun.symm.trans hstop
      rcases h with ⟨t, ht⟩
      exact ⟨[], [t], t, rfl, rfl, ht⟩

theorem expectOp (op : String) : Reads (expectOp op) fun w t => w = [t] ∧ t.isOp op = true :=
  expect ⟨⟨.op, op, 0, 0⟩, Token.isOp_iff.mpr ⟨rfl, rfl⟩⟩

theorem identifier (cause : SyntaxError.Cause) :
    Reads (identifier cause) fun w t => w = [t] ∧ t.kind = .ident := by
  refine (expect ⟨⟨.ident, "", 0, 0⟩, rfl⟩).imp ?_
  intro w t hread
  rcases hread with ⟨hw, ht⟩
  exact ⟨hw, by simpa using ht⟩

theorem accept {γ : Type} {f : Token → Option γ} {k : Option γ → Parse α}
    (hsome : ∀ t x, f t = some x → Tracks (k (some x)) fun v y => R (t :: v) y)
    (hnone : Reads (k none) R) : Reads (accept f >>= k) R where
  completable := hnone.completable
  sound {s _ _} hok := by
    rcases accept_run f s with ⟨t, x, rest, rfl, hx, hrun⟩ | ⟨_, hrun⟩
    · rw [bind_of_ok hrun] at hok
      rcases (hsome t x hx).sound hok with ⟨w, rfl, hw⟩
      exact ⟨t :: w, rfl, hw⟩
    · rw [bind_of_ok hrun] at hok
      exact hnone.sound hok
  viable {s _ _} hstop := by
    rcases accept_run f s with ⟨t, x, rest, rfl, hx, hrun⟩ | ⟨_, hrun⟩
    · rw [bind_of_ok hrun] at hstop
      rcases (hsome t x hx).viable hstop with ⟨c, v, y, rfl, hy⟩
      exact ⟨t :: c, v, y, rfl, hy⟩
    · rw [bind_of_ok hrun] at hstop
      exact hnone.viable hstop

theorem acceptOp {op : String} {k : Option Token → Parse α}
    (hsome : ∀ t, t.isOp op = true → Reads (k (some t)) fun v y => R (t :: v) y)
    (hnone : Reads (k none) R) : Reads (acceptOp op >>= k) R := by
  refine accept ?_ hnone
  intro t x hx
  rcases guard_isOp_eq_some_iff.mp hx with ⟨rfl, hop⟩
  exact (hsome x hop).toTracks

theorem optionalType (mark : String) : Reads (optionalType mark) (Announced mark) := by
  refine acceptOp ?_ (pure .absent)
  intro sign hsign
  apply (identifier .expectedType).bind
  intro w type hread
  rcases hread with ⟨rfl, htype⟩
  exact pure (.present hsign htype)

/-!
# Lists
-/

theorem itemsFrom {item : Parse α} (hitem : Reads item R) (rounds : Nat) :
    Reads (itemsFrom item rounds) fun w xs =>
      ∃ pieces, Listed pieces w ∧ (∀ piece ∈ pieces, R piece.1 piece.2) ∧
        xs = pieces.map Prod.snd := by
  induction rounds with
  | zero => exact reject ⟨[], [], [], .nil, by simp, rfl⟩
  | succ rounds ih =>
      refine look fun next => ?_
      split
      · exact pure ⟨[], .nil, by simp, rfl⟩
      · apply hitem.bind
        intro w x hx
        refine acceptOp ?_ ?_
        · intro comma hcomma
          apply ih.bind
          intro v xs hread
          rcases hread with ⟨pieces, hlisted, hpieces, rfl⟩
          refine pure ⟨(w, x) :: pieces, ?_, ?_, rfl⟩
          · simpa using Listed.next hcomma hlisted
          · intro piece hmem
            cases hmem with
            | head => exact hx
            | tail _ hmem => exact hpieces piece hmem
        · refine pure ⟨[(w, x)], ?_, ?_, rfl⟩
          · simpa using Listed.last w x
          · intro piece hmem
            cases List.mem_singleton.mp hmem
            exact hx

theorem items {item : Parse α} (hitem : Reads item R) :
    Reads (items item) fun w xs =>
      ∃ pieces, Listed pieces w ∧ (∀ piece ∈ pieces, R piece.1 piece.2) ∧
        xs = pieces.map Prod.snd :=
  rounds fun n => hitem.itemsFrom (n + 1)

end Reads
end Parser
end TypedAnt
