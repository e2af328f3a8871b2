import TypedAnt.Store
import TypedAnt.Proofs.Fields

/-!
# What the store holds after a change
-/

namespace TypedAnt
namespace Store

theorem snapshot?_put (s : Store) (uri text name : String) :
    (s.put uri text).snapshot? name =
      if name = uri then some ⟨uri, text, s.issued + 1⟩ else s.snapshot? name := by
  exact Fields.get?_set s.documents uri _ name

theorem snapshot?_close (s : Store) (uri name : String) :
    (s.close uri).snapshot? name = if name = uri then none else s.snapshot? name := by
  exact Fields.get?_erase s.documents uri name

@[simp] theorem snapshot?_clear (s : Store) (name : String) : s.clear.snapshot? name = none := rfl

theorem isCurrent_iff (s : Store) (uri : String) (generation : Nat) :
    s.isCurrent uri generation = true ↔
      ∃ snap, s.snapshot? uri = some snap ∧ snap.generation = generation := by
  unfold isCurrent
  cases h : s.snapshot? uri with
  | none => simp
  | some snap =>
      simp only [Option.any_some, beq_iff_eq, Int.natCast_inj, Option.some.injEq, exists_eq_left']
      exact eq_comm

def Call.touches (uri : String) : Call → Bool
  | put u _ => u == uri
  | close u => u == uri
  | clear => true
  | _ => false

end Store
end TypedAnt
