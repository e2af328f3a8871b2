import TypedAnt.Ty

/-!
# Relations between types

When two types are equal, when a value of one type may stand where another is required, and
which types can be called, said without a computation.
-/

namespace TypedAnt
namespace Ty

/-- Types are equal if their shapes are: the mark of a built-in function makes no difference. -/
def Equal (s t : Ty) : Prop :=
  s.shape = t.shape

def Numeric (t : Ty) : Prop :=
  t = int ∨ t = float

/-- The types of the values that may stand where a type is required. -/
inductive Accepts : Ty → Ty → Prop where
  | anything (actual : Ty) : Accepts any actual
  | anywhere (expected : Ty) : Accepts expected any
  | equal {expected actual : Ty} : expected.Equal actual → Accepts expected actual
  | widened : Accepts float int

inductive Takes : Ty → List Ty → Ty → Prop where
  | func (params : List Ty) (result : Ty) : Takes (func params result) params result
  | builtin (b : Builtin) : Takes (builtin b) [plain b.param] (plain b.result)

inductive Named : String → Ty → Prop where
  | int : Named "int" int
  | float : Named "float" float
  | str : Named "str" str
  | bool : Named "bool" bool
  | unit : Named "unit" unit

/-!
# The tests decide the relations
-/

mutual

theorem beqShape_iff : ∀ s t : Ty, beqShape s t = true ↔ s = t
  | plain m, plain n => by simp [beqShape]
  | plain m, func qs s => by simp [beqShape]
  | plain m, builtin c => by simp [beqShape]
  | func ps r, plain n => by simp [beqShape]
  | func ps r, func qs s => by simp [beqShape, beqShapes_iff ps qs, beqShape_iff r s]
  | func ps r, builtin c => by simp [beqShape]
  | builtin b, plain n => by simp [beqShape]
  | builtin b, func qs s => by simp [beqShape]
  | builtin b, builtin c => by simp [beqShape]

theorem beqShapes_iff : ∀ ss ts : List Ty, beqShapes ss ts = true ↔ ss = ts
  | [], [] => by simp [beqShapes]
  | [], t :: ts => by simp [beqShapes]
  | s :: ss, [] => by simp [beqShapes]
  | s :: ss, t :: ts => by simp [beqShapes, beqShape_iff s t, beqShapes_iff ss ts]

end

theorem same_iff {s t : Ty} : s.same t = true ↔ s.Equal t :=
  beqShape_iff s.shape t.shape

theorem shape_eq_plain_iff {t : Ty} {name : String} : t.shape = plain name ↔ t = plain name := by
  cases t <;> simp [shape]

@[simp] theorem same_plain_iff {t : Ty} {name : String} :
    t.same (plain name) = true ↔ t = plain name := by
  rw [same_iff]
  exact shape_eq_plain_iff

theorem isNumeric_iff {t : Ty} : t.isNumeric = true ↔ t.Numeric := by
  simp [isNumeric, Numeric, int, float]

theorem assignable_iff {expected actual : Ty} :
    expected.assignable actual = true ↔ expected.Accepts actual := by
  constructor
  · intro h
    simp only [assignable, Bool.or_eq_true, Bool.and_eq_true, any, float, int,
      same_plain_iff] at h
    rcases h with ((rfl | rfl) | hsame) | ⟨rfl, rfl⟩
    · exact .anything actual
    · exact .anywhere expected
    · exact .equal (same_iff.mp hsame)
    · exact .widened
  · intro h
    simp only [assignable, Bool.or_eq_true, Bool.and_eq_true]
    cases h with
    | anything => exact .inl (.inl (.inl (same_plain_iff.mpr rfl)))
    | anywhere => exact .inl (.inl (.inr (same_plain_iff.mpr rfl)))
    | equal hequal => exact .inl (.inr (same_iff.mpr hequal))
    | widened => exact .inr ⟨same_plain_iff.mpr rfl, same_plain_iff.mpr rfl⟩

theorem signature?_eq_some_iff {t : Ty} {params : List Ty} {result : Ty} :
    t.signature? = some (params, result) ↔ t.Takes params result := by
  constructor
  · intro h
    cases t with
    | plain name => cases h
    | func ps r =>
        cases h
        exact .func params result
    | builtin b =>
        cases h
        exact .builtin b
  · intro h
    cases h <;> rfl

theorem primitive?_eq_some_iff {name : String} {t : Ty} :
    primitive? name = some t ↔ Named name t := by
  constructor
  · intro h
    simp only [primitive?, primitiveNames, Option.ite_none_right_eq_some, Option.some.injEq,
      List.contains_iff_mem, List.mem_cons, List.not_mem_nil, or_false] at h
    rcases h with ⟨rfl | rfl | rfl | rfl | rfl, rfl⟩
    · exact .int
    · exact .float
    · exact .str
    · exact .bool
    · exact .unit
  · intro h
    cases h <;> rfl

end Ty
end TypedAnt
