/-!
# Types

A type of TypedAnt is named, or it is the type of a function.  The five built-in
functions have types of their own, which look and behave like the function types
with the same parameters and result but can still be recognised: a name that
holds the type of the built-in function it names is not shadowed.
-/

namespace TypedAnt

inductive Builtin where
  | print
  | len
  | str
  | int
  | float
deriving DecidableEq, Repr

inductive Ty where
  | plain (name : String)
  | func (params : List Ty) (result : Ty)
  | builtin (b : Builtin)
deriving Inhabited

namespace Ty

def int : Ty :=
  plain "int"

def float : Ty :=
  plain "float"

def str : Ty :=
  plain "str"

def bool : Ty :=
  plain "bool"

def unit : Ty :=
  plain "unit"

def any : Ty :=
  plain "any"

def primitiveNames : List String :=
  ["int", "float", "str", "bool", "unit"]

def primitive? (name : String) : Option Ty :=
  if primitiveNames.contains name then some (plain name) else none

end Ty

namespace Builtin

def all : List Builtin :=
  [print, len, str, int, float]

def name : Builtin → String
  | print => "print"
  | len => "len"
  | str => "str"
  | int => "int"
  | float => "float"

def ofName? (name : String) : Option Builtin :=
  all.find? fun b => b.name == name

def param : Builtin → String
  | len => "str"
  | print | str | int | float => "any"

def result : Builtin → String
  | print => "unit"
  | len | int => "int"
  | str => "str"
  | float => "float"

end Builtin

namespace Ty

/-!
# Shape of a type

Two types are the same when their shapes are, where a built-in function has the
shape of any other function with its parameter and result.
-/

mutual

def shape : Ty → Ty
  | plain name => plain name
  | func params result => func (shapes params) result.shape
  | builtin b => func [plain b.param] (plain b.result)

def shapes : List Ty → List Ty
  | [] => []
  | t :: ts => t.shape :: shapes ts

end

mutual

def beqShape : Ty → Ty → Bool
  | plain m, plain n => m == n
  | func ps r, func qs s => beqShapes ps qs && beqShape r s
  | builtin b, builtin c => b == c
  | _, _ => false

def beqShapes : List Ty → List Ty → Bool
  | [], [] => true
  | t :: ts, u :: us => beqShape t u && beqShapes ts us
  | _, _ => false

end

def same (s t : Ty) : Bool :=
  beqShape s.shape t.shape

def signature? : Ty → Option (List Ty × Ty)
  | plain _ => none
  | func params result => some (params, result)
  | builtin b => some ([plain b.param], plain b.result)

mutual

def text : Ty → String
  | plain name => name
  | func params result =>
      "func(" ++ ", ".intercalate (texts params) ++ ") -> " ++ result.text
  | builtin b => "func(" ++ b.param ++ ") -> " ++ b.result

def texts : List Ty → List String
  | [] => []
  | t :: ts => t.text :: texts ts

end

def isNumeric (t : Ty) : Bool :=
  t.same int || t.same float

def assignable (expected actual : Ty) : Bool :=
  expected.same any || actual.same any || expected.same actual ||
    (expected.same float && actual.same int)

end Ty
end TypedAnt
