/-!
# Named fields

A list of named values in the order in which the names first arrived.  Setting a
name again replaces its value and keeps its place.
-/

namespace TypedAnt

abbrev Fields (α : Type) : Type :=
  List (String × α)

namespace Fields

variable {α : Type}

def get? (fs : Fields α) (name : String) : Option α :=
  List.lookup name fs

def set : Fields α → String → α → Fields α
  | [], name, value => [(name, value)]
  | (key, old) :: rest, name, value =>
      if key = name then (key, value) :: rest else (key, old) :: set rest name value

def setAll (fs more : Fields α) : Fields α :=
  more.foldl (fun acc field => acc.set field.1 field.2) fs

def erase (fs : Fields α) (name : String) : Fields α :=
  List.filter (fun field => field.1 != name) fs

def names (fs : Fields α) : List String :=
  List.map Prod.fst fs

end Fields
end TypedAnt
