import TypedAnt.Value

/-!
# The tree of a TOML document

While a document is read its tables are still open to more entries.  A table that has a
header of its own, or that dotted keys of an earlier section have filled, is closed:
no further header and no dotted key may name it.  An array of tables grows by one
table with each header, and only its last table can be entered.
-/

namespace TypedAnt
namespace Toml

inductive Node where
  | value (v : Value)
  | table (closed : Bool) (fields : List (String × Node))
  | tables (items : List (List (String × Node)))
deriving Inhabited

abbrev Branch : Type :=
  Fields Node

namespace Branch

def within (change : Branch → Option Branch) : List String → Branch → Option Branch
  | [], b => change b
  | key :: path, b =>
      match Fields.get? b key with
      | none => (within change path []).map fun inner => Fields.set b key (.table false inner)
      | some (.table closed inner) =>
          (within change path inner).map fun inner => Fields.set b key (.table closed inner)
      | some (.tables items) =>
          match items.getLast? with
          | none => none
          | some last =>
              (within change path last).map fun last =>
                Fields.set b key (.tables (items.dropLast ++ [last]))
      | some (.value _) => none

/-- Changes the table that a dotted key leads to; it leads only through open tables. -/
def dotted (change : Branch → Option Branch) : List String → Branch → Option Branch
  | [], b => change b
  | key :: path, b =>
      match Fields.get? b key with
      | none => (dotted change path []).map fun inner => Fields.set b key (.table false inner)
      | some (.table false inner) =>
          (dotted change path inner).map fun inner => Fields.set b key (.table false inner)
      | _ => none

def add (key : String) (v : Value) (b : Branch) : Option Branch :=
  match Fields.get? b key with
  | none => some (Fields.set b key (.value v))
  | some _ => none

/-- Opens the table of a header, which may exist only as long as nothing has closed it. -/
def openTable (key : String) (b : Branch) : Option Branch :=
  match Fields.get? b key with
  | none => some (Fields.set b key (.table true []))
  | some (.table false inner) => some (Fields.set b key (.table true inner))
  | _ => none

def addTable (key : String) (b : Branch) : Option Branch :=
  match Fields.get? b key with
  | none => some (Fields.set b key (.tables [[]]))
  | some (.tables items) => some (Fields.set b key (.tables (items ++ [[]])))
  | _ => none

def closeTable (key : String) (b : Branch) : Option Branch :=
  match Fields.get? b key with
  | some (.table _ inner) => some (Fields.set b key (.table true inner))
  | _ => some b

end Branch

/-!
# The finished document
-/

mutual

def Node.finish : Node → Value
  | .value v => v
  | .table _ fields => .table (finishFields fields)
  | .tables items => .list (finishTables items)

def finishFields : List (String × Node) → List (String × Value)
  | [] => []
  | (key, node) :: rest => (key, node.finish) :: finishFields rest

def finishTables : List (List (String × Node)) → List Value
  | [] => []
  | fields :: rest => .table (finishFields fields) :: finishTables rest

end

end Toml
end TypedAnt
