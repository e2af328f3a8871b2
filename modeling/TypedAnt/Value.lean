import TypedAnt.Fields

/-!
# Configuration values

Settings arrive as values of no fixed shape, from the project file or from the
client.  Only the project file can hold dates and times.  A client may send objects with
attributes in the place of tables.
-/

namespace TypedAnt

structure Date where
  year : Nat
  month : Nat
  day : Nat
deriving DecidableEq, Repr

structure TimeOfDay where
  hour : Nat
  minute : Nat
  second : Nat
  microsecond : Nat
deriving DecidableEq, Repr

/-- Floats are kept as the bit patterns of doubles, offsets from universal time in minutes. -/
inductive Value where
  | null
  | bool (b : Bool)
  | int (n : Int)
  | float (bits : UInt64)
  | text (s : String)
  | date (d : Date)
  | time (t : TimeOfDay)
  | dateTime (d : Date) (t : TimeOfDay) (offset : Option Int)
  | list (items : List Value)
  | table (fields : List (String × Value))
  | object (title : String) (attributes : List (String × Value))
deriving Inhabited

/-- What a value holds under names: the fields of a table or the attributes of an object. -/
def Value.members : Value → Fields Value
  | table fields => fields
  | object _ attributes => attributes
  | _ => []

end TypedAnt
