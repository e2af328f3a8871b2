import TypedAnt.Text
import TypedAnt.Text.Units
import TypedAnt.Token

/-!
# Positions

The client counts lines and columns from zero, columns in code units.  Both numbers are
limited: they have to fit in 31 bits.
-/

namespace TypedAnt

structure Position where
  line : Int
  character : Int
deriving DecidableEq, Repr

namespace Position

def limit : Int :=
  2147483647

inductive Fault where
  | line (n : Int)
  | character (n : Int)
deriving DecidableEq, Repr

def Fault.message : Fault → String
  | line n => words "line" n
  | character n => words "character" n
where
  words (part : String) (n : Int) : String :=
    "Position." ++ part ++ " should be in range [0:" ++ toString limit ++ "], but was " ++
      toString n ++ "."

/-- The position with the given numbers, if both are in range.  The line is looked at first. -/
def ofNumbers (line character : Int) : Except Fault Position :=
  if line < 0 ∨ limit < line then .error (.line line)
  else if character < 0 ∨ limit < character then .error (.character character)
  else .ok ⟨line, character⟩

end Position

structure Range where
  start : Position
  stop : Position
deriving DecidableEq, Repr

namespace Token

def columns (t : Token) (units : Units) (text : String) : Nat × Nat :=
  let before := (Text.lineAt text (t.line - 1)).take (t.column - 1).toNat
  let start := units.count before
  (start, start + units.count t.value.toList)

def range (t : Token) (units : Units) (text : String) : Except Position.Fault Range := do
  let line := max (t.line - 1) 0
  let (start, stop) := t.columns units text
  return ⟨← Position.ofNumbers line start, ← Position.ofNumbers line stop⟩

end Token

namespace Position

def before (p : Position) (units : Units) (text : String) : List Char :=
  let line := Text.lineAt text p.line
  line.take (units.offset line p.character)

/-- The word characters directly before the position: what has been typed of a name so far. -/
def stem (p : Position) (units : Units) (text : String) : String :=
  String.ofList ((p.before units text).reverse.takeWhile Text.isWordChar).reverse

end Position
end TypedAnt
