import TypedAnt.Numeral.Shortest
import TypedAnt.Value

/-!
# Text of configuration values

A value is shown in full inside messages and inside other values.  Taken by itself as a
text, a text stands for itself, and dates and times have their usual written form.
A value that holds too long an integer, or that is nested too deeply, has no text.
-/

namespace TypedAnt

def padded (width n : Nat) : String :=
  String.ofList (Numeral.padLeft width (Nat.toDigits 10 n))

def Date.text (d : Date) : String :=
  padded 4 d.year ++ "-" ++ padded 2 d.month ++ "-" ++ padded 2 d.day

def TimeOfDay.text (t : TimeOfDay) : String :=
  padded 2 t.hour ++ ":" ++ padded 2 t.minute ++ ":" ++ padded 2 t.second ++
    (if t.microsecond = 0 then "" else "." ++ padded 6 t.microsecond)

def offsetText (minutes : Int) : String :=
  (if minutes < 0 then "-" else "+") ++ padded 2 (minutes.natAbs / 60) ++ ":" ++
    padded 2 (minutes.natAbs % 60)

def Date.parts (d : Date) : List String :=
  [toString d.year, toString d.month, toString d.day]

/-- Hour and minute, and no more than is needed of the rest. -/
def TimeOfDay.parts (t : TimeOfDay) : List String :=
  [toString t.hour, toString t.minute] ++
    (if t.microsecond ≠ 0 then [toString t.second, toString t.microsecond]
      else if t.second ≠ 0 then [toString t.second]
      else [])

def spanText (minutes : Int) : String :=
  let seconds := 60 * minutes
  let days := Int.fdiv seconds 86400
  let rest := Int.fmod seconds 86400
  "datetime.timedelta(" ++
    ", ".intercalate
      ((if days = 0 then [] else ["days=" ++ toString days]) ++
        (if rest = 0 then [] else ["seconds=" ++ toString rest])) ++ ")"

def zoneText (minutes : Int) : String :=
  if minutes = 0 then "datetime.timezone.utc"
  else "datetime.timezone(" ++ spanText minutes ++ ")"

namespace Value

def ofParts (name : String) (parts : List String) : String :=
  "datetime." ++ name ++ "(" ++ ", ".intercalate parts ++ ")"

mutual

def shown : Value → String
  | null => "None"
  | bool b => if b then "True" else "False"
  | int n => toString n
  | float bits => Numeral.floatText bits
  | text s => Text.quote s
  | date d => ofParts "date" d.parts
  | time t => ofParts "time" t.parts
  | dateTime d t offset =>
      ofParts "datetime" (d.parts ++ t.parts ++ (offset.map ("tzinfo=" ++ zoneText ·)).toList)
  | list items => "[" ++ ", ".intercalate (shownItems items) ++ "]"
  | table fields => "\x7b" ++ ", ".intercalate (shownFields fields) ++ "\x7d"
  | object title attributes => title ++ "(" ++ ", ".intercalate (shownAttributes attributes) ++ ")"

def shownItems : List Value → List String
  | [] => []
  | v :: rest => v.shown :: shownItems rest

def shownFields : List (String × Value) → List String
  | [] => []
  | (name, v) :: rest => (Text.quote name ++ ": " ++ v.shown) :: shownFields rest

def shownAttributes : List (String × Value) → List String
  | [] => []
  | (name, v) :: rest => (name ++ "=" ++ v.shown) :: shownAttributes rest

end

def asText : Value → String
  | text s => s
  | date d => d.text
  | time t => t.text
  | dateTime d t offset => d.text ++ " " ++ t.text ++ (offset.map offsetText).getD ""
  | v => v.shown

/-!
# Values without a text
-/

inductive Obstacle where
  | longInt
  | deepNesting
deriving DecidableEq, Repr

def Obstacle.message : Obstacle → String
  | longInt =>
      "Exceeds the limit (" ++ toString Numeral.digitLimit ++
        " digits) for integer string conversion; " ++
        "use sys.set_int_max_str_digits() to increase the limit"
  | deepNesting => "maximum recursion depth exceeded while getting the repr of an object"

mutual

/-- The first part of a value that cannot be shown, with so many levels left to go down. -/
def obstacle? (levels : Nat) : Value → Option Obstacle
  | int n => if n.natAbs < 10 ^ Numeral.digitLimit then none else some .longInt
  | list items => if levels = 0 then some .deepNesting else obstacleAmong? (levels - 1) items
  | table fields => if levels = 0 then some .deepNesting else obstacleWithin? (levels - 1) fields
  | object _ attributes =>
      if levels = 0 then some .deepNesting else obstacleWithin? (levels - 1) attributes
  | _ => none

def obstacleAmong? (levels : Nat) : List Value → Option Obstacle
  | [] => none
  | v :: rest => (obstacle? levels v).or (obstacleAmong? levels rest)

def obstacleWithin? (levels : Nat) : List (String × Value) → Option Obstacle
  | [] => none
  | (_, v) :: rest => (obstacle? levels v).or (obstacleWithin? levels rest)

end

def written (limit : Nat) (text : Value → String) (v : Value) : Except Obstacle String :=
  match obstacle? limit v with
  | some obstacle => .error obstacle
  | none => .ok (text v)

end Value
end TypedAnt
