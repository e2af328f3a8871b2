import TypedAnt.Text
import TypedAnt.Text.Quoted

/-!
# Numerals

Reading of integers and floating-point numbers.  Digits may come from any script,
single underscores may stand between digits, and blanks may surround the numeral.
The literals of TypedAnt are the plain case of this; the general case serves
command-line arguments and tokens made elsewhere.
-/

namespace TypedAnt
namespace Numeral

inductive Fault where
  | notInt (text : String)
  | notFloat (text : String)
  | tooLong (digits : Nat)
deriving DecidableEq, Repr

def digitLimit : Nat :=
  4300

/-- The rejected text is quoted; for integers at most 200 characters of it are shown. -/
def Fault.message : Fault → String
  | notInt text =>
      "invalid literal for int() with base 10: " ++
        String.ofList ((Text.quote text).toList.take 200)
  | notFloat text => "could not convert string to float: " ++ Text.quote text
  | tooLong digits =>
      "Exceeds the limit (" ++ toString digitLimit ++
        " digits) for integer string conversion: value has " ++ toString digits ++
        " digits; use sys.set_int_max_str_digits() to increase the limit"

/-!
# Common spelling

Digits and blanks of all scripts are first replaced by their ASCII counterparts;
no other character beyond ASCII has a place in a numeral.
-/

def plainChar (c : Char) : Char :=
  if c.toNat < 127 then c
  else if Text.isBlank c then ' '
  else
    match Text.decimalDigit? c with
    | some d => Nat.digitChar d
    | none => '?'

def isPlainBlank (c : Char) : Bool :=
  c == ' ' || (9 ≤ c.toNat && c.toNat ≤ 13)

def splitSign : List Char → Bool × List Char
  | '-' :: rest => (true, rest)
  | '+' :: rest => (false, rest)
  | rest => (false, rest)

def underscoresInside : Option Char → List Char → Bool
  | before, [] => before != some '_'
  | before, c :: rest =>
      (if c == '_' then before.any Text.isAsciiDigit
        else before != some '_' || Text.isAsciiDigit c) &&
        underscoresInside (some c) rest

def digitValues (cs : List Char) : List Nat :=
  cs.filterMap Text.asciiDigit?

def ofDigits (digits : List Nat) : Nat :=
  digits.foldl (fun n d => 10 * n + d) 0

/-!
# Integers
-/

def isDigitOrUnderscore (c : Char) : Bool :=
  Text.isAsciiDigit c || c == '_'

def readInt (text : String) : Except Fault Int :=
  let cs := (text.toList.map plainChar).dropWhile isPlainBlank
  let (negative, cs) := splitSign cs
  let run := cs.takeWhile isDigitOrUnderscore
  let rest := cs.dropWhile isDigitOrUnderscore
  let digits := digitValues run
  if !underscoresInside none run then .error (.notInt text)
  else if digitLimit < digits.length then .error (.tooLong digits.length)
  else if digits.isEmpty || !rest.all isPlainBlank then .error (.notInt text)
  else .ok (if negative then -(ofDigits digits : Int) else ofDigits digits)

/-!
# Floating-point numbers

Values are the bit patterns of IEEE 754 doubles, rounded to nearest.
-/

def signBit : UInt64 :=
  0x8000000000000000

def infinityBits : UInt64 :=
  0x7FF0000000000000

def nanBits : UInt64 :=
  0x7FF8000000000000

/--
The double nearest to the number with these decimal digits times `10 ^ exponent`.
Numbers whose leading digit lies far beyond the range of doubles are infinite or zero.
-/
def nearestBits (digits : List Nat) (exponent : Int) : UInt64 :=
  let digits := digits.dropWhile (· == 0)
  let leading := digits.length + exponent
  if digits.isEmpty || leading < -400 then 0
  else if 400 < leading then infinityBits
  else (Float.ofScientific (ofDigits digits) (exponent < 0) exponent.natAbs).toBits

def readExponent : List Char → Option Int
  | [] => some 0
  | mark :: rest =>
      if mark == 'e' || mark == 'E' then
        let (negative, digits) := splitSign rest
        if digits.isEmpty || !digits.all Text.isAsciiDigit then none
        else
          let n := ofDigits (digitValues digits)
          some (if negative then -(n : Int) else n)
      else none

/-- A decimal without sign: digits with at most one point among them, then an exponent. -/
def decimalBits (cs : List Char) : Option UInt64 :=
  let whole := cs.takeWhile Text.isAsciiDigit
  let rest := cs.dropWhile Text.isAsciiDigit
  let (fraction, rest) :=
    match rest with
    | '.' :: tail => (tail.takeWhile Text.isAsciiDigit, tail.dropWhile Text.isAsciiDigit)
    | _ => ([], rest)
  if whole.isEmpty && fraction.isEmpty then none
  else
    (readExponent rest).map fun e =>
      nearestBits (digitValues (whole ++ fraction)) (e - fraction.length)

def unsignedBits (cs : List Char) : Option UInt64 :=
  match String.ofList (cs.map Char.toLower) with
  | "inf" => some infinityBits
  | "infinity" => some infinityBits
  | "nan" => some nanBits
  | _ => decimalBits cs

def readFloat (text : String) : Except Fault UInt64 :=
  let cs := (text.toList.map plainChar).dropWhile isPlainBlank
  let cs := (cs.reverse.dropWhile isPlainBlank).reverse
  let (negative, digits) := splitSign (cs.filter (· != '_'))
  match unsignedBits digits with
  | some bits =>
      if underscoresInside none cs then .ok (if negative then bits ||| signBit else bits)
      else .error (.notFloat text)
  | none => .error (.notFloat text)

end Numeral
end TypedAnt
