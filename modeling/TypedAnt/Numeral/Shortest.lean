import TypedAnt.Numeral

/-!
# Shortest decimals

A double is written with as few significant digits as still read back as the same
double.  Of the decimals with that many digits the nearest is taken, and of two that
are equally near the one with an even last digit.
-/

namespace TypedAnt
namespace Numeral

def fraction (bits : UInt64) : Nat × Nat :=
  let hidden : Nat := 1 <<< 52
  let exponent := (bits.toNat >>> 52) % 2048
  let mantissa := bits.toNat % hidden
  if exponent = 0 then (mantissa, 1 <<< 1074)
  else if exponent < 1075 then (hidden + mantissa, 1 <<< (1075 - exponent))
  else ((hidden + mantissa) <<< (exponent - 1075), 1)

def scaled (q : Nat × Nat) : Int → Nat × Nat
  | .ofNat n => (q.1, q.2 * Nat.pow 10 n)
  | .negSucc n => (q.1 * Nat.pow 10 (n + 1), q.2)

def magnitude (q : Nat × Nat) : Int :=
  let power (i : Nat) : Int := (i : Int) - 330
  let exceeds (i : Nat) : Bool := let s := scaled q (power i); s.1 < s.2
  power (((List.range 660).find? exceeds).getD 660)

structure Decimal where
  digits : Nat
  exponent : Int
deriving DecidableEq, Repr

def Decimal.readsAs (d : Decimal) (bits : UInt64) : Bool :=
  nearestBits ((Nat.toDigits 10 d.digits).filterMap Text.asciiDigit?) d.exponent == bits

/--
The decimal with digits of the given power of ten upwards that reads as the double and
lies nearest to it.
-/
def nearestOn (bits : UInt64) (exponent : Int) : Option Decimal :=
  let (num, den) := scaled (fraction bits) exponent
  let low : Decimal := ⟨num / den, exponent⟩
  let high : Decimal := ⟨num / den + 1, exponent⟩
  let twice := 2 * (num % den)
  let lowFirst := twice < den || (twice == den && low.digits % 2 == 0)
  let order := if lowFirst then [low, high] else [high, low]
  order.find? fun d => d.readsAs bits

def shortest (bits : UInt64) : Decimal :=
  let top := magnitude (fraction bits)
  let attempt (n : Nat) : Option Decimal := nearestOn bits (top - (n + 1))
  ((List.range 17).findSome? attempt).getD ⟨0, 0⟩

/-!
# Layout

Doubles from a ten-thousandth up to `10 ^ 16` are written with a point, all others with
a power of ten of at least two digits.
-/

def padLeft (width : Nat) (cs : List Char) : List Char :=
  List.replicate (width - cs.length) '0' ++ cs

def Decimal.leading (d : Decimal) : List Char × Int :=
  let cs := Nat.toDigits 10 d.digits
  ((cs.reverse.dropWhile (· == '0')).reverse, d.exponent + (cs.length - 1 : Nat))

def layout (digits : List Char) (power : Int) : List Char :=
  if power < -4 ∨ 16 ≤ power then
    let fraction := if digits.tail.isEmpty then [] else '.' :: digits.tail
    let sign := if power < 0 then '-' else '+'
    digits.take 1 ++ fraction ++ 'e' :: sign :: padLeft 2 (Nat.toDigits 10 power.natAbs)
  else if power < 0 then
    '0' :: '.' :: List.replicate (power.natAbs - 1) '0' ++ digits
  else
    let whole := power.toNat + 1
    let fraction := digits.drop whole
    digits.take whole ++ List.replicate (whole - digits.length) '0' ++
      '.' :: (if fraction.isEmpty then ['0'] else fraction)

def unsignedText (bits : UInt64) : List Char :=
  if bits = infinityBits then "inf".toList
  else if bits = 0 then "0.0".toList
  else
    let (digits, power) := (shortest bits).leading
    layout digits power

def floatText (bits : UInt64) : String :=
  let magnitude := bits &&& 0x7FFFFFFFFFFFFFFF
  if infinityBits < magnitude then "nan"
  else
    String.ofList
      (if bits = magnitude then unsignedText magnitude else '-' :: unsignedText magnitude)

end Numeral
end TypedAnt
