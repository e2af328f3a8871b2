/-!
# Text

Classes of characters, digits, and the lines of a text.
-/

namespace TypedAnt
namespace Text

/-!
# Sets of code points

A property of characters is stored as a list of closed ranges of code points,
ascending and apart.  Membership walks the list and stops at the first range
that starts beyond the code point.
-/

def inRanges (n : Nat) : List (Nat × Nat) → Bool
  | [] => false
  | (first, last) :: rest =>
      if n < first then false else if n ≤ last then true else inRanges n rest

/-!
# Blank characters

The white space of Unicode together with the four information separators
U+001C to U+001F, and trimming by it.
-/

def blankRanges : List (Nat × Nat) :=
  [(0x9, 0xD), (0x1C, 0x20), (0x85, 0x85), (0xA0, 0xA0), (0x1680, 0x1680), (0x2000, 0x200A),
   (0x2028, 0x2029), (0x202F, 0x202F), (0x205F, 0x205F), (0x3000, 0x3000)]

def isBlank (c : Char) : Bool :=
  inRanges c.toNat blankRanges

def trimBlank (cs : List Char) : List Char :=
  ((cs.dropWhile isBlank).reverse.dropWhile isBlank).reverse

/-!
# Decimal digits

Every script of Unicode 14 with decimal digits has them in a run of ten, from
zero to nine, so a table of the zeros is enough.
-/

def digitZeros : List Nat :=
  [0x30, 0x660, 0x6F0, 0x7C0, 0x966, 0x9E6, 0xA66, 0xAE6, 0xB66, 0xBE6, 0xC66, 0xCE6, 0xD66,
   0xDE6, 0xE50, 0xED0, 0xF20, 0x1040, 0x1090, 0x17E0, 0x1810, 0x1946, 0x19D0, 0x1A80, 0x1A90,
   0x1B50, 0x1BB0, 0x1C40, 0x1C50, 0xA620, 0xA8D0, 0xA900, 0xA9D0, 0xA9F0, 0xAA50, 0xABF0,
   0xFF10, 0x104A0, 0x10D30, 0x11066, 0x110F0, 0x11136, 0x111D0, 0x112F0, 0x11450, 0x114D0,
   0x11650, 0x116C0, 0x11730, 0x118E0, 0x11950, 0x11C50, 0x11D50, 0x11DA0, 0x16A60, 0x16AC0,
   0x16B50, 0x1D7CE, 0x1D7D8, 0x1D7E2, 0x1D7EC, 0x1D7F6, 0x1E140, 0x1E2F0, 0x1E950, 0x1FBF0]

def decimalDigit? (c : Char) : Option Nat :=
  (digitZeros.find? fun start => start ≤ c.toNat && c.toNat < start + 10).map (c.toNat - ·)

def asciiDigit? (c : Char) : Option Nat :=
  if '0' ≤ c ∧ c ≤ '9' then some (c.toNat - 48) else none

def isAsciiDigit (c : Char) : Bool :=
  '0' ≤ c && c ≤ '9'

/-!
# Hexadecimal digits
-/

def hexDigit? (c : Char) : Option Nat :=
  if '0' ≤ c ∧ c ≤ '9' then some (c.toNat - 48)
  else if 'a' ≤ c ∧ c ≤ 'f' then some (c.toNat - 87)
  else if 'A' ≤ c ∧ c ≤ 'F' then some (c.toNat - 55)
  else none

def isHexDigit (c : Char) : Bool :=
  (hexDigit? c).isSome

def ofDigits (base : Nat) (cs : List Char) : Nat :=
  (cs.filterMap hexDigit?).foldl (fun n d => base * n + d) 0

/-!
# Lines

Lines end at line feeds and nowhere else.  A carriage return at the end of a line is
not part of it.
-/

/-- The runs of characters between separators; there is always one more run than separators. -/
def splitAt (separator : Char) : List Char → List (List Char)
  | [] => [[]]
  | c :: cs =>
      if c = separator then [] :: splitAt separator cs
      else
        match splitAt separator cs with
        | [] => [[c]]
        | run :: rest => (c :: run) :: rest

def dropReturn (line : List Char) : List Char :=
  if line.getLast? = some '\r' then line.dropLast else line

def lines (text : String) : List (List Char) :=
  (splitAt '\n' text.toList).map dropReturn

def lineAt (text : String) : Int → List Char
  | .ofNat n => (lines text).getD n []
  | .negSucc _ => []

end Text
end TypedAnt
