/-!
# Code units

A client counts columns in code units: in octets of UTF-8, in 16-bit words of UTF-16, or
in whole characters.
-/

namespace TypedAnt

inductive Units where
  | utf8
  | utf16
  | utf32
deriving DecidableEq, Repr

namespace Units

def name : Units → String
  | utf8 => "utf-8"
  | utf16 => "utf-16"
  | utf32 => "utf-32"

def ofName? (name : String) : Option Units :=
  [utf8, utf16, utf32].find? fun u => u.name == name

/-- The units a client gets by asking for `name`; without a known name they are those of UTF-16. -/
def ofName (name : String) : Units :=
  (ofName? name).getD utf16

def width : Units → Char → Nat
  | utf8, c =>
      if c.toNat < 0x80 then 1
      else if c.toNat < 0x800 then 2
      else if c.toNat < 0x10000 then 3
      else 4
  | utf16, c => if c.toNat < 0x10000 then 1 else 2
  | utf32, _ => 1

def count (u : Units) : List Char → Nat
  | [] => 0
  | c :: cs => u.width c + u.count cs

/--
The number of characters of a line that lie before a column.  A column inside a wide
character belongs to the start of that character, and one past the end to the end.
-/
def offset (u : Units) : List Char → (column : Int) → Nat
  | [], _ => 0
  | c :: cs, column =>
      if column < u.width c then 0 else u.offset cs (column - u.width c) + 1

end Units
end TypedAnt
