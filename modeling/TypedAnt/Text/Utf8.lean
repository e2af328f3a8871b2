import TypedAnt.Text.Quoted

/-!
# Reading UTF-8

The first octet of a character says how many more belong to it and, for some, narrows
the range of the second; all others lie between `80` and `BF`.  An octet that does not
fit ends the faulty piece before it.
-/

namespace TypedAnt
namespace Utf8

inductive Reason where
  | badStart
  | badContinuation
  | endOfData
deriving DecidableEq, Repr

def Reason.text : Reason → String
  | badStart => "invalid start byte"
  | badContinuation => "invalid continuation byte"
  | endOfData => "unexpected end of data"

inductive Piece where
  | char (c : Char) (size : Nat)
  | fault (reason : Reason) (size : Nat)
deriving DecidableEq, Repr

def Piece.size : Piece → Nat
  | char _ size => size
  | fault _ size => size

/-- Reads the octets that are still owed, the next one between `low` and `high`. -/
def continued : (owed low high code taken : Nat) → List UInt8 → Piece
  | 0, _, _, code, taken, _ => .char (Char.ofNat code) taken
  | _ + 1, _, _, _, taken, [] => .fault .endOfData taken
  | owed + 1, low, high, code, taken, octet :: rest =>
      if low ≤ octet.toNat ∧ octet.toNat ≤ high then
        continued owed 0x80 0xBF (64 * code + octet.toNat % 64) (taken + 1) rest
      else .fault .badContinuation taken

def first (octet : UInt8) (rest : List UInt8) : Piece :=
  let n := octet.toNat
  if n < 0x80 then .char (Char.ofNat n) 1
  else if n < 0xC2 then .fault .badStart 1
  else if n < 0xE0 then continued 1 0x80 0xBF (n - 0xC0) 1 rest
  else if n < 0xF0 then
    let low := if n = 0xE0 then 0xA0 else 0x80
    let high := if n = 0xED then 0x9F else 0xBF
    continued 2 low high (n - 0xE0) 1 rest
  else if n < 0xF5 then
    let low := if n = 0xF0 then 0x90 else 0x80
    let high := if n = 0xF4 then 0x8F else 0xBF
    continued 3 low high (n - 0xF0) 1 rest
  else .fault .badStart 1

/-- The pieces of an input, after passing over octets of a piece that is already read. -/
def pieces : (skip : Nat) → List UInt8 → List Piece
  | _, [] => []
  | skip + 1, _ :: rest => pieces skip rest
  | 0, octet :: rest =>
      let piece := first octet rest
      piece :: pieces (piece.size - 1) rest

/-- Reads every character and puts `U+FFFD` for each faulty piece. -/
def decodeLossy (octets : List UInt8) : List Char :=
  (pieces 0 octets).map fun
    | .char c _ => c
    | .fault _ _ => Char.ofNat 0xFFFD

/-!
# Strict reading
-/

structure Fault where
  octet : UInt8
  position : Nat
  size : Nat
  reason : Reason
deriving DecidableEq, Repr

def Fault.message (f : Fault) : String :=
  let place :=
    if f.size = 1 then
      "byte 0x" ++ String.ofList (Text.hex 2 f.octet.toNat) ++ " in position " ++
        toString f.position
    else
      "bytes in position " ++ toString f.position ++ "-" ++ toString (f.position + f.size - 1)
  "'utf-8' codec can't decode " ++ place ++ ": " ++ f.reason.text

def firstFault (octets : List UInt8) : (position : Nat) → List Piece → Option Fault
  | _, [] => none
  | position, .char _ size :: rest => firstFault octets (position + size) rest
  | position, .fault reason size :: _ => some ⟨octets.getD position 0, position, size, reason⟩

def decode (octets : List UInt8) : Except Fault (List Char) :=
  match firstFault octets 0 (pieces 0 octets) with
  | some fault => .error fault
  | none => .ok (decodeLossy octets)

end Utf8
end TypedAnt
