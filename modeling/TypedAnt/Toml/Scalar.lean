import TypedAnt.Numeral
import TypedAnt.Text
import TypedAnt.Value

/-!
# Single values of TOML

Texts, numbers, dates and times.  Each reader takes what it recognises off the front of
the characters and returns the rest.
-/

namespace TypedAnt
namespace Toml

inductive Fault where
  | malformed
  | numeral (fault : Numeral.Fault)
  | deepNesting
deriving DecidableEq, Repr

abbrev Attempt : Type → Type :=
  Except Fault

def malformed {α : Type} : Attempt α :=
  .error .malformed

def isGap (c : Char) : Bool :=
  c == ' ' || c == '\t'

/-- Control characters have no place in a document; tabs are not counted among them. -/
def isControl (c : Char) : Bool :=
  (c.toNat < 32 && c != '\t') || c.toNat == 127

/-!
# Texts
-/

def push (c : Char) (a : Attempt (List Char × List Char)) : Attempt (List Char × List Char) :=
  a.map fun (cs, rest) => (c :: cs, rest)

def coded? (cs : List Char) : Option Char :=
  let n := Text.ofDigits 16 cs
  if cs.all Text.isHexDigit && (n < 0xD800 || (0xE000 ≤ n && n ≤ 0x10FFFF)) then
    some (Char.ofNat n)
  else none

def pushCoded (cs : List Char) (a : Attempt (List Char × List Char)) :
    Attempt (List Char × List Char) :=
  match coded? cs with
  | some c => push c a
  | none => malformed

def escape? : Char → Option Char
  | 'b' => some '\x08'
  | 't' => some '\t'
  | 'n' => some '\n'
  | 'f' => some '\x0c'
  | 'r' => some '\r'
  | '"' => some '"'
  | '\\' => some '\\'
  | _ => none

/-- Up to two more marks after the closing three belong to the text. -/
def extraMarks (mark : Char) : List Char → List Char × List Char
  | a :: b :: rest =>
      if a == mark then if b == mark then ([a, b], rest) else ([a], b :: rest)
      else ([], a :: b :: rest)
  | [a] => if a == mark then ([a], []) else ([], [a])
  | [] => ([], [])

inductive Fold where
  | none
  | toLineEnd
  | toNextWord
deriving DecidableEq, Repr

/--
The rest of a text in double quotes.  Over several lines, a backslash at the end of a
line joins it to the next word.
-/
def basicText (multi : Bool) : Fold → List Char → Attempt (List Char × List Char)
  | _, [] => malformed
  | .toLineEnd, c :: cs =>
      if isGap c then basicText multi .toLineEnd cs
      else if c == '\n' then basicText multi .toNextWord cs
      else malformed
  | fold, c :: cs =>
      if fold == .toNextWord && (isGap c || c == '\n') then basicText multi .toNextWord cs
      else if c == '"' then
        if multi then
          match cs with
          | '"' :: '"' :: rest => .ok (extraMarks '"' rest)
          | _ => push '"' (basicText multi .none cs)
        else .ok ([], cs)
      else if c == '\\' then
        match cs with
        | 'u' :: c₁ :: c₂ :: c₃ :: c₄ :: rest =>
            pushCoded [c₁, c₂, c₃, c₄] (basicText multi .none rest)
        | 'U' :: c₁ :: c₂ :: c₃ :: c₄ :: c₅ :: c₆ :: c₇ :: c₈ :: rest =>
            pushCoded [c₁, c₂, c₃, c₄, c₅, c₆, c₇, c₈] (basicText multi .none rest)
        | e :: rest =>
            if multi && isGap e then basicText multi .toLineEnd rest
            else if multi && e == '\n' then basicText multi .toNextWord rest
            else
              match escape? e with
              | some c => push c (basicText multi .none rest)
              | none => malformed
        | [] => malformed
      else if isControl c && !(multi && c == '\n') then malformed
      else push c (basicText multi .none cs)

def literalText : List Char → Attempt (List Char × List Char)
  | [] => malformed
  | c :: cs =>
      if c == '\'' then .ok ([], cs)
      else if isControl c then malformed
      else push c (literalText cs)

def literalLines : List Char → Attempt (List Char × List Char)
  | '\'' :: '\'' :: '\'' :: rest => .ok (extraMarks '\'' rest)
  | c :: cs => if isControl c && c != '\n' then malformed else push c (literalLines cs)
  | [] => malformed

def dropFeed : List Char → List Char
  | '\n' :: rest => rest
  | cs => cs

/-!
# Numbers
-/

def digitRun (isDigit : Char → Bool) : List Char → List Char × List Char
  | '_' :: c :: cs =>
      if isDigit c then
        let (run, rest) := digitRun isDigit cs
        ('_' :: c :: run, rest)
      else ([], '_' :: c :: cs)
  | c :: cs =>
      if isDigit c then
        let (run, rest) := digitRun isDigit cs
        (c :: run, rest)
      else ([], c :: cs)
  | [] => ([], [])

def digits? (isDigit : Char → Bool) (cs : List Char) : Option (List Char × List Char) :=
  if cs.head?.any isDigit then some (digitRun isDigit cs) else none

def inBase (base : Nat) (c : Char) : Bool :=
  (Text.hexDigit? c).any (· < base)

def baseOf : Char → Option Nat
  | 'x' => some 16
  | 'o' => some 8
  | 'b' => some 2
  | _ => none

def based? : List Char → Option (Value × List Char)
  | '0' :: mark :: cs =>
      match baseOf mark with
      | none => none
      | some base =>
          (digits? (inBase base) cs).map fun (run, rest) =>
            (.int (Text.ofDigits base run), rest)
  | _ => none

def splitSign : List Char → List Char × List Char
  | c :: cs => if c == '+' || c == '-' then ([c], cs) else ([], c :: cs)
  | [] => ([], [])

def whole? : List Char → Option (List Char × List Char)
  | '0' :: rest => some (['0'], rest)
  | cs => digits? (inBase 10) cs

def fractionPart : List Char → List Char × List Char
  | '.' :: cs =>
      match digits? (inBase 10) cs with
      | some (run, rest) => ('.' :: run, rest)
      | none => ([], '.' :: cs)
  | cs => ([], cs)

def exponentPart : List Char → List Char × List Char
  | c :: cs =>
      if c == 'e' || c == 'E' then
        let (sign, tail) := splitSign cs
        match digits? (inBase 10) tail with
        | some (run, rest) => (c :: sign ++ run, rest)
        | none => ([], c :: cs)
      else ([], c :: cs)
  | [] => ([], [])

def decimal? (cs : List Char) : Option (Attempt (Value × List Char)) :=
  let (sign, tail) := splitSign cs
  (whole? tail).map fun (whole, rest) =>
    let (fraction, rest) := fractionPart rest
    let (exponent, rest) := exponentPart rest
    let text := String.ofList (sign ++ whole ++ fraction ++ exponent)
    if fraction.isEmpty && exponent.isEmpty then
      match Numeral.readInt text with
      | .ok n => .ok (.int n, rest)
      | .error fault => .error (.numeral fault)
    else
      match Numeral.readFloat text with
      | .ok bits => .ok (.float bits, rest)
      | .error fault => .error (.numeral fault)

def special? (cs : List Char) : Option (Value × List Char) :=
  let (sign, tail) := splitSign cs
  let signed (bits : UInt64) : UInt64 := if sign == ['-'] then bits ||| Numeral.signBit else bits
  match tail with
  | 'i' :: 'n' :: 'f' :: rest => some (.float (signed Numeral.infinityBits), rest)
  | 'n' :: 'a' :: 'n' :: rest => some (.float (signed Numeral.nanBits), rest)
  | _ => none

/-!
# Dates and times
-/

def pair? (low high : Nat) (a b : Char) : Option Nat :=
  match Text.asciiDigit? a, Text.asciiDigit? b with
  | some x, some y => let n := 10 * x + y; if low ≤ n ∧ n ≤ high then some n else none
  | _, _ => none

def microseconds : List Char → Nat × List Char
  | '.' :: cs =>
      let run := cs.takeWhile Text.isAsciiDigit
      if run.isEmpty then (0, '.' :: cs)
      else
        let six := (Numeral.digitValues run ++ List.replicate 6 0).take 6
        (Numeral.ofDigits six, cs.dropWhile Text.isAsciiDigit)
  | cs => (0, cs)

def time? : List Char → Option (TimeOfDay × List Char)
  | h₁ :: h₂ :: ':' :: m₁ :: m₂ :: ':' :: s₁ :: s₂ :: rest => do
      let hour ← pair? 0 23 h₁ h₂
      let minute ← pair? 0 59 m₁ m₂
      let second ← pair? 0 59 s₁ s₂
      let (micro, rest) := microseconds rest
      return (⟨hour, minute, second, micro⟩, rest)
  | _ => none

def offset : List Char → Option Int × List Char
  | 'Z' :: rest => (some 0, rest)
  | 'z' :: rest => (some 0, rest)
  | sign :: h₁ :: h₂ :: ':' :: m₁ :: m₂ :: rest =>
      match pair? 0 23 h₁ h₂, pair? 0 59 m₁ m₂ with
      | some h, some m =>
          let minutes : Int := 60 * h + m
          if sign == '+' then (some minutes, rest)
          else if sign == '-' then (some (-minutes), rest)
          else (none, sign :: h₁ :: h₂ :: ':' :: m₁ :: m₂ :: rest)
      | _, _ => (none, sign :: h₁ :: h₂ :: ':' :: m₁ :: m₂ :: rest)
  | cs => (none, cs)

def isLeapYear (year : Nat) : Bool :=
  year % 4 == 0 && (year % 100 != 0 || year % 400 == 0)

def daysIn (year month : Nat) : Nat :=
  if month = 2 then if isLeapYear year then 29 else 28
  else if month = 4 ∨ month = 6 ∨ month = 9 ∨ month = 11 then 30
  else 31

def date? : List Char → Option (Date × List Char)
  | y₁ :: y₂ :: y₃ :: y₄ :: '-' :: m₁ :: m₂ :: '-' :: d₁ :: d₂ :: rest => do
      let century ← pair? 0 99 y₁ y₂
      let year ← pair? 0 99 y₃ y₄
      let month ← pair? 1 12 m₁ m₂
      let day ← pair? 1 31 d₁ d₂
      return (⟨100 * century + year, month, day⟩, rest)
  | _ => none

def isDay (d : Date) : Bool :=
  1 ≤ d.year && d.day ≤ daysIn d.year d.month

def timeAfterDate? : List Char → Option (TimeOfDay × List Char)
  | c :: cs => if c == 'T' || c == 't' || c == ' ' then time? cs else none
  | [] => none

def dateTime? (cs : List Char) : Option (Attempt (Value × List Char)) :=
  (date? cs).map fun (d, rest) =>
    if isDay d then
      match timeAfterDate? rest with
      | none => .ok (.date d, rest)
      | some (t, rest) =>
          let (zone, rest) := offset rest
          .ok (.dateTime d t zone, rest)
    else malformed

/-!
# All of them
-/

def asText (a : Attempt (List Char × List Char)) : Attempt (Value × List Char) :=
  a.map fun (cs, rest) => (.text (String.ofList cs), rest)

def scalar (cs : List Char) : Attempt (Value × List Char) :=
  match cs with
  | '"' :: '"' :: '"' :: rest => asText (basicText true .none (dropFeed rest))
  | '"' :: rest => asText (basicText false .none rest)
  | '\'' :: '\'' :: '\'' :: rest => asText (literalLines (dropFeed rest))
  | '\'' :: rest => asText (literalText rest)
  | 't' :: 'r' :: 'u' :: 'e' :: rest => .ok (.bool true, rest)
  | 'f' :: 'a' :: 'l' :: 's' :: 'e' :: rest => .ok (.bool false, rest)
  | _ =>
      match dateTime? cs with
      | some a => a
      | none =>
          match (time? cs).map fun (t, rest) => (Value.time t, rest) with
          | some found => .ok found
          | none =>
              match based? cs with
              | some found => .ok found
              | none =>
                  match decimal? cs with
                  | some a => a
                  | none =>
                      match special? cs with
                      | some found => .ok found
                      | none => malformed

end Toml
end TypedAnt
