import TypedAnt.Text

/-!
# Network addresses

The two written forms of a network address: four decimal octets, and up to eight groups
of hexadecimal digits of which one run may be left out.
-/

namespace TypedAnt
namespace Address

def isOctet (part : List Char) : Bool :=
  !part.isEmpty && part.all Char.isDigit && part.length ≤ 3 &&
    (part == ['0'] || part.head? != some '0') &&
    Text.ofDigits 10 part ≤ 255

def isDotted (text : List Char) : Bool :=
  let parts := Text.splitAt '.' text
  parts.length == 4 && parts.all isOctet

def isGroup (part : List Char) : Bool :=
  !part.isEmpty && part.all Text.isHexDigit && part.length ≤ 4

def expandLast (parts : List (List Char)) : Option (List (List Char)) :=
  match parts.getLast? with
  | none => some parts
  | some last =>
      if last.contains '.' then
        if isDotted last then some (parts.dropLast ++ [['0'], ['0']]) else none
      else some parts

/--
Eight groups, or fewer with one empty part among the inner ones.  At either end a part
is empty only next to that inner one.
-/
def areGroups (parts : List (List Char)) : Bool :=
  let inner := parts.tail.dropLast
  match inner.filter List.isEmpty with
  | [] => parts.length == 8 && parts.all isGroup
  | [_] =>
      let before := parts.take (inner.takeWhile (!·.isEmpty)).length.succ
      let after := parts.drop (before.length + 1)
      let side (groups : List (List Char)) : List (List Char) :=
        if groups == [[]] then [] else groups
      parts.length ≤ 9 && (side before).all isGroup && (side after).all isGroup &&
        (side before).length + (side after).length ≤ 7
  | _ => false

def isGrouped (text : List Char) : Bool :=
  let groups := text.takeWhile (· != '%')
  let zone := text.dropWhile (· != '%')
  (zone.isEmpty || (1 < zone.length && !zone.tail.contains '%')) &&
    3 ≤ (Text.splitAt ':' groups).length &&
    match expandLast (Text.splitAt ':' groups) with
    | none => false
    | some parts => areGroups parts

def isFuture (text : List Char) : Bool :=
  match text with
  | 'v' :: rest =>
      let after := rest.dropWhile Text.isHexDigit
      (rest.head?.any Text.isHexDigit) && after.head? == some '.' && 2 ≤ after.length
  | _ => false

end Address
end TypedAnt
