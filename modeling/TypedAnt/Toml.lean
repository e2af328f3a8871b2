import TypedAnt.Toml.Scalar
import TypedAnt.Toml.Tree

/-!
# Reading TOML

The project file is written in TOML: lines with a key and a value, below headers that
name the table they belong to.
-/

namespace TypedAnt
namespace Toml

def skipGap (cs : List Char) : List Char :=
  cs.dropWhile isGap

def skipComment : List Char → Attempt (List Char)
  | '#' :: cs =>
      if (cs.takeWhile (· != '\n')).any isControl then malformed
      else .ok (cs.dropWhile (· != '\n'))
  | cs => .ok cs

def skipBetween : (rounds : Nat) → List Char → Attempt (List Char)
  | 0, cs => .ok cs
  | rounds + 1, cs =>
      match cs.dropWhile fun c => isGap c || c == '\n' with
      | '#' :: rest => do
          let rest ← skipComment ('#' :: rest)
          skipBetween rounds rest
      | rest => .ok rest

/-!
# Keys
-/

def isBareChar (c : Char) : Bool :=
  c.isAlphanum || c == '-' || c == '_'

def keyPart (cs : List Char) : Attempt (String × List Char) :=
  match cs with
  | '"' :: rest => (basicText false .none rest).map fun (cs, rest) => (String.ofList cs, rest)
  | '\'' :: rest => (literalText rest).map fun (cs, rest) => (String.ofList cs, rest)
  | _ =>
      let word := cs.takeWhile isBareChar
      if word.isEmpty then malformed else .ok (String.ofList word, cs.dropWhile isBareChar)

def key : (rounds : Nat) → List Char → Attempt (List String × List Char)
  | 0, _ => malformed
  | rounds + 1, cs => do
      let (part, rest) ← keyPart cs
      match skipGap rest with
      | '.' :: rest => do
          let (parts, rest) ← key rounds (skipGap rest)
          return (part :: parts, rest)
      | rest => return ([part], rest)

def splitKey (parts : List String) : List String × String :=
  (parts.dropLast, parts.getLast?.getD "")

def changed (b : Option Branch) : Attempt Branch :=
  match b with
  | some b => .ok b
  | none => malformed

/-!
# Values

Arrays and inline tables hold values in turn, so these readers call each other; `fuel`
bounds how often, and twice the number of characters is always enough.  `levels` is
how many more arrays and tables may be opened inside each other.
-/

def descend : (levels : Nat) → Attempt Nat
  | 0 => .error .deepNesting
  | levels + 1 => .ok levels

mutual

def value : (fuel levels : Nat) → List Char → Attempt (Value × List Char)
  | 0, _, _ => malformed
  | fuel + 1, levels, cs =>
      match cs with
      | '[' :: rest => do
          let levels ← descend levels
          let rest ← skipBetween rest.length rest
          let (items, rest) ← items fuel levels rest
          return (.list items, rest)
      | '\x7b' :: rest => do
          let levels ← descend levels
          match skipGap rest with
          | '\x7d' :: rest => return (.table [], rest)
          | rest => do
              let (branch, rest) ← entries fuel levels [] rest
              return (.table (finishFields branch), rest)
      | _ => scalar cs

def items : (fuel levels : Nat) → List Char → Attempt (List Value × List Char)
  | 0, _, _ => malformed
  | fuel + 1, levels, cs =>
      match cs with
      | ']' :: rest => .ok ([], rest)
      | _ => do
          let (first, rest) ← value fuel levels cs
          let rest ← skipBetween rest.length rest
          match rest with
          | ']' :: rest => return ([first], rest)
          | ',' :: rest => do
              let rest ← skipBetween rest.length rest
              let (more, rest) ← items fuel levels rest
              return (first :: more, rest)
          | _ => malformed

def entries : (fuel levels : Nat) → Branch → List Char → Attempt (Branch × List Char)
  | 0, _, _, _ => malformed
  | fuel + 1, levels, branch, cs => do
      let (parts, v, rest) ← pair fuel levels cs
      let (path, last) := splitKey parts
      let branch ← changed (branch.dotted (Branch.add last v) path)
      match skipGap rest with
      | '\x7d' :: rest => return (branch, rest)
      | ',' :: rest => entries fuel levels branch (skipGap rest)
      | _ => malformed

def pair : (fuel levels : Nat) → List Char → Attempt (List String × Value × List Char)
  | 0, _, _ => malformed
  | fuel + 1, levels, cs => do
      let (parts, rest) ← key (cs.length + 1) cs
      match rest with
      | '=' :: rest => do
          let (v, rest) ← value fuel levels (skipGap rest)
          return (parts, v, rest)
      | _ => malformed

end

/-!
# Documents
-/

structure Document where
  root : Branch := []
  /-- The path of the table that the last header named. -/
  header : List String := []
  /-- Tables that dotted keys have entered since then; the next header closes them. -/
  entered : List (List String) := []

namespace Document

/-- Closes the tables that dotted keys of the section have entered. -/
def closeEntered (d : Document) : Document :=
  let close (root : Branch) (path : List String) : Branch :=
    let (parents, last) := splitKey path
    (root.within (Branch.closeTable last) parents).getD root
  { d with root := d.entered.foldl close d.root, entered := [] }

def addEntry (d : Document) (parts : List String) (v : Value) : Attempt Document := do
  let (path, last) := splitKey parts
  let root ← changed (d.root.within (Branch.dotted (Branch.add last v) path) d.header)
  let entered := (List.range path.length).map fun i => d.header ++ path.take (i + 1)
  return { d with root := root, entered := d.entered ++ entered }

def openTable (d : Document) (parts : List String) : Attempt Document := do
  let (path, last) := splitKey parts
  let root ← changed (d.root.within (Branch.openTable last) path)
  return { d with root := root, header := parts }

def addTable (d : Document) (parts : List String) : Attempt Document := do
  let (path, last) := splitKey parts
  let root ← changed (d.root.within (Branch.addTable last) path)
  return { d with root := root, header := parts }

def statement (levels : Nat) (d : Document) (cs : List Char) : Attempt (Document × List Char) :=
  match cs with
  | '[' :: '[' :: rest => do
      let (parts, rest) ← key rest.length (skipGap rest)
      let d ← d.closeEntered.addTable parts
      match rest with
      | ']' :: ']' :: rest => return (d, rest)
      | _ => malformed
  | '[' :: rest => do
      let (parts, rest) ← key rest.length (skipGap rest)
      let d ← d.closeEntered.openTable parts
      match rest with
      | ']' :: rest => return (d, rest)
      | _ => malformed
  | _ => do
      let (parts, v, rest) ← pair (2 * cs.length) levels cs
      let d ← d.addEntry parts v
      return (d, rest)

def lines (levels : Nat) : (rounds : Nat) → Document → List Char → Attempt Document
  | 0, d, _ => .ok d
  | rounds + 1, d, cs =>
      match skipGap cs with
      | [] => .ok d
      | '\n' :: rest => lines levels rounds d rest
      | c :: rest => do
          let (d, rest) ← if c == '#' then .ok (d, c :: rest) else d.statement levels (c :: rest)
          match ← skipComment (skipGap rest) with
          | [] => return d
          | '\n' :: rest => lines levels rounds d rest
          | _ => malformed

end Document

/-- The top-level table of a document whose values are nested in no more levels than given. -/
def read (levels : Nat) (cs : List Char) : Attempt (Fields Value) := do
  let d ← Document.lines levels (cs.length + 1) {} cs
  return finishFields d.root

end Toml
end TypedAnt
