import TypedAnt.Text

/-!
# Paths

A path of the file system is taken apart at its slashes.  Empty names and single points
mean nothing and are left out.  A path that starts with exactly two slashes keeps them;
any other number at the start counts as one.
-/

namespace TypedAnt

structure Path where
  /-- The slashes that an absolute path starts with. -/
  root : String
  names : List String
deriving DecidableEq, Repr

namespace Path

def ofText (text : String) : Path :=
  let slashes := (text.toList.takeWhile (· == '/')).length
  let names := (Text.splitAt '/' text.toList).map String.ofList
  ⟨if slashes = 0 then "" else if slashes = 2 then "//" else "/",
    names.filter fun name => name != "" && name != "."⟩

def text (p : Path) : String :=
  p.root ++ "/".intercalate p.names

def child (p : Path) (name : String) : Path :=
  { p with names := p.names ++ [name] }

/-!
# Limits

The file system takes names and paths of a limited number of octets.
-/

def nameLimit : Nat :=
  255

def lengthLimit : Nat :=
  4095

def nameFits (name : String) : Bool :=
  name.utf8ByteSize ≤ nameLimit

def beforeLongName? (p : Path) : Option Path :=
  if p.names.all nameFits then none else some { p with names := p.names.takeWhile nameFits }

end Path
end TypedAnt
