import TypedAnt.Fields
import TypedAnt.Ty

/-!
# Scopes

The names bound while a program is checked.  The global scope is always open; local
scopes are opened and closed on top of it, the innermost first in the list.
-/

namespace TypedAnt

structure Scopes where
  globals : Fields Ty := []
  locals : List (Fields Ty) := []
deriving Inhabited

namespace Scopes

def builtins : Fields Ty :=
  Builtin.all.map fun b => (b.name, .builtin b)

def seed (s : Scopes) : Scopes :=
  { s with globals := s.globals.setAll builtins }

def initial : Scopes :=
  seed {}

def lookup (s : Scopes) (name : String) : Option Ty :=
  (s.locals ++ [s.globals]).findSome? fun scope => scope.get? name

def define (s : Scopes) (name : String) (type : Ty) : Scopes :=
  match s.locals with
  | [] => { s with globals := s.globals.set name type }
  | inner :: outer => { s with locals := inner.set name type :: outer }

def enter (s : Scopes) : Scopes :=
  { s with locals := [] :: s.locals }

/-- Closes the innermost scope; the global scope stays open. -/
def exit (s : Scopes) : Scopes :=
  { s with locals := s.locals.tail }

def toList (s : Scopes) : List (Fields Ty) :=
  s.globals :: s.locals.reverse

def depth (s : Scopes) : Nat :=
  s.toList.length

/--
Every visible name with its innermost type.  A name stands where its outermost
binding stands.
-/
def visible (s : Scopes) : Fields Ty :=
  s.toList.foldl Fields.setAll []

def isBuiltin (s : Scopes) (name : String) : Bool :=
  match Builtin.ofName? name, s.lookup name with
  | some b, some (.builtin c) => b == c
  | _, _ => false

end Scopes
end TypedAnt
