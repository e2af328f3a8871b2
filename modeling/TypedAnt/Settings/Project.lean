import TypedAnt.FileTree
import TypedAnt.Settings
import TypedAnt.Text.Utf8
import TypedAnt.Toml
import TypedAnt.Uri

/-!
# The project file

A workspace may hold a file with settings for the project.  A file that cannot be read or is
not a TOML document is passed over with a warning.  One that is not even text is a failure,
and so is one with an integer of too many digits or with values nested too deeply, or one
whose path is too long to be looked up.
-/

namespace TypedAnt

structure Workspace where
  rootUri : Option String := none
  folders : List String := []
  rootPath : Option String := none
deriving DecidableEq, Repr

namespace Workspace

def present (text : Option String) : Option String :=
  text.filter fun s => !s.isEmpty

/-- Two slashes start the name of a share; here no path follows the name. -/
def isBareShare (path : String) : Bool :=
  match path.toList with
  | '/' :: '/' :: name => !name.contains '/'
  | _ => false

/-- The root of a workspace: its URI goes before its first folder, and that before its path. -/
def root (w : Workspace) : Except Uri.Fault (Option String) :=
  match (present w.rootUri).or (present w.folders.head?) with
  | none => .ok w.rootPath
  | some uri => some <$> Uri.label uri

end Workspace

namespace Settings

inductive Failure where
  | root (fault : Uri.Fault)
  | bareShare
  | file (fault : FileTree.Fault)
  | encoding (fault : Utf8.Fault)
  | numeral (fault : Numeral.Fault)
  | deepNesting
  | value (obstacle : Value.Obstacle)
deriving DecidableEq, Repr

def Failure.message : Failure → String
  | root fault => fault.message
  | bareShare => "substring not found"
  | file fault => fault.message
  | encoding fault => fault.message
  | numeral fault => fault.message
  | deepNesting => "maximum recursion depth exceeded"
  | value obstacle => obstacle.message

namespace Project

def fileName : String :=
  ".antlsp.toml"

def feeds : List Char → List Char
  | '\r' :: '\n' :: rest => '\n' :: feeds rest
  | '\r' :: rest => '\n' :: feeds rest
  | c :: rest => c :: feeds rest
  | [] => []

def passOver (path : Path) : Logged (Except Failure (Fields Value)) :=
  { log := [⟨.warning, source, "read_project_config: ignoring unreadable " ++ path.text⟩]
    value := .ok [] }

def ofText (limit : Nat) (path : Path) (cs : List Char) :
    Logged (Except Failure (Fields Value)) :=
  match Toml.read limit (feeds cs) with
  | .ok fields => { value := .ok fields }
  | .error (.numeral fault) => { value := .error (.numeral fault) }
  | .error .deepNesting => { value := .error .deepNesting }
  | .error .malformed => passOver path

def ofOctets (limit : Nat) (path : Path) (octets : List UInt8) :
    Logged (Except Failure (Fields Value)) :=
  match Utf8.decode octets with
  | .error fault => { value := .error (.encoding fault) }
  | .ok cs => ofText limit path cs

def ofEntry (limit : Nat) (path : Path) : FileTree.Entry → Logged (Except Failure (Fields Value))
  | .missing => { value := .ok [] }
  | .unreadable => passOver path
  | .file octets => ofOctets limit path octets

def read (files : FileTree) (limit : Nat) (root : Option String) :
    Logged (Except Failure (Fields Value)) :=
  match Workspace.present root with
  | none => { value := .ok [] }
  | some root =>
      let path := (Path.ofText root).child fileName
      match files.read path with
      | .error fault => { value := .error (.file fault) }
      | .ok entry => ofEntry limit path entry

end Project

def load (files : FileTree) (limit level : Nat) (root : Option String)
    (options : Value) : Logged (Except Failure Settings) :=
  (Project.read files limit root).andThen fun fields =>
    Logged.mapError .value <|
      (merge limit level {} (.table fields)).andThen fun s => s.merge limit level options

end Settings
end TypedAnt
