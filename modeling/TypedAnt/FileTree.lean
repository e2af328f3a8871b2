import TypedAnt.Path
import TypedAnt.Text.Quoted

/-!
# Files

What the server can see of the file system: where there are directories, and what comes of
reading a file.
-/

namespace TypedAnt

inductive FileTree.Entry where
  | missing
  | unreadable
  | file (octets : List UInt8)
deriving DecidableEq, Repr

structure FileTree where
  isDirectory : Path → Bool
  entry : Path → FileTree.Entry

namespace FileTree

inductive Fault where
  | nameTooLong (path : Path)
deriving DecidableEq, Repr

def Fault.message : Fault → String
  | nameTooLong path => "[Errno 36] File name too long: " ++ Text.quote path.text

/--
A path as a whole can be too long.  A single name shows to be too long where there is a
directory to look it up in.  A path with a null character is not looked up at all.
-/
def refuses (t : FileTree) (p : Path) : Bool :=
  !p.text.toList.contains '\x00' &&
    (Path.lengthLimit < p.text.utf8ByteSize || p.beforeLongName?.any t.isDirectory)

def read (t : FileTree) (p : Path) : Except Fault Entry :=
  if t.refuses p then .error (.nameTooLong p) else .ok (t.entry p)

end FileTree
end TypedAnt
