import TypedAnt.Text.Quoted
import TypedAnt.Token.Piece

/-!
# Lexing

The pieces of a text become tokens and lexical errors once they are given their
places.  Lexing never stops early: a stray character or an unclosed string
literal is recorded and skipped.
-/

namespace TypedAnt

/-- A place in a text; line and column count from one. -/
structure Place where
  line : Nat
  column : Nat
deriving DecidableEq, Repr

namespace Place

def start : Place :=
  ⟨1, 1⟩

def next (p : Place) (c : Char) : Place :=
  if c == '\n' then ⟨p.line + 1, 1⟩ else ⟨p.line, p.column + 1⟩

def after (p : Place) (cs : List Char) : Place :=
  cs.foldl next p

end Place

inductive LexFault where
  | stray (c : Char)
  | unclosed
deriving DecidableEq, Repr

structure LexError where
  place : Place
  fault : LexFault
deriving DecidableEq, Repr

def LexError.message (e : LexError) : String :=
  match e.fault with
  | .stray c => "unexpected character " ++ Text.quote (String.singleton c)
  | .unclosed => "unterminated string literal"

structure Lexed where
  tokens : List Token
  errors : List LexError
deriving DecidableEq, Repr

namespace Lexed

def ofPieces (p : Place) : List Piece → Lexed
  | [] => ⟨[⟨.eof, "", p.line, p.column⟩], []⟩
  | piece :: rest =>
      let tail := ofPieces (p.after piece.text) rest
      match piece with
      | .token kind text =>
          { tail with tokens := ⟨kind, String.ofList text, p.line, p.column⟩ :: tail.tokens }
      | .stray c => { tail with errors := ⟨p, .stray c⟩ :: tail.errors }
      | .unclosed _ => { tail with errors := ⟨p, .unclosed⟩ :: tail.errors }
      | .blank _ => tail
      | .comment _ => tail

def ofText (text : String) : Lexed :=
  ofPieces .start (Piece.split text.toList)

end Lexed
end TypedAnt
