import TypedAnt.Text
import TypedAnt.Token
import TypedAnt.Token.StringLiteral

/-!
# Pieces of a text

Every text splits into pieces, one after the other and without a gap: tokens,
single blanks, comments, characters that start no token, and string literals
that their line does not close.  `Piece.first` cuts off the first piece, and
`Piece.split` goes through the whole text.
-/

namespace TypedAnt

inductive Piece where
  | token (kind : TokenKind) (text : List Char)
  | blank (c : Char)
  | comment (text : List Char)
  | stray (c : Char)
  | unclosed (text : List Char)
deriving DecidableEq, Repr

namespace Piece

def text : Piece → List Char
  | token _ text => text
  | blank c => [c]
  | comment text => text
  | stray c => [c]
  | unclosed text => text

def isLineChar (c : Char) : Bool :=
  c != '\n'

def number (cs : List Char) : Piece :=
  let digits := cs.takeWhile Text.isAsciiDigit
  match cs.dropWhile Text.isAsciiDigit with
  | '.' :: d :: rest =>
      if Text.isAsciiDigit d then
        token .float (digits ++ '.' :: (d :: rest).takeWhile Text.isAsciiDigit)
      else
        token .int digits
  | _ => token .int digits

def word (cs : List Char) : Piece :=
  let text := cs.takeWhile Text.isWordChar
  token (if Token.keywords.contains (String.ofList text) then .keyword else .ident) text

def quoted (rest : List Char) : Piece :=
  match StringLiteral.closeQuote rest with
  | some tail => token .string ('"' :: tail)
  | none => unclosed ('"' :: rest.takeWhile isLineChar)

def operator? (cs : List Char) : Option (List Char) :=
  (Token.operators.map String.toList).find? (·.isPrefixOf cs)

def first (c : Char) (rest : List Char) : Piece :=
  if c == '\n' then token .newline ['\n']
  else if c == ' ' || c == '\t' || c == '\r' then blank c
  else if c == '/' && rest.head? == some '/' then comment (c :: rest.takeWhile isLineChar)
  else if Text.isAsciiDigit c then number (c :: rest)
  else if Text.isWordStart c then word (c :: rest)
  else if c == '"' then quoted rest
  else
    match operator? (c :: rest) with
    | some op => token .op op
    | none => stray c

/-- At least one character goes with every piece, so that splitting comes to an end. -/
def split : List Char → List Piece
  | [] => []
  | c :: rest =>
      let piece := first c rest
      piece :: split (rest.drop (piece.text.length - 1))
termination_by cs => cs.length
decreasing_by
  simp only [List.length_drop, List.length_cons]
  omega

end Piece
end TypedAnt
