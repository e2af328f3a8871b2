/-!
# String literals

A string literal stands between double quotes on one line; a backslash takes the
character after it along, whatever it is, except a newline.  `closeQuote` finds
the end of a literal, `unescape` gives the text that a literal denotes.
-/

namespace TypedAnt
namespace StringLiteral

/--
What is left of a literal after its opening quote: everything up to and including
the closing quote, or nothing when the line or the text ends first.
-/
def closeQuote : List Char → Option (List Char)
  | [] => none
  | '\n' :: _ => none
  | '"' :: _ => some ['"']
  | '\\' :: [] => none
  | '\\' :: '\n' :: _ => none
  | '\\' :: c :: rest => (closeQuote rest).map ('\\' :: c :: ·)
  | c :: rest => (closeQuote rest).map (c :: ·)

def escaped : Char → Char
  | 'n' => '\n'
  | 't' => '\t'
  | 'r' => '\r'
  | '0' => Char.ofNat 0
  | c => c

def unescapeBody : List Char → List Char
  | [] => []
  | '\\' :: [] => []
  | '\\' :: c :: rest => escaped c :: unescapeBody rest
  | c :: rest => c :: unescapeBody rest

/-- The body of a literal: its first character and, if it is a quote, its last one dropped. -/
def body (literal : List Char) : List Char :=
  if 2 ≤ literal.length ∧ literal.getLast? = some '"' then
    literal.tail.dropLast
  else
    literal.tail

def unescape (literal : String) : String :=
  String.ofList (unescapeBody (body literal.toList))

end StringLiteral
end TypedAnt
