import TypedAnt.Text.Utf8
import TypedAnt.Uri.Address

/-!
# Identifiers of documents

A document is named by a URI.  Only its scheme, its authority and its path are of
interest: a `file` URI stands for a path of the file system, with escapes decoded.
-/

namespace TypedAnt

structure Uri where
  scheme : List Char
  authority : List Char
  path : List Char
deriving DecidableEq, Repr

namespace Uri

inductive Fault where
  | badBrackets
  | badFutureAddress
  | badAddress (host : String)
  | bracketedOctets
  | disguisedDelimiter (authority : String)
deriving DecidableEq, Repr

def Fault.message : Fault → String
  | badBrackets => "Invalid IPv6 URL"
  | badFutureAddress => "IPvFuture address is invalid"
  | badAddress host =>
      Text.quote host ++ " does not appear to be an IPv4 or IPv6 address"
  | bracketedOctets => "An IPv4 address cannot be in brackets"
  | disguisedDelimiter authority =>
      "netloc '" ++ authority ++ "' contains invalid characters under NFKC normalization"

/-!
# Taking a URI apart
-/

/-- Control characters and blanks at the start do not count, nor do tabs and line ends anywhere. -/
def clean (cs : List Char) : List Char :=
  (cs.dropWhile fun c => c.toNat ≤ 0x20).filter fun c => c != '\t' && c != '\r' && c != '\n'

def isSchemeChar (c : Char) : Bool :=
  c.isAlphanum || c == '+' || c == '-' || c == '.'

def splitScheme (cs : List Char) : List Char × List Char :=
  let scheme := cs.takeWhile (· != ':')
  match cs.dropWhile (· != ':') with
  | _ :: rest =>
      if scheme.head?.any Char.isAlpha && scheme.all isSchemeChar then
        (scheme.map Char.toLower, rest)
      else ([], cs)
  | [] => ([], cs)

def splitAuthority : List Char → List Char × List Char
  | '/' :: '/' :: rest =>
      let isDelimiter (c : Char) : Bool := c == '/' || c == '?' || c == '#'
      (rest.takeWhile (!isDelimiter ·), rest.dropWhile (!isDelimiter ·))
  | cs => ([], cs)

/--
The host of an authority that has brackets.  It follows the last at sign.  Brackets around
it hold all of it, and at most the number of an endpoint follows them after a colon.
-/
def bracketedHost (authority : List Char) : Except Fault (List Char) :=
  let place := (authority.reverse.takeWhile (· != '@')).reverse
  match place.dropWhile (· != '[') with
  | [] => .ok (place.takeWhile (· != ':'))
  | _ :: inner =>
      let after := (inner.dropWhile (· != ']')).drop 1
      if place.head? == some '[' && (after.isEmpty || after.head? == some ':') then
        .ok (inner.takeWhile (· != ']'))
      else .error .badBrackets

def checkHost (host : List Char) : Except Fault Unit :=
  if host.head? = some 'v' then
    if Address.isFuture host then .ok () else .error .badFutureAddress
  else if Address.isDotted host then .error .bracketedOctets
  else if Address.isGrouped host then .ok ()
  else .error (.badAddress (String.ofList host))

def checkBrackets (authority : List Char) : Except Fault Unit :=
  if authority.contains '[' != authority.contains ']' then .error .badBrackets
  else if authority.contains '[' then do checkHost (← bracketedHost authority)
  else .ok ()

/-- The characters that turn into a text with a delimiter when compatibility forms are folded. -/
def disguises : List Nat :=
  [0x2047, 0x2048, 0x2049, 0x2100, 0x2101, 0x2105, 0x2106, 0x2A74, 0xFE13, 0xFE16, 0xFE55, 0xFE56,
   0xFE5F, 0xFE6B, 0xFF03, 0xFF0F, 0xFF1A, 0xFF1F, 0xFF20]

def checkDisguises (authority : List Char) : Except Fault Unit :=
  if authority.any fun c => disguises.contains c.toNat then
    .error (.disguisedDelimiter (String.ofList authority))
  else .ok ()

def ofText (text : String) : Except Fault Uri := do
  let (scheme, rest) := splitScheme (clean text.toList)
  let (authority, rest) := splitAuthority rest
  checkBrackets authority
  checkDisguises authority
  return ⟨scheme, authority, rest.takeWhile fun c => c != '#' && c != '?'⟩

/-!
# Escapes

A percent sign and two hexadecimal digits stand for an octet.  Octets and plain ASCII
characters side by side are read as UTF-8; anything else is kept.
-/

def octets : List Char → List UInt8
  | '%' :: high :: low :: rest =>
      match Text.hexDigit? high, Text.hexDigit? low with
      | some x, some y => UInt8.ofNat (16 * x + y) :: octets rest
      | _, _ => UInt8.ofNat '%'.toNat :: octets (high :: low :: rest)
  | c :: rest => UInt8.ofNat c.toNat :: octets rest
  | [] => []

def isAscii (c : Char) : Bool :=
  c.toNat < 0x80

def decodeEscapes (cs : List Char) : List Char :=
  (cs.splitBy fun a b => isAscii a == isAscii b).flatMap fun run =>
    if run.all isAscii then Utf8.decodeLossy (octets run) else run

/-!
# Paths
-/

/-- A path that starts with a drive loses its slash, and the drive is written in lower case. -/
def plainPath : List Char → List Char
  | '/' :: drive :: ':' :: rest =>
      if drive.isAlpha then drive.toLower :: ':' :: rest else '/' :: drive :: ':' :: rest
  | path => path

def filePath? (u : Uri) : Option String :=
  if u.scheme = "file".toList then
    let authority := decodeEscapes u.authority
    let path := decodeEscapes u.path
    if path.isEmpty then none
    else if authority.isEmpty then some (String.ofList (plainPath path))
    else some (String.ofList ('/' :: '/' :: authority ++ path))
  else none

def label (text : String) : Except Fault String := do
  return ((← ofText text).filePath?).getD text

end Uri
end TypedAnt
