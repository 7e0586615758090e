/-
# Connection URIs

A URI names the driver of a database by its scheme; what stands behind the
scheme is left to the driver. The parser looks through control characters and
spaces at the ends of the text and through tabs and line ends anywhere in it,
but the text is kept as it was given, apart from white space at its ends.
-/

import MetricCatalog.Source.Address
import MetricCatalog.Text.Blank

namespace MetricCatalog

open Text

/-- Why a text is no URI. -/
inductive UriFault
  /-- There is no scheme. -/
  | relative
  /-- The host is missing where there must be one. -/
  | emptyHost
  /-- The port is no number, or too large. -/
  | invalidPort
  /-- A character that a host cannot have. -/
  | invalidDomainCharacter
  /-- No address between the brackets. -/
  | invalidAddress
  deriving DecidableEq, Repr

/-- The text of the complaint. -/
def UriFault.message : UriFault → String
  | relative => "relative URL without a base"
  | emptyHost => "empty host"
  | invalidPort => "invalid port number"
  | invalidDomainCharacter => "invalid domain character"
  | invalidAddress => "invalid IPv6 address"

/-- A connection URI. -/
structure ConnectionUri where
  /-- The text, without the white space at its ends. -/
  raw : String
  /-- The scheme, in lower case. -/
  scheme : String
  /-- The host, if it is there and not empty. -/
  host : Option String
  deriving DecidableEq, Repr

namespace ConnectionUri

/-- Whether the parser looks through the character at the ends of a text. -/
def isPadding (c : Char) : Bool := c.toNat ≤ 32

/-- Whether the parser looks through the character anywhere. -/
def isSkipped (c : Char) : Bool := c = '\t' || c = '\n' || c = '\r'

/-- The text as the parser sees it. -/
def visible (text : List Char) : List Char :=
  let start := text.dropWhile isPadding
  (start.reverse.dropWhile isPadding).reverse.filter fun c => !isSkipped c

/-- Whether the character is a letter of the scheme's alphabet. -/
def isSchemeLetter (c : Char) : Bool := c.isAlpha

/-- Whether the character may stand in a scheme behind its first letter. -/
def isSchemeChar (c : Char) : Bool := c.isAlphanum || c = '+' || c = '-' || c = '.'

/-- The scheme of a text in lower case, and the text behind its colon. -/
def splitScheme (text : List Char) : Option (List Char × List Char) :=
  if !text.head?.any isSchemeLetter then none
  else
    match text.dropWhile isSchemeChar with
    | ':' :: rest => some ((text.takeWhile isSchemeChar).map Char.toLower, rest)
    | _ => none

/-- Whether the character ends the part of a URI that names the host. -/
def endsAuthority (c : Char) : Bool := c = '/' || c = '?' || c = '#'

/-- The text before the last at sign, if there is one, and the text behind it. -/
def splitUser (authority : List Char) : Option (List Char × List Char) :=
  if authority.contains '@' then
    let host := (authority.reverse.takeWhile (· ≠ '@')).reverse
    some (authority.take (authority.length - host.length - 1), host)
  else none

/-- The text of the host up to a colon outside brackets, and the text from the colon on. -/
def splitHost (inside : Bool) : List Char → List Char × List Char
  | [] => ([], [])
  | c :: rest =>
      if c = ':' && !inside then ([], c :: rest)
      else
        let inside := if c = '[' then true else if c = ']' then false else inside
        let (host, after) := splitHost inside rest
        (c :: host, after)

/-- Whether a host cannot have the character. -/
def isForbidden (c : Char) : Bool :=
  c = '\x00' || c = '\t' || c = '\n' || c = '\r' || c = ' ' || c = '#' || c = '/' || c = ':' ||
    c = '<' || c = '>' || c = '?' || c = '@' || c = '[' || c = '\\' || c = ']' || c = '^' ||
    c = '|'

/-- A byte behind a percent sign. -/
def percentByte (byte : UInt8) : List Char :=
  '%' :: (paddedHexDigits 2 byte.toNat).map Char.toUpper

/-- A character of a host: control characters and those outside ASCII are written as bytes. -/
def encodeHostChar (c : Char) : List Char :=
  if c.toNat < 32 || 126 < c.toNat then
    (String.singleton c).toUTF8.toList.flatMap percentByte
  else [c]

/-- The host that a text writes. -/
def readHost (text : List Char) : Except UriFault (List Char) :=
  match text with
  | '[' :: rest =>
      if rest.getLast? = some ']' then
        match Address.parse? rest.dropLast with
        | some groups => .ok ('[' :: Address.format groups ++ [']'])
        | none => .error .invalidAddress
      else .error .invalidAddress
  | _ =>
      if text.any isForbidden then .error .invalidDomainCharacter
      else .ok (text.flatMap encodeHostChar)

/-- Checks the port at the start of a text. A backslash ends it. -/
def checkPort (text : List Char) : Except UriFault Unit :=
  let digits := text.takeWhile isDigit
  if 65535 < decimalValue digits then .error .invalidPort
  else
    match text.drop digits.length with
    | [] | '\\' :: _ => .ok ()
    | _ => .error .invalidPort

/-- The host named by the text behind the double slash. A user in front of it needs a host, and
so does a port behind it. -/
def readAuthority (text : List Char) : Except UriFault (List Char) := do
  let authority := text.takeWhile fun c => !endsAuthority c
  let more := text.drop authority.length
  let (hasUser, hostText) ←
    match splitUser authority with
    | none => .ok (false, authority)
    | some (user, host) =>
        if user.isEmpty && host.isEmpty && !more.isEmpty then .error .emptyHost
        else .ok (!(user.isEmpty || user = [':']), host)
  let (hostText, port) := splitHost false hostText
  let host ← readHost hostText
  if host.isEmpty && (hasUser || !port.isEmpty) then .error .emptyHost
  else
    match port with
    | [] => .ok host
    | _ :: digits => do
        checkPort digits
        .ok host

/-- Reads a URI. -/
def parse (text : String) : Except UriFault ConnectionUri := do
  let raw := trimmed text
  match splitScheme (visible raw.toList) with
  | none => .error .relative
  | some (scheme, rest) =>
      let host ←
        match rest with
        | '/' :: '/' :: rest => readAuthority rest
        | _ => .ok []
      .ok ⟨raw, String.ofList scheme, if host.isEmpty then none else some (String.ofList host)⟩

/-- Everything behind the scheme and a double slash, in the text as it was given; nothing if the
double slash does not stand there. -/
def remainder (uri : ConnectionUri) : String :=
  match uri.raw.toList.drop (uri.scheme.length + 1) with
  | '/' :: '/' :: rest => String.ofList rest
  | _ => ""

end ConnectionUri

end MetricCatalog
