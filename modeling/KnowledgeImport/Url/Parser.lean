import KnowledgeImport.Url.Basic
import KnowledgeImport.Url.DomainName

/-!
# Reading URLs

An absolute URL is read as browsers do: blanks at its ends and line breaks in it are left out,
slashes and backslashes count alike in known schemes, hosts are brought to their ASCII form, dots in
paths are followed, and everything else is kept with percent codes.
-/

namespace KnowledgeImport

open Text

namespace Url

/-- Why a text is no absolute URL. -/
inductive ParseError where
  | relative
  | emptyHost
  | invalidPort
  | invalidIpv4
  | invalidIpv6
  | invalidDomainName
  | invalidHostCharacter
  deriving DecidableEq, Repr

/-- The words for an error. -/
def ParseError.message : ParseError → String
  | .relative => "relative URL without a base"
  | .emptyHost => "empty host"
  | .invalidPort => "invalid port number"
  | .invalidIpv4 => "invalid IPv4 address"
  | .invalidIpv6 => "invalid IPv6 address"
  | .invalidDomainName => "invalid international domain name"
  | .invalidHostCharacter => "invalid domain character"

/-- The characters before the first that satisfies `p`, and the rest. -/
def splitBefore (p : Char → Bool) (cs : List Char) : List Char × List Char :=
  (cs.takeWhile (!p ·), cs.dropWhile (!p ·))

/-- The characters before the first of that kind, and those behind it if there is one. -/
def cut (c : Char) (cs : List Char) : List Char × Option (List Char) :=
  let (front, rest) := splitBefore (· == c) cs
  (front, match rest with
    | _ :: r => some r
    | [] => none)

/-! ### Scheme -/

/-- The scheme in lower case, and what follows its colon. -/
def readScheme? (cs : List Char) : Option (List Char × List Char) :=
  let (scheme, rest) := splitBefore (· == ':') cs
  let ok (c : Char) : Bool := c.isAlphanum || c == '+' || c == '-' || c == '.'
  match scheme, rest with
  | c :: _, _ :: rest =>
    if c.isAlpha && scheme.all ok then some (scheme.map Char.toLower, rest) else none
  | _, _ => none

/-- A slash, or a backslash in a known scheme. -/
def isSlash (special : Bool) (c : Char) : Bool :=
  c == '/' || (special && c == '\\')

/-- A character that ends an authority. -/
def endsAuthority (special : Bool) (c : Char) : Bool :=
  isSlash special c || c == '?' || c == '#'

/-! ### Host -/

/-- A character that the host of an unknown scheme may not have. -/
def isForbiddenInHost (c : Char) : Bool :=
  c.toNat == 0 || "\t\n\r #/:<>?@[\\]^|".toList.contains c

/-- A host in brackets. -/
def bracketedHost (cs : List Char) : Except ParseError Host :=
  if cs.getLast? ≠ some ']' then .error .invalidIpv6
  else match ipv6? (cs.drop 1).dropLast with
    | some groups => .ok (.ipv6 groups)
    | none => .error .invalidIpv6

/-- The host of a known scheme. A name that ends in a number has to be an address. -/
def parseHost (cs : List Char) : Except ParseError Host :=
  if cs.head? = some '[' then bracketedHost cs
  else match domainToAscii? (percentDecode cs) with
    | none => .error .invalidDomainName
    | some name =>
      if name.isEmpty then .error .emptyHost
      else if endsInNumber name then
        match ipv4? name with
        | some n => .ok (.ipv4 n)
        | none => .error .invalidIpv4
      else .ok (.name name)

/-- The host of an unknown scheme. -/
def parseOpaqueHost (cs : List Char) : Except ParseError Host :=
  if cs.head? = some '[' then bracketedHost cs
  else if cs.any isForbiddenInHost then .error .invalidHostCharacter
  else .ok (.name (percentEncode controlSet cs))

/-- The characters of a host, and what follows: a colon ends it outside of brackets. -/
def splitHost (special : Bool) (inBrackets : Bool) : List Char → List Char × List Char
  | [] => ([], [])
  | c :: cs =>
    if (c = ':' && !inBrackets) || endsAuthority special c then ([], c :: cs)
    else
      let inside := if c = '[' then true else if c = ']' then false else inBrackets
      let (front, rest) := splitHost special inside cs
      (c :: front, rest)

/-! ### Authority -/

/-- The credentials of a text before the last sign that ends them. An empty password is none. -/
def parseCredentials (cs : List Char) : Credentials :=
  let (user, password) := cut ':' cs
  { user := percentEncode userSet user
    password := (password.filter (!·.isEmpty)).map (percentEncode userSet) }

/-- The credentials of an authority, whether there is a sign that ends them, and what follows. -/
def readCredentials (special : Bool) (cs : List Char) :
    Except ParseError (Credentials × Bool × List Char) :=
  let (authority, rest) := splitBefore (endsAuthority special) cs
  if !authority.contains '@' then .ok ({}, false, cs)
  else
    let host := (authority.reverse.takeWhile (· ≠ '@')).reverse
    let front := authority.take (authority.length - host.length - 1)
    if front.isEmpty then
      if host.isEmpty && !rest.isEmpty then .error .emptyHost else .ok ({}, false, host ++ rest)
    else
      let credentials := parseCredentials front
      .ok (credentials, !credentials.text.isEmpty, host ++ rest)

/-- The port behind a colon, and what follows; the port of the scheme need not be named. -/
def readPort (scheme : List Char) (cs : List Char) :
    Except ParseError (Option Nat × List Char) :=
  let digits := cs.takeWhile Char.isDigit
  let rest := cs.dropWhile Char.isDigit
  let number := digits.foldl (fun n c => n * 10 + (c.toNat - '0'.toNat)) 0
  if number ≥ Nat.pow 2 16 || !(rest.head?.all (endsAuthority true)) then .error .invalidPort
  else if digits.isEmpty || defaultPort? scheme = some number then .ok (none, rest)
  else .ok (some number, rest)

/-- The authority of a URL, from behind its slashes, and what follows. -/
def readAuthority (scheme : List Char) (cs : List Char) :
    Except ParseError (Authority × List Char) := do
  let special := isSpecial scheme
  let (credentials, given, cs) ← readCredentials special cs
  let (hostText, cs) := splitHost special false cs
  if special && hostText.isEmpty then throw .emptyHost
  let host ← if special then parseHost hostText else parseOpaqueHost hostText
  let empty := host = .name []
  if empty && cs.head? = some ':' then throw .emptyHost
  let (port, cs) ← match cs with
    | ':' :: cs => readPort scheme cs
    | _ => pure (none, cs)
  if empty && given then throw .emptyHost
  return ({ credentials, host := if empty then none else some host, port }, cs)

/-! ### Path -/

/-- A path segment that asks for the directory itself. -/
def isDot (cs : List Char) : Bool :=
  [".", "%2e"].contains (String.ofList (cs.map Char.toLower))

/-- A path segment that asks for the directory above. -/
def isDoubleDot (cs : List Char) : Bool :=
  ["..", ".%2e", "%2e.", "%2e%2e"].contains (String.ofList (cs.map Char.toLower))

/-- A letter and a colon or bar: a disk of a file URL. -/
def isDrive (cs : List Char) : Bool :=
  match cs with
  | [a, b] => a.isAlpha && (b == ':' || b == '|')
  | _ => false

/-- Goes to the directory above; the segments stand in reverse. A disk is not left. -/
def goUp (file : Bool) (segments : List (List Char)) : List (List Char) :=
  match segments with
  | [d] => if file && isDrive d then [d] else []
  | _ :: above => above
  | [] => []

/-- One more segment; `last` says that no slash follows it. -/
def addSegment (file last : Bool) (segments : List (List Char)) (segment : List Char) :
    List (List Char) :=
  if isDoubleDot segment then
    let above := goUp file segments
    if last then [] :: above else above
  else if isDot segment then if last then [] :: segments else segments
  else if file && segments.isEmpty && isDrive segment then
    (segment.take 1 ++ [':']) :: segments
  else segment :: segments

/-- The segments of a path, in reverse, from its pieces between slashes. -/
def resolveSegments (file : Bool) : List (List Char) → List (List Char) → List (List Char)
  | segments, [] => segments
  | segments, [piece] => addSegment file true segments piece
  | segments, piece :: pieces => resolveSegments file (addSegment file false segments piece) pieces

/-- The pieces between slashes. -/
def pieces (special : Bool) (cs : List Char) : List (List Char) :=
  (cs.map fun c => if isSlash special c then '/' else c).splitOn '/'

/-- The path that pieces spell, with a slash before each segment. -/
def pathOf (file : Bool) (parts : List (List Char)) : List Char :=
  let encoded := parts.map (percentEncode pathSet)
  let segments := (resolveSegments file [] encoded).reverse
  let segments := if file then
      let rest := segments.dropWhile (·.isEmpty)
      if rest.isEmpty then [[]] else rest
    else segments
  segments.flatMap ('/' :: ·)

/-- The path behind an authority. -/
def authorityPath (special file : Bool) (cs : List Char) : List Char :=
  match cs with
  | [] => if special then ['/'] else []
  | c :: rest => pathOf file (pieces special (if isSlash special c then rest else c :: rest))

/-! ### The whole -/

/-- What stands before the query, and query and fragment. -/
def readTail (scheme : List Char) (cs : List Char) :
    List Char × Option (List Char) × Option (List Char) :=
  let (front, fragment) := cut '#' cs
  let (path, query) := cut '?' front
  let set := if isSpecial scheme then specialQuerySet else querySet
  (path, query.map (percentEncode set), fragment.map (percentEncode fragmentSet))

/-- The host of a file URL, from behind its slashes. The local host is none, and neither is a
disk. -/
def readFileHost (cs : List Char) : Except ParseError (Option Host × List Char) := do
  let (hostText, rest) := splitBefore (endsAuthority true) cs
  if isDrive hostText then return (none, cs)
  if hostText.isEmpty then return (none, rest)
  let host ← parseHost hostText
  return (if host = .name "localhost".toList then none else some host, rest)

/-- A file URL, from behind the colon of its scheme. -/
def parseFile (cs : List Char) : Except ParseError Url := do
  let (front, query, fragment) := readTail fileScheme cs
  let (host, path) ← match front with
    | a :: b :: rest =>
      if isSlash true a && isSlash true b then readFileHost rest else pure (none, front)
    | _ => pure (none, front)
  let path := match authorityPath true true path with
    | [] => ['/']
    | p => p
  let host := if isDrive ((path.drop 1).take 2) && (path.length = 3 || path[3]? = some '/') then
      none
    else host
  return { scheme := fileScheme, authority := some { host }, path, query, fragment }

/-- A URL, from behind the colon of its scheme. -/
def parseAfterScheme (scheme : List Char) (cs : List Char) : Except ParseError Url := do
  let withAuthority (cs : List Char) : Except ParseError Url := do
    let (authority, rest) ← readAuthority scheme cs
    let (front, query, fragment) := readTail scheme rest
    let path := authorityPath (isSpecial scheme) false front
    return { scheme, authority := some authority, path, query, fragment }
  if scheme = fileScheme then parseFile cs
  else if isSpecial scheme then withAuthority (cs.dropWhile (isSlash true))
  else match cs with
    | '/' :: '/' :: rest => withAuthority rest
    | '/' :: rest =>
      let (front, query, fragment) := readTail scheme rest
      let path := pathOf false (pieces false front)
      return { scheme, authority := none, path, query, fragment }
    | _ =>
      let (front, query, fragment) := readTail scheme cs
      let path := percentEncode controlSet front
      return { scheme, authority := none, path, query, fragment }

/-- Reads an absolute URL. -/
def parse (s : String) : Except ParseError Url :=
  let trimmed := dropEnds s.toList
  let cs := trimmed.filter fun c => !(c == '\t' || c == '\n' || c == '\r')
  match readScheme? cs with
  | none => .error .relative
  | some (scheme, rest) => parseAfterScheme scheme rest
where
  /-- The text without controls and spaces at its ends. -/
  dropEnds (cs : List Char) : List Char :=
    let drop (cs : List Char) : List Char := cs.dropWhile (·.toNat ≤ 0x20)
    (drop (drop cs).reverse).reverse

end Url

end KnowledgeImport
