import KnowledgeImport.Url.Address
import KnowledgeImport.Url.PercentCode

/-!
# URLs

The parts of a URL and its text.
-/

namespace KnowledgeImport

open Text

namespace Url

/-- A host. -/
inductive Host where
  /-- A name, in ASCII. -/
  | name (cs : List Char)
  | ipv4 (n : Nat)
  | ipv6 (groups : List Nat)
  deriving DecidableEq, Repr

/-- The text of a host. -/
def Host.text : Host → List Char
  | .name cs => cs
  | .ipv4 n => ipv4Text n
  | .ipv6 groups => '[' :: ipv6Text groups ++ [']']

/-- Who asks, in front of the host: percent-encoded. -/
structure Credentials where
  user : List Char := []
  password : Option (List Char) := none
  deriving DecidableEq, Repr

/-- What stands between the scheme and the path. -/
structure Authority where
  credentials : Credentials := {}
  /-- An authority without a host is empty. -/
  host : Option Host
  port : Option Nat := none
  deriving DecidableEq, Repr

end Url

/-- A URL. All parts are as they are written, with percent codes. -/
structure Url where
  scheme : List Char
  authority : Option Url.Authority
  path : List Char
  query : Option (List Char) := none
  fragment : Option (List Char) := none
  deriving DecidableEq, Repr

namespace Url

/-- The schemes that browsers know and that have a host, with their ports. -/
def knownSchemes : List (List Char × Nat) :=
  [("http".toList, 80), ("https".toList, 443), ("ws".toList, 80), ("wss".toList, 443),
    ("ftp".toList, 21)]

/-- The port of a scheme. -/
def defaultPort? (scheme : List Char) : Option Nat :=
  (knownSchemes.find? (·.1 = scheme)).map (·.2)

def fileScheme : List Char := "file".toList

/-- Browsers know the scheme: backslashes are slashes, and the path is never empty. -/
def isSpecial (scheme : List Char) : Bool :=
  (defaultPort? scheme).isSome || scheme = fileScheme

/-- The text of credentials, with the sign that ends them. -/
def Credentials.text (c : Credentials) : List Char :=
  let password := match c.password with
    | some p => ':' :: p
    | none => []
  if c.user.isEmpty && c.password.isNone then [] else c.user ++ password ++ ['@']

/-- The text of an authority, with the slashes that start it. -/
def Authority.text (a : Authority) : List Char :=
  let host := (a.host.map Host.text).getD []
  let port := match a.port with
    | some n => ':' :: (toString n).toList
    | none => []
  ['/', '/'] ++ a.credentials.text ++ host ++ port

/-- The text of a URL. A path that starts with two slashes would be read as an authority, so a dot
stands before it if there is none. -/
def text (u : Url) : String :=
  let front := match u.authority with
    | some a => a.text
    | none => if ['/', '/'].isPrefixOf u.path then ['/', '.'] else []
  let tail (mark : Char) (part : Option (List Char)) : List Char :=
    match part with
    | some cs => mark :: cs
    | none => []
  String.ofList (u.scheme ++ ':' :: front ++ u.path ++ tail '?' u.query ++ tail '#' u.fragment)

/-- The path and the query, as a request names them. -/
def requestTarget (u : Url) : String :=
  String.ofList (u.path ++ match u.query with
    | some q => '?' :: q
    | none => [])

/-- The host, if there is one. -/
def host? (u : Url) : Option Host :=
  u.authority.bind (·.host)

/-- The URL without credentials. Those that are not UTF-8 are kept, because nobody can send them in
another way. -/
def withoutCredentials (u : Url) : Url :=
  match u.authority with
  | none => u
  | some a =>
    let isText (cs : List Char) : Bool := (decode? (percentDecode cs)).isSome
    let password := a.credentials.password.filter isText
    if isText a.credentials.user && (!a.credentials.user.isEmpty || password.isSome) then
      { u with authority := some { a with credentials := {} } }
    else u

end Url

end KnowledgeImport
