import KnowledgeImport.Backend.Script
import KnowledgeImport.Text.Blank

/-!
# Messages on the wire

The octets of a request and the response that octets spell, as HTTP 1.1 writes them. Every
connection carries one request and one response.
-/

namespace KnowledgeImport

open Text

/-- The end of a line on the wire. -/
def lineEnd : String := "\r\n"

/-! ### Requests -/

/-- The length of the longest run of an octet. -/
def longestRun (b : Octet) (bs : List Octet) : Nat :=
  (bs.foldl (fun (run, longest) c =>
    let run := if c = b then run + 1 else 0
    (run, max run longest)) (0, 0)).2

/-- The name of a file as a header writes it: quotes and line ends as percent codes. -/
def headerFileName (s : String) : String :=
  ((s.replace "\"" "%22").replace "\r" "%0D").replace "\n" "%0A"

namespace FormPart

/-- The header and the content of a part. -/
def octets (p : FormPart) : List Octet :=
  let file := match p.fileName with
    | some n => "; filename=\"" ++ headerFileName n ++ "\""
    | none => ""
  encode ("Content-Disposition: form-data; name=\"" ++ p.name ++ "\"" ++ file ++ lineEnd ++ lineEnd)
    ++ p.content

end FormPart

namespace Request

/-- What separates the parts: more letters `x` in a row than any part has. -/
def boundary (r : Request) : String :=
  let longest := (r.parts.map fun p => longestRun 0x78 p.octets).foldl max 0
  String.ofList (List.replicate (longest + 1) 'x')

/-- The body: the parts with the boundary before, between and after them. -/
def body (r : Request) : List Octet :=
  if r.parts.isEmpty then []
  else
    let mark := "--" ++ r.boundary
    r.parts.flatMap (fun p => encode (mark ++ lineEnd) ++ p.octets ++ encode lineEnd)
      ++ encode (mark ++ "--" ++ lineEnd)

/-- The host and, where it is not the usual one, the port. -/
def hostText (r : Request) : String :=
  match r.url.authority with
  | some a => String.ofList ({ a with credentials := {} }.text.drop 2)
  | none => ""

/-- The octets of a request. -/
def octets (r : Request) : List Octet :=
  let body := r.body
  let content :=
    if r.parts.isEmpty then []
    else ["Content-Type: multipart/form-data; boundary=" ++ r.boundary,
      "Content-Length: " ++ toString body.length]
  let lines := [r.method.name ++ " " ++ r.url.requestTarget ++ " HTTP/1.1",
    "Host: " ++ r.hostText, "Accept: */*", "Connection: close"] ++ content
  encode (String.join (lines.map (· ++ lineEnd)) ++ lineEnd) ++ body

end Request

/-! ### Responses -/

/-- What stands before and after the first occurrence of some octets. -/
def cutAt? (mark : List Octet) : List Octet → Option (List Octet × List Octet)
  | [] => none
  | b :: bs =>
    if mark.isPrefixOf (b :: bs) then some ([], (b :: bs).drop mark.length)
    else (cutAt? mark bs).map fun (front, back) => (b :: front, back)

/-- The octets of chunks put together, or `none` if they break off. Each chunk starts with its size
in base 16 on a line; a chunk of no octets ends the body. `limit` bounds the number of chunks. -/
def joinChunks (limit : Nat) (bs : List Octet) : Option (List Octet) :=
  match limit with
  | 0 => none
  | limit + 1 => do
    let (line, rest) ← cutAt? (encode lineEnd) bs
    let size ← numeral? 16 ((decodeLossy line).toList.takeWhile fun c => (hexValue? c).isSome)
    if size = 0 then return []
    if rest.length < size then none
    return rest.take size ++ (← joinChunks limit (rest.drop (size + lineEnd.length)))

namespace Response

/-- The value of a header, by its name in lower case. -/
def header? (name : String) (lines : List String) : Option String :=
  lines.findSome? fun line =>
    let cs := line.toList
    if asciiLower (String.ofList (cs.takeWhile (· ≠ ':'))) = name then
      some (trim (String.ofList ((cs.dropWhile (· ≠ ':')).drop 1)))
    else none

/-- The body that follows the headers, or `none` if it breaks off. -/
def bodyAfter (status : Nat) (headers : List String) (rest : List Octet) : Option (List Octet) :=
  if ScriptedAnswer.isBodiless status then some []
  else if (header? "transfer-encoding" headers).any (asciiLower · = "chunked") then
    joinChunks (rest.length + 1) rest
  else match (header? "content-length" headers).bind String.toNat? with
    | some n => if rest.length < n then none else some (rest.take n)
    | none => some rest

/-- The response that the octets of a connection spell, if its headers are there. -/
def ofOctets? (bs : List Octet) : Option Response := do
  let (head, rest) ← cutAt? (encode (lineEnd ++ lineEnd)) bs
  let lines := (decodeLossy head).splitOn lineEnd
  let status ← (((lines.headD "").splitOn " ")[1]?).bind String.toNat?
  return { status, body := bodyAfter status lines.tail rest }

end Response

end KnowledgeImport
