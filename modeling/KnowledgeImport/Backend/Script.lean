import KnowledgeImport.Backend.Message

/-!
# A backend by script

A server that answers each endpoint as a script says and may go away after a number of requests.
-/

namespace KnowledgeImport

open Text

/-- The endpoint that says whether the backend is up. -/
def healthPath : String := "/api/health"

/-- The endpoint with the settings of the embedding provider. -/
def providerPath : String := "/api/credentials/categories/rag_strategy"

/-- The endpoint that takes files. -/
def uploadPath : String := "/api/documents/upload"

/-- What a script says about one endpoint. -/
structure ScriptedAnswer where
  status : Nat := 200
  body : List Octet := []
  /-- The connection is closed without an answer. -/
  drop : Bool := false
  /-- The body breaks off. -/
  cutsBody : Bool := false
  deriving DecidableEq, Repr

namespace ScriptedAnswer

/-- Answers with these statuses have no body. -/
def isBodiless (status : Nat) : Bool :=
  status == 204 || status == 304

/-- The reply to a request that was received. -/
def reply (a : ScriptedAnswer) : Reply :=
  if a.drop then .dropped
  else if isBodiless a.status then .response ⟨a.status, some []⟩
  else .response ⟨a.status, if a.cutsBody then none else some a.body⟩

end ScriptedAnswer

/-- A script. -/
structure Script where
  health : ScriptedAnswer := {}
  provider : ScriptedAnswer := {}
  /-- Answers to uploads by the name of the file; `*` stands for all other names. -/
  uploads : List (String × ScriptedAnswer) := []
  /-- After so many requests no connection is accepted any more. -/
  diesAfter : Option Nat := none
  deriving DecidableEq, Repr

namespace Script

/-- The answer to an upload. -/
def uploadAnswer (s : Script) (r : Request) : ScriptedAnswer :=
  let name := (r.parts.findSome? (·.fileName)).getD ""
  let named (n : String) : Option ScriptedAnswer := (s.uploads.find? (·.1 = n)).map (·.2)
  ((named name).or (named "*")).getD {}

/-- The answer to a request. -/
def answer (s : Script) (r : Request) : ScriptedAnswer :=
  let endsIn (path : String) : Bool := path.toList.isSuffixOf r.url.path
  match r.method with
  | .get =>
    if endsIn healthPath then s.health
    else if endsIn providerPath then s.provider
    else { status := 404 }
  | .post => if endsIn uploadPath then s.uploadAnswer r else { status := 404 }

/-- The server of a script; its state is how many requests it has received. -/
def server (s : Script) : Server Nat := fun r received =>
  if s.diesAfter.any (· ≤ received) then (.refused, received)
  else ((s.answer r).reply, received + 1)

end Script

end KnowledgeImport
