import KnowledgeImport.Url.Basic

/-!
# Requests and replies

What the client asks of the backend, and what can come of it.
-/

namespace KnowledgeImport

open Text

/-- How a request is made. -/
inductive Method where
  | get
  | post
  deriving DecidableEq, Repr

/-- The name of a method. -/
def Method.name : Method → String
  | .get => "GET"
  | .post => "POST"

/-- A part of a form. -/
structure FormPart where
  name : String
  /-- The name of the file that the part holds, if it holds one. -/
  fileName : Option String := none
  content : List Octet
  deriving DecidableEq, Repr

/-- A request. Only uploads have parts. -/
structure Request where
  method : Method
  url : Url
  parts : List FormPart := []
  deriving DecidableEq, Repr

/-- An answer of the backend. Nobody asks for its headers. -/
structure Response where
  status : Nat
  /-- The body, unless it broke off. -/
  body : Option (List Octet)
  deriving DecidableEq, Repr

/-- The status says that the request did what was asked. -/
def Response.isSuccess (r : Response) : Bool :=
  200 ≤ r.status && r.status < 300

/-- What comes of a request. -/
inductive Reply where
  /-- No connection was accepted, so nobody has the request. -/
  | refused
  /-- The request was received, and the connection closed without an answer. -/
  | dropped
  | response (r : Response)
  deriving DecidableEq, Repr

/-- Whoever takes requests: from what is requested and a state to the reply and the next state. -/
abbrev Server (σ : Type) := Request → σ → Reply × σ

/-- The way to a server: its state, and all requests so far with what came of them. -/
structure Link (σ : Type) where
  state : σ
  exchanges : List (Request × Reply) := []

namespace Link

variable {σ : Type}

/-- Sends a request. This is one call of the HTTP client, whatever it takes: redirects that it follows
are part of the call, and the reply is the one at their end. -/
def send (link : Link σ) (server : Server σ) (request : Request) : Reply × Link σ :=
  let (reply, state) := server request link.state
  (reply, { state, exchanges := link.exchanges ++ [(request, reply)] })

/-- The requests that were received, in order. -/
def received (link : Link σ) : List Request :=
  (link.exchanges.filter (·.2 ≠ .refused)).map (·.1)

end Link

end KnowledgeImport
