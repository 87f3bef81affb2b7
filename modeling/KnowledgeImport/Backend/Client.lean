import KnowledgeImport.Backend.Provider
import KnowledgeImport.Backend.Script
import KnowledgeImport.FileTree.Lookup
import KnowledgeImport.Import.Pipeline
import KnowledgeImport.Text.Blank
import KnowledgeImport.Text.Quoted
import KnowledgeImport.Url.Parser

/-!
# The client of the backend

The client probes the backend with two requests and uploads files, one request for each. A file that
cannot be read or that the backend refuses is counted as failed; a connection that is refused ends
the batch.
-/

namespace KnowledgeImport

open Text

/-- What documents are filed as when code examples are to be extracted from them. -/
def codeKnowledgeType : String := "code"

/-- How many characters of an answer a message repeats. -/
def longestEcho : Nat := 200

/-- What a client is made from. -/
structure ClientConfig where
  baseUrl : String
  projectId : String
  concurrency : Nat
  knowledgeType : String
  tags : List String
  deriving DecidableEq, Repr

/-- Why there is no client. -/
inductive ClientError where
  | invalidUrl (url : String) (cause : Url.ParseError)
  deriving DecidableEq, Repr

/-- The words for an error. -/
def ClientError.message : ClientError → String
  | .invalidUrl url cause => "invalid backend URL " ++ quoted url ++ ": " ++ cause.message

/-- A client for one project on one backend. -/
structure Client where
  /-- The address of the backend, without slashes at its end. -/
  baseUrl : String
  projectId : String
  /-- How many files may be under way at a time, at least one. Requests are made here one after the
  other, which is all that a room for one file allows. -/
  concurrency : Nat
  knowledgeType : String
  tags : List String
  deriving DecidableEq, Repr

/-- What files are uploaded for. -/
inductive UploadKind where
  | documents
  | codeExamples
  deriving DecidableEq, Repr

/-- Why no response came. -/
inductive TransportError where
  /-- The address is no URL together with the endpoint. -/
  | noUrl
  /-- Requests to this URL cannot be made. -/
  | unsupported (url : Url)
  | dropped (url : Url)
  | refused (url : Url)
  deriving DecidableEq, Repr

namespace TransportError

/-- The words for an error. -/
def message : TransportError → String
  | .noUrl => "builder error"
  | .unsupported url => "builder error for url (" ++ url.text ++ ")"
  | .dropped url | .refused url => "error sending request for url (" ++ url.text ++ ")"

/-- No connection was accepted. -/
def isRefused : TransportError → Bool
  | .refused _ => true
  | .noUrl | .unsupported _ | .dropped _ => false

end TransportError

/-- What became of one file. -/
inductive FileResult where
  | uploaded
  | rejected (message : String)
  /-- The backend is gone. -/
  | lost (message : String)
  deriving DecidableEq, Repr

/-- Requests to the URL can be made: its scheme is that of the web, and its host is one. -/
def Url.isRequestable (u : Url) : Bool :=
  let hostChar (c : Char) : Bool :=
    c.isAlphanum || "-._~!$&'()*+,;=".toList.contains c
  let web := u.scheme = "http".toList || u.scheme = "https".toList
  web && match u.host? with
    | some (.name cs) => cs.all hostChar
    | some _ => true
    | none => false

namespace Client

/-- A client, if its address is a URL. -/
def ofConfig (config : ClientConfig) : Except ClientError Client :=
  match Url.parse config.baseUrl with
  | .error cause => .error (.invalidUrl config.baseUrl cause)
  | .ok _ => .ok {
      baseUrl := String.ofList (dropTrailing (· = '/') config.baseUrl.toList)
      projectId := config.projectId
      concurrency := max config.concurrency 1
      knowledgeType := config.knowledgeType
      tags := config.tags }

/-- The address of an endpoint. -/
def endpoint (client : Client) (path : String) : String :=
  client.baseUrl ++ path

variable {σ : Type}

/-- Makes a request, if that can be done. -/
def request (client : Client) (server : Server σ) (method : Method) (path : String)
    (parts : List FormPart) (link : Link σ) : Except TransportError Response × Link σ :=
  match Url.parse (client.endpoint path) with
  | .error _ => (.error .noUrl, link)
  | .ok url =>
    let shown := url.withoutCredentials
    if !url.isRequestable then
      (.error (.unsupported (if url.host?.isSome then shown else url)), link)
    else
      match link.send server { method, url := shown, parts } with
      | (.refused, link) => (.error (.refused shown), link)
      | (.dropped, link) => (.error (.dropped shown), link)
      | (.response r, link) => (.ok r, link)

/-! ### Probes -/

/-- Asks whether the backend is up. -/
def isReachable (client : Client) (server : Server σ) (link : Link σ) : Bool × Link σ :=
  match client.request server .get healthPath [] link with
  | (.ok r, link) => (r.isSuccess, link)
  | (.error _, link) => (false, link)

/-- The response holds settings that name a provider. -/
def namesProvider (r : Response) : Bool :=
  r.isSuccess && match r.body.bind decode? with
    | some text => (Json.Value.ofString? text).any providerConfigured
    | none => false

/-- Asks whether an embedding provider is configured. -/
def hasProvider (client : Client) (server : Server σ) (link : Link σ) : Bool × Link σ :=
  match client.request server .get providerPath [] link with
  | (.ok r, link) => (namesProvider r, link)
  | (.error _, link) => (false, link)

/-- Both probes. The second one is made only if the first succeeds. -/
def validate (client : Client) (server : Server σ) (link : Link σ) :
    ValidationReport × Link σ :=
  match client.isReachable server link with
  | (false, link) => (⟨false, false⟩, link)
  | (true, link) =>
    let (configured, link) := client.hasProvider server link
    (⟨true, configured⟩, link)

/-! ### Uploads -/

/-- The tags of every file, as JSON: that of the project first. -/
def tagsJson (client : Client) : String :=
  (Json.Value.texts (("project:" ++ client.projectId) :: client.tags)).compact

/-- The form for a file. -/
def form (client : Client) (kind : UploadKind) (path : Path) (content : List Octet) :
    List FormPart :=
  let fileName := (path.fileName?.map Name.display).getD "upload"
  let (knowledgeType, extract) := match kind with
    | .documents => (client.knowledgeType, "false")
    | .codeExamples => (codeKnowledgeType, "true")
  let field (name value : String) : FormPart := { name, content := encode value }
  [{ name := "file", fileName := some fileName, content },
    field "knowledge_type" knowledgeType,
    field "tags" client.tagsJson,
    field "project_id" client.projectId,
    field "extract_code_examples" extract]

/-- The text without what follows its first `n` characters. -/
def truncated (n : Nat) (s : String) : String :=
  String.ofList (s.toList.take n)

/-- What a message repeats of the body of an answer. -/
def echo (body : Option (List Octet)) : String :=
  truncated longestEcho (trim (decodeLossy (body.getD [])))

/-- The message about an answer that is no success. -/
def rejection (path : Path) (r : Response) : String :=
  path.display ++ ": HTTP " ++ toString r.status ++ ": " ++ echo r.body

/-- Uploads one file. -/
def uploadFile (client : Client) (server : Server σ) (fs : FileSystem) (kind : UploadKind)
    (path : Path) (link : Link σ) : FileResult × Link σ :=
  match fs.readFile path with
  | .error e => (.rejected (path.display ++ ": " ++ e.message), link)
  | .ok content =>
    match client.request server .post uploadPath (client.form kind path content.toOctets) link with
    | (.ok r, link) => (if r.isSuccess then .uploaded else .rejected (rejection path r), link)
    | (.error e, link) =>
      if e.isRefused then
        (.lost ("lost connection to backend at " ++ client.endpoint uploadPath ++ ": "
          ++ e.message), link)
      else (.rejected (path.display ++ ": " ++ e.message), link)

/-- Uploads files one after the other, up to the first at which the backend is gone. With room for
several files at a time, requests may reach the backend in another order; the outcome is the same if
what becomes of each file is. -/
def uploadFrom (client : Client) (server : Server σ) (fs : FileSystem) (kind : UploadKind)
    (outcome : UploadOutcome) : List Path → Link σ → Except String UploadOutcome × Link σ
  | [], link => (.ok outcome, link)
  | path :: paths, link =>
    match client.uploadFile server fs kind path link with
    | (.uploaded, link) => client.uploadFrom server fs kind outcome.recordSuccess paths link
    | (.rejected message, link) =>
      client.uploadFrom server fs kind (outcome.recordFailure message) paths link
    | (.lost message, link) => (.error message, link)

/-- Uploads a batch. -/
def uploadBatch (client : Client) (server : Server σ) (fs : FileSystem) (kind : UploadKind)
    (paths : List Path) (link : Link σ) : Except String UploadOutcome × Link σ :=
  client.uploadFrom server fs kind {} paths link

end Client

end KnowledgeImport
