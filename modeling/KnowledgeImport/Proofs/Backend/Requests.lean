import KnowledgeImport.Backend.Collaborators
import KnowledgeImport.Proofs.Import.Course
import KnowledgeImport.Proofs.Results

/-!
# The requests of a client

What a client sends and what it makes of the replies, for a client whose endpoints are addresses
that requests can be made to (`Client.HasEndpoints`).

* `Client.validate_eq`: the two probes.
* `Client.uploadFile_of_readFile`: a file that can be read is one request.
* `Client.uploadFrom_of_accepts`: while no connection is refused, a batch sends one request for each
  of its files that can be read, in their order, whatever the replies.
-/

namespace KnowledgeImport

variable {σ : Type}

/-! ### What is received -/

namespace Link

theorem send_eq (link : Link σ) (server : Server σ) (r : Request) :
    link.send server r = ((server r link.state).1,
      ⟨(server r link.state).2, link.exchanges ++ [(r, (server r link.state).1)]⟩) :=
  rfl

/-- A request is received unless its connection is refused. -/
theorem received_send (link : Link σ) (server : Server σ) (r : Request) :
    (link.send server r).2.received
      = link.received ++ if (server r link.state).1 = .refused then [] else [r] := by
  rw [send_eq, received, received, List.filter_append, List.map_append]
  by_cases hrefused : (server r link.state).1 = .refused <;> simp [hrefused]

end Link

/-- No connection to the server is refused. -/
def Server.Accepts (server : Server σ) : Prop := ∀ r state, (server r state).1 ≠ .refused

theorem Link.received_send_of_accepts {server : Server σ} (h : server.Accepts) (link : Link σ)
    (r : Request) : (link.send server r).2.received = link.received ++ [r] := by
  rw [received_send, if_neg (h r link.state)]

/-! ### Endpoints -/

/-- The addresses of the three endpoints. -/
structure Endpoints where
  health : Url
  provider : Url
  upload : Url

namespace Client

/-- The address that requests to an endpoint name, if requests to it can be made. -/
def address? (client : Client) (path : String) : Option Url :=
  match Url.parse (client.endpoint path) with
  | .ok url => if url.isRequestable then some url.withoutCredentials else none
  | .error _ => none

/-- Requests to all three endpoints can be made, and these are their addresses. -/
structure HasEndpoints (client : Client) (e : Endpoints) : Prop where
  health : client.address? healthPath = some e.health
  provider : client.address? providerPath = some e.provider
  upload : client.address? uploadPath = some e.upload

end Client

namespace Reply

/-- The reply as the client that asked the URL sees it. -/
def toExcept (url : Url) : Reply → Except TransportError Response
  | .refused => .error (.refused url)
  | .dropped => .error (.dropped url)
  | .response r => .ok r

/-- The request was answered with a success. -/
def isSuccess : Reply → Bool
  | .response r => r.isSuccess
  | .refused | .dropped => false

/-- The request was answered with settings that name a provider. -/
def namesProvider : Reply → Bool
  | .response r => Client.namesProvider r
  | .refused | .dropped => false

end Reply

/-- The request of a probe. -/
def Request.probe (url : Url) : Request where
  method := .get
  url := url

namespace Client

variable {client : Client} {server : Server σ} {fs : FileSystem} {e : Endpoints}

/-- A client is made for what its configuration says. -/
theorem eq_of_ofConfig {config : ClientConfig} {client : Client}
    (h : ofConfig config = .ok client) :
    client = {
      baseUrl := String.ofList (Text.dropTrailing (· = '/') config.baseUrl.toList)
      projectId := config.projectId
      concurrency := max config.concurrency 1
      knowledgeType := config.knowledgeType
      tags := config.tags } := by
  unfold ofConfig at h
  split at h
  · cases h
  · exact (Except.ok.inj h).symm

/-- A request to an address is sent, and the reply comes back. -/
theorem request_eq {path : String} {url : Url} (h : client.address? path = some url)
    (server : Server σ) (method : Method) (parts : List FormPart) (link : Link σ) :
    client.request server method path parts link
      = ((link.send server ⟨method, url, parts⟩).1.toExcept url,
          (link.send server ⟨method, url, parts⟩).2) := by
  unfold address? at h
  split at h
  · rename_i parsed hparse
    split at h
    · rename_i hrequestable
      obtain rfl := Option.some.inj h
      rw [request, hparse]
      simp only [hrequestable, Bool.not_true, Bool.false_eq_true, if_false]
      obtain ⟨reply, link', hsend⟩ : ∃ reply link',
          link.send server ⟨method, parsed.withoutCredentials, parts⟩ = (reply, link') :=
        ⟨_, _, rfl⟩
      rw [hsend]
      cases reply <;> rfl
    · cases h
  · cases h

/-- Nothing is sent if requests to the endpoint cannot be made; that is no loss of the backend. -/
theorem request_of_address?_eq_none {path : String} (h : client.address? path = none)
    (server : Server σ) (method : Method) (parts : List FormPart) (link : Link σ) :
    ∃ cause : TransportError, cause.isRefused = false ∧
      client.request server method path parts link = (.error cause, link) := by
  unfold address? at h
  rw [request]
  split at h
  case h_1 url hparse =>
    split at h
    · cases h
    · rename_i hrequestable
      rw [hparse]
      simp only [hrequestable, Bool.not_false, if_true]
      exact ⟨_, rfl, rfl⟩
  case h_2 hparse =>
    rw [hparse]
    exact ⟨_, rfl, rfl⟩

/-! ### Probes -/

theorem isReachable_of_address? {url : Url} (h : client.address? healthPath = some url)
    (server : Server σ) (link : Link σ) :
    client.isReachable server link
      = ((link.send server (.probe url)).1.isSuccess, (link.send server (.probe url)).2) := by
  rw [isReachable, request_eq h, ← Request.probe]
  cases (link.send server (.probe url)).1 <;> rfl

theorem hasProvider_of_address? {url : Url} (h : client.address? providerPath = some url)
    (server : Server σ) (link : Link σ) :
    client.hasProvider server link
      = ((link.send server (.probe url)).1.namesProvider, (link.send server (.probe url)).2) := by
  rw [hasProvider, request_eq h, ← Request.probe]
  cases (link.send server (.probe url)).1 <;> rfl

theorem isReachable_eq (he : client.HasEndpoints e) (server : Server σ) (link : Link σ) :
    client.isReachable server link
      = ((link.send server (.probe e.health)).1.isSuccess,
          (link.send server (.probe e.health)).2) :=
  isReachable_of_address? he.health server link

theorem hasProvider_eq (he : client.HasEndpoints e) (server : Server σ) (link : Link σ) :
    client.hasProvider server link
      = ((link.send server (.probe e.provider)).1.namesProvider,
          (link.send server (.probe e.provider)).2) :=
  hasProvider_of_address? he.provider server link

/-- The first probe is always made, the second one after a success of the first. -/
theorem validate_eq (he : client.HasEndpoints e) (server : Server σ) (link : Link σ) :
    client.validate server link =
      let health := link.send server (.probe e.health)
      let provider := health.2.send server (.probe e.provider)
      if health.1.isSuccess then (⟨true, provider.1.namesProvider⟩, provider.2)
      else (⟨false, false⟩, health.2) := by
  rw [validate, isReachable_eq he]
  cases hhealth : (link.send server (.probe e.health)).1.isSuccess with
  | false => simp only [hhealth, Bool.false_eq_true, if_false]
  | true => simp only [hhealth, hasProvider_eq he, if_true]

/-! ### Uploads -/

/-- The request that uploads a file of a path, with what the file holds. -/
def uploadRequest (client : Client) (url : Url) (kind : UploadKind) (path : Path)
    (content : Content) : Request where
  method := .post
  url := url
  parts := client.form kind path content.toOctets

/-- The request that uploads the file of a path, if it can be read. -/
def uploadRequest? (client : Client) (fs : FileSystem) (url : Url) (kind : UploadKind)
    (path : Path) : Option Request :=
  (fs.readFile path).toOption.map (client.uploadRequest url kind path)

/-- The words about a backend that is gone. -/
def lossMessage (client : Client) (url : Url) : String :=
  "lost connection to backend at " ++ client.endpoint uploadPath ++ ": "
    ++ (TransportError.refused url).message

/-- What becomes of a file, by the reply to its request. -/
def replyResult (client : Client) (url : Url) (path : Path) : Reply → FileResult
  | .response r => if r.isSuccess then .uploaded else .rejected (rejection path r)
  | .dropped => .rejected (path.display ++ ": " ++ (TransportError.dropped url).message)
  | .refused => .lost (client.lossMessage url)

theorem uploadFile_of_error {path : Path} {cause : OsError} (h : fs.readFile path = .error cause)
    (server : Server σ) (kind : UploadKind) (link : Link σ) :
    client.uploadFile server fs kind path link
      = (.rejected (path.display ++ ": " ++ cause.message), link) := by
  rw [uploadFile, h]

theorem uploadFile_of_address? {url : Url} (hurl : client.address? uploadPath = some url)
    {path : Path} {content : Content} (h : fs.readFile path = .ok content) (server : Server σ)
    (kind : UploadKind) (link : Link σ) :
    client.uploadFile server fs kind path link =
      let sent := link.send server (client.uploadRequest url kind path content)
      (client.replyResult url path sent.1, sent.2) := by
  have hrequest := request_eq hurl server .post (client.form kind path content.toOctets) link
  rw [uploadFile, h]
  dsimp only
  rw [hrequest, ← uploadRequest]
  cases (link.send server (client.uploadRequest url kind path content)).1 <;> rfl

theorem uploadFile_of_readFile (he : client.HasEndpoints e) {path : Path} {content : Content}
    (h : fs.readFile path = .ok content) (server : Server σ) (kind : UploadKind) (link : Link σ) :
    client.uploadFile server fs kind path link =
      let sent := link.send server (client.uploadRequest e.upload kind path content)
      (client.replyResult e.upload path sent.1, sent.2) :=
  uploadFile_of_address? he.upload h server kind link

theorem replyResult_of_isSuccess {reply : Reply} (h : reply.isSuccess = true) (url : Url)
    (path : Path) : client.replyResult url path reply = .uploaded := by
  cases reply with
  | refused | dropped => cases h
  | response r => exact if_pos h

/-- No reply but a refusal is the loss of a file. -/
theorem replyResult_ne_lost {reply : Reply} (h : reply ≠ .refused) (url : Url) (path : Path)
    (message : String) : client.replyResult url path reply ≠ .lost message := by
  cases reply with
  | refused => exact absurd rfl h
  | dropped => simp [replyResult]
  | response r =>
    rw [replyResult]
    split <;> simp

/-- While no connection is refused, a batch comes to its end, and it sends one request for each file
that can be read, in the order of the files. -/
theorem uploadFrom_of_accepts (he : client.HasEndpoints e) (hserver : server.Accepts)
    (kind : UploadKind) (outcome : UploadOutcome) (paths : List Path) (link : Link σ) :
    (∃ o, (client.uploadFrom server fs kind outcome paths link).1 = .ok o) ∧
      (client.uploadFrom server fs kind outcome paths link).2.received
        = link.received ++ paths.filterMap (client.uploadRequest? fs e.upload kind) := by
  induction paths generalizing outcome link with
  | nil => exact ⟨⟨outcome, rfl⟩, (List.append_nil _).symm⟩
  | cons path paths ih =>
    rw [uploadFrom]
    cases hread : fs.readFile path with
    | error cause =>
      -- nothing is sent for a file that cannot be read, and the batch goes on
      have hnone : client.uploadRequest? fs e.upload kind path = none := by
        rw [uploadRequest?, hread]
        rfl
      rw [uploadFile_of_error hread, List.filterMap_cons_none hnone]
      exact ih _ _
    | ok content =>
      have hsome : client.uploadRequest? fs e.upload kind path
          = some (client.uploadRequest e.upload kind path content) := by
        rw [uploadRequest?, hread]
        rfl
      have hreceived := link.received_send_of_accepts hserver
        (client.uploadRequest e.upload kind path content)
      have hlost (message : String) : client.replyResult e.upload path
          (server (client.uploadRequest e.upload kind path content) link.state).1
            ≠ .lost message :=
        replyResult_ne_lost (hserver _ _) e.upload path message
      rw [uploadFile_of_readFile he hread, List.filterMap_cons_some hsome, ← List.singleton_append,
        ← List.append_assoc, ← hreceived]
      rw [Link.send_eq]
      dsimp only
      cases hresult : client.replyResult e.upload path
          (server (client.uploadRequest e.upload kind path content) link.state).1 with
      | uploaded => exact ih _ _
      | rejected message => exact ih _ _
      | lost message => exact absurd hresult (hlost message)

/-! ### As collaborators -/

theorem collaborators_validate (client : Client) (server : Server σ) (fs : FileSystem)
    (rules : ScanRules) (root : Path) (link : Link σ) :
    (client.collaborators server fs rules root).validate link
      = (.ok (client.validate server link).1, (client.validate server link).2) := by
  obtain ⟨report, link', hvalidate⟩ : ∃ report link',
      client.validate server link = (report, link') := ⟨_, _, rfl⟩
  simp only [collaborators, hvalidate]

/-- Scanning sends nothing. -/
theorem worldScanned_collaborators (client : Client) (server : Server σ) (fs : FileSystem)
    (rules : ScanRules) (root : Path) (link : Link σ) :
    (client.collaborators server fs rules root).worldScanned link
      = (client.validate server link).2 := by
  rw [Collaborators.worldScanned, collaborators_validate]
  rfl

theorem findings_collaborators_iff (client : Client) (server : Server σ) (fs : FileSystem)
    (rules : ScanRules) (root : Path) (link : Link σ) (scan : ScanResult) :
    (client.collaborators server fs rules root).findings link = .ok scan
      ↔ rules.scan fs root = .ok scan :=
  mapError_eq_ok_iff

end Client

/-! ### A server that takes everything -/

/-- Settings that name a provider. -/
def providerNamed : Response where
  status := 200
  body := some (Text.encode "\x7b\"LLM_PROVIDER\":\"a\"\x7d")

/-- The server that gives this answer to everything. -/
def willing : Server Unit := fun _ state => (.response providerNamed, state)

theorem isSuccess_willing (r : Request) (state : Unit) : (willing r state).1.isSuccess = true :=
  rfl

theorem namesProvider_willing (r : Request) (state : Unit) :
    (willing r state).1.namesProvider = true := by
  have hnamed : Client.namesProvider providerNamed = true := by decide +kernel
  rw [willing, Reply.namesProvider]
  exact hnamed

theorem accepts_willing : willing.Accepts := by
  rintro r state ⟨⟩

end KnowledgeImport
