import KnowledgeImport.Backend.Collaborators
import KnowledgeImport.Proofs.Backend.Requests
import KnowledgeImport.Proofs.FileTree.WellFormed
import KnowledgeImport.Proofs.Import.Gating
import KnowledgeImport.Proofs.Import.World
import Mathlib.Algebra.GroupWithZero.Nat

/-!
# Losing the backend

A backend that takes all it is asked goes away after some number of requests (`Server.limited`).
What is left of that number decides the answer of every call, and every call spends as much of it as
the requests that it makes (`Link.Spent`, `Client.after_limited`).  So the number fixes the course
of an import (`ImportConfig.limitedCourse`): `ImportConfig.runImport_limited` says what is received
and what the record says, at whatever request the backend is lost.
-/

namespace KnowledgeImport

variable {σ : Type}

/-! ### A server that goes away -/

/-- The server that answers as many requests as the number in its state says, and then refuses every
connection. -/
def Server.limited (server : Server σ) : Server (Nat × σ)
  | _, (0, state) => (.refused, (0, state))
  | r, (left + 1, state) => ((server r state).1, (left, (server r state).2))

/-- The server answers every request with a success, and its settings name a provider. -/
structure Server.Welcomes (server : Server σ) (e : Endpoints) : Prop where
  success : ∀ r state, (server r state).1.isSuccess = true
  provider : ∀ state, (server (.probe e.provider) state).1.namesProvider = true

namespace Link

/-- How many requests will still be answered. -/
def left (link : Link (Nat × σ)) : Nat := link.state.1

/-- On the way from one link to the other `k` requests were made, as far as they were answered. -/
structure Spent (k : Nat) (link link' : Link (Nat × σ)) : Prop where
  left_eq : link'.left = link.left - k
  received_eq : link'.received.length = link.received.length + min k link.left

namespace Spent

variable {k l : Nat} {a b c : Link (Nat × σ)}

theorem refl (a : Link (Nat × σ)) : Spent 0 a a where
  left_eq := rfl
  received_eq := by rw [Nat.zero_min, Nat.add_zero]

theorem trans (h : Spent k a b) (h' : Spent l b c) : Spent (k + l) a c where
  left_eq := by
    rw [h'.left_eq, h.left_eq]
    omega
  received_eq := by
    rw [h'.received_eq, h.received_eq, h.left_eq]
    omega

/-- With nothing left, more requests could as well have been made. -/
theorem mono (h : Spent k a b) (hkl : k ≤ l) (hleft : a.left ≤ k) : Spent l a b where
  left_eq := by
    rw [h.left_eq]
    omega
  received_eq := by
    rw [h.received_eq]
    omega

end Spent

theorem send_limited_of_left_eq_zero {link : Link (Nat × σ)} (h : link.left = 0)
    (server : Server σ) (r : Request) : (link.send server.limited r).1 = .refused := by
  obtain ⟨⟨left, state⟩, exchanges⟩ := link
  obtain rfl : left = 0 := h
  rfl

theorem isSuccess_send_limited {server : Server σ} {e : Endpoints} (hserver : server.Welcomes e)
    {link : Link (Nat × σ)} (h : 0 < link.left) (r : Request) :
    (link.send server.limited r).1.isSuccess = true := by
  obtain ⟨⟨left, state⟩, exchanges⟩ := link
  cases left with
  | zero => exact absurd h (Nat.lt_irrefl 0)
  | succ left => exact hserver.success r state

theorem namesProvider_send_limited {server : Server σ} {e : Endpoints}
    (hserver : server.Welcomes e) {link : Link (Nat × σ)} (h : 0 < link.left) :
    (link.send server.limited (.probe e.provider)).1.namesProvider = true := by
  obtain ⟨⟨left, state⟩, exchanges⟩ := link
  cases left with
  | zero => exact absurd h (Nat.lt_irrefl 0)
  | succ left => exact hserver.provider state

/-- Each request is one of those that are answered, as long as there are any. -/
theorem spent_send {server : Server σ} {e : Endpoints} (hserver : server.Welcomes e)
    (link : Link (Nat × σ)) (r : Request) : Spent 1 link (link.send server.limited r).2 := by
  rcases Nat.eq_zero_or_pos link.left with hzero | hpos
  · refine ⟨?_, ?_⟩
    · obtain ⟨⟨left, state⟩, exchanges⟩ := link
      obtain rfl : left = 0 := hzero
      rfl
    · have hrefused : (server.limited r link.state).1 = .refused :=
        send_limited_of_left_eq_zero hzero server r
      rw [received_send, if_pos hrefused, List.append_nil, hzero, Nat.min_zero, Nat.add_zero]
  · refine ⟨?_, ?_⟩
    · obtain ⟨⟨left, state⟩, exchanges⟩ := link
      cases left with
      | zero => exact absurd hpos (Nat.lt_irrefl 0)
      | succ left => rfl
    · have hanswered : (server.limited r link.state).1 ≠ .refused := by
        intro hrefused
        have hsuccess : (server.limited r link.state).1.isSuccess = true :=
          isSuccess_send_limited hserver hpos r
        rw [hrefused] at hsuccess
        cases hsuccess
      rw [received_send, if_neg hanswered, List.length_append, List.length_singleton]
      omega

end Link

/-! ### What the calls answer and spend -/

/-- How many requests a call makes at most. -/
def Call.requests : Call → Nat
  | .validate => 2
  | .scan => 0
  | .uploadDocuments paths | .extractCodeExamples paths => paths.length

/-- All files of these paths can be read. -/
def FileSystem.Reads (fs : FileSystem) (paths : List Path) : Prop :=
  ∀ path ∈ paths, ∃ content, fs.readFile path = .ok content

/-- All files that the call uploads can be read. -/
def Call.Readable (fs : FileSystem) : Call → Prop
  | .validate | .scan => True
  | .uploadDocuments paths | .extractCodeExamples paths => fs.Reads paths

namespace Client

variable {client : Client} {server : Server σ} {fs : FileSystem} {rules : ScanRules} {root : Path}
  {e : Endpoints} {paths : List Path}

/-- The first probe needs an answer, and the second one another. -/
theorem validate_limited (he : client.HasEndpoints e) (hserver : server.Welcomes e)
    (link : Link (Nat × σ)) :
    (client.validate server.limited link).1 = ⟨decide (1 ≤ link.left), decide (2 ≤ link.left)⟩ ∧
      Link.Spent 2 link (client.validate server.limited link).2 := by
  have hhealth := Link.spent_send hserver link (.probe e.health)
  rw [validate_eq he]
  dsimp only
  rcases Nat.eq_zero_or_pos link.left with hzero | hpos
  · -- only one request is made, but there is nothing left that a second one could spend
    rw [Link.send_limited_of_left_eq_zero hzero, hzero]
    exact ⟨rfl, hhealth.mono (by omega) (by omega)⟩
  · have hprovider := Link.spent_send hserver (link.send server.limited (.probe e.health)).2
      (.probe e.provider)
    have hleft := hhealth.left_eq
    have hone : decide (1 ≤ link.left) = true := decide_eq_true hpos
    rw [Link.isSuccess_send_limited hserver hpos, if_pos rfl, hone]
    refine ⟨?_, hhealth.trans hprovider⟩
    rcases Nat.lt_or_ge link.left 2 with hlt | hge
    · rw [Link.send_limited_of_left_eq_zero (by omega), decide_eq_false (by omega)]
      rfl
    · rw [Link.namesProvider_send_limited hserver (by omega), decide_eq_true hge]

/-- A batch of files that can be read comes to its end if as many requests are still answered, and
counts them as uploaded. Else the loss is all there is of it. -/
theorem uploadFrom_limited (he : client.HasEndpoints e) (hserver : server.Welcomes e)
    (kind : UploadKind) (outcome : UploadOutcome)
    (hread : fs.Reads paths) (link : Link (Nat × σ)) :
    (client.uploadFrom server.limited fs kind outcome paths link).1
        = (if paths.length ≤ link.left then
            .ok { outcome with successful := outcome.successful + paths.length }
          else .error (client.lossMessage e.upload)) ∧
      Link.Spent paths.length link
        (client.uploadFrom server.limited fs kind outcome paths link).2 := by
  induction paths generalizing outcome link with
  | nil => exact ⟨rfl, .refl link⟩
  | cons path paths ih =>
    obtain ⟨⟨content, hcontent⟩, hread⟩ := List.forall_mem_cons.mp hread
    have hsent := Link.spent_send hserver link (client.uploadRequest e.upload kind path content)
    rw [uploadFrom, uploadFile_of_readFile he hcontent, List.length_cons]
    dsimp only
    rcases Nat.eq_zero_or_pos link.left with hzero | hpos
    · -- the loss of the first file is the answer, whatever comes after it
      rw [Link.send_limited_of_left_eq_zero hzero, if_neg (by omega)]
      exact ⟨rfl, hsent.mono (by omega) (by omega)⟩
    · rw [replyResult_of_isSuccess (Link.isSuccess_send_limited hserver hpos _)]
      obtain ⟨hanswer, hspent⟩ := ih outcome.recordSuccess hread
        (link.send server.limited (client.uploadRequest e.upload kind path content)).2
      refine ⟨?_, Nat.add_comm 1 _ ▸ hsent.trans hspent⟩
      have hleft := hsent.left_eq
      dsimp only
      rw [hanswer, hleft]
      by_cases hle : paths.length + 1 ≤ link.left
      · rw [if_pos hle, if_pos (by omega), UploadOutcome.recordSuccess, Nat.add_right_comm]
        rfl
      · rw [if_neg hle, if_neg (by omega)]

theorem uploadBatch_limited (he : client.HasEndpoints e) (hserver : server.Welcomes e)
    (kind : UploadKind) (hread : fs.Reads paths) (link : Link (Nat × σ)) :
    (client.uploadBatch server.limited fs kind paths link).1
        = (if paths.length ≤ link.left then .ok ⟨paths.length, 0, []⟩
          else .error (client.lossMessage e.upload)) ∧
      Link.Spent paths.length link (client.uploadBatch server.limited fs kind paths link).2 := by
  obtain ⟨hanswer, hspent⟩ := uploadFrom_limited he hserver kind {} hread link
  refine ⟨?_, hspent⟩
  rw [uploadBatch, hanswer, Nat.zero_add]

/-- Whatever calls are made, they spend as much as they make requests. -/
theorem after_limited (he : client.HasEndpoints e) (hserver : server.Welcomes e) {calls : List Call}
    (hread : ∀ call ∈ calls, call.Readable fs) (link : Link (Nat × σ)) :
    Link.Spent (calls.map Call.requests).sum link
      ((client.collaborators server.limited fs rules root).after link calls) := by
  induction calls generalizing link with
  | nil => exact .refl link
  | cons call calls ih =>
    obtain ⟨hcall, hread⟩ := List.forall_mem_cons.mp hread
    rw [List.map_cons, List.sum_cons, Collaborators.after, List.foldl_cons, ← Collaborators.after]
    refine Link.Spent.trans ?_ (ih hread _)
    cases call with
    | validate =>
      rw [Collaborators.afterCall, collaborators_validate]
      exact (validate_limited he hserver link).2
    | scan => exact .refl link
    | uploadDocuments paths => exact (uploadBatch_limited he hserver _ hcall link).2
    | extractCodeExamples paths => exact (uploadBatch_limited he hserver _ hcall link).2

/-! ### The answers that an import gets -/

variable (fs rules root)

theorem validation_limited (he : client.HasEndpoints e) (hserver : server.Welcomes e)
    (link : Link (Nat × σ)) :
    (client.collaborators server.limited fs rules root).validation link
      = .ok ⟨decide (1 ≤ link.left), decide (2 ≤ link.left)⟩ := by
  rw [Collaborators.validation, collaborators_validate, (validate_limited he hserver link).1]

variable {fs} {scan : ScanResult}

theorem upload_limited (he : client.HasEndpoints e) (hserver : server.Welcomes e)
    (hread : fs.Reads scan.documentationFiles)
    (link : Link (Nat × σ)) :
    (client.collaborators server.limited fs rules root).upload link scan
      = if scan.documentationFiles.length ≤ link.left - 2 then
          .ok ⟨scan.documentationFiles.length, 0, []⟩
        else .error (client.lossMessage e.upload) := by
  rw [← (validate_limited he hserver link).2.left_eq, Collaborators.upload,
    worldScanned_collaborators]
  exact (uploadBatch_limited he hserver _ hread _).1

theorem extraction_limited (he : client.HasEndpoints e) (hserver : server.Welcomes e)
    (hread : fs.Reads scan.documentationFiles) (hcode : fs.Reads scan.codeFiles)
    (link : Link (Nat × σ)) :
    (client.collaborators server.limited fs rules root).extraction link scan
      = if scan.codeFiles.length ≤ link.left - (2 + scan.documentationFiles.length) then
          .ok ⟨scan.codeFiles.length, 0, []⟩
        else .error (client.lossMessage e.upload) := by
  have hspent := (validate_limited he hserver link).2.trans
    (uploadBatch_limited he hserver .documents hread
      (client.validate server.limited link).2).2
  rw [← hspent.left_eq, Collaborators.extraction, Collaborators.worldUploaded,
    worldScanned_collaborators]
  exact (uploadBatch_limited he hserver _ hcode _).1

end Client

namespace ImportConfig

variable {config : ImportConfig} {client : Client} {server : Server σ} {fs : FileSystem}
  {rules : ScanRules} {e : Endpoints} {scan : ScanResult} {course : Course}
  {link : Link (Nat × σ)}

/-- The course of an import, if `n` requests are answered and every file can be read: with these
words about the loss, should there be one. -/
def limitedCourse (config : ImportConfig) (scan : ScanResult) (loss : String) (n : Nat) : Course :=
  let documents : UploadOutcome := ⟨scan.documentationFiles.length, 0, []⟩
  if n = 0 then .unreachable
  else if n = 1 then .unconfigured
  else if scan.documentationCount = 0 then .nothingFound scan
  else if n < 2 + scan.documentationFiles.length then .uploadFailed scan loss
  else if config.codeFilesOf scan = [] then .uploaded scan documents
  else if n < 2 + scan.documentationFiles.length + scan.codeFiles.length then
    .extractionFailed scan documents loss
  else .extracted scan documents ⟨scan.codeFiles.length, 0, []⟩

/-- How many requests an import makes that is not a dry run and that nothing ends early. -/
def requests (config : ImportConfig) (scan : ScanResult) : Nat :=
  if scan.documentationCount = 0 then 2
  else 2 + scan.documentationCount + (config.codeFilesOf scan).length

/-- With `n` requests answered, the calls make that many or all there are, and the import ends as a
success iff these are all. -/
theorem limitedCourse_spec (config : ImportConfig) (scan : ScanResult) (loss : String) (n : Nat) :
    min ((config.limitedCourse scan loss n).calls.map Call.requests).sum n
        = min n (config.requests scan) ∧
      ((config.limitedCourse scan loss n).status = .success ↔ config.requests scan ≤ n) := by
  have hlength : scan.documentationFiles.length = scan.documentationCount :=
    scan.length_documentationFiles
  unfold limitedCourse requests
  dsimp only
  split_ifs with hzero hnothing hone hnothing' hnothing' hlost hnone hlost'
  all_goals simp only [Course.calls, List.map_cons, List.map_nil, List.sum_cons, List.sum_nil,
    Call.requests, Course.status, reduceCtorEq, true_iff, false_iff]
  -- what is left are the courses in which the number of code files matters
  any_goals omega
  · rw [hnone, List.length_nil]
    omega
  all_goals
    rw [codeFilesOf_of_ne_nil hnone]
    omega

theorem taken_limitedCourse (he : client.HasEndpoints e) (hserver : server.Welcomes e)
    (hscan : rules.scan fs config.root = .ok scan)
    (hread : fs.Reads scan.documentationFiles) (hcode : fs.Reads scan.codeFiles)
    (hdry : config.dryRun = false) (link : Link (Nat × σ)) :
    (config.limitedCourse scan (client.lossMessage e.upload) link.left).Taken config
      (client.collaborators server.limited fs rules config.root) link := by
  have hvalid := Client.validation_limited fs rules config.root he hserver link
  have hupload := Client.upload_limited rules config.root he hserver hread link
  have hextract := Client.extraction_limited rules config.root he hserver hread hcode link
  unfold limitedCourse
  dsimp only
  split_ifs with hzero hone hcount hlost hnone hlost'
  · exact .unreachable hvalid (decide_eq_false (by omega))
  · exact .unconfigured hvalid (decide_eq_true (by omega)) (decide_eq_false (by omega))
  -- both probes are answered, so the tree is scanned
  all_goals
    have hscanned : (client.collaborators server.limited fs rules config.root).Scanned link scan :=
      ⟨⟨_, hvalid, decide_eq_true (by omega), decide_eq_true (by omega)⟩,
        (client.findings_collaborators_iff ..).mpr hscan⟩
  · exact .nothingFound hscanned hcount
  · rw [if_neg (by omega)] at hupload
    exact .uploadFailed ⟨hscanned, hcount, hdry⟩ hupload
  -- the documents are uploaded, and what is left of the requests goes to the code files
  all_goals rw [if_pos (by omega)] at hupload
  · exact .uploaded ⟨hscanned, hcount, hdry⟩ hupload hnone
  · rw [if_neg (by omega)] at hextract
    exact .extractionFailed ⟨hscanned, hcount, hdry⟩ hupload hnone hextract
  · rw [if_pos (by omega)] at hextract
    exact .extracted ⟨hscanned, hcount, hdry⟩ hupload hnone hextract

/-- What is received during an import, once its course is known, and the record. -/
theorem runImport_limited_of_taken (he : client.HasEndpoints e) (hserver : server.Welcomes e)
    (hscan : rules.scan fs config.root = .ok scan)
    (hread : fs.Reads scan.documentationFiles) (hcode : fs.Reads scan.codeFiles)
    (h : course.Taken config (client.collaborators server.limited fs rules config.root) link) :
    (config.runImport (client.collaborators server.limited fs rules config.root)
          link).world.received.length
        = link.received.length + min (course.calls.map Call.requests).sum link.left ∧
      (config.runImport (client.collaborators server.limited fs rules config.root) link).result
        = course.record config := by
  obtain ⟨hactions, hrecord⟩ := h.runImport_eq
  refine ⟨?_, hrecord⟩
  rw [world_runImport, ImportRun.calls_eq_of_actions hactions]
  refine (Client.after_limited he hserver ?_ link).received_eq
  intro call hcall
  have hfound := (client.findings_collaborators_iff server.limited fs rules config.root link _).mpr
    hscan
  have hplan := h.calls_prefix_plan.subset hcall
  rw [Collaborators.plan_of_findings _ _ hfound] at hplan
  simp only [List.mem_cons, List.not_mem_nil, or_false] at hplan
  rcases hplan with rfl | rfl | rfl | rfl
  · exact trivial
  · exact trivial
  · exact hread
  · exact hcode

/-- An import of a tree whose files can be read, not a dry run, with a backend that takes everything
and has a provider, but is gone after `n` requests. With `documents` documents found in the tree the
whole import makes `total` requests. Whatever `n` is, all requests are received that the backend
still took, and the import is a success only if these were all it makes. Else its one message says
how far it came: the backend was not reachable, its provider could not be seen, or the connection
was lost, during the upload of the documents, which then do not count, or during that of the code
files, when the documents count and the code files do not. -/
theorem runImport_limited (he : client.HasEndpoints e) (hserver : server.Welcomes e)
    (hscan : rules.scan fs config.root = .ok scan)
    (hread : ∀ path ∈ scan.documentationFiles ++ scan.codeFiles,
      ∃ content, fs.readFile path = .ok content)
    (hdry : config.dryRun = false) (n : Nat) (state : σ) :
    let documents := scan.readmeFiles.length + scan.documentation.length
    let total := if documents = 0 then 2
      else 2 + documents + if config.includeCodeExamples then scan.codeFiles.length else 0
    let run := config.runImport (client.collaborators server.limited fs rules config.root)
      { state := (n, state) }
    run.world.received.length = min n total ∧
    (run.result.status = .success ↔ total ≤ n) ∧
    (n = 0 → run.result.errors = ["Backend not reachable"]) ∧
    (n = 1 → run.result.errors = ["Embedding provider required"]) ∧
    (2 ≤ n → n < 2 + documents →
      run.result.documentsUploaded = 0 ∧ run.result.documentsFailed = 0 ∧
      run.result.codeExamples = 0 ∧ run.result.codeExamplesFailed = 0 ∧
      run.result.errors = [client.lossMessage e.upload]) ∧
    (2 + documents ≤ n → n < total →
      run.result.documentsUploaded = documents ∧ run.result.codeExamples = 0 ∧
      run.result.errors = [client.lossMessage e.upload]) := by
  intro documents total run
  obtain ⟨hdocs, hcode⟩ := List.forall_mem_append.mp hread
  have htaken := taken_limitedCourse he hserver hscan hdocs hcode hdry { state := (n, state) }
  obtain ⟨hreceived, hresult⟩ := runImport_limited_of_taken he hserver hscan hdocs hcode htaken
  have hrun : run.result
      = (config.limitedCourse scan (client.lossMessage e.upload) n).record config := hresult
  obtain ⟨hrequests, hstatus⟩ :=
    config.limitedCourse_spec scan (client.lossMessage e.upload) n
  have hlength : scan.documentationFiles.length = documents := scan.length_documentationFiles
  have hcount : scan.documentationCount = documents := rfl
  have htotal : total = config.requests scan := by
    rw [requests, length_codeFilesOf]
    rfl
  rw [hrun]
  refine ⟨?_, htotal ▸ hstatus, ?_, ?_, ?_, ?_⟩
  · rw [htotal, ← hrequests, ← Nat.zero_add (min _ n)]
    exact hreceived
  · rintro rfl
    rfl
  · rintro rfl
    rfl
  · intro hn hlost
    have hsome : scan.documentationCount ≠ 0 := by omega
    rw [limitedCourse, if_neg (by omega), if_neg (by omega), if_neg hsome, if_pos (by omega)]
    exact ⟨rfl, rfl, rfl, rfl, rfl⟩
  · intro hn hlost
    -- more than the documents are to be requested, so there are code files
    rw [htotal, requests] at hlost
    have hsome : scan.documentationCount ≠ 0 := by
      intro hzero
      rw [if_pos hzero] at hlost
      omega
    rw [if_neg hsome] at hlost
    have hcodeFiles : config.codeFilesOf scan ≠ [] := by
      intro hnone
      rw [hnone, List.length_nil] at hlost
      omega
    rw [codeFilesOf_of_ne_nil hcodeFiles] at hlost
    rw [limitedCourse, if_neg (by omega), if_neg (by omega), if_neg hsome, if_neg (by omega),
      if_neg hcodeFiles, if_pos (by omega)]
    exact ⟨hlength, rfl, rfl⟩

end ImportConfig

/-! ### A loss between the two batches -/

theorem welcomes_willing (e : Endpoints) : willing.Welcomes e where
  success := isSuccess_willing
  provider := namesProvider_willing _

/-- A client of the server on the same machine. -/
def localClient : Client where
  baseUrl := defaultBackendUrl
  projectId := ""
  concurrency := 1
  knowledgeType := ""
  tags := []

/-- The import of the machine with a readme and a source file. -/
def readmeAndSourceImport : ImportConfig where
  root := Path.ofString "/"
  backendUrl := defaultBackendUrl
  projectId := ""
  includeCodeExamples := true
  dryRun := false
  docPatterns := []
  excludePatterns := []
  codeExtensions := ["rs"]

/-- The rules of this import. -/
def readmeAndSourceRules : ScanRules where
  documentation := []
  excluded := []
  prunedDirectories := []
  codeExtensions := ["rs"]

/-- The backend still takes the readme and is gone at the source file. -/
theorem ImportConfig.runImport_limited_readmeAndSource :
    ∃ e, localClient.HasEndpoints e ∧ willing.Welcomes e ∧
      readmeAndSourceRules.scan readmeAndSource readmeAndSourceImport.root = .ok {
        readmeFiles := [Path.ofString "/README.md"], codeFiles := [Path.ofString "/a.rs"] } ∧
      let run := readmeAndSourceImport.runImport (localClient.collaborators willing.limited
        readmeAndSource readmeAndSourceRules readmeAndSourceImport.root) { state := (3, ()) }
      run.world.received.length = 3 ∧ run.result.status ≠ .success ∧
        run.result.documentsUploaded = 1 ∧ run.result.codeExamples = 0 ∧
        run.result.errors = [localClient.lossMessage e.upload] := by
  have hscan : readmeAndSourceRules.scan readmeAndSource readmeAndSourceImport.root = .ok {
      readmeFiles := [Path.ofString "/README.md"], codeFiles := [Path.ofString "/a.rs"] } := by
    have hnode : readmeAndSource.node readmeAndSourceImport.root = .ok readmeAndSource.root := by
      cbv
    rw [ScanRules.scan, hnode]
    exact congrArg Except.ok (by decide +kernel)
  have hread : ∀ path ∈ [Path.ofString "/README.md", Path.ofString "/a.rs"],
      ∃ content, readmeAndSource.readFile path = .ok content := by
    rw [List.forall_mem_cons, List.forall_mem_singleton]
    exact ⟨⟨.octets [], by cbv⟩, ⟨.octets [], by cbv⟩⟩
  have hendpoints : ∃ e, localClient.HasEndpoints e := ⟨⟨_, _, _⟩, ⟨rfl, rfl, rfl⟩⟩
  obtain ⟨e, he⟩ := hendpoints
  obtain ⟨hreceived, hstatus, -, -, -, hcode⟩ :=
    ImportConfig.runImport_limited he (welcomes_willing e) hscan hread rfl 3 ()
  obtain ⟨hdocuments, hexamples, herrors⟩ := hcode (by decide) (by decide)
  refine ⟨e, he, welcomes_willing e, hscan, hreceived, ?_, hdocuments, hexamples, herrors⟩
  rw [ne_eq, hstatus]
  decide

end KnowledgeImport
