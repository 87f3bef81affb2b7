import KnowledgeImport.Proofs.Backend.Window

/-!
# Imports with several files under way

An import whose batches are uploaded with as many files under way at a time as its client has room
for, in whatever order the uploads are completed (`Client.InWindows`).  If the replies of the server
do not depend on the order of the requests (`Server.Steady`), it does and leaves what the import does
that uploads one file after the other (`ImportConfig.runImport_inWindows`).  With a server that tells
the order, only the answers of a single batch can be compared (`UploadWindow.Sound`).
-/

namespace KnowledgeImport

variable {σ τ : Type}

/-- What the server replies to a request does not depend on the requests before it. -/
def Server.Steady (server : Server σ) : Prop :=
  ∀ r state state', (server r state).1 = (server r state').1

/-! ### Batches -/

/-- Every batch that can be reached can be brought to an answer. -/
theorem UploadWindow.exists_answer {room : Nat} {results : List FileResult} {w : UploadWindow}
    (hroom : 0 < room) (h : w.Reaches room results) :
    ∃ w' answer, UploadWindow.Reaches room results w' ∧ w'.answer = some answer := by
  cases hanswer : w.answer with
  | some answer => exact ⟨w, answer, h, hanswer⟩
  | none =>
    obtain ⟨w', hstep⟩ := h.sound.exists_step hroom hanswer
    exact exists_answer hroom (h.tail hstep)
termination_by w.work results
decreasing_by exact hstep.work_lt

namespace Client

section

variable {server : Server σ} (hsteady : server.Steady) (client : Client) (fs : FileSystem)
  (kind : UploadKind)

include hsteady

/-- Two links give the same answer to a request. -/
theorem request_of_steady (method : Method) (path : String) (parts : List FormPart)
    (link link' : Link σ) : ∃ answer next next',
      client.request server method path parts link = (answer, next) ∧
      client.request server method path parts link' = (answer, next') := by
  suffices hanswer : (client.request server method path parts link).1
      = (client.request server method path parts link').1 from
    ⟨_, _, (client.request server method path parts link').2, rfl, Prod.ext hanswer.symm rfl⟩
  unfold request
  split
  · rfl
  · rename_i url _
    by_cases hrequestable : url.isRequestable = true
    · simp only [hrequestable, Bool.not_true, Bool.false_eq_true, if_false, Link.send_eq,
        hsteady _ link.state link'.state]
      cases (server ⟨method, url.withoutCredentials, parts⟩ link'.state).1 <;> rfl
    · simp only [hrequestable, Bool.not_false, if_true]

theorem isReachable_of_steady (link link' : Link σ) :
    (client.isReachable server link).1 = (client.isReachable server link').1 := by
  obtain ⟨answer, next, next', hasked, hasked'⟩ :=
    request_of_steady hsteady client .get healthPath [] link link'
  rw [isReachable, isReachable, hasked, hasked']
  cases answer <;> rfl

theorem hasProvider_of_steady (link link' : Link σ) :
    (client.hasProvider server link).1 = (client.hasProvider server link').1 := by
  obtain ⟨answer, next, next', hasked, hasked'⟩ :=
    request_of_steady hsteady client .get providerPath [] link link'
  rw [hasProvider, hasProvider, hasked, hasked']
  cases answer <;> rfl

theorem validate_of_steady (link link' : Link σ) :
    (client.validate server link).1 = (client.validate server link').1 := by
  have hreachable := isReachable_of_steady hsteady client link link'
  rcases hasked : client.isReachable server link with ⟨reachable, next⟩
  rcases hasked' : client.isReachable server link' with ⟨reachable', next'⟩
  obtain rfl : reachable = reachable' := by rwa [hasked, hasked'] at hreachable
  rw [validate, validate, hasked, hasked']
  cases reachable with
  | false => rfl
  | true =>
    exact congrArg (ValidationReport.mk true) (hasProvider_of_steady hsteady client next next')

/-- What becomes of a file is the same whenever it is uploaded. -/
theorem uploadFile_of_steady (path : Path) (link link' : Link σ) :
    (client.uploadFile server fs kind path link).1
      = (client.uploadFile server fs kind path link').1 := by
  cases hread : fs.readFile path with
  | error e => rw [uploadFile, uploadFile, hread]
  | ok content =>
    obtain ⟨answer, next, next', hasked, hasked'⟩ :=
      request_of_steady hsteady client .post uploadPath (client.form kind path content.toOctets)
        link link'
    cases answer with
    | ok r => simp only [uploadFile, hread, hasked, hasked']
    | error e =>
      simp only [uploadFile, hread, hasked, hasked']
      split <;> rfl

/-- So the results of a batch are those of its files. -/
theorem fileResults_of_steady (paths : List Path) (link link' : Link σ) :
    client.fileResults server fs kind paths link
      = paths.map fun path => (client.uploadFile server fs kind path link').1 := by
  induction paths generalizing link with
  | nil => rfl
  | cons path paths ih =>
    rw [fileResults, List.map_cons, ← uploadFile_of_steady hsteady client fs kind path link link',
      ← ih]

end

/-- The client may answer a batch with this, with several files under way at a time; `link` is what
the server is asked on. -/
def MayAnswer (client : Client) (server : Server σ) (fs : FileSystem) (kind : UploadKind)
    (link : Link σ) (paths : List Path) (answer : Except String UploadOutcome) : Prop :=
  ∃ w, UploadWindow.Reaches client.concurrency
    (paths.map fun path => (client.uploadFile server fs kind path link).1) w ∧
    w.answer = some answer

variable {client : Client} {server : Server σ} {fs : FileSystem} {kind : UploadKind}
  {link : Link σ} {paths : List Path} {answer : Except String UploadOutcome}

/-- Whatever it may answer is what it answers with one file at a time. -/
theorem MayAnswer.eq (hsteady : server.Steady) (h : client.MayAnswer server fs kind link paths answer)
    (link' : Link σ) : answer = (client.uploadBatch server fs kind paths link').1 := by
  obtain ⟨w, hw, hanswer⟩ := h
  rw [uploadBatch, uploadFrom_eq_collect, fileResults_of_steady hsteady client fs kind paths link' link,
    hw.sound.settled hanswer]

/-- With room for a file, that is something it may answer. -/
theorem mayAnswer_uploadBatch (hsteady : server.Steady) (hroom : 0 < client.concurrency)
    (link' : Link σ) : client.MayAnswer server fs kind link paths
      (client.uploadBatch server fs kind paths link').1 := by
  have hstart : UploadWindow.Reaches client.concurrency
      (paths.map fun path => (client.uploadFile server fs kind path link).1) {} := .refl
  obtain ⟨w, answer, hw, hanswer⟩ := UploadWindow.exists_answer hroom hstart
  have hmay : client.MayAnswer server fs kind link paths answer := ⟨w, hw, hanswer⟩
  exact hmay.eq hsteady link' ▸ hmay

/-! ### Imports -/

/-- The team scans the tree and asks the server as the client does, and answers a batch as the client
may with several files under way. -/
structure InWindows (client : Client) (server : Server σ) (fs : FileSystem) (rules : ScanRules)
    (root : Path) (link : Link σ) (team : Collaborators τ) : Prop where
  validate : ∀ world, (team.validate world).1 = .ok (client.validate server link).1
  scan : ∀ world, (team.scan world).1 = (rules.scan fs root).mapError ScanError.message
  uploadDocuments : ∀ paths world,
    client.MayAnswer server fs .documents link paths (team.uploadDocuments paths world).1
  extractCodeExamples : ∀ paths world,
    client.MayAnswer server fs .codeExamples link paths (team.extractCodeExamples paths world).1

/-- The team that uploads one file after the other is such a team. -/
theorem inWindows_collaborators (hsteady : server.Steady) (hroom : 0 < client.concurrency)
    (rules : ScanRules) (root : Path) (link : Link σ) :
    client.InWindows server fs rules root link (client.collaborators server fs rules root) where
  validate link' := congrArg Except.ok (validate_of_steady hsteady client link' link)
  scan _ := rfl
  uploadDocuments _ link' := mayAnswer_uploadBatch hsteady hroom link'
  extractCodeExamples _ link' := mayAnswer_uploadBatch hsteady hroom link'

end Client

/-- Imports with the same course do the same and leave the same record. -/
theorem ImportConfig.runImport_congr {config : ImportConfig} {team : Collaborators σ}
    {team' : Collaborators τ} {world : σ} {world' : τ}
    (h : config.course team world = config.course team' world') :
    (config.runImport team world).actions = (config.runImport team' world').actions ∧
      (config.runImport team world).result = (config.runImport team' world').result := by
  obtain ⟨course, htaken, hactions, hrecord⟩ := config.runImport_takes team world
  obtain ⟨course', htaken', hactions', hrecord'⟩ := config.runImport_takes team' world'
  obtain rfl : course = course' := by rw [htaken.eq_course, htaken'.eq_course, h]
  exact ⟨hactions.trans hactions'.symm, hrecord.trans hrecord'.symm⟩

/-- With several files under way at a time, an import does and leaves what it does and leaves with
one, if the replies of the server do not depend on the order of the requests. -/
theorem ImportConfig.runImport_inWindows {client : Client} {server : Server σ} {fs : FileSystem}
    {rules : ScanRules} {root : Path} {link : Link σ} {team : Collaborators τ}
    (hsteady : server.Steady) (h : client.InWindows server fs rules root link team)
    (config : ImportConfig) (world : τ) :
    let oneByOne := config.runImport (client.collaborators server fs rules root) link
    (config.runImport team world).actions = oneByOne.actions ∧
      (config.runImport team world).result = oneByOne.result := by
  refine runImport_congr ?_
  have hvalidation : team.validation world
      = (client.collaborators server fs rules root).validation link := h.validate world
  have hfindings : team.findings world
      = (client.collaborators server fs rules root).findings link := h.scan _
  have hupload : team.upload world = (client.collaborators server fs rules root).upload link :=
    funext fun scan => (h.uploadDocuments _ _).eq hsteady _
  have hextraction : team.extraction world
      = (client.collaborators server fs rules root).extraction link :=
    funext fun scan => (h.extractCodeExamples _ _).eq hsteady _
  simp only [course, uploadCourse, hvalidation, hfindings, hupload, hextraction]

end KnowledgeImport
