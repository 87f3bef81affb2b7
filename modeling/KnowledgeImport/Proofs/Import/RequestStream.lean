import KnowledgeImport.Proofs.Backend.Requests
import KnowledgeImport.Proofs.Import.World

/-!
# The requests of an import

What a server receives from an import while it refuses no connection.  Each call of the import
contributes its requests (`Client.received_validate`, `Client.received_after`), and the answers to
the two probes decide which calls there are.  No other answer has an influence on what is sent
(`ImportConfig.received_runImport`).
-/

namespace KnowledgeImport

variable {σ : Type}

namespace Client

variable {client : Client} {server : Server σ} {fs : FileSystem} {rules : ScanRules} {root : Path}
  {e : Endpoints}

/-- The requests of the calls that upload files: one for each file that can be read. -/
def uploadRequests (client : Client) (fs : FileSystem) (url : Url) : Call → List Request
  | .validate | .scan => []
  | .uploadDocuments paths => paths.filterMap (client.uploadRequest? fs url .documents)
  | .extractCodeExamples paths => paths.filterMap (client.uploadRequest? fs url .codeExamples)

theorem received_validate (he : client.HasEndpoints e) (hserver : server.Accepts) (link : Link σ) :
    (client.validate server link).2.received
      = link.received ++ .probe e.health ::
          if (link.send server (.probe e.health)).1.isSuccess then [.probe e.provider] else [] := by
  rw [validate_eq he]
  dsimp only
  have hhealth := link.received_send_of_accepts hserver (.probe e.health)
  have hprovider := (link.send server (.probe e.health)).2.received_send_of_accepts hserver
    (.probe e.provider)
  by_cases hsuccess : (link.send server (.probe e.health)).1.isSuccess = true
  · rw [if_pos hsuccess, if_pos hsuccess, hprovider, hhealth, List.append_assoc]
    rfl
  · rw [if_neg hsuccess, if_neg hsuccess, hhealth]

/-- What the calls after the validation contribute. -/
theorem received_after (he : client.HasEndpoints e) (hserver : server.Accepts) {calls : List Call}
    (hcalls : .validate ∉ calls) (link : Link σ) :
    ((client.collaborators server fs rules root).after link calls).received
      = link.received ++ calls.flatMap (client.uploadRequests fs e.upload) := by
  induction calls generalizing link with
  | nil => exact (List.append_nil _).symm
  | cons call calls ih =>
    rw [List.mem_cons, not_or] at hcalls
    rw [Collaborators.after, List.foldl_cons, ← Collaborators.after, ih hcalls.2,
      List.flatMap_cons, ← List.append_assoc]
    congr 1
    cases call with
    | validate => exact absurd rfl hcalls.1
    | scan => exact (List.append_nil _).symm
    | uploadDocuments paths => exact (uploadFrom_of_accepts he hserver .documents {} paths link).2
    | extractCodeExamples paths =>
      exact (uploadFrom_of_accepts he hserver .codeExamples {} paths link).2

theorem validation_collaborators (he : client.HasEndpoints e) (server : Server σ) (fs : FileSystem)
    (rules : ScanRules) (root : Path) (link : Link σ) :
    (client.collaborators server fs rules root).validation link
      = .ok (if (link.send server (.probe e.health)).1.isSuccess then
          ⟨true, ((link.send server (.probe e.health)).2.send server
            (.probe e.provider)).1.namesProvider⟩
        else ⟨false, false⟩) := by
  rw [Collaborators.validation, collaborators_validate, validate_eq he]
  dsimp only
  by_cases hsuccess : (link.send server (.probe e.health)).1.isSuccess = true
  · rw [if_pos hsuccess, if_pos hsuccess]
  · rw [if_neg hsuccess, if_neg hsuccess]

end Client

namespace ImportConfig

variable {config : ImportConfig} {client : Client} {server : Server σ} {fs : FileSystem}
  {rules : ScanRules} {e : Endpoints} {course : Course} {link : Link σ}

/-- What is received during an import, once its course is known. -/
theorem received_runImport_of_taken (he : client.HasEndpoints e) (hserver : server.Accepts)
    (h : course.Taken config (client.collaborators server fs rules config.root) link) :
    (config.runImport (client.collaborators server fs rules config.root) link).world.received
      = link.received ++ (.probe e.health ::
          if (link.send server (.probe e.health)).1.isSuccess then [.probe e.provider] else [])
        ++ course.calls.tail.flatMap (client.uploadRequests fs e.upload) := by
  have hcalls : ∃ calls, course.calls = .validate :: calls ∧ .validate ∉ calls := by
    cases course <;> exact ⟨_, rfl, by simp⟩
  obtain ⟨calls, hcalls, hrest⟩ := hcalls
  rw [world_runImport, ImportRun.calls_eq_of_actions h.runImport_eq.1, hcalls, Collaborators.after,
    List.foldl_cons, ← Collaborators.after, Collaborators.afterCall, Client.collaborators_validate,
    Client.received_after he hserver hrest, Client.received_validate he hserver]
  rfl

/-- What an import sends after its scan: the documents and the code files that are to be submitted,
unless it is a dry run or no documents were found. -/
theorem exists_taken_of_scanned (he : client.HasEndpoints e) (hserver : server.Accepts)
    {found : ScanResult}
    (h : (client.collaborators server fs rules config.root).Scanned link found) :
    ∃ course : Course,
      course.Taken config (client.collaborators server fs rules config.root) link ∧
      course.calls.tail.flatMap (client.uploadRequests fs e.upload)
        = if found.documentationCount ≠ 0 ∧ config.dryRun = false then
            found.documentationFiles.filterMap (client.uploadRequest? fs e.upload .documents)
              ++ (config.codeFilesOf found).filterMap
                  (client.uploadRequest? fs e.upload .codeExamples)
          else [] := by
  by_cases hcount : found.documentationCount = 0
  · rw [if_neg (fun hdue => hdue.1 hcount)]
    exact ⟨.nothingFound found, .nothingFound h hcount, rfl⟩
  cases hdry : config.dryRun with
  | true =>
    rw [if_neg (by simp)]
    exact ⟨.previewed found, .previewed h hcount hdry, rfl⟩
  | false =>
    rw [if_pos ⟨hcount, rfl⟩]
    have hdue : config.UploadDue (client.collaborators server fs rules config.root) link found :=
      ⟨h, hcount, hdry⟩
    -- a batch comes to its end, since no connection is refused
    have hends (kind : UploadKind) (paths : List Path) (link : Link σ) :
        ∃ o, (client.uploadBatch server fs kind paths link).1 = .ok o :=
      (Client.uploadFrom_of_accepts he hserver kind {} paths link).1
    obtain ⟨documents, hupload⟩ := hends .documents found.documentationFiles
      ((client.collaborators server fs rules config.root).worldScanned link)
    by_cases hcode : config.codeFilesOf found = []
    · refine ⟨.uploaded found documents, .uploaded hdue hupload hcode, ?_⟩
      rw [hcode]
      rfl
    · obtain ⟨code, hextract⟩ := hends .codeExamples found.codeFiles
        ((client.collaborators server fs rules config.root).worldUploaded link found)
      refine ⟨.extracted found documents code, .extracted hdue hupload hcode hextract, ?_⟩
      simp [codeFilesOf_of_ne_nil hcode, Client.uploadRequests]

/-- What a server receives from an import: the first probe, the second one if the first was a
success, and then, if the provider is named, there are documents and the import is no dry run, the
documents in the order of the scan and after them the code files that are to be submitted. -/
theorem received_runImport (he : client.HasEndpoints e) (hserver : server.Accepts)
    (config : ImportConfig) (rules : ScanRules) (fs : FileSystem) (link : Link σ) :
    let found := (rules.scan fs config.root).toOption.getD {}
    let health := link.send server (.probe e.health)
    let provider := health.2.send server (.probe e.provider)
    (config.runImport (client.collaborators server fs rules config.root) link).world.received
      = link.received ++ .probe e.health ::
        if health.1.isSuccess then
          .probe e.provider ::
          if provider.1.namesProvider ∧ found.documentationCount ≠ 0 ∧ config.dryRun = false then
            found.documentationFiles.filterMap (client.uploadRequest? fs e.upload .documents)
              ++ (config.codeFilesOf found).filterMap
                  (client.uploadRequest? fs e.upload .codeExamples)
          else []
        else [] := by
  dsimp only
  have hvalid := Client.validation_collaborators he server fs rules config.root link
  by_cases hsuccess : (link.send server (.probe e.health)).1.isSuccess = true
  case neg =>
    rw [if_neg hsuccess] at hvalid ⊢
    rw [received_runImport_of_taken he hserver (.unreachable hvalid rfl), if_neg hsuccess]
    exact List.append_nil _
  rw [if_pos hsuccess] at hvalid ⊢
  cases hprovider : ((link.send server (.probe e.health)).2.send server
    (.probe e.provider)).1.namesProvider with
  | false =>
    rw [hprovider] at hvalid
    rw [received_runImport_of_taken he hserver (.unconfigured hvalid rfl rfl), if_pos hsuccess,
      if_neg (by simp)]
    exact List.append_nil _
  | true =>
    rw [hprovider] at hvalid
    have hready : (client.collaborators server fs rules config.root).Ready link :=
      ⟨_, hvalid, rfl, rfl⟩
    -- where the scan fails, nothing counts as found, and nothing is sent
    cases hscan : rules.scan fs config.root with
    | error cause =>
      have hfound : (client.collaborators server fs rules config.root).findings link
          = .error cause.message := by
        show (rules.scan fs config.root).mapError ScanError.message = _
        rw [hscan]
        rfl
      rw [received_runImport_of_taken he hserver (.scanFailed hready hfound), if_pos hsuccess]
      exact List.append_nil _
    | ok found =>
      have hscanned : (client.collaborators server fs rules config.root).Scanned link found :=
        ⟨hready, (client.findings_collaborators_iff ..).mpr hscan⟩
      obtain ⟨course, htaken, hsent⟩ := exists_taken_of_scanned he hserver hscanned
      rw [received_runImport_of_taken he hserver htaken, if_pos hsuccess, hsent, List.append_assoc]
      simp [Except.toOption]

end ImportConfig

end KnowledgeImport
