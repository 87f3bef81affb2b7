import KnowledgeImport.CommandLine.Session
import KnowledgeImport.Proofs.Import.Gating
import KnowledgeImport.Proofs.Import.RequestStream
import KnowledgeImport.Proofs.Scan.Listing
import KnowledgeImport.Proofs.Text.Decoding

/-!
# The requests of a session

What an import is set up from (`Invocation.setUp_eq_ok`), and all that a server receives from a
session whose import could be set up: two probes and a form for each file
(`Invocation.received_run`).
-/

namespace KnowledgeImport

open Text

variable {σ : Type}

/-- The requests for files with names, part by part. -/
theorem Client.filterMap_uploadRequest? (client : Client) (fs : FileSystem) (url : Url)
    (kind : UploadKind) {paths : List Path}
    (hnames : ∀ path ∈ paths, ∃ name, path.fileName? = some name) :
    paths.filterMap (client.uploadRequest? fs url kind)
      = paths.filterMap fun path => (fs.readFile path).toOption.map fun content => {
          method := .post
          url := url
          parts := [
            { name := "file", fileName := path.fileName?.map Name.display
              content := content.toOctets },
            { name := "knowledge_type", content := encode (match kind with
              | .documents => client.knowledgeType
              | .codeExamples => codeKnowledgeType) },
            { name := "tags", content := encode client.tagsJson },
            { name := "project_id", content := encode client.projectId },
            { name := "extract_code_examples", content := encode (match kind with
              | .documents => "false"
              | .codeExamples => "true") }] } := by
  refine List.filterMap_congr fun path hpath => ?_
  obtain ⟨name, hname⟩ := hnames path hpath
  rw [uploadRequest?, hname]
  congr 1
  funext content
  cases kind <;> simp [uploadRequest, form, hname]

namespace Invocation

variable {i : Invocation} {fs : FileSystem} {setup : Setup} {server : Server σ} {e : Endpoints}

/-- What an import is set up from: the settings, and from them the configuration, the client and the
rules. -/
theorem setUp_eq_ok (h : i.setUp fs = .ok setup) :
    ∃ settings, i.settings fs = .ok settings ∧ setup.config = i.importConfig fs settings ∧
      Client.ofConfig {
        baseUrl := i.backendUrl
        projectId := i.projectId
        concurrency := settings.uploadConcurrency
        knowledgeType := settings.knowledgeType
        tags := settings.tags } = .ok setup.client ∧
      ScanRules.ofConfig setup.config = .ok setup.rules := by
  unfold setUp at h
  obtain ⟨settings, hsettings, h⟩ := bind_eq_ok_iff.mp h
  obtain ⟨client, hclient, h⟩ := bind_eq_ok_iff.mp h
  obtain ⟨rules, hrules, h⟩ := bind_eq_ok_iff.mp h
  obtain rfl := Except.ok.inj h
  exact ⟨settings, mapError_eq_ok_iff.mp hsettings, rfl, mapError_eq_ok_iff.mp hclient,
    mapError_eq_ok_iff.mp hrules⟩

/-- The requests of a session are those of its import. -/
theorem link_run (h : i.setUp fs = .ok setup) (server : Server σ) (state : σ) :
    (i.run fs server state).link = (setup.config.runImport
      (setup.client.collaborators server fs setup.rules setup.config.root) { state }).world := by
  rw [run, h]
  rfl

/-- All that a server receives from a session whose import could be set up, as long as no connection
is refused: the first probe; after a success the second one; and if that names a provider, the scan
found documents and it is no dry run, one form for each file that can be read, first the readmes in
the order of the scan, then the other documents, then the code files, unless code examples are
switched off. A form has five parts: the file under its name with all its octets, what it is filed
as, the tags, the project, and whether code examples are to be extracted. No path is listed twice,
and each ends in a name. What comes of one file has no influence on what is sent for the others. -/
theorem received_run (hfs : fs.WellFormed) (hserver : server.Accepts)
    (hsetup : i.setUp fs = .ok setup) (he : setup.client.HasEndpoints e) (state : σ) :
    ∃ settings, i.settings fs = .ok settings ∧
      let found := (setup.rules.scan fs (i.root fs)).toOption.getD {}
      let files := found.readmeFiles ++ found.documentation ++ found.codeFiles
      let post (knowledgeType extract : String) (path : Path) : Option Request :=
        (fs.readFile path).toOption.map fun content => {
          method := .post
          url := e.upload
          parts := [
            { name := "file", fileName := path.fileName?.map Name.display
              content := content.toOctets },
            { name := "knowledge_type", content := encode knowledgeType },
            { name := "tags", content := encode
                (Json.Value.texts (("project:" ++ i.projectId) :: settings.tags)).compact },
            { name := "project_id", content := encode i.projectId },
            { name := "extract_code_examples", content := encode extract }] }
      let health := server { method := .get, url := e.health } state
      let provider := server { method := .get, url := e.provider } health.2
      files.Nodup ∧ (∀ path ∈ files, ∃ name, path.fileName? = some name) ∧
      (i.run fs server state).link.received
        = { method := .get, url := e.health } ::
          if health.1.isSuccess then
            { method := .get, url := e.provider } ::
            if provider.1.namesProvider ∧
                (found.readmeFiles ≠ [] ∨ found.documentation ≠ []) ∧ i.dryRun = false then
              found.readmeFiles.filterMap (post settings.knowledgeType "false")
                ++ found.documentation.filterMap (post settings.knowledgeType "false")
                ++ if i.codeExamplesEnabled then found.codeFiles.filterMap (post "code" "true")
                  else []
            else []
          else [] := by
  obtain ⟨settings, hsettings, hconfig, hclient, -⟩ := setUp_eq_ok hsetup
  refine ⟨settings, hsettings, ?_⟩
  intro found files post health provider
  have hroot : setup.config.root = i.root fs := by rw [hconfig]; rfl
  have hdry : setup.config.dryRun = i.dryRun := by rw [hconfig]; rfl
  have hinclude : setup.config.includeCodeExamples = i.codeExamplesEnabled := by rw [hconfig]; rfl
  have hmade := Client.eq_of_ofConfig hclient
  -- every listed path has a name, so no form falls back on a name of its own
  obtain ⟨hnodup, hnames⟩ := setup.rules.paths_scan hfs (i.root fs)
  have hdocuments : found.documentationFiles.filterMap
      (setup.client.uploadRequest? fs e.upload .documents)
        = found.readmeFiles.filterMap (post settings.knowledgeType "false")
          ++ found.documentation.filterMap (post settings.knowledgeType "false") := by
    rw [← List.filterMap_append, Client.filterMap_uploadRequest? _ _ _ _ fun path hpath =>
      hnames path (List.mem_append_left _ hpath), hmade]
    rfl
  have hcode : (setup.config.codeFilesOf found).filterMap
      (setup.client.uploadRequest? fs e.upload .codeExamples)
        = if i.codeExamplesEnabled then found.codeFiles.filterMap (post "code" "true") else [] := by
    rw [ImportConfig.codeFilesOf, hinclude, apply_ite (List.filterMap _), List.filterMap_nil,
      Client.filterMap_uploadRequest? _ _ _ _ fun path hpath =>
        hnames path (List.mem_append_right _ hpath), hmade]
    rfl
  have hstream := ImportConfig.received_runImport he hserver setup.config setup.rules fs { state }
  rw [hroot, hdry] at hstream
  refine ⟨hnodup, hnames, ?_⟩
  rw [link_run hsetup, hroot, ← hdocuments, ← hcode]
  simp only [← ScanResult.documentationCount_ne_zero_iff]
  exact hstream

/-- A machine with a readme, a source file, and settings in the file `/s`. -/
def oneByOne : FileSystem where
  root := .directory (.cons (encode "README.md") (.file (.octets []))
    (.cons (encode "a.rs") (.file (.octets []))
      (.cons (encode "s") (.file (.octets (encode "upload_concurrency: 1"))) .nil)))

theorem wellFormed_oneByOne : oneByOne.WellFormed := by
  have hreadme : Name.Valid (encode "README.md") := by decide
  have hsource : Name.Valid (encode "a.rs") := by decide
  have hsettings : Name.Valid (encode "s") := by decide
  refine ⟨hreadme, trivial, ?_, hsource, trivial, ?_, hsettings, trivial, List.forall_mem_nil _,
    trivial⟩
  · decide
  · decide

/-- The session that imports this machine, one file at a time. -/
def oneByOneSession : Invocation where
  projectId := ""
  backendUrl := defaultBackendUrl
  config := some "/s"

theorem settings_oneByOne :
    oneByOneSession.settings oneByOne = .ok { uploadConcurrency := 1 } := by
  have hread : oneByOne.readFile (Path.ofString "/s")
      = .ok (.octets (encode "upload_concurrency: 1")) := by cbv
  have htext : Settings.ofText "upload_concurrency: 1" = .ok { uploadConcurrency := 1 } := by
    decide +kernel
  rw [← htext]
  show Settings.load oneByOne (Path.ofString "/s") = _
  rw [Settings.load, hread]
  simp only [Content.toOctets, decode?_encode]

/-- Two probes, the readme, and the source file. -/
theorem received_run_oneByOne :
    ∃ setup e, oneByOne.WellFormed ∧ willing.Accepts ∧
      oneByOneSession.setUp oneByOne = .ok setup ∧ setup.client.HasEndpoints e ∧
      setup.client.concurrency = 1 ∧
      (oneByOneSession.run oneByOne willing ()).link.received.map (·.method)
        = [.get, .get, .post, .post] := by
  obtain ⟨setup, hsetup⟩ : ∃ setup, oneByOneSession.setUp oneByOne = .ok setup := by
    have hok : (oneByOneSession.setUp oneByOne).isOk = true := by
      rw [setUp, settings_oneByOne]
      decide +kernel
    cases hsetup : oneByOneSession.setUp oneByOne with
    | ok setup => exact ⟨setup, rfl⟩
    | error cause => rw [hsetup] at hok; cases hok
  obtain ⟨settings, hsettings, hconfig, hclient, hrules⟩ := setUp_eq_ok hsetup
  obtain rfl : { uploadConcurrency := 1 } = settings :=
    Except.ok.inj (settings_oneByOne.symm.trans hsettings)
  have hmade := Client.eq_of_ofConfig hclient
  have hendpoints : ∃ e, setup.client.HasEndpoints e := by
    rw [hmade]
    exact ⟨⟨_, _, _⟩, ⟨rfl, rfl, rfl⟩⟩
  obtain ⟨e, he⟩ := hendpoints
  have hroom : setup.client.concurrency = 1 := by rw [hmade]; rfl
  refine ⟨setup, e, wellFormed_oneByOne, accepts_willing, hsetup, he, hroom, ?_⟩
  have hscan : setup.rules.scan oneByOne (oneByOneSession.root oneByOne) = .ok {
      readmeFiles := [Path.ofString "/README.md"], codeFiles := [Path.ofString "/a.rs"] } := by
    have hroot : oneByOneSession.root oneByOne = Path.ofString "/" := by cbv
    have hnode : oneByOne.node (Path.ofString "/") = .ok oneByOne.root := by cbv
    have hfound : ((ScanRules.ofConfig (oneByOneSession.importConfig oneByOne
        { uploadConcurrency := 1 })).map
        fun rules => rules.scanEntries (Path.ofString "/") oneByOne.root.entries).toOption
          = some { readmeFiles := [Path.ofString "/README.md"]
                   codeFiles := [Path.ofString "/a.rs"] } := by
      decide +kernel
    rw [← hconfig, hrules] at hfound
    rw [hroot, ScanRules.scan, hnode]
    exact congrArg Except.ok (Option.some.inj hfound)
  have hreadme : oneByOne.readFile (Path.ofString "/README.md") = .ok (.octets []) := by cbv
  have hsource : oneByOne.readFile (Path.ofString "/a.rs") = .ok (.octets []) := by cbv
  obtain ⟨_, -, -, -, hreceived⟩ :=
    received_run wellFormed_oneByOne accepts_willing hsetup he ()
  have henabled : oneByOneSession.codeExamplesEnabled = true := rfl
  have hdry : oneByOneSession.dryRun = false := rfl
  rw [hreceived, hscan]
  simp [Except.toOption, isSuccess_willing, namesProvider_willing, hreadme, hsource, henabled, hdry]

end Invocation

end KnowledgeImport
