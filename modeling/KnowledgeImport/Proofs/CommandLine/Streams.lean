import KnowledgeImport.Proofs.CommandLine.RequestStream
import KnowledgeImport.Proofs.Import.Accounting
import KnowledgeImport.Proofs.Import.Encoding
import KnowledgeImport.Proofs.Scan.Membership

/-!
# The streams of a session

A session for a program does what the session for a person does, and prints the same news on the
other stream; what differs is how the record is printed (`Invocation.json_moves_text`).  An import
is set up without a look at who reads the output, and printing is no more than adding text to a
stream (`Console.printEvents_eq_write`).
-/

namespace KnowledgeImport

open Json

variable {σ : Type}

/-! ### Printing -/

namespace Console

theorem write_write (c : Console) (stream : Stream) (s t : String) :
    (c.write stream s).write stream t = c.write stream (s ++ t) := by
  cases stream <;> simp [write, String.append_assoc]

theorem write_empty (c : Console) (stream : Stream) : c.write stream "" = c := by
  cases stream <;> simp [write]

/-- Events are printed as one text, whichever the stream. -/
theorem printEvents_eq_write (events : List ProgressEvent) :
    ∃ text, ∀ (c : Console) (stream : Stream), c.printEvents stream events = c.write stream text := by
  induction events with
  | nil => exact ⟨"", fun c stream => (c.write_empty stream).symm⟩
  | cons e events ih =>
    obtain ⟨text, htext⟩ := ih
    refine ⟨e.render ++ "\n" ++ text, fun c stream => ?_⟩
    rw [← write_write, ← htext]
    rfl

end Console

/-! ### The record of a session -/

namespace ImportResult

/-- The counts of a record of an import with a client fit sixty-four bits, if the number of files
in the tree does. -/
theorem fits_runImport (client : Client) (server : Server σ) (fs : FileSystem) (rules : ScanRules)
    (config : ImportConfig) (link : Link σ)
    (hfiles : ∀ entries, fs.node config.root = .ok (.directory entries) →
      (entries.files entersAll []).length < wordLimit) :
    (config.runImport (client.collaborators server fs rules config.root) link).result.Fits := by
  have hteam := client.accountable_collaborators server fs rules config.root
  obtain ⟨course, htaken, -, hrecord⟩ :=
    config.runImport_takes (client.collaborators server fs rules config.root) link
  obtain ⟨hdocuments, hcode⟩ := htaken.counts_le hteam
  have hfound : (((client.collaborators server fs rules config.root).findings link).toOption.getD
      {}).fileCount < wordLimit := by
    cases hfindings : (client.collaborators server fs rules config.root).findings link with
    | error cause => exact (by decide : 0 < wordLimit)
    | ok found =>
      have hscan := (client.findings_collaborators_iff ..).mp hfindings
      obtain ⟨entries, hnode, rfl⟩ := ScanRules.exists_of_scan hscan
      exact Nat.lt_of_le_of_lt (rules.fileCount_scanEntries_le config.root entries)
        (hfiles entries hnode)
  rw [show ImportRun.result _ = course.record config from hrecord]
  rw [ScanResult.fileCount] at hfound
  rw [ScanResult.documentationCount] at hdocuments
  exact ⟨by omega, by omega, by omega, by omega⟩

theorem fits_setupFailed (projectId : String) (e : SetupError) : (setupFailed projectId e).Fits := by
  have hzero : 0 < wordLimit := by decide
  exact ⟨hzero, hzero, hzero, hzero⟩

end ImportResult

/-! ### Two sessions -/

namespace Invocation

/-- The invocation with its record printed for a program, or not. -/
def withJson (i : Invocation) (json : Bool) : Invocation := { i with json }

theorem setUp_withJson (i : Invocation) (json : Bool) (fs : FileSystem) :
    (i.withJson json).setUp fs = i.setUp fs :=
  rfl

/-- A session whose import is set up prints a banner and news, and then the record. -/
theorem run_withJson_of_ok {i : Invocation} {fs : FileSystem} {setup : Setup}
    (hsetup : i.setUp fs = .ok setup) (server : Server σ) (state : σ) :
    ∃ text, ∀ json : Bool,
      let run := setup.config.runImport
        (setup.client.collaborators server fs setup.rules setup.config.root) { state }
      (i.withJson json).run fs server state = {
        console := if json then { output := run.result.toJson.pretty ++ "\n", error := text }
          else { output := text ++ (run.result.summary setup.config ++ "\n") }
        outcome := .ok run.result
        link := run.world } := by
  obtain ⟨news, hnews⟩ := Console.printEvents_eq_write (setup.config.runImport
    (setup.client.collaborators server fs setup.rules setup.config.root) { state }).events
  refine ⟨setup.config.banner ++ "\n" ++ news, fun json => ?_⟩
  rw [run, setUp_withJson, hsetup]
  cases json <;>
    simp [runSetup, withJson, progressStream, hnews, Console.print, Console.write,
      Console.printRecord]

/-- A session whose import cannot be set up prints the record of the failure, or nothing. -/
theorem run_withJson_of_error {i : Invocation} {fs : FileSystem} {e : SetupError}
    (hsetup : i.setUp fs = .error e) (server : Server σ) (state : σ) (json : Bool) :
    (i.withJson json).run fs server state = {
      console := if json then
        { output := (ImportResult.setupFailed i.projectId e).toJson.pretty ++ "\n" } else {}
      outcome := .error e
      link := { state } } := by
  rw [run, setUp_withJson, hsetup]
  cases json <;> simp [withJson, Console.printRecord, Console.print, Console.write]

/-- A session for a program sends what the session for a person sends and comes to the same end.
If the import can be set up, what the person is shown is what the program gets as news, and after it
the summary; the program's output is the record and nothing else. If it cannot, nothing is sent and
nothing is shown to the person but the error in the end, and the program's output is a record of
the failure. Either way, if the files of the tree can be counted in sixty-four bits, the program's
output is one text that is read as a record, by which the program ends. -/
theorem json_moves_text (i : Invocation) (fs : FileSystem) (server : Server σ) (state : σ) :
    let plain := (i.withJson false).run fs server state
    let json := (i.withJson true).run fs server state
    json.link = plain.link ∧ json.outcome = plain.outcome ∧
    (∀ setup, i.setUp fs = .ok setup → ∃ record, plain.outcome = .ok record ∧
      plain.console.output = json.console.error ++ (record.summary setup.config ++ "\n") ∧
      json.console.output = record.toJson.pretty ++ "\n") ∧
    (∀ e, i.setUp fs = .error e → plain.outcome = .error e ∧ plain.link = { state } ∧
      plain.console = {} ∧ json.console = {
        output := (ImportResult.toJson {
          projectId := i.projectId
          status := .failed
          documentsUploaded := 0
          documentsFailed := 0
          codeExamples := 0
          codeExamplesFailed := 0
          errors := [e.message] }).pretty ++ "\n" }) ∧
    ((∀ entries, fs.node (i.root fs) = .ok (.directory entries) →
        (entries.files entersAll []).length < wordLimit) →
      ∃ record, readString ImportResult.ofDraft json.terminate.console.output = .ok record ∧
        json.terminate.exitCode = record.status.exitCode ∧
        (plain.outcome = .ok record ∨ ∃ e, plain.outcome = .error e ∧
          record = ImportResult.setupFailed i.projectId e)) := by
  intro plain json
  cases hsetup : i.setUp fs with
  | error e =>
    have hrun := run_withJson_of_error hsetup server state
    rw [show plain = _ from hrun false, show json = _ from hrun true]
    refine ⟨rfl, rfl, fun setup h => (by cases h), fun e' h => ?_, fun _ => ?_⟩
    · obtain rfl := Except.error.inj h
      exact ⟨rfl, rfl, rfl, rfl⟩
    · have hfits := ImportResult.fits_setupFailed i.projectId e
      exact ⟨_, ImportResult.readString_pretty hfits, rfl, .inr ⟨e, rfl, rfl⟩⟩
  | ok setup =>
    obtain ⟨text, hrun⟩ := run_withJson_of_ok hsetup server state
    rw [show plain = _ from hrun false, show json = _ from hrun true]
    refine ⟨rfl, rfl, fun setup' h => ?_, fun e h => (by cases h), fun hfiles => ?_⟩
    · obtain rfl := Except.ok.inj h
      exact ⟨_, rfl, rfl, rfl⟩
    · have hroot : setup.config.root = i.root fs := by
        obtain ⟨settings, -, hconfig, -⟩ := setUp_eq_ok hsetup
        rw [hconfig]
        rfl
      have hfits := ImportResult.fits_runImport setup.client server fs setup.rules setup.config
        { state } (hroot ▸ hfiles)
      exact ⟨_, ImportResult.readString_pretty hfits, rfl, .inl rfl⟩

/-- The two sessions on the machine with a readme, a source file and settings. -/
theorem json_moves_text_oneByOne :
    (∀ entries, oneByOne.node (oneByOneSession.root oneByOne)
      = .ok (.directory entries) → (entries.files entersAll []).length < wordLimit) ∧
    ∃ record, readString ImportResult.ofDraft
      ((oneByOneSession.withJson true).run oneByOne willing
        ()).terminate.console.output = .ok record := by
  have hroot : oneByOneSession.root oneByOne = Path.ofString "/" := by cbv
  have hnode : oneByOne.node (Path.ofString "/") = .ok oneByOne.root := by cbv
  have hfiles : ∀ entries, oneByOne.node (oneByOneSession.root oneByOne)
      = .ok (.directory entries) → (entries.files entersAll []).length < wordLimit := by
    intro entries h
    rw [hroot, hnode] at h
    obtain rfl := Node.directory.inj (Except.ok.inj h)
    decide
  obtain ⟨-, -, -, -, hread⟩ :=
    oneByOneSession.json_moves_text oneByOne willing ()
  obtain ⟨record, hrecord, -⟩ := hread hfiles
  exact ⟨hfiles, record, hrecord⟩

end Invocation

end KnowledgeImport
