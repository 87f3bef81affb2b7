import KnowledgeImport.Proofs.Import.Course

/-!
# The world after an import

Only calls change the world that the collaborators share.  So whatever an import does, its world is
the one at the start after the calls that it made, in their order (`ImportRun.Follows`,
`ImportConfig.world_runImport`).
-/

namespace KnowledgeImport

variable {σ : Type}

namespace Collaborators

/-- The world after a call. -/
def afterCall (team : Collaborators σ) (world : σ) : Call → σ
  | .validate => (team.validate world).2
  | .scan => (team.scan world).2
  | .uploadDocuments paths => (team.uploadDocuments paths world).2
  | .extractCodeExamples paths => (team.extractCodeExamples paths world).2

/-- The world after some calls. -/
def after (team : Collaborators σ) (world : σ) (calls : List Call) : σ :=
  calls.foldl team.afterCall world

end Collaborators

namespace ImportRun

/-- The world of the run is the one at the start after the calls made so far. -/
def Follows (team : Collaborators σ) (start : σ) (run : ImportRun σ) : Prop :=
  run.world = team.after start run.calls

variable {team : Collaborators σ} {start : σ} {run : ImportRun σ}

theorem calls_notify (run : ImportRun σ) (e : ProgressEvent) :
    (run.notify e).calls = run.calls := by
  simp [calls, notify]

theorem calls_ask {α : Type} (run : ImportRun σ) (c : Call) (f : σ → Except String α × σ) :
    (run.ask c f).2.calls = run.calls ++ [c] := by
  simp [calls, ask_eq]

theorem Follows.notify (h : run.Follows team start) (e : ProgressEvent) :
    (run.notify e).Follows team start := by
  rw [Follows, calls_notify]
  exact h

/-- A call to a collaborator keeps the run in step with its calls. -/
theorem Follows.ask {α : Type} (h : run.Follows team start) {c : Call}
    {f : σ → Except String α × σ} (hf : ∀ world, (f world).2 = team.afterCall world c) :
    (run.ask c f).2.Follows team start := by
  have hworld : run.world = team.after start run.calls := h
  rw [Follows, calls_ask, Collaborators.after, List.foldl_append, List.foldl_cons, List.foldl_nil,
    ← Collaborators.after, ← hworld]
  exact hf run.world

theorem Follows.withResult (h : run.Follows team start) (result : ImportResult) :
    ImportRun.Follows team start { run with result } :=
  h

theorem Follows.done (h : run.Follows team start) (status : ImportStatus) :
    (run.done status).Follows team start :=
  h

theorem Follows.fail (h : run.Follows team start) (message : String) :
    (run.fail message).Follows team start :=
  h.notify _

end ImportRun

namespace ImportConfig

variable {config : ImportConfig} {team : Collaborators σ} {start : σ} {run : ImportRun σ}

theorem follows_extractStage (h : run.Follows team start) (codeFiles : List Path) :
    (extractStage team codeFiles run).Follows team start := by
  unfold extractStage
  by_cases hnone : codeFiles.isEmpty = true
  · rw [if_pos hnone]
    exact h.done _
  · rw [if_neg hnone]
    have hasked := (h.notify (.extractionStarted codeFiles.length)).ask
      (c := .extractCodeExamples codeFiles) (f := team.extractCodeExamples codeFiles) fun _ => rfl
    dsimp only
    split
    · rename_i message run' hanswer
      rw [hanswer] at hasked
      exact hasked.fail message
    · rename_i outcome run' hanswer
      rw [hanswer] at hasked
      exact ((hasked.notify _).withResult _).done .success

theorem follows_uploadStage (h : run.Follows team start) (scan : ScanResult) :
    (config.uploadStage team scan run).Follows team start := by
  unfold uploadStage
  have hasked := (h.notify (.uploadStarted scan.documentationFiles.length)).ask
    (c := .uploadDocuments scan.documentationFiles)
    (f := team.uploadDocuments scan.documentationFiles) fun _ => rfl
  dsimp only
  split
  · rename_i message run' hanswer
    rw [hanswer] at hasked
    exact hasked.fail message
  · rename_i outcome run' hanswer
    rw [hanswer] at hasked
    exact follows_extractStage ((hasked.notify _).withResult _) _

theorem follows_scanStage (h : run.Follows team start) :
    (config.scanStage team run).Follows team start := by
  unfold scanStage
  have hasked := (h.notify .scanStarted).ask (c := .scan) (f := team.scan) fun _ => rfl
  dsimp only
  split
  · rename_i message run' hanswer
    rw [hanswer] at hasked
    exact hasked.fail message
  · rename_i scan run' hanswer
    rw [hanswer] at hasked
    split
    · exact ((hasked.notify _).notify _).done _
    · split
      · exact ((hasked.notify _).notify _).done _
      · exact follows_uploadStage (hasked.notify _) scan

/-- The world after an import is the one at the start after the calls of the import. -/
theorem world_runImport (config : ImportConfig) (team : Collaborators σ) (world : σ) :
    (config.runImport team world).world
      = team.after world (config.runImport team world).calls := by
  have hstart : ImportRun.Follows team world
      { world, actions := [], result := ImportResult.start config.projectId } := rfl
  have hasked := (hstart.notify .validationStarted).ask (c := .validate) (f := team.validate)
    fun _ => rfl
  show ImportRun.Follows team world (config.runImport team world)
  unfold runImport validateStage
  dsimp only
  split
  · rename_i message run' hanswer
    rw [hanswer] at hasked
    exact hasked.fail message
  · rename_i report run' hanswer
    rw [hanswer] at hasked
    split
    · exact hasked.notify _
    · split
      · exact (hasked.notify _).notify _
      · exact follows_scanStage ((hasked.notify _).notify _)

end ImportConfig

end KnowledgeImport
