import KnowledgeImport.Backend.Client

/-!
# The outcome of a batch

A batch that comes to its end has counted every file once, as taken or as failed, and kept a message
for every failure (`Client.uploadBatch_spec`).  What carries this through a batch is that each file
adds one to the files counted and keeps messages and failures balanced.
-/

namespace KnowledgeImport

namespace UploadOutcome

/-- How many files were counted. -/
def total (o : UploadOutcome) : Nat := o.successful + o.failed

/-- There is a message for every failure. -/
def Balanced (o : UploadOutcome) : Prop := o.errors.length = o.failed

theorem balanced_empty : Balanced {} := rfl

theorem Balanced.recordSuccess {o : UploadOutcome} (h : o.Balanced) : o.recordSuccess.Balanced :=
  h

theorem Balanced.recordFailure {o : UploadOutcome} (h : o.Balanced) (message : String) :
    (o.recordFailure message).Balanced := by
  rw [Balanced] at h
  rw [Balanced, UploadOutcome.recordFailure, List.length_append, h]
  rfl

theorem total_recordSuccess (o : UploadOutcome) : o.recordSuccess.total = o.total + 1 := by
  simp only [total, recordSuccess]
  omega

theorem total_recordFailure (o : UploadOutcome) (message : String) :
    (o.recordFailure message).total = o.total + 1 := by
  simp only [total, recordFailure]
  omega

end UploadOutcome

namespace Client

variable {σ : Type}

/-- From a balanced outcome on, a batch that comes to its end has a balanced outcome and has counted
its files. -/
theorem uploadFrom_spec (client : Client) (server : Server σ) (fs : FileSystem) (kind : UploadKind)
    {outcome o : UploadOutcome} {paths : List Path} {link : Link σ}
    (h : (client.uploadFrom server fs kind outcome paths link).1 = .ok o) :
    o.total = outcome.total + paths.length ∧ (outcome.Balanced → o.Balanced) := by
  induction paths generalizing outcome link with
  | nil =>
    obtain rfl := Except.ok.inj h
    exact ⟨rfl, id⟩
  | cons path paths ih =>
    rw [uploadFrom] at h
    rw [List.length_cons]
    obtain ⟨result, link', hfile⟩ : ∃ result link',
        client.uploadFile server fs kind path link = (result, link') := ⟨_, _, rfl⟩
    rw [hfile] at h
    cases result with
    | uploaded =>
      obtain ⟨htotal, hbalanced⟩ := ih h
      rw [UploadOutcome.total_recordSuccess] at htotal
      exact ⟨by omega, fun hout => hbalanced hout.recordSuccess⟩
    | rejected message =>
      obtain ⟨htotal, hbalanced⟩ := ih h
      rw [UploadOutcome.total_recordFailure] at htotal
      exact ⟨by omega, fun hout => hbalanced (hout.recordFailure message)⟩
    -- a batch that loses the connection does not come to its end
    | lost message => cases h

/-- A batch that comes to its end has counted each of its files and has a message for every
failure. -/
theorem uploadBatch_spec (client : Client) (server : Server σ) (fs : FileSystem)
    (kind : UploadKind) {o : UploadOutcome} {paths : List Path} {link : Link σ}
    (h : (client.uploadBatch server fs kind paths link).1 = .ok o) :
    o.total = paths.length ∧ o.Balanced := by
  obtain ⟨htotal, hbalanced⟩ := client.uploadFrom_spec server fs kind h
  refine ⟨?_, hbalanced UploadOutcome.balanced_empty⟩
  rw [htotal, UploadOutcome.total, Nat.zero_add, Nat.zero_add]

end Client

end KnowledgeImport
