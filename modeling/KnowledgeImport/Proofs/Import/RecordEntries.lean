import KnowledgeImport.Import.Record
import Mathlib.Algebra.GroupWithZero.Nat
import Mathlib.Data.List.Infix
import Mathlib.Tactic.SplitIfs

/-!
# The record grows and settles once

A record is kept by entries: outcomes of uploads and extractions, messages, and statuses
(`RecordEntry`).  Whatever is entered, and in whatever order, no count gets smaller, no message is
lost, and a status that is final stays (`ImportResult.Grows`, `ImportResult.grows_enter`).  After
any entries the record holds sums of the outcomes, all messages in order, and the first final status
(`ImportResult.enterAll_eq`).
-/

namespace KnowledgeImport

/-- What can be entered in a record. -/
inductive RecordEntry where
  | upload (o : UploadOutcome)
  | extraction (o : UploadOutcome)
  | message (text : String)
  | finish (status : ImportStatus)
  deriving DecidableEq, Repr

namespace RecordEntry

/-- The outcome of an upload. -/
@[simp]
def upload? : RecordEntry → Option UploadOutcome
  | upload o => some o
  | extraction _ | message _ | finish _ => none

/-- The outcome of an extraction. -/
@[simp]
def extraction? : RecordEntry → Option UploadOutcome
  | extraction o => some o
  | upload _ | message _ | finish _ => none

/-- The messages that come with an entry. -/
@[simp]
def messages : RecordEntry → List String
  | upload o | extraction o => o.errors
  | message text => [text]
  | finish _ => []

/-- The status that an entry is to settle; `running` settles nothing. -/
def final? : RecordEntry → Option ImportStatus
  | finish status => if status = .running then none else some status
  | upload _ | extraction _ | message _ => none

end RecordEntry

namespace ImportResult

/-- The record with one more entry. -/
def enter (r : ImportResult) : RecordEntry → ImportResult
  | .upload o => r.recordUpload o
  | .extraction o => r.recordExtraction o
  | .message text => r.pushError text
  | .finish status => r.finish status

/-- The record with more entries, in their order. -/
def enterAll (r : ImportResult) (entries : List RecordEntry) : ImportResult :=
  entries.foldl enter r

theorem enterAll_append (r : ImportResult) (entries more : List RecordEntry) :
    r.enterAll (entries ++ more) = (r.enterAll entries).enterAll more :=
  List.foldl_append

/-! ### Growth -/

/-- The later record has at least the counts of the earlier one and starts with its messages, and
what was settled is settled. -/
structure Grows (earlier later : ImportResult) : Prop where
  projectId : later.projectId = earlier.projectId
  documentsUploaded : earlier.documentsUploaded ≤ later.documentsUploaded
  documentsFailed : earlier.documentsFailed ≤ later.documentsFailed
  codeExamples : earlier.codeExamples ≤ later.codeExamples
  codeExamplesFailed : earlier.codeExamplesFailed ≤ later.codeExamplesFailed
  errors : earlier.errors <+: later.errors
  status (h : earlier.status ≠ .running) : later.status = earlier.status

theorem Grows.refl (r : ImportResult) : r.Grows r where
  projectId := rfl
  documentsUploaded := Nat.le_refl _
  documentsFailed := Nat.le_refl _
  codeExamples := Nat.le_refl _
  codeExamplesFailed := Nat.le_refl _
  errors := List.prefix_refl _
  status _ := rfl

theorem Grows.trans {r s t : ImportResult} (h : r.Grows s) (h' : s.Grows t) : r.Grows t where
  projectId := h'.projectId.trans h.projectId
  documentsUploaded := h.documentsUploaded.trans h'.documentsUploaded
  documentsFailed := h.documentsFailed.trans h'.documentsFailed
  codeExamples := h.codeExamples.trans h'.codeExamples
  codeExamplesFailed := h.codeExamplesFailed.trans h'.codeExamplesFailed
  errors := h.errors.trans h'.errors
  status hsettled := by
    have hstatus : s.status = r.status := h.status hsettled
    exact (h'.status (hstatus ▸ hsettled)).trans hstatus

/-- One entry makes the record grow. -/
theorem grows_enter (r : ImportResult) (entry : RecordEntry) : r.Grows (r.enter entry) := by
  cases entry with
  | upload o =>
    exact { Grows.refl r with
      documentsUploaded := Nat.le_add_right ..
      documentsFailed := Nat.le_add_right ..
      errors := List.prefix_append .. }
  | extraction o =>
    exact { Grows.refl r with
      codeExamples := Nat.le_add_right ..
      codeExamplesFailed := Nat.le_add_right ..
      errors := List.prefix_append .. }
  | message text => exact { Grows.refl r with errors := List.prefix_append .. }
  | finish status =>
    rw [enter, finish]
    split_ifs with hrunning
    · exact { Grows.refl r with status := fun hsettled => absurd hrunning hsettled }
    · exact Grows.refl r

/-- So do any number of entries. -/
theorem grows_enterAll (r : ImportResult) (entries : List RecordEntry) :
    r.Grows (r.enterAll entries) := by
  induction entries generalizing r with
  | nil => exact Grows.refl r
  | cons entry entries ih => exact (r.grows_enter entry).trans (ih (r.enter entry))

/-! ### What the record holds -/

/-- A status that is entered counts while the record is running. -/
theorem finish_eq (r : ImportResult) (status : ImportStatus) :
    r.finish status = { r with status := if r.status = .running then status else r.status } := by
  rw [finish]
  split_ifs <;> rfl

/-- The status after one entry and others is that of the entry, if it is final, and else that of
the others. -/
theorem status_enter_getD (r : ImportResult) (entry : RecordEntry) (later : Option ImportStatus) :
    (if (r.enter entry).status = .running then later.getD .running else (r.enter entry).status)
      = if r.status = .running then (entry.final?.or later).getD .running else r.status := by
  cases entry with
  | upload o | extraction o | message text => rfl
  | finish status =>
    rw [enter, finish_eq, RecordEntry.final?]
    by_cases hrunning : r.status = .running
    · by_cases hstatus : status = .running
      · simp [hrunning, hstatus]
      · simp [hrunning, hstatus]
    · simp [hrunning]

/-- The record after any entries: counts and messages are added to what was there, and the first
final status counts unless one was settled before. -/
theorem enterAll_eq (r : ImportResult) (entries : List RecordEntry) :
    r.enterAll entries = {
      projectId := r.projectId
      status := if r.status = .running then (entries.findSome? (·.final?)).getD .running
        else r.status
      documentsUploaded :=
        r.documentsUploaded + ((entries.filterMap (·.upload?)).map (·.successful)).sum
      documentsFailed :=
        r.documentsFailed + ((entries.filterMap (·.upload?)).map (·.failed)).sum
      codeExamples :=
        r.codeExamples + ((entries.filterMap (·.extraction?)).map (·.successful)).sum
      codeExamplesFailed :=
        r.codeExamplesFailed + ((entries.filterMap (·.extraction?)).map (·.failed)).sum
      errors := r.errors ++ entries.flatMap (·.messages) } := by
  induction entries generalizing r with
  | nil =>
    have hstatus : (if r.status = .running then .running else r.status) = r.status := by
      split_ifs with hrunning
      · exact hrunning.symm
      · rfl
    simp [enterAll, hstatus]
  | cons entry entries ih =>
    have hfirst : (entry :: entries).findSome? (·.final?)
        = entry.final?.or (entries.findSome? (·.final?)) := by
      rw [List.findSome?_cons]
      cases entry.final? <;> rfl
    rw [enterAll, List.foldl_cons, ← enterAll, ih, status_enter_getD, hfirst]
    -- what is left are the sums and the messages, to which an entry adds its own
    cases entry with
    | upload o => simp [enter, recordUpload, Nat.add_assoc]
    | extraction o => simp [enter, recordExtraction, Nat.add_assoc]
    | message text => simp [enter, pushError]
    | finish status => simp [enter, finish_eq]

/-- However a record is kept, after every number of entries it has grown from what it was before:
no count is smaller, the messages start with those that were there, and a final status stays. In the
end its counts are the sums over the outcomes of uploads and of extractions, its messages are those
of all entries in their order, its project is the one it was started for, and its status is the
first final one that was entered, or `running` if none was. -/
theorem enterAll_start (projectId : String) (entries : List RecordEntry) :
    (∀ k n, ((start projectId).enterAll (entries.take k)).Grows
      ((start projectId).enterAll (entries.take (k + n)))) ∧
    (start projectId).enterAll entries = {
      projectId := projectId
      status := (entries.findSome? (·.final?)).getD .running
      documentsUploaded := ((entries.filterMap (·.upload?)).map (·.successful)).sum
      documentsFailed := ((entries.filterMap (·.upload?)).map (·.failed)).sum
      codeExamples := ((entries.filterMap (·.extraction?)).map (·.successful)).sum
      codeExamplesFailed := ((entries.filterMap (·.extraction?)).map (·.failed)).sum
      errors := entries.flatMap (·.messages) } := by
  constructor
  · intro k n
    have hmore : entries.take (k + n) = entries.take k ++ (entries.drop k).take n :=
      List.take_add ..
    rw [hmore, enterAll_append]
    exact grows_enterAll _ _
  · rw [enterAll_eq]
    simp [start]

end ImportResult

end KnowledgeImport
