/-!
# Outcomes of a batch

What the uploader reports about a batch of files: two counts, and a message for every failure.
-/

namespace KnowledgeImport

/-- The outcome of a batch. -/
structure UploadOutcome where
  successful : Nat := 0
  failed : Nat := 0
  errors : List String := []
  deriving DecidableEq, Repr

namespace UploadOutcome

/-- One more file was taken. -/
def recordSuccess (o : UploadOutcome) : UploadOutcome :=
  { o with successful := o.successful + 1 }

/-- One more file failed, with a message. -/
def recordFailure (o : UploadOutcome) (message : String) : UploadOutcome :=
  { o with failed := o.failed + 1, errors := o.errors ++ [message] }

end UploadOutcome

end KnowledgeImport
