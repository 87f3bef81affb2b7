import KnowledgeImport.Backend.Client
import KnowledgeImport.Scan.Repository

/-!
# The collaborators of a real import

The scanner of a tree and the client of a backend as the collaborators of an import.
-/

namespace KnowledgeImport

/-- The collaborators that scan a tree by rules and upload to a server. -/
def Client.collaborators {σ : Type} (client : Client) (server : Server σ) (fs : FileSystem)
    (rules : ScanRules) (root : Path) : Collaborators (Link σ) where
  validate link :=
    let (report, link) := client.validate server link
    (.ok report, link)
  scan link := ((rules.scan fs root).mapError ScanError.message, link)
  uploadDocuments paths link := client.uploadBatch server fs .documents paths link
  extractCodeExamples paths link := client.uploadBatch server fs .codeExamples paths link

end KnowledgeImport
