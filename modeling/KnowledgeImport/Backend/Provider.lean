import KnowledgeImport.Json.Value
import KnowledgeImport.Text.Blank

/-!
# The embedding provider

Whether the settings that the backend sends name a provider of embeddings.
-/

namespace KnowledgeImport

open Text Json

/-- The settings that name a provider; one of them suffices. -/
def providerKeys : List String :=
  ["EMBEDDING_PROVIDER", "LLM_PROVIDER", "EMBEDDING_MODEL"]

/-- The value is a text that is not blank. -/
def isNamed : Value → Bool
  | .text s => !isAllBlank s
  | _ => false

/-- The settings name a provider, at the top or under `credentials`. -/
def providerConfigured (body : Value) : Bool :=
  let settings := (body.get? "credentials").getD body
  providerKeys.any fun key => (settings.get? key).any isNamed

end KnowledgeImport
