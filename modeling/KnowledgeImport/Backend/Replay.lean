import KnowledgeImport.Backend.Message

/-!
# Replies known beforehand

A server that answers with the replies that somebody else got. What it cannot answer any more shows
which request comes next, so a real exchange can be made request by request.
-/

namespace KnowledgeImport

/-- The server that gives known replies in order; its state holds those that are left. -/
def replay : Server (List Reply)
  | _, [] => (.refused, [])
  | _, reply :: replies => (reply, replies)

/-- The first request that has no known reply, if so many are known. -/
def Link.nextRequest? {σ : Type} (link : Link σ) (known : Nat) : Option Request :=
  link.exchanges[known]?.map (·.1)

end KnowledgeImport
