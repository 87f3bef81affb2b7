import KnowledgeImport.Import.Event

/-!
# The console

What a program prints on its two streams.
-/

namespace KnowledgeImport

/-- A stream of the console. -/
inductive Stream where
  | output
  | error
  deriving DecidableEq, Repr

/-- All that was printed so far. -/
structure Console where
  output : String := ""
  error : String := ""
  deriving DecidableEq, Repr

namespace Console

/-- Writes text as it is. -/
def write (c : Console) (stream : Stream) (text : String) : Console :=
  match stream with
  | .output => { c with output := c.output ++ text }
  | .error => { c with error := c.error ++ text }

/-- Prints text with a line feed after it. -/
def print (c : Console) (stream : Stream) (text : String) : Console :=
  c.write stream (text ++ "\n")

/-- Prints events as they come. -/
def printEvents (c : Console) (stream : Stream) (events : List ProgressEvent) : Console :=
  events.foldl (fun c e => c.print stream e.render) c

end Console

end KnowledgeImport
