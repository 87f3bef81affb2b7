/-!
# Environment variables

Variables with their values. A variable that is set keeps its value.
-/

namespace KnowledgeImport

/-- The variables of a process; the first entry of a name counts. -/
structure Environment where
  bindings : List (String × String) := []
  deriving DecidableEq, Repr

namespace Environment

/-- The value of a variable. -/
def value? (e : Environment) (name : String) : Option String :=
  (e.bindings.find? (·.1 = name)).map (·.2)

/-- Sets a variable that is not set yet. -/
def add (e : Environment) (name value : String) : Environment :=
  if (e.value? name).isSome then e else ⟨e.bindings ++ [(name, value)]⟩

end Environment

end KnowledgeImport
