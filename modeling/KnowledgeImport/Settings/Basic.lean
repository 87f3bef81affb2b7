import KnowledgeImport.Import.Config

/-!
# Settings

What a settings file may say: more patterns, and how files are uploaded. Every setting has a
default.
-/

namespace KnowledgeImport

/-- How many files are uploaded at a time unless settings say otherwise. -/
def defaultConcurrency : Nat := 4

/-- How many seconds a request may take unless settings say otherwise. -/
def defaultTimeout : Nat := 30

/-- What documents are filed as unless settings say otherwise. -/
def defaultKnowledgeType : String := "technical"

/-- Settings. -/
structure Settings where
  docPatterns : List String := []
  excludePatterns : List String := []
  codeExtensions : List String := []
  uploadConcurrency : Nat := defaultConcurrency
  timeoutSecs : Nat := defaultTimeout
  knowledgeType : String := defaultKnowledgeType
  tags : List String := []
  deriving DecidableEq, Repr

namespace Settings

/-- The patterns that settings add to the baseline lists. -/
def patternExtensions (s : Settings) : PatternExtensions :=
  ⟨s.docPatterns, s.excludePatterns, s.codeExtensions⟩

end Settings

end KnowledgeImport
