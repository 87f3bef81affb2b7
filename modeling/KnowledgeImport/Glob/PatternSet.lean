import KnowledgeImport.Glob.Reader
import KnowledgeImport.Glob.Matching
import KnowledgeImport.Glob.Nesting
import KnowledgeImport.Glob.Expression

/-!
# Sets of glob patterns

A set matches what one of its patterns matches. Building a set reads every pattern in turn and then
refuses patterns that nest too deeply.
-/

namespace KnowledgeImport.Glob

open Text

/-- Patterns that are matched together. -/
abbrev PatternSet := List Pattern

/-- Some pattern of the set matches. -/
def PatternSet.isMatch (set : PatternSet) (s : List Octet) : Bool :=
  set.any (·.isMatch s)

/-! ### Shapes

A pattern with few enough special parts is matched by comparing text at the ends of the candidate.
What is left is compiled, and a refusal names the place of the pattern among those. -/

/-- How a pattern is compiled. -/
inductive Shape where
  /-- Comparing text at the ends decides. -/
  | ends
  /-- The candidate's extension is compared first, then the whole expression. -/
  | withExtension
  /-- The whole expression decides. -/
  | whole
  deriving DecidableEq, Repr

namespace Shape

/-- The characters of tokens that are all literals. -/
def literals? (ts : List Token) : Option (List Char) :=
  ts.mapM fun
    | .literal c => some c
    | _ => none

/-- `**/name` with a name that has no slash. -/
def isBaseName : Pattern → Bool
  | .anyAncestors :: rest =>
    match literals? rest with
    | some cs => cs ≠ [] && !cs.contains '/'
    | none => false
  | _ => false

/-- Literals only, at least one. -/
def isLiteral (p : Pattern) : Bool :=
  match literals? p with
  | some cs => cs ≠ []
  | none => false

/-- `*.ext`, also after `**/`, with an extension that has neither a dot nor a slash. -/
def isExtension (p : Pattern) : Bool :=
  let p := match p with
    | .anyAncestors :: rest => rest
    | _ => p
  match p with
  | .anyRun :: .literal '.' :: rest =>
    match literals? rest with
    | some cs => !cs.contains '.' && !cs.contains '/'
    | none => false
  | _ => false

/-- Literals followed by `*` or by `/**`. -/
def isOpenEnded (p : Pattern) : Bool :=
  match p.getLast? with
  | some .anyRun =>
    match literals? p.dropLast with
    | some cs => cs ≠ []
    | none => false
  | some .anyDescendants => (literals? p.dropLast).isSome
  | _ => false

/-- `*` or `**/`, or both, followed by literals that are more than one slash. -/
def isEnding (p : Pattern) : Bool :=
  let (lead, rest) : List Char × List Token := match p with
    | .anyAncestors :: .literal c :: rest => (['/'], .literal c :: rest)
    | .anyAncestors :: rest => ([], rest)
    | _ => ([], p)
  let rest := match rest with
    | .anyRun :: rest => rest
    | _ => rest
  match literals? rest with
  | some cs => lead ++ cs ≠ [] && lead ++ cs ≠ ['/']
  | none => false

/-- The pattern ends in a dot and literals without a slash or a further dot. -/
def hasExtension (p : Pattern) : Bool :=
  let tail := p.reverse.takeWhile fun
    | .literal '.' => false
    | .literal '/' => false
    | .literal _ => true
    | _ => false
  match p.reverse.drop tail.length with
  | .literal '.' :: _ => true
  | _ => false

/-- The shape of a pattern. -/
def of (p : Pattern) : Shape :=
  if isBaseName p || isLiteral p || isExtension p || isOpenEnded p || isEnding p then .ends
  else if hasExtension p then .withExtension
  else .whole

end Shape

/-! ### Building a set -/

/-- Why a list of texts is no pattern set. -/
inductive SetError where
  /-- A text is no pattern. -/
  | malformed (pattern : String) (cause : SyntaxError)
  /-- The pattern at the given place among the compiled ones nests too deeply. -/
  | tooDeep (patterns : List String) (place : Nat)
  /-- A pattern that is compiled behind its extension nests too deeply. -/
  | tooDeepBehindExtension (patterns : List String) (pattern : Pattern)
  deriving Repr

/-- The text that the error blames: a pattern as written, or all of them joined by commas. -/
def SetError.blamed : SetError → String
  | .malformed pattern _ => pattern
  | .tooDeep patterns _ => ",".intercalate patterns
  | .tooDeepBehindExtension patterns _ => ",".intercalate patterns

/-- The words for what is wrong. -/
def SetError.reason : SetError → String
  | .malformed pattern cause => "error parsing glob '" ++ pattern ++ "': " ++ cause.message
  | .tooDeep _ place => "error parsing pattern " ++ toString place
  | .tooDeepBehindExtension _ pattern =>
    "error parsing glob '" ++ pattern.expression ++ "': error parsing pattern 0"

/-- The whole message. -/
def SetError.message (e : SetError) : String :=
  "Invalid glob pattern " ++ quoted e.blamed ++ ": " ++ e.reason

/-- Reads the patterns in turn; the first that is none is blamed. -/
def readAll : List String → Except SetError (List Pattern)
  | [] => .ok []
  | s :: rest =>
    match Pattern.ofString? s with
    | .error cause => .error (.malformed s cause)
    | .ok p => do return p :: (← readAll rest)

/-- Refuses a set in which a compiled pattern nests too deeply. -/
def checkNesting (texts : List String) (ps : List Pattern) : Except SetError PatternSet :=
  match ps.find? (fun p => Shape.of p = .withExtension && !p.isShallow) with
  | some p => .error (.tooDeepBehindExtension texts p)
  | none =>
    match (ps.filter (Shape.of · = .whole)).findIdx? (!·.isShallow) with
    | some place => .error (.tooDeep texts place)
    | none => .ok ps

/-- The set of the patterns that the texts spell. -/
def PatternSet.ofStrings (texts : List String) : Except SetError PatternSet := do
  checkNesting texts (← readAll texts)

end KnowledgeImport.Glob
