import KnowledgeImport.CommandLine.Parameter
import KnowledgeImport.Text.Terminal

/-!
# Replies in place of an import

What the program says if the command line asks for information or cannot be understood.
-/

namespace KnowledgeImport

/-- Why a command line starts no import. Where a reply shows how the program is used, it comes with
the parameters that were given. -/
inductive UsageReply where
  /-- The help was asked for. -/
  | help
  /-- The version was asked for. -/
  | version
  /-- An argument is no parameter. -/
  | unknown (argument : String) (similar : Option Parameter) (given : List Parameter)
  /-- A parameter is given twice. -/
  | repeated (parameter : Parameter)
  /-- A parameter has no value. -/
  | valueMissing (parameter : Parameter)
  /-- A switch has a value. -/
  | valueUnexpected (value : String) (parameter : Parameter) (given : List Parameter)
  /-- There is no project. -/
  | projectMissing (given : List Parameter)
  deriving DecidableEq, Repr

namespace UsageReply

/-- The name of the program. -/
def programName : String := "archon-import"

/-- The version of the program. -/
def programVersion : String := "0.1.0"

/-- The variable that holds the URL of the backend. -/
def urlVariable : String := "ARCHON_URL"

/-! ### Usage lines -/

/-- How the program is used in general. -/
def generalUsage : String :=
  "Usage: " ++ programName ++ " [OPTIONS] " ++ Parameter.projectId.shown

/-- How the program is used with some parameters. The required one comes first. -/
def usageWith (given : List Parameter) : String :=
  "Usage: " ++ programName
    ++ String.join ((Parameter.projectId :: given.filter (· ≠ .projectId)).map (" " ++ ·.shown))

/-- How the program is used, as a hint for somebody who gave some parameters. -/
def usage (given : List Parameter) : String :=
  if given.isEmpty then generalUsage else usageWith given

/-! ### Help -/

/-- The text with blanks on its right up to a width. -/
def padded (width : Nat) (s : String) : String :=
  s ++ String.ofList (List.replicate (width - s.length) ' ')

/-- The column at which purposes stand. -/
def purposeColumn : Nat := 33

/-- Where a value comes from if the parameter is not given. -/
def fallback (environmentUrl : Option String) : Parameter → String
  | .backendUrl =>
    " [env: " ++ urlVariable ++ "=" ++ environmentUrl.getD "" ++ "] [default: "
      ++ defaultBackendUrl ++ "]"
  | _ => ""

/-- The text with all lines but the first moved to the column of purposes. -/
def indented (s : String) : String :=
  s.replace "\n" ("\n" ++ padded purposeColumn "")

/-- A parameter's line of the help. -/
def helpLine (environmentUrl : Option String) (p : Parameter) : String :=
  let start :=
    match p.letter? with
    | some c => "  -" ++ c.toString ++ ", "
    | none => "      "
  padded purposeColumn (start ++ p.shown) ++ indented (p.purpose ++ fallback environmentUrl p)

/-- The help. -/
def helpText (environmentUrl : Option String) : String :=
  "Import documentation and code examples into an existing Archon project\n\n" ++ generalUsage
    ++ "\n\nOptions:\n"
    ++ String.join (Parameter.all.map fun p => helpLine environmentUrl p ++ "\n")

/-! ### Texts -/

/-- The text of an error: what is wrong, an optional usage line, and where to find more. -/
def errorText (wrong : String) (usage : Option String) : String :=
  "error: " ++ wrong ++ "\n\n" ++ (usage.map (· ++ "\n\n")).getD ""
    ++ "For more information, try '--help'.\n"

/-- The text of a reply. -/
def text (environmentUrl : Option String) (r : UsageReply) : String :=
  Text.withoutControls <|
    match r with
    | .help => helpText environmentUrl
    | .version => programName ++ " " ++ programVersion ++ "\n"
    | .unknown argument similar given =>
      let tip :=
        match similar with
        | some p => "\n\n  tip: a similar argument exists: '" ++ p.option ++ "'"
        | none => ""
      errorText ("unexpected argument '" ++ argument ++ "' found" ++ tip) (usage given)
    | .repeated p =>
      errorText ("the argument '" ++ p.shown ++ "' cannot be used multiple times") generalUsage
    | .valueMissing p =>
      errorText ("a value is required for '" ++ p.shown ++ "' but none was supplied") none
    | .valueUnexpected value p given =>
      errorText ("unexpected value '" ++ value ++ "' for '" ++ p.option
        ++ "' found; no more were expected") (usageWith given)
    | .projectMissing given =>
      errorText ("the following required arguments were not provided:\n  "
        ++ Parameter.projectId.shown) (usageWith given)

/-- The reply says that something is wrong. -/
def isError : UsageReply → Bool
  | .help | .version => false
  | _ => true

/-- The exit code after a reply. -/
def exitCode (r : UsageReply) : Nat :=
  if r.isError then 2 else 0

end UsageReply

end KnowledgeImport
