import KnowledgeImport.FileTree.Lookup
import KnowledgeImport.Settings.Decode
import KnowledgeImport.Text.Blank

/-!
# Settings files

Settings from the file at a path. A blank file gives the defaults; two settings may not be zero.
-/

namespace KnowledgeImport

open Text

/-- Why a file gives no settings. -/
inductive SettingsFileError where
  | unreadable (path : Path) (cause : OsError)
  | notText (path : Path)
  | undecodable (cause : SettingsError)
  | zeroConcurrency
  | zeroTimeout
  deriving DecidableEq, Repr

namespace SettingsFileError

/-- The words in place of the explanation of a text that is not well formed. -/
def malformedText : String := "<syntax>"

/-- The words for an error. -/
def message : SettingsFileError → String
  | .unreadable path cause =>
    "Failed to read settings file " ++ quoted path.display ++ ": " ++ cause.message
  | .notText path =>
    "Failed to read settings file " ++ quoted path.display
      ++ ": stream did not contain valid UTF-8"
  | .undecodable cause =>
    "Failed to parse settings YAML: " ++ cause.message?.getD malformedText
  | .zeroConcurrency => "upload_concurrency must be at least 1"
  | .zeroTimeout => "timeout_secs must be at least 1"

end SettingsFileError

namespace Settings

/-- Reads the text of a settings file. -/
def ofText (text : String) : Except SettingsFileError Settings := do
  if isAllBlank text then return {}
  let s ← (ofYaml text).mapError .undecodable
  if s.uploadConcurrency = 0 then throw .zeroConcurrency
  if s.timeoutSecs = 0 then throw .zeroTimeout
  return s

/-- Reads the settings file at a path. -/
def load (fs : FileSystem) (path : Path) : Except SettingsFileError Settings :=
  match fs.readFile path with
  | .error cause => .error (.unreadable path cause)
  | .ok content =>
    match decode? content.toOctets with
    | none => .error (.notText path)
    | some text => ofText text

end Settings

end KnowledgeImport
