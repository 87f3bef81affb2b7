import KnowledgeImport.Settings.Basic
import KnowledgeImport.Yaml.CoreScalar

/-!
# Reading settings

Settings are read from the parts of a document: a mapping of known keys, each at most once, to
values of the right types. Of several faults the one is reported that stands first, and one of the
text itself only where the reader comes to it.
-/

namespace KnowledgeImport

open Text Yaml

/-- Where in the settings something is wrong. -/
inductive SettingsPlace where
  | top
  /-- The value of a key. -/
  | key (name : String)
  /-- An element of the list that is the value of a key. -/
  | element (name : String) (index : Nat)
  deriving DecidableEq, Repr

/-- The place as messages begin with it. -/
def SettingsPlace.shown : SettingsPlace → String
  | .top => ""
  | .key name => name ++ ": "
  | .element name index => name ++ "[" ++ toString index ++ "]: "

/-- Why a text is no settings. -/
inductive SettingsError where
  /-- The text is not one YAML document. -/
  | malformed
  | unknownField (name : String) (known : List String)
  | duplicateField (name : String)
  /-- Something of another type. -/
  | invalidType (place : SettingsPlace) (found expected : String)
  /-- A scalar that is not what its tag says. -/
  | invalidValue (place : SettingsPlace) (found expected : String)
  deriving DecidableEq, Repr

/-- The words for an error; a text that is not well formed has no further explanation. -/
def SettingsError.message? : SettingsError → Option String
  | .malformed => none
  | .unknownField name known =>
    some ("unknown field `" ++ name ++ "`, expected one of "
      ++ ", ".intercalate (known.map fun k => "`" ++ k ++ "`"))
  | .duplicateField name => some ("duplicate field `" ++ name ++ "`")
  | .invalidType place found expected =>
    some (place.shown ++ "invalid type: " ++ found ++ ", expected " ++ expected)
  | .invalidValue place found expected =>
    some (place.shown ++ "invalid value: " ++ found ++ ", expected " ++ expected)

namespace Settings

/-- Refuses a part that is not of the expected type. -/
def refuse {α : Type} (place : SettingsPlace) (expected : String) : Part → Except SettingsError α
  | .scalar tag style text =>
    match scalarValue tag style text with
    | .ok v => .error (.invalidType place v.shown expected)
    | .error wanted => .error (.invalidValue place ("string " ++ quoted text) wanted)
  | .sequenceStart => .error (.invalidType place "sequence" expected)
  | .mappingStart => .error (.invalidType place "map" expected)
  | .nothing | .alias _ | .sequenceEnd | .mappingEnd => .error .malformed

/-- The part that the first one stands for: itself, or the target of an alias. -/
def target (d : Document) : Part → Option Part
  | .alias n => (d.partsAt n).head?
  | p => some p

/-- Reads a text: any scalar as it is written. -/
def readText (d : Document) (place : SettingsPlace) (expected : String) :
    List Part → Except SettingsError (String × List Part)
  | [] => .error .malformed
  | p :: rest =>
    match target d p with
    | some (.scalar _ _ text) => .ok (text, rest)
    | some p => refuse place expected p
    | none => .error .malformed

/-- A scalar may be an integer by its style: it is plain, or it is a literal that is tagged so. -/
def mayBeInt (tag : Option String) (style : ScalarStyle) : Bool :=
  style = .plain || (style = .literal && tag = some (coreTag "int"))

/-- Reads a count. -/
def readCount (d : Document) (place : SettingsPlace) (expected : String) :
    List Part → Except SettingsError (Nat × List Part)
  | [] => .error .malformed
  | p :: rest =>
    match target d p with
    | some (.scalar tag style text) =>
      if mayBeInt tag style then
        match unsignedBelow? (Nat.pow 2 64) text with
        | some n => .ok (n, rest)
        | none => refuse place expected (.scalar tag style text)
      else refuse place expected (.scalar tag style text)
    | some p => refuse place expected p
    | none => .error .malformed

/-- Reads texts up to the end of their sequence. -/
def readElements (d : Document) (name : String) (index : Nat) :
    List Part → Except SettingsError (List String × List Part)
  | .sequenceEnd :: rest => .ok ([], rest)
  | [] => .error .malformed
  | p :: rest => do
    let (text, _) ← readText d (.element name index) "a string" [p]
    let (texts, rest) ← readElements d name (index + 1) rest
    return (text :: texts, rest)

/-- Reads a list of texts. A plain scalar of no characters is an empty list. -/
def readTexts (d : Document) (name : String) :
    List Part → Except SettingsError (List String × List Part)
  | [] => .error .malformed
  | p :: rest =>
    match p with
    | .alias n =>
      match d.partsAt n with
      | .sequenceStart :: elements => do
        let (texts, _) ← readElements d name 0 elements
        return (texts, rest)
      | p :: _ => scalar p rest
      | [] => .error .malformed
    | .sequenceStart => readElements d name 0 rest
    | p => scalar p rest
where
  /-- What is no sequence. -/
  scalar (p : Part) (rest : List Part) : Except SettingsError (List String × List Part) :=
    match p with
    | .scalar tag .plain text =>
      if text.isEmpty then .ok ([], rest)
      else refuse (.key name) "a sequence" (.scalar tag .plain text)
    | p => refuse (.key name) "a sequence" p

/-! ### Fields -/

/-- A key of the settings. -/
inductive Key where
  | docPatterns
  | excludePatterns
  | codeExtensions
  | uploadConcurrency
  | timeoutSecs
  | knowledgeType
  | tags
  deriving DecidableEq, Repr

namespace Key

/-- All keys. -/
def all : List Key :=
  [.docPatterns, .excludePatterns, .codeExtensions, .uploadConcurrency, .timeoutSecs,
    .knowledgeType, .tags]

/-- A key as it is written. -/
def name : Key → String
  | .docPatterns => "doc_patterns"
  | .excludePatterns => "exclude_patterns"
  | .codeExtensions => "code_extensions"
  | .uploadConcurrency => "upload_concurrency"
  | .timeoutSecs => "timeout_secs"
  | .knowledgeType => "knowledge_type"
  | .tags => "tags"

/-- The key that is written so. -/
def ofName? (s : String) : Option Key :=
  all.find? (·.name = s)

end Key

/-- Reads the value of a key into settings. `label` is how messages name the key, which is not its
name where the key stands as an alias. -/
def readValue (d : Document) (key : Key) (label : String) (s : Settings) (parts : List Part) :
    Except SettingsError (Settings × List Part) := do
  match key with
  | .docPatterns =>
    let (x, rest) ← readTexts d label parts
    return ({ s with docPatterns := x }, rest)
  | .excludePatterns =>
    let (x, rest) ← readTexts d label parts
    return ({ s with excludePatterns := x }, rest)
  | .codeExtensions =>
    let (x, rest) ← readTexts d label parts
    return ({ s with codeExtensions := x }, rest)
  | .uploadConcurrency =>
    let (x, rest) ← readCount d (.key label) "usize" parts
    return ({ s with uploadConcurrency := x }, rest)
  | .timeoutSecs =>
    let (x, rest) ← readCount d (.key label) "u64" parts
    return ({ s with timeoutSecs := x }, rest)
  | .knowledgeType =>
    let (x, rest) ← readText d (.key label) "a string" parts
    return ({ s with knowledgeType := x }, rest)
  | .tags =>
    let (x, rest) ← readTexts d label parts
    return ({ s with tags := x }, rest)

/-- How messages name a key. -/
def keyLabel (key : Part) (name : String) : String :=
  match key with
  | .scalar .. => name
  | _ => "?"

/-- Reads the entries of the mapping into settings, at most `steps` of them. `seen` are the keys
that have been set. -/
def readEntries (d : Document) : Nat → List Key → Settings → List Part →
    Except SettingsError Settings
  | _, _, s, .mappingEnd :: _ => .ok s
  | 0, _, _, _ => .error .malformed
  | _, _, _, [] => .error .malformed
  | steps + 1, seen, s, part :: parts => do
    let (name, rest) ← readText d .top "field identifier" (part :: parts)
    match Key.ofName? name with
    | none => throw (.unknownField name (Key.all.map Key.name))
    | some key =>
      if seen.contains key then throw (.duplicateField name)
      let (s, rest) ← readValue d key (keyLabel part name) s rest
      readEntries d steps (key :: seen) s rest

/-- Reads settings from a document. No document and an empty plain scalar give the defaults. -/
def ofDocument (d : Document) : Except SettingsError Settings :=
  match d.parts with
  | .mappingStart :: rest => readEntries d rest.length [] {} rest
  | .nothing :: _ => .ok {}
  | .scalar tag .plain text :: _ =>
    if text.isEmpty then .ok {}
    else refuse .top "struct Settings" (.scalar tag .plain text)
  | p :: _ => refuse .top "struct Settings" p
  | [] => .error .malformed

/-- Reads the settings that a text spells. -/
def ofYaml (text : String) : Except SettingsError Settings := do
  let (d, alone) := firstDocument text
  let s ← ofDocument d
  if d.whole && alone then return s else throw .malformed

end Settings

end KnowledgeImport
