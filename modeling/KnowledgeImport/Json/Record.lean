import KnowledgeImport.Json.Draft
import KnowledgeImport.Json.Number
import KnowledgeImport.Text.Quoted

/-!
# Reading records

Typed readings of a draft. A record is read from an object, by the names of its fields, or from an
array, by their order. Of several faults the one is reported that a reader from left to right meets
first.
-/

namespace KnowledgeImport.Json

open Text

/-- Why a text is not what was asked for. -/
inductive ReadError where
  | fault (f : Fault)
  | missingField (name : String)
  | duplicateField (name : String)
  | unknownVariant (name : String) (known : List String)
  /-- Something of another type. -/
  | invalidType (found expected : String)
  /-- The right type, but out of bounds. -/
  | invalidValue (found expected : String)
  | invalidLength (length : Nat) (expected : String)
  deriving DecidableEq, Repr

/-- The words for an error; faults of the text itself have none. -/
def ReadError.message? : ReadError → Option String
  | .fault _ => none
  | .missingField name => some ("missing field `" ++ name ++ "`")
  | .duplicateField name => some ("duplicate field `" ++ name ++ "`")
  | .unknownVariant name known =>
    some ("unknown variant `" ++ name ++ "`, expected one of "
      ++ ", ".intercalate (known.map fun k => "`" ++ k ++ "`"))
  | .invalidType found expected => some ("invalid type: " ++ found ++ ", expected " ++ expected)
  | .invalidValue found expected => some ("invalid value: " ++ found ++ ", expected " ++ expected)
  | .invalidLength length expected =>
    some ("invalid length " ++ toString length ++ ", expected " ++ expected)

/-- A reading of a draft. -/
abbrev Reading (α : Type) := Draft → Except ReadError α

namespace Number

/-- A number as what it is, for messages. -/
def shown : Number → String
  | .float x => "floating point `" ++ x.compact ++ "`"
  | n => "integer `" ++ n.text ++ "`"

end Number

namespace Draft

/-- Refuses a draft that is not of the expected type. A fault in a single token comes first. -/
def refuse {α : Type} (expected : String) (d : Draft) : Except ReadError α :=
  let wrong (found : String) := .error (.invalidType found expected)
  match d with
  | .null => wrong "null"
  | .bool b => wrong ("boolean `" ++ toString b ++ "`")
  | .numeral n =>
    match n.number? with
    | some n => wrong n.shown
    | none => .error (.fault .malformed)
  | .text (.text s) => wrong ("string " ++ quoted s)
  | .text (.faulty f) => .error (.fault f)
  | .array .. => wrong "sequence"
  | .object .. => wrong "map"
  | .openText strict _ => .error (.fault strict)
  | .broken f => .error (.fault f)

/-- A text. -/
def readText (expected : String := "a string") : Reading String
  | .text (.text s) => .ok s
  | d => d.refuse expected

/-- A truth value. -/
def readBool : Reading Bool
  | .bool b => .ok b
  | d => d.refuse "a boolean"

/-- A count. -/
def readCount : Reading Nat
  | .numeral n =>
    match n.number? with
    | some (.natural k) => .ok k
    | some (.negative k) =>
      .error (.invalidValue (Number.negative k).shown "usize")
    | _ => (Draft.numeral n).refuse "usize"
  | d => d.refuse "usize"

/-- Nothing. -/
def readNull : Reading Unit
  | .null => .ok ()
  | d => d.refuse "unit"

/-- Reads elements in order, and then the end. -/
def readElements {α : Type} (read : Reading α) (ending : Option Fault) :
    List Draft → Except ReadError (List α)
  | [] =>
    match ending with
    | some f => .error (.fault f)
    | none => .ok []
  | d :: ds => do
    let a ← read d
    return a :: (← readElements read ending ds)

/-- A list. -/
def readList {α : Type} (read : Reading α) : Reading (List α)
  | .array elements ending => readElements read ending elements
  | d => d.refuse "a sequence"

/-- A key of an object. -/
def readKey : Reading String
  | .text (.text s) => .ok s
  | .text (.faulty f) => .error (.fault f)
  | .openText strict _ => .error (.fault strict)
  | .broken f => .error (.fault f)
  | _ => .error (.fault .malformed)

/-- One of several names: as a text, or as the only key of an object, with nothing as its value. -/
def readVariant {α : Type} (known : List String) (ofName? : String → Option α) : Reading α
  | .text (.text s) => named s
  | .object ((key, d) :: members) ending => do
    let name ← readText "variant identifier" key
    let a ← named name
    readNull d
    match members, ending with
    | [], none => return a
    | [], some f => throw (.fault f)
    | _ :: _, _ => throw (.fault .malformed)
  | .text (.faulty f) => .error (.fault f)
  | .openText strict _ => .error (.fault strict)
  | .broken f => .error (.fault f)
  | _ => .error (.fault .malformed)
where
  /-- The variant of a name. -/
  named (s : String) : Except ReadError α :=
    match ofName? s with
    | some a => .ok a
    | none => .error (.unknownVariant s known)

end Draft

/-! ### Records -/

/-- A field of a record: its name, whether it may be absent, and how its value is put into the
record. -/
structure RecordField (ρ : Type) where
  name : String
  required : Bool := true
  set : Draft → ρ → Except ReadError ρ

namespace RecordField

variable {ρ : Type}

/-- A field from a reading and a way to store what was read. -/
def of {α : Type} (name : String) (read : Reading α) (store : ρ → α → ρ)
    (required : Bool := true) : RecordField ρ where
  name := name
  required := required
  set d r := (read d).map (store r)

/-- Reads the members of an object into a record. `seen` are the names of the fields that have
been set. Members that are no field are skipped. -/
def readMembers (fields : List (RecordField ρ)) :
    List String → ρ → List (Draft × Draft) → Except ReadError (List String × ρ)
  | seen, r, [] => .ok (seen, r)
  | seen, r, (key, d) :: members => do
    let name ← key.readKey
    match fields.find? (·.name = name) with
    | none =>
      match d.looseFault? with
      | some f => throw (.fault f)
      | none => readMembers fields seen r members
    | some field =>
      if seen.contains name then throw (.duplicateField name)
      let r ← field.set d r
      readMembers fields (name :: seen) r members

/-- Reads the elements of an array into a record. `expected` says what the record is. -/
def readInOrder (fields : List (RecordField ρ)) (expected : String) (read : Nat)
    (ending : Option Fault) : ρ → List (RecordField ρ) → List Draft → Except ReadError ρ
  | r, [], [] =>
    match ending with
    | some f => .error (.fault f)
    | none => .ok r
  | _, [], _ :: _ => .error (.fault .malformed)
  | r, field :: rest, [] =>
    match ending with
    | some f => .error (.fault f)
    | none =>
      if field.required then
        .error (.invalidLength read
          (expected ++ " with " ++ toString fields.length ++ " elements"))
      else readInOrder fields expected read ending r rest []
  | r, field :: rest, d :: ds => do
    let r ← field.set d r
    readInOrder fields expected (read + 1) ending r rest ds

/-- Reads a record; `initial` has the values of fields that are absent. -/
def readRecord (expected : String) (fields : List (RecordField ρ)) (initial : ρ) : Reading ρ
  | .object members ending => do
    let (seen, r) ← readMembers fields [] initial members
    if let some f := ending then throw (.fault f)
    match fields.find? fun field => field.required && !seen.contains field.name with
    | some field => throw (.missingField field.name)
    | none => return r
  | .array elements ending => readInOrder fields expected 0 ending initial fields elements
  | d => d.refuse expected

end RecordField

/-- Reads the whole text. -/
def readString {α : Type} (read : Reading α) (s : String) : Except ReadError α := do
  let (d, rest) := draft s
  let a ← read d
  if rest.isEmpty then return a else throw (.fault .malformed)

end KnowledgeImport.Json
