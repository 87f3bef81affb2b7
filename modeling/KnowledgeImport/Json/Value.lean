import KnowledgeImport.Json.Draft
import KnowledgeImport.Json.Number

/-!
# Values of JSON

Whole JSON values, how they are written, and when a text is one.
-/

namespace KnowledgeImport.Json

open Text

/-- A value. Members are kept as they stand in the text; where a key is repeated, its last member
counts. -/
inductive Value where
  | null
  | bool (b : Bool)
  | number (n : Number)
  | text (s : String)
  | array (elements : List Value)
  | object (members : List (String × Value))
  deriving Repr

namespace Value

/-- The value of a natural number. -/
def nat (n : Nat) : Value :=
  .number (.natural n)

/-- The array of texts. -/
def texts (ss : List String) : Value :=
  .array (ss.map .text)

/-- The value of the last member with the key; other values than objects have no members. -/
def get? (key : String) : Value → Option Value
  | .object members => (members.findRev? (·.1 = key)).map (·.2)
  | _ => none

/-! ### Writing -/

/-- One character inside quotes. -/
def escapeChar (c : Char) : List Char :=
  if c = '"' then ['\\', '"']
  else if c = '\\' then ['\\', '\\']
  else if c = '\x08' then ['\\', 'b']
  else if c = '\x0c' then ['\\', 'f']
  else if c = '\n' then ['\\', 'n']
  else if c = '\r' then ['\\', 'r']
  else if c = '\t' then ['\\', 't']
  else if c.toNat < 0x20 then
    ['\\', 'u', '0', '0', Nat.digitChar (c.toNat / 16), Nat.digitChar (c.toNat % 16)]
  else [c]

/-- A text in quotes. -/
def textChars (s : String) : List Char :=
  '"' :: s.toList.flatMap escapeChar ++ ['"']

/-- How the parts of arrays and objects are set apart. -/
structure Layout where
  /-- What stands before each part and before the closing bracket, at a given depth. -/
  before : Nat → List Char
  /-- What stands between a key and its value. -/
  afterKey : List Char

namespace Layout

/-- Everything on one line, without blanks. -/
def compact : Layout where
  before _ := []
  afterKey := [':']

/-- Every part on a line of its own, two blanks deeper than the brackets around it. -/
def pretty : Layout where
  before depth := '\n' :: List.replicate (2 * depth) ' '
  afterKey := [':', ' ']

/-- Parts between brackets, with commas. -/
def enclose (l : Layout) (depth : Nat) (opening closing : Char) (parts : List (List Char)) :
    List Char :=
  if parts.isEmpty then [opening, closing]
  else
    opening :: [','].intercalate (parts.map (l.before (depth + 1) ++ ·))
      ++ l.before depth ++ [closing]

end Layout

mutual

/-- The text of a value at a depth. -/
def chars (l : Layout) (depth : Nat) : Value → List Char
  | .null => ['n', 'u', 'l', 'l']
  | .bool b => if b then ['t', 'r', 'u', 'e'] else ['f', 'a', 'l', 's', 'e']
  | .number n => n.text.toList
  | .text s => textChars s
  | .array elements => l.enclose depth '[' ']' (elementChars l (depth + 1) elements)
  | .object members => l.enclose depth '\x7b' '\x7d' (memberChars l (depth + 1) members)

/-- The texts of elements. -/
def elementChars (l : Layout) (depth : Nat) : List Value → List (List Char)
  | [] => []
  | v :: vs => chars l depth v :: elementChars l depth vs

/-- The texts of members. -/
def memberChars (l : Layout) (depth : Nat) : List (String × Value) → List (List Char)
  | [] => []
  | m :: ms => oneMemberChars l depth m :: memberChars l depth ms

/-- The text of a member. -/
def oneMemberChars (l : Layout) (depth : Nat) : String × Value → List Char
  | (key, v) => textChars key ++ l.afterKey ++ chars l depth v

end

/-- The text of a value on one line. -/
def compact (v : Value) : String :=
  String.ofList (v.chars .compact 0)

/-- The text of a value with its parts on lines of their own. -/
def pretty (v : Value) : String :=
  String.ofList (v.chars .pretty 0)

/-! ### Reading -/

mutual

/-- The value of a draft without any fault whose arrays and objects are nested at most `depth`
deep. -/
def ofDraft? (depth : Nat) : Draft → Option Value
  | .null => some .null
  | .bool b => some (.bool b)
  | .numeral n => n.number?.map .number
  | .text (.text s) => some (.text s)
  | .array elements none =>
    if depth = 0 then none else (ofDrafts? (depth - 1) elements).map .array
  | .object members none =>
    if depth = 0 then none else (ofMembers? (depth - 1) members).map .object
  | _ => none

/-- The values of elements. -/
def ofDrafts? (depth : Nat) : List Draft → Option (List Value)
  | [] => some []
  | d :: ds => do return (← ofDraft? depth d) :: (← ofDrafts? depth ds)

/-- The values of members. -/
def ofMembers? (depth : Nat) : List (Draft × Draft) → Option (List (String × Value))
  | [] => some []
  | m :: ms => do return (← ofMember? depth m) :: (← ofMembers? depth ms)

/-- The value of a member. -/
def ofMember? (depth : Nat) : Draft × Draft → Option (String × Value)
  | (.text (.text key), d) => do return (key, ← ofDraft? depth d)
  | _ => none

end

/-- How deep the arrays and objects of a text may be nested. -/
def nestingLimit : Nat := 127

/-- The value that the whole text spells, if it is one JSON text. -/
def ofString? (s : String) : Option Value :=
  match draft s with
  | (d, []) => ofDraft? nestingLimit d
  | _ => none

end Value

end KnowledgeImport.Json
