import KnowledgeImport.Text.Utf8
import KnowledgeImport.Text.Ascii

/-!
# Percent codes

In the parts of a URL an octet may be written as a percent sign and two hexadecimal digits. Each
part has its own set of characters that are always written so.
-/

namespace KnowledgeImport.Url

open Text

/-- A hexadecimal digit, letters in upper case. -/
def upperDigit (n : Nat) : Char :=
  (Nat.digitChar n).toUpper

/-- The percent code of an octet. -/
def percentCode (b : Octet) : List Char :=
  ['%', upperDigit (b.toNat / 16), upperDigit (b.toNat % 16)]

/-- The text with percent codes for all characters that are not ASCII, and for those in the set. -/
def percentEncode (set : Char → Bool) (cs : List Char) : List Char :=
  cs.flatMap fun c =>
    if set c || c.toNat ≥ 0x80 then (String.utf8EncodeChar c).flatMap percentCode else [c]

/-- The octets that a text with percent codes stands for. A percent sign that starts no code stands
for itself. -/
def percentDecode : List Char → List Octet
  | '%' :: a :: b :: cs =>
    match hexValue? a, hexValue? b with
    | some m, some n => UInt8.ofNat (m * 16 + n) :: percentDecode cs
    | _, _ => 0x25 :: percentDecode (a :: b :: cs)
  | c :: cs => String.utf8EncodeChar c ++ percentDecode cs
  | [] => []

/-! ### Sets -/

/-- The ASCII controls. -/
def controlSet (c : Char) : Bool :=
  c.toNat < 0x20 || c.toNat == 0x7F

def fragmentSet (c : Char) : Bool :=
  controlSet c || c == ' ' || c == '"' || c == '<' || c == '>' || c == Char.ofNat 0x60

def querySet (c : Char) : Bool :=
  controlSet c || " \"#<>".toList.contains c

/-- In URLs of the schemes that browsers know, a single quote is written as a code too. -/
def specialQuerySet (c : Char) : Bool :=
  querySet c || c == '\''

def pathSet (c : Char) : Bool :=
  fragmentSet c || "#?\x7b\x7d".toList.contains c

def userSet (c : Char) : Bool :=
  pathSet c || "/:;=@[\\]^|".toList.contains c

end KnowledgeImport.Url
