import KnowledgeImport.Text.Utf8
import KnowledgeImport.Text.Shown
import KnowledgeImport.Url.Punycode

/-!
# Domain names

The form in ASCII of a domain name: capital letters in lower case, variants of a character as the
character, invisible ones left out, and each label with further characters in Punycode.

The tables have the common scripts and are not those of Unicode in full. Left out are the characters
that become several (ligatures, fractions, the capital sharp s), the variants other than wide forms
of ASCII (circled and mathematical letters, narrow Katakana), capitals outside of the blocks given,
and marks of other scripts; letters are not composed with the marks behind them, and the rules for
joiners and for labels from right to left are not applied.
-/

namespace KnowledgeImport.Url

open Text

namespace DomainName

/-! ### Single characters -/

/-- Characters that are left out: soft hyphens, joiners without effect, variation selectors. -/
def ignoredRanges : List CodeRange :=
  [(0xAD, 0xAD), (0x34F, 0x34F), (0x180B, 0x180D), (0x180F, 0x180F), (0x200B, 0x200B),
    (0x2060, 0x2060), (0x2064, 0x2064), (0xFE00, 0xFE0F), (0xFEFF, 0xFEFF), (0xE0100, 0xE01EF)]

/-- Marks that attach to the character before them. -/
def markRanges : List CodeRange :=
  [(0x300, 0x36F), (0x483, 0x487), (0x591, 0x5BD), (0x5BF, 0x5BF), (0x5C1, 0x5C2), (0x5C4, 0x5C5),
    (0x5C7, 0x5C7), (0x610, 0x61A), (0x64B, 0x65F), (0x670, 0x670), (0x6D6, 0x6DC),
    (0x6DF, 0x6E4), (0x6E7, 0x6E8), (0x6EA, 0x6ED), (0x900, 0x902), (0x93A, 0x93A),
    (0x93C, 0x93C), (0x941, 0x948), (0x94D, 0x94D), (0x951, 0x957), (0xE31, 0xE31),
    (0xE34, 0xE3A), (0xE47, 0xE4E), (0x3099, 0x309A), (0xFE20, 0xFE2F)]

/-- Blocks in which capital and small letters alternate, with the parity of the capitals. -/
def alternating : List (CodeRange × Nat) :=
  [((0x100, 0x137), 0), ((0x139, 0x148), 1), ((0x14A, 0x177), 0), ((0x179, 0x17E), 1),
    ((0x1CD, 0x1DC), 1), ((0x1DE, 0x1EF), 0), ((0x1F8, 0x21F), 0), ((0x222, 0x233), 0),
    ((0x370, 0x373), 0), ((0x3D8, 0x3EF), 0), ((0x460, 0x481), 0), ((0x48A, 0x4BF), 0),
    ((0x4C1, 0x4CE), 1), ((0x4D0, 0x52F), 0), ((0x1E00, 0x1E95), 0), ((0x1EA0, 0x1EFF), 0)]

/-- Blocks of capital letters, with the distance to their small letters. -/
def shifted : List (CodeRange × Nat) :=
  [((0x41, 0x5A), 32), ((0xC0, 0xD6), 32), ((0xD8, 0xDE), 32), ((0x388, 0x38A), 37),
    ((0x391, 0x3A1), 32), ((0x3A3, 0x3AB), 32), ((0x400, 0x40F), 80), ((0x410, 0x42F), 32),
    ((0x531, 0x556), 48), ((0x10400, 0x10427), 40)]

/-- The code point of the small letter. -/
def lowerCode (n : Nat) : Nat :=
  match shifted.find? (inRanges [·.1] n) with
  | some (_, distance) => n + distance
  | none =>
    match alternating.find? (inRanges [·.1] n) with
    | some (_, parity) => if n % 2 = parity then n + 1 else n
    | none => if n = 0x178 then 0xFF else n

/-- The code point without the wide form that some characters have, and with the plain forms of
full stops and spaces. -/
def plainCode (n : Nat) : Nat :=
  if 0xFF01 ≤ n && n ≤ 0xFF5E then n - 0xFEE0
  else if n = 0x3002 ∨ n = 0xFF61 then 0x2E
  else if inRanges [(0xA0, 0xA0), (0x2000, 0x200A), (0x202F, 0x202F), (0x205F, 0x205F),
    (0x3000, 0x3000)] n then 0x20
  else n

/-- What a character becomes: nothing, or one character. -/
def mapChar (c : Char) : List Char :=
  if inRanges ignoredRanges c.toNat then [] else [Char.ofNat (lowerCode (plainCode c.toNat))]

/-- An ASCII character that no domain name has. -/
def isDenied (c : Char) : Bool :=
  c.toNat ≤ 0x20 || c.toNat == 0x7F || "%#/:<>?@[\\]^|".toList.contains c

/-- A character that may stand in a label once it is mapped. -/
def isValid (c : Char) : Bool :=
  if c.toNat < 0x80 then !isDenied c else isShown c || inRanges markRanges c.toNat

/-! ### Labels -/

/-- A label of mapped characters is well formed: all of them may stand in it, and no mark stands
first. -/
def isWellFormed (label : List Char) : Bool :=
  label.all isValid && !(label.head?.any fun c => inRanges markRanges c.toNat)

/-- How labels in Punycode start. -/
def punycodeMark : List Char := ['x', 'n', '-', '-']

/-- The label in ASCII. One that is in Punycode already has to spell a label that needs it. -/
def labelToAscii? (label : List Char) : Option (List Char) :=
  if !isWellFormed label then none
  else if label.any (·.toNat ≥ 0x80) then some (punycodeMark ++ Punycode.encode label)
  else if punycodeMark.isPrefixOf label then
    match Punycode.decode? (label.drop punycodeMark.length) with
    | none => none
    | some spelled =>
      if spelled.any (·.toNat ≥ 0x80) && isWellFormed spelled
          && spelled.flatMap mapChar = spelled then some label
      else none
  else some label

end DomainName

/-- The domain name of octets in ASCII, or `none` if they are none. -/
def domainToAscii? (octets : List Octet) : Option (List Char) := do
  let s ← decode? octets
  let labels := (s.toList.flatMap DomainName.mapChar).splitOn '.'
  let labels ← labels.mapM DomainName.labelToAscii?
  return ['.'].intercalate labels

end KnowledgeImport.Url
