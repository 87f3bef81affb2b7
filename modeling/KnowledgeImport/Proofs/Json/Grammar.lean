import KnowledgeImport.Json.Value
import Mathlib.Data.List.Basic

/-!
# The grammar of JSON

Which characters spell which value, said without a reader: literals, numbers, texts with their
escapes, arrays and objects with blanks around their parts (`Value.Spelled`), and a whole text with
blanks around its value (`Value.SpelledBy`).  A value may be spelled in many ways.  What a number as
written stands for is left to `Numeral.number?`, which has a bound for large ones.
-/

namespace KnowledgeImport.Json

open Text

/-! ### Blanks -/

/-- A character that may stand between tokens. -/
def IsBlank (c : Char) : Prop := c = ' ' ∨ c = '\n' ∨ c = '\t' ∨ c = '\r'

/-- There is nothing but blanks. -/
def AllBlank (cs : List Char) : Prop := ∀ c ∈ cs, IsBlank c

/-! ### Numbers -/

/-- Decimal digits, at least one. -/
def IsDigits (cs : List Char) : Prop := cs ≠ [] ∧ ∀ c ∈ cs, c.isDigit = true

/-- The digits before the point: no zero stands in front of others. -/
def IsWhole (cs : List Char) : Prop := IsDigits cs ∧ (cs.head? = some '0' → cs = ['0'])

/-- The digits after the point, and how they are spelled with it. -/
inductive FractionSpelled : List Char → List Char → Prop
  | absent : FractionSpelled [] []
  | present {ds : List Char} (h : IsDigits ds) : FractionSpelled ds ('.' :: ds)

/-- The sign of an exponent (`true` for minus), and how it is spelled. -/
inductive SignSpelled : Bool → List Char → Prop
  | none : SignSpelled false []
  | plus : SignSpelled false ['+']
  | minus : SignSpelled true ['-']

/-- An exponent, and how it is spelled. -/
inductive ExponentSpelled : Option (Bool × List Char) → List Char → Prop
  | absent : ExponentSpelled none []
  | present {mark : Char} {minus : Bool} {sign ds : List Char} (hmark : mark = 'e' ∨ mark = 'E')
      (hsign : SignSpelled minus sign) (h : IsDigits ds) :
      ExponentSpelled (some (minus, ds)) (mark :: (sign ++ ds))

namespace Numeral

/-- The sign in front of a number. -/
def signChars (n : Numeral) : List Char := if n.negative then ['-'] else []

/-- The characters spell the number. -/
def Spelled (n : Numeral) (cs : List Char) : Prop :=
  IsWhole n.whole ∧ ∃ fraction exponent, FractionSpelled n.fraction fraction ∧
    ExponentSpelled n.exponent exponent ∧ cs = n.signChars ++ n.whole ++ fraction ++ exponent

end Numeral

/-! ### Texts -/

/-- A letter after a backslash, and the character that the two stand for. -/
inductive ShortEscape : Char → Char → Prop
  | quote : ShortEscape '"' '"'
  | backslash : ShortEscape '\\' '\\'
  | slash : ShortEscape '/' '/'
  | backspace : ShortEscape 'b' '\x08'
  | formFeed : ShortEscape 'f' '\x0c'
  | lineFeed : ShortEscape 'n' '\n'
  | carriageReturn : ShortEscape 'r' '\r'
  | tab : ShortEscape 't' '\t'

/-- A number below 65536, and four hexadecimal digits for it. -/
inductive UnitSpelled : Nat → List Char → Prop
  | mk {a b c d : Char} {p q r s : Nat} (ha : hexValue? a = some p) (hb : hexValue? b = some q)
      (hc : hexValue? c = some r) (hd : hexValue? d = some s) :
      UnitSpelled (((p * 16 + q) * 16 + r) * 16 + s) [a, b, c, d]

/-- The characters of a text, and how they are spelled between quotes. A unit that is half of a
surrogate pair has to be followed by the other half. -/
inductive Quoted : List Char → List Char → Prop
  | nil : Quoted [] []
  | plain {c : Char} {m w : List Char} (hcontrol : 0x20 ≤ c.toNat) (hquote : c ≠ '"')
      (hbackslash : c ≠ '\\') (h : Quoted m w) : Quoted (c :: m) (c :: w)
  | short {letter c : Char} {m w : List Char} (hc : ShortEscape letter c) (h : Quoted m w) :
      Quoted (c :: m) ('\\' :: letter :: w)
  | unit {n : Nat} {ds m w : List Char} (hds : UnitSpelled n ds) (hn : n < 0xD800 ∨ 0xE000 ≤ n)
      (h : Quoted m w) : Quoted (Char.ofNat n :: m) ('\\' :: 'u' :: (ds ++ w))
  | pair {i k : Nat} {ds es m w : List Char} (hds : UnitSpelled i ds) (hes : UnitSpelled k es)
      (hi : 0xD800 ≤ i ∧ i < 0xDC00) (hk : 0xDC00 ≤ k ∧ k < 0xE000) (h : Quoted m w) :
      Quoted (Char.ofNat (0x10000 + (i - 0xD800) * 1024 + (k - 0xDC00)) :: m)
        ('\\' :: 'u' :: (ds ++ '\\' :: 'u' :: (es ++ w)))

/-- The characters, quotes included, spell the text. -/
def TextSpelled (s : String) (cs : List Char) : Prop :=
  ∃ w, Quoted s.toList w ∧ cs = '"' :: (w ++ ['"'])

/-! ### Values -/

/-- The characters with blanks before and after them. -/
inductive Padded : List Char → List Char → Prop
  | mk {before cs after : List Char} (hbefore : AllBlank before) (hafter : AllBlank after) :
      Padded cs (before ++ cs ++ after)

/-- Parts between brackets, with commas between them and blanks around each. -/
inductive Enclosed (opening closing : Char) : List (List Char) → List Char → Prop
  | empty {blanks : List Char} (h : AllBlank blanks) :
      Enclosed opening closing [] (opening :: (blanks ++ [closing]))
  | parts {ps padded : List (List Char)} (hne : ps ≠ []) (h : List.Forall₂ Padded ps padded) :
      Enclosed opening closing ps (opening :: ([','].intercalate padded ++ [closing]))

namespace Value

mutual

/-- The characters spell the value. -/
def Spelled : Value → List Char → Prop
  | .null, cs => cs = ['n', 'u', 'l', 'l']
  | .bool b, cs => cs = if b then ['t', 'r', 'u', 'e'] else ['f', 'a', 'l', 's', 'e']
  | .number x, cs => ∃ n : Numeral, n.Spelled cs ∧ n.number? = some x
  | .text s, cs => TextSpelled s cs
  | .array elements, cs => ∃ parts, ElementsSpelled elements parts ∧ Enclosed '[' ']' parts cs
  | .object members, cs =>
    ∃ parts, MembersSpelled members parts ∧ Enclosed '\x7b' '\x7d' parts cs

/-- The parts spell the elements, one each. -/
def ElementsSpelled : List Value → List (List Char) → Prop
  | [], parts => parts = []
  | v :: vs, parts => ∃ cs rest, v.Spelled cs ∧ ElementsSpelled vs rest ∧ parts = cs :: rest

/-- The parts spell the members, one each. -/
def MembersSpelled : List (String × Value) → List (List Char) → Prop
  | [], parts => parts = []
  | m :: ms, parts => ∃ cs rest, MemberSpelled m cs ∧ MembersSpelled ms rest ∧ parts = cs :: rest

/-- The characters spell the key of the member, a colon, and its value. -/
def MemberSpelled : String × Value → List Char → Prop
  | (key, v), cs => ∃ k before after w, TextSpelled key k ∧ AllBlank before ∧ AllBlank after ∧
    v.Spelled w ∧ cs = k ++ before ++ ':' :: (after ++ w)

end

/-- The whole text spells the value. -/
def SpelledBy (v : Value) (s : String) : Prop :=
  ∃ cs, v.Spelled cs ∧ Padded cs s.toList

mutual

/-- How deep arrays and objects are nested in the value. -/
def depth : Value → Nat
  | .array elements => elementsDepth elements + 1
  | .object members => membersDepth members + 1
  | .null | .bool _ | .number _ | .text _ => 0

/-- How deep they are nested in the deepest of the elements. -/
def elementsDepth : List Value → Nat
  | [] => 0
  | v :: vs => max v.depth (elementsDepth vs)

/-- How deep they are nested in the deepest of the members. -/
def membersDepth : List (String × Value) → Nat
  | [] => 0
  | m :: ms => max (memberDepth m) (membersDepth ms)

/-- How deep they are nested in the value of the member. -/
def memberDepth : String × Value → Nat
  | (_, v) => v.depth

end

end Value

end KnowledgeImport.Json
