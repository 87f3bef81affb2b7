import KnowledgeImport.Text.Shown
import KnowledgeImport.Text.Ascii

/-!
# Quoted text

The form in which messages quote a text: between double quotes, with short escapes for the quote,
the backslash and the common controls, and the code point of every other character that is not
shown as itself.
-/

namespace KnowledgeImport.Text

namespace Quoted

/-- One character inside quotes; the quote that delimits the text is escaped, the other kind of
quote is not. -/
def escapeChar (delimiter : Char) (c : Char) : List Char :=
  if c = '\x00' then ['\\', '0']
  else if c = '\t' then ['\\', 't']
  else if c = '\r' then ['\\', 'r']
  else if c = '\n' then ['\\', 'n']
  else if c = '\\' then ['\\', '\\']
  else if c = delimiter then ['\\', c]
  else if isShown c then [c]
  else ['\\', 'u', '\x7b'] ++ hexDigits c.toNat ++ ['\x7d']

end Quoted

/-- The text in double quotes. -/
def quoted (s : String) : String :=
  String.ofList ('"' :: s.toList.flatMap (Quoted.escapeChar '"') ++ ['"'])

/-- The character in single quotes. -/
def quotedChar (c : Char) : String :=
  String.ofList ('\'' :: Quoted.escapeChar '\'' c ++ ['\''])

end KnowledgeImport.Text
