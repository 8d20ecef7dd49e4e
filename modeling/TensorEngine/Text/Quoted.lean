import TensorEngine.Text.Printable

/-!
Contract: the quoted form of a text inside a message.

Owns: `quoted`, which encloses a text in double quotes and escapes quotes, backslashes, the common
control characters by name, and every other character that is not shown by its code point.

Does not own: the text of JSON documents, which escapes by its own rules.
-/

namespace TensorEngine.Text

/-- The hexadecimal digits of a code point, lower case, without leading zeros. -/
def codePointDigits (character : Char) : String :=
  String.ofList (Nat.toDigits 16 character.toNat)

def quotedCharacter (character : Char) : String :=
  if character = '\x00' then "\\0"
  else if character = '\t' then "\\t"
  else if character = '\r' then "\\r"
  else if character = '\n' then "\\n"
  else if character = '"' then "\\\""
  else if character = '\\' then "\\\\"
  else if isShown character then character.toString
  else "\\u\x7b" ++ codePointDigits character ++ "\x7d"

def quoted (text : String) : String :=
  "\"" ++ String.join (text.toList.map quotedCharacter) ++ "\""

end TensorEngine.Text
