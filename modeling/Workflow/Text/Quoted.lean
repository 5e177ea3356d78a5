import Workflow.Text.CharacterTable

/-!
# Workflow.Text.Quoted — text in quotes, with everything that cannot be shown escaped

Quotes and backslashes take a backslash, line ends, tabs and NUL their letters, and any other
unprintable character, or a grapheme extender at the start, its code point in hexadecimal.
-/

namespace Workflow.Text

/-- The code point of `c` as an escape. -/
def codePointEscape (c : Char) : String :=
  "\\u\x7b" ++ String.ofList (Nat.toDigits 16 c.toNat) ++ "\x7d"

/-- One character inside quotes; `first` tells whether it opens the text. -/
def quoteChar (first : Bool) (c : Char) : String :=
  if c = '"' then "\\\""
  else if c = '\\' then "\\\\"
  else if c = '\n' then "\\n"
  else if c = '\t' then "\\t"
  else if c = '\r' then "\\r"
  else if c = '\x00' then "\\0"
  else if !isPrintable c || (first && isGraphemeExtender c) then codePointEscape c
  else c.toString

/-- The text in quotes. -/
def quoted (s : String) : String :=
  match s.toList with
  | [] => "\"\""
  | c :: rest => "\"" ++ quoteChar true c ++ String.join (rest.map (quoteChar false)) ++ "\""

end Workflow.Text
