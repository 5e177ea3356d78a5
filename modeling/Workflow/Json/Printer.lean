import Workflow.Json.Basic
import Workflow.Number.Decimal

/-!
# Workflow.Json.Printer — writing JSON text

A double always has a point or an exponent, so that it reads back as a double.  Quotes, backslashes
and control characters are escaped.
-/

namespace Workflow.Json

/-- A control character as four hexadecimal digits. -/
def unitEscape (c : Char) : String :=
  let digits := Nat.toDigits 16 c.toNat
  "\\u" ++ String.ofList (List.replicate (4 - digits.length) '0' ++ digits)

/-- One character inside a string. -/
def printChar (c : Char) : String :=
  if c = '"' then "\\\""
  else if c = '\\' then "\\\\"
  else if c.toNat < 0x20 then unitEscape c
  else c.toString

def printString (s : String) : String :=
  "\"" ++ s.toList.foldl (fun text c => text ++ printChar c) "" ++ "\""

/-- The fewest digits of a double that read back: positional from `10 ^ -5` to `10 ^ 16` and with a
point, scientific elsewhere. -/
def printDouble (x : Double) : String :=
  let sign := if x.isNegative then "-" else ""
  if x.isZero then sign ++ "0.0"
  else
    let d := x.shortest
    let digits := toString d.digits
    let point := digits.length + d.exponent
    if -5 < point ∧ point ≤ 16 then
      sign ++ if 0 ≤ d.exponent then d.positional ++ ".0" else d.positional
    else
      let tail := digits.toList.drop 1
      let fraction := if tail.isEmpty then "" else "." ++ String.ofList tail
      sign ++ String.ofList (digits.toList.take 1) ++ fraction ++ "e" ++ toString (point - 1)

mutual

/-- The text of a value without blanks. -/
def print : Json → String
  | .null => "null"
  | .bool b => if b then "true" else "false"
  | .integer n => toString n
  | .double x => printDouble x
  | .string s => printString s
  | .array items => "[" ++ printItems items ++ "]"
  | .object members => "\x7b" ++ printMembers members ++ "\x7d"
  | .unreadable => "null"

def printItems : List Json → String
  | [] => ""
  | [item] => item.print
  | item :: rest => item.print ++ "," ++ printItems rest

def printMembers : List (String × Json) → String
  | [] => ""
  | [(key, value)] => printString key ++ ":" ++ value.print
  | (key, value) :: rest => printString key ++ ":" ++ value.print ++ "," ++ printMembers rest

end

end Workflow.Json
