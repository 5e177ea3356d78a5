import Workflow.Text.Quoted

/-!
# Workflow.Text.Shown — structured values on one line

How values are shown to an operator: named fields in braces behind the name of their kind, lists in
brackets, an optional value as `Some(..)` or `None`, text in quotes.
-/

namespace Workflow.Text

/-- A value with named fields, each with its shown value. -/
def shownRecord (name : String) (fields : List (String × String)) : String :=
  name ++ " \x7b " ++ ", ".intercalate (fields.map fun f => f.1 ++ ": " ++ f.2) ++ " \x7d"

/-- A value with one unnamed part. -/
def shownTuple (name part : String) : String := name ++ "(" ++ part ++ ")"

def shownOption : Option String → String
  | none => "None"
  | some part => shownTuple "Some" part

def shownList (items : List String) : String := "[" ++ ", ".intercalate items ++ "]"

/-- A table as `{key: value, ..}`. -/
def shownTable (entries : List (String × String)) : String :=
  "\x7b" ++ ", ".intercalate (entries.map fun e => e.1 ++ ": " ++ e.2) ++ "\x7d"

def shownBool (b : Bool) : String := if b then "true" else "false"

end Workflow.Text
