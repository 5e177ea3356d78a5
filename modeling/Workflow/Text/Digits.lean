/-!
# Workflow.Text.Digits — runs of decimal digits

`digitsValue` reads a run of digits, `padded` writes a number with zeros in front.
-/

namespace Workflow.Text

/-- The number that a run of decimal digits writes. -/
def digitsValue (ds : List Char) : Nat := ds.foldl (fun n d => 10 * n + (d.toNat - '0'.toNat)) 0

/-- `n` with zeros in front up to `width` digits. -/
def padded (width n : Nat) : String :=
  let digits := (toString n).toList
  String.ofList (List.replicate (width - digits.length) '0' ++ digits)

end Workflow.Text
