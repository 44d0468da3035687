import NativeBuild.Decimal.Steps
import NativeBuild.Text.Digits

namespace NativeBuild.Message

def maxSignificand : Nat := Nat.pow 2 64 - 1

def gather (n : Nat) : List Char → Nat × Nat
  | [] => (n, 0)
  | c :: rest =>
    let next := n * 10 + Text.digitValue c
    if next ≤ maxSignificand then gather next rest else (n, rest.length + 1)

/-- A decimal as its digits are gathered: a digit that does not fit counts for its place in front of
the point, and for nothing after it. -/
def gathered (negative : Bool) (whole fraction : List Char) (exponent : Int) : Decimal :=
  let (n, raised) := gather 0 whole
  let (n, dropped) := gather n fraction
  ⟨negative, n, raised - ((fraction.length - dropped : Nat) : Int) + exponent⟩

def isPlain (d : Decimal) : Bool := -5 < d.point && d.point ≤ 16

/-- The text of a double that was worked out in steps, if there is one so large. Of two texts that
are equally near the even one is taken. -/
def doubleText? (d : Decimal) : Option String :=
  let sign := if d.negative then "-" else ""
  match d.stepwise with
  | .infinite => none
  | .finite 0 _ => some (sign ++ "0.0")
  | .finite m e =>
    let s := Decimal.shortest .toEven m e
    some (sign ++ if isPlain s then s.plainText else s.scientificText)

def integer? (d : Decimal) : Option Int :=
  if d.exponent ≠ 0 || (d.negative && (d.coefficient = 0 || Nat.pow 2 63 < d.coefficient)) then none
  else some (if d.negative then -(d.coefficient : Int) else d.coefficient)

end NativeBuild.Message
