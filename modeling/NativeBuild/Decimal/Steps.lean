import NativeBuild.Decimal

namespace NativeBuild

namespace Double

def isZero : Double → Bool
  | .finite m _ => m = 0
  | .infinite => false

def mul : Double → Double → Double
  | .finite m e, .finite n f =>
    let (num, den) := scaled (m * n) 1 (e + f)
    nearest num den
  | _, _ => .infinite

def div : Double → Double → Double
  | .finite m e, .finite n f =>
    let (num, den) := scaled m n (e - f)
    nearest num den
  | .finite .., .infinite => .finite 0 minExponent
  | .infinite, _ => .infinite

def powerOfTen (n : Nat) : Double := nearest (Nat.pow 10 n) 1

def maxPower : Nat := 308

def divPower (d : Double) (n : Nat) : Double :=
  if n ≤ maxPower then d.div (powerOfTen n)
  else if d.isZero then d
  else (d.div (powerOfTen maxPower)).divPower (n - maxPower)
termination_by n
decreasing_by simp only [maxPower] at *; omega

end Double

/-- The magnitude of a decimal, worked out in steps, each of which is rounded. The last digit may
differ from that of the nearest double. -/
def Decimal.stepwise (d : Decimal) : Double :=
  let whole := Double.nearest d.coefficient 1
  if d.coefficient = 0 then whole
  else if d.exponent < 0 then whole.divPower (-d.exponent).toNat
  else if d.exponent.toNat ≤ Double.maxPower then whole.mul (.powerOfTen d.exponent.toNat)
  else .infinite

end NativeBuild
