namespace NativeBuild

structure Decimal where
  negative : Bool
  coefficient : Nat
  exponent : Int
  deriving DecidableEq, Inhabited

inductive Double
  | finite (mantissa : Nat) (exponent : Int)
  | infinite
  deriving DecidableEq, Inhabited

inductive Tie
  | toEven
  | up
  deriving DecidableEq, Inhabited

def roundedQuotient (tie : Tie) (num den : Nat) : Nat :=
  let q := num / den
  let r := num % den
  if 2 * r < den then q
  else if den < 2 * r || tie = .up || q % 2 = 1 then q + 1
  else q

namespace Double

def maxMantissa : Nat := Nat.pow 2 53

def minExponent : Int := -1074

def maxExponent : Int := 971

def scaled (num den : Nat) (e : Int) : Nat × Nat :=
  if 0 ≤ e then (num * Nat.pow 2 e.toNat, den) else (num, den * Nat.pow 2 (-e).toNat)

/-- The double nearest to the fraction `num / den`; between two of them, the even one. -/
def nearest (num den : Nat) : Double :=
  if num = 0 then .finite 0 minExponent
  else
    let guess : Int := (num.log2 : Int) - (den.log2 : Int) - 53
    let start := max minExponent guess
    let rounded := fun e : Int => let (n, d) := scaled num den (-e); roundedQuotient .toEven n d
    -- The guess is too small by one at most.
    let e := if rounded start ≤ maxMantissa then start else start + 1
    let m := rounded e
    let (m, e) := if m = maxMantissa then (m / 2, e + 1) else (m, e)
    if maxExponent < e then .infinite else .finite m e

end Double

namespace Decimal

def fraction (d : Decimal) : Nat × Nat :=
  if 0 ≤ d.exponent then (d.coefficient * Nat.pow 10 d.exponent.toNat, 1)
  else (d.coefficient, Nat.pow 10 (-d.exponent).toNat)

def digitCount (n : Nat) : Nat := (Nat.toDigits 10 n).length

def toDouble (d : Decimal) : Double :=
  let top := d.exponent + digitCount d.coefficient
  if d.coefficient = 0 then .finite 0 Double.minExponent
  -- So far out of range nothing has to be worked out.
  else if 400 < top then .infinite
  else if top < -400 then .finite 0 Double.minExponent
  else Double.nearest d.fraction.1 d.fraction.2

def around (tie : Tie) (m : Nat) (e k : Int) : List Decimal :=
  let (n, d) := Double.scaled m 1 e
  let (n, d) := if 0 ≤ k then (n, d * Nat.pow 10 k.toNat) else (n * Nat.pow 10 (-k).toNat, d)
  let near := roundedQuotient tie n d
  let other := if near = n / d then near + 1 else n / d
  [⟨false, near, k⟩, ⟨false, other, k⟩]

/-- The shortest decimal whose nearest double is the given one: it lies on the first of the grids
`10 ^ k`, from the coarsest, that has such a decimal next to the value. -/
def shortest? (tie : Tie) (m : Nat) (e : Int) (grids : List Int) : Option Decimal :=
  (grids.flatMap (around tie m e)).find? fun d => d.toDouble = .finite m e

def grids (m : Nat) (e : Int) : List Int :=
  let (n, d) := Double.scaled m 1 e
  let top : Int := if d ≤ n then digitCount (n / d) else 1 - digitCount (d / n)
  (List.range 20).map fun i : Nat => top - i

def plainText (d : Decimal) : String :=
  let digits := Nat.toDigits 10 d.coefficient
  if 0 ≤ d.exponent then
    String.ofList (digits ++ List.replicate d.exponent.toNat '0') ++ ".0"
  else
    let places := (-d.exponent).toNat
    let padded := List.replicate (places + 1 - digits.length) '0' ++ digits
    let cut := padded.length - places
    String.ofList (padded.take cut) ++ "." ++ String.ofList (padded.drop cut)

def point (d : Decimal) : Int := d.exponent + digitCount d.coefficient

def scientificText (d : Decimal) : String :=
  let digits := Nat.toDigits 10 d.coefficient
  let fraction := if digits.tail.isEmpty then [] else '.' :: digits.tail
  let power := d.point - 1
  String.ofList (digits.take 1 ++ fraction) ++ "e" ++ (if power < 0 then "-" else "+")
    ++ toString power.natAbs

def normalized (d : Decimal) : Decimal :=
  let digits := (Nat.toDigits 10 d.coefficient).reverse
  let zeros := (digits.takeWhile (· == '0')).length
  if d.coefficient = 0 then ⟨d.negative, 0, 0⟩
  else ⟨d.negative, d.coefficient / Nat.pow 10 zeros, d.exponent + zeros⟩

def shortest (tie : Tie) (m : Nat) (e : Int) : Decimal :=
  normalized ((shortest? tie m e (grids m e)).getD default)

def doubleText (d : Decimal) : String :=
  let sign := if d.negative then "-" else ""
  match d.toDouble with
  | .infinite => sign ++ "inf"
  | .finite 0 _ => sign ++ "0.0"
  | .finite m e => sign ++ (shortest .up m e).plainText

end Decimal

end NativeBuild
