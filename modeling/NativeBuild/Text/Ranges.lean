namespace NativeBuild.Text

def inRanges : List (Nat × Nat) → Nat → Bool
  | [], _ => false
  | (lo, hi) :: rest, n => lo ≤ n && (n ≤ hi || inRanges rest n)

end NativeBuild.Text
